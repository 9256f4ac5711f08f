import Mathlib.Data.List.Infix
import Mathlib.Tactic.Common

/-!
# Maximal runs

A maximal run of `x` in a list is a range of positions that all hold `x` and that cannot be
made longer. Every range of `x` lies in one, and a maximal run contains every range of `x` it
meets, so that there is only one around each position.
-/
namespace Defib.MaximalRuns
open List

variable {α : Type*} {xs : List α} {x : α} {a b c d i : ℕ}

/-- The positions from `a` on and before `b` all hold `x`. -/
def Filled (xs : List α) (x : α) (a b : ℕ) : Prop := ∀ j,a ≤ j → j < b → xs[j]? = some x

structure MaximalRun (xs : List α) (x : α) (a b : ℕ) : Prop where
  filled : Filled xs x a b
  left : ∀ j,j+1 = a → xs[j]? ≠ some x
  right : xs[b]? ≠ some x

lemma MaximalRun.covers (h : MaximalRun xs x c d) (hc : c ≤ i) (hd : i < d)
    (hfilled : Filled xs x a b) (ha : a ≤ i) (hb : i < b) : c ≤ a ∧ b ≤ d := by
  constructor
  · by_contra hlt
    exact h.left (c-1) (by omega) (hfilled _ (by omega) (by omega))
  · by_contra hlt
    exact h.right (hfilled _ (by omega) (by omega))

lemma exists_left (hfilled : Filled xs x a b) :
    ∃ c ≤ a,Filled xs x c b ∧ ∀ j,j+1 = c → xs[j]? ≠ some x := by
  induction a with
  | zero => exact ⟨0,le_rfl,hfilled,fun j hj => absurd hj (Nat.succ_ne_zero j)⟩
  | succ a ih =>
    by_cases hbefore : xs[a]? = some x
    · have hlonger : Filled xs x a b := by
        intro j hj hjb
        rcases Nat.eq_or_lt_of_le hj with rfl | hlt
        · exact hbefore
        · exact hfilled j hlt hjb
      obtain ⟨c,hc,hrun⟩ := ih hlonger
      exact ⟨c,by omega,hrun⟩
    · refine ⟨a+1,le_rfl,hfilled,fun j hj => ?_⟩
      rwa [Nat.succ.inj hj]

lemma exists_right (hfilled : Filled xs x a b) (n : ℕ) (hn : xs.length ≤ b+n) :
    ∃ d,b ≤ d ∧ Filled xs x a d ∧ xs[d]? ≠ some x := by
  induction n generalizing b with
  | zero =>
    rw [Nat.add_zero] at hn
    refine ⟨b,le_rfl,hfilled,?_⟩
    rw [getElem?_eq_none hn]
    exact nofun
  | succ n ih =>
    by_cases hnext : xs[b]? = some x
    · have hlonger : Filled xs x a (b+1) := by
        intro j hj hjb
        rcases Nat.eq_or_lt_of_le (Nat.le_of_lt_succ hjb) with rfl | hlt
        · exact hnext
        · exact hfilled j hj hlt
      obtain ⟨d,hd,hrun⟩ := ih hlonger (by omega)
      exact ⟨d,by omega,hrun⟩
    · exact ⟨b,le_rfl,hfilled,hnext⟩

lemma exists_maximalRun (hfilled : Filled xs x a b) :
    ∃ c d,c ≤ a ∧ b ≤ d ∧ MaximalRun xs x c d := by
  obtain ⟨c,hc,hrun,hleft⟩ := exists_left hfilled
  obtain ⟨d,hd,hrun',hright⟩ := exists_right hrun xs.length (by omega)
  exact ⟨c,d,hc,hd,hrun',hleft,hright⟩

lemma replicate_infix_iff {n : ℕ} :
    List.replicate n x <:+: xs ↔ ∃ a,Filled xs x a (a+n) := by
  constructor
  · rintro ⟨u,v,rfl⟩
    refine ⟨u.length,fun j hj hjn => ?_⟩
    rw [append_assoc,getElem?_append_right hj,getElem?_append_left (by simp; omega),
      getElem?_replicate,if_pos (by omega)]
  · rintro ⟨a,hfilled⟩
    have hpiece : (xs.drop a).take n = List.replicate n x := by
      apply ext_getElem?
      intro j
      rw [getElem?_replicate,getElem?_take]
      split_ifs with hj
      · rw [getElem?_drop]
        exact hfilled _ (by omega) (by omega)
      · rfl
    rw [← hpiece]
    exact (List.take_prefix n _).isInfix.trans (drop_suffix a xs).isInfix

lemma tails_any_iff [DecidableEq α] {n : ℕ} :
    xs.tails.any (fun s => s.take n = List.replicate n x) = true ↔
      List.replicate n x <:+: xs := by
  rw [any_eq_true,infix_iff_prefix_suffix]
  refine exists_congr fun s => ?_
  rw [mem_tails,decide_eq_true_eq,and_comm,prefix_iff_eq_take,length_replicate]
  exact and_congr_left fun _ => eq_comm

end Defib.MaximalRuns
