import Mathlib.Data.Nat.Log
import Mathlib.Tactic.Ring

/-!
# Natural numbers in double precision

A sum or a product of natural numbers in double precision is the exact one rounded to 53 bits,
half to even. Below 2^53 nothing is rounded, and what is rounded stays at 2^53 or above, so a
computation that only adds agrees with the exact one as far as comparisons with numbers below
2^53 can tell.
-/
namespace Defib.Doubles

def limit : ℕ := 9007199254740992

/-- The nearest number of 53 bits. -/
def round (n : ℕ) : ℕ :=
  if n < limit then n
  else
    let k := n.log2-52
    let q := n/2^k
    let r := n%2^k
    (if 2*r < 2^k ∨ 2*r = 2^k ∧ q%2 = 0 then q else q+1)*2^k

def add (a b : ℕ) : ℕ := round (a+b)

def mul (a b : ℕ) : ℕ := round (a*b)

lemma round_of_lt {n : ℕ} (h : n < limit) : round n = n := if_pos h

lemma add_of_lt {a b : ℕ} (h : a+b < limit) : add a b = a+b := round_of_lt h

lemma mul_of_lt {a b : ℕ} (h : a*b < limit) : mul a b = a*b := round_of_lt h

lemma le_round {n : ℕ} (h : limit ≤ n) : limit ≤ round n := by
  have hpow : limit = 2^52*2 := rfl
  have hn : n ≠ 0 := by
    rintro rfl
    cases h
  obtain ⟨k,hk⟩ : ∃ k,n.log2 = 52+(k+1) := by
    have hlog : 53 ≤ n.log2 := (Nat.le_log2 hn).mpr h
    exact ⟨n.log2-53,by omega⟩
  have hq : 2^52 ≤ n/2^(k+1) := by
    rw [Nat.le_div_iff_mul_le (Nat.two_pow_pos _),← Nat.pow_add,← hk]
    exact Nat.log2_self_le hn
  have hk2 : 2 ≤ 2^(k+1) := Nat.le_self_pow (Nat.succ_ne_zero k) 2
  rw [round,if_neg (Nat.not_lt.mpr h),hk,Nat.add_sub_cancel_left,hpow]
  dsimp only
  refine Nat.mul_le_mul ?_ hk2
  split
  · exact hq
  · exact hq.trans (Nat.le_succ _)

/-- The computed number is the exact one, or both are too large to be exact. -/
def Near (a x : ℕ) : Prop := a = x ∨ limit ≤ a ∧ limit ≤ x

lemma Near.refl (a : ℕ) : Near a a := .inl rfl

lemma near_round (n : ℕ) : Near (round n) n := by
  by_cases h : n < limit
  · exact .inl (round_of_lt h)
  · exact .inr ⟨le_round (Nat.not_lt.mp h),Nat.not_lt.mp h⟩

lemma Near.add {a x : ℕ} (h : Near a x) (b : ℕ) : Near (add a b) (x+b) := by
  rcases h with rfl | ⟨ha,hx⟩
  · exact near_round _
  · exact .inr ⟨le_round (ha.trans (Nat.le_add_right a b)),hx.trans (Nat.le_add_right x b)⟩

lemma Near.le_iff {a x n : ℕ} (h : Near a x) (hn : n < limit) : a ≤ n ↔ x ≤ n := by
  rcases h with rfl | ⟨ha,hx⟩
  · exact Iff.rfl
  · exact ⟨fun h => absurd (ha.trans h) (Nat.not_le.mpr hn),
      fun h => absurd (hx.trans h) (Nat.not_le.mpr hn)⟩

lemma Near.eq_of_le {a x n : ℕ} (h : Near a x) (hn : n < limit) (hx : x ≤ n) : a = x := by
  rcases h with rfl | ⟨-,hlimit⟩
  · rfl
  · exact absurd (hlimit.trans hx) (Nat.not_le.mpr hn)

end Defib.Doubles
