import Mathlib.Logic.Function.Basic
import Mathlib.Data.List.Basic

/-!
# Rings with one free slot

A queue in `n` slots with an index for the next write and one for the next read. The indices
are equal when the queue is empty, so one slot stays free, and a write into a full ring is
dropped. `contents` is the queue as a list, the oldest element first.
-/
namespace Defib.Rings
open List

structure Ring (α : Type*) (n : ℕ) where
  slots : ℕ → α
  head : ℕ
  tail : ℕ
  head_lt : head < n
  tail_lt : tail < n

namespace Ring
variable {α : Type*} {n : ℕ} (r : Ring α n)

def push (x : α) : Ring α n :=
  if (r.head+1)%n = r.tail then r
  else {r with
    slots := Function.update r.slots r.head x
    head := (r.head+1)%n
    head_lt := Nat.mod_lt _ (Nat.zero_lt_of_lt r.head_lt)}

def pop : Option (α × Ring α n) :=
  if r.head = r.tail then none
  else some (r.slots r.tail,{r with
    tail := (r.tail+1)%n
    tail_lt := Nat.mod_lt _ (Nat.zero_lt_of_lt r.tail_lt)})

def count : ℕ := if r.tail ≤ r.head then r.head-r.tail else r.head+n-r.tail

def contents : List α := (List.range r.count).map fun i => r.slots ((r.tail+i)%n)

@[simp] lemma contents_length : r.contents.length = r.count := by simp [contents]

lemma count_lt : r.count < n := by
  have hhead := r.head_lt
  have htail := r.tail_lt
  unfold count
  split_ifs <;> omega

lemma count_eq_iff {c : ℕ} (hc : c < n) : r.count = c ↔ (r.tail+c)%n = r.head := by
  have hhead := r.head_lt
  have htail := r.tail_lt
  have hmod : (r.tail+c)%n = if r.tail+c < n then r.tail+c else r.tail+c-n := by
    split_ifs with h
    · exact Nat.mod_eq_of_lt h
    · rw [Nat.mod_eq_sub_mod (by omega),Nat.mod_eq_of_lt (by omega)]
  rw [hmod,count]
  split_ifs <;> omega

lemma tail_add_count : (r.tail+r.count)%n = r.head := (r.count_eq_iff r.count_lt).mp rfl

lemma full_iff : (r.head+1)%n = r.tail ↔ ¬r.count+1 < n := by
  have htail := r.tail_lt
  have hcount := r.count_lt
  rw [← tail_add_count,Nat.mod_add_mod,Nat.add_assoc]
  rcases Nat.lt_or_ge (r.tail+(r.count+1)) n with h | h
  · rw [Nat.mod_eq_of_lt h]
    omega
  · rw [Nat.mod_eq_sub_mod h,Nat.mod_eq_of_lt (by omega)]
    omega

lemma push_room (h : r.count+1 < n) (x : α) :
    (r.push x).slots = Function.update r.slots r.head x ∧ (r.push x).head = (r.head+1)%n ∧
      (r.push x).tail = r.tail := by
  rw [push,if_neg (fun hfull => r.full_iff.mp hfull h)]
  exact ⟨rfl,rfl,rfl⟩

lemma contents_push (x : α) : (r.push x).contents =
    if r.contents.length+1 < n then r.contents++[x] else r.contents := by
  rw [contents_length]
  by_cases h : r.count+1 < n
  · obtain ⟨hslots,hhead,htail⟩ := r.push_room h x
    have hcount : (r.push x).count = r.count+1 := by
      rw [count_eq_iff _ h,hhead,htail,← Nat.add_assoc,← Nat.mod_add_mod,tail_add_count]
    rw [if_pos h,contents,hcount,hslots,htail,range_succ,map_append]
    refine congrArg₂ (·++·) (map_congr_left fun i hi => Function.update_of_ne ?_ _ _) ?_
    · rw [mem_range] at hi
      intro hsame
      exact Nat.ne_of_gt hi ((r.count_eq_iff (Nat.lt_trans hi r.count_lt)).mpr hsame)
    · rw [map_singleton,tail_add_count,Function.update_self]
  · rw [if_neg h,push,if_pos (r.full_iff.mpr h)]

lemma pop_none (h : r.pop = none) : r.contents = [] := by
  rw [pop] at h
  split_ifs at h with hempty
  simp [contents,count,hempty]

lemma pop_some {x : α} {r' : Ring α n} (h : r.pop = some (x,r')) :
    r.contents = x::r'.contents := by
  rw [pop] at h
  split_ifs at h with hempty
  have hlast := r.tail_add_count
  have hcount := r.count_lt
  obtain ⟨c,hc⟩ : ∃ c,r.count = c+1 := by
    refine Nat.exists_eq_add_one.mpr (Nat.pos_of_ne_zero fun hzero => hempty ?_)
    rw [← hlast,hzero,Nat.add_zero,Nat.mod_eq_of_lt r.tail_lt]
  cases h
  have hnext : ∀ i,(r.tail+(i+1))%n = ((r.tail+1)%n+i)%n := by
    intro i
    rw [Nat.mod_add_mod,Nat.add_right_comm,Nat.add_assoc]
  rw [hc,hnext] at hlast
  rw [contents,hc,range_succ_eq_map,map_cons,map_map,contents,
    (count_eq_iff _ (by omega)).mpr hlast,Nat.add_zero,Nat.mod_eq_of_lt r.tail_lt]
  exact congrArg (r.slots r.tail::·) (map_congr_left fun i _ => congrArg r.slots (hnext i))

end Ring

end Defib.Rings
