import Mathlib.Data.List.Range
import Mathlib.Logic.Function.Basic

/-!
# Blocks of an address-indexed store

A store is a total function from natural addresses. A block is a start address
with a length: `slice` reads one, `blend` combines one with new cell values and
`patch` overwrites one. Cells outside the block are never touched, and two
adjacent blocks compose to one. Loops that walk a range piece by piece are
reduced to these facts; nothing here refers to a particular device.
-/
namespace Defib.BlockMemory
open List

variable {α β : Type*}

/-- The `n` cells from `a` on, in address order. -/
def slice (m : ℕ → α) (a n : ℕ) : List α := (List.range n).map fun i => m (a+i)

@[simp] lemma slice_length (m : ℕ → α) (a n : ℕ) : (slice m a n).length = n := by
  simp [slice]

@[simp] lemma slice_zero (m : ℕ → α) (a : ℕ) : slice m a 0 = [] := rfl

@[simp] lemma slice_getElem (m : ℕ → α) (a n i : ℕ) (h : i < (slice m a n).length) :
    (slice m a n)[i] = m (a+i) := by
  simp [slice]

lemma slice_add (m : ℕ → α) (a n k : ℕ) :
    slice m a (n+k) = slice m a n ++ slice m (a+n) k := by
  simp only [slice,range_add,map_append,map_map]
  congr 1
  apply map_congr_left
  intro i _
  simp [Nat.add_assoc]

lemma slice_part (m : ℕ → α) (a n o c : ℕ) (h : o+c ≤ n) :
    slice m (a+o) c = ((slice m a n).drop o).take c := by
  obtain ⟨k,rfl⟩ := Nat.exists_eq_add_of_le h
  rw [Nat.add_assoc,slice_add m a o,drop_left' (slice_length m a o),slice_add,
    take_left' (slice_length m (a+o) c)]

lemma slice_succ (m : ℕ → α) (a n : ℕ) : slice m a (n+1) = m a :: slice m (a+1) n := by
  rw [Nat.add_comm,slice_add]
  rfl

lemma slice_congr {m m' : ℕ → α} {a a' n : ℕ}
    (h : ∀ i < n, m (a+i) = m' (a'+i)) : slice m a n = slice m' a' n := by
  apply map_congr_left
  intro i hi
  exact h i (mem_range.mp hi)

lemma slice_eq_iff {m m' : ℕ → α} {a a' n : ℕ} :
    slice m a n = slice m' a' n ↔ ∀ i < n, m (a+i) = m' (a'+i) := by
  refine ⟨?_,slice_congr⟩
  intro h i hi
  have hg := congrArg (fun l => l[i]?) h
  simpa [slice,hi] using hg

lemma slice_eq_list_iff {m : ℕ → α} {a : ℕ} {xs : List α} :
    slice m a xs.length = xs ↔ ∀ (i : ℕ) (h : i < xs.length), m (a+i) = xs[i] := by
  constructor
  · intro h i hi
    have hg := congrArg (fun l => l[i]?) h
    simpa [slice,hi] using hg
  · intro h
    apply ext_getElem (by simp)
    intro i _ hi
    simpa using h i hi

/-- Combine the block at `a` with new values, cell by cell. -/
def blend (f : α → β → α) (m : ℕ → α) (a : ℕ) (xs : List β) : ℕ → α := fun x =>
  if x < a then m x else (xs[x-a]?).elim (m x) (f (m x))

lemma blend_outside (f : α → β → α) (m : ℕ → α) (a : ℕ) (xs : List β) {x : ℕ}
    (h : x < a ∨ a+xs.length ≤ x) : blend f m a xs x = m x := by
  unfold blend
  split_ifs with hx
  · rfl
  · rw [getElem?_eq_none (by omega)]
    rfl

lemma blend_inside (f : α → β → α) (m : ℕ → α) (a : ℕ) (xs : List β) {i : ℕ}
    (h : i < xs.length) : blend f m a xs (a+i) = f (m (a+i)) xs[i] := by
  simp [blend,h]

@[simp] lemma blend_nil (f : α → β → α) (m : ℕ → α) (a : ℕ) : blend f m a [] = m := by
  funext x
  exact blend_outside f m a [] (by simp only [length_nil]; omega)

lemma blend_append (f : α → β → α) (m : ℕ → α) (a : ℕ) (xs ys : List β) :
    blend f (blend f m a xs) (a+xs.length) ys = blend f m a (xs++ys) := by
  funext x
  by_cases hx : x < a+xs.length
  · rw [blend_outside f _ _ ys (.inl hx)]
    by_cases ha : x < a
    · rw [blend_outside f _ _ xs (.inl ha),blend_outside f _ _ (xs++ys) (.inl ha)]
    · obtain ⟨i,rfl⟩ := Nat.exists_eq_add_of_le (Nat.le_of_not_lt ha)
      have hi : i < xs.length := by omega
      rw [blend_inside f m a xs hi,blend_inside f m a (xs++ys) (by simp; omega),
        getElem_append_left hi]
  · obtain ⟨i,rfl⟩ := Nat.exists_eq_add_of_le (Nat.le_of_not_lt hx)
    by_cases hi : i < ys.length
    · rw [blend_inside f _ _ ys hi,blend_outside f m a xs (by omega),
        Nat.add_assoc,blend_inside f m a (xs++ys) (by simp; omega)]
      simp
    · rw [blend_outside f _ _ ys (by omega),blend_outside f m a xs (by omega),
        blend_outside f m a (xs++ys) (by simp; omega)]

/-- Values that are written round within a page of `k` cells: if they end before the page does,
this is a plain block. -/
theorem wrap_eq_blend (f : α → β → α) (m : ℕ → α) {k a : ℕ} (hk : 0 < k) {xs : List β}
    (h : a%k+xs.length ≤ k) (x : ℕ) :
    (if x/k = a/k then (xs[(x%k+k-a%k)%k]?).elim (m x) (f (m x)) else m x) =
      blend f m a xs x := by
  have hx := Nat.div_add_mod x k
  have ha := Nat.div_add_mod a k
  have hlt := Nat.mod_lt x hk
  have hlt' := Nat.mod_lt a hk
  by_cases hp : x/k = a/k
  · rw [if_pos hp]
    rw [hp] at hx
    rcases Nat.lt_or_ge x a with hxa | hxa
    · rw [blend_outside f m a xs (.inl hxa),Nat.mod_eq_of_lt (show x%k+k-a%k < k by omega),
        getElem?_eq_none (by omega)]
      rfl
    · have hidx : (x%k+k-a%k)%k = x-a := by
        rw [show x%k+k-a%k = x-a+k by omega,Nat.add_mod_right,Nat.mod_eq_of_lt (by omega)]
      rw [blend,if_neg (Nat.not_lt_of_le hxa),hidx]
  · rw [if_neg hp,blend_outside]
    -- all of the block is in the page of `a`
    by_contra hin
    refine hp (Nat.div_eq_of_lt_le ?_ ?_)
    · rw [Nat.mul_comm]
      omega
    · rw [Nat.mul_comm,Nat.mul_succ]
      omega

/-- Overwrite the block at `a`. -/
def patch (m : ℕ → α) (a : ℕ) (xs : List α) : ℕ → α := blend (fun _ y => y) m a xs

lemma patch_outside (m : ℕ → α) (a : ℕ) (xs : List α) {x : ℕ}
    (h : x < a ∨ a+xs.length ≤ x) : patch m a xs x = m x := blend_outside _ m a xs h

lemma patch_inside (m : ℕ → α) (a : ℕ) (xs : List α) {i : ℕ} (h : i < xs.length) :
    patch m a xs (a+i) = xs[i] := blend_inside _ m a xs h

@[simp] lemma patch_nil (m : ℕ → α) (a : ℕ) : patch m a [] = m := blend_nil _ m a

lemma patch_append (m : ℕ → α) (a : ℕ) (xs ys : List α) :
    patch (patch m a xs) (a+xs.length) ys = patch m a (xs++ys) := blend_append _ m a xs ys

lemma slice_patch_self (m : ℕ → α) (a : ℕ) (xs : List α) :
    slice (patch m a xs) a xs.length = xs :=
  slice_eq_list_iff.mpr fun _ hi => patch_inside m a xs hi

/-- A block apart from the overwritten one keeps its cells. -/
theorem slice_patch_apart (m : ℕ → α) (a b n : ℕ) (xs : List α)
    (h : b+n ≤ a ∨ a+xs.length ≤ b) : slice (patch m a xs) b n = slice m b n := by
  apply slice_congr
  intro i hi
  exact patch_outside m a xs (by omega)

lemma patch_patch_same (m : ℕ → α) (a : ℕ) {xs ys : List α} (h : xs.length = ys.length) :
    patch (patch m a xs) a ys = patch m a ys := by
  funext x
  by_cases hx : x < a ∨ a+ys.length ≤ x
  · rw [patch_outside _ a ys hx,patch_outside m a ys hx,patch_outside m a xs (h ▸ hx)]
  · obtain ⟨i,rfl⟩ := Nat.exists_eq_add_of_le (show a ≤ x by omega)
    have hi : i < ys.length := by omega
    rw [patch_inside _ a ys hi,patch_inside m a ys hi]

/-- Blocks apart from each other are written in either order. -/
theorem patch_comm (m : ℕ → α) {a b : ℕ} (xs ys : List α) (h : a+xs.length ≤ b) :
    patch (patch m a xs) b ys = patch (patch m b ys) a xs := by
  funext x
  by_cases hx : x < b ∨ b+ys.length ≤ x
  · rw [patch_outside _ b ys hx]
    by_cases ha : x < a ∨ a+xs.length ≤ x
    · rw [patch_outside m a xs ha,patch_outside _ a xs ha,patch_outside m b ys hx]
    · obtain ⟨i,rfl⟩ := Nat.exists_eq_add_of_le (show a ≤ x by omega)
      have hi : i < xs.length := by omega
      rw [patch_inside m a xs hi,patch_inside _ a xs hi]
  · rw [patch_outside _ a xs (by omega)]
    obtain ⟨i,rfl⟩ := Nat.exists_eq_add_of_le (show b ≤ x by omega)
    have hi : i < ys.length := by omega
    rw [patch_inside _ b ys hi,patch_inside m b ys hi]

lemma patch_singleton (m : ℕ → α) (a : ℕ) (x : α) :
    patch m a [x] = Function.update m a x := by
  funext y
  by_cases h : y = a
  · subst h
    rw [Function.update_self]
    exact patch_inside m y [x] (i := 0) (by simp)
  · rw [Function.update_of_ne h]
    exact patch_outside m a [x] (by simp only [length_singleton]; omega)

/-- Set every cell of the aligned `B`-block that contains `a`. -/
def fillBlock (B : ℕ) (m : ℕ → α) (a : ℕ) (v : α) : ℕ → α := fun x => if x/B = a/B then v else m x

lemma fillBlock_same {B x a : ℕ} (m : ℕ → α) (v : α) (h : x/B = a/B) :
    fillBlock B m a v x = v := if_pos h

lemma fillBlock_other {B x a : ℕ} (m : ℕ → α) (v : α) (h : x/B ≠ a/B) :
    fillBlock B m a v x = m x := if_neg h

lemma fillBlock_congr {B a b : ℕ} (m : ℕ → α) (v : α) (h : a/B = b/B) :
    fillBlock B m a v = fillBlock B m b v := by
  funext x
  simp only [fillBlock,h]

end Defib.BlockMemory
