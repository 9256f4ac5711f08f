import Mathlib.Data.List.Basic

/-!
# Fields of a buffer

`field xs i n` are the `n` elements from `i` on, `splice xs i ys` is the buffer with `ys` in
the place of as many elements from `i` on. A splice changes the elements in its place and no
others.
-/
namespace Defib.Splices
open List

variable {α : Type*} {xs ys : List α} {i : ℕ}

def field (xs : List α) (i n : ℕ) : List α := (xs.drop i).take n

def splice (xs : List α) (i : ℕ) (ys : List α) : List α :=
  xs.take i++(ys++xs.drop (i+ys.length))

lemma splice_length (h : i+ys.length ≤ xs.length) : (splice xs i ys).length = xs.length := by
  rw [splice,length_append,length_append,length_take,length_drop]
  omega

lemma splice_outside (h : i+ys.length ≤ xs.length) {j : ℕ} (hj : j < i ∨ i+ys.length ≤ j) :
    (splice xs i ys)[j]? = xs[j]? := by
  have hlen : (xs.take i).length = i := length_take_of_le (by omega)
  rcases hj with hj | hj
  · rw [splice,getElem?_append_left (by omega),getElem?_take_of_lt hj]
  · rw [splice,getElem?_append_right (by omega),getElem?_append_right (by omega),
      getElem?_drop]
    congr 1
    omega

lemma field_splice {n : ℕ} (h : i ≤ xs.length) (hn : ys.length = n) :
    field (splice xs i ys) i n = ys := by
  have hlen : (xs.take i).length = i := length_take_of_le h
  rw [field,splice,drop_left' hlen,← hn,take_left]

lemma field_splice_outside (h : i+ys.length ≤ xs.length) {j n : ℕ}
    (hj : j+n ≤ i ∨ i+ys.length ≤ j) : field (splice xs i ys) j n = field xs j n := by
  apply ext_getElem?
  intro k
  rw [field,field,getElem?_take,getElem?_take,getElem?_drop,getElem?_drop]
  by_cases hk : k < n
  · rw [if_pos hk,if_pos hk,splice_outside h (by omega)]
  · rw [if_neg hk,if_neg hk]

/-- Places in a buffer one after the other. -/
def spliceAll (xs : List α) (fields : List (ℕ × List α)) : List α :=
  fields.foldl (fun xs f => splice xs f.1 f.2) xs

section Fields
variable {fields : List (ℕ × List α)}

lemma spliceAll_length (h : ∀ f ∈ fields,f.1+f.2.length ≤ xs.length) :
    (spliceAll xs fields).length = xs.length := by
  induction fields generalizing xs with
  | nil => rfl
  | cons f fields ih =>
    rw [forall_mem_cons] at h
    have hfirst := splice_length h.1
    have hrest := @ih (splice xs f.1 f.2) (by rw [hfirst]; exact h.2)
    exact hrest.trans hfirst

lemma field_spliceAll_outside (h : ∀ f ∈ fields,f.1+f.2.length ≤ xs.length) {j n : ℕ}
    (hj : ∀ f ∈ fields,j+n ≤ f.1 ∨ f.1+f.2.length ≤ j) :
    field (spliceAll xs fields) j n = field xs j n := by
  induction fields generalizing xs with
  | nil => rfl
  | cons f fields ih =>
    rw [forall_mem_cons] at h hj
    have hfirst := splice_length h.1
    have hrest := @ih (splice xs f.1 f.2) (by rw [hfirst]; exact h.2) hj.2
    exact hrest.trans (field_splice_outside h.1 hj.1)

lemma field_spliceAll {before after : List (ℕ × List α)}
    (h : ∀ f ∈ before++(i,ys)::after,f.1+f.2.length ≤ xs.length)
    (hafter : ∀ f ∈ after,i+ys.length ≤ f.1 ∨ f.1+f.2.length ≤ i) :
    field (spliceAll xs (before++(i,ys)::after)) i ys.length = ys := by
  rw [forall_mem_append,forall_mem_cons] at h
  obtain ⟨hbefore,hplace,hrest⟩ := h
  have hlen := spliceAll_length hbefore
  rw [spliceAll,foldl_append,foldl_cons]
  change field (spliceAll (splice (spliceAll xs before) i ys) after) i ys.length = ys
  have hinside : i+ys.length ≤ (spliceAll xs before).length := by rwa [hlen]
  rw [field_spliceAll_outside (by rwa [splice_length hinside,hlen]) hafter]
  exact field_splice (by omega) rfl

end Fields

lemma field_length {n : ℕ} (h : i+n ≤ xs.length) : (field xs i n).length = n := by
  rw [field,length_take,length_drop]
  omega

lemma field_append {n : ℕ} (h : i+n ≤ xs.length) (ys : List α) :
    field (xs++ys) i n = field xs i n := by
  rw [field,field,drop_append_of_le_length (by omega),
    take_append_of_le_length (by rw [length_drop]; omega)]

end Defib.Splices
