import Mathlib.Data.List.Basic

/-!
# Dictionaries in order of first insertion

An association list in which a repeated key keeps its place and takes the new value.
Filling one from a list of pairs leaves the last value of each key.
-/
namespace Defib.Dicts
open List

variable {K V : Type*} [DecidableEq K]

def setItem (k : K) (v : V) : List (K × V) → List (K × V)
  | [] => [(k,v)]
  | p::d => if p.1 = k then (k,v)::d else p::setItem k v d

def getItem (d : List (K × V)) (k : K) : Option V := (d.find? (·.1 = k)).map (·.2)

@[simp] lemma getItem_nil (k : K) : getItem ([] : List (K × V)) k = none := rfl

lemma getItem_cons (p : K × V) (d : List (K × V)) (k : K) :
    getItem (p::d) k = if p.1 = k then some p.2 else getItem d k := by
  by_cases h : p.1 = k <;> simp [getItem,h]

lemma getItem_append (d e : List (K × V)) (k : K) :
    getItem (d++e) k = (getItem d k).or (getItem e k) := by
  induction d with
  | nil => rfl
  | cons p d ih =>
    rw [cons_append,getItem_cons,getItem_cons,ih]
    split_ifs <;> rfl

lemma getItem_setItem (k j : K) (v : V) (d : List (K × V)) :
    getItem (setItem k v d) j = if k = j then some v else getItem d j := by
  induction d with
  | nil => rw [setItem,getItem_cons]
  | cons p d ih =>
    rw [setItem]
    by_cases hp : p.1 = k
    · rw [if_pos hp,getItem_cons,getItem_cons,hp]
      split_ifs <;> rfl
    · rw [if_neg hp,getItem_cons,getItem_cons,ih]
      by_cases hk : k = j
      · have hpj : p.1 ≠ j := hk ▸ hp
        simp only [if_neg hpj,if_pos hk]
      · simp only [if_neg hk]

lemma mem_setItem {k : K} {v : V} {d : List (K × V)} {p : K × V} (h : p ∈ setItem k v d) :
    p = (k,v) ∨ p ∈ d := by
  induction d with
  | nil => exact .inl (mem_singleton.mp h)
  | cons q d ih =>
    rw [setItem] at h
    split_ifs at h with hq
    · exact (mem_cons.mp h).imp id (mem_cons_of_mem q)
    · rcases mem_cons.mp h with rfl | h
      · exact .inr mem_cons_self
      · exact (ih h).imp id (mem_cons_of_mem q)

lemma setItem_ne_nil (k : K) (v : V) (d : List (K × V)) : setItem k v d ≠ [] := by
  cases d with
  | nil => exact cons_ne_nil _ _
  | cons p d =>
    rw [setItem]
    split_ifs <;> exact cons_ne_nil _ _

/-- A dictionary filled from pairs. -/
def fill (d ps : List (K × V)) : List (K × V) := ps.foldl (fun d p => setItem p.1 p.2 d) d

lemma getItem_fill (d ps : List (K × V)) (k : K) :
    getItem (fill d ps) k = (getItem ps.reverse k).or (getItem d k) := by
  induction ps generalizing d with
  | nil => rfl
  | cons p ps ih =>
    rw [fill,foldl_cons,← fill,ih,getItem_setItem,reverse_cons,getItem_append,
      Option.or_assoc,getItem_cons]
    split_ifs <;> rfl

lemma mem_fill {d ps : List (K × V)} {p : K × V} (h : p ∈ fill d ps) : p ∈ d ∨ p ∈ ps := by
  induction ps generalizing d with
  | nil => exact .inl h
  | cons q ps ih =>
    rcases ih h with h | h
    · rcases mem_setItem h with rfl | h
      · exact .inr mem_cons_self
      · exact .inl h
    · exact .inr (mem_cons_of_mem q h)

lemma fill_ne_nil {d ps : List (K × V)} (h : d ≠ [] ∨ ps ≠ []) : fill d ps ≠ [] := by
  induction ps generalizing d with
  | nil => exact h.resolve_right (fun h => h rfl)
  | cons p ps ih => exact ih (.inl (setItem_ne_nil p.1 p.2 d))

lemma getItem_isSome_iff (d : List (K × V)) (k : K) :
    (getItem d k).isSome = true ↔ ∃ p ∈ d,p.1 = k := by
  simp [getItem]

/-- A dictionary after `pop`. -/
def delItem (k : K) (d : List (K × V)) : List (K × V) := d.filter (·.1 ≠ k)

lemma getItem_delItem (k j : K) (d : List (K × V)) :
    getItem (delItem k d) j = if k = j then none else getItem d j := by
  induction d with
  | nil => rw [delItem,filter_nil,getItem_nil,ite_self]
  | cons p d ih =>
    by_cases hp : p.1 = k
    · rw [delItem,filter_cons_of_neg (by simpa using hp),← delItem,ih,getItem_cons,hp]
      split_ifs <;> rfl
    · rw [delItem,filter_cons_of_pos (by simpa using hp),← delItem,getItem_cons,ih,
        getItem_cons]
      by_cases hk : k = j
      · have hpj : p.1 ≠ j := hk ▸ hp
        simp only [if_neg hpj,if_pos hk]
      · simp only [if_neg hk]

end Defib.Dicts
