import Mathlib.Data.List.Forall2
import Mathlib.Tactic.Common

/-!
# A partial function on every element of a list

`List.mapM` in `Option` succeeds when the function is defined on every element, and its
result is related to the list element by element.
-/
namespace Defib.PartialMap
open List

variable {α β : Type} {f : α → Option β}

lemma mapM_eq_some_iff {xs : List α} {ys : List β} :
    xs.mapM f = some ys ↔ List.Forall₂ (fun x y => f x = some y) xs ys := by
  induction xs generalizing ys with
  | nil =>
    rw [forall₂_nil_left_iff,mapM_nil]
    exact ⟨fun h => (Option.some.inj h).symm,fun h => congrArg some h.symm⟩
  | cons x xs ih =>
    rw [forall₂_cons_left_iff,mapM_cons]
    simp only [Option.bind_eq_bind,Option.bind_eq_some_iff,Option.pure_def,Option.some.injEq]
    constructor
    · intro ⟨y,hy,zs,hzs,heq⟩
      exact ⟨y,zs,hy,ih.mp hzs,heq.symm⟩
    · intro ⟨y,zs,hy,hzs,heq⟩
      exact ⟨y,hy,zs,ih.mpr hzs,heq.symm⟩

lemma mapM_isSome_iff {xs : List α} :
    (xs.mapM f).isSome = true ↔ ∀ x ∈ xs,(f x).isSome = true := by
  induction xs with
  | nil => exact ⟨fun _ => nofun,fun _ => rfl⟩
  | cons x xs ih =>
    rw [mapM_cons,forall_mem_cons,← ih]
    cases f x with
    | none => exact ⟨nofun,fun h => absurd h.1 nofun⟩
    | some y =>
      cases xs.mapM f with
      | none => exact ⟨nofun,fun h => absurd h.2 nofun⟩
      | some ys => exact ⟨fun _ => ⟨rfl,rfl⟩,fun _ => rfl⟩

/-- A function that returns where `P` holds and raises something `bad` elsewhere does so along
a list: the first element without `P` decides. -/
theorem except_mapM {E : Type} {f : α → Except E β} {g : α → β} {P : α → Prop} {bad : E → Prop}
    (hok : ∀ x,P x → f x = .ok (g x)) (hbad : ∀ x,¬P x → ∃ e,bad e ∧ f x = .error e)
    (xs : List α) :
    ((∀ x ∈ xs,P x) → xs.mapM f = .ok (xs.map g)) ∧
      ((¬∀ x ∈ xs,P x) → ∃ e,bad e ∧ xs.mapM f = .error e) := by
  induction xs with
  | nil => exact ⟨fun _ => rfl,fun h => absurd (by simp) h⟩
  | cons x xs ih =>
    rw [forall_mem_cons,mapM_cons]
    refine ⟨?_,?_⟩
    · intro ⟨hx,hxs⟩
      rw [hok x hx,ih.1 hxs]
      rfl
    · intro hnot
      by_cases hx : P x
      · obtain ⟨e,he,hrest⟩ := ih.2 fun hxs => hnot ⟨hx,hxs⟩
        refine ⟨e,he,?_⟩
        rw [hok x hx,hrest]
        rfl
      · obtain ⟨e,he,hfirst⟩ := hbad x hx
        refine ⟨e,he,?_⟩
        rw [hfirst]
        rfl

end Defib.PartialMap
