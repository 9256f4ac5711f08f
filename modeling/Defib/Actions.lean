import Mathlib.Data.List.Basic

/-!
# Actions that change a state and may raise

What an action did before it raised stays done. `Leads R x` says that the state after `x`,
whether it returned or raised, is related by `R` to the state before; for a reflexive and
transitive `R` it carries over to composed actions.
-/
namespace Defib.Actions

abbrev Act (E S A : Type) := ExceptT E (StateM S) A

/-- An action whose exception goes to a handler. -/
def attempt {E S A : Type} (x : Act E S A) (handle : E → Act E S A) : Act E S A := fun s =>
  match x s with
  | (.ok a,s') => (.ok a,s')
  | (.error e,s') => handle e s'

/-- An action with one that follows in any case; if that one raises, its exception counts. -/
def ensure {E S A : Type} (x : Act E S A) (last : Act E S Unit) : Act E S A := fun s =>
  match last (x s).2 with
  | (.ok _,s') => ((x s).1,s')
  | (.error e,s') => (.error e,s')

/-- What is known without the state. -/
def given {E S A : Type} (x : Except E A) : Act E S A := fun s => (x,s)

section Results
variable {E A B : Type}

lemma ok_bind (a : A) (f : A → Except E B) : (Except.ok a >>= f) = f a := rfl

lemma except_bind_eq_ok {x : Except E A} {f : A → Except E B} {b : B}
    (h : (x >>= f) = .ok b) : ∃ a,x = .ok a ∧ f a = .ok b := by
  cases x with
  | error e => cases h
  | ok a => exact ⟨a,rfl,h⟩

end Results

section
variable {E S A B : Type} {R : S → S → Prop} {x : Act E S A} {f : A → Act E S B} {s s' : S}

lemma bind_ok {a : A} (h : x s = (.ok a,s')) : (x >>= f) s = f a s' := by
  change ExceptT.bindCont f (x s).1 (x s).2 = _
  rw [h]
  rfl

lemma bind_error {e : E} (h : x s = (.error e,s')) : (x >>= f) s = (.error e,s') := by
  change ExceptT.bindCont f (x s).1 (x s).2 = _
  rw [h]
  rfl

lemma bind_eq_ok {b : B} (h : (x >>= f) s = (.ok b,s')) :
    ∃ a t,x s = (.ok a,t) ∧ f a t = (.ok b,s') := by
  cases hx : x s with
  | mk r t =>
    cases r with
    | ok a => exact ⟨a,t,rfl,(bind_ok hx).symm.trans h⟩
    | error e =>
      rw [bind_error hx] at h
      cases h

lemma get_bind (g : S → Act E S A) : (get >>= g) s = g s s := bind_ok rfl

lemma given_ok_bind (a : A) : (given (.ok a) >>= f) s = f a s := bind_ok rfl

lemma given_error_bind (e : E) : ((given (.error e) : Act E S A) >>= f) s = (.error e,s) :=
  bind_error rfl

lemma attempt_ok {handle : E → Act E S A} {a : A} (h : x s = (.ok a,s')) :
    attempt x handle s = (.ok a,s') := by
  rw [attempt,h]

lemma attempt_error {handle : E → Act E S A} {e : E} (h : x s = (.error e,s')) :
    attempt x handle s = handle e s' := by
  rw [attempt,h]

lemma ensure_state (x : Act E S A) (last : Act E S Unit) (s : S) :
    (ensure x last s).2 = (last (x s).2).2 := by
  rw [ensure]
  split
  next h => rw [h]
  next h => rw [h]

def Leads (R : S → S → Prop) (x : Act E S A) : Prop := ∀ s,R s (x s).2

lemma Leads.pure (hrefl : ∀ s,R s s) (a : A) : Leads R (Pure.pure a : Act E S A) := hrefl

lemma Leads.throw (hrefl : ∀ s,R s s) (e : E) : Leads R (throw e : Act E S A) := hrefl

lemma Leads.bind (htrans : ∀ s t u,R s t → R t u → R s u) (hx : Leads R x)
    (hf : ∀ a,Leads R (f a)) : Leads R (x >>= f) := by
  intro s
  have hs := hx s
  cases h : x s with
  | mk r t =>
    rw [h] at hs
    cases r with
    | ok a =>
      rw [bind_ok h]
      exact htrans s t _ hs (hf a t)
    | error e =>
      rw [bind_error h]
      exact hs

lemma Leads.forM {X : Type} {g : X → Act E S PUnit} {xs : List X} (hrefl : ∀ s,R s s)
    (htrans : ∀ s t u,R s t → R t u → R s u) (hg : ∀ x ∈ xs,Leads R (g x)) :
    Leads R (xs.forM g : Act E S PUnit) := by
  induction xs with
  | nil => exact hrefl
  | cons x xs ih =>
    rw [List.forall_mem_cons] at hg
    exact Leads.bind htrans hg.1 fun _ => ih hg.2

end

end Defib.Actions
