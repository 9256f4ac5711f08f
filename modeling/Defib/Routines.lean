import Defib.Dialogue

/-!
# Routines with a state

A routine is a program with a state that outlives an exception: it ends with a value or by
raising, and either way with the state it has come to. `Ends` is its rule: every question is
allowed, every end keeps the invariant and a value meets the postcondition, as long as the
answers are admissible.
-/
namespace Defib.Routines
open Dialogue

variable {C R S A B : Type}

def Routine (C R S A : Type) : Type := S → Program C R (Option A × S)

/-- The program with its failure as a result. -/
def caught : Program C R A → Program C R (Option A)
  | .done a => .done (some a)
  | .fail => .done none
  | .ask c next => .ask c fun r => caught (next r)

namespace Routine

/-- What comes after a routine that has ended. -/
def followed (f : A → Routine C R S B) : Option A × S → Program C R (Option B × S)
  | (some a,s) => f a s
  | (none,s) => .done (none,s)

instance : Monad (Routine C R S) where
  pure a := fun s => .done (some a,s)
  bind x f := fun s => x s >>= followed f

def raise : Routine C R S A := fun s => .done (none,s)

/-- A program that does not touch the state. -/
def perform (p : Program C R A) : Routine C R S A := fun s => caught p >>= fun r => pure (r,s)

def current : Routine C R S S := fun s => .done (some s,s)

def update (f : S → S) : Routine C R S Unit := fun s => .done (some (),f s)

end Routine

open Routine

/-! ## Invariants -/

def Ends (G : C → R → Prop) (P : C → Prop) (I : S → Prop) (Q : A → S → Prop)
    (p : Program C R (Option A × S)) : Prop :=
  Program.Safe G P (fun r _ => I r.2 ∧ ∀ a,r.1 = some a → Q a r.2) p

section
variable {G : C → R → Prop} {P : C → Prop} {I : S → Prop} {Q : A → S → Prop} {s : S}

lemma Ends.pure {a : A} (hs : I s) (ha : Q a s) :
    Ends G P I Q ((Pure.pure a : Routine C R S A) s) :=
  ⟨hs,fun _ h => Option.some.inj h ▸ ha⟩

lemma Ends.raise (hs : I s) : Ends G P I Q ((Routine.raise : Routine C R S A) s) := ⟨hs,nofun⟩

lemma Ends.bind {x : Routine C R S A} {f : A → Routine C R S B} {Q' : B → S → Prop}
    (hx : Ends G P I Q (x s)) (hf : ∀ a s',I s' → Q a s' → Ends G P I Q' (f a s')) :
    Ends G P I Q' ((x >>= f) s) := by
  refine Program.Safe.bind hx ?_
  intro r l hr
  obtain ⟨r,s'⟩ := r
  cases r with
  | none => exact ⟨hr.1,nofun⟩
  | some a => exact hf a s' hr.1 (hr.2 a rfl)

lemma safe_caught {Q : A → List (C × R) → Prop} {p : Program C R A}
    (hp : Program.Safe G P Q p) :
    Program.Safe G P (fun r l => ∀ a,r = some a → Q a l) (caught p) := by
  induction p generalizing Q with
  | done a => exact fun b h => Option.some.inj h ▸ hp
  | fail => exact nofun
  | ask c next ih => exact ⟨hp.1,fun r hr => ih r (hp.2 r hr)⟩

lemma Ends.perform {Q : A → Prop} {p : Program C R A} (hs : I s)
    (hp : Program.Safe G P (fun a _ => Q a) p) :
    Ends G P I (fun a s' => Q a ∧ s' = s) ((Routine.perform p : Routine C R S A) s) := by
  refine Program.Safe.bind (safe_caught hp) ?_
  intro r l hr
  exact ⟨hs,fun a ha => ⟨hr a ha,rfl⟩⟩

lemma current_bind (f : S → Routine C R S A) (s : S) : (current >>= f) s = f s s := rfl

lemma Ends.update {f : S → S} (hs : I (f s)) :
    Ends G P I (fun _ _ => True) ((Routine.update f : Routine C R S Unit) s) :=
  ⟨hs,fun _ _ => trivial⟩

/-- A loop without a value: every round keeps the invariant. -/
theorem Ends.forM {X : Type} {f : X → Routine C R S PUnit} {xs : List X}
    (hstep : ∀ x ∈ xs,∀ s,I s → Ends G P I (fun _ _ => True) (f x s)) (hs : I s) :
    Ends G P I (fun _ _ => True) ((xs.forM f : Routine C R S PUnit) s) := by
  induction xs generalizing s with
  | nil => exact Ends.pure hs trivial
  | cons x xs ih =>
    show Ends G P I _ ((f x >>= fun _ => xs.forM f) s)
    refine (hstep x List.mem_cons_self s hs).bind fun _ s' hs' _ => ?_
    exact ih (fun y hy => hstep y (List.mem_cons_of_mem x hy)) hs'

end

end Defib.Routines
