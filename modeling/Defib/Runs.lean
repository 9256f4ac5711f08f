import Mathlib.Data.List.Basic

/-!
# Runs of a labelled system

A system is a step function on states and labels; nondeterminism is in the choice
of labels. `Along step P s ls` says that `P` holds of every step of the run `ls`
from `s`, that is of the state before the step and its label. An invariant kept
by the steps that meet a condition carries over to every run whose steps meet it.
-/
namespace Defib.Runs

variable {S L : Type*} (step : S → L → S)

def Along (P : S → L → Prop) : S → List L → Prop
  | _,[] => True
  | s,l::ls => P s l ∧ Along P (step s l) ls

instance Along.decidable (P : S → L → Prop) [∀ s l, Decidable (P s l)] :
    ∀ s ls, Decidable (Along step P s ls)
  | _,[] => isTrue trivial
  | s,l::ls =>
    haveI := Along.decidable P (step s l) ls
    inferInstanceAs (Decidable (P s l ∧ Along step P (step s l) ls))

variable {step} {C P : S → L → Prop} {Inv : S → Prop} {ls : List L} {s : S}

lemma Along.of_forall {Q : L → Prop} (h : ∀ l ∈ ls, Q l) :
    Along step (fun _ l => Q l) s ls := by
  induction ls generalizing s with
  | nil => trivial
  | cons l ls ih =>
    rw [List.forall_mem_cons] at h
    exact ⟨h.1,ih h.2⟩

lemma Along.mono (h : ∀ s l, C s l → P s l) (hc : Along step C s ls) :
    Along step P s ls := by
  induction ls generalizing s with
  | nil => trivial
  | cons l ls ih => exact ⟨h s l hc.1,ih hc.2⟩

lemma Along.and (hc : Along step C s ls) (hp : Along step P s ls) :
    Along step (fun s l => C s l ∧ P s l) s ls := by
  induction ls generalizing s with
  | nil => trivial
  | cons l ls ih => exact ⟨⟨hc.1,hp.1⟩,ih hc.2 hp.2⟩

lemma Along.invariant (hstep : ∀ s l, Inv s → C s l → Inv (step s l)) (hs : Inv s)
    (h : Along step C s ls) : Inv (ls.foldl step s) := by
  induction ls generalizing s with
  | nil => exact hs
  | cons l ls ih => exact ih (hstep s l hs h.1) h.2

lemma Along.of_invariant (hstep : ∀ s l, Inv s → C s l → Inv (step s l))
    (hsafe : ∀ s l, Inv s → C s l → P s l) (hs : Inv s)
    (h : Along step C s ls) : Along step P s ls := by
  induction ls generalizing s with
  | nil => trivial
  | cons l ls ih => exact ⟨hsafe s l hs h.1,ih (hstep s l hs h.1) h.2⟩

/-- Where the invariant makes `P` and `C` the same condition on a step, they are the same
condition on a run. -/
theorem Along.iff_of_invariant (hstep : ∀ s l, Inv s → C s l → Inv (step s l))
    (hiff : ∀ s l, Inv s → (P s l ↔ C s l)) (hs : Inv s) :
    Along step P s ls ↔ Along step C s ls := by
  induction ls generalizing s with
  | nil => exact Iff.rfl
  | cons l ls ih =>
    simp only [Along]
    rw [hiff s l hs]
    exact and_congr_right fun h => ih (hstep s l hs h)

/-- Where a step against `C` does lasting damage, the state after a run is good exactly if
every step met `C`. -/
theorem Along.good_iff {D : S → L → Prop} {Good Lost : S → Prop}
    (hinv : ∀ s l, Inv s → D s l → Inv (step s l))
    (hgood : ∀ s l, Inv s → D s l → Good s → C s l → Good (step s l))
    (hflaw : ∀ s l, Inv s → D s l → Good s → ¬C s l → Lost (step s l))
    (hlost : ∀ s l, Inv s → D s l → Lost s → Lost (step s l))
    (hnot : ∀ s, Inv s → Lost s → ¬Good s) (hs : Inv s) (hg : Good s)
    (hd : Along step D s ls) : Good (ls.foldl step s) ↔ Along step C s ls := by
  induction ls generalizing s with
  | nil => exact ⟨fun _ => trivial,fun _ => hg⟩
  | cons l ls ih =>
    have hnext := hinv s l hs hd.1
    by_cases hc : C s l
    · rw [List.foldl_cons,ih hnext (hgood s l hs hd.1 hg hc) hd.2]
      exact ⟨fun h => ⟨hc,h⟩,fun h => h.2⟩
    · have hend := Along.invariant
        (fun s l (h : Inv s ∧ Lost s) hd => ⟨hinv s l h.1 hd,hlost s l h.1 hd h.2⟩)
        ⟨hnext,hflaw s l hs hd.1 hg hc⟩ hd.2
      exact ⟨fun h => absurd h (hnot _ hend.1 hend.2),fun h => absurd h.1 hc⟩

end Defib.Runs
