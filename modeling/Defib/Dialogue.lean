import Mathlib.Data.List.Forall2

/-!
# Programs that ask and are answered

A program asks a question, goes on according to the answer, and returns a value or
fails. `run` is its execution against a list of answers, `play` against a partner with a
fixed answer to every question, `converse` against one with a state. `Safe` is the rule of
postconditions: every question is allowed and the result meets the postcondition with the
dialogue that led to it, as long as the answers are admissible. `Keeps` also speaks of
dialogues that are cut short, `Ignores` of answers that are not looked at.
-/
namespace Defib.Dialogue
open List

variable {C R A B : Type}

inductive Program (C R A : Type)
  | done (a : A)
  | fail
  | ask (c : C) (next : R → Program C R A)

namespace Program

def bind (f : A → Program C R B) : Program C R A → Program C R B
  | done a => f a
  | fail => fail
  | ask c next => ask c fun r => bind f (next r)

instance : Monad (Program C R) where
  pure := done
  bind p f := bind f p

instance : LawfulMonad (Program C R) := LawfulMonad.mk' (Program C R)
  (fun p => by
    induction p with
    | done a => rfl
    | fail => rfl
    | ask c next ih => exact congrArg (ask c) (funext ih))
  (fun _ _ => rfl)
  (fun p f g => by
    induction p with
    | done a => rfl
    | fail => rfl
    | ask c next ih => exact congrArg (ask c) (funext ih))

/-- The dialogue and the result. Without an answer the program fails. -/
def run : Program C R A → List R → List (C × R) × Option A
  | done a,_ => ([],some a)
  | fail,_ => ([],none)
  | ask _ _,[] => ([],none)
  | ask c next,r::rs => ((c,r)::(run (next r) rs).1,(run (next r) rs).2)

def play (answer : C → R) : Program C R A → List (C × R) × Option A
  | done a => ([],some a)
  | fail => ([],none)
  | ask c next => ((c,answer c)::(play answer (next (answer c))).1,
      (play answer (next (answer c))).2)

/-- Under answers in `G`, only questions in `P`, and results with their dialogue in `Q`. -/
def Safe (G : C → R → Prop) (P : C → Prop) : (A → List (C × R) → Prop) → Program C R A → Prop
  | Q,done a => Q a []
  | _,fail => True
  | Q,ask c next => P c ∧ ∀ r,G c r → Safe G P (fun a l => Q a ((c,r)::l)) (next r)

variable {G : C → R → Prop} {P : C → Prop} {p : Program C R A}

lemma Safe.mono {Q Q' : A → List (C × R) → Prop} (h : ∀ a l,Q a l → Q' a l)
    (hp : Safe G P Q p) : Safe G P Q' p := by
  induction p generalizing Q Q' with
  | done a => exact h a [] hp
  | fail => trivial
  | ask c next ih => exact ⟨hp.1,fun r hr => ih r (fun a l => h a ((c,r)::l)) (hp.2 r hr)⟩

/-- What is known of the questions is known of the dialogue. -/
theorem Safe.logged {P' : C → Prop} {Q : A → List (C × R) → Prop}
    (hp : Safe G P Q p) (hP : ∀ c,P c → P' c) :
    Safe G P' (fun a l => Q a l ∧ ∀ x ∈ l,P x.1) p := by
  induction p generalizing Q with
  | done a => exact ⟨hp,nofun⟩
  | fail => trivial
  | ask c next ih =>
    refine ⟨hP c hp.1,fun r hr => (ih r (hp.2 r hr)).mono ?_⟩
    intro a l h
    exact ⟨h.1,forall_mem_cons.mpr ⟨hp.1,h.2⟩⟩

variable {f : A → Program C R B}

lemma Safe.bind {Q' : A → List (C × R) → Prop} {Q : B → List (C × R) → Prop}
    (hp : Safe G P Q' p)
    (hf : ∀ a l,Q' a l → Safe G P (fun b l' => Q b (l++l')) (f a)) : Safe G P Q (p >>= f) := by
  induction p generalizing Q Q' with
  | done a => exact hf a [] hp
  | fail => trivial
  | ask c next ih =>
    exact ⟨hp.1,fun r hr => ih r (hp.2 r hr) fun a l hq => hf a ((c,r)::l) hq⟩

/-- A loop: what one round makes of the state, the rounds done and the dialogue. -/
theorem Safe.foldlM {S X : Type} {f : S → X → Program C R S}
    {I : S → List X → List (C × R) → Prop} {xs : List X}
    (hstep : ∀ s d x l,x ∈ xs → I s d l → Safe G P (fun s' l' => I s' (d++[x]) (l++l')) (f s x))
    {s : S} {d : List X} {l : List (C × R)} (h : I s d l) :
    Safe G P (fun s' l' => I s' (d++xs) (l++l')) (xs.foldlM f s) := by
  induction xs generalizing s d l with
  | nil =>
    show I s (d++[]) (l++[])
    rwa [append_nil,append_nil]
  | cons x xs ih =>
    rw [foldlM_cons]
    refine (hstep s d x l mem_cons_self h).bind fun s' l' hi => ?_
    refine (ih (fun s d y l hy => hstep s d y l (mem_cons_of_mem x hy)) hi).mono ?_
    intro s'' l'' hq
    rwa [append_assoc,append_assoc] at hq

lemma Safe.run {Q : A → List (C × R) → Prop} (hp : Safe G P Q p)
    (rs : List R) (hG : ∀ x ∈ (p.run rs).1,G x.1 x.2) :
    (∀ x ∈ (p.run rs).1,P x.1) ∧ ∀ a,(p.run rs).2 = some a → Q a (p.run rs).1 := by
  induction p generalizing Q rs with
  | done a =>
    refine ⟨fun x hx => absurd hx not_mem_nil,fun b hb => ?_⟩
    cases hb
    exact hp
  | fail => exact ⟨fun x hx => absurd hx not_mem_nil,fun b hb => by cases hb⟩
  | ask c next ih =>
    cases rs with
    | nil => exact ⟨fun x hx => absurd hx not_mem_nil,fun b hb => by cases hb⟩
    | cons r rs =>
      have hG' := forall_mem_cons.mp hG
      obtain ⟨hquestions,hresult⟩ := ih r (hp.2 r hG'.1) rs hG'.2
      exact ⟨forall_mem_cons.mpr ⟨hp.1,hquestions⟩,hresult⟩

/-- Under answers in `G`, every dialogue, finished or not, is in `I`, and results are in `Q`. -/
def Keeps (G : C → R → Prop) :
    (List (C × R) → Prop) → (A → List (C × R) → Prop) → Program C R A → Prop
  | I,Q,done a => I [] ∧ Q a []
  | I,_,fail => I []
  | I,Q,ask c next => I [] ∧ ∀ r,G c r →
      Keeps G (fun l => I ((c,r)::l)) (fun a l => Q a ((c,r)::l)) (next r)

lemma Keeps.mono {I I' : List (C × R) → Prop} {Q Q' : A → List (C × R) → Prop}
    (hI : ∀ l,I l → I' l) (hQ : ∀ a l,Q a l → Q' a l) (hp : Keeps G I Q p) :
    Keeps G I' Q' p := by
  induction p generalizing I I' Q Q' with
  | done a => exact ⟨hI [] hp.1,hQ a [] hp.2⟩
  | fail => exact hI [] hp
  | ask c next ih =>
    exact ⟨hI [] hp.1,fun r hr =>
      ih r (fun l => hI ((c,r)::l)) (fun a l => hQ a ((c,r)::l)) (hp.2 r hr)⟩

lemma Keeps.bind {I : List (C × R) → Prop} {Q' : A → List (C × R) → Prop}
    {Q : B → List (C × R) → Prop} (hp : Keeps G I Q' p)
    (hf : ∀ a l,Q' a l → Keeps G (fun l' => I (l++l')) (fun b l' => Q b (l++l')) (f a)) :
    Keeps G I Q (p >>= f) := by
  induction p generalizing I Q Q' with
  | done a => exact hf a [] hp.2
  | fail => exact hp
  | ask c next ih =>
    exact ⟨hp.1,fun r hr => ih r (hp.2 r hr) fun a l hq => hf a ((c,r)::l) hq⟩

/-- A safe program keeps what no allowed question can break. -/
theorem Safe.keeps {I : List (C × R) → Prop} {Q : A → List (C × R) → Prop}
    (hp : Safe G P Q p) (hI : ∀ l,(∀ x ∈ l,P x.1) → I l) :
    Keeps G I (fun a l => I l ∧ Q a l) p := by
  induction p generalizing I Q with
  | done a => exact ⟨hI [] nofun,hI [] nofun,hp⟩
  | fail => exact hI [] nofun
  | ask c next ih =>
    refine ⟨hI [] nofun,fun r hr => ih r (hp.2 r hr) ?_⟩
    intro l hl
    exact hI ((c,r)::l) (forall_mem_cons.mpr ⟨hp.1,hl⟩)

lemma Keeps.run {I : List (C × R) → Prop} {Q : A → List (C × R) → Prop}
    (hp : Keeps G I Q p) (rs : List R) (hG : ∀ x ∈ (p.run rs).1,G x.1 x.2) :
    I (p.run rs).1 ∧ ∀ a,(p.run rs).2 = some a → Q a (p.run rs).1 := by
  induction p generalizing I Q rs with
  | done a =>
    refine ⟨hp.1,fun b hb => ?_⟩
    cases hb
    exact hp.2
  | fail => exact ⟨hp,fun b hb => by cases hb⟩
  | ask c next ih =>
    cases rs with
    | nil => exact ⟨hp.1,fun b hb => by cases hb⟩
    | cons r rs =>
      have hG' := forall_mem_cons.mp hG
      exact ih r (hp.2 r hG'.1) rs hG'.2

/-- What follows a question in `F` does not depend on its answer. -/
def Ignores (F : C → Prop) : Program C R A → Prop
  | done _ => True
  | fail => True
  | ask c next => (F c → ∀ r r',next r = next r') ∧ ∀ r,Ignores F (next r)

variable {F : C → Prop}

lemma Ignores.bind (hp : Ignores F p) (hf : ∀ a,Ignores F (f a)) : Ignores F (p >>= f) := by
  induction p with
  | done a => exact hf a
  | fail => trivial
  | ask c next ih =>
    exact ⟨fun hc r r' => congrArg (Program.bind f) (hp.1 hc r r'),fun r => ih r (hp.2 r)⟩

lemma Ignores.foldlM {S X : Type} {f : S → X → Program C R S} (hf : ∀ s x,Ignores F (f s x))
    (xs : List X) (s : S) : Ignores F (xs.foldlM f s) := by
  induction xs generalizing s with
  | nil => trivial
  | cons x xs ih =>
    rw [foldlM_cons]
    exact (hf s x).bind ih

/-- Other answers to questions in `F` lead to the same result. -/
theorem Ignores.run (hp : Ignores F p) {rs rs' : List R}
    (h : List.Forall₂ (fun x r => ¬F x.1 → r = x.2) (p.run rs).1 rs') :
    (p.run rs').2 = (p.run rs).2 := by
  induction p generalizing rs rs' with
  | done a => rfl
  | fail => rfl
  | ask c next ih =>
    cases rs with
    | nil =>
      cases h
      rfl
    | cons r rs =>
      cases h with
      | @cons _ r' _ rs' hr hrest =>
        have hnext : next r' = next r := by
          by_cases hc : F c
          · exact hp.1 hc r' r
          · rw [hr hc]
        show ((next r').run rs').2 = ((next r).run rs).2
        rw [hnext]
        exact ih r (hp.2 r) hrest

lemma play_bind (answer : C → R) (p : Program C R A) (f : A → Program C R B) :
    (p >>= f).play answer = match (p.play answer).2 with
      | some a => ((p.play answer).1++((f a).play answer).1,((f a).play answer).2)
      | none => ((p.play answer).1,none) := by
  induction p with
  | done a => rfl
  | fail => rfl
  | ask c next ih =>
    have hrest := ih (answer c)
    show ((c,answer c)::((next (answer c)) >>= f |>.play answer).1,
      ((next (answer c)) >>= f |>.play answer).2) = _
    rw [hrest]
    simp only [play]
    cases ((next (answer c)).play answer).2 <;> rfl

lemma play_bind_some {answer : C → R} {a : A}
    (h : (p.play answer).2 = some a) (f : A → Program C R B) : (p >>= f).play answer =
      ((p.play answer).1++((f a).play answer).1,((f a).play answer).2) := by
  rw [play_bind,h]

/-- A partner with fixed answers is one list of answers. -/
theorem exists_run_eq_play (answer : C → R) (p : Program C R A) :
    ∃ rs,p.run rs = p.play answer := by
  induction p with
  | done a => exact ⟨[],rfl⟩
  | fail => exact ⟨[],rfl⟩
  | ask c next ih =>
    obtain ⟨rs,hrs⟩ := ih (answer c)
    refine ⟨answer c::rs,?_⟩
    simp only [run,play,hrs]

end Program

/-- One question. -/
def ask (c : C) : Program C R R := .ask c .done

namespace Program

variable {G : C → R → Prop} {P : C → Prop} {Q : B → List (C × R) → Prop}

lemma Safe.pure {b : B} (h : Q b []) : Safe G P Q (pure b) := h

variable {f : R → Program C R B}

lemma Safe.ask_bind {c : C} (hc : P c)
    (h : ∀ r,G c r → Safe G P (fun b l => Q b ((c,r)::l)) (f r)) :
    Safe G P Q (Dialogue.ask c >>= f) := ⟨hc,h⟩

lemma Ignores.ask_bind {F : C → Prop} {c : C} (hc : ¬F c)
    (h : ∀ r,Ignores F (f r)) : Ignores F (Dialogue.ask c >>= f) :=
  ⟨fun h => absurd h hc,h⟩

lemma Ignores.ask_then {F : C → Prop} {c : C} {p : Program C R B} (h : Ignores F p) :
    Ignores F (Dialogue.ask c >>= fun _ => p) := ⟨fun _ _ _ => rfl,fun _ => h⟩

lemma Keeps.ask_bind {I : List (C × R) → Prop} {c : C} (h0 : I [])
    (h : ∀ r,G c r → Keeps G (fun l => I ((c,r)::l)) (fun b l => Q b ((c,r)::l)) (f r)) :
    Keeps G I Q (Dialogue.ask c >>= f) := ⟨h0,h⟩

@[simp] lemma play_pure (answer : C → R) (b : B) :
    (Pure.pure b : Program C R B).play answer = ([],some b) := rfl

end Program

end Defib.Dialogue
