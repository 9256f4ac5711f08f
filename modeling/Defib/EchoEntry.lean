import Defib.Words
import Defib.Dialogue

/-!
# Echo-verified command entry

`writeUbootLine` types a command into the line editor of U-Boot, waits for the echo of
every byte, cancels the line after a mismatch and tries again. Bytes may be changed or
lost on the way to the device; the echo is faithful. What the editor executes is
computed from the bytes that arrive.
-/
namespace Defib.EchoEntry
open List Words Dialogue Dialogue.Program

/-! ### The line editor -/

def etx : Byte := 0x03
def cr : Byte := 0x0d

def printable (b : Byte) : Bool := 0x20 ≤ b && b ≤ 0x7e

structure Editor where
  line : List Byte
  executed : List (List Byte)
  deriving DecidableEq

def Editor.receive (e : Editor) : Option Byte → Editor
  | none => e
  | some b =>
    if b = etx then {e with line := []}
    else if b = cr then ⟨[],e.executed++[e.line]⟩
    else if printable b then {e with line := e.line++[b]}
    else e

def echo (a : Option Byte) : Option Byte := a.filter printable

/-! ### The host -/

/-- What the host writes: a byte of the command, the cancel sequence or the final return. -/
inductive Sent
  | typed (b : Byte)
  | cancel
  | finish
  deriving DecidableEq

def Sent.bytes : Sent → List Byte
  | .typed b => [b]
  | .cancel => [etx,etx,etx,cr]
  | .finish => [cr]

/-- What arrives for each byte written. -/
abbrev Arrival := List (Option Byte)

abbrev Entry := Program Sent Arrival

/-- Types the bytes until one is not echoed. -/
def typeLine : List Byte → Entry Bool
  | [] => pure true
  | b::bs => do
    let a ← ask (.typed b)
    if echo a.head?.join = some b then typeLine bs else pure false

/-- `write_uboot_line_with_echo_verify`; failing is its `TransportTimeout`. -/
def writeUbootLine (cmd : List Byte) : ℕ → Entry Unit
  | 0 => .fail
  | retries+1 => do
    if ← typeLine cmd then do
      let _ ← ask .finish
      pure ()
    else do
      let _ ← ask .cancel
      writeUbootLine cmd retries

def edit (e : Editor) (log : List (Sent × Arrival)) : Editor :=
  log.foldl (fun e x => x.2.foldl Editor.receive e) e

def fresh : Editor := ⟨[],[]⟩

/-- Every byte arrives in some form or not at all. -/
def Carries (s : Sent) (a : Arrival) : Prop := a.length = s.bytes.length

/-- The corruptions that the verification withstands. -/
def Withstood : Sent → Arrival → Prop
  | .typed _,a => some cr ∉ a
  | .cancel,a => (∀ b,some b ∈ a → printable b = false) ∧ some etx ∈ a ∧ some cr ∉ a
  | .finish,a => a = [some cr]

/-! ### One write -/

section
variable {e : Editor}

lemma receive_executed {a : Option Byte} (h : a ≠ some cr) :
    (e.receive a).executed = e.executed := by
  cases a with
  | none => rfl
  | some b =>
    have hb : b ≠ cr := fun hb => h (congrArg some hb)
    rw [Editor.receive,if_neg hb]
    split_ifs <;> rfl

lemma receive_of_echo {a : Option Byte} {b : Byte} (h : echo a = some b) :
    (e.receive a).line = e.line++[b] := by
  obtain ⟨rfl,hb⟩ := Option.filter_eq_some_iff.mp h
  have h1 : b ≠ etx := by
    rintro rfl
    exact absurd hb (by decide)
  have h2 : b ≠ cr := by
    rintro rfl
    exact absurd hb (by decide)
  rw [Editor.receive,if_neg h1,if_neg h2,if_pos hb]

lemma receive_silent {as : Arrival} (hp : ∀ b,some b ∈ as → printable b = false)
    (hcr : some cr ∉ as) : as.foldl Editor.receive e =
      ⟨if some etx ∈ as then [] else e.line,e.executed⟩ := by
  induction as generalizing e with
  | nil => simp
  | cons a as ih =>
    have hp' : ∀ b,some b ∈ as → printable b = false := fun b hb =>
      hp b (mem_cons_of_mem a hb)
    have hcr' : some cr ∉ as := fun h => hcr (mem_cons_of_mem a h)
    rw [foldl_cons,ih hp' hcr']
    cases a with
    | none => simp [Editor.receive]
    | some b =>
      have hb := hp b mem_cons_self
      have hbcr : b ≠ cr := fun h => hcr (h ▸ mem_cons_self)
      by_cases hbe : b = etx
      · simp [Editor.receive,hbe]
      · simp [Editor.receive,hbe,hbcr,hb,Ne.symm hbe]

end

/-! ### Whole entries -/

/-- Replies within the law of the channel and the corruptions withstood. -/
def Admissible (s : Sent) (a : Arrival) : Prop := Carries s a ∧ Withstood s a

lemma typeLine_keeps (bs : List Byte) (e : Editor) :
    Keeps Admissible (fun l => (edit e l).executed = e.executed)
      (fun ok l => (edit e l).executed = e.executed ∧
        (ok = true → (edit e l).line = e.line++bs)) (typeLine bs) := by
  induction bs generalizing e with
  | nil => exact ⟨rfl,rfl,fun _ => (append_nil _).symm⟩
  | cons b bs ih =>
    refine Keeps.ask_bind rfl fun r hr => ?_
    obtain ⟨a,rfl⟩ := length_eq_one_iff.mp hr.1
    have ha : a ≠ some cr := fun h => hr.2 (h ▸ mem_cons_self)
    have hex := receive_executed (e := e) ha
    have hnext := ih (e.receive a)
    rw [hex] at hnext
    split_ifs with hecho
    · have hline : (e.receive a).line = e.line++[b] := receive_of_echo hecho
      rw [hline,append_assoc] at hnext
      exact hnext
    · exact ⟨hex,hex,fun h => by cases h⟩

lemma edit_append (e : Editor) (l l' : List (Sent × Arrival)) :
    edit e (l++l') = edit (edit e l) l' := foldl_append

lemma edit_cancel {e : Editor} {l : List (Sent × Arrival)} {r : Arrival}
    (hl : (edit e l).executed = e.executed) (hr : Admissible .cancel r) :
    edit e (l++[(.cancel,r)]) = ⟨[],e.executed⟩ := by
  obtain ⟨hp,hetx,hcr⟩ := hr.2
  rw [edit_append,← hl]
  show r.foldl Editor.receive (edit e l) = _
  rw [receive_silent hp hcr,if_pos hetx]

/-- The command has been executed, and nothing else. -/
def Ran (cmd : List Byte) (e : Editor) (log : List (Sent × Arrival)) : Prop :=
  (edit e log).executed = e.executed++[cmd]

lemma writeUbootLine_keeps (cmd : List Byte) (retries : ℕ) (e : Editor) (he : e.line = []) :
    Keeps Admissible (fun l => (edit e l).executed = e.executed ∨ Ran cmd e l)
      (fun _ l => Ran cmd e l) (writeUbootLine cmd retries) := by
  induction retries generalizing e with
  | zero => exact .inl rfl
  | succ n ih =>
    refine ((typeLine_keeps cmd e).mono (fun l h => .inl h) (fun _ _ h => h)).bind ?_
    rintro ok l ⟨hex,hline⟩
    have hstart : (edit e (l++[])).executed = e.executed := by
      rwa [append_nil]
    cases ok with
    | true =>
      refine Keeps.ask_bind (.inl hstart) fun r hr => ?_
      -- the line holds the command when the return arrives
      have hret : r = [some cr] := hr.2
      have hran : Ran cmd e (l++[(.finish,r)]) := by
        rw [Ran,edit_append,hret]
        show (edit e l).executed++[(edit e l).line] = _
        rw [hex,hline rfl,he,nil_append]
      exact ⟨.inr hran,hran⟩
    | false =>
      refine Keeps.ask_bind (.inl hstart) fun r hr => ?_
      have hcancel := edit_cancel hex hr
      have happend : ∀ l',edit e (l++(.cancel,r)::l') = edit ⟨[],e.executed⟩ l' := fun l' => by
        rw [append_cons,edit_append,hcancel]
      refine (ih ⟨[],e.executed⟩ rfl).mono (fun l' h => ?_) fun _ l' h => ?_
      · rw [Ran,happend]
        exact h
      · rw [Ran,happend]
        exact h

/-- Under the corruptions withstood no line but the command is executed, and a normal return
means that it was, once. -/
theorem entry_executes_command (cmd : List Byte) (retries : ℕ) (arrivals : List Arrival)
    (h : ∀ x ∈ ((writeUbootLine cmd retries).run arrivals).1,
      Carries x.1 x.2 ∧ Withstood x.1 x.2) :
    (∀ line ∈ (edit fresh ((writeUbootLine cmd retries).run arrivals).1).executed,line = cmd) ∧
    (((writeUbootLine cmd retries).run arrivals).2 = some () →
      (edit fresh ((writeUbootLine cmd retries).run arrivals).1).executed = [cmd]) := by
  obtain ⟨hall,hdone⟩ := (writeUbootLine_keeps cmd retries fresh rfl).run arrivals h
  refine ⟨fun line hmem => ?_,hdone ()⟩
  rcases hall with hex | hex
  · rw [hex] at hmem
    exact absurd hmem not_mem_nil
  · rw [hex] at hmem
    exact mem_singleton.mp hmem

/-- `ab` with a lost byte, a cancel of which one interrupt arrives, and a second try. -/
def secondTry : List Arrival :=
  [[some 0x61],[none],[none,some etx,none,none],[some 0x61],[some 0x62],[some cr]]

theorem secondTry_executes :
    ((writeUbootLine [0x61,0x62] 8).run secondTry).2 = some () ∧
      (edit fresh ((writeUbootLine [0x61,0x62] 8).run secondTry).1).executed = [[0x61,0x62]] := by
  refine ⟨by decide,(entry_executes_command [0x61,0x62] 8 secondTry ?_).2 (by decide)⟩
  have hlog : ((writeUbootLine [0x61,0x62] 8).run secondTry).1 =
      [(.typed 0x61,[some 0x61]),(.typed 0x62,[none]),
        (.cancel,[none,some etx,none,none]),(.typed 0x61,[some 0x61]),
        (.typed 0x62,[some 0x62]),(.finish,[some cr])] := by decide
  rw [hlog]
  simp only [forall_mem_cons]
  refine ⟨⟨rfl,?_⟩,⟨rfl,?_⟩,⟨rfl,?_⟩,⟨rfl,?_⟩,⟨rfl,?_⟩,⟨rfl,rfl⟩,nofun⟩
  · exact (by decide : some cr ∉ [some (0x61 : Byte)])
  · exact (by decide : some cr ∉ [none])
  · refine ⟨fun b hb => ?_,by decide,by decide⟩
    simp only [mem_cons,Option.some.injEq,not_mem_nil,or_false,reduceCtorEq,false_or]
      at hb
    rw [hb]
    decide
  · exact (by decide : some cr ∉ [some (0x61 : Byte)])
  · exact (by decide : some cr ∉ [some (0x62 : Byte)])

/-- The second byte and the three interrupts are lost, the return of the cancel is not. -/
def lostInterrupts : List Arrival := [[some 0x61],[none],[none,none,none,some cr]]

theorem lost_interrupts_execute_part :
    (∀ x ∈ ((writeUbootLine [0x61,0x62] 8).run lostInterrupts).1,
      x.2.length = x.1.bytes.length) ∧
    ¬∀ line ∈ (edit fresh ((writeUbootLine [0x61,0x62] 8).run lostInterrupts).1).executed,
      line = [0x61,0x62] ∨ line = [] := by
  decide

end Defib.EchoEntry
