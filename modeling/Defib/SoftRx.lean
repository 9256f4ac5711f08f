import Mathlib.Data.List.ReduceOption
import Defib.ProtoRecv
import Defib.Rings
import Defib.Runs

/-!
# The software receive FIFO

`soft_rx_drain` moves what the UART has received into a ring of 72 KiB, and the polls of
`proto_recv` take from the ring first. Bytes arrive at any time between two passes of these
loops, so a run is any sequence of arrivals, passes and polls. The UART is taken not to overrun.
-/
namespace Defib.SoftRx
open List Words Rings Runs ProtoRecv

/-- `soft_rx` and the UART's own FIFO, in which `none` is a break or a framing error. -/
structure Line where
  ring : Ring Byte (72*1024)
  fifo : List (Option Byte)

/-- One pass of the loop of `soft_rx_drain`. -/
def Line.drainPass (l : Line) : Line :=
  match l.fifo with
  | [] => l
  | some b::fifo => ⟨l.ring.push b,fifo⟩
  | none::fifo => {l with fifo := fifo}

/-- What the loop of `proto_recv` reads. -/
def Line.poll (l : Line) : Input × Line :=
  match l.ring.pop with
  | some (b,ring) => (.byte b,{l with ring := ring})
  | none =>
    match l.fifo with
    | [] => (.silence,l)
    | some b::fifo => (.byte b,{l with fifo := fifo})
    | none::fifo => (.lineError,{l with fifo := fifo})

def Line.held (l : Line) : List Byte := l.ring.contents++l.fifo.reduceOption

inductive Action where
  | arrive (word : Option Byte)
  | drainPass
  | poll
  deriving DecidableEq, Repr

structure Session where
  line : Line
  arrived : List Byte
  polled : List Input

def start : Session := ⟨⟨⟨fun _ => 0,0,0,by decide,by decide⟩,[]⟩,[],[]⟩

def step (s : Session) : Action → Session
  | .arrive word => ⟨{s.line with fifo := s.line.fifo++[word]},s.arrived++word.toList,s.polled⟩
  | .drainPass => {s with line := s.line.drainPass}
  | .poll => {s with line := s.line.poll.2, polled := s.polled++[s.line.poll.1]}

def Input.toByte? : Input → Option Byte
  | .byte b => some b
  | _ => none

def Session.kept (s : Session) : List Byte := s.polled.filterMap Input.toByte?++s.line.held

def Drops (s : Session) : Action → Prop
  | .drainPass => (∃ b,s.line.fifo.head? = some (some b)) ∧ 72*1024 ≤ s.line.ring.contents.length+1
  | _ => False

lemma poll_held (l : Line) : l.held = (Input.toByte? l.poll.1).toList++l.poll.2.held := by
  unfold Line.poll
  cases hpop : l.ring.pop with
  | some p =>
    simp [Line.held,l.ring.pop_some hpop,Input.toByte?]
  | none =>
    have hempty := l.ring.pop_none hpop
    rcases hfifo : l.fifo with _ | ⟨_ | b,fifo⟩ <;>
      simp [Line.held,hempty,hfifo,Input.toByte?,reduceOption_cons_of_some]

lemma step_kept (s : Session) (a : Action) :
    (Drops s a ∧ ∃ b pre post,s.kept = pre++b::post ∧ (step s a).kept = pre++post ∧
      (step s a).arrived = s.arrived) ∨
    (¬Drops s a ∧ ∃ new,(step s a).kept = s.kept++new ∧ (step s a).arrived = s.arrived++new) := by
  cases a with
  | arrive word =>
    refine .inr ⟨id,word.toList,?_,rfl⟩
    cases word <;> simp [Session.kept,Line.held,step,reduceOption_append]
  | poll =>
    refine .inr ⟨id,[],?_,(append_nil _).symm⟩
    have hheld := poll_held s.line
    simp only [Session.kept,step,hheld,filterMap_append,append_nil]
    cases hbyte : Input.toByte? s.line.poll.1 <;> simp [hbyte]
  | drainPass =>
    rcases hfifo : s.line.fifo with _ | ⟨_ | b,fifo⟩
    · refine .inr ⟨by simp [Drops,hfifo],[],?_,(append_nil _).symm⟩
      simp [Session.kept,step,Line.drainPass,hfifo]
    · refine .inr ⟨by simp [Drops,hfifo],[],?_,(append_nil _).symm⟩
      simp [Session.kept,step,Line.drainPass,Line.held,hfifo]
    · have hpush := s.line.ring.contents_push b
      by_cases hroom : s.line.ring.contents.length+1 < 72*1024
      · rw [if_pos hroom] at hpush
        refine .inr ⟨fun h => Nat.not_lt_of_le h.2 hroom,[],?_,(append_nil _).symm⟩
        simp [Session.kept,step,Line.drainPass,Line.held,hfifo,hpush]
      · rw [if_neg hroom] at hpush
        refine .inl ⟨⟨⟨b,by rw [hfifo]; rfl⟩,Nat.le_of_not_lt hroom⟩,b,
          s.polled.filterMap Input.toByte?++s.line.ring.contents,fifo.reduceOption,?_,?_,rfl⟩
        · simp [Session.kept,Line.held,hfifo]
        · simp [Session.kept,step,Line.drainPass,Line.held,hfifo,hpush]

lemma sublist_step (s : Session) (a : Action) (h : s.kept.Sublist s.arrived) :
    (step s a).kept.Sublist (step s a).arrived := by
  rcases step_kept s a with ⟨-,b,pre,post,hkept,hnext,harrived⟩ | ⟨-,new,hkept,harrived⟩
  · rw [hnext,harrived]
    rw [hkept] at h
    exact ((sublist_cons_self b post).append_left pre).trans h
  · rw [hkept,harrived]
    exact h.append_right new

lemma length_step (s : Session) (a : Action) :
    (Drops s a → (step s a).kept.length+s.arrived.length+1 =
      s.kept.length+(step s a).arrived.length) ∧
    (¬Drops s a → (step s a).kept.length+s.arrived.length =
      s.kept.length+(step s a).arrived.length) := by
  rcases step_kept s a with ⟨hdrop,b,pre,post,hkept,hnext,harrived⟩ | ⟨hkeep,new,hkept,harrived⟩
  · refine ⟨fun _ => ?_,fun h => absurd hdrop h⟩
    simp only [hkept,hnext,harrived,length_append,length_cons]
    omega
  · refine ⟨fun h => absurd h hkeep,fun _ => ?_⟩
    simp only [hkept,harrived,length_append]
    omega

/-- Whatever the order of arrivals, passes and polls, polled bytes are bytes that arrived, in
their order, and none is missing exactly if the ring was never full when one was drained. -/
theorem soft_rx_in_order (as : List Action) :
    (as.foldl step start).kept.Sublist (as.foldl step start).arrived ∧
      ((as.foldl step start).kept = (as.foldl step start).arrived ↔
        Along step (fun s a => ¬Drops s a) start as) := by
  have hall : Along step (fun _ _ => True) start as := Along.of_forall fun _ _ => trivial
  have hsub := hall.invariant (fun s a h _ => sublist_step s a h) (List.Sublist.refl _)
  refine ⟨hsub,?_⟩
  rw [← hsub.length_eq]
  have hgood : ∀ s a,True → True → s.kept.length = s.arrived.length → ¬Drops s a →
      (step s a).kept.length = (step s a).arrived.length := by
    intro s a _ _ h hkeep
    have hlength := (length_step s a).2 hkeep
    omega
  have hflaw : ∀ s a,True → True → s.kept.length = s.arrived.length → ¬¬Drops s a →
      (step s a).kept.length < (step s a).arrived.length := by
    intro s a _ _ h hdrop
    have hlength := (length_step s a).1 (not_not.mp hdrop)
    omega
  have hlost : ∀ s a,True → True → s.kept.length < s.arrived.length →
      (step s a).kept.length < (step s a).arrived.length := by
    intro s a _ _ h
    by_cases hdrop : Drops s a
    · have hlength := (length_step s a).1 hdrop
      omega
    · have hlength := (length_step s a).2 hdrop
      omega
  exact Along.good_iff (fun _ _ _ _ => trivial) hgood hflaw hlost (fun _ _ h => h.ne) trivial rfl
    hall

end Defib.SoftRx
