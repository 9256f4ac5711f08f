import Defib.AgentTransfers

/-!
# The agent at the end of a line

Frames go to the agent and answers come back, in order and after any time. A frame that
is damaged on the way to the agent ends its call of `proto_recv` as a timeout does; a
damaged answer is dropped by the host's receiver, which is the same as a lost one. What
has reached the host waits in its buffers until it is read or thrown away.
-/
namespace Defib.AgentWire
open Words Boards AgentMachine AgentTransfers

variable {b : Board}

/-- What a timeout or a damaged frame is to `proto_recv`. -/
def noise : Frame := ⟨0,[]⟩

def replies (events : List Event) : List Frame := events.filterMap fun
  | .reply f => some f
  | _ => none

@[simp] lemma replies_nil : replies [] = [] := rfl

@[simp] lemma replies_reply (f : Frame) (es : List Event) :
    replies (.reply f::es) = f::replies es := rfl

@[simp] lemma replies_store (a : ℕ) (bytes : List Byte) (es : List Event) :
    replies (.store a bytes::es) = replies es := rfl

@[simp] lemma replies_erase (a : ℕ) (es : List Event) : replies (.erase a::es) = replies es := rfl

structure Wire (b : Board) where
  out : List Frame
  agent : Agent b
  back : List Frame
  inbox : List Frame

inductive WireLabel where
  | deliver
  | corrupt
  | lose
  /-- The agent's wait for a frame runs out. -/
  | silence
  /-- An answer reaches the host. -/
  | arrive
  | loseAnswer
  deriving DecidableEq, Repr

namespace Wire
variable (others : Machine b → Frame → List Event × Machine b × Phase)

/-- The agent takes in `rx` with `out` still under way. -/
def takeIn (w : Wire b) (rx : Frame) (out : List Frame) : Wire b where
  out := out
  agent := (recv others w.agent rx).2
  back := w.back++replies (recv others w.agent rx).1
  inbox := w.inbox

def step (w : Wire b) : WireLabel → Wire b
  | .deliver => match w.out with
      | [] => w
      | f::out => w.takeIn others f out
  | .corrupt => match w.out with
      | [] => w
      | _::out => w.takeIn others noise out
  | .lose => {w with out := w.out.tail}
  | .silence => w.takeIn others noise w.out
  | .arrive => match w.back with
      | [] => w
      | f::back => {w with back := back, inbox := w.inbox++[f]}
  | .loseAnswer => {w with back := w.back.tail}

end Wire

end Defib.AgentWire
