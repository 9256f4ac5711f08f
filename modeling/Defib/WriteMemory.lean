import Defib.AckCredit
import Defib.AgentWire
import Defib.Runs
import Defib.TransferRuns

/-!
# Uploads to RAM

`write_memory` sends a window of blocks, each a `CMD_WRITE` and its data packets, and then
counts two positive acknowledgements for every block. When one is missing it goes back to
the start of the window and sends the blocks one at a time with `_write_block`. Before
that it pauses and, on a serial port, throws away what has arrived.

The system is the upload, the agent and the line between them. The change of the baud rate
is over and nothing is under way when it starts.
-/
namespace Defib.WriteMemory
open Words BlockMemory Spans Crc32 Boards AgentMachine AgentTransfers TransferRuns AgentWire Runs

def writeChunkSize : ℕ := 512
def writeMaxTransfer : ℕ := 16384
def writeWindow : ℕ := 16

/-- The arguments of `write_memory`, and whether the transport has a `_port`. -/
structure Upload where
  addr : ℕ
  data : List Byte
  hasPort : Bool
  deriving DecidableEq, Repr

namespace Upload
variable (u : Upload)

def total : ℕ := u.data.length

def blockSize (offset : ℕ) : ℕ := min writeMaxTransfer (u.total-offset)

def block (offset : ℕ) : List Byte := (u.data.drop offset).take (u.blockSize offset)

/-- The `CMD_WRITE` of a block; `none` when `struct.pack` refuses the address. -/
def request (offset : ℕ) : Option Frame :=
  (packLe32 (u.addr+offset)).map fun p =>
    ⟨cmdWrite,p++(writeLe32 (u.blockSize offset)++writeLe32 (crc32 0 (u.block offset)).toNat)⟩

/-- The window for what is left from `offset` on. -/
def windowAt (offset : ℕ) : ℕ :=
  min writeWindow ((u.total-offset+writeMaxTransfer-1)/writeMaxTransfer)

end Upload

def dataFrames (block : List Byte) : List Frame :=
  (pieces writeChunkSize block.length).zipIdx.map fun x =>
    ⟨rspData,writeLe16 x.2++(block.drop x.1.1).take x.1.2⟩

/-- Where the host is: `window` is the head of the loop, `blocks` and `acks` send a window and
count for it, `failed` is the fall-back up to the end of the pause, the next four are the
retry with `_write_block`. -/
inductive Host where
  | window (offset window : ℕ)
  | blocks (start offset sent window : ℕ) (todo : List Frame)
  | acks (start offset sent window left : ℕ)
  | failed (start sent : ℕ)
  | single (offset left : ℕ)
  | accept (offset left : ℕ)
  | chunks (offset left : ℕ) (todo : List Frame)
  | verdict (offset left : ℕ)
  | ended (result : Bool)
  | raised
  deriving DecidableEq, Repr

structure System (b : Board) where
  host : Host
  wire : Wire b

inductive Label where
  /-- The host goes on; `held` answers are in the buffer that `_clear_rx_buffers` empties. -/
  | host (held : ℕ)
  | read
  | expire
  | wire (l : WireLabel)
  deriving DecidableEq, Repr

/-- `cmd == RSP_ACK and resp[0] == ACK_OK`; `none` is the `IndexError`. -/
def isOk (f : Frame) : Option Bool :=
  if f.cmd = rspAck then f.payload.head?.map (· == ackOk) else some false

section Step
variable {b : Board} (others : Machine b → Frame → List Event × Machine b × Phase) (u : Upload)

def send (w : Wire b) (f : Frame) : Wire b := {w with out := w.out++[f]}

def clearRxBuffers (w : Wire b) (held : ℕ) : Wire b :=
  if u.hasPort then {w with inbox := w.inbox.drop held} else w

/-- The end of the pause: both buffers of a serial port are emptied. -/
def resetInput (w : Wire b) : Wire b := if u.hasPort then {w with inbox := []} else w

/-- The next thing the host does when it does not wait for an answer. -/
def hostStep (s : System b) (held : ℕ) : System b :=
  match s.host with
  | .window offset window =>
    if offset < u.total then {s with host := .blocks offset offset 0 window []}
    else {s with host := .ended true}
  | .blocks start offset sent window (f::todo) =>
    ⟨.blocks start offset sent window todo,send s.wire f⟩
  | .blocks start offset sent window [] =>
    if sent < window ∧ offset < u.total then
      match u.request offset with
      | none => {s with host := .raised}
      | some f => ⟨.blocks start (offset+u.blockSize offset) (sent+1) window
          (f::dataFrames (u.block offset)),s.wire⟩
    else {s with host := .acks start offset sent window (2*sent)}
  | .acks _ offset _ window 0 => {s with host := .window offset window}
  | .failed start sent => ⟨.single start sent,resetInput u s.wire⟩
  | .single offset 0 => {s with host := .window offset (u.windowAt offset)}
  | .single offset (left+1) =>
    if u.total ≤ offset then {s with host := .window offset (u.windowAt offset)}
    else
      match u.request offset with
      | none => {s with host := .raised}
      | some f => ⟨.accept offset left,send (clearRxBuffers u s.wire held) f⟩
  | .chunks offset left (f::todo) => ⟨.chunks offset left todo,send s.wire f⟩
  | .chunks offset left [] => {s with host := .verdict offset left}
  | _ => s

/-- The host reads an answer; `RSP_READY` is skipped. -/
def answered (s : System b) (f : Frame) : Host :=
  if f.cmd = rspReady then s.host
  else match s.host with
    | .acks start offset sent window (left+1) =>
      -- an IndexError is caught here, like every exception
      if isOk f = some true then .acks start offset sent window left else .failed start sent
    | .accept offset left => match isOk f with
        | none => .raised
        | some true => .chunks offset left (dataFrames (u.block offset))
        | some false => .ended false
    | .verdict offset left => match isOk f with
        | none => .raised
        | some true => .single (offset+u.blockSize offset) left
        | some false => .ended false
    | _ => s.host

def Host.waits : Host → Bool
  | .acks _ _ _ _ (_+1) => true
  | .accept _ _ => true
  | .verdict _ _ => true
  | _ => false

def step (s : System b) : Label → System b
  | .host held => hostStep u s held
  | .read =>
    match s.host.waits,s.wire.inbox with
    | true,f::inbox => ⟨answered u s f,{s.wire with inbox := inbox}⟩
    | _,_ => s
  | .expire =>
    match s.host with
    | .acks start _ sent _ (_+1) => {s with host := .failed start sent}
    | .accept _ _ => {s with host := .raised}
    | .verdict _ _ => {s with host := .raised}
    | _ => s
  | .wire l => {s with wire := s.wire.step others l}

def start (a : Agent b) : System b := ⟨.window 0 (u.windowAt 0),⟨[],a,[],[]⟩⟩

def Upload.count : ℕ := (u.total+writeMaxTransfer-1)/writeMaxTransfer

/-- Bytes with the checksum of a block are that block. -/
def NoCollision (found : List Byte) : Prop :=
  ∀ i < u.count, found.length = (u.block (writeMaxTransfer*i)).length →
    crc32 0 found = crc32 0 (u.block (writeMaxTransfer*i)) → found = u.block (writeMaxTransfer*i)

instance (found : List Byte) : Decidable (NoCollision u found) :=
  inferInstanceAs (Decidable (∀ i < u.count,_))

def transferOf : Phase → Option Transfer
  | .transfer t => some t
  | _ => none

/-- No checksum the agent computes at the end of a transfer collides with that of a block. -/
def CollisionFree (s : System b) : Label → Prop
  | .wire .deliver => ∀ f ∈ s.wire.out.head?,∀ t ∈ transferOf s.wire.agent.phase,
      t.size ≤ t.received+(chunkOf t f).length →
        NoCollision u (loadBytes
          (s.wire.agent.machine.store (t.dest+t.received) (chunkOf t f)).mem t.dest t.size)
  | _ => True

instance (s : System b) : (l : Label) → Decidable (CollisionFree u s l)
  | .host _ => isTrue trivial
  | .read => isTrue trivial
  | .expire => isTrue trivial
  | .wire .deliver => inferInstanceAs (Decidable (∀ f ∈ s.wire.out.head?,_))
  | .wire .corrupt => isTrue trivial
  | .wire .lose => isTrue trivial
  | .wire .silence => isTrue trivial
  | .wire .arrive => isTrue trivial
  | .wire .loseAnswer => isTrue trivial

def Host.hasFailed : Host → Bool
  | .failed _ _ => true
  | _ => false

/-- At the end of the pause of a failed window none of its frames is on its way to the agent
and no answer to one on its way back; without a port none waits at the host either. -/
def Drained (s : System b) : Label → Prop
  | .host _ => s.host.hasFailed →
      s.wire.out = [] ∧ s.wire.back = [] ∧ (u.hasPort ∨ s.wire.inbox = [])
  | _ => True

instance (s : System b) : (l : Label) → Decidable (Drained u s l)
  | .host _ => inferInstanceAs (Decidable (s.host.hasFailed →
      s.wire.out = [] ∧ s.wire.back = [] ∧ (u.hasPort ∨ s.wire.inbox = [])))
  | .read => isTrue trivial
  | .expire => isTrue trivial
  | .wire _ => isTrue trivial

end Step

end Defib.WriteMemory
