import Defib.AgentFlash

/-!
# Receive loops and the command loop

`handle_write`, `handle_flash_write` and `handle_selfupdate` share one receive
loop: data packets are appended at a destination until the announced size is
there, a timeout or a bad frame aborts, anything else is ignored. They differ in
the request check, the destination and what follows. `recv` is the agent's whole
reaction to one call of `proto_recv`, whatever handler is waiting for it.
-/
namespace Defib.AgentTransfers
open Words BlockMemory Spans Crc32 Boards FlashDevice AgentMachine AgentReads AgentFlash

variable {b : Board}

/-- What a finished transfer is for. -/
inductive Job where
  | ram
  | flash (flashAddr : ℕ)
  | update (addr : ℕ)
  deriving DecidableEq, Repr

structure Transfer where
  job : Job
  dest : ℕ
  size : ℕ
  expectedCrc : ℕ
  received : ℕ
  deriving DecidableEq, Repr

inductive Phase where
  | idle
  | transfer (t : Transfer)
  | stream (st : Stream)
  | halted
  deriving DecidableEq, Repr

/-- `handle_write` sends the request to `handle_flash_write`. -/
def flashRouted (b : Board) (addr size : ℕ) : Bool :=
  b.flashReadable && addr < b.flashInfo.size && u32 (addr+size) ≤ b.flashInfo.size

/-- The RAM check of `handle_write`. -/
def ramWriteAccepted (b : Board) (addr size : ℕ) : Bool :=
  size ≠ 0 && size ≤ maxReadSize && b.config.ramBase ≤ addr && addr < u32 (addr+size)

def flashWriteAccepted (b : Board) (flashAddr size : ℕ) : Bool :=
  b.flashReadable && size ≠ 0 && size ≤ b.flashInfo.size &&
    u32 (flashAddr+size) ≤ b.flashInfo.size

def updateAccepted (b : Board) (addr size : ℕ) : Bool :=
  size ≠ 0 && size ≤ maxUpdateSize && b.config.ramBase ≤ addr && addr < u32 (addr+size)

/-- Where `handle_flash_write` collects the data. -/
def flashStaging (b : Board) : ℕ := b.config.ramBase+0x200000

/-- Where `handle_selfupdate` collects the new agent. -/
def updateStaging (addr : ℕ) : ℕ := u32 (addr+0x100000)

/-- The transfer an accepted request starts; `none` is answered with `ACK_FLASH_ERROR`. -/
def writeTransfer (b : Board) (data : List Byte) : Option Transfer :=
  let addr := readLe32 data 0
  let size := readLe32 data 4
  let crc := readLe32 data 8
  if flashRouted b addr size then
    if flashWriteAccepted b addr size then some ⟨.flash addr,flashStaging b,size,crc,0⟩ else none
  else if ramWriteAccepted b addr size then some ⟨.ram,addr,size,crc,0⟩ else none

def updateTransfer (b : Board) (data : List Byte) : Option Transfer :=
  let addr := readLe32 data 0
  let size := readLe32 data 4
  if updateAccepted b addr size then
    some ⟨.update addr,updateStaging addr,size,readLe32 data 8,0⟩
  else none

/-- The head of both handlers: a short request is a CRC error. -/
def startTransfer (t : List Byte → Option Transfer) (data : List Byte) : List Event × Phase :=
  if data.length < 12 then ([.reply (ack ackCrcError)],.idle)
  else match t data with
    | none => ([.reply (ack ackFlashError)],.idle)
    | some t => ([.reply (ack ackOk)],.transfer t)

/-- The page loop of `handle_flash_write`. -/
def stagedProgram (flashAddr staging : ℕ) : List (ℕ × ℕ) → Machine b → List Event × Machine b
  | [],s => ([],s)
  | p::ps,s =>
    let bytes := loadBytes s.mem (staging+p.1) p.2
    let a := u32 (flashAddr+p.1)
    let q := stagedProgram flashAddr staging ps (s.flashWritePage a bytes).2
    (.program a bytes :: q.1,q.2)

/-- `ACK_CRC_ERROR` with the checksum found and a byte count. -/
def crcErrorReply (crc : BitVec 32) (count : ℕ) : Frame :=
  ⟨rspAck,ackCrcError :: (writeLe32 crc.toNat++writeLe32 count)⟩

/-- All bytes are there: check them and do the job. -/
def finishTransfer (s : Machine b) (t : Transfer) : List Event × Machine b × Phase :=
  let actual := crc32 0 (loadBytes s.mem t.dest t.size)
  match t.job with
  | .ram =>
    if actual.toNat ≠ t.expectedCrc then ([.reply (crcErrorReply actual t.size)],s,.idle)
    else ([.reply (ack ackOk)],s,.idle)
  | .flash flashAddr =>
    if actual.toNat ≠ t.expectedCrc then ([.reply (crcErrorReply actual t.size)],s,.idle)
    else
      let q := stagedProgram flashAddr t.dest (pieces b.flashInfo.pageSize t.size) s
      let v := q.2.flashCrc32 flashAddr t.size
      let answer := if v.1.toNat ≠ t.expectedCrc then crcErrorReply v.1 t.size else ack ackOk
      (q.1++[.reply answer],v.2,.idle)
  | .update addr =>
    if actual.toNat ≠ t.expectedCrc then ([.reply (ack ackCrcError)],s,.idle)
    else
      -- the trampoline copies the new agent down and jumps to it
      let bytes := loadBytes s.mem t.dest t.size
      ([.reply (ack ackOk),.store addr bytes],s.store addr bytes,.halted)

/-- The answer when the receive loop gives up. -/
def abortReply (t : Transfer) : Frame :=
  match t.job with
  | .update _ => ack ackFlashError
  | _ => ⟨rspAck,ackFlashError :: writeLe32 t.received⟩

def transferRecv (s : Machine b) (t : Transfer) (rx : Frame) : List Event × Machine b × Phase :=
  if rx.cmd = rspData ∧ 2 < rx.payload.length then
    let bytes := (rx.payload.drop 2).take (t.size-t.received)
    let a := t.dest+t.received
    let s' := s.store a bytes
    let t' := {t with received := t.received+bytes.length}
    if t'.received < t.size then ([.store (u32 a) bytes],s',.transfer t')
    else
      let f := finishTransfer s' t'
      (.store (u32 a) bytes :: f.1,f.2)
  else if rx.cmd = 0 then ([.reply (abortReply t)],s,.idle)
  else ([],s,.transfer t)

/-! ### The command loop -/

structure Agent (b : Board) where
  machine : Machine b
  phase : Phase
  idleCount : ℕ

/-- Commands whose handlers are not modelled here: `CMD_INFO`, `CMD_REBOOT`, `CMD_SET_BAUD`,
`CMD_SCAN`, `CMD_MARK_BAD`, `CMD_MEMBW` and `CMD_NAND`. -/
def otherCommands : List Byte :=
  [cmdInfo,cmdReboot,cmdSetBaud,cmdScan,cmdMarkBad,cmdMembw,cmdNand]

/-- `main` after `proto_recv` returned a frame; `others` stands for the handlers above. -/
def dispatch (others : Machine b → Frame → List Event × Machine b × Phase) (s : Machine b)
    (rx : Frame) : List Event × Machine b × Phase :=
  if rx.cmd = cmdRead then
    let r := handleRead s rx.payload
    (r.1.map .reply,r.2,.idle)
  else if rx.cmd = cmdWrite then
    let r := startTransfer (writeTransfer b) rx.payload
    (r.1,s,r.2)
  else if rx.cmd = cmdErase then
    let r := handleErase s rx.payload
    (r.1,r.2,.idle)
  else if rx.cmd = cmdCrc32 then
    let r := handleCrc32Cmd s rx.payload
    (r.1.map .reply,r.2,.idle)
  else if rx.cmd = cmdSelfupdate then
    let r := startTransfer (updateTransfer b) rx.payload
    (r.1,s,r.2)
  else if rx.cmd = cmdFlashProgram then
    let r := handleFlashProgram s rx.payload
    (r.1,r.2,.idle)
  else if rx.cmd = cmdFlashStream then
    let r := handleFlashStream s rx.payload
    (r.1,r.2.1,r.2.2.elim .idle .stream)
  else if rx.cmd ∈ otherCommands then others s rx
  else ([.reply (ack ackCrcError)],s,.idle)

def readyFrame : Frame := ⟨rspReady,[0x44,0x45,0x46,0x49,0x42]⟩

/-- The reaction to one return of `proto_recv`. -/
def recv (others : Machine b → Frame → List Event × Machine b × Phase) (a : Agent b)
    (rx : Frame) : List Event × Agent b :=
  match a.phase with
  | .idle =>
    if rx.cmd = 0 then
      if 4 ≤ a.idleCount+1 then ([.reply readyFrame],{a with idleCount := 0})
      else ([],{a with idleCount := a.idleCount+1})
    else
      let r := dispatch others a.machine rx
      (r.1,⟨r.2.1,r.2.2,0⟩)
  | .transfer t =>
    let r := transferRecv a.machine t rx
    (r.1,⟨r.2.1,r.2.2,a.idleCount⟩)
  | .stream st =>
    let r := streamRecv a.machine st rx
    (r.1,⟨r.2.1,r.2.2.elim .idle .stream,a.idleCount⟩)
  | .halted => ([],a)

end Defib.AgentTransfers
