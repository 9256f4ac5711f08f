import Defib.AgentReads

/-!
# Erasing and programming on request

`handle_erase` and `handle_flash_program` run to completion on one request.
`handle_flash_stream` alternates between receiving a sector and working on the
one before it; its control state between two frames is a `Stream`. All sums of
addresses and sizes are 32-bit, as the request fields are.
-/
namespace Defib.AgentFlash
open Words BlockMemory Spans Crc32 Boards FlashDevice AgentMachine

variable {b : Board}

/-- Erase the given sectors in order, with a progress packet after each; the flag tells
whether all of them passed the read-back check. -/
def eraseLoop (progress : ℕ → Machine b → Frame) :
    ℕ → List ℕ → Machine b → Bool × List Event × Machine b
  | _,[],s => (true,[],s)
  | i,a::as,s =>
    let r := s.flashEraseSector a
    if r.1 then
      let q := eraseLoop progress (i+1) as r.2
      (q.1,.erase a :: .reply (progress (i+1) r.2) :: q.2.1,q.2.2)
    else (false,[.erase a,.reply (ack ackFlashError)],r.2)

def sectorAddrs (b : Board) (start num : ℕ) : List ℕ :=
  (List.range num).map fun i => u32 (start+i*b.flashInfo.sectorSize)

/-- The request check of `handle_erase`. -/
def eraseAccepted (b : Board) (addr size : ℕ) : Bool :=
  b.flashReadable && size ≠ 0 && u32 (addr+size) ≤ b.flashInfo.size &&
    addr%b.flashInfo.sectorSize = 0 && size%b.flashInfo.sectorSize = 0

def handleErase (s : Machine b) (data : List Byte) : List Event × Machine b :=
  if data.length < 8 then ([.reply (ack ackCrcError)],s)
  else if !eraseAccepted b (readLe32 data 0) (readLe32 data 4) then ([.reply (ack ackFlashError)],s)
  else
    let r := eraseLoop (fun i t => ⟨rspData,writeLe16 i++t.dev.unlockDebug⟩) 0
      (sectorAddrs b (readLe32 data 0) (readLe32 data 4/b.flashInfo.sectorSize)) s
    (.reply (ack ackOk) :: (r.2.1++if r.1 then [.reply (ack ackOk)] else []),r.2.2)

/-! ### Programming from RAM -/

/-- The page loop of `handle_flash_program`: `src` is memory, `base` the flash address. No
caller looks at the status of `flash_write_page`. -/
def programLoop (src base total size page : ℕ) :
    List (ℕ × ℕ) → Machine b → List Event × Machine b
  | [],s => ([],s)
  | p::ps,s =>
    let bytes := loadBytes s.mem (src+p.1) p.2
    let a := u32 (base+p.1)
    let done := p.1+p.2
    let q := programLoop src base total size page ps (s.flashWritePage a bytes).2
    let note := if done%(page*64) = 0 ∨ size ≤ done then
        [.reply ⟨rspData,writeLe16 (total+done/(page*64))++writeLe16 (total+size/(page*64))⟩]
      else []
    (.program a bytes :: (note++q.1),q.2)

def eraseStart (b : Board) (flashAddr : ℕ) : ℕ :=
  flashAddr/b.flashInfo.sectorSize*b.flashInfo.sectorSize

def eraseEnd (b : Board) (flashAddr size : ℕ) : ℕ :=
  u32 (flashAddr+size+b.flashInfo.sectorSize-1)/b.flashInfo.sectorSize*b.flashInfo.sectorSize

def eraseCount (b : Board) (flashAddr size : ℕ) : ℕ :=
  u32 (eraseEnd b flashAddr size+4294967296-eraseStart b flashAddr)/b.flashInfo.sectorSize

/-- The request check of `handle_flash_program`, up to the checksum of the source. -/
def programAccepted (b : Board) (ramAddr flashAddr size : ℕ) : Bool :=
  b.flashReadable && size ≠ 0 && u32 (flashAddr+size) ≤ b.flashInfo.size &&
    addrReadable b ramAddr size

def handleFlashProgram (s : Machine b) (data : List Byte) : List Event × Machine b :=
  let ramAddr := readLe32 data 0
  let flashAddr := readLe32 data 4
  let size := readLe32 data 8
  if data.length < 16 then ([.reply (ack ackCrcError)],s)
  else if !programAccepted b ramAddr flashAddr size then ([.reply (ack ackFlashError)],s)
  else
    let actual := crc32 0 (loadBytes s.mem ramAddr size)
    if actual.toNat ≠ readLe32 data 12 then
      ([.reply ⟨rspAck,ackCrcError :: (writeLe32 actual.toNat++writeLe32 size)⟩],s)
    else
      let num := eraseCount b flashAddr size
      let r := eraseLoop (fun i _ => ⟨rspData,writeLe16 i++writeLe16 num⟩) 0
        (sectorAddrs b (eraseStart b flashAddr) num) s
      if r.1 then
        let q := programLoop ramAddr flashAddr num size b.flashInfo.pageSize
          (pieces b.flashInfo.pageSize size) r.2.2
        (.reply (ack ackOk) :: (r.2.1++q.1++[.reply (ack ackOk)]),q.2)
      else (.reply (ack ackOk) :: r.2.1,r.2.2)

/-! ### Streaming -/

/-- `page_is_ff`: only whole words are compared. -/
def pageIsFf (xs : List Byte) : Bool := (xs.take (xs.length/4*4)).all (· == 0xFF#8)

/-- The page loop of `erase_and_program`. -/
def pageLoop (addr buf : ℕ) : List (ℕ × ℕ) → Machine b → List Event × Machine b
  | [],s => ([],s)
  | p::ps,s =>
    let bytes := loadBytes s.mem (buf+p.1) p.2
    if pageIsFf bytes then pageLoop addr buf ps s
    else
      let a := u32 (addr+p.1)
      let q := pageLoop addr buf ps (s.flashWritePage a bytes).2
      (.program a bytes :: q.1,q.2)

/-- `erase_and_program`; the flag is the return value 0. -/
def eraseAndProgram (s : Machine b) (addr buf bytes : ℕ) : Bool × List Event × Machine b :=
  let r := s.flashEraseSector addr
  if r.1 then
    let q := pageLoop addr buf (pieces b.flashInfo.pageSize bytes) r.2
    (true,.erase addr :: q.1,q.2)
  else (false,[.erase addr],r.2)

/-- A received sector waiting for erase and program. -/
structure Pending where
  buf : Bool
  addr : ℕ
  bytes : ℕ
  deriving DecidableEq, Repr

/-- `handle_flash_stream` between two frames: it is filling buffer `rxBuf` for `sector`. -/
structure Stream where
  flashAddr : ℕ
  size : ℕ
  numSectors : ℕ
  bitmap : List Byte
  sector : ℕ
  rxBuf : Bool
  received : ℕ
  totalReceived : ℕ
  pending : Option Pending
  deriving DecidableEq, Repr

def streamBuf (b : Board) (i : Bool) : ℕ := b.config.ramBase+if i then 0x220000 else 0x200000

namespace Stream

def sectorBytes (b : Board) (st : Stream) : ℕ :=
  min (st.size-st.sector*b.flashInfo.sectorSize) b.flashInfo.sectorSize

def sectorAddr (b : Board) (st : Stream) : ℕ :=
  u32 (st.flashAddr+st.sector*b.flashInfo.sectorSize)

def hasData (st : Stream) : Bool := (st.bitmap.getD (st.sector/8) 0).getLsbD (st.sector%8)

def progress (st : Stream) : Frame := ⟨rspData,writeLe16 (st.sector+1)++writeLe16 st.numSectors⟩

end Stream

/-- Erase and program the pending sector, if there is one. -/
def processPending (s : Machine b) : Option Pending → Bool × List Event × Machine b
  | none => (true,[],s)
  | some p => eraseAndProgram s p.addr (streamBuf b p.buf) p.bytes

/-- Run the sector loop to the next sector that has data, or to the end; `none` means the
handler has returned. The fuel counts the sectors left. -/
def streamAdvance : ℕ → Stream → Machine b → List Event × Machine b × Option Stream
  | 0,st,s =>
    let r := processPending s st.pending
    (r.2.1++[.reply (ack (if r.1 then ackOk else ackFlashError))],r.2.2,none)
  | n+1,st,s =>
    if st.hasData then ([],s,some {st with received := 0})
    else
      let r := processPending s st.pending
      if r.1 then
        let e := r.2.2.flashEraseSector (st.sectorAddr b)
        if e.1 then
          let q := streamAdvance n {st with sector := st.sector+1, pending := none} e.2
          (r.2.1++.erase (st.sectorAddr b) :: .reply st.progress :: q.1,q.2)
        else (r.2.1++[.erase (st.sectorAddr b),.reply (ack ackFlashError)],e.2,none)
      else (r.2.1++[.reply (ack ackFlashError)],r.2.2,none)

def numSectors (b : Board) (size : ℕ) : ℕ :=
  u32 (size+b.flashInfo.sectorSize-1)/b.flashInfo.sectorSize

/-- The range check of `handle_flash_stream`. -/
def streamAccepted (b : Board) (flashAddr size : ℕ) : Bool :=
  b.flashReadable && size ≠ 0 && u32 (flashAddr+size) ≤ b.flashInfo.size

/-- The state in which the sector loop is entered. -/
def streamStart (b : Board) (data : List Byte) : Stream where
  flashAddr := readLe32 data 0
  size := readLe32 data 4
  numSectors := numSectors b (readLe32 data 4)
  bitmap := data.drop 12
  sector := 0
  rxBuf := false
  received := 0
  totalReceived := 0
  pending := none

def handleFlashStream (s : Machine b) (data : List Byte) :
    List Event × Machine b × Option Stream :=
  let flashAddr := readLe32 data 0
  let size := readLe32 data 4
  let num := numSectors b size
  if data.length < 12 then ([.reply (ack ackCrcError)],s,none)
  else if !streamAccepted b flashAddr size then
    ([.reply (ack ackFlashError)],s,none)
  else if data.length < 12+(num+7)/8 then ([.reply (ack ackCrcError)],s,none)
  else
    let q := streamAdvance num (streamStart b data) s
    (.reply (ack ackOk) :: q.1,q.2)

/-- One frame while a sector is being received; command 0 stands for a timeout or a frame
that failed its check. -/
def streamRecv (s : Machine b) (st : Stream) (rx : Frame) :
    List Event × Machine b × Option Stream :=
  if rx.cmd = rspData ∧ 2 < rx.payload.length then
    let bytes := (rx.payload.drop 2).take (st.sectorBytes b-st.received)
    let a := streamBuf b st.rxBuf+st.received
    let t := s.store a bytes
    let received := st.received+bytes.length
    if received < st.sectorBytes b then
      ([.store (u32 a) bytes],t,some {st with received := received})
    else
      let r := processPending t st.pending
      if r.1 then
        let next : Stream := {st with
          sector := st.sector+1
          rxBuf := !st.rxBuf
          totalReceived := st.totalReceived+st.sectorBytes b
          pending := some ⟨st.rxBuf,st.sectorAddr b,st.sectorBytes b⟩}
        let q := streamAdvance (st.numSectors-(st.sector+1)) next r.2.2
        (.store (u32 a) bytes :: .reply st.progress :: (r.2.1++q.1),q.2)
      else (.store (u32 a) bytes :: .reply st.progress ::
        (r.2.1++[.reply (ack ackFlashError)]),r.2.2,none)
  else if rx.cmd = 0 then
    ([.reply ⟨rspAck,ackFlashError :: writeLe32 (st.totalReceived+st.received)⟩],s,none)
  else ([],s,some st)

end Defib.AgentFlash
