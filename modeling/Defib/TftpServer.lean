import Defib.Words
import Mathlib.Data.List.AList

/-!
# The TFTP server

`TFTPServerProtocol` reacts to datagrams and to its retransmit timers. Transfers
are kept by client address; a transfer has an identity, since a timer refers to the
transfer it was armed for and not to the address. A timer that was cancelled
is gone from the event loop. `none` stands for the exception `struct.pack` raises
when a block number does not fit its sixteen bits.
-/
namespace Defib.TftpServer
open Words

def ascii (s : String) : List Byte := s.toList.map fun c => BitVec.ofNat 8 c.toNat

/-! ### Requests -/

def isAscii (xs : List Byte) : Bool := xs.all (·.toNat < 128)

def lower (xs : List Byte) : List Byte :=
  xs.map fun x => if 0x41 ≤ x.toNat && x.toNat ≤ 0x5A then x+32 else x

/-- What `int` strips off an ASCII text. -/
def isSpace (x : Byte) : Bool := (9 ≤ x.toNat && x.toNat ≤ 13) || x.toNat == 32

def isDigit (x : Byte) : Bool := 0x30 ≤ x.toNat && x.toNat ≤ 0x39

/-- Digits with single underscores between them; `prev` tells whether a digit came before. -/
def digitsValue (prev : Bool) (acc : ℕ) : List Byte → Option ℕ
  | [] => if prev then some acc else none
  | x::xs =>
    if isDigit x then digitsValue true (acc*10+(x.toNat-0x30)) xs
    else if prev && x == 0x5F then digitsValue false acc xs
    else none

/-- `int(text)`; at most 4300 digits are converted. -/
def pyInt (text : List Byte) : Option ℤ :=
  let xs := ((text.dropWhile isSpace).reverse.dropWhile isSpace).reverse
  if 4300 < (xs.filter isDigit).length then none
  else match xs with
    | 0x2B#8::ds => (digitsValue false 0 ds).map fun n => (n : ℤ)
    | 0x2D#8::ds => (digitsValue false 0 ds).map fun n => -(n : ℤ)
    | ds => (digitsValue false 0 ds).map fun n => (n : ℤ)

/-- `split(b"\x00")`. -/
def splitZero : List Byte → List (List Byte)
  | [] => [[]]
  | x::xs =>
    if x = 0 then [] :: splitZero xs
    else match splitZero xs with
      | p::ps => (x::p) :: ps
      | [] => [[x]]

/-- The option pairs; a name that comes twice keeps its last value. -/
def optionValue (name : List Byte) : List (List Byte) → Option (List Byte)
  | n::v::rest => (optionValue name rest).or (if lower n = name then some v else none)
  | _ => none

structure Rrq where
  filename : List Byte
  blksize : Option ℤ
  deriving DecidableEq, Repr

/-- The request behind the opcode; `none` is answered as malformed. -/
def parseRrq (data : List Byte) : Option Rrq :=
  let parts := splitZero (data.drop 2)
  let filename := parts.headD []
  if isAscii filename && isAscii (parts.getD 1 []) then
    some ⟨filename,(optionValue (ascii "blksize") (parts.drop 2)).bind pyInt⟩
  else none

def basename (path : List Byte) : List Byte := (path.reverse.takeWhile (· ≠ 0x2F#8)).reverse

def maxBlocksizeLimit : ℕ := 65464
def defaultBlocksize : ℕ := 512
def maxTransfers : ℕ := 8

structure Config where
  files : List (List Byte × List Byte)
  defaultData : Option (List Byte)
  maxBlocksize : ℕ
  maxRetries : ℕ
  doneCount : ℕ
  doneFile : Option (List Byte)
  maxBlocksize_bounds : 8 ≤ maxBlocksize ∧ maxBlocksize ≤ maxBlocksizeLimit

lemma maxBlocksizeLimit_bounds :
    8 ≤ maxBlocksizeLimit ∧ maxBlocksizeLimit ≤ maxBlocksizeLimit := by
  decide

/-- `_resolve_file`: exact, basename, case-insensitive, default. -/
def Config.resolveFile (c : Config) (filename : List Byte) : Option (List Byte) :=
  (c.files.lookup filename).or <| (c.files.lookup (basename filename)).or <|
    ((c.files.find? fun f => lower f.1 = lower filename ||
      lower f.1 = lower (basename filename)).map (·.2)).or c.defaultData

/-- The block size a request is served with. -/
def Config.blocksize (c : Config) (r : Rrq) : ℕ :=
  match r.blksize with
  | none => defaultBlocksize
  | some n => (max 8 (min n c.maxBlocksize)).toNat

lemma blocksize_pos (c : Config) (r : Rrq) : 0 < c.blocksize r := by
  unfold Config.blocksize defaultBlocksize
  split <;> omega

/-! ### Transfers -/

inductive Packet where
  | data (blockNum : ℕ) (payload : List Byte)
  | oack (blocksize : ℕ)
  | error (code : ℕ) (msg : List Byte)
  deriving DecidableEq, Repr

def packBe16 (n : ℕ) : List Byte := [BitVec.ofNat 8 (n/256),BitVec.ofNat 8 n]

def chunk (file : List Byte) (bs i : ℕ) : List Byte := (file.drop (i*bs)).take bs

lemma chunk_length (file : List Byte) (bs i : ℕ) :
    (chunk file bs i).length = min bs (file.length-i*bs) := by
  simp [chunk]

lemma chunk_short_iff {file : List Byte} {bs i : ℕ} (hbs : 0 < bs) :
    (chunk file bs i).length < bs ↔ file.length/bs ≤ i := by
  rw [chunk_length,← Nat.lt_succ_iff,Nat.div_lt_iff_lt_mul hbs,Nat.succ_mul]
  omega

structure Transfer (A : Type) where
  id : ℕ
  addr : A
  data : List Byte
  filename : List Byte
  blocksize : ℕ
  blockNum : ℕ
  complete : Bool
  retries : ℕ
  lastPacket : Option Packet
  timer : Option ℕ

/-- A callback the event loop holds for a transfer. -/
structure Timer (A : Type) where
  handle : ℕ
  addr : A
  owner : ℕ

/-- A datagram that went out, with the transfer it was sent for. -/
structure Sent (A : Type) where
  addr : A
  packet : Packet
  transfer : Option (Transfer A)
  resend : Bool

structure Server (A : Type) where
  transfers : AList fun _ : A => Transfer A
  timers : List (Timer A)
  nextId : ℕ
  nextHandle : ℕ
  requests : ℕ
  bytesSent : ℕ
  transfersComplete : ℕ
  errors : ℕ
  filesComplete : List (List Byte)
  done : Bool

inductive Event (A : Type) where
  | datagram (addr : A) (data : List Byte)
  | timer (handle : ℕ)

variable {A : Type} [DecidableEq A]

def Server.start : Server A := ⟨∅,[],0,0,0,0,0,0,[],false⟩

namespace Server

def cancelTimer (s : Server A) (t : Transfer A) : Server A :=
  {s with timers := s.timers.filter fun m => t.timer ≠ some m.handle}

def armTimer (s : Server A) (t : Transfer A) : Server A × Transfer A :=
  let c := s.cancelTimer t
  ({c with timers := ⟨s.nextHandle,t.addr,t.id⟩ :: c.timers, nextHandle := s.nextHandle+1},
    {t with timer := some s.nextHandle})

/-- Transfers are objects of the server's table: changing one changes the table. -/
def put (s : Server A) (t : Transfer A) : Server A :=
  {s with transfers := s.transfers.insert t.addr t}

def sendTracked (s : Server A) (t : Transfer A) (p : Packet) : Server A × List (Sent A) :=
  let r := s.armTimer {t with lastPacket := some p}
  (r.1.put r.2,[⟨t.addr,p,some t,false⟩])

/-- The bytes of block `n`, the first being block 1. -/
def block (t : Transfer A) (n : ℕ) : List Byte := chunk t.data t.blocksize (n-1)

def sendDataBlock (s : Server A) (t : Transfer A) : Option (Server A × List (Sent A)) :=
  let n := t.blockNum+1
  let bytes := block t n
  if n < 65536 then
    some (s.sendTracked
      {t with blockNum := n, complete := t.complete || bytes.length < t.blocksize} (.data n bytes))
  else none

def sendError (s : Server A) (addr : A) (code : ℕ) (msg : List Byte) :
    Server A × List (Sent A) :=
  ({s with errors := s.errors+1},[⟨addr,.error code msg,none,false⟩])

def newTransfer (c : Config) (s : Server A) (addr : A) (r : Rrq) (file : List Byte) : Transfer A :=
  ⟨s.nextId,addr,file,r.filename,c.blocksize r,0,false,0,none,none⟩

def HasRoom (s : Server A) (addr : A) : Prop :=
  addr ∈ s.transfers ∨ s.transfers.entries.length < maxTransfers

def handleRrq (c : Config) (s : Server A) (addr : A) (data : List Byte) :
    Option (Server A × List (Sent A)) :=
  let s := {s with requests := s.requests+1}
  match parseRrq data with
  | none => some (s.sendError addr 0 (ascii "Malformed RRQ"))
  | some r =>
    if addr ∉ s.transfers ∧ maxTransfers ≤ s.transfers.entries.length then some (s,[])
    else match c.resolveFile r.filename with
      | none => some (s.sendError addr 1 (ascii "File not found: "++r.filename))
      | some file =>
        let t := newTransfer c s addr r file
        let s' := (s.transfers.lookup addr).elim s s.cancelTimer
        let s' := {s' with nextId := s.nextId+1}
        if r.blksize.isSome then some (s'.sendTracked t (.oack t.blocksize))
        else s'.sendDataBlock t

def unpackBe16 (data : List Byte) (i : ℕ) : ℕ := (data.getD i 0).toNat*256+(data.getD (i+1) 0).toNat

/-- The transfer is over: count it and forget it. -/
def finish (c : Config) (s : Server A) (t : Transfer A) : Server A :=
  {s with
    transfersComplete := s.transfersComplete+1
    filesComplete := s.filesComplete++[t.filename]
    bytesSent := s.bytesSent+t.data.length
    transfers := s.transfers.erase t.addr
    done := s.done || match c.doneFile with
      | some f => decide (t.filename = f)
      | none => decide (c.doneCount ≤ s.transfersComplete+1)}

def handleAck (c : Config) (s : Server A) (addr : A) (data : List Byte) :
    Option (Server A × List (Sent A)) :=
  if data.length < 4 then some (s,[])
  else
    let n := unpackBe16 data 2
    match s.transfers.lookup addr with
    | none => some (s,[])
    | some t =>
      if n = 0 ∧ t.blockNum = 0 then s.sendDataBlock {t with retries := 0}
      else if n = t.blockNum then
        let s := s.cancelTimer t
        let t := {t with retries := 0, timer := none}
        if t.complete then some (s.finish c t,[])
        else s.sendDataBlock t
      else some (s,[])

def handleError (s : Server A) (addr : A) : Server A :=
  let s' := {s with errors := s.errors+1}
  match s.transfers.lookup addr with
  | none => s'
  | some t => {s'.cancelTimer t with transfers := s.transfers.erase addr}

def datagramReceived (c : Config) (s : Server A) (addr : A) (data : List Byte) :
    Option (Server A × List (Sent A)) :=
  if data.length < 2 then some (s,[])
  else
    let opcode := unpackBe16 data 0
    if opcode = 1 then s.handleRrq c addr data
    else if opcode = 4 then s.handleAck c addr data
    else if opcode = 5 then some (s.handleError addr,[])
    else some (s.sendError addr 4 (ascii "Unsupported operation"))

/-- `_retransmit`, called by the event loop for one of its timers. -/
def retransmit (c : Config) (s : Server A) (m : Timer A) : Server A × List (Sent A) :=
  let s := {s with timers := s.timers.filter (·.handle ≠ m.handle)}
  match s.transfers.lookup m.addr with
  | none => (s,[])
  | some t =>
    if t.id ≠ m.owner then (s,[])
    else
      let t := {t with timer := none}
      if c.maxRetries ≤ t.retries then
        ({s with transfers := s.transfers.erase t.addr, errors := s.errors+1},[])
      else
        let r := s.armTimer {t with retries := t.retries+1}
        (r.1.put r.2,t.lastPacket.elim [] fun p => [⟨t.addr,p,some t,true⟩])

/-- One event. A timer that is not pending does not fire. -/
def react (c : Config) (s : Server A) : Event A → Option (Server A × List (Sent A))
  | .datagram addr data => s.datagramReceived c addr data
  | .timer h => match s.timers.find? (·.handle = h) with
      | none => some (s,[])
      | some m => some (s.retransmit c m)

end Server

end Defib.TftpServer
