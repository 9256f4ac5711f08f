import Defib.MdOutput
import Defib.Routines

/-!
# Dumping the flash

`dumpFlash` from the moment the flash has been copied to RAM: the sanity check, the probe
for the `crc32` command, the loop over chunks with its retries, resuming, and
`verifyAndRepair`. The console is a partner that answers each command with a text or
raises; the checksum of a `crc32` answer is kept abstract. The program returns the
offset and the file it leaves. Cancelling is not modelled.
-/
namespace Defib.DumpFlash
open Words PyText MdOutput Dialogue Routines Routines.Routine

/-- What a memory display is asked for. -/
inductive Use
  | check
  | dump
  | repair
  deriving DecidableEq

inductive Query
  | md (use : Use) (addr size : ℕ)
  | crcProbe
  | crc (addr size : ℕ)
  | blank
  deriving DecidableEq

/-- `digest` is the parsed answer to a `crc32`, if it could be parsed. -/
inductive Reply (D : Type)
  | raised
  | text (s : List Char)
  | digest (d : Option D)
  deriving DecidableEq

def chunkSize : ℕ := 0x1000
def maxRetries : ℕ := 5
def blockSize : ℕ := 0x10000

/-- `f.seek(off)` and `f.write(data)`. -/
def writeAt (file : List Byte) (off : ℕ) (data : List Byte) : List Byte :=
  file.take off++List.replicate (off-file.length) 0++data++file.drop (off+data.length)

section
variable (T : CharTable)

/-- `==>\s*[0-9a-f]{8}` at the beginning of a text. -/
def crcAnswer (s : List Char) : Bool :=
  let hex := ((s.drop 3).dropWhile T.space).take 8
  "==>".toList.isPrefixOf s && hex.length = 8 && hex.all isHex

def detectCrc32 (resp : List Char) : Bool :=
  let text := resp.map Char.toLower
  if contains "unknown command".toList text then false
  else text.tails.any (crcAnswer T) || contains "crc32 for".toList text ||
    (contains "usage:".toList text && contains "crc32".toList text)

/-- Where the dump starts and what it keeps of an existing file. -/
def resume (hasCrc32 : Bool) (size : ℕ) (existing : Option (List Byte)) : ℕ × List Byte :=
  match existing with
  | none => (0,[])
  | some file =>
    let resumeOffset := file.length/chunkSize*chunkSize
    if 0 < resumeOffset ∧ resumeOffset < size then (resumeOffset,file)
    else if file.length = size ∧ hasCrc32 = true then (size,file)
    else (0,[])

variable {D : Type} [DecidableEq D]

abbrev Console (D : Type) := Program Query (Reply D)

/-- A command whose exceptions are not caught. -/
def askText (q : Query) : Console D (List Char) := do
  match ← ask q with
  | .text s => pure s
  | _ => .fail

variable (crc : List Byte → D) (hasCrc32 : Bool)

/-- One attempt at a chunk: `again` after a chunk that is not kept if retries are left, `lost`
after an exception. -/
def attempt (addr size : ℕ) (again : List Byte → Console D (List Byte))
    (lost : Console D (List Byte)) : Console D (List Byte) := do
  match ← ask (.md .dump addr size) with
  | .text resp =>
    let data := parseMdOutput T resp
    if data = [] then again (List.replicate size 0)
    else if hasCrc32 = true ∧ data.length = size then
      match ← ask (.crc addr size) with
      | .raised => pure data
      | .digest (some d) => if d = crc data then pure data else again data
      | _ => again data
    else pure data
  | _ => lost

def readChunk (addr size : ℕ) : ℕ → Console D (List Byte)
  | 0 => attempt T crc hasCrc32 addr size pure (pure (List.replicate size 0))
  | retries+1 => attempt T crc hasCrc32 addr size (fun _ => readChunk addr size retries) do
      let _ ← ask .blank
      readChunk addr size retries

/-- The loop over chunks. Every chunk is non-empty, so `size-offset` rounds are enough. -/
def dumpLoop (size ramAddr : ℕ) : ℕ → ℕ → List Byte → Console D (ℕ × List Byte)
  | 0,offset,file => if offset < size then .fail else pure (offset,file)
  | fuel+1,offset,file =>
    if offset < size then do
      let data ← readChunk T crc hasCrc32 (ramAddr+offset) (min chunkSize (size-offset))
        maxRetries
      dumpLoop size ramAddr fuel (offset+data.length) (writeAt file offset data)
    else pure (offset,file)

/-! ### `verify_and_repair` -/

def deviceCrc (addr size : ℕ) : ℕ → Console D D
  | 0 => .fail
  | tries+1 => do
    match ← ask (.crc addr size) with
    | .digest (some d) => pure d
    | .digest none => deviceCrc addr size tries
    | _ => .fail

def reread (want : D) (addr size : ℕ) : ℕ → Console D (List Byte)
  | 0 => .fail
  | tries+1 => do
    let resp ← askText (.md .repair addr size)
    let got := parseMdOutput T resp
    if got.length = size ∧ crc got = want then pure got else reread want addr size tries

/-- The file, the copy of it in memory and the number of chunks rewritten. -/
structure Repair where
  file : List Byte
  data : List Byte
  fixed : ℕ
  deriving DecidableEq

/-- `src.read(size)` -/
def Repair.load (file : List Byte) (size : ℕ) : Repair := ⟨file,file.take size,0⟩

/-- The file outlives an exception. -/
abbrev Repairing (D A : Type) := Routine Query (Reply D) Repair A

/-- The starting points of a range cut into pieces. -/
def starts (lo hi step : ℕ) : List ℕ :=
  (List.range ((hi-lo+step-1)/step)).map fun i => lo+i*step

/-- `range(lo, hi, step)`, which raises for a step of zero. -/
def rangeOf (lo hi step : ℕ) : Repairing D (List ℕ) :=
  if step = 0 then raise else pure (starts lo hi step)

def repairChunk (chunk maxRetries ramAddr bend off : ℕ) : Repairing D Unit := do
  let n := min chunk (bend-off)
  let want ← perform (deviceCrc (ramAddr+off) n 3)
  let s ← current
  if want = crc ((s.data.drop off).take n) then pure ()
  else do
    let got ← perform (reread T crc want (ramAddr+off) n (maxRetries+1))
    update fun s => ⟨writeAt s.file off got,place s.data off got,s.fixed+1⟩

def repairBlock (block chunk maxRetries size ramAddr boff : ℕ) : Repairing D Unit := do
  let bend := min (boff+block) size
  let device ← perform (deviceCrc (ramAddr+boff) (bend-boff) 3)
  let s ← current
  if device = crc ((s.data.drop boff).take (bend-boff)) then pure ()
  else do
    let offs ← rangeOf boff bend chunk
    offs.forM (repairChunk T crc chunk maxRetries ramAddr bend)

/-- `verify_and_repair` once the file has been read. -/
def verifyAndRepair (block chunk maxRetries size ramAddr : ℕ) : Repairing D ℕ := do
  let s ← current
  if s.data.length ≠ size then raise
  else do
    let whole ← perform (deviceCrc ramAddr size 3)
    if whole = crc s.data then pure 0
    else do
      let boffs ← rangeOf 0 size block
      boffs.forM (repairBlock T crc block chunk maxRetries size ramAddr)
      let again ← perform (deviceCrc ramAddr size 3)
      let s ← current
      if again ≠ crc s.data then raise else pure s.fixed

/-- The sanity check: the first bytes are not all the same. -/
def looksBlank (data : List Byte) : Bool :=
  16 ≤ data.length && (data.take 16).all (· = data.headD 0)

def dumpFlash (size ramAddr : ℕ) (existing : Option (List Byte)) : Console D (ℕ × List Byte) := do
  let check ← askText (.md .check ramAddr 16)
  if looksBlank (parseMdOutput T check) then .fail
  else do
    let probe ← askText .crcProbe
    let hasCrc32 := detectCrc32 T probe
    let start := resume hasCrc32 size existing
    let r ← dumpLoop T crc hasCrc32 size ramAddr (size-start.1) start.1 start.2
    if hasCrc32 = true ∧ r.1 = size then do
      match ← verifyAndRepair T crc blockSize chunkSize maxRetries size ramAddr
          (.load r.2 size) with
      | (some _,s) => pure (r.1,s.file)
      | (none,_) => .fail
    else pure r

/-! ### The loop runs to its end -/

open Dialogue.Program

section
variable {T crc hasCrc32} {G : Query → Reply D → Prop}
  {Q : List Byte → List (Query × Reply D) → Prop} {addr size : ℕ}

/-- An answer after which the chunk may be tried again: no display, an empty one or one of the
length asked for. -/
def Passed (T : CharTable) (addr size : ℕ) : Query → Reply D → Prop
  | .md .dump a _,.text s =>
    a = addr ∧ (parseMdOutput T s = [] ∨ (parseMdOutput T s).length = size)
  | _,_ => True

/-- An accepted chunk has the length asked for, or is the only display, or follows answers that
are passed. -/
theorem attempt_safe (hfull : ∀ d,d.length = size → Q d [])
    (hskip : ∀ q r d l,Passed T addr size q r → Q d l → Q d ((q,r)::l))
    (honly : ∀ s,G (.md .dump addr size) (.text s) → parseMdOutput T s ≠ [] →
      Q (parseMdOutput T s) [(.md .dump addr size,.text s)])
    {again : List Byte → Console D (List Byte)} {lost : Console D (List Byte)}
    (hagain : ∀ d,d.length = size → Safe G (fun _ => True) Q (again d))
    (hlost : Safe G (fun _ => True) Q lost) :
    Safe G (fun _ => True) Q (attempt T crc hasCrc32 addr size again lost) := by
  refine Safe.ask_bind trivial fun r hr => ?_
  cases r with
  | raised => exact hlost.mono fun d l => hskip (.md .dump addr size) .raised d l trivial
  | digest x => exact hlost.mono fun d l => hskip (.md .dump addr size) (.digest x) d l trivial
  | text resp =>
    simp only
    split_ifs with hnil hcrc
    · refine (hagain _ List.length_replicate).mono fun d l => ?_
      exact hskip _ _ d l ⟨rfl,.inl hnil⟩
    · have hpass : Passed T addr size (.md .dump addr size) (.text resp : Reply D) :=
        ⟨rfl,.inr hcrc.2⟩
      have hkeep (r' : Reply D) := hskip _ _ _ _ hpass
        (hskip (.crc addr size) r' _ _ trivial (hfull _ hcrc.2))
      have hretry (r' : Reply D) := (hagain _ hcrc.2).mono fun d l hq =>
        hskip _ _ _ _ hpass (hskip (.crc addr size) r' _ _ trivial hq)
      refine Safe.ask_bind trivial fun r' _ => ?_
      cases r' with
      | raised => exact Safe.pure (hkeep _)
      | text s => exact hretry _
      | digest d =>
        cases d with
        | none => exact hretry _
        | some d =>
          simp only
          split_ifs
          · exact Safe.pure (hkeep _)
          · exact hretry _
    · exact Safe.pure (honly resp hr hnil)

lemma readChunk_safe (hfull : ∀ d,d.length = size → Q d [])
    (hskip : ∀ q r d l,Passed T addr size q r → Q d l → Q d ((q,r)::l))
    (honly : ∀ s,G (.md .dump addr size) (.text s) → parseMdOutput T s ≠ [] →
      Q (parseMdOutput T s) [(.md .dump addr size,.text s)]) (retries : ℕ) :
    Safe G (fun _ => True) Q (readChunk T crc hasCrc32 addr size retries) := by
  induction retries with
  | zero =>
    exact attempt_safe hfull hskip honly (fun d hd => Safe.pure (hfull d hd))
      (Safe.pure (hfull _ List.length_replicate))
  | succ n ih =>
    refine attempt_safe hfull hskip honly (fun _ _ => ih) (Safe.ask_bind trivial fun r _ => ?_)
    exact ih.mono fun d l => hskip .blank r d l trivial

end

end

end Defib.DumpFlash
