import Defib.Mtdparts
import Defib.UbiImage
import Defib.Dialogue

/-!
# The restore command

Phase five of `_restore_async` as a program in dialogue with U-Boot: the write order,
the two calculations of offsets, the transfer of each partition and its erase and write
commands. A failing reply stands for an exception of the transport. The phases before it
choose the flash type and bring up the network; they write no flash.
-/
namespace Defib.Restore
open Words PyText Dicts Mtdparts UbiImage Dialogue

/-- Any other text given as `--flash-type` selects no write command. -/
inductive Flash
  | nand
  | nor
  | emmc
  | other
  deriving DecidableEq

structure Job where
  partitions : List (List Char × List Byte)
  mtdparts : List Char
  flash : Flash
  ramAddr : ℕ

inductive Command
  | printenvBootargs
  | printenvMtdparts
  | setenvMtdids (nandName : List Char)
  | setenvMtdparts (value : List Char)
  | mtdparts
  | tftpboot (addr : ℕ) (name : List Char)
  | tftp (addr : ℕ) (name : List Char)
  | nandErase (off : ℕ) (size : ℤ)
  | nandWrite (addr off size : ℕ)
  | sfErase (off size : ℕ)
  | sfWrite (addr off size : ℕ)
  | mmcErase (block count : ℕ)
  | mmcWrite (addr block count : ℕ)
  | ubiPart (name : List Char)
  | ubiCreate (vol : List Char)
  | ubiWrite (addr : ℕ) (vol : List Char) (size : ℕ)
  | reset
  deriving DecidableEq

/-- A command with the index of the input partition it is sent for. -/
structure Request where
  part : Option ℕ
  cmd : Command
  deriving DecidableEq

/-- `ok` is the status line of the download mode; the shell has none. -/
structure Reply where
  ok : Bool
  text : List Char
  deriving DecidableEq

def Reply.has (r : Reply) (needle : String) : Bool :=
  contains needle.toList (r.text.map Char.toLower)

abbrev Session := Program Request Reply

/-- Name, offset and size of each listed partition, by index. -/
abbrev Partmap := List (ℕ × (List Char × ℕ × ℕ))

/-! ### Order and offsets -/

abbrev Item := ℕ × List Char × List Byte

def Job.items (j : Job) : List Item := j.partitions.zipIdx.map fun p => (p.2,p.1.1,p.1.2)

def isBoot (x : Item) : Bool := x.1 = 0 || x.2.1 = "mtd0".toList || x.2.1 = "boot".toList

def Job.writeOrder (j : Job) : List Item :=
  j.items.filter (fun x => !isBoot x)++j.items.filter isBoot

lemma mem_items {j : Job} {x : Item} (hx : x ∈ j.items) : x.2 ∈ j.partitions := by
  obtain ⟨p,hp,rfl⟩ := List.mem_map.mp hx
  exact List.fst_mem_of_mem_zipIdx hp

lemma mem_writeOrder {j : Job} {x : Item} : x ∈ j.writeOrder ↔ x ∈ j.items := by
  rw [Job.writeOrder,List.mem_append,List.mem_filter,List.mem_filter]
  cases isBoot x <;> simp

lemma Job.exists_item {j : Job} {i : ℕ} (hi : i < j.partitions.length) : ∃ x ∈ j.items,x.1 = i :=
  ⟨(i,(j.partitions.get ⟨i,hi⟩).1,(j.partitions.get ⟨i,hi⟩).2),
    List.mem_map.mpr ⟨(j.partitions.get ⟨i,hi⟩,i),
      List.mk_mem_zipIdx_iff_getElem?.mpr (List.getElem?_eq_getElem hi),rfl⟩,rfl⟩

/-- The sum of the lengths before partition `i`. -/
def Job.dataOffset (j : Job) (i : ℕ) : ℕ := ((j.partitions.take i).map (·.2.length)).sum

/-- `none` is the `ValueError` for a size with more digits than `limit`. -/
def Job.offsets (T : CharTable) (limit : Option ℕ) (j : Job) : Option (List (ℕ × ℕ)) :=
  if j.mtdparts ≠ [] ∧ j.flash = .nand then partOffsets T limit j.mtdparts j.partitions.length
  else some (j.items.map fun x => (x.1,j.dataOffset x.1))

def roundUp (n k : ℕ) : ℕ := (n+k-1)/k*k

def nandBlock : ℕ := 0x20000
def norBlock : ℕ := 0x10000
def nandPage : ℕ := 2048
def emmcBlock : ℕ := 512
def nandEnd : ℕ := 0x8000000

/-! ### One partition -/

section
variable (T : CharTable) (limit : Option ℕ) (j : Job)

/-- `mtdparts=(hinand:[\S]+)`. -/
def searchHinand (text : List Char) : Option (List Char) :=
  text.tails.findSome? fun s =>
    let rest := (s.drop 16).takeWhile fun c => !T.space c
    if "mtdparts=hinand:".toList.isPrefixOf s ∧ rest ≠ [] then some ("hinand:".toList++rest)
    else none

def findLayout (i : ℕ) : Session (Option (List Char)) :=
  if j.mtdparts ≠ [] then pure (some j.mtdparts)
  else do
    let r ← ask ⟨some i,.printenvBootargs⟩
    match searchHinand T r.text with
    | some v => pure (some v)
    | none => do
      let r ← ask ⟨some i,.printenvMtdparts⟩
      pure (searchHinand T r.text)

def nandName (mtdparts : List Char) : List Char := mtdparts.takeWhile (· ≠ ':')

/-- The layout for UBI partitions; `none` if it cannot be determined. -/
def readLayout (i : ℕ) : Session (Option Partmap) := do
  match ← findLayout T j i with
  | none => pure none
  | some v => do
    let _ ← ask ⟨some i,.setenvMtdids (nandName v)⟩
    let _ ← ask ⟨some i,.setenvMtdparts v⟩
    let _ ← ask ⟨some i,.mtdparts⟩
    match ubiPartmap T limit v with
    | none => .fail
    | some m => pure (some m)

def Reply.fetched (r : Reply) : Bool := r.has "done" || r.has "bytes transferred"

def fetch (i : ℕ) (name : List Char) : Session Bool := do
  let r ← ask ⟨some i,.tftpboot j.ramAddr name⟩
  if r.has "unknown command" then do
    let r ← ask ⟨some i,.tftp j.ramAddr name⟩
    pure r.fetched
  else pure r.fetched

/-- The write commands follow a successful fetch only. -/
def fetchThen (i : ℕ) (name : List Char) (write : Session Unit) : Session Unit := do
  if ← fetch j i name then write else pure ()

/-- The data to write and whether it is a UBIFS volume; `none` is an exception. -/
def prepare (data : List Byte) : Option (List Byte × Bool) :=
  if j.flash = .nand ∧ isUbiImage data = true then
    match extractUbifs data nandBlock 0 with
    | .ok d => some (d,true)
    | .error _ => none
  else some (data,j.flash = .nand && isUbifsImage data)

/-- The first input partition of that name. -/
def firstIndex (name : List Char) : ℕ := j.partitions.findIdx (·.1 = name)

/-- The size of a UBI partition; one without a size reaches the end of a 128 MiB chip. -/
def ubiSize (off size : ℕ) : ℤ := if size = 0 then (nandEnd : ℤ)-off else size

/-- The commands for a UBI partition, after its fetch. -/
def writeUbi (i : ℕ) (data : List Byte) (vol : List Char) (off size : ℕ) : Session Unit := do
  let _ ← ask ⟨some i,.nandErase off (ubiSize off size)⟩
  let _ ← ask ⟨some i,.ubiPart vol⟩
  let _ ← ask ⟨some i,.ubiCreate vol⟩
  let _ ← ask ⟨some i,.ubiWrite j.ramAddr vol data.length⟩
  pure ()

/-- The raw write commands, after the fetch. -/
def writeRaw (i : ℕ) (data : List Byte) (off : ℕ) : Session Unit :=
  match j.flash with
  | .nand => do
    let _ ← ask ⟨some i,.nandErase off (roundUp data.length nandBlock)⟩
    let _ ← ask ⟨some i,.nandWrite j.ramAddr off (roundUp data.length nandPage)⟩
    pure ()
  | .nor => do
    let _ ← ask ⟨some i,.sfErase off (roundUp data.length norBlock)⟩
    let _ ← ask ⟨some i,.sfWrite j.ramAddr off data.length⟩
    pure ()
  | .emmc => do
    let count := (data.length+511)/512
    let _ ← ask ⟨some i,.mmcErase (off/512) count⟩
    let _ ← ask ⟨some i,.mmcWrite j.ramAddr (off/512) count⟩
    pure ()
  | .other => pure ()

/-- The offset of a raw partition: from the layout once it has been read. -/
def rawOffset (offsets : List (ℕ × ℕ)) (partmap : Option Partmap) (i : ℕ) : ℕ :=
  match partmap.bind fun m => getItem m i with
  | some (_,off,_) => off
  | none => (getItem offsets i).getD 0

/-- The layout is read once, for the first UBI partition. -/
def layoutFor (partmap : Option Partmap) (i : ℕ) : Session (Option Partmap) :=
  match partmap with
  | some m => pure (some m)
  | none => readLayout T limit j i

def writeUbiPartition (partmap : Option Partmap) (i : ℕ) (name : List Char) (data : List Byte) :
    Session (Option Partmap) := do
  let partmap ← layoutFor T limit j partmap i
  match partmap.bind fun m => getItem m (firstIndex j name) with
  | none => pure partmap
  | some (vol,off,size) => do
    fetchThen j i name (writeUbi j i data vol off size)
    pure partmap

def writePartition (offsets : List (ℕ × ℕ)) (partmap : Option Partmap) (x : Item) :
    Session (Option Partmap) :=
  match prepare j x.2.2 with
  | none => .fail
  | some (data,true) => writeUbiPartition T limit j partmap x.1 x.2.1 data
  | some (data,false) => do
    fetchThen j x.1 x.2.1 (writeRaw j x.1 data (rawOffset offsets partmap x.1))
    pure partmap

/-- Phase five and six; a result is the report of success. -/
def restore : Session Unit :=
  match j.offsets T limit with
  | none => .fail
  | some offsets => do
    let _ ← j.writeOrder.foldlM (writePartition T limit j offsets) none
    let _ ← ask ⟨none,.reset⟩
    pure ()

end

end Defib.Restore
