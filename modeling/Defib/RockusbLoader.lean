import Mathlib.Data.List.DropRight
import Defib.Endian
import Defib.PartialMap
import Defib.Words

/-!
# Loader files

A loader file starts with a header that places two tables, and every entry of a table places
a blob. All of these numbers come from the file. The reads by `struct` and by index may raise
exceptions of their own; the parser's checks keep them from it, and keep every blob inside
the file. They do not look at the size of a blob: an entry may declare a blob of no bytes.
-/
namespace Defib.RockusbLoader
open List Words Endian PartialMap

/-- "BOOT" -/
def tagBoot : List Byte := [0x42,0x4F,0x4F,0x54]
/-- "LDR " -/
def tagLoader : List Byte := [0x4C,0x44,0x52,0x20]

def entryTrailer : ℕ := 12
def entryNameBytes : ℕ := 40

inductive Stage where
  | ddrInit
  | usbplug
  deriving DecidableEq, Repr

inductive LoaderFormatError where
  | tooShort (length : ℕ)
  | magic (found : List Byte)
  | noEntries (missing : List Stage)
  | entrySize (size : ℕ)
  | entryPastEnd (index base length : ℕ)
  | blobPastEnd (name : List Char) (dataOffset dataSize length : ℕ)
  deriving DecidableEq, Repr

/-- The exceptions that the operations of the parser can raise. -/
inductive Raised where
  | loaderFormat (e : LoaderFormatError)
  | structError
  | indexError
  deriving DecidableEq, Repr

structure LoaderEntry where
  name : List Char
  data : List Byte
  delayMs : ℕ
  deriving DecidableEq, Repr

structure LoaderBlobs where
  ddr : List LoaderEntry
  usbplug : List LoaderEntry
  rc4Disabled : Bool
  deriving DecidableEq, Repr

/-! ### Names -/

def replacement : Char := Char.ofNat 0xFFFD

/-- A code unit on its own; half a surrogate pair is replaced. -/
def single (u : ℕ) : Char := if 0xD800 ≤ u ∧ u < 0xE000 then replacement else Char.ofNat u

def decodeUnits : List ℕ → List Char
  | [] => []
  | [u] => [single u]
  | u::v::us =>
    if (0xD800 ≤ u ∧ u < 0xDC00) ∧ 0xDC00 ≤ v ∧ v < 0xE000 then
      Char.ofNat (0x10000+(u-0xD800)*0x400+(v-0xDC00)) :: decodeUnits us
    else single u :: decodeUnits (v::us)

/-- The code units of a name, which has an even number of bytes. -/
def units : List Byte → List ℕ
  | lo::hi::rest => (lo.toNat+256*hi.toNat) :: units rest
  | _ => []

/-- `.decode("utf-16-le", errors="replace").rstrip("\x00")` -/
def nameOf (bytes : List Byte) : List Char :=
  (decodeUnits (units bytes)).rdropWhile (· = '\x00')

/-! ### The parser -/

/-- A little-endian field of `n` bytes. -/
def le (data : List Byte) (k n : ℕ) : ℕ := ofLe ((data.drop k).take n)

structure Table where
  count : ℕ
  offset : ℕ
  entrySize : ℕ
  deriving DecidableEq, Repr

structure Trailer where
  dataOffset : ℕ
  dataSize : ℕ
  delayMs : ℕ
  deriving DecidableEq, Repr

def tableAt (data : List Byte) (k : ℕ) : Table := ⟨le data k 1,le data (k+1) 4,le data (k+5) 1⟩

def trailerAt (data : List Byte) (k : ℕ) : Trailer :=
  ⟨le data k 4,le data (k+4) 4,le data (k+8) 4⟩

/-- `struct.unpack_from("<BIB", data, k)` -/
def unpackTable (data : List Byte) (k : ℕ) : Except Raised Table :=
  if data.length < k+6 then .error .structError else .ok (tableAt data k)

/-- `struct.unpack_from("<III", data, k)` -/
def unpackTrailer (data : List Byte) (k : ℕ) : Except Raised Trailer :=
  if data.length < k+12 then .error .structError else .ok (trailerAt data k)

/-- `data[k]` -/
def index (data : List Byte) (k : ℕ) : Except Raised Byte :=
  match data[k]? with
  | none => .error .indexError
  | some b => .ok b

/-- The body of the loop of `_parse_entries`. -/
def parseEntry (data : List Byte) (t : Table) (i : ℕ) : Except Raised LoaderEntry :=
  let base := t.offset+i*t.entrySize
  if data.length < base+t.entrySize then
    .error (.loaderFormat (.entryPastEnd i base data.length))
  else do
    let nameAt := base+t.entrySize-entryTrailer-entryNameBytes
    let name := nameOf ((data.drop nameAt).take entryNameBytes)
    let r ← unpackTrailer data (base+t.entrySize-entryTrailer)
    if data.length < r.dataOffset+r.dataSize then
      .error (.loaderFormat (.blobPastEnd name r.dataOffset r.dataSize data.length))
    else .ok ⟨name,(data.drop r.dataOffset).take r.dataSize,r.delayMs⟩

def parseEntries (data : List Byte) (t : Table) : Except Raised (List LoaderEntry) :=
  if t.entrySize < entryTrailer+entryNameBytes then .error (.loaderFormat (.entrySize t.entrySize))
  else (List.range t.count).mapM (parseEntry data t)

/-- The place of the first table in the header. -/
def tablesAt : ℕ := 4+2+4+4+7+4

def missingStages (n471 n472 : ℕ) : List Stage :=
  ([(Stage.ddrInit,n471),(.usbplug,n472)].filter (·.2 = 0)).map Prod.fst

def parseLoader (data : List Byte) : Except Raised LoaderBlobs :=
  if data.length < 64 then .error (.loaderFormat (.tooShort data.length))
  else if data.take 4 ∉ [tagBoot,tagLoader] then .error (.loaderFormat (.magic (data.take 4)))
  else do
    let t471 ← unpackTable data tablesAt
    let t472 ← unpackTable data (tablesAt+6)
    let rc4Flag ← index data (tablesAt+6+6+6+1)
    let missing := missingStages t471.count t472.count
    if missing ≠ [] then .error (.loaderFormat (.noEntries missing))
    else
      let ddr ← parseEntries data t471
      let usbplug ← parseEntries data t472
      return ⟨ddr,usbplug,rc4Flag ≠ 0⟩

/-! ### What the parser accepts -/

section Accepted
variable (data : List Byte)

def trailerOf (t : Table) (i : ℕ) : Trailer :=
  trailerAt data (t.offset+i*t.entrySize+t.entrySize-entryTrailer)

/-- The entry and its blob lie in the file. -/
def EntryFits (t : Table) (i : ℕ) : Prop :=
  t.offset+i*t.entrySize+t.entrySize ≤ data.length ∧
    (trailerOf data t i).dataOffset+(trailerOf data t i).dataSize ≤ data.length

def TableFits (t : Table) : Prop :=
  t.count ≠ 0 ∧ 52 ≤ t.entrySize ∧ ∀ i ∈ List.range t.count,EntryFits data t i

def tables : List Table := [tableAt data 25,tableAt data 31]

/-- What the parser asks for: a magic and two tables that fit. -/
def Accepted : Prop :=
  64 ≤ data.length ∧ data.take 4 ∈ [tagBoot,tagLoader] ∧ ∀ t ∈ tables data,TableFits data t

def entryOf (t : Table) (i : ℕ) : LoaderEntry :=
  ⟨nameOf ((data.drop (t.offset+i*t.entrySize+t.entrySize-entryTrailer-entryNameBytes)).take
      entryNameBytes),
    (data.drop (trailerOf data t i).dataOffset).take (trailerOf data t i).dataSize,
    (trailerOf data t i).delayMs⟩

def entriesOf (t : Table) : List LoaderEntry := (List.range t.count).map (entryOf data t)

variable {data} {t : Table}

lemma unpackTrailer_ok {i : ℕ} (hsize : 52 ≤ t.entrySize)
    (hin : t.offset+i*t.entrySize+t.entrySize ≤ data.length) :
    unpackTrailer data (t.offset+i*t.entrySize+t.entrySize-entryTrailer) =
      .ok (trailerOf data t i) := by
  rw [unpackTrailer,if_neg (by rw [entryTrailer]; omega)]
  rfl

lemma parseEntry_ok {i : ℕ} (hsize : 52 ≤ t.entrySize) (h : EntryFits data t i) :
    parseEntry data t i = .ok (entryOf data t i) := by
  rw [parseEntry,if_neg (Nat.not_lt.mpr h.1),unpackTrailer_ok hsize h.1]
  exact if_neg (Nat.not_lt.mpr h.2)

lemma parseEntry_error {i : ℕ} (hsize : 52 ≤ t.entrySize) (h : ¬EntryFits data t i) :
    ∃ r,(∃ e,r = Raised.loaderFormat e) ∧ parseEntry data t i = .error r := by
  rw [parseEntry]
  split
  next => exact ⟨_,⟨_,rfl⟩,rfl⟩
  next hin =>
    rw [unpackTrailer_ok hsize (Nat.le_of_not_lt hin)]
    refine ⟨_,⟨_,rfl⟩,if_pos ?_⟩
    exact Nat.lt_of_not_le fun hblob => h ⟨Nat.le_of_not_lt hin,hblob⟩

lemma parseEntries_cases (data : List Byte) (t : Table) (hcount : t.count ≠ 0) :
    (TableFits data t ∧ parseEntries data t = .ok (entriesOf data t)) ∨
      (¬TableFits data t ∧ ∃ e,parseEntries data t = .error (.loaderFormat e)) := by
  by_cases hsize : 52 ≤ t.entrySize
  · have hall := except_mapM (fun i (hi : EntryFits data t i) => parseEntry_ok hsize hi)
      (fun i hi => parseEntry_error hsize hi) (List.range t.count)
    have hread : parseEntries data t = (List.range t.count).mapM (parseEntry data t) :=
      if_neg (Nat.not_lt.mpr hsize)
    by_cases hfit : ∀ i ∈ List.range t.count,EntryFits data t i
    · exact .inl ⟨⟨hcount,hsize,hfit⟩,by rw [hread,hall.1 hfit]; rfl⟩
    · obtain ⟨_,⟨e,rfl⟩,herror⟩ := hall.2 hfit
      exact .inr ⟨fun h => hfit h.2.2,e,by rw [hread,herror]⟩
  · refine .inr ⟨fun h => hsize h.2.1,_,if_pos ?_⟩
    exact Nat.lt_of_not_le hsize

lemma missingStages_eq_nil {n471 n472 : ℕ} :
    missingStages n471 n472 = [] ↔ n471 ≠ 0 ∧ n472 ≠ 0 := by
  simp [missingStages]

lemma parseLoader_cases (data : List Byte) :
    (Accepted data ∧ ∃ rc4Disabled,parseLoader data =
      .ok ⟨entriesOf data (tableAt data 25),entriesOf data (tableAt data 31),rc4Disabled⟩) ∨
    (¬Accepted data ∧ ∃ e,parseLoader data = .error (.loaderFormat e)) := by
  by_cases hlen : data.length < 64
  · exact .inr ⟨fun h => absurd h.1 (Nat.not_le.mpr hlen),_,if_pos hlen⟩
  rw [parseLoader,if_neg hlen]
  by_cases hmagic : data.take 4 ∉ [tagBoot,tagLoader]
  · exact .inr ⟨fun h => hmagic h.2.1,_,if_pos hmagic⟩
  rw [if_neg hmagic]
  have h471 : unpackTable data tablesAt = .ok (tableAt data 25) :=
    if_neg (by rw [tablesAt]; omega)
  have h472 : unpackTable data (tablesAt+6) = .ok (tableAt data 31) :=
    if_neg (by rw [tablesAt]; omega)
  have hflag : index data (tablesAt+6+6+6+1) = .ok (data.getD 44 0) := by
    rw [index,show tablesAt+6+6+6+1 = 44 from rfl,getD_eq_getElem?_getD,
      getElem?_eq_getElem (show 44 < data.length by omega)]
    rfl
  have hboth : Accepted data ↔
      TableFits data (tableAt data 25) ∧ TableFits data (tableAt data 31) := by
    rw [Accepted,tables]
    simp [not_not.mp hmagic,Nat.le_of_not_lt hlen]
  rw [h471,h472,hflag,hboth]
  by_cases hmissing : missingStages (tableAt data 25).count (tableAt data 31).count ≠ []
  · refine .inr ⟨fun h => hmissing (missingStages_eq_nil.mpr ⟨h.1.1,h.2.1⟩),_,if_pos hmissing⟩
  obtain ⟨hn471,hn472⟩ := missingStages_eq_nil.mp (not_not.mp hmissing)
  simp only [Except.bind,bind]
  rw [if_neg hmissing]
  rcases parseEntries_cases data (tableAt data 25) hn471 with ⟨hfit,hddr⟩ | ⟨hnot,e,hddr⟩
  · rcases parseEntries_cases data (tableAt data 31) hn472 with ⟨hfit',hplug⟩ | ⟨hnot,e,hplug⟩
    · rw [hddr,hplug]
      exact .inl ⟨⟨hfit,hfit'⟩,_,rfl⟩
    · rw [hddr,hplug]
      exact .inr ⟨fun h => hnot h.2,e,rfl⟩
  · rw [hddr]
    exact .inr ⟨fun h => hnot h.1,e,rfl⟩

/-- `parse_loader` ends with a `LoaderFormatError`, or with entries of both kinds whose data
are non-empty parts of the file. -/
def ParsesWell (data : List Byte) : Prop :=
  (∃ e,parseLoader data = .error (.loaderFormat e)) ∨
    ∃ blobs,parseLoader data = .ok blobs ∧ blobs.ddr ≠ [] ∧ blobs.usbplug ≠ [] ∧
      ∀ e ∈ blobs.ddr++blobs.usbplug,e.data ≠ [] ∧
        ∃ k,k+e.data.length ≤ data.length ∧ e.data = (data.drop k).take e.data.length

lemma entryOf_data_length {i : ℕ} (h : EntryFits data t i) :
    (entryOf data t i).data.length = (trailerOf data t i).dataSize := by
  have hblob := h.2
  show ((data.drop _).take _).length = _
  rw [length_take,length_drop]
  omega

lemma mem_entries {e : LoaderEntry} :
    e ∈ entriesOf data (tableAt data 25)++entriesOf data (tableAt data 31) ↔
      ∃ t ∈ tables data,∃ i < t.count,e = entryOf data t i := by
  simp only [entriesOf,tables,mem_append,mem_map,mem_range,mem_cons,
    not_mem_nil,or_false,exists_eq_or_imp,exists_eq_left,eq_comm]

lemma entriesOf_ne_nil (h : TableFits data t) : entriesOf data t ≠ [] := by
  rw [entriesOf,ne_eq,map_eq_nil_iff,range_eq_nil]
  exact h.1

/-- The parser is total and stays inside the file; an entry is empty exactly when the file
says so. -/
theorem parsesWell_iff_no_empty_blob (data : List Byte) :
    ParsesWell data ↔
      (Accepted data → ∀ t ∈ tables data,∀ i < t.count,(trailerOf data t i).dataSize ≠ 0) := by
  rcases parseLoader_cases data with ⟨haccepted,rc4Disabled,hparse⟩ | ⟨hnot,e,hparse⟩
  · have hfits : ∀ t ∈ tables data,∀ i < t.count,EntryFits data t i :=
      fun t ht i hi => (haccepted.2.2 t ht).2.2 i (mem_range.mpr hi)
    constructor
    · intro hwell _ t ht i hi hzero
      rcases hwell with ⟨e,herror⟩ | ⟨blobs,hblobs,_,_,hall⟩
      · rw [hparse] at herror
        cases herror
      · rw [hparse] at hblobs
        obtain rfl := Except.ok.inj hblobs
        have hentry := (hall _ (mem_entries.mpr ⟨t,ht,i,hi,rfl⟩)).1
        rw [← entryOf_data_length (hfits t ht i hi),length_eq_zero_iff] at hzero
        exact hentry hzero
    · intro hsizes
      refine .inr ⟨_,hparse,?_,?_,?_⟩
      · exact entriesOf_ne_nil (haccepted.2.2 _ mem_cons_self)
      · exact entriesOf_ne_nil (haccepted.2.2 _ (mem_cons_of_mem _ mem_cons_self))
      · intro e he
        obtain ⟨t,ht,i,hi,rfl⟩ := mem_entries.mp he
        have hlen := entryOf_data_length (hfits t ht i hi)
        refine ⟨?_,(trailerOf data t i).dataOffset,?_,?_⟩
        · intro hnil
          rw [hnil] at hlen
          exact hsizes haccepted t ht i hi hlen.symm
        · rw [hlen]
          exact (hfits t ht i hi).2
        · rw [hlen]
          rfl
  · exact ⟨fun _ haccepted => absurd haccepted hnot,fun _ => .inl ⟨e,hparse⟩⟩

/-- A loader file with one entry in each table; the blob of the DDR entry has no bytes. -/
def emptyDdrFile : List Byte :=
  tagBoot++List.replicate 21 0++
    -- the tables: one entry of 52 bytes at 64, and one at 116
    [1,64,0,0,0,52]++[1,116,0,0,0,52]++List.replicate 27 0++
    -- a name of zeros, the place of the blob, its size and the delay
    (List.replicate 40 0++[168,0,0,0]++[0,0,0,0]++[0,0,0,0])++
    (List.replicate 40 0++[168,0,0,0]++[1,0,0,0]++[0,0,0,0])++[0xA5]

theorem empty_ddr_blob_accepted : ¬ParsesWell emptyDdrFile := by
  have hparse : parseLoader emptyDdrFile =
      .ok ⟨[⟨[],[],0⟩],[⟨[],[0xA5],0⟩],false⟩ := by
    decide +kernel
  rintro (⟨e,herror⟩ | ⟨blobs,hblobs,_,_,hall⟩)
  · rw [hparse] at herror
    cases herror
  · rw [hparse] at hblobs
    obtain rfl := Except.ok.inj hblobs
    exact (hall ⟨[],[],0⟩ mem_cons_self).1 rfl

end Accepted

end Defib.RockusbLoader
