import Defib.Words
import Mathlib.Data.List.Sort

/-!
# Composite boot images of the CV6xx chips

A boot file holds a GSL image, DDR parameters with up to eight tables and a U-Boot image. The
parser looks for the magic of a GSL header near the beginning of the file and for that of a DDR
header shortly after the GSL, and takes a pair when all three headers are structurally valid.
It rejects the file unless there is exactly one such pair.
-/
namespace Defib.Cv6xxBoot
open List Words

def gslMagic : ℕ := 0x4BB4D22D
def ddrParamsMagic : ℕ := 0x4B87A52D
def ubootMagic : ℕ := 0x4BF01E2D

def imageAlignment : ℕ := 0x100
def codeAlignment : ℕ := 0x200
def imageHeaderFieldsSize : ℕ := 40
def ddrParamsFieldsSize : ℕ := 308
def maxGslHeaderOffset : ℕ := 0x10000
def maxSectionGap : ℕ := 0x1000
def maxDdrTables : ℕ := 8

inductive ImageName where
  | gsl | ddrParams | uboot
  deriving DecidableEq, Repr

inductive Problem where
  | truncatedHeader | magic | version | structureBounds | payloadLength | truncatedPayload
  | tableDimensions | noValidTable | mappingOutOfRange | truncatedTables
  deriving DecidableEq, Repr

/-- The cases of `ProtocolError`: one of an image at an offset, and the two of the file. -/
inductive ProtocolError where
  | image (problem : Problem) (name : ImageName) (offset : ℕ)
  | noLayout
  | ambiguous
  deriving DecidableEq, Repr

/-- `data[a:b]` -/
def slice (data : List Byte) (a b : ℕ) : List Byte := (data.drop a).take (b-a)

variable {data : List Byte}

lemma slice_length {a b : ℕ} (h : b ≤ data.length) :
    (slice data a b).length = b-a := by
  rw [slice,length_take,length_drop]
  omega

section Model

structure CodeImage where
  offset : ℕ
  structureLength : ℕ
  payloadLength : ℕ
  deriving DecidableEq, Repr

/-- `end` in the source. -/
def CodeImage.imageEnd (i : CodeImage) : ℕ := i.offset+i.structureLength+i.payloadLength

structure DdrParamsImage where
  offset : ℕ
  structureLength : ℕ
  tableOffset : ℕ
  tableSize : ℕ
  tableCount : ℕ
  boardMapping : List Byte
  deriving DecidableEq, Repr

def DdrParamsImage.tablesEnd (i : DdrParamsImage) : ℕ := i.tableOffset+i.tableSize*i.tableCount

structure CV6xxBootParts where
  gslData : List Byte
  gslSize : ℕ
  paramsStart : ℕ
  firstTableOffset : ℕ
  tableCount : ℕ
  tableSize : ℕ
  boardMapping : List Byte
  ubootData : List Byte
  fileData : List Byte
  deriving DecidableEq, Repr

/-- `data.find(sub, start, limit)`, with `none` for -1. -/
def find (data sub : List Byte) (start limit : ℕ) : Option ℕ :=
  (List.range' start (limit+1-sub.length-start)).find? fun o => (data.drop o).take sub.length = sub

/-- The loop of `_magic_offsets`; every round starts behind the last occurrence. -/
def magicLoop (data : List Byte) (magic limit : ℕ) : (fuel start : ℕ) → List ℕ
  | 0,_ => []
  | fuel+1,start =>
    match find data (writeLe32 magic) start limit with
    | none => []
    | some o =>
      if o%imageAlignment = 0 then o::magicLoop data magic limit fuel (o+1)
      else magicLoop data magic limit fuel (o+1)

def magicOffsets (data : List Byte) (magic start stop : ℕ) : List ℕ :=
  let limit := min stop data.length
  magicLoop data magic limit (limit+1) start

def parseCodeImage (data : List Byte) (offset magic : ℕ) (name : ImageName) :
    Except ProtocolError CodeImage :=
  if data.length < offset+imageHeaderFieldsSize then .error (.image .truncatedHeader name offset)
  else
    let imageMagic := readLe32 data offset
    let version := readLe32 data (offset+4)
    let structureLength := readLe32 data (offset+8)
    let signatureLength := readLe32 data (offset+12)
    let payloadLength := readLe32 data (offset+36)
    if imageMagic ≠ magic then .error (.image .magic name offset)
    else if version = 0 then .error (.image .version name offset)
    else if structureLength < imageHeaderFieldsSize ∨ structureLength%imageAlignment ≠ 0 ∨
        signatureLength = 0 ∨ structureLength < signatureLength then
      .error (.image .structureBounds name offset)
    else if payloadLength = 0 ∨ payloadLength%codeAlignment ≠ 0 then
      .error (.image .payloadLength name offset)
    else
      let image : CodeImage := ⟨offset,structureLength,payloadLength⟩
      if data.length < image.imageEnd then .error (.image .truncatedPayload name offset)
      else .ok image

def parseDdrParams (data : List Byte) (offset : ℕ) : Except ProtocolError DdrParamsImage :=
  if data.length < offset+ddrParamsFieldsSize then
    .error (.image .truncatedHeader .ddrParams offset)
  else
    let magic := readLe32 data offset
    let version := readLe32 data (offset+4)
    let structureLength := readLe32 data (offset+8)
    let signatureLength := readLe32 data (offset+12)
    let paramsAreaOffset := readLe32 data (offset+32)
    let tableSize := readLe32 data (offset+36)
    let tableCount := readLe32 data (offset+40)
    let boardMapping := slice data (offset+300) (offset+308)
    if magic ≠ ddrParamsMagic then .error (.image .magic .ddrParams offset)
    else if version = 0 then .error (.image .version .ddrParams offset)
    else if structureLength < ddrParamsFieldsSize ∨ structureLength%imageAlignment ≠ 0 ∨
        signatureLength = 0 ∨ structureLength < signatureLength ∨
        paramsAreaOffset%imageAlignment ≠ 0 then
      .error (.image .structureBounds .ddrParams offset)
    else if tableSize = 0 ∨ tableSize%imageAlignment ≠ 0 ∨
        ¬(1 ≤ tableCount ∧ tableCount ≤ maxDdrTables) then
      .error (.image .tableDimensions .ddrParams offset)
    else if ¬∃ index ∈ boardMapping,index.toNat < tableCount then
      .error (.image .noValidTable .ddrParams offset)
    else if ∃ index ∈ boardMapping,index ≠ 0xFF ∧ tableCount ≤ index.toNat then
      .error (.image .mappingOutOfRange .ddrParams offset)
    else
      let params : DdrParamsImage := ⟨offset,structureLength,
        offset+structureLength+paramsAreaOffset,tableSize,tableCount,boardMapping⟩
      if data.length < params.tablesEnd then .error (.image .truncatedTables .ddrParams offset)
      else .ok params

def bootParts (data : List Byte) (gsl : CodeImage) (params : DdrParamsImage) (uboot : CodeImage) :
    CV6xxBootParts where
  gslData := slice data 0 gsl.imageEnd
  gslSize := gsl.imageEnd
  paramsStart := params.offset
  firstTableOffset := params.tableOffset
  tableCount := params.tableCount
  tableSize := params.tableSize
  boardMapping := params.boardMapping
  ubootData := slice data uboot.offset uboot.imageEnd
  fileData := data

/-- The body of the inner loop, for a DDR header at `offset`. -/
def paramsAt (data : List Byte) (offset : ℕ) : Except ProtocolError (DdrParamsImage × CodeImage) :=
  match parseDdrParams data offset with
  | .error e => .error e
  | .ok params =>
    match parseCodeImage data params.tablesEnd ubootMagic .uboot with
    | .error e => .error e
    | .ok uboot => .ok (params,uboot)

/-- Where the DDR header of a GSL image may be. -/
def paramsOffsets (data : List Byte) (gsl : CodeImage) : List ℕ :=
  magicOffsets data ddrParamsMagic gsl.imageEnd
    (min data.length (gsl.imageEnd+maxSectionGap+4))

def gslOffsets (data : List Byte) : List ℕ :=
  magicOffsets data gslMagic 0 (min data.length (maxGslHeaderOffset+4))

/-- The body of the outer loop, for a GSL header at `offset`. -/
def layoutsAt (data : List Byte) (offset : ℕ) : List CV6xxBootParts :=
  match parseCodeImage data offset gslMagic .gsl with
  | .error _ => []
  | .ok gsl => (paramsOffsets data gsl).filterMap fun d =>
    (paramsAt data d).toOption.map fun x => bootParts data gsl x.1 x.2

def parseCv6xxBoot (data : List Byte) : Except ProtocolError CV6xxBootParts :=
  match (gslOffsets data).flatMap (layoutsAt data) with
  | [] => .error .noLayout
  | [parts] => .ok parts
  | _ => .error .ambiguous

/-- `none` is an `IndexError`. -/
def buildDdrTable (parts : CV6xxBootParts) (boardId : ℕ) : Option (List Byte) :=
  let mapping := parts.boardMapping
  (mapping[if boardId < mapping.length then boardId else 0]?).map fun mapped =>
    let index := if parts.tableCount ≤ mapped.toNat then 0 else mapped.toNat
    let tableOffset := parts.firstTableOffset+index*parts.tableSize
    slice parts.fileData parts.gslSize parts.firstTableOffset++
      slice parts.fileData tableOffset (tableOffset+parts.tableSize)

end Model

section Offsets
variable {data : List Byte} {magic limit : ℕ}

def HasMagic (data : List Byte) (magic o : ℕ) : Prop := (data.drop o).take 4 = writeLe32 magic

lemma hasMagic_iff {o : ℕ} (hmagic : magic < 4294967296) (h : o+4 ≤ data.length) :
    HasMagic data magic o ↔ readLe32 data o = magic := by
  rw [HasMagic,← writeLe32_readLe32 h]
  exact ⟨writeLe32_injective (readLe32_lt data o) hmagic,congrArg writeLe32⟩

lemma find_eq_some {start o : ℕ} (h : find data (writeLe32 magic) start limit = some o) :
    HasMagic data magic o ∧ start ≤ o ∧ o+4 ≤ limit ∧
      ∀ j,start ≤ j → j < o → ¬HasMagic data magic j := by
  rw [find,find?_range'_eq_some] at h
  obtain ⟨hmatch,hmem,hfirst⟩ := h
  rw [mem_range'_1] at hmem
  have hlen := writeLe32_length magic
  have hhere : HasMagic data magic o :=
    of_decide_eq_true (p := (data.drop o).take (writeLe32 magic).length = writeLe32 magic) hmatch
  refine ⟨hhere,hmem.1,by omega,fun j hj hlt hj' => ?_⟩
  have hnot := hfirst j hj hlt
  rw [decide_eq_true (show (data.drop j).take (writeLe32 magic).length = writeLe32 magic from hj')]
    at hnot
  cases hnot

lemma find_eq_none {start : ℕ} (h : find data (writeLe32 magic) start limit = none) (o : ℕ)
    (hstart : start ≤ o) (hlimit : o+4 ≤ limit) : ¬HasMagic data magic o := by
  rw [find,find?_range'_eq_none] at h
  have hlen := writeLe32_length magic
  intro ho
  have hnot := h o hstart (by omega)
  rw [decide_eq_true (show (data.drop o).take (writeLe32 magic).length = writeLe32 magic from ho)]
    at hnot
  cases hnot

lemma mem_magicLoop {fuel start o : ℕ} (hfuel : limit < start+fuel) :
    o ∈ magicLoop data magic limit fuel start ↔
      start ≤ o ∧ o+4 ≤ limit ∧ o%imageAlignment = 0 ∧ HasMagic data magic o := by
  induction fuel generalizing start with
  | zero =>
    rw [magicLoop]
    constructor
    · exact nofun
    · rintro ⟨hstart,hlimit,-⟩
      omega
  | succ fuel ih =>
    rw [magicLoop]
    cases hfind : find data (writeLe32 magic) start limit with
    | none =>
      constructor
      · exact nofun
      · rintro ⟨hstart,hlimit,-,ho⟩
        exact absurd ho (find_eq_none hfind o hstart hlimit)
    | some p =>
      obtain ⟨hp,hstart,hlimit,hfirst⟩ := find_eq_some hfind
      have hrest : o ∈ magicLoop data magic limit fuel (p+1) ↔ _ := ih (by omega)
      have hmem : o ∈ (if p%imageAlignment = 0 then p::magicLoop data magic limit fuel (p+1)
          else magicLoop data magic limit fuel (p+1)) ↔
          p%imageAlignment = 0 ∧ o = p ∨ o ∈ magicLoop data magic limit fuel (p+1) := by
        split
        next h => rw [mem_cons,and_iff_right h]
        next h => rw [or_iff_right (fun hc => h hc.1)]
      rw [hmem,hrest]
      constructor
      · rintro (⟨hp0,rfl⟩ | ⟨hle,hrest⟩)
        · exact ⟨hstart,hlimit,hp0,hp⟩
        · exact ⟨by omega,hrest⟩
      · rintro ⟨hle,hin,halign,ho⟩
        rcases Nat.lt_trichotomy o p with hlt | rfl | hgt
        · exact absurd ho (hfirst o hle hlt)
        · exact .inl ⟨halign,rfl⟩
        · exact .inr ⟨hgt,hin,halign,ho⟩

lemma mem_magicOffsets {start stop o : ℕ} : o ∈ magicOffsets data magic start stop ↔
    start ≤ o ∧ o+4 ≤ min stop data.length ∧ o%imageAlignment = 0 ∧ HasMagic data magic o :=
  mem_magicLoop (by omega)

lemma magicLoop_ge {fuel start o : ℕ} (h : o ∈ magicLoop data magic limit fuel start) :
    start ≤ o := by
  induction fuel generalizing start with
  | zero => cases h
  | succ fuel ih =>
    rw [magicLoop] at h
    cases hfind : find data (writeLe32 magic) start limit with
    | none =>
      rw [hfind] at h
      cases h
    | some p =>
      have hp := (find_eq_some hfind).2.1
      rw [hfind] at h
      dsimp only at h
      split at h
      · rcases mem_cons.mp h with rfl | h
        · exact hp
        · have hle := ih h
          omega
      · have hle := ih h
        omega

lemma magicLoop_sorted (fuel start : ℕ) :
    (magicLoop data magic limit fuel start).Pairwise (· < ·) := by
  induction fuel generalizing start with
  | zero => exact List.Pairwise.nil
  | succ fuel ih =>
    rw [magicLoop]
    split
    · exact List.Pairwise.nil
    · split
      · exact List.Pairwise.cons (fun _ h => magicLoop_ge h) (ih _)
      · exact ih _

end Offsets

section Headers
variable {data : List Byte} {offset magic : ℕ} {name : ImageName}

/-- A code image is structurally valid and lies in the file. -/
structure CodeHeader (data : List Byte) (offset magic : ℕ) : Prop where
  fields : offset+imageHeaderFieldsSize ≤ data.length
  imageMagic : readLe32 data offset = magic
  version : readLe32 data (offset+4) ≠ 0
  structureMin : imageHeaderFieldsSize ≤ readLe32 data (offset+8)
  structureAligned : readLe32 data (offset+8)%imageAlignment = 0
  signature : readLe32 data (offset+12) ≠ 0
  signatureMax : readLe32 data (offset+12) ≤ readLe32 data (offset+8)
  payload : readLe32 data (offset+36) ≠ 0
  payloadAligned : readLe32 data (offset+36)%codeAlignment = 0
  inside : offset+readLe32 data (offset+8)+readLe32 data (offset+36) ≤ data.length

def codeImageAt (data : List Byte) (offset : ℕ) : CodeImage :=
  ⟨offset,readLe32 data (offset+8),readLe32 data (offset+36)⟩

lemma parseCodeImage_ok (h : CodeHeader data offset magic) :
    parseCodeImage data offset magic name = .ok (codeImageAt data offset) := by
  have hbounds : ¬(readLe32 data (offset+8) < imageHeaderFieldsSize ∨
      readLe32 data (offset+8)%imageAlignment ≠ 0 ∨ readLe32 data (offset+12) = 0 ∨
      readLe32 data (offset+8) < readLe32 data (offset+12)) := by
    rintro (hc | hc | hc | hc)
    · exact absurd h.structureMin (Nat.not_le.mpr hc)
    · exact hc h.structureAligned
    · exact h.signature hc
    · exact absurd h.signatureMax (Nat.not_le.mpr hc)
  have hpayload : ¬(readLe32 data (offset+36) = 0 ∨
      readLe32 data (offset+36)%codeAlignment ≠ 0) := by
    rintro (hc | hc)
    · exact h.payload hc
    · exact hc h.payloadAligned
  rw [parseCodeImage,if_neg (Nat.not_lt.mpr h.fields)]
  dsimp only
  rw [if_neg (not_not.mpr h.imageMagic),if_neg h.version,if_neg hbounds,if_neg hpayload]
  exact if_neg (Nat.not_lt.mpr h.inside)

lemma parseCodeImage_error (name : ImageName) (h : ¬CodeHeader data offset magic) :
    ∃ e,parseCodeImage data offset magic name = .error e := by
  rw [parseCodeImage]
  dsimp only
  split_ifs with hfields hmagic hversion hbounds hpayload hinside
  · exact ⟨_,rfl⟩
  · exact ⟨_,rfl⟩
  · exact ⟨_,rfl⟩
  · exact ⟨_,rfl⟩
  · exact ⟨_,rfl⟩
  · exact ⟨_,rfl⟩
  · simp only [not_or,not_not,Nat.not_lt] at hfields hmagic hbounds hpayload hinside
    exact absurd ⟨hfields,hmagic,hversion,hbounds.1,hbounds.2.1,hbounds.2.2.1,hbounds.2.2.2,
      hpayload.1,hpayload.2,hinside⟩ h

/-- A DDR header is structurally valid and its tables lie in the file. -/
structure DdrHeader (data : List Byte) (offset : ℕ) : Prop where
  fields : offset+ddrParamsFieldsSize ≤ data.length
  magic : readLe32 data offset = ddrParamsMagic
  version : readLe32 data (offset+4) ≠ 0
  structureMin : ddrParamsFieldsSize ≤ readLe32 data (offset+8)
  structureAligned : readLe32 data (offset+8)%imageAlignment = 0
  signature : readLe32 data (offset+12) ≠ 0
  signatureMax : readLe32 data (offset+12) ≤ readLe32 data (offset+8)
  areaAligned : readLe32 data (offset+32)%imageAlignment = 0
  tableSize : readLe32 data (offset+36) ≠ 0
  tableAligned : readLe32 data (offset+36)%imageAlignment = 0
  tableMin : 1 ≤ readLe32 data (offset+40)
  tableMax : readLe32 data (offset+40) ≤ maxDdrTables
  someTable : ∃ index ∈ slice data (offset+300) (offset+308),index.toNat < readLe32 data (offset+40)
  mapping : ¬∃ index ∈ slice data (offset+300) (offset+308),
    index ≠ 0xFF ∧ readLe32 data (offset+40) ≤ index.toNat
  inside : offset+readLe32 data (offset+8)+readLe32 data (offset+32)+
    readLe32 data (offset+36)*readLe32 data (offset+40) ≤ data.length

def ddrParamsAt (data : List Byte) (offset : ℕ) : DdrParamsImage :=
  ⟨offset,readLe32 data (offset+8),offset+readLe32 data (offset+8)+readLe32 data (offset+32),
    readLe32 data (offset+36),readLe32 data (offset+40),slice data (offset+300) (offset+308)⟩

lemma parseDdrParams_ok (h : DdrHeader data offset) :
    parseDdrParams data offset = .ok (ddrParamsAt data offset) := by
  have hbounds : ¬(readLe32 data (offset+8) < ddrParamsFieldsSize ∨
      readLe32 data (offset+8)%imageAlignment ≠ 0 ∨ readLe32 data (offset+12) = 0 ∨
      readLe32 data (offset+8) < readLe32 data (offset+12) ∨
      readLe32 data (offset+32)%imageAlignment ≠ 0) := by
    rintro (hc | hc | hc | hc | hc)
    · exact absurd h.structureMin (Nat.not_le.mpr hc)
    · exact hc h.structureAligned
    · exact h.signature hc
    · exact absurd h.signatureMax (Nat.not_le.mpr hc)
    · exact hc h.areaAligned
  have htables : ¬(readLe32 data (offset+36) = 0 ∨ readLe32 data (offset+36)%imageAlignment ≠ 0 ∨
      ¬(1 ≤ readLe32 data (offset+40) ∧ readLe32 data (offset+40) ≤ maxDdrTables)) := by
    rintro (hc | hc | hc)
    · exact h.tableSize hc
    · exact hc h.tableAligned
    · exact hc ⟨h.tableMin,h.tableMax⟩
  rw [parseDdrParams,if_neg (Nat.not_lt.mpr h.fields)]
  dsimp only
  rw [if_neg (not_not.mpr h.magic),if_neg h.version,if_neg hbounds,if_neg htables,
    if_neg (not_not.mpr h.someTable),if_neg h.mapping]
  exact if_neg (Nat.not_lt.mpr h.inside)

lemma parseDdrParams_error (h : ¬DdrHeader data offset) :
    ∃ e,parseDdrParams data offset = .error e := by
  rw [parseDdrParams]
  dsimp only
  split_ifs with hfields hmagic hversion hbounds htables hsome hmapping hinside
  · exact ⟨_,rfl⟩
  · exact ⟨_,rfl⟩
  · exact ⟨_,rfl⟩
  · exact ⟨_,rfl⟩
  · exact ⟨_,rfl⟩
  · exact ⟨_,rfl⟩
  · exact ⟨_,rfl⟩
  · simp only [not_or,not_not,Nat.not_lt] at hfields hmagic hbounds htables hinside
    exact absurd ⟨hfields,hmagic,hversion,hbounds.1,hbounds.2.1,hbounds.2.2.1,hbounds.2.2.2.1,
      hbounds.2.2.2.2,htables.1,htables.2.1,htables.2.2.1,htables.2.2.2,hsome,hmapping,hinside⟩ h
  · exact ⟨_,rfl⟩

end Headers

section Layouts

/-- The valid triples of headers, in the order in which they are found. -/
def foundAt (data : List Byte) (offset : ℕ) : List (CodeImage × DdrParamsImage × CodeImage) :=
  match parseCodeImage data offset gslMagic .gsl with
  | .error _ => []
  | .ok gsl => (paramsOffsets data gsl).filterMap fun d =>
    (paramsAt data d).toOption.map fun x => (gsl,x.1,x.2)

def found (data : List Byte) : List (CodeImage × DdrParamsImage × CodeImage) :=
  (gslOffsets data).flatMap (foundAt data)

lemma layoutsAt_eq (data : List Byte) (offset : ℕ) :
    layoutsAt data offset = (foundAt data offset).map fun x => bootParts data x.1 x.2.1 x.2.2 := by
  rw [layoutsAt,foundAt]
  cases parseCodeImage data offset gslMagic .gsl with
  | error e => rfl
  | ok gsl =>
    dsimp only
    rw [map_filterMap]
    congr 1
    funext d
    rw [Option.map_map]
    rfl

lemma parseCv6xxBoot_eq (data : List Byte) : parseCv6xxBoot data =
    match found data with
    | [] => .error .noLayout
    | [x] => .ok (bootParts data x.1 x.2.1 x.2.2)
    | _ => .error .ambiguous := by
  have hall : (gslOffsets data).flatMap (layoutsAt data) =
      (found data).map fun x => bootParts data x.1 x.2.1 x.2.2 := by
    rw [found,map_flatMap]
    congr 1
    funext o
    exact layoutsAt_eq data o
  rw [parseCv6xxBoot,hall]
  match found data with
  | [] => rfl
  | [x] => rfl
  | x::y::rest => rfl

lemma parseCodeImage_eq_ok {offset magic : ℕ} {name : ImageName}
    {image : CodeImage} (h : parseCodeImage data offset magic name = .ok image) :
    CodeHeader data offset magic ∧ image = codeImageAt data offset := by
  by_cases hheader : CodeHeader data offset magic
  · rw [parseCodeImage_ok hheader] at h
    exact ⟨hheader,(Except.ok.inj h).symm⟩
  · obtain ⟨e,he⟩ := parseCodeImage_error name hheader
    rw [he] at h
    cases h

lemma parseDdrParams_eq_ok {offset : ℕ} {params : DdrParamsImage}
    (h : parseDdrParams data offset = .ok params) :
    DdrHeader data offset ∧ params = ddrParamsAt data offset := by
  by_cases hheader : DdrHeader data offset
  · rw [parseDdrParams_ok hheader] at h
    exact ⟨hheader,(Except.ok.inj h).symm⟩
  · obtain ⟨e,he⟩ := parseDdrParams_error hheader
    rw [he] at h
    cases h

/-- What is known of a triple of headers. -/
structure Layout (data : List Byte) (g d : ℕ) : Prop where
  gsl : CodeHeader data g gslMagic
  params : DdrHeader data d
  uboot : CodeHeader data (ddrParamsAt data d).tablesEnd ubootMagic
  gslOffset : g ∈ gslOffsets data
  paramsOffset : d ∈ paramsOffsets data (codeImageAt data g)

lemma paramsAt_eq_ok {d : ℕ} {x : DdrParamsImage × CodeImage} (h : paramsAt data d = .ok x) :
    DdrHeader data d ∧ CodeHeader data (ddrParamsAt data d).tablesEnd ubootMagic ∧
      x = (ddrParamsAt data d,codeImageAt data (ddrParamsAt data d).tablesEnd) := by
  rw [paramsAt] at h
  split at h
  · cases h
  next params hparams =>
    split at h
    · cases h
    next uboot huboot =>
      obtain ⟨hd,rfl⟩ := parseDdrParams_eq_ok hparams
      obtain ⟨hu,rfl⟩ := parseCodeImage_eq_ok huboot
      exact ⟨hd,hu,(Except.ok.inj h).symm⟩

lemma mem_found {x : CodeImage × DdrParamsImage × CodeImage}
    (h : x ∈ found data) : ∃ g d,Layout data g d ∧
      x = (codeImageAt data g,ddrParamsAt data d,
        codeImageAt data (ddrParamsAt data d).tablesEnd) := by
  obtain ⟨g,hg,hx⟩ := mem_flatMap.mp h
  rw [foundAt] at hx
  split at hx
  · cases hx
  next gsl hgsl =>
    obtain ⟨d,hd,hx⟩ := mem_filterMap.mp hx
    obtain ⟨hgheader,rfl⟩ := parseCodeImage_eq_ok hgsl
    obtain ⟨y,hy,rfl⟩ := Option.map_eq_some_iff.mp hx
    cases hparams : paramsAt data d with
    | error e =>
      rw [hparams] at hy
      cases hy
    | ok z =>
      rw [hparams] at hy
      obtain rfl : z = y := Option.some.inj hy
      obtain ⟨hdheader,huheader,rfl⟩ := paramsAt_eq_ok hparams
      exact ⟨g,d,⟨hgheader,hdheader,huheader,hg,hd⟩,rfl⟩

end Layouts

end Defib.Cv6xxBoot
