import Defib.Actions
import Defib.Cv6xxBoot
import Defib.Doubles

/-!
# The boot image parser of the web page

`parseCv6xxBoot` of the page is a second parser for the composite boot images, over JavaScript
numbers and a `DataView` that throws outside its bounds. It finds the same layouts as the
parser of the host.
-/
namespace Defib.Cv6xxWeb
open List Actions Words Cv6xxBoot Doubles

/-- A byte array of the page; its length is at most 2^53-1. -/
structure Uint8Array where
  bytes : List Byte
  length_lt : bytes.length < Doubles.limit

/-- What is thrown: the two errors of the parser, or a `RangeError` of a view or an array. -/
inductive Thrown where
  | noLayout | ambiguous | rangeError
  deriving DecidableEq, Repr

section Model

def getUint32 (a : Uint8Array) (offset : ℕ) : Except Thrown ℕ :=
  if offset+4 ≤ a.bytes.length then .ok (readLe32 a.bytes offset) else .error .rangeError

def scanOffsets (a : Uint8Array) (magic : ℕ) (limit : ℤ) :
    (fuel offset : ℕ) → Except Thrown (List ℕ)
  | 0,_ => .ok []
  | fuel+1,offset =>
    if (offset : ℤ) ≤ limit then do
      let word ← getUint32 a offset
      let rest ← scanOffsets a magic limit fuel (add offset imageAlignment)
      return if word = magic then offset::rest else rest
    else .ok []

/-- `Math.ceil(start/0x100)` is exact: it only moves the point. -/
def cv6xxMagicOffsets (a : Uint8Array) (magic start stop : ℕ) : Except Thrown (List ℕ) :=
  let limit : ℤ := (min stop a.bytes.length : ℕ)-4
  let offset := mul ((start+imageAlignment-1)/imageAlignment) imageAlignment
  scanOffsets a magic limit (a.bytes.length+1) offset

structure Image where
  offset : ℕ
  imageEnd : ℕ
  deriving DecidableEq, Repr

/-- `none` is `null`. -/
def parseCv6xxCodeImage (a : Uint8Array) (offset magic : ℕ) : Except Thrown (Option Image) :=
  if a.bytes.length < add offset imageHeaderFieldsSize then .ok none
  else do
    let imageMagic ← getUint32 a offset
    if imageMagic ≠ magic then return none
    let version ← getUint32 a (add offset 4)
    let structureLength ← getUint32 a (add offset 8)
    let signatureLength ← getUint32 a (add offset 12)
    let payloadLength ← getUint32 a (add offset 36)
    if version = 0 ∨ structureLength < imageHeaderFieldsSize ∨ structureLength%imageAlignment ≠ 0 ∨
        signatureLength = 0 ∨ structureLength < signatureLength ∨ payloadLength = 0 ∨
        payloadLength%codeAlignment ≠ 0 then return none
    let imageEnd := add (add offset structureLength) payloadLength
    if a.bytes.length < imageEnd then return none
    return some ⟨offset,imageEnd⟩

structure Params where
  offset : ℕ
  structureLength : ℕ
  tableOffset : ℕ
  tablesEnd : ℕ
  tableSize : ℕ
  tableCount : ℕ
  boardMapping : List Byte
  deriving DecidableEq, Repr

def parseCv6xxDdrParams (a : Uint8Array) (offset : ℕ) : Except Thrown (Option Params) :=
  if a.bytes.length < add offset ddrParamsFieldsSize then .ok none
  else do
    let magic ← getUint32 a offset
    if magic ≠ ddrParamsMagic then return none
    let version ← getUint32 a (add offset 4)
    let structureLength ← getUint32 a (add offset 8)
    let signatureLength ← getUint32 a (add offset 12)
    let paramsAreaOffset ← getUint32 a (add offset 32)
    let tableSize ← getUint32 a (add offset 36)
    let tableCount ← getUint32 a (add offset 40)
    if version = 0 ∨ structureLength < ddrParamsFieldsSize ∨ structureLength%imageAlignment ≠ 0 ∨
        signatureLength = 0 ∨ structureLength < signatureLength ∨
        paramsAreaOffset%imageAlignment ≠ 0 ∨ tableSize = 0 ∨ tableSize%imageAlignment ≠ 0 ∨
        tableCount < 1 ∨ maxDdrTables < tableCount then return none
    let boardMapping := slice a.bytes (add offset 300) (add offset 308)
    if ¬∃ index ∈ boardMapping,index.toNat < tableCount then return none
    if ∃ index ∈ boardMapping,index ≠ 0xFF ∧ tableCount ≤ index.toNat then return none
    let tableOffset := add (add offset structureLength) paramsAreaOffset
    let tablesEnd := add tableOffset (mul tableSize tableCount)
    if a.bytes.length < tablesEnd then return none
    return some ⟨offset,structureLength,tableOffset,tablesEnd,tableSize,tableCount,boardMapping⟩

structure Layout where
  gsl : Image
  params : Params
  uboot : Image
  deriving DecidableEq, Repr

def layoutOf (a : Uint8Array) (gsl : Image) (offset : ℕ) : Except Thrown (Option Layout) := do
  match ← parseCv6xxDdrParams a offset with
  | none => return none
  | some params =>
    match ← parseCv6xxCodeImage a params.tablesEnd ubootMagic with
    | none => return none
    | some uboot => return some ⟨gsl,params,uboot⟩

def layoutsAt (a : Uint8Array) (offset : ℕ) : Except Thrown (List Layout) := do
  match ← parseCv6xxCodeImage a offset gslMagic with
  | none => return []
  | some gsl =>
    let paramsScanEnd := min a.bytes.length (add (add gsl.imageEnd maxSectionGap) 4)
    let offsets ← cv6xxMagicOffsets a ddrParamsMagic gsl.imageEnd paramsScanEnd
    let found ← offsets.mapM (layoutOf a gsl)
    return found.filterMap id

def layouts (a : Uint8Array) : Except Thrown (List Layout) := do
  let gslScanEnd := min a.bytes.length (maxGslHeaderOffset+4)
  let offsets ← cv6xxMagicOffsets a gslMagic 0 gslScanEnd
  let found ← offsets.mapM (layoutsAt a)
  return found.flatten

structure Parts where
  gslData : List Byte
  gslSize : ℕ
  ddrTable : List Byte
  ubootData : List Byte
  tableCount : ℕ
  tableSize : ℕ
  deriving DecidableEq, Repr

/-- `target.set(source, at)` -/
def setAt (target source : List Byte) (at' : ℕ) : Except Thrown (List Byte) :=
  if at'+source.length ≤ target.length then
    .ok (target.take at'++source++target.drop (at'+source.length))
  else .error .rangeError

/-- The DDR header lies behind the GSL, so the length of what is before the tables is not
negative. -/
def partsOf (a : Uint8Array) (l : Layout) : Except Thrown Parts := do
  let mapped := l.params.boardMapping[0]?
  -- a byte that is not there is `undefined` and not less than the count
  let mappedIndex :=
    match mapped with
    | some m => if m.toNat < l.params.tableCount then m.toNat else 0
    | none => 0
  let ddrPrefixLength := l.params.tableOffset-l.gsl.imageEnd
  let ddrTable := List.replicate (add ddrPrefixLength l.params.tableSize) 0
  let ddrTable ← setAt ddrTable (slice a.bytes l.gsl.imageEnd l.params.tableOffset) 0
  let selectedTable := add l.params.tableOffset (mul mappedIndex l.params.tableSize)
  let ddrTable ← setAt ddrTable
    (slice a.bytes selectedTable (add selectedTable l.params.tableSize)) ddrPrefixLength
  return ⟨slice a.bytes 0 l.gsl.imageEnd,l.gsl.imageEnd,ddrTable,
    slice a.bytes l.uboot.offset l.uboot.imageEnd,l.params.tableCount,l.params.tableSize⟩

def parseCv6xxBoot (a : Uint8Array) : Except Thrown Parts := do
  match ← layouts a with
  | [] => throw .noLayout
  | [l] => partsOf a l
  | _ => throw .ambiguous

end Model

section Reads
variable {a : Uint8Array}

lemma toOption_ok {A E : Type} (x : A) : (Except.ok x : Except E A).toOption = some x := rfl

lemma getUint32_ok {o : ℕ} (h : o+4 ≤ a.bytes.length) :
    getUint32 a o = .ok (readLe32 a.bytes o) := if_pos h

lemma getUint32_add {o k n : ℕ} (hn : o+n ≤ a.bytes.length) (hk : k+4 ≤ n) :
    getUint32 a (add o k) = .ok (readLe32 a.bytes (o+k)) := by
  have hlt := a.length_lt
  rw [add_of_lt (by omega),getUint32_ok (by omega)]

lemma length_lt_add (o k : ℕ) : a.bytes.length < add o k ↔ a.bytes.length < o+k := by
  rw [← Nat.not_le,← Nat.not_le,((Near.refl o).add k).le_iff a.length_lt]

end Reads

section Offsets
variable {a : Uint8Array} {magic : ℕ}

lemma scanOffsets_past {limit : ℤ} {fuel offset : ℕ} (h : limit < offset) :
    scanOffsets a magic limit fuel offset = .ok [] := by
  cases fuel with
  | zero => rfl
  | succ fuel => exact if_neg (Int.not_le.mpr h)

lemma scanOffsets_spec (magic : ℕ) {limit : ℤ} (fuel : ℕ) {offset : ℕ}
    (halign : offset%imageAlignment = 0)
    (hlimit : limit+4 ≤ a.bytes.length) (hfuel : limit < offset+fuel) :
    ∃ os,scanOffsets a magic limit fuel offset = .ok os ∧ os.Pairwise (· < ·) ∧
      ∀ o,o ∈ os ↔ offset ≤ o ∧ (o : ℤ) ≤ limit ∧ o%imageAlignment = 0 ∧
        readLe32 a.bytes o = magic := by
  have hlength := a.length_lt
  have hlim : Doubles.limit = 9007199254740992 := rfl
  rw [imageAlignment] at halign
  induction fuel generalizing offset with
  | zero =>
    refine ⟨[],rfl,List.Pairwise.nil,fun o => ⟨nofun,?_⟩⟩
    rintro ⟨hle,hlast,-⟩
    omega
  | succ fuel ih =>
    by_cases hin : (offset : ℤ) ≤ limit
    · have hread : getUint32 a offset = .ok (readLe32 a.bytes offset) :=
        getUint32_ok (by omega)
      obtain ⟨os,hos,hsorted,hmem⟩ : ∃ os,
          scanOffsets a magic limit fuel (add offset imageAlignment) = .ok os ∧
          os.Pairwise (· < ·) ∧ ∀ o,o ∈ os ↔ offset+256 ≤ o ∧ (o : ℤ) ≤ limit ∧
            o%imageAlignment = 0 ∧ readLe32 a.bytes o = magic := by
        by_cases hexact : offset+256 < Doubles.limit
        · have hnext : add offset imageAlignment = offset+256 := add_of_lt hexact
          rw [hnext]
          exact ih (by omega) (by omega)
        · have hnext : Doubles.limit ≤ add offset imageAlignment :=
            le_round (Nat.not_lt.mp hexact)
          refine ⟨[],scanOffsets_past (by omega),List.Pairwise.nil,fun o => ⟨nofun,?_⟩⟩
          rintro ⟨hle,hlast,-⟩
          omega
      have hcons : ∀ o ∈ os,offset < o := by
        intro o ho
        have hle := ((hmem o).mp ho).1
        omega
      refine ⟨if readLe32 a.bytes offset = magic then offset::os else os,?_,?_,?_⟩
      · rw [scanOffsets,if_pos hin,hread,ok_bind,hos,ok_bind]
        rfl
      · split
        · exact List.Pairwise.cons hcons hsorted
        · exact hsorted
      · intro o
        have hsplit : o ∈ (if readLe32 a.bytes offset = magic then offset::os else os) ↔
            readLe32 a.bytes offset = magic ∧ o = offset ∨ o ∈ os := by
          split
          next h => rw [mem_cons,and_iff_right h]
          next h => rw [or_iff_right (fun hc => h hc.1)]
        rw [hsplit,hmem,imageAlignment]
        constructor
        · rintro (⟨hmagic,rfl⟩ | ⟨hle,hrest⟩)
          · exact ⟨Nat.le_refl _,hin,halign,hmagic⟩
          · exact ⟨by omega,hrest⟩
        · rintro ⟨hle,hlast,hal,hmagic⟩
          rcases Nat.eq_or_lt_of_le hle with rfl | hlt
          · exact .inl ⟨hmagic,rfl⟩
          · exact .inr ⟨by omega,hlast,hal,hmagic⟩
    · refine ⟨[],if_neg hin,List.Pairwise.nil,fun o => ⟨nofun,?_⟩⟩
      rintro ⟨hle,hlast,-⟩
      omega

lemma cv6xxMagicOffsets_eq (hmagic : magic < 4294967296) {start : ℕ} (stop : ℕ)
    (hstart : start ≤ a.bytes.length) :
    cv6xxMagicOffsets a magic start stop = .ok (magicOffsets a.bytes magic start stop) := by
  have hlength := a.length_lt
  have hlim : Doubles.limit = 9007199254740992 := rfl
  generalize hlimit : ((min stop a.bytes.length : ℕ) : ℤ)-4 = limit
  generalize hq : (start+imageAlignment-1)/imageAlignment*imageAlignment = q
  have hqbounds : start ≤ q ∧ q < start+256 ∧ q%imageAlignment = 0 := by
    rw [imageAlignment] at hq ⊢
    omega
  have hiff : ∀ o,o ∈ magicOffsets a.bytes magic start stop ↔ q ≤ o ∧ (o : ℤ) ≤ limit ∧
      o%imageAlignment = 0 ∧ readLe32 a.bytes o = magic := by
    intro o
    rw [mem_magicOffsets,imageAlignment]
    rw [imageAlignment] at hqbounds
    constructor
    · rintro ⟨hle,hend,halign,hm⟩
      exact ⟨by omega,by omega,halign,(hasMagic_iff hmagic (by omega)).mp hm⟩
    · rintro ⟨hle,hend,halign,hm⟩
      exact ⟨by omega,by omega,halign,(hasMagic_iff hmagic (by omega)).mpr hm⟩
  rw [cv6xxMagicOffsets,hlimit]
  by_cases hexact : q < Doubles.limit
  · have hfirst : mul ((start+imageAlignment-1)/imageAlignment) imageAlignment = q := by
      rw [← hq]
      exact mul_of_lt (by rwa [hq])
    obtain ⟨os,hos,hsorted,hmem⟩ := scanOffsets_spec magic (a.bytes.length+1)
      hqbounds.2.2 (show limit+4 ≤ a.bytes.length by omega) (by omega)
    rw [hfirst,hos]
    exact congrArg Except.ok (hsorted.eq_of_mem_iff (magicLoop_sorted _ _)
      fun o => (hmem o).trans (hiff o).symm)
  · have hfirst : Doubles.limit ≤ mul ((start+imageAlignment-1)/imageAlignment) imageAlignment :=
      le_round (by rw [hq]; omega)
    have hnone : magicOffsets a.bytes magic start stop = [] := by
      rw [eq_nil_iff_forall_not_mem]
      intro o ho
      have hmem := (hiff o).mp ho
      omega
    rw [hnone]
    exact scanOffsets_past (by omega)

end Offsets

section Headers
variable {a : Uint8Array} {offset magic : ℕ}

def imageOf (i : CodeImage) : Image := ⟨i.offset,i.imageEnd⟩

def paramsOf (i : DdrParamsImage) : Params :=
  ⟨i.offset,i.structureLength,i.tableOffset,i.tablesEnd,i.tableSize,i.tableCount,i.boardMapping⟩

lemma parseCv6xxCodeImage_fields (h : offset+imageHeaderFieldsSize ≤ a.bytes.length) :
    parseCv6xxCodeImage a offset magic =
      if readLe32 a.bytes offset ≠ magic then .ok none
      else if readLe32 a.bytes (offset+4) = 0 ∨
          readLe32 a.bytes (offset+8) < imageHeaderFieldsSize ∨
          readLe32 a.bytes (offset+8)%imageAlignment ≠ 0 ∨ readLe32 a.bytes (offset+12) = 0 ∨
          readLe32 a.bytes (offset+8) < readLe32 a.bytes (offset+12) ∨
          readLe32 a.bytes (offset+36) = 0 ∨ readLe32 a.bytes (offset+36)%codeAlignment ≠ 0 then
        .ok none
      else if a.bytes.length <
          add (add offset (readLe32 a.bytes (offset+8))) (readLe32 a.bytes (offset+36)) then
            .ok none
      else .ok (some ⟨offset,
        add (add offset (readLe32 a.bytes (offset+8))) (readLe32 a.bytes (offset+36))⟩) := by
  have hread : getUint32 a offset = .ok (readLe32 a.bytes offset) :=
    getUint32_ok (by rw [imageHeaderFieldsSize] at h; omega)
  rw [parseCv6xxCodeImage,if_neg (mt (length_lt_add _ _).mp (Nat.not_lt.mpr h)),hread,ok_bind,
    getUint32_add h (by decide),ok_bind,getUint32_add h (by decide),ok_bind,
    getUint32_add h (by decide),ok_bind,getUint32_add h (by decide),ok_bind]
  rfl

lemma parseCv6xxCodeImage_eq (a : Uint8Array) (offset magic : ℕ) (name : ImageName) :
    parseCv6xxCodeImage a offset magic =
      .ok ((parseCodeImage a.bytes offset magic name).toOption.map imageOf) := by
  have hend : Near (add (add offset (readLe32 a.bytes (offset+8))) (readLe32 a.bytes (offset+36)))
      (offset+readLe32 a.bytes (offset+8)+readLe32 a.bytes (offset+36)) :=
    ((Near.refl _).add _).add _
  by_cases h : CodeHeader a.bytes offset magic
  · have hexact := hend.eq_of_le a.length_lt h.inside
    rw [parseCodeImage_ok h,parseCv6xxCodeImage_fields h.fields,if_neg (not_not.mpr h.imageMagic),
      if_neg,if_neg,hexact]
    · rfl
    · rw [hexact]
      exact Nat.not_lt.mpr h.inside
    · rintro (hc | hc | hc | hc | hc | hc | hc)
      · exact h.version hc
      · exact absurd h.structureMin (Nat.not_le.mpr hc)
      · exact hc h.structureAligned
      · exact h.signature hc
      · exact absurd h.signatureMax (Nat.not_le.mpr hc)
      · exact h.payload hc
      · exact hc h.payloadAligned
  · obtain ⟨e,he⟩ := parseCodeImage_error name h
    rw [he]
    by_cases hfields : a.bytes.length < offset+imageHeaderFieldsSize
    · rw [parseCv6xxCodeImage,if_pos ((length_lt_add _ _).mpr hfields)]
      rfl
    rw [parseCv6xxCodeImage_fields (Nat.not_lt.mp hfields)]
    split_ifs with hmagic hbounds hinside
    · rfl
    · rfl
    · rfl
    · rw [Nat.not_lt,hend.le_iff a.length_lt] at hinside
      simp only [not_or,not_not,Nat.not_lt] at hfields hmagic hbounds
      obtain ⟨h₁,h₂,h₃,h₄,h₅,h₆,h₇⟩ := hbounds
      exact absurd ⟨hfields,hmagic,h₁,h₂,h₃,h₄,h₅,h₆,h₇,hinside⟩ h

lemma parseCv6xxDdrParams_fields (h : offset+ddrParamsFieldsSize ≤ a.bytes.length) :
    parseCv6xxDdrParams a offset =
      if readLe32 a.bytes offset ≠ ddrParamsMagic then .ok none
      else if readLe32 a.bytes (offset+4) = 0 ∨
          readLe32 a.bytes (offset+8) < ddrParamsFieldsSize ∨
          readLe32 a.bytes (offset+8)%imageAlignment ≠ 0 ∨ readLe32 a.bytes (offset+12) = 0 ∨
          readLe32 a.bytes (offset+8) < readLe32 a.bytes (offset+12) ∨
          readLe32 a.bytes (offset+32)%imageAlignment ≠ 0 ∨ readLe32 a.bytes (offset+36) = 0 ∨
          readLe32 a.bytes (offset+36)%imageAlignment ≠ 0 ∨ readLe32 a.bytes (offset+40) < 1 ∨
          maxDdrTables < readLe32 a.bytes (offset+40) then .ok none
      else if ¬∃ index ∈ slice a.bytes (offset+300) (offset+308),
          index.toNat < readLe32 a.bytes (offset+40) then .ok none
      else if ∃ index ∈ slice a.bytes (offset+300) (offset+308),
          index ≠ 0xFF ∧ readLe32 a.bytes (offset+40) ≤ index.toNat then .ok none
      else
        let tableOffset :=
          add (add offset (readLe32 a.bytes (offset+8))) (readLe32 a.bytes (offset+32))
        let tablesEnd :=
          add tableOffset (mul (readLe32 a.bytes (offset+36)) (readLe32 a.bytes (offset+40)))
        if a.bytes.length < tablesEnd then .ok none
        else .ok (some ⟨offset,readLe32 a.bytes (offset+8),tableOffset,tablesEnd,
          readLe32 a.bytes (offset+36),readLe32 a.bytes (offset+40),
          slice a.bytes (offset+300) (offset+308)⟩) := by
  have hlength := a.length_lt
  have hread : getUint32 a offset = .ok (readLe32 a.bytes offset) :=
    getUint32_ok (by rw [ddrParamsFieldsSize] at h; omega)
  have hadd : ∀ k ≤ 308,add offset k = offset+k := by
    intro k hk
    rw [ddrParamsFieldsSize] at h
    exact add_of_lt (by omega)
  rw [parseCv6xxDdrParams,if_neg (mt (length_lt_add _ _).mp (Nat.not_lt.mpr h)),hread,ok_bind,
    getUint32_add h (by decide),ok_bind,getUint32_add h (by decide),ok_bind,
    getUint32_add h (by decide),ok_bind,getUint32_add h (by decide),ok_bind,
    getUint32_add h (by decide),ok_bind,getUint32_add h (by decide),ok_bind,
    hadd 300 (by decide),hadd 308 (by decide)]
  rfl

lemma mul_table {size count : ℕ} (hsize : size < 4294967296) (hcount : count ≤ maxDdrTables) :
    mul size count = size*count := by
  apply mul_of_lt
  have hle : size*count ≤ 4294967296*8 := Nat.mul_le_mul hsize.le hcount
  exact hle.trans_lt (by decide)

lemma parseCv6xxDdrParams_eq (a : Uint8Array) (offset : ℕ) :
    parseCv6xxDdrParams a offset =
      .ok ((parseDdrParams a.bytes offset).toOption.map paramsOf) := by
  have htable : Near (add (add offset (readLe32 a.bytes (offset+8))) (readLe32 a.bytes (offset+32)))
      (offset+readLe32 a.bytes (offset+8)+readLe32 a.bytes (offset+32)) :=
    ((Near.refl _).add _).add _
  have hend := htable.add (readLe32 a.bytes (offset+36)*readLe32 a.bytes (offset+40))
  by_cases h : DdrHeader a.bytes offset
  · have hinside := h.inside
    have hexact := htable.eq_of_le a.length_lt (by omega)
    have hexactEnd := hend.eq_of_le a.length_lt hinside
    rw [parseDdrParams_ok h,parseCv6xxDdrParams_fields h.fields,if_neg (not_not.mpr h.magic),
      if_neg,if_neg (not_not.mpr h.someTable),if_neg h.mapping,
      mul_table (readLe32_lt _ _) h.tableMax]
    · dsimp only
      rw [hexactEnd,hexact,if_neg (Nat.not_lt.mpr hinside)]
      simp only [Except.toOption,Option.map_some,paramsOf,ddrParamsAt,DdrParamsImage.tablesEnd]
    · rintro (hc | hc | hc | hc | hc | hc | hc | hc | hc | hc)
      · exact h.version hc
      · exact absurd h.structureMin (Nat.not_le.mpr hc)
      · exact hc h.structureAligned
      · exact h.signature hc
      · exact absurd h.signatureMax (Nat.not_le.mpr hc)
      · exact hc h.areaAligned
      · exact h.tableSize hc
      · exact hc h.tableAligned
      · exact absurd h.tableMin (Nat.not_le.mpr hc)
      · exact absurd h.tableMax (Nat.not_le.mpr hc)
  · obtain ⟨e,he⟩ := parseDdrParams_error h
    rw [he]
    by_cases hfields : a.bytes.length < offset+ddrParamsFieldsSize
    · rw [parseCv6xxDdrParams,if_pos ((length_lt_add _ _).mpr hfields)]
      rfl
    rw [parseCv6xxDdrParams_fields (Nat.not_lt.mp hfields)]
    dsimp only
    split_ifs with hmagic hbounds hsome hmapping hinside
    · rfl
    · rfl
    · rfl
    · rfl
    · simp only [not_or,not_not,Nat.not_lt] at hfields hmagic hbounds
      obtain ⟨h₁,h₂,h₃,h₄,h₅,h₆,h₇,h₈,h₉,h₁₀⟩ := hbounds
      rw [mul_table (readLe32_lt _ _) h₁₀,Nat.not_lt,hend.le_iff a.length_lt] at hinside
      exact absurd ⟨hfields,hmagic,h₁,h₂,h₃,h₄,h₅,h₆,h₇,h₈,h₉,h₁₀,hsome,hmapping,hinside⟩ h
    · rfl

end Headers

section Layouts

def layoutWith (gsl : CodeImage) (params : DdrParamsImage) (uboot : CodeImage) : Layout :=
  ⟨imageOf gsl,paramsOf params,imageOf uboot⟩

lemma layoutOf_eq (a : Uint8Array) (gsl : CodeImage) (d : ℕ) :
    layoutOf a (imageOf gsl) d =
      .ok ((paramsAt a.bytes d).toOption.map fun x => layoutWith gsl x.1 x.2) := by
  rw [layoutOf,parseCv6xxDdrParams_eq,ok_bind,paramsAt]
  cases parseDdrParams a.bytes d with
  | error e => rfl
  | ok params =>
    simp only [toOption_ok,Option.map_some]
    rw [parseCv6xxCodeImage_eq a _ _ .uboot,ok_bind]
    have htables : (paramsOf params).tablesEnd = params.tablesEnd := rfl
    rw [htables]
    cases parseCodeImage a.bytes params.tablesEnd ubootMagic .uboot with
    | error e => rfl
    | ok uboot => rfl

lemma min_near {n b x : ℕ} (h : Near b x) (hn : n < Doubles.limit) : min n b = min n x := by
  rcases h with rfl | ⟨hb,hx⟩
  · rfl
  · rw [Nat.min_eq_left (by omega),Nat.min_eq_left (by omega)]

lemma mapM_ok {A B : Type} (f : A → Except Thrown B) (g : A → B) (h : ∀ x,f x = .ok (g x))
    (xs : List A) : xs.mapM f = .ok (xs.map g) := by
  rw [funext h]
  exact mapM_pure

lemma layoutsAt_eq (a : Uint8Array) (g : ℕ) :
    layoutsAt a g =
      .ok ((foundAt a.bytes g).map fun x => layoutWith x.1 x.2.1 x.2.2) := by
  rw [layoutsAt,parseCv6xxCodeImage_eq a g gslMagic .gsl,ok_bind,foundAt]
  cases hgsl : parseCodeImage a.bytes g gslMagic .gsl with
  | error e => rfl
  | ok gsl =>
    obtain ⟨hheader,rfl⟩ := parseCodeImage_eq_ok hgsl
    have hend : (imageOf (codeImageAt a.bytes g)).imageEnd =
        (codeImageAt a.bytes g).imageEnd := rfl
    have hscan : min a.bytes.length
        (add (add (codeImageAt a.bytes g).imageEnd maxSectionGap) 4) =
        min a.bytes.length ((codeImageAt a.bytes g).imageEnd+maxSectionGap+4) :=
      min_near (((Near.refl _).add _).add _) a.length_lt
    have hinside : (codeImageAt a.bytes g).imageEnd ≤ a.bytes.length := hheader.inside
    have hmagic : ddrParamsMagic < 4294967296 := by decide
    simp only [toOption_ok,Option.map_some,hend,hscan]
    rw [cv6xxMagicOffsets_eq hmagic _ hinside,ok_bind,mapM_ok _ _ (layoutOf_eq a _),ok_bind,
      map_filterMap,paramsOffsets,filterMap_map]
    simp only [Option.map_map]
    rfl

lemma layouts_eq (a : Uint8Array) :
    layouts a = .ok ((found a.bytes).map fun x => layoutWith x.1 x.2.1 x.2.2) := by
  have hmagic : gslMagic < 4294967296 := by decide
  rw [layouts,cv6xxMagicOffsets_eq hmagic _ (Nat.zero_le _),ok_bind,
    mapM_ok _ _ (layoutsAt_eq a),ok_bind,found,map_flatMap,flatMap_def]
  rfl

end Layouts

section Parts
variable {a : Uint8Array}

lemma setAt_first (s : List Byte) (n : ℕ) :
    setAt (List.replicate (s.length+n) 0) s 0 = .ok (s++List.replicate n 0) := by
  rw [setAt,if_pos (by rw [length_replicate]; omega),take_zero,nil_append,
    drop_replicate,Nat.zero_add,Nat.add_sub_cancel_left]

lemma setAt_second (s₁ s₂ : List Byte) :
    setAt (s₁++List.replicate s₂.length 0) s₂ s₁.length = .ok (s₁++s₂) := by
  rw [setAt,if_pos (by rw [length_append,length_replicate]),take_left,
    drop_eq_nil_of_le (by rw [length_append,length_replicate]),append_nil]

lemma partsOf_layout {l : Layout} {m : Byte} {index : ℕ}
    (hmapped : l.params.boardMapping[0]? = some m)
    (hweb : (if m.toNat < l.params.tableCount then m.toNat else 0) = index)
    (hindex : index+1 ≤ l.params.tableCount) (hgsl : l.gsl.imageEnd ≤ l.params.tableOffset)
    (hend : l.params.tableOffset+l.params.tableSize*l.params.tableCount ≤ a.bytes.length) :
    partsOf a l = .ok ⟨slice a.bytes 0 l.gsl.imageEnd,l.gsl.imageEnd,
      slice a.bytes l.gsl.imageEnd l.params.tableOffset++
        slice a.bytes (l.params.tableOffset+index*l.params.tableSize)
          (l.params.tableOffset+index*l.params.tableSize+l.params.tableSize),
      slice a.bytes l.uboot.offset l.uboot.imageEnd,l.params.tableCount,l.params.tableSize⟩ := by
  have hlength := a.length_lt
  have htable : index*l.params.tableSize+l.params.tableSize ≤
      l.params.tableSize*l.params.tableCount := by
    rw [← Nat.succ_mul,Nat.mul_comm]
    exact Nat.mul_le_mul_left _ hindex
  generalize hsel : l.params.tableOffset+index*l.params.tableSize = selected
  have hmul : mul index l.params.tableSize = index*l.params.tableSize := mul_of_lt (by omega)
  have hselected : add l.params.tableOffset (index*l.params.tableSize) = selected := by
    rw [← hsel]
    exact add_of_lt (by omega)
  have hlast : add selected l.params.tableSize = selected+l.params.tableSize :=
    add_of_lt (by omega)
  have hfirst := slice_length (a := l.gsl.imageEnd)
    (show l.params.tableOffset ≤ a.bytes.length by omega)
  have hsecond := slice_length (a := selected)
    (show selected+l.params.tableSize ≤ a.bytes.length by omega)
  rw [Nat.add_sub_cancel_left] at hsecond
  have htotal : add (l.params.tableOffset-l.gsl.imageEnd) l.params.tableSize =
      (slice a.bytes l.gsl.imageEnd l.params.tableOffset).length+l.params.tableSize := by
    rw [hfirst]
    exact add_of_lt (by omega)
  have hset := setAt_second (slice a.bytes l.gsl.imageEnd l.params.tableOffset)
    (slice a.bytes selected (selected+l.params.tableSize))
  rw [hsecond,hfirst] at hset
  simp only [partsOf,hmapped,hweb]
  rw [htotal,setAt_first,ok_bind,hmul,hselected,hlast,hset,ok_bind]
  rfl

lemma buildDdrTable_zero (parts : CV6xxBootParts) {m : Byte} {index : ℕ}
    (hmapped : parts.boardMapping[0]? = some m)
    (hhost : (if parts.tableCount ≤ m.toNat then 0 else m.toNat) = index) :
    buildDdrTable parts 0 = some (slice parts.fileData parts.gslSize parts.firstTableOffset++
      slice parts.fileData (parts.firstTableOffset+index*parts.tableSize)
        (parts.firstTableOffset+index*parts.tableSize+parts.tableSize)) := by
  simp only [buildDdrTable,ite_self,hmapped,Option.map_some,hhost]

lemma partsOf_eq {gsl uboot : CodeImage} {params : DdrParamsImage} {m : Byte}
    (hmapped : params.boardMapping[0]? = some m) (hcount : 1 ≤ params.tableCount)
    (hgsl : gsl.imageEnd ≤ params.tableOffset) (hend : params.tablesEnd ≤ a.bytes.length) :
    ∃ table parts,buildDdrTable (bootParts a.bytes gsl params uboot) 0 = some table ∧
      partsOf a (layoutWith gsl params uboot) = .ok parts ∧
      parts.gslData = slice a.bytes 0 gsl.imageEnd ∧ parts.ddrTable = table ∧
      parts.ubootData = slice a.bytes uboot.offset uboot.imageEnd := by
  obtain ⟨index,hweb,hhost,hindex⟩ : ∃ index,
      (if m.toNat < params.tableCount then m.toNat else 0) = index ∧
      (if params.tableCount ≤ m.toNat then 0 else m.toNat) = index ∧
      index+1 ≤ params.tableCount := by
    by_cases hm : m.toNat < params.tableCount
    · exact ⟨m.toNat,if_pos hm,if_neg (by omega),hm⟩
    · exact ⟨0,if_neg hm,if_pos (by omega),hcount⟩
  exact ⟨_,_,buildDdrTable_zero (bootParts a.bytes gsl params uboot) hmapped hhost,
    partsOf_layout (l := layoutWith gsl params uboot) hmapped hweb hindex hgsl hend,rfl,rfl,rfl⟩

lemma first_of_length {xs : List Byte} {n : ℕ} (h : xs.length = n+1) : ∃ m,xs[0]? = some m := by
  cases xs with
  | nil => cases h
  | cons m xs => exact ⟨m,rfl⟩

lemma boardMapping_first {data : List Byte} {d : ℕ} (h : DdrHeader data d) :
    ∃ m,(ddrParamsAt data d).boardMapping[0]? = some m := by
  have hfields := h.fields
  rw [ddrParamsFieldsSize] at hfields
  have hmapping : (ddrParamsAt data d).boardMapping.length = 7+1 := by
    rw [ddrParamsAt,slice_length hfields]
    omega
  exact first_of_length hmapping

/-- How the page says what the host says of a file. -/
def thrown : ProtocolError → Thrown
  | .ambiguous => .ambiguous
  | _ => .noLayout

/-- Both parsers reject a file, for the same reason, or both find the same parts. -/
theorem parsers_agree (a : Uint8Array) :
    (∃ e,Cv6xxBoot.parseCv6xxBoot a.bytes = .error e ∧ parseCv6xxBoot a = .error (thrown e)) ∨
      ∃ host table web,Cv6xxBoot.parseCv6xxBoot a.bytes = .ok host ∧
        buildDdrTable host 0 = some table ∧ parseCv6xxBoot a = .ok web ∧
        web.gslData = host.gslData ∧ web.ddrTable = table ∧ web.ubootData = host.ubootData := by
  rw [parseCv6xxBoot_eq,parseCv6xxBoot,layouts_eq,ok_bind]
  cases hfound : found a.bytes with
  | nil => exact .inl ⟨_,rfl,rfl⟩
  | cons x rest =>
    cases rest with
    | nil =>
      obtain ⟨g,d,hlayout,rfl⟩ := mem_found (by rw [hfound]; exact mem_singleton_self x)
      obtain ⟨m,hm⟩ := boardMapping_first hlayout.params
      have hbehind : (codeImageAt a.bytes g).imageEnd ≤ (ddrParamsAt a.bytes d).tableOffset := by
        have hle := (mem_magicOffsets.mp hlayout.paramsOffset).1
        rw [ddrParamsAt]
        dsimp only
        omega
      obtain ⟨table,parts,htable,hparts,hgsl,hddr,huboot⟩ := partsOf_eq hm
        hlayout.params.tableMin hbehind hlayout.params.inside
      exact .inr ⟨_,table,parts,rfl,htable,hparts,hgsl,hddr,huboot⟩
    | cons y rest => exact .inl ⟨_,rfl,rfl⟩

end Parts

end Defib.Cv6xxWeb
