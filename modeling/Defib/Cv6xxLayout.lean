import Defib.Cv6xxBoot

/-!
# The layout of a composite boot image

The nested searches of `parse_cv6xx_boot` meet every pair of aligned offsets in the scanned
ranges once, so the file is accepted exactly if one pair has three valid headers. The parts of
an accepted file lie behind each other, and the DDR buffer for a board ends with one whole
table.
-/
namespace Defib.Cv6xxLayout
open List Words Cv6xxBoot

/-- A GSL header at `g` and a DDR header at `d` with everything that belongs to them. -/
structure Valid (data : List Byte) (g d : ℕ) : Prop where
  gsl : CodeHeader data g gslMagic
  gslAligned : g%imageAlignment = 0
  gslScanned : g ≤ maxGslHeaderOffset
  params : DdrHeader data d
  paramsAligned : d%imageAlignment = 0
  paramsAfter : (codeImageAt data g).imageEnd ≤ d
  paramsScanned : d ≤ (codeImageAt data g).imageEnd+maxSectionGap
  uboot : CodeHeader data (ddrParamsAt data d).tablesEnd ubootMagic

section
variable {data : List Byte} {g d : ℕ}

lemma mem_gslOffsets (h : CodeHeader data g gslMagic) :
    g ∈ gslOffsets data ↔ g%imageAlignment = 0 ∧ g ≤ maxGslHeaderOffset := by
  have hin := h.fields
  rw [imageHeaderFieldsSize] at hin
  have hmagic := (hasMagic_iff (by decide) (by omega)).mpr h.imageMagic
  rw [gslOffsets,mem_magicOffsets]
  constructor
  · rintro ⟨-,hscan,halign,-⟩
    exact ⟨halign,by omega⟩
  · rintro ⟨halign,hscan⟩
    exact ⟨Nat.zero_le g,by omega,halign,hmagic⟩

lemma mem_paramsOffsets (gsl : CodeImage) (h : DdrHeader data d) :
    d ∈ paramsOffsets data gsl ↔
      d%imageAlignment = 0 ∧ gsl.imageEnd ≤ d ∧ d ≤ gsl.imageEnd+maxSectionGap := by
  have hin := h.fields
  rw [ddrParamsFieldsSize] at hin
  have hmagic := (hasMagic_iff (by decide) (by omega)).mpr h.magic
  rw [paramsOffsets,mem_magicOffsets]
  constructor
  · rintro ⟨hafter,hscan,halign,-⟩
    exact ⟨halign,hafter,by omega⟩
  · rintro ⟨halign,hafter,hscan⟩
    exact ⟨hafter,by omega,halign,hmagic⟩

lemma paramsAt_eq {params : DdrParamsImage} {uboot : CodeImage}
    (h : parseDdrParams data d = .ok params)
    (hu : parseCodeImage data params.tablesEnd ubootMagic .uboot = .ok uboot) :
    paramsAt data d = .ok (params,uboot) := by
  rw [paramsAt,h]
  dsimp only
  rw [hu]

lemma paramsAt_ok (h : DdrHeader data d)
    (hu : CodeHeader data (ddrParamsAt data d).tablesEnd ubootMagic) : paramsAt data d =
      .ok (ddrParamsAt data d,codeImageAt data (ddrParamsAt data d).tablesEnd) :=
  paramsAt_eq (parseDdrParams_ok h) (parseCodeImage_ok hu)

end

/-! ## The pairs that the searches meet -/

section
variable (data : List Byte)

/-- The DDR headers that go with a GSL header at `g`. -/
def ddrOffsetsAt (g : ℕ) : List ℕ :=
  match parseCodeImage data g gslMagic .gsl with
  | .error _ => []
  | .ok gsl => (paramsOffsets data gsl).filter fun d => (paramsAt data d).toOption.isSome

def pairs : List (ℕ × ℕ) := (gslOffsets data).flatMap fun g => (ddrOffsetsAt data g).map (g,·)

def imagesAt (p : ℕ × ℕ) : CodeImage × DdrParamsImage × CodeImage :=
  (codeImageAt data p.1,ddrParamsAt data p.2,codeImageAt data (ddrParamsAt data p.2).tablesEnd)

lemma filterMap_paramsAt (gsl : CodeImage) (ds : List ℕ) :
    (ds.filterMap fun d => (paramsAt data d).toOption.map fun x => (gsl,x.1,x.2)) =
      (ds.filter fun d => (paramsAt data d).toOption.isSome).map fun d =>
        (gsl,ddrParamsAt data d,codeImageAt data (ddrParamsAt data d).tablesEnd) := by
  induction ds with
  | nil => rfl
  | cons d ds ih =>
    cases hparams : paramsAt data d with
    | error e =>
      rw [filterMap_cons_none (by rw [hparams]; rfl),
        filter_cons_of_neg (by rw [hparams]; exact Bool.false_ne_true),ih]
    | ok x =>
      obtain ⟨-,-,rfl⟩ := paramsAt_eq_ok hparams
      rw [filterMap_cons_some (by rw [hparams]; rfl),
        filter_cons_of_pos (by rw [hparams]; rfl),map_cons,ih]

lemma foundAt_eq (g : ℕ) :
    foundAt data g = (ddrOffsetsAt data g).map fun d => imagesAt data (g,d) := by
  rw [foundAt,ddrOffsetsAt]
  cases hgsl : parseCodeImage data g gslMagic .gsl with
  | error e => rfl
  | ok gsl =>
    obtain ⟨-,rfl⟩ := parseCodeImage_eq_ok hgsl
    exact filterMap_paramsAt data (codeImageAt data g) _

lemma found_eq : found data = (pairs data).map (imagesAt data) := by
  rw [found,pairs,map_flatMap]
  congr 1
  funext g
  rw [foundAt_eq,map_map]
  rfl

variable {data}

lemma mem_ddrOffsetsAt {g d : ℕ} : d ∈ ddrOffsetsAt data g ↔
    CodeHeader data g gslMagic ∧ DdrHeader data d ∧
      CodeHeader data (ddrParamsAt data d).tablesEnd ubootMagic ∧
      d ∈ paramsOffsets data (codeImageAt data g) := by
  rw [ddrOffsetsAt]
  constructor
  · intro h
    split at h
    · cases h
    next gsl hgsl =>
      obtain ⟨hheader,rfl⟩ := parseCodeImage_eq_ok hgsl
      obtain ⟨hscan,hparams⟩ := mem_filter.mp h
      cases hok : paramsAt data d with
      | error e =>
        rw [hok] at hparams
        cases hparams
      | ok x =>
        obtain ⟨hd,hu,-⟩ := paramsAt_eq_ok hok
        exact ⟨hheader,hd,hu,hscan⟩
  · rintro ⟨hheader,hd,hu,hscan⟩
    rw [parseCodeImage_ok hheader]
    refine mem_filter.mpr ⟨hscan,?_⟩
    rw [paramsAt_ok hd hu]
    rfl

lemma mem_pairs {p : ℕ × ℕ} : p ∈ pairs data ↔ Valid data p.1 p.2 := by
  rw [pairs,mem_flatMap]
  constructor
  · rintro ⟨g,hg,hp⟩
    obtain ⟨d,hd,rfl⟩ := mem_map.mp hp
    obtain ⟨hgsl,hparams,huboot,hscan⟩ := mem_ddrOffsetsAt.mp hd
    obtain ⟨halign,hle⟩ := (mem_gslOffsets hgsl).mp hg
    obtain ⟨hdalign,hafter,hgap⟩ := (mem_paramsOffsets _ hparams).mp hscan
    exact ⟨hgsl,halign,hle,hparams,hdalign,hafter,hgap,huboot⟩
  · intro h
    refine ⟨p.1,(mem_gslOffsets h.gsl).mpr ⟨h.gslAligned,h.gslScanned⟩,?_⟩
    refine mem_map.mpr ⟨p.2,mem_ddrOffsetsAt.mpr ⟨h.gsl,h.params,h.uboot,?_⟩,rfl⟩
    exact (mem_paramsOffsets _ h.params).mpr ⟨h.paramsAligned,h.paramsAfter,h.paramsScanned⟩

lemma magicOffsets_nodup (magic start stop : ℕ) : (magicOffsets data magic start stop).Nodup :=
  (magicLoop_sorted _ _).imp Nat.ne_of_lt

lemma ddrOffsetsAt_nodup (g : ℕ) : (ddrOffsetsAt data g).Nodup := by
  rw [ddrOffsetsAt]
  split
  · exact nodup_nil
  · exact (magicOffsets_nodup _ _ _).filter _

lemma pairs_nodup : (pairs data).Nodup := by
  rw [pairs,nodup_flatMap]
  constructor
  · intro g _
    exact (ddrOffsetsAt_nodup g).map fun _ _ h => (Prod.mk.inj h).2
  · refine (magicLoop_sorted _ _).imp fun {g g'} hlt p hp hp' => ?_
    obtain ⟨d,-,rfl⟩ := mem_map.mp hp
    obtain ⟨d',-,heq⟩ := mem_map.mp hp'
    have hg : g' = g := (Prod.mk.inj heq).1
    omega

lemma exists_singleton_iff {A : Type} {l : List A} (h : l.Nodup) :
    (∃ a,l = [a]) ↔ ∃! a,a ∈ l := by
  constructor
  · rintro ⟨a,rfl⟩
    exact ⟨a,mem_singleton_self a,fun b hb => mem_singleton.mp hb⟩
  · rintro ⟨a,ha,hunique⟩
    refine ⟨a,perm_singleton.mp ?_⟩
    refine (perm_ext_iff_of_nodup h (nodup_singleton a)).mpr fun b => ?_
    rw [mem_singleton]
    exact ⟨hunique b,fun hb => hb ▸ ha⟩

lemma parseCv6xxBoot_eq_ok {parts : CV6xxBootParts} : parseCv6xxBoot data = .ok parts ↔
    ∃ p,pairs data = [p] ∧ parts = bootParts data (imagesAt data p).1 (imagesAt data p).2.1
      (imagesAt data p).2.2 := by
  rw [parseCv6xxBoot_eq,found_eq]
  match hpairs : pairs data with
  | [] => exact ⟨nofun,fun ⟨_,h,_⟩ => by cases h⟩
  | [p] =>
    constructor
    · intro h
      exact ⟨p,rfl,(Except.ok.inj h).symm⟩
    · rintro ⟨q,hq,rfl⟩
      obtain rfl : p = q := head_eq_of_cons_eq hq
      rfl
  | p::q::rest => exact ⟨nofun,fun ⟨_,h,_⟩ => by cases h⟩

end

/-! ## Accepted files -/

/-- The parts are those that the headers at `g` and `d` and the one behind the tables declare. -/
structure Declared (data : List Byte) (g d : ℕ) (parts : CV6xxBootParts) : Prop where
  gslSize : parts.gslSize = (codeImageAt data g).imageEnd
  gslData : parts.gslData = slice data 0 (codeImageAt data g).imageEnd
  paramsStart : parts.paramsStart = d
  firstTableOffset : parts.firstTableOffset = (ddrParamsAt data d).tableOffset
  tableCount : parts.tableCount = (ddrParamsAt data d).tableCount
  tableSize : parts.tableSize = (ddrParamsAt data d).tableSize
  boardMapping : parts.boardMapping = (ddrParamsAt data d).boardMapping
  ubootData : parts.ubootData = slice data (ddrParamsAt data d).tablesEnd
    (codeImageAt data (ddrParamsAt data d).tablesEnd).imageEnd

/-- GSL, DDR header with its declared length, tables and U-Boot lie behind each other in the
file. -/
structure Ordered (data : List Byte) (g d : ℕ) : Prop where
  gsl : g < (codeImageAt data g).imageEnd
  params : (codeImageAt data g).imageEnd ≤ d
  tables : d+(ddrParamsAt data d).structureLength ≤ (ddrParamsAt data d).tableOffset
  uboot : (ddrParamsAt data d).tablesEnd <
    (codeImageAt data (ddrParamsAt data d).tablesEnd).imageEnd
  inside : (codeImageAt data (ddrParamsAt data d).tablesEnd).imageEnd ≤ data.length

/-- From the end of the GSL to the first table, then one of the declared tables. -/
def EndsWithTable (data : List Byte) (gsl : CodeImage) (params : DdrParamsImage)
    (buffer : List Byte) : Prop :=
  ∃ i < params.tableCount,
    buffer = slice data gsl.imageEnd params.tableOffset++
      slice data (params.tableOffset+i*params.tableSize)
        (params.tableOffset+i*params.tableSize+params.tableSize) ∧
    params.tableOffset+i*params.tableSize+params.tableSize ≤ params.tablesEnd ∧
    buffer.length = params.tableOffset-gsl.imageEnd+params.tableSize

section
variable {data : List Byte} {g d : ℕ}

lemma bootParts_declared (data : List Byte) (g d : ℕ) :
    Declared data g d (bootParts data (imagesAt data (g,d)).1 (imagesAt data (g,d)).2.1
      (imagesAt data (g,d)).2.2) := by
  constructor <;> simp only [bootParts,imagesAt] <;> rfl

lemma Valid.ordered (h : Valid data g d) : Ordered data g d := by
  have hgsl := h.gsl.structureMin
  have huboot := h.uboot.structureMin
  rw [imageHeaderFieldsSize] at hgsl huboot
  refine ⟨?_,h.paramsAfter,Nat.le_add_right _ _,?_,h.uboot.inside⟩
  · simp only [CodeImage.imageEnd,codeImageAt]
    omega
  · simp only [CodeImage.imageEnd,codeImageAt]
    omega

lemma table_ends (gsl uboot : CodeImage) (params : DdrParamsImage)
    (hmapping : params.boardMapping.length = 8) (hcount : 1 ≤ params.tableCount)
    (hinside : params.tablesEnd ≤ data.length) (boardId : ℕ) :
    ∃ buffer,buildDdrTable (bootParts data gsl params uboot) boardId = some buffer ∧
      EndsWithTable data gsl params buffer := by
  have hslot : (if boardId < params.boardMapping.length then boardId else 0) <
      params.boardMapping.length := by
    split_ifs with hid
    · exact hid
    · omega
  obtain ⟨mapped,hmapped⟩ : ∃ mapped,
      params.boardMapping[if boardId < params.boardMapping.length then boardId else 0]? =
        some mapped := ⟨_,getElem?_eq_getElem hslot⟩
  obtain ⟨i,hi,hindex⟩ : ∃ i < params.tableCount,
      (if params.tableCount ≤ mapped.toNat then 0 else mapped.toNat) = i := by
    refine ⟨_,?_,rfl⟩
    split_ifs with hlarge
    · exact hcount
    · exact Nat.not_le.mp hlarge
  have hend : params.tableOffset+i*params.tableSize+params.tableSize ≤ params.tablesEnd := by
    have hmul := Nat.mul_le_mul_right params.tableSize hi
    rw [Nat.succ_mul,Nat.mul_comm params.tableCount] at hmul
    rw [DdrParamsImage.tablesEnd]
    omega
  have hlast := hend.trans hinside
  refine ⟨_,?_,i,hi,rfl,hend,?_⟩
  · rw [← hindex]
    exact congrArg (Option.map _) hmapped
  · rw [length_append,slice_length (by omega),slice_length hlast]
    omega

lemma buildDdrTable_ends (h : Valid data g d) (gsl uboot : CodeImage) (boardId : ℕ) :
    ∃ buffer,
      buildDdrTable (bootParts data gsl (ddrParamsAt data d) uboot) boardId = some buffer ∧
      EndsWithTable data gsl (ddrParamsAt data d) buffer := by
  have hfields := h.params.fields
  rw [ddrParamsFieldsSize] at hfields
  have hmapping : (ddrParamsAt data d).boardMapping.length = 8 := by
    have hlen := slice_length (a := d+300) hfields
    simp only [ddrParamsAt,hlen,Nat.add_sub_add_left]
  exact table_ends gsl uboot _ hmapping h.params.tableMin h.params.inside boardId

end

/-- A file is accepted exactly if one pair of offsets is valid; its parts are then what the
headers there declare, in order, and every board id is served with a whole table. -/
theorem boot_image_layout (data : List Byte) :
    ((∃ parts,parseCv6xxBoot data = .ok parts) ↔ ∃! p : ℕ × ℕ,Valid data p.1 p.2) ∧
      ∀ parts,parseCv6xxBoot data = .ok parts → ∃ g d,Valid data g d ∧
        Declared data g d parts ∧ Ordered data g d ∧
        ∀ boardId,∃ buffer,buildDdrTable parts boardId = some buffer ∧
          EndsWithTable data (codeImageAt data g) (ddrParamsAt data d) buffer := by
  constructor
  · have hnodup : (pairs data).Nodup := pairs_nodup
    have hone := exists_singleton_iff hnodup
    simp only [mem_pairs] at hone
    rw [← hone]
    constructor
    · rintro ⟨parts,hparts⟩
      obtain ⟨p,hp,-⟩ := parseCv6xxBoot_eq_ok.mp hparts
      exact ⟨p,hp⟩
    · rintro ⟨p,hp⟩
      exact ⟨_,parseCv6xxBoot_eq_ok.mpr ⟨p,hp,rfl⟩⟩
  · intro parts hparts
    obtain ⟨⟨g,d⟩,hp,rfl⟩ := parseCv6xxBoot_eq_ok.mp hparts
    have hvalid : Valid data g d := mem_pairs.mp (hp ▸ mem_singleton_self (g,d))
    exact ⟨g,d,hvalid,bootParts_declared data g d,hvalid.ordered,buildDdrTable_ends hvalid _ _⟩

end Defib.Cv6xxLayout
