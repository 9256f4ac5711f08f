import Defib.MdDisplay

/-!
# A memory display in the web page

The page has a parser of its own for the lines of `md.b`: every byte of a line has to be
followed by space, the line being trimmed before. The bytes of a text are written by
their printed address into a buffer of the size of the flash; what is no row, or lies
outside, is passed over.
-/
namespace Defib.WebDisplay
open List Words BlockMemory PyText MdOutput MdDisplay

/-- `\s` of a regular expression, which is also what `trim` takes away. -/
def isSpace (c : Char) : Bool :=
  c.toNat ∈ [9,10,11,12,13,32,0xa0,0x1680,0x2028,0x2029,0x202f,0x205f,0x3000,0xfeff] ||
    (decide (0x2000 ≤ c.toNat) && decide (c.toNat ≤ 0x200a))

/-- Up to `n` bytes, each with space after it. -/
def spacedBytes : ℕ → List Char → List Byte
  | 0,_ => []
  | n+1,s =>
    match hexPair s with
    | some (v,t) =>
      let r := t.dropWhile isSpace
      if r.length < t.length then v::spacedBytes n r else []
    | none => []

def parseMdLine (line : List Char) : Option (ℕ × List Byte) :=
  let s := stripBy isSpace line
  let addr := s.take 8
  let rest := s.drop 9
  let hex := rest.dropWhile isSpace
  let data := spacedBytes 16 hex
  if addr.length = 8 ∧ addr.all isHex ∧ s[8]? = some ':' ∧ hex.length < rest.length ∧
      data ≠ [] then
    some (addr.foldl (fun v c => v*16+hexDigit c) 0,data)
  else none

def base : ℕ := 0x82000000

def layLine (flashSize : ℕ) (allData : List Byte) (line : List Char) : List Byte :=
  match parseMdLine line with
  | some (addr,data) =>
    if base ≤ addr ∧ addr-base+data.length ≤ flashSize then place allData (addr-base) data
    else allData
  | none => allData

def layText (flashSize : ℕ) (text : List Char) (allData : List Byte) : List Byte :=
  (text.splitOn '\n').foldl (layLine flashSize) allData

/-! ### One row -/

lemma isSpace_blank : isSpace ' ' = true := by
  decide

lemma isSpace_digit : ∀ v < 16,isSpace (Nat.digitChar v) = false := by
  decide

lemma not_isSpace_of_graphic {c : Char} (hlo : 33 ≤ c.toNat) (hhi : c.toNat < 127) :
    isSpace c = false := by
  simp only [isSpace,mem_cons,not_mem_nil,or_false,Bool.or_eq_false_iff,
    Bool.and_eq_false_iff,decide_eq_false_iff_not]
  omega

lemma spacedBytes_hexColumn (data : List Byte) (s : List Char) :
    spacedBytes data.length ((hexColumn data++ ' ' :: s).dropWhile isSpace) = data := by
  induction data with
  | nil => rfl
  | cons b data ih =>
    obtain ⟨r,hr⟩ : ∃ r,hexColumn data++ ' ' :: s = ' ' :: r := by
      cases data with
      | nil => exact ⟨s,rfl⟩
      | cons c data => exact ⟨_,hexColumn_cons c data _⟩
    have hshort : ((hexColumn data++ ' ' :: s).dropWhile isSpace).length <
        (hexColumn data++ ' ' :: s).length := by
      rw [hr,dropWhile_cons_of_pos isSpace_blank,length_cons]
      exact Nat.lt_succ_of_le (length_dropWhile_le _ _)
    rw [hexColumn_cons,dropWhile_blank_hexByte isSpace_blank isSpace_digit,length_cons,
      spacedBytes,hexPair_hexByte]
    simp only [if_pos hshort,ih]

lemma column_not_space {b : Byte} (h : b ≠ 0x20) : isSpace (column b) = false := by
  have hne : b.toNat ≠ 32 := fun heq => h (BitVec.eq_of_toNat_eq heq)
  unfold column
  split_ifs with hb
  · have hval := toNat_ofNat_ascii b.toNat (by omega)
    exact not_isSpace_of_graphic (by omega) (by omega)
  · decide

lemma stripBy_mdLine (addr : ℕ) {data : List Byte} (hlen : data.length = 16)
    (hgraphic : ∃ b ∈ data,b ≠ 0x20) (cr : List Char) :
    ∃ t,stripBy isSpace (mdLine addr data++cr) = hexAddr addr++ ':' :: (hexColumn data++
      ' ' :: t) := by
  have hne : data ≠ [] := by
    rintro rfl
    cases hlen
  obtain ⟨a,m,hcons⟩ : ∃ a m,hexAddr addr = a::m := ⟨_,_,rfl⟩
  obtain ⟨v,hv,hlast⟩ := hexColumn_getLast data hne (hexAddr addr++[':'])
  obtain ⟨w,hw,hfirst⟩ := mem_hexAddr (hcons ▸ mem_cons_self : a ∈ hexAddr addr)
  obtain ⟨t,blanks,ht,htail,hblanks⟩ := stripBy_append_trim (p := isSpace)
    (s := hexAddr addr++ ':' :: hexColumn data) (by rw [hcons]; rfl) (by rw [← hlast]; simp)
    (hfirst ▸ isSpace_digit w hw) (isSpace_digit v hv)
    (' ' :: ([' ',' ',' ']++data.map column++cr))
  have hline : mdLine addr data++cr =
      (hexAddr addr++ ':' :: hexColumn data)++ ' ' :: ([' ',' ',' ']++data.map column++cr) := by
    rw [mdLine,hlen]
    simp [List.replicate]
  cases t with
  | nil =>
    -- the graphic character would be among the blanks
    obtain ⟨b,hb,hgraph⟩ := hgraphic
    have hmem : column b ∈ blanks := by
      rw [nil_append] at htail
      rw [← htail]
      simp only [mem_cons,mem_append]
      exact .inr (.inl (.inr (mem_map_of_mem hb)))
    have hspace := hblanks _ hmem
    rw [column_not_space hgraph] at hspace
    cases hspace
  | cons c t =>
    obtain ⟨rfl,-⟩ := List.cons.inj htail
    exact ⟨t,by rw [hline,ht,append_assoc,cons_append]⟩

lemma parseMdLine_mdLine {addr : ℕ} (haddr : addr < 2^32) {data : List Byte}
    (hlen : data.length = 16) (hgraphic : ∃ b ∈ data,b ≠ 0x20) (cr : List Char) :
    parseMdLine (mdLine addr data++cr) = some (addr,data) := by
  obtain ⟨t,ht⟩ := stripBy_mdLine addr hlen hgraphic cr
  have hdata : spacedBytes 16 ((hexColumn data++ ' ' :: t).dropWhile isSpace) = data := by
    rw [← hlen]
    exact spacedBytes_hexColumn data t
  rw [parseMdLine,ht]
  simp only [take_hexAddr,drop_hexAddr,colon_hexAddr,hexAddr_length,hexAddr_all,
    hexAddr_value haddr,hdata]
  cases data with
  | nil => cases hlen
  | cons b data =>
    rw [hexColumn_cons,dropWhile_blank_hexByte isSpace_blank isSpace_digit,if_pos (by simp)]

/-! ### What is no row -/

/-- Eight digits and a colon, as at the beginning of a row. -/
def RowStart (s : List Char) : Prop :=
  ∃ a : List Char,a.length = 8 ∧ a.all isHex = true ∧ a++[':'] <:+: s

lemma RowStart.mono {s t : List Char} (h : RowStart s) (hst : s <:+: t) : RowStart t := by
  obtain ⟨a,hlen,hall,ha⟩ := h
  exact ⟨a,hlen,hall,ha.trans hst⟩

lemma not_rowStart {s : List Char} (h : ':' ∉ s) : ¬RowStart s := by
  rintro ⟨a,-,-,ha⟩
  exact h (ha.subset (mem_append_right _ (mem_singleton.mpr rfl)))

lemma rowStart_append {s t : List Char} (h : RowStart (s++t)) (ht : ':' ∉ t) : RowStart s := by
  obtain ⟨a,hlen,hall,ha⟩ := h
  exact ⟨a,hlen,hall,(infix_append_right ht).mp ha⟩

lemma rowStart_of_parse {line : List Char} {e : ℕ × List Byte} (h : parseMdLine line = some e) :
    RowStart line := by
  simp only [parseMdLine,Option.ite_none_right_eq_some] at h
  obtain ⟨⟨hlen,hall,hcolon,-⟩,-⟩ := h
  refine ⟨_,hlen,hall,?_⟩
  have htake : (stripBy isSpace line).take 9 = (stripBy isSpace line).take 8++[':'] := by
    rw [take_add_one,hcolon]
    rfl
  rw [← htake]
  exact (List.take_prefix _ _).isInfix.trans (infix_stripBy _ _)

variable {flashSize : ℕ} {allData : List Byte}

lemma layText_quiet {s : List Char} (h : ¬RowStart s) : layText flashSize s allData = allData := by
  have hline : ∀ l ∈ s.splitOn '\n',∀ buf,layLine flashSize buf l = buf := by
    intro l hl buf
    cases hparse : parseMdLine l with
    | none => rw [layLine,hparse]
    | some e => exact absurd ((rowStart_of_parse hparse).mono (infix_of_mem_splitOn hl)) h
  rw [layText]
  generalize s.splitOn '\n' = lines at hline
  induction lines with
  | nil => rfl
  | cons l lines ih =>
    rw [forall_mem_cons] at hline
    rw [foldl_cons,hline.1,ih hline.2]

/-! ### A display -/

lemma layText_append (s t : List Char) :
    layText flashSize (s++ '\n' :: t) allData =
      layText flashSize t (layText flashSize s allData) := by
  rw [layText,List.splitOn,splitOnP_append_cons _ _ (by decide),foldl_append]
  rfl

lemma mdLine_no_newline (addr : ℕ) (data : List Byte) : '\n' ∉ mdLine addr data :=
  fun h => absurd (mdLine_not_break h) (by decide)

lemma layText_row {mem : ℕ → Byte} {k r : ℕ} (hsize : flashSize = 16*k+(16+r))
    (haddr : base+16*k < 2^32) (hgraphic : ∃ i < 16,mem (base+16*k+i) ≠ 0x20) {cr : List Char}
    (hcr : '\n' ∉ cr) :
    layText flashSize (mdLine (base+16*k) (slice mem (base+16*k) 16)++cr)
        (slice mem base (16*k)++List.replicate (16+r) 0) =
      slice mem base (16*(k+1))++List.replicate r 0 := by
  have hnl : '\n' ∉ mdLine (base+16*k) (slice mem (base+16*k) 16)++cr :=
    not_mem_append (mdLine_no_newline _ _) hcr
  have hgraph : ∃ b ∈ slice mem (base+16*k) 16,b ≠ 0x20 := by
    obtain ⟨i,hi,hb⟩ := hgraphic
    exact ⟨_,mem_map_of_mem (mem_range.mpr hi),hb⟩
  rw [layText,splitOn_of_not_mem hnl,foldl_cons,foldl_nil,layLine,
    parseMdLine_mdLine haddr (slice_length _ _ _) hgraph]
  simp only [slice_length,Nat.add_sub_cancel_left]
  rw [if_pos ⟨Nat.le_add_right _ _,by omega⟩,place_next]

lemma rows_succ (mem : ℕ → Byte) (addr m : ℕ) :
    rows mem addr (m+1) = (addr,slice mem addr 16)::rows mem (addr+16) m := by
  rw [rows,range_succ_eq_map,map_cons,map_map,rows]
  refine congrArg₂ List.cons rfl (map_congr_left fun i _ => ?_)
  simp only [Function.comp_apply,Nat.mul_succ,Nat.add_comm (16*i) 16,Nat.add_assoc]

def Graphic (mem : ℕ → Byte) (addr m : ℕ) : Prop :=
  ∀ k < m,∃ i < 16,mem (addr+16*k+i) ≠ 0x20

lemma layText_rows {mem : ℕ → Byte} {cr : List Char} (hcr : '\n' ∉ cr) (tail : List Char)
    (m k r : ℕ) (hsize : flashSize = 16*k+(16*m+r)) (haddr : base+flashSize ≤ 2^32)
    (hgraphic : Graphic mem (base+16*k) m) :
    layText flashSize (withEol (cr++['\n']) (mdLines mem (base+16*k) (16*m))++tail)
        (slice mem base (16*k)++List.replicate (16*m+r) 0) =
      layText flashSize tail (slice mem base (16*(k+m))++List.replicate r 0) := by
  simp only [mdLines_eq]
  induction m generalizing k with
  | zero => rw [Nat.mul_zero,Nat.zero_add]; rfl
  | succ m ih =>
    have hlen : 16*(m+1)+r = 16+(16*m+r) := by omega
    have hnext : base+16*k+16 = base+16*(k+1) := by omega
    have hfirst := layText_row (k := k) (r := 16*m+r) (hsize.trans (by omega)) (by omega)
      (by simpa using hgraphic 0 (Nat.succ_pos m)) hcr
    have hrest : Graphic mem (base+16*(k+1)) m := by
      intro j hj
      obtain ⟨i,hi,hb⟩ := hgraphic (j+1) (Nat.succ_lt_succ hj)
      refine ⟨i,hi,?_⟩
      rwa [show base+16*k+16*(j+1)+i = base+16*(k+1)+16*j+i by omega] at hb
    rw [rows_succ,map_cons,withEol,flatMap_cons,← withEol,← append_assoc,
      append_assoc _ _ tail,append_assoc,singleton_append,layText_append,hlen,
      hfirst,hnext,ih (k+1) (by omega) hrest,Nat.add_right_comm,Nat.add_assoc]

end Defib.WebDisplay
