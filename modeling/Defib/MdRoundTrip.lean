import Mathlib.Data.List.TakeWhile
import Mathlib.Data.Nat.Digits.Lemmas
import Defib.MdDisplay

/-!
# A byte string through `md.b` and back

The display of a byte string at an address: rows of sixteen bytes and a shorter last one,
whose missing bytes are blanks. The parser reads up to sixteen bytes from every row, wherever
they stand, so a short row is read correctly unless its characters go on like bytes: two
hexadecimal digits behind any blanks.
-/
namespace Defib.MdRoundTrip
open List Words BlockMemory PyText MdOutput MdDisplay

def addrField (a : ℕ) : List Char := (Nat.digits 16 (a/2^32)).reverse.map Nat.digitChar++hexAddr a

/-- A row of up to sixteen bytes, with `gap` blanks before the characters. -/
def mdRow (gap addr : ℕ) (data : List Byte) : List Char :=
  addrField addr++ ':' :: hexColumn data++
    (List.replicate (3*(16-data.length)+gap) ' '++data.map column)

def rowOf (data : List Byte) (i : ℕ) : List Byte := (data.drop (16*i)).take 16

def mdText (eol : List Char) (gap addr : ℕ) (data : List Byte) : List Char :=
  withEol eol ((List.range ((data.length+15)/16)).map fun i => mdRow gap (addr+16*i) (rowOf data i))

/-- The characters of a row start like a byte. -/
def looksLikeByte (row : List Byte) : Bool :=
  (hexPair ((row.map column).dropWhile (· == ' '))).isSome

def lastRow (data : List Byte) : ℕ := (data.length-1)/16

variable {T : CharTable}

/-! ### What stands behind the bytes of a row -/

lemma not_isHex_of_space {c : Char} (h : T.space c = true) : isHex c = false := by
  cases hc : isHex c with
  | false => rfl
  | true =>
    have hrange : 33 ≤ c.toNat ∧ c.toNat < 128 := by
      simp only [isHex,Bool.or_eq_true,Bool.and_eq_true,decide_eq_true_eq,Char.le_def,
        UInt32.le_iff_toNat_le] at hc
      have h0 : '0'.val.toNat = 48 := rfl
      have h9 : '9'.val.toNat = 57 := rfl
      have ha : 'a'.val.toNat = 97 := rfl
      have hf : 'f'.val.toNat = 102 := rfl
      have hA : 'A'.val.toNat = 65 := rfl
      have hF : 'F'.val.toNat = 70 := rfl
      have hval : c.toNat = c.val.toNat := rfl
      omega
    rw [not_space_of_graphic hrange.1 hrange.2] at h
    exact absurd h (by decide)

lemma hexPair_append_blanks {blanks : List Char} (h : ∀ c ∈ blanks,T.space c = true)
    (s : List Char) : hexPair (s++blanks) = (hexPair s).map fun p => (p.1,p.2++blanks) := by
  have hno : ∀ c ∈ blanks,isHex c = false := fun c hc => not_isHex_of_space (h c hc)
  rcases s with _ | ⟨a,_ | ⟨b,rest⟩⟩
  · rcases blanks with _ | ⟨a,_ | ⟨b,rest⟩⟩
    · rfl
    · rfl
    · simp [hexPair,hno a mem_cons_self]
  · rcases blanks with _ | ⟨b,rest⟩
    · rfl
    · simp [hexPair,hno b mem_cons_self]
  · simp only [cons_append,hexPair]
    split_ifs
    · rfl
    · rfl

lemma moreBytes_trim {blanks : List Char} (h : ∀ c ∈ blanks,T.space c = true) (n : ℕ)
    (s : List Char) : moreBytes T n (s++blanks) = moreBytes T n s := by
  induction n generalizing s with
  | zero => rfl
  | succ n ih =>
    by_cases hempty : s.dropWhile T.space = []
    · -- nothing but blanks is left
      have hnone : (s++blanks).dropWhile T.space = [] := by
        rw [dropWhile_append,hempty]
        exact dropWhile_eq_nil_iff.mpr h
      simp [moreBytes,hnone,hempty,hexPair]
    · have hsome : (s++blanks).dropWhile T.space = s.dropWhile T.space++blanks := by
        rw [dropWhile_append,if_neg (by rwa [List.isEmpty_iff])]
      have hlen : (s.dropWhile T.space++blanks).length < (s++blanks).length ↔
          (s.dropWhile T.space).length < s.length := by
        simp only [length_append]
        omega
      simp only [moreBytes,hsome,hlen,hexPair_append_blanks h]
      cases hexPair (s.dropWhile T.space) with
      | none => rfl
      | some p => simp only [Option.map_some,ih]

lemma space_column (b : Byte) : T.space (column b) = (column b == ' ') := by
  obtain ⟨hlo,hhi⟩ := column_printable b
  by_cases hblank : column b = ' '
  · rw [hblank,space_blank]
    rfl
  · have hne : (column b).toNat ≠ 32 := fun h => hblank (Char.ext (UInt32.toNat_inj.mp h))
    rw [not_space_of_graphic (by omega) (by omega)]
    exact (beq_eq_false_iff_ne.mpr hblank).symm

lemma dropWhile_column (row : List Byte) :
    (row.map column).dropWhile T.space = (row.map column).dropWhile (· == ' ') := by
  induction row with
  | nil => rfl
  | cons b row ih => simp only [map_cons,dropWhile_cons,space_column,ih]

/-- What the parser takes for bytes behind those of a row. -/
def beyond (T : CharTable) (gap : ℕ) (row : List Byte) : List Byte :=
  moreBytes T (16-row.length) (List.replicate (3*(16-row.length)+gap) ' '++row.map column)

variable {gap : ℕ}

lemma beyond_eq_nil_iff (hgap : 0 < gap) (row : List Byte) :
    beyond T gap row = [] ↔ 16 ≤ row.length ∨ looksLikeByte row = false := by
  rcases Nat.lt_or_ge row.length 16 with hlt | hge
  · obtain ⟨n,hn⟩ : ∃ n,16-row.length = n+1 := ⟨15-row.length,by omega⟩
    have hblanks : (List.replicate (3*(n+1)+gap) ' ').dropWhile T.space = [] := by
      refine dropWhile_eq_nil_iff.mpr fun c hc => ?_
      rw [eq_of_mem_replicate hc]
      exact space_blank
    have hdrop : (List.replicate (3*(n+1)+gap) ' '++row.map column).dropWhile T.space =
        (row.map column).dropWhile (· == ' ') := by
      rw [dropWhile_append,hblanks,← dropWhile_column]
      rfl
    have hlen : ((row.map column).dropWhile (· == ' ')).length <
        (List.replicate (3*(n+1)+gap) ' '++row.map column).length := by
      have hle := length_dropWhile_le (· == ' ') (row.map column)
      rw [length_append,length_replicate]
      omega
    rw [beyond,hn,moreBytes]
    simp only [hdrop,if_pos hlen,looksLikeByte]
    cases hexPair ((row.map column).dropWhile (· == ' ')) with
    | none => simp
    | some p => simp [hlt]
  · rw [beyond,Nat.sub_eq_zero_of_le hge]
    exact iff_of_true rfl (.inl hge)

/-! ### One row -/

lemma mem_addrField {a : ℕ} {c : Char} (h : c ∈ addrField a) : ∃ v < 16,c = Nat.digitChar v := by
  rcases mem_append.mp h with h | h
  · obtain ⟨v,hv,rfl⟩ := mem_map.mp h
    exact ⟨v,Nat.digits_lt_base (by decide) (mem_reverse.mp hv),rfl⟩
  · exact mem_hexAddr h

lemma addrField_of_lt {a : ℕ} (h : a < 2^32) : addrField a = hexAddr a := by
  rw [addrField,Nat.div_eq_of_lt h]
  rfl

lemma addrField_length {a : ℕ} (h : 2^32 ≤ a) : 9 ≤ (addrField a).length := by
  have hne : Nat.digits 16 (a/2^32) ≠ [] :=
    Nat.digits_ne_nil_iff_ne_zero.mpr (Nat.div_ne_zero_iff.mpr ⟨by decide,h⟩)
  have hpos := length_pos_of_ne_nil hne
  rw [addrField,length_append,length_map,length_reverse,hexAddr_length]
  omega

variable {row : List Byte}

lemma strip_mdRow (gap addr : ℕ) (hne : row ≠ []) : ∃ t blanks,
    strip T (mdRow gap addr row) = addrField addr++ ':' :: (hexColumn row++t) ∧
      List.replicate (3*(16-row.length)+gap) ' '++row.map column = t++blanks ∧
      ∀ c ∈ blanks,T.space c = true := by
  obtain ⟨a,m,hcons⟩ : ∃ a m,addrField addr = a::m := by
    cases haddr : addrField addr with
    | nil =>
      have hlen := congrArg List.length haddr
      rw [addrField,length_append,hexAddr_length] at hlen
      simp at hlen
    | cons a m => exact ⟨a,m,rfl⟩
  obtain ⟨v,hv,hlast⟩ := hexColumn_getLast row hne (addrField addr++[':'])
  obtain ⟨x,hx,hfirst⟩ := mem_addrField (hcons ▸ mem_cons_self : a ∈ addrField addr)
  obtain ⟨t,blanks,ht,hrest,hblanks⟩ := strip_append_trim (T := T)
    (s := addrField addr++ ':' :: hexColumn row)
    (by rw [hcons]; rfl) (by rw [← hlast]; simp) (hfirst ▸ digit_not_space hx) (digit_not_space hv)
    (List.replicate (3*(16-row.length)+gap) ' '++row.map column)
  exact ⟨t,blanks,by rw [mdRow,ht,append_assoc,cons_append],hrest,hblanks⟩

lemma parseMdLine_mdRow (gap : ℕ) {addr : ℕ} (haddr : addr < 2^32)
    (hne : row ≠ []) (hlen : row.length ≤ 16) :
    parseMdLine T (mdRow gap addr row) = some (addr,row++beyond T gap row) := by
  cases row with
  | nil => exact absurd rfl hne
  | cons b rest =>
    obtain ⟨t,blanks,hstrip,htail,hblanks⟩ := strip_mdRow (T := T) gap addr hne
    rw [addrField_of_lt haddr] at hstrip
    have hcount : rest.length+(16-(b::rest).length) = 15 := by
      rw [length_cons] at hlen ⊢
      omega
    rw [parseMdLine_of_strip haddr hcount hstrip,beyond,htail,moreBytes_trim hblanks]
    rfl

lemma parseMdLine_long (gap : ℕ) {addr : ℕ} (haddr : 2^32 ≤ addr)
    (hne : row ≠ []) : parseMdLine T (mdRow gap addr row) = none := by
  obtain ⟨t,blanks,hstrip,-,-⟩ := strip_mdRow (T := T) gap addr hne
  have hlong : 8 < (addrField addr).length := addrField_length haddr
  obtain ⟨v,hv,hdigit⟩ := mem_addrField (getElem_mem hlong)
  have hcolon : (addrField addr++ ':' :: (hexColumn row++t))[8]? ≠ some ':' := by
    rw [getElem?_append_left hlong,getElem?_eq_getElem hlong,hdigit]
    intro h
    have hspec := (digitChar_spec v hv).1
    rw [Option.some.inj h] at hspec
    exact absurd hspec (by decide)
  rw [parseMdLine,hstrip]
  exact if_neg fun h => hcolon h.2.2.1

/-! ### All rows -/

lemma mdRow_not_break {gap addr : ℕ} {c : Char} (h : c ∈ mdRow gap addr row) :
    isBreak c = false := by
  have hdigit : ∀ v < 16,isBreak (Nat.digitChar v) = false := by
    intro v hv
    obtain ⟨-,-,hhi,hlo,-⟩ := digitChar_spec v hv
    exact not_break_of_printable (by omega) hhi
  simp only [mdRow,mem_append,mem_cons] at h
  rcases h with (h | h | h) | h | h
  · obtain ⟨v,hv,rfl⟩ := mem_addrField h
    exact hdigit v hv
  · rw [h]
    decide
  · rcases hexColumn_mem h with rfl | ⟨v,hv,rfl⟩
    · decide
    · exact hdigit v hv
  · rw [eq_of_mem_replicate h]
    decide
  · obtain ⟨b,-,rfl⟩ := mem_map.mp h
    exact not_break_of_printable (column_printable b).1 (column_printable b).2

section Rows
variable {data : List Byte}

/-- The string as memory from `addr` on. -/
def memOf (addr : ℕ) (data : List Byte) : ℕ → Byte := fun x => data.getD (x-addr) 0

lemma slice_memOf (addr : ℕ) {i n : ℕ} (h : i+n ≤ data.length) :
    slice (memOf addr data) (addr+i) n = (data.drop i).take n := by
  apply ext_getElem
  · rw [slice_length,length_take,length_drop]
    omega
  · intro k hk _
    rw [slice_length] at hk
    simp [memOf,slice,getD_eq_getElem?_getD,Nat.add_assoc,
      getElem?_eq_getElem (show i+k < data.length by omega)]

lemma rowOf_length (i : ℕ) : (rowOf data i).length = min 16 (data.length-16*i) := by
  rw [rowOf,length_take,length_drop]

lemma rowOf_ne_nil {i : ℕ} (h : 16*i < data.length) : rowOf data i ≠ [] := by
  have hlen : (rowOf data i).length = min 16 (data.length-16*i) := rowOf_length i
  intro hnil
  rw [hnil,length_nil] at hlen
  omega

lemma parseMdLine_whole (hgap : 0 < gap) {addr i : ℕ} (haddr : addr+16*i < 2^32)
    (hi : 16*i+16 ≤ data.length) : parseMdLine T (mdRow gap (addr+16*i) (rowOf data i)) =
      some (addr+16*i,slice (memOf addr data) (addr+16*i) 16) := by
  have hlen : (rowOf data i).length = 16 := by
    rw [rowOf_length]
    omega
  have hnil : beyond T gap (rowOf data i) = [] := (beyond_eq_nil_iff hgap _).mpr (.inl hlen.ge)
  rw [parseMdLine_mdRow gap haddr (rowOf_ne_nil (by omega)) hlen.le,hnil,append_nil,
    slice_memOf addr hi,rowOf]

lemma filterMap_whole (hgap : 0 < gap) {addr m : ℕ} (haddr : ∀ i < m,addr+16*i < 2^32)
    (hm : 16*m ≤ data.length) : ((List.range m).map fun i => mdRow gap (addr+16*i)
      (rowOf data i)).filterMap (parseMdLine T) = rows (memOf addr data) addr m := by
  induction m with
  | zero => rfl
  | succ m ih =>
    have hrow := parseMdLine_whole (T := T) hgap (haddr m (Nat.lt_succ_self m))
      (show 16*m+16 ≤ data.length by omega)
    rw [rows,range_succ,map_append,map_append,filterMap_append,
      ih (fun i hi => haddr i (Nat.lt_succ_of_lt hi)) (by omega),map_singleton,
      filterMap_cons_some hrow]
    rfl

lemma layEntries_snoc (mem : ℕ → Byte) (addr k : ℕ) (row : List Byte) :
    layEntries (rows mem addr k++[(addr+16*k,row)]) = slice mem addr (16*k)++row := by
  have hfirst : ((rows mem addr k++[(addr+16*k,row)]).head?).map Prod.fst = some addr := by
    cases k with
    | zero => rfl
    | succ k =>
      rw [rows,range_succ_eq_map]
      rfl
  obtain ⟨first,hhead,rfl⟩ := Option.map_eq_some_iff.mp hfirst
  have hlast : (rows mem first.1 k++[(first.1+16*k,row)]).getLast? = some (first.1+16*k,row) :=
    getLast?_append_cons ..
  simp only [layEntries,hhead,hlast,Nat.add_sub_cancel_left,foldl_append,fold_rows,
    foldl_cons,foldl_nil]
  rw [place,take_left' (slice_length _ _ _),drop_of_length_le,append_nil]
  simp

lemma rows_snoc_sorted (mem : ℕ → Byte) (addr k : ℕ) (row : List Byte) :
    (rows mem addr k++[(addr+16*k,row)]).Pairwise fun a b => a.1 ≤ b.1 := by
  refine pairwise_append.mpr ⟨rows_sorted mem addr k,pairwise_singleton _ _,?_⟩
  intro e he e' he'
  obtain ⟨i,hi,rfl⟩ := mem_map.mp he
  have hlt := mem_range.mp hi
  rw [mem_singleton.mp he']
  simp only
  omega

lemma splitlines_mdText {eol : List Char} (heol : IsEol eol) (gap addr : ℕ) :
    splitlines (mdText eol gap addr data) = (List.range ((data.length+15)/16)).map fun i =>
      mdRow gap (addr+16*i) (rowOf data i) := by
  have hbreak : ∀ line ∈ (List.range ((data.length+15)/16)).map fun i =>
      mdRow gap (addr+16*i) (rowOf data i),∀ c ∈ line,isBreak c = false := by
    intro line hline c hc
    obtain ⟨i,-,rfl⟩ := mem_map.mp hline
    exact mdRow_not_break hc
  have hsplit := splitlines_withEol heol hbreak []
  rw [append_nil] at hsplit
  exact hsplit.trans (append_nil _)

variable (hne : data ≠ [])
include hne

lemma lastRow_spec : 16*lastRow data < data.length ∧ data.length ≤ 16*lastRow data+16 ∧
    (data.length+15)/16 = lastRow data+1 := by
  have hpos := length_pos_of_ne_nil hne
  rw [lastRow]
  omega

lemma parseMdOutput_mdText {eol : List Char} (heol : IsEol eol) (hgap : 0 < gap)
    {addr : ℕ} (haddr : addr+16*lastRow data < 2^32) :
    parseMdOutput T (mdText eol gap addr data) =
      data++beyond T gap (rowOf data (lastRow data)) := by
  obtain ⟨hlo,hhi,hcount⟩ := lastRow_spec hne
  have hlast := parseMdLine_mdRow (T := T) gap haddr (rowOf_ne_nil hlo)
    (by rw [rowOf_length]; omega)
  rw [parseMdOutput,splitlines_mdText heol,hcount,range_succ,map_append,
    filterMap_append,filterMap_whole hgap (fun i hi => by omega) (by omega),map_singleton,
    filterMap_cons_some hlast,filterMap_nil,
    (rows_snoc_sorted _ _ _ _).insertionSort_eq,layEntries_snoc]
  have hstart : slice (memOf addr data) (addr+0) (16*lastRow data) =
      (data.drop 0).take (16*lastRow data) := slice_memOf addr (by omega)
  rw [Nat.add_zero,drop_zero] at hstart
  have hend : rowOf data (lastRow data) = data.drop (16*lastRow data) := by
    rw [rowOf,take_of_length_le]
    rw [length_drop]
    omega
  rw [hstart,← append_assoc,hend,take_append_drop]

lemma parseMdOutput_long {eol : List Char} (heol : IsEol eol) (hgap : 0 < gap)
    {addr : ℕ} (haddr : 2^32 ≤ addr+16*lastRow data) :
    (parseMdOutput T (mdText eol gap addr data)).length < data.length := by
  obtain ⟨hlo,hhi,hcount⟩ := lastRow_spec hne
  obtain ⟨j,hj⟩ : ∃ j,(2^32-addr+15)/16 = j := ⟨_,rfl⟩
  obtain ⟨d,hd⟩ : ∃ d,lastRow data+1 = j+d := ⟨lastRow data+1-j,by omega⟩
  have hnone : ((List.range d).map fun i => mdRow gap (addr+16*(j+i))
      (rowOf data (j+i))).filterMap (parseMdLine T) = [] := by
    rw [filterMap_eq_nil_iff]
    intro line hline
    obtain ⟨i,hi,rfl⟩ := mem_map.mp hline
    have hlt := mem_range.mp hi
    exact parseMdLine_long gap (by omega) (rowOf_ne_nil (by omega))
  have hparsed : (splitlines (mdText eol gap addr data)).filterMap (parseMdLine T) =
      rows (memOf addr data) addr j := by
    have hrange : (List.range (j+d)).map (fun i => mdRow gap (addr+16*i) (rowOf data i)) =
        (List.range j).map (fun i => mdRow gap (addr+16*i) (rowOf data i))++
          (List.range d).map (fun i => mdRow gap (addr+16*(j+i)) (rowOf data (j+i))) := by
      rw [range_add,map_append,map_map]
      rfl
    rw [splitlines_mdText heol,hcount,hd,hrange,filterMap_append,hnone,append_nil]
    rcases Nat.lt_or_ge addr (2^32) with hlt | hge
    · exact filterMap_whole hgap (fun i hi => by omega) (by omega)
    · have hzero : j = 0 := by omega
      rw [hzero]
      rfl
  rw [parseMdOutput,hparsed,(rows_sorted _ _ _).insertionSort_eq,layEntries_rows,slice_length]
  omega

end Rows

/-- A byte string comes back from its display unless the last row has an address of more than
eight digits or is short and goes on with characters that look like a byte. -/
theorem md_round_trip_iff (T : CharTable) {eol : List Char} (heol : IsEol eol) {gap : ℕ}
    (hgap : 0 < gap) (addr : ℕ) {data : List Byte} (hne : data ≠ []) :
    parseMdOutput T (mdText eol gap addr data) = data ↔ addr+16*lastRow data < 2^32 ∧
      ((rowOf data (lastRow data)).length = 16 ∨
        looksLikeByte (rowOf data (lastRow data)) = false) := by
  have hlen : (rowOf data (lastRow data)).length = 16 ↔
      16 ≤ (rowOf data (lastRow data)).length := by
    rw [rowOf_length]
    omega
  rcases Nat.lt_or_ge (addr+16*lastRow data) (2^32) with haddr | haddr
  · rw [parseMdOutput_mdText hne heol hgap haddr,append_right_eq_self,beyond_eq_nil_iff hgap,hlen]
    exact (and_iff_right haddr).symm
  · have hshort := parseMdOutput_long (T := T) hne heol hgap haddr
    constructor
    · intro heq
      rw [heq] at hshort
      exact absurd hshort (Nat.lt_irrefl _)
    · rintro ⟨hlt,-⟩
      omega

/-- `md.b 0x82000000 0x5` of five bytes whose characters are `Hello`. -/
theorem hello_comes_back :
    parseMdOutput asciiTable (mdText ['\r','\n'] 5 0x82000000 [0x48,0x65,0x6C,0x6C,0x6F]) =
      [0x48,0x65,0x6C,0x6C,0x6F] :=
  (md_round_trip_iff asciiTable (.inr rfl) (by decide) 0x82000000 (cons_ne_nil _ _)).mpr
    ⟨by decide,.inr (by decide)⟩

/-- The two bytes `ab` come back as three: their characters are read as a byte. -/
theorem letters_read_as_byte :
    parseMdOutput asciiTable (mdText ['\r','\n'] 5 0x82000000 [0x61,0x62]) ≠ [0x61,0x62] := by
  rw [parseMdOutput_mdText (cons_ne_nil _ _) (.inr rfl) (by decide) (by decide)]
  intro heq
  have hnil := append_right_eq_self.mp heq
  exact absurd hnil (by decide)

end Defib.MdRoundTrip
