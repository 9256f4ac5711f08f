import Defib.BlockMemory
import Defib.MdOutput

/-!
# A memory display and what the parser makes of it

What `md.b` prints: on every line the address in eight hexadecimal digits, a colon,
up to sixteen bytes and, after at least four blanks, the bytes as characters. The lines of
whole rows, between an echo and a prompt that are no rows themselves, are parsed to
the bytes displayed.
-/
namespace Defib.MdDisplay
open List Words BlockMemory PyText MdOutput

def hexByte (b : Byte) : List Char := [Nat.digitChar (b.toNat/16),Nat.digitChar (b.toNat%16)]

def hexAddr (a : ℕ) : List Char := (List.range 8).map fun i => Nat.digitChar (a/16^(7-i)%16)

def column (b : Byte) : Char :=
  if 0x20 ≤ b.toNat ∧ b.toNat ≤ 0x7e then Char.ofNat b.toNat else '.'

def hexColumn (data : List Byte) : List Char := data.flatMap fun b => ' ' :: hexByte b

def mdLine (addr : ℕ) (data : List Byte) : List Char :=
  hexAddr addr++ ':' :: hexColumn data++
    (List.replicate (3*(16-data.length)+4) ' '++data.map column)

def mdLines (mem : ℕ → Byte) (addr n : ℕ) : List (List Char) :=
  (List.range ((n+15)/16)).map fun i =>
    mdLine (addr+16*i) (slice mem (addr+16*i) (min 16 (n-16*i)))

def IsEol (eol : List Char) : Prop := eol = ['\n'] ∨ eol = ['\r','\n']

lemma crlf_isEol : IsEol ['\r','\n'] := .inr rfl

def withEol (eol : List Char) (lines : List (List Char)) : List Char := lines.flatMap (·++eol)

/-! ### Digits -/

lemma digitChar_spec : ∀ v < 16,isHex (Nat.digitChar v) = true ∧
    hexDigit (Nat.digitChar v) = v ∧ (Nat.digitChar v).toNat < 127 ∧
    33 ≤ (Nat.digitChar v).toNat ∧ Nat.digitChar v ≠ '#' := by
  decide

variable {c : Char}

lemma not_space_of_graphic {T : CharTable} (hlo : 33 ≤ c.toNat)
    (hhi : c.toNat < 128) : T.space c = false := by
  rw [T.space_ascii c hhi]
  have hne : c ≠ ' ' := by
    rintro rfl
    exact absurd hlo (by decide)
  simp only [hne,decide_false,Bool.false_or,Bool.or_eq_false_iff,Bool.and_eq_false_iff,
    decide_eq_false_iff_not]
  omega

lemma not_break_of_printable (hlo : 32 ≤ c.toNat) (hhi : c.toNat < 127) :
    isBreak c = false := by
  simp only [isBreak,mem_cons,not_mem_nil,or_false,decide_eq_false_iff_not]
  omega

lemma byte_lt (b : Byte) : b.toNat < 256 := b.isLt

lemma hexPair_hexByte (b : Byte) (s : List Char) : hexPair (hexByte b++s) = some (b,s) := by
  have hlt := byte_lt b
  obtain ⟨hhex,hval,-⟩ := digitChar_spec (b.toNat/16) (by omega)
  obtain ⟨hhex',hval',-⟩ := digitChar_spec (b.toNat%16) (by omega)
  have hb : BitVec.ofNat 8 (b.toNat/16*16+b.toNat%16) = b := by
    rw [Nat.div_add_mod' b.toNat 16,BitVec.ofNat_toNat,BitVec.setWidth_eq]
  simp only [hexByte,cons_append,nil_append,hexPair,hhex,hhex',hval,hval',Bool.and_self,
    if_true,hb]

lemma hexAddr_value {a : ℕ} (h : a < 2^32) :
    (hexAddr a).foldl (fun v c => v*16+hexDigit c) 0 = a := by
  have hval (k : ℕ) : hexDigit (Nat.digitChar (a/k%16)) = a/k%16 :=
    (digitChar_spec _ (Nat.mod_lt _ (by decide))).2.1
  simp only [hexAddr,foldl_map,hval]
  simp only [range_eq_range',range'_succ,range'_zero,foldl_cons,foldl_nil]
  omega

lemma mem_hexAddr {a : ℕ} (h : c ∈ hexAddr a) : ∃ v < 16,c = Nat.digitChar v := by
  obtain ⟨i,-,rfl⟩ := mem_map.mp h
  exact ⟨_,Nat.mod_lt _ (by decide),rfl⟩

lemma hexAddr_length (a : ℕ) : (hexAddr a).length = 8 := by
  simp [hexAddr]

lemma hexAddr_all (a : ℕ) : (hexAddr a).all isHex = true := by
  rw [all_eq_true]
  intro c hc
  obtain ⟨u,hu,rfl⟩ := mem_hexAddr hc
  exact (digitChar_spec u hu).1

lemma take_hexAddr (a : ℕ) (r : List Char) : (hexAddr a++ ':' :: r).take 8 = hexAddr a :=
  take_left' (hexAddr_length a)

lemma drop_hexAddr (a : ℕ) (r : List Char) : (hexAddr a++ ':' :: r).drop 9 = r := by
  rw [drop_append,hexAddr_length,drop_of_length_le (by rw [hexAddr_length]; omega)]
  rfl

lemma colon_hexAddr (a : ℕ) (r : List Char) : (hexAddr a++ ':' :: r)[8]? = some ':' := by
  rw [getElem?_append_right (by rw [hexAddr_length]),hexAddr_length]
  rfl

lemma hexColumn_cons (b : Byte) (data : List Byte) (s : List Char) :
    hexColumn (b::data)++s = ' ' :: hexByte b++(hexColumn data++s) := by
  simp [hexColumn]

lemma dropWhile_blank_hexByte {p : Char → Bool} (hblank : p ' ' = true)
    (hdigit : ∀ v < 16,p (Nat.digitChar v) = false) (b : Byte) (s : List Char) :
    (' ' :: hexByte b++s).dropWhile p = hexByte b++s := by
  have hlt := byte_lt b
  have hfirst := hdigit (b.toNat/16) (by omega)
  simp only [cons_append,dropWhile_cons,hblank,if_true,hexByte,hfirst]
  rfl

/-! ### One row -/

section
variable {T : CharTable}

lemma space_blank : T.space ' ' = true := by
  rw [T.space_ascii _ (by decide)]
  decide

lemma digit_not_space {v : ℕ} (h : v < 16) : T.space (Nat.digitChar v) = false :=
  not_space_of_graphic (digitChar_spec v h).2.2.2.1
    (Nat.lt_of_lt_of_le (digitChar_spec v h).2.2.1 (by decide))

lemma dropWhile_hexByte (b : Byte) (s : List Char) :
    (' ' :: hexByte b++s).dropWhile T.space = hexByte b++s :=
  dropWhile_blank_hexByte space_blank (fun _ => digit_not_space) b s

lemma moreBytes_hexColumn (data : List Byte) (n : ℕ) (s : List Char) :
    moreBytes T (data.length+n) (hexColumn data++s) = data++moreBytes T n s := by
  induction data with
  | nil => rw [length_nil,Nat.zero_add]; rfl
  | cons b data ih =>
    have hdrop := dropWhile_hexByte (T := T) b (hexColumn data++s)
    rw [length_cons,Nat.add_right_comm,moreBytes,hexColumn_cons,hdrop]
    simp only [cons_append,length_cons,Nat.lt_succ_self,if_true,hexPair_hexByte,ih]

lemma strip_append_trim {s : List Char} {a b : Char} {m : List Char} (hs : s = a::m)
    (he : s.getLast? = some b) (ha : T.space a = false) (hb : T.space b = false)
    (tail : List Char) : ∃ t blanks,strip T (s++tail) = s++t ∧ tail = t++blanks ∧
      ∀ c ∈ blanks,T.space c = true :=
  stripBy_append_trim hs he ha hb tail

lemma strip_append {s : List Char} {a b : Char} {m : List Char} (hs : s = a::m)
    (he : s.getLast? = some b) (ha : T.space a = false) (hb : T.space b = false)
    (tail : List Char) : ∃ t,strip T (s++tail) = s++t := by
  obtain ⟨t,_,ht,_⟩ := strip_append_trim hs he ha hb tail
  exact ⟨t,ht⟩

lemma hexColumn_getLast (data : List Byte) (hne : data ≠ []) (s : List Char) :
    ∃ v < 16,(s++hexColumn data).getLast? = some (Nat.digitChar v) := by
  obtain ⟨init,b,rfl⟩ : ∃ init b,data = init++[b] := ⟨_,_,(dropLast_append_getLast hne).symm⟩
  refine ⟨b.toNat%16,Nat.mod_lt _ (by decide),?_⟩
  simp [hexColumn,hexByte]

variable {data : List Byte}

lemma strip_mdLine (addr : ℕ) (hne : data ≠ []) :
    ∃ t,strip T (mdLine addr data) = hexAddr addr++ ':' :: (hexColumn data++t) := by
  obtain ⟨a,m,hcons⟩ : ∃ a m,hexAddr addr = a::m := ⟨_,_,rfl⟩
  obtain ⟨v,hv,hlast⟩ := hexColumn_getLast data hne (hexAddr addr++[':'])
  obtain ⟨w,hw,hfirst⟩ := mem_hexAddr (hcons ▸ mem_cons_self : a ∈ hexAddr addr)
  obtain ⟨t,ht⟩ := strip_append (T := T) (s := hexAddr addr++ ':' :: hexColumn data)
    (by rw [hcons]; rfl) (by rw [← hlast]; simp) (hfirst ▸ digit_not_space hw) (digit_not_space hv)
    (List.replicate (3*(16-data.length)+4) ' '++data.map column)
  exact ⟨t,by rw [mdLine,ht,append_assoc,cons_append]⟩

lemma parseMdLine_of_strip {line t : List Char} {addr n : ℕ} {b : Byte} {rest : List Byte}
    (haddr : addr < 2^32) (hrest : rest.length+n = 15)
    (h : strip T line = hexAddr addr++ ':' :: (hexColumn (b::rest)++t)) :
    parseMdLine T line = some (addr,b::(rest++moreBytes T n t)) := by
  rw [parseMdLine,h]
  simp only [take_hexAddr,drop_hexAddr,colon_hexAddr,hexAddr_length,hexAddr_all,hexColumn_cons,
    dropWhile_hexByte,hexPair_hexByte,hexAddr_value haddr,Option.map_some]
  rw [if_pos (by simp),← hrest,moreBytes_hexColumn]

lemma parseMdLine_mdLine {addr : ℕ} (haddr : addr < 2^32)
    (hlen : data.length = 16) : parseMdLine T (mdLine addr data) = some (addr,data) := by
  cases data with
  | nil => cases hlen
  | cons b rest =>
    obtain ⟨t,ht⟩ := strip_mdLine (T := T) addr (cons_ne_nil b rest)
    have hparsed := parseMdLine_of_strip (n := 0) haddr (Nat.succ.inj hlen) ht
    rwa [moreBytes,append_nil] at hparsed

/-! ### The rows of a display -/

lemma linesFrom_plain {line : List Char} (h : ∀ c ∈ line,isBreak c = false)
    (cur s : List Char) : linesFrom cur (line++s) = linesFrom (cur++line) s := by
  induction line generalizing cur with
  | nil => rw [nil_append,append_nil]
  | cons c line ih =>
    obtain ⟨hc,hline⟩ := forall_mem_cons.mp h
    have hne : c ≠ '\r' := by
      rintro rfl
      exact absurd hc (by decide)
    rw [cons_append,linesFrom.eq_3 _ _ _ (fun _ h _ => hne h),if_neg (by rw [hc]; decide),
      ih hline,append_assoc,singleton_append]

variable {eol : List Char}

lemma linesFrom_eol (h : IsEol eol) (cur s : List Char) :
    linesFrom cur (eol++s) = cur::linesFrom [] s := by
  rcases h with rfl | rfl
  · rfl
  · rfl

lemma splitlines_line {eol line : List Char} (heol : IsEol eol)
    (h : ∀ c ∈ line,isBreak c = false) (s : List Char) :
    splitlines (line++(eol++s)) = line::splitlines s := by
  rw [splitlines,linesFrom_plain h,nil_append,linesFrom_eol heol]
  rfl

lemma splitlines_withEol (heol : IsEol eol) {lines : List (List Char)}
    (h : ∀ line ∈ lines,∀ c ∈ line,isBreak c = false) (s : List Char) :
    splitlines (withEol eol lines++s) = lines++splitlines s := by
  induction lines with
  | nil => rfl
  | cons line lines ih =>
    obtain ⟨hline,hlines⟩ := forall_mem_cons.mp h
    rw [withEol,flatMap_cons,append_assoc,append_assoc,splitlines_line heol hline,
      ← withEol,ih hlines]
    rfl

lemma toNat_ofNat_ascii : ∀ n < 127,(Char.ofNat n).toNat = n := by
  decide

lemma column_printable (b : Byte) : 32 ≤ (column b).toNat ∧ (column b).toNat < 127 := by
  unfold column
  split_ifs with h
  · rw [toNat_ofNat_ascii _ (by omega)]
    omega
  · decide

lemma column_eq {b : Byte} (h : column b = c) (hc : c ≠ '.') : b.toNat = c.toNat := by
  unfold column at h
  split_ifs at h with hb
  · rw [← h,toNat_ofNat_ascii _ (by omega)]
  · exact absurd h.symm hc

lemma hexColumn_mem (h : c ∈ hexColumn data) :
    c = ' ' ∨ ∃ v < 16,c = Nat.digitChar v := by
  obtain ⟨b,-,hc⟩ := mem_flatMap.mp h
  have hlt := byte_lt b
  simp only [hexByte,mem_cons,not_mem_nil,or_false] at hc
  rcases hc with rfl | rfl | rfl
  · exact .inl rfl
  · exact .inr ⟨_,by omega,rfl⟩
  · exact .inr ⟨_,Nat.mod_lt _ (by decide),rfl⟩

lemma rowHead_mem {addr k : ℕ}
    (h : c ∈ hexAddr addr++ ':' :: hexColumn data++List.replicate k ' ') :
    c = ' ' ∨ c = ':' ∨ ∃ v < 16,c = Nat.digitChar v := by
  simp only [mem_append,mem_cons] at h
  rcases h with (h | h | h) | h
  · exact .inr (.inr (mem_hexAddr h))
  · exact .inr (.inl h)
  · exact (hexColumn_mem h).imp id Or.inr
  · exact .inl (eq_of_mem_replicate h)

lemma mdLine_eq (addr : ℕ) (data : List Byte) : mdLine addr data =
    (hexAddr addr++ ':' :: hexColumn data++List.replicate (3*(16-data.length)+4) ' ')++
      data.map column := by
  rw [mdLine,append_assoc,append_assoc,append_assoc]

lemma mdLine_not_break {addr : ℕ} (h : c ∈ mdLine addr data) :
    isBreak c = false := by
  rw [mdLine_eq,mem_append] at h
  rcases h with h | h
  · rcases rowHead_mem h with rfl | rfl | ⟨v,hv,rfl⟩
    · decide
    · decide
    · obtain ⟨-,-,hlt,hle,-⟩ := digitChar_spec v hv
      exact not_break_of_printable (by omega) hlt
  · obtain ⟨b,-,rfl⟩ := mem_map.mp h
    exact not_break_of_printable (column_printable b).1 (column_printable b).2

lemma infix_withEol {eol line : List Char} {lines : List (List Char)} (h : line ∈ lines) :
    line <:+: withEol eol lines := by
  obtain ⟨before,after,rfl⟩ := append_of_mem h
  refine ⟨withEol eol before,eol++withEol eol after,?_⟩
  simp [withEol]

lemma mem_withEol {lines : List (List Char)}
    (h : c ∈ withEol eol lines) : c ∈ eol ∨ ∃ line ∈ lines,c ∈ line := by
  obtain ⟨line,hline,hc⟩ := mem_flatMap.mp h
  rcases mem_append.mp hc with hc | hc
  · exact .inr ⟨line,hline,hc⟩
  · exact .inl hc

/-! ### The bytes of a display -/

def rows (mem : ℕ → Byte) (addr m : ℕ) : List (ℕ × List Byte) :=
  (List.range m).map fun i => (addr+16*i,slice mem (addr+16*i) 16)

lemma rows_sorted (mem : ℕ → Byte) (addr m : ℕ) :
    (rows mem addr m).Pairwise fun a b => a.1 ≤ b.1 := by
  rw [rows,pairwise_map]
  exact pairwise_lt_range.imp fun h => by simp only; omega

lemma place_next (mem : ℕ → Byte) (addr k r : ℕ) :
    place (slice mem addr (16*k)++List.replicate (16+r) 0) (16*k) (slice mem (addr+16*k) 16) =
      slice mem addr (16*(k+1))++List.replicate r 0 := by
  rw [place,slice_length,take_left' (slice_length _ _ _),
    ← drop_drop,drop_left' (slice_length _ _ _),drop_replicate,Nat.mul_succ,
    slice_add,Nat.add_sub_cancel_left]

lemma fold_rows (mem : ℕ → Byte) (addr k r : ℕ) :
    (rows mem addr k).foldl (fun buf e => place buf (e.1-addr) e.2) (List.replicate (16*k+r) 0) =
      slice mem addr (16*k)++List.replicate r 0 := by
  induction k generalizing r with
  | zero => rw [Nat.mul_zero,Nat.zero_add]; rfl
  | succ k ih =>
    have hrows : rows mem addr (k+1) = rows mem addr k++[(addr+16*k,slice mem (addr+16*k) 16)] := by
      rw [rows,rows,range_succ,map_append,map_singleton]
    rw [hrows,foldl_append,Nat.mul_succ,Nat.add_assoc,ih,foldl_cons,foldl_nil,
      Nat.add_sub_cancel_left,place_next,Nat.mul_succ]

lemma layEntries_rows (mem : ℕ → Byte) (addr m : ℕ) :
    layEntries (rows mem addr m) = slice mem addr (16*m) := by
  cases m with
  | zero => rfl
  | succ m =>
    have hhead : (rows mem addr (m+1)).head? = some (addr,slice mem addr 16) := by
      rw [rows,range_succ_eq_map]
      rfl
    have hlast : (rows mem addr (m+1)).getLast? =
        some (addr+16*m,slice mem (addr+16*m) 16) := by
      simp [rows,range_succ]
    have hsize : addr+16*m-addr+16 = 16*(m+1)+0 := by omega
    simp only [layEntries,hhead,hlast,slice_length,hsize]
    rw [fold_rows mem addr (m+1) 0,replicate_zero,append_nil]

lemma mdLines_eq (mem : ℕ → Byte) (addr m : ℕ) :
    mdLines mem addr (16*m) = (rows mem addr m).map fun e => mdLine e.1 e.2 := by
  have hcount : (16*m+15)/16 = m := by omega
  rw [mdLines,hcount,rows,map_map]
  refine map_congr_left fun i hi => ?_
  have hlt := mem_range.mp hi
  rw [Nat.min_eq_left (by omega)]
  rfl

end

end Defib.MdDisplay
