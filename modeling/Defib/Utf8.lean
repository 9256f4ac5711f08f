import Mathlib.Data.BitVec
import Mathlib.Data.List.Basic
import Mathlib.Tactic.Common

/-!
# UTF-8 text

The encoder is that of the core library, over lists of bytes. The decoder never fails:
bytes that do not belong to a character are replaced by U+FFFD, one for each longest
beginning of a character. Text that was encoded comes back unchanged.
-/
namespace Defib.Utf8
open List

abbrev Text := List Char

def encodeChar (c : Char) : List (BitVec 8) := (String.utf8EncodeChar c).map UInt8.toBitVec

def encode (s : Text) : List (BitVec 8) := s.flatMap encodeChar

/-- U+FFFD. -/
def replacement : Char := Char.ofNat 0xFFFD

/-- What a first byte announces. -/
structure Lead where
  bits : ℕ
  tails : ℕ
  low : ℕ
  high : ℕ

/-- `low` and `high` bound the second byte: there are no overlong forms and no surrogates. -/
def lead (b : ℕ) : Option Lead :=
  if b < 0x80 then some ⟨b,0,0x80,0xBF⟩
  else if b < 0xC2 then none
  else if b < 0xE0 then some ⟨b%32,1,0x80,0xBF⟩
  else if b < 0xF0 then
    some ⟨b%16,2,if b = 0xE0 then 0xA0 else 0x80,if b = 0xED then 0x9F else 0xBF⟩
  else if b < 0xF5 then
    some ⟨b%8,3,if b = 0xF0 then 0x90 else 0x80,if b = 0xF4 then 0x8F else 0xBF⟩
  else none

/-- Read the bytes a first byte announced: the code point, if they are all there, and the
number of bytes that fitted. -/
def readTails : (tails low high acc : ℕ) → List (BitVec 8) → Option ℕ × ℕ
  | 0,_,_,acc,_ => (some acc,0)
  | _+1,_,_,_,[] => (none,0)
  | n+1,low,high,acc,b::bs =>
    if low ≤ b.toNat ∧ b.toNat ≤ high then
      let r := readTails n 0x80 0xBF (acc*64+b.toNat%64) bs
      (r.1,r.2+1)
    else (none,0)

/-- One character, and the number of bytes it takes after the first. -/
def decodeChar (b : BitVec 8) (bs : List (BitVec 8)) : Char × ℕ :=
  match lead b.toNat with
  | none => (replacement,0)
  | some l =>
    let r := readTails l.tails l.low l.high l.bits bs
    (r.1.elim replacement Char.ofNat,r.2)

/-- Every character takes a byte, so the number of bytes is enough fuel. -/
def decodeLoop : ℕ → List (BitVec 8) → Text
  | 0,_ => []
  | _+1,[] => []
  | n+1,b::bs => (decodeChar b bs).1 :: decodeLoop n (bs.drop (decodeChar b bs).2)

def decode (bytes : List (BitVec 8)) : Text := decodeLoop bytes.length bytes

lemma encode_cons (c : Char) (s : Text) : encode (c::s) = encodeChar c++encode s := rfl

lemma decodeLoop_fuel (n extra : ℕ) (bytes : List (BitVec 8)) (h : bytes.length ≤ n) :
    decodeLoop (n+extra) bytes = decodeLoop n bytes := by
  induction n generalizing bytes with
  | zero =>
    rw [eq_nil_of_length_eq_zero (Nat.le_zero.mp h),Nat.zero_add]
    cases extra with
    | zero => rfl
    | succ extra => rfl
  | succ n ih =>
    rw [Nat.succ_add]
    cases bytes with
    | nil => rfl
    | cons b bs =>
      rw [length_cons] at h
      rw [decodeLoop,decodeLoop,ih]
      rw [length_drop]
      omega

lemma decode_cons (b : BitVec 8) (bs : List (BitVec 8)) :
    decode (b::bs) = (decodeChar b bs).1 :: decode (bs.drop (decodeChar b bs).2) := by
  rw [decode,length_cons,decodeLoop,decode]
  have hlen : (bs.drop (decodeChar b bs).2).length ≤ bs.length := by
    rw [length_drop]
    omega
  obtain ⟨extra,hextra⟩ := Nat.exists_eq_add_of_le hlen
  rw [hextra,decodeLoop_fuel _ _ _ le_rfl]

lemma decode_ne_nil {bytes : List (BitVec 8)} (h : bytes ≠ []) : decode bytes ≠ [] := by
  cases bytes with
  | nil => exact absurd rfl h
  | cons b bs =>
    rw [decode_cons]
    exact cons_ne_nil _ _

section RoundTrip

/-- The bytes of a character, by its code point. -/
def bytesOf (v : ℕ) : List (BitVec 8) :=
  if v ≤ 0x7F then [BitVec.ofNat 8 v]
  else if v ≤ 0x7FF then [BitVec.ofNat 8 (v/64%32+0xC0),BitVec.ofNat 8 (v%64+0x80)]
  else if v ≤ 0xFFFF then
    [BitVec.ofNat 8 (v/4096%16+0xE0),BitVec.ofNat 8 (v/64%64+0x80),BitVec.ofNat 8 (v%64+0x80)]
  else
    [BitVec.ofNat 8 (v/262144%8+0xF0),BitVec.ofNat 8 (v/4096%64+0x80),
      BitVec.ofNat 8 (v/64%64+0x80),BitVec.ofNat 8 (v%64+0x80)]

lemma encodeChar_eq (c : Char) : encodeChar c = bytesOf c.toNat := by
  have hval : c.val.toNat = c.toNat := rfl
  rw [encodeChar,String.utf8EncodeChar,bytesOf,hval]
  split_ifs <;> rfl

lemma readTails_ofNat {n low high acc v : ℕ} (bs : List (BitVec 8)) (hlow : low ≤ v)
    (hhigh : v ≤ high) (hbyte : v < 256) :
    readTails (n+1) low high acc (BitVec.ofNat 8 v::bs) =
      ((readTails n 0x80 0xBF (acc*64+v%64) bs).1,
        (readTails n 0x80 0xBF (acc*64+v%64) bs).2+1) := by
  have hv : (BitVec.ofNat 8 v).toNat = v := by
    rw [BitVec.toNat_ofNat]
    exact Nat.mod_eq_of_lt hbyte
  rw [readTails,hv,if_pos ⟨hlow,hhigh⟩]

lemma decodeChar_lead {v : ℕ} (hv : v < 256) {l : Lead} (hl : lead v = some l)
    (bs : List (BitVec 8)) :
    decodeChar (BitVec.ofNat 8 v) bs =
      ((readTails l.tails l.low l.high l.bits bs).1.elim replacement Char.ofNat,
        (readTails l.tails l.low l.high l.bits bs).2) := by
  have hbyte : (BitVec.ofNat 8 v).toNat = v := by
    rw [BitVec.toNat_ofNat]
    exact Nat.mod_eq_of_lt hv
  rw [decodeChar,hbyte,hl]

lemma decode_two {v : ℕ} (hlow : 0x7F < v) (hhigh : v ≤ 0x7FF) (rest : List (BitVec 8)) :
    decode (bytesOf v++rest) = Char.ofNat v :: decode rest := by
  have hlead : lead (v/64%32+0xC0) = some ⟨v/64%32,1,0x80,0xBF⟩ := by
    rw [lead,if_neg (by omega),if_neg (by omega),if_pos (by omega)]
    congr 2
    omega
  rw [bytesOf,if_neg (by omega),if_pos hhigh,cons_append,decode_cons,
    decodeChar_lead (by omega) hlead]
  have hsecond : 0x80 ≤ v%64+0x80 ∧ v%64+0x80 ≤ 0xBF := by omega
  rw [cons_append,readTails_ofNat _ hsecond.1 hsecond.2 (by omega),readTails]
  have hvalue : v/64%32*64+(v%64+0x80)%64 = v := by omega
  rw [hvalue]
  rfl

lemma decode_three {v : ℕ} (hlow : 0x7FF < v) (hhigh : v ≤ 0xFFFF)
    (hvalid : v < 0xD800 ∨ 0xDFFF < v) (rest : List (BitVec 8)) :
    decode (bytesOf v++rest) = Char.ofNat v :: decode rest := by
  have hlead : lead (v/4096%16+0xE0) = some ⟨v/4096%16,2,
      if v/4096%16+0xE0 = 0xE0 then 0xA0 else 0x80,
      if v/4096%16+0xE0 = 0xED then 0x9F else 0xBF⟩ := by
    rw [lead,if_neg (by omega),if_neg (by omega),if_neg (by omega),if_pos (by omega)]
    congr 2
    omega
  rw [bytesOf,if_neg (by omega),if_neg (by omega),if_pos hhigh,cons_append,decode_cons,
    decodeChar_lead (by omega) hlead]
  have hsecond : (if v/4096%16+0xE0 = 0xE0 then 0xA0 else 0x80) ≤ v/64%64+0x80 ∧
      v/64%64+0x80 ≤ (if v/4096%16+0xE0 = 0xED then 0x9F else 0xBF) := by
    constructor
    · split <;> omega
    · split <;> omega
  rw [cons_append,readTails_ofNat _ hsecond.1 hsecond.2 (by omega),cons_append,
    readTails_ofNat _ (by omega) (by omega) (by omega),readTails]
  have hvalue : (v/4096%16*64+(v/64%64+0x80)%64)*64+(v%64+0x80)%64 = v := by omega
  rw [hvalue]
  rfl

lemma decode_four {v : ℕ} (hlow : 0xFFFF < v) (hhigh : v < 0x110000) (rest : List (BitVec 8)) :
    decode (bytesOf v++rest) = Char.ofNat v :: decode rest := by
  have hlead : lead (v/262144%8+0xF0) = some ⟨v/262144%8,3,
      if v/262144%8+0xF0 = 0xF0 then 0x90 else 0x80,
      if v/262144%8+0xF0 = 0xF4 then 0x8F else 0xBF⟩ := by
    rw [lead,if_neg (by omega),if_neg (by omega),if_neg (by omega),if_neg (by omega),
      if_pos (by omega)]
    congr 2
    omega
  rw [bytesOf,if_neg (by omega),if_neg (by omega),if_neg (by omega),cons_append,decode_cons,
    decodeChar_lead (by omega) hlead]
  have hsecond : (if v/262144%8+0xF0 = 0xF0 then 0x90 else 0x80) ≤ v/4096%64+0x80 ∧
      v/4096%64+0x80 ≤ (if v/262144%8+0xF0 = 0xF4 then 0x8F else 0xBF) := by
    constructor
    · split <;> omega
    · split <;> omega
  rw [cons_append,readTails_ofNat _ hsecond.1 hsecond.2 (by omega),cons_append,
    readTails_ofNat _ (by omega) (by omega) (by omega),cons_append,
    readTails_ofNat _ (by omega) (by omega) (by omega),readTails]
  have hvalue : ((v/262144%8*64+(v/4096%64+0x80)%64)*64+(v/64%64+0x80)%64)*64+
      (v%64+0x80)%64 = v := by
    omega
  rw [hvalue]
  rfl

lemma decode_encodeChar (c : Char) (rest : List (BitVec 8)) :
    decode (encodeChar c++rest) = c :: decode rest := by
  have hvalid : c.toNat < 0xD800 ∨ (0xDFFF < c.toNat ∧ c.toNat < 0x110000) := c.valid
  have hchar : Char.ofNat c.toNat = c := Char.ofNat_toNat c
  rw [encodeChar_eq]
  by_cases hone : c.toNat ≤ 0x7F
  · have hlead : lead c.toNat = some ⟨c.toNat,0,0x80,0xBF⟩ := by rw [lead,if_pos (by omega)]
    rw [bytesOf,if_pos hone,cons_append,decode_cons,decodeChar_lead (by omega) hlead,readTails]
    exact congrArg (· :: decode rest) hchar
  · by_cases htwo : c.toNat ≤ 0x7FF
    · rw [decode_two (by omega) htwo,hchar]
    · by_cases hthree : c.toNat ≤ 0xFFFF
      · rw [decode_three (by omega) hthree (by omega),hchar]
      · rw [decode_four (by omega) (by omega),hchar]

lemma decode_encode (s : Text) : decode (encode s) = s := by
  induction s with
  | nil => rfl
  | cons c s ih => rw [encode_cons,decode_encodeChar,ih]

lemma encode_ne_nil {s : Text} (h : s ≠ []) : encode s ≠ [] := by
  intro hempty
  apply h
  rw [← decode_encode s,hempty]
  rfl

lemma encode_append (s t : Text) : encode (s++t) = encode s++encode t :=
  flatMap_append

lemma zero_not_mem_encodeChar {c : Char} (h : c ≠ '\x00') : (0 : BitVec 8) ∉ encodeChar c := by
  have hpos : c.toNat ≠ 0 := fun h0 => h (Char.toNat_inj.mp h0)
  have hne : ∀ v,0 < v → v < 256 → (0 : BitVec 8) ≠ BitVec.ofNat 8 v := by
    intro v hv hlt heq
    have htoNat := congrArg BitVec.toNat heq
    rw [BitVec.toNat_ofNat,Nat.mod_eq_of_lt hlt] at htoNat
    exact Nat.ne_of_lt hv htoNat
  rw [encodeChar_eq,bytesOf]
  split_ifs <;>
    simp only [mem_cons,not_mem_nil,or_false,not_or]
  · exact hne _ (Nat.pos_of_ne_zero hpos) (by omega)
  · exact ⟨hne _ (by omega) (by omega),hne _ (by omega) (by omega)⟩
  · exact ⟨hne _ (by omega) (by omega),hne _ (by omega) (by omega),hne _ (by omega) (by omega)⟩
  · exact ⟨hne _ (by omega) (by omega),hne _ (by omega) (by omega),hne _ (by omega) (by omega),
      hne _ (by omega) (by omega)⟩

lemma zero_not_mem_encode {s : Text} (h : '\x00' ∉ s) : (0 : BitVec 8) ∉ encode s := by
  intro hmem
  obtain ⟨c,hc,hbyte⟩ := mem_flatMap.mp hmem
  exact zero_not_mem_encodeChar (fun heq => h (heq ▸ hc)) hbyte

end RoundTrip

end Defib.Utf8
