import Mathlib.Data.List.Basic
import Mathlib.Tactic.Ring
import Defib.Words

/-!
# Consistent overhead byte stuffing

`agent/cobs.c` and `defib/agent/cobs.py` hold the same two loops. The encoder
keeps one open block: its code byte is written when a zero byte or the 254th data
byte closes it. The decoder copies blocks and puts a zero between two of them,
except after a full block.

The decoder is also given malformed input. It then has already written bytes when
it reports the error, so its result is the bytes it wrote together with whether
it came to the end.
-/
namespace Defib.Cobs
open List Words

/-- `cobs_encode` with the data of the open block; its code byte is the placeholder
that closing the block fills in. -/
def encodeFrom (block : List Byte) : List Byte → List Byte
  | [] => BitVec.ofNat 8 (block.length+1)::block
  | b::rest =>
    if b = 0 then BitVec.ofNat 8 (block.length+1)::(block++encodeFrom [] rest)
    else if block.length+2 = 255 then 255::(block++[b]++encodeFrom [] rest)
    else encodeFrom (block++[b]) rest

def encode (input : List Byte) : List Byte := encodeFrom [] input

/-- The decoding loop: what is written to `output`, and whether the loop ended at the
end of the input. Each round consumes a code byte, so the input length bounds the
number of rounds. -/
def decodeLoop : ℕ → List Byte → List Byte × Bool
  | 0,_ => ([],true)
  | _+1,[] => ([],true)
  | n+1,code::rest =>
    if code = 0 then ([],false)
    else if rest.length < code.toNat-1 then (rest,false)
    else
      let next := rest.drop (code.toNat-1)
      let r := decodeLoop n next
      (rest.take (code.toNat-1)++(if code.toNat < 255 ∧ next ≠ [] then [0] else [])++r.1,r.2)

def decode (input : List Byte) : List Byte × Bool := decodeLoop input.length input

/-- Full blocks that another block follows: the places where one byte of input stands
for no byte of output. -/
def fullLoop : ℕ → List Byte → ℕ
  | 0,_ => 0
  | _+1,[] => 0
  | n+1,code::rest =>
    if code = 0 ∨ rest.length < code.toNat-1 then 0
    else
      let next := rest.drop (code.toNat-1)
      (if code.toNat = 255 ∧ next ≠ [] then 1 else 0)+fullLoop n next

def fullBlocks (input : List Byte) : ℕ := fullLoop input.length input

lemma encodeFrom_ne_nil (block rest : List Byte) : encodeFrom block rest ≠ [] := by
  induction rest generalizing block with
  | nil => simp [encodeFrom]
  | cons b rest ih =>
    rw [encodeFrom]
    split_ifs
    · simp
    · simp
    · exact ih _

lemma decodeLoop_fuel {n m : ℕ} (input : List Byte) (hn : input.length ≤ n)
    (hm : input.length ≤ m) : decodeLoop n input = decodeLoop m input := by
  induction n generalizing m input with
  | zero =>
    obtain rfl : input = [] := eq_nil_of_length_eq_zero (by omega)
    cases m <;> rfl
  | succ n ih =>
    cases input with
    | nil => cases m <;> rfl
    | cons code rest =>
      obtain ⟨m,rfl⟩ : ∃ k, m = k+1 := ⟨m-1,by simp at hm; omega⟩
      simp only [length_cons] at hn hm
      have hdrop : (rest.drop (code.toNat-1)).length ≤ rest.length := by
        rw [length_drop]
        omega
      have hloop := ih (rest.drop (code.toNat-1)) (m := m) (by omega) (by omega)
      simp only [decodeLoop,hloop]

lemma decode_block (block next : List Byte) (h : block.length < 255) :
    decode (BitVec.ofNat 8 (block.length+1)::(block++next)) =
      (block++(if block.length < 254 ∧ next ≠ [] then [0] else [])++(decode next).1,
        (decode next).2) := by
  have hcode : (BitVec.ofNat 8 (block.length+1)).toNat = block.length+1 := by
    rw [BitVec.toNat_ofNat]
    omega
  have hzero : BitVec.ofNat 8 (block.length+1) ≠ 0 := by
    intro h0
    have := congrArg BitVec.toNat h0
    rw [hcode] at this
    simp at this
  have hfuel := decodeLoop_fuel next (n := (block++next).length) (by simp) le_rfl
  have hlt : block.length+1 < 255 ↔ block.length < 254 := by omega
  rw [decode,length_cons,decodeLoop,if_neg hzero,hcode,Nat.add_sub_cancel,
    if_neg (by simp)]
  simp only [drop_left,take_left,hfuel,hlt,decode]

lemma decode_encodeFrom (block rest : List Byte) (h : block.length < 254) :
    decode (encodeFrom block rest) = (block++rest,true) := by
  induction rest generalizing block with
  | nil =>
    have hblock := decode_block block [] (by omega)
    simpa [encodeFrom,decode,decodeLoop] using hblock
  | cons b rest ih =>
    rw [encodeFrom]
    split_ifs with hb hfull
    · rw [decode_block _ _ (by omega),ih _ (by simp),if_pos ⟨h,encodeFrom_ne_nil _ _⟩,hb]
      simp
    · have hlen : (block++[b]).length = 254 := by simp; omega
      have hblock := decode_block (block++[b]) (encodeFrom [] rest) (by omega)
      rw [hlen,ih _ (by simp)] at hblock
      simpa using hblock
    · rw [ih _ (by simp; omega)]
      simp

lemma decode_encode (input : List Byte) : decode (encode input) = (input,true) :=
  decode_encodeFrom [] input (by simp)

lemma encodeFrom_nonzero (block rest : List Byte) (h : block.length < 254)
    (hblock : ∀ b ∈ block, b ≠ 0) : ∀ b ∈ encodeFrom block rest, b ≠ 0 := by
  have hcode : ∀ l : List Byte, l.length < 254 → BitVec.ofNat 8 (l.length+1) ≠ 0 := by
    intro l hl h0
    have := congrArg BitVec.toNat h0
    rw [BitVec.toNat_ofNat] at this
    simp at this
    omega
  induction rest generalizing block with
  | nil =>
    intro b hb
    rcases mem_cons.mp hb with rfl | hb
    · exact hcode block h
    · exact hblock b hb
  | cons c rest ih =>
    have hrest := ih [] (by simp) (by simp)
    rw [encodeFrom]
    split_ifs with hc hfull
    · simpa using ⟨hcode block h,fun b hb => hb.elim (hblock b) (hrest b)⟩
    · simp only [mem_cons,mem_append,not_mem_nil,or_false]
      rintro b (rfl | (hb | rfl) | hb)
      · decide
      · exact hblock b hb
      · exact hc
      · exact hrest b hb
    · apply ih
      · simp
        omega
      · intro b hb
        rcases mem_append.mp hb with hb | hb
        · exact hblock b hb
        · rwa [mem_singleton.mp hb]

lemma encode_nonzero (input : List Byte) : ∀ b ∈ encode input, b ≠ 0 :=
  encodeFrom_nonzero [] input (by simp) (by simp)

lemma encodeFrom_length (block rest : List Byte) (h : block.length < 254) :
    (encodeFrom block rest).length ≤
      block.length+rest.length+1+(block.length+rest.length)/254 := by
  induction rest generalizing block with
  | nil =>
    simp only [encodeFrom,length_cons,length_nil]
    omega
  | cons b rest ih =>
    have hrest := ih [] (by simp)
    have hmore := ih (block++[b])
    simp only [length_append,length_nil,length_singleton] at hrest hmore
    rw [encodeFrom]
    split_ifs with hb hfull
    · simp only [length_cons,length_append]
      omega
    · simp only [length_cons,length_append,length_nil]
      omega
    · have := hmore (by omega)
      simp only [length_cons]
      omega

lemma encode_length (input : List Byte) :
    (encode input).length ≤ input.length+1+input.length/254 := by
  simpa [encode] using encodeFrom_length [] input (by simp)

lemma decodeLoop_length {n : ℕ} (input : List Byte) (hn : input.length ≤ n)
    (hne : input ≠ []) (hinput : ∀ b ∈ input, b ≠ 0) :
    (decodeLoop n input).1.length+1+fullLoop n input = input.length := by
  induction n generalizing input with
  | zero => exact absurd (eq_nil_of_length_eq_zero (by omega)) hne
  | succ n ih =>
    obtain ⟨code,rest,rfl⟩ := exists_cons_of_ne_nil hne
    have hcode : code ≠ 0 := hinput code (by simp)
    have hpos : 0 < code.toNat := by
      rw [Nat.pos_iff_ne_zero]
      intro h0
      exact hcode (BitVec.eq_of_toNat_eq h0)
    have hbyte := code.isLt
    simp only [length_cons] at hn ⊢
    rw [decodeLoop,fullLoop,if_neg hcode]
    by_cases hshort : rest.length < code.toNat-1
    · rw [if_pos hshort,if_pos (.inr hshort)]
    rw [if_neg hshort,if_neg (by simp only [hcode,hshort,or_self,not_false_eq_true])]
    -- The last block gives one byte less than it takes; an inner one as many, unless full.
    by_cases hnext : rest.drop (code.toNat-1) = []
    · have hlen := congrArg List.length hnext
      rw [length_drop,length_nil] at hlen
      have hlast : decodeLoop n ([] : List Byte) = ([],true) ∧ fullLoop n ([] : List Byte) = 0 := by
        cases n <;> exact ⟨rfl,rfl⟩
      simp only [hnext,ne_eq,not_true_eq_false,and_false,if_false,hlast.1,hlast.2,
        append_nil,length_take]
      omega
    · have hrest := ih (rest.drop (code.toNat-1)) (by rw [length_drop]; omega) hnext
        (fun b hb => hinput b (mem_cons_of_mem _ (mem_of_mem_drop hb)))
      rw [length_drop] at hrest
      have hpast : 0 < rest.length-(code.toNat-1) := by
        rw [← length_drop]
        exact length_pos_iff.mpr hnext
      simp only [hnext,ne_eq,not_false_eq_true,and_true,length_append,length_take]
      by_cases hfull : code.toNat = 255
      · rw [if_neg (by omega),if_pos hfull,length_nil]
        omega
      · rw [if_pos (by omega),if_neg hfull,length_singleton]
        omega

lemma decode_length {input : List Byte} (hne : input ≠ []) (hinput : ∀ b ∈ input, b ≠ 0) :
    (decode input).1.length+1+fullBlocks input = input.length :=
  decodeLoop_length input le_rfl hne hinput

end Defib.Cobs
