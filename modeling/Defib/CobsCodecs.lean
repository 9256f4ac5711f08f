import Defib.BlockMemory
import Defib.Cobs

/-!
# The two implementations of the frame code

The host's encoder appends to a `bytearray` and goes back to the placeholder of the
open block; the agent's encoder writes through a pointer and leaves a gap for the code
byte. The decoders differ in what an error is: an exception on the host, a length of
zero on the agent, after bytes have already been written. Both pairs of loops are
compared with the blocks of `Cobs`.
-/
namespace Defib.CobsCodecs
open Words BlockMemory Cobs

/-! ## Encoders -/

structure PyEncoder where
  output : List Byte
  codeIdx : ℕ
  code : ℕ

/-- `output[i] = code`; `none` is the `IndexError` or `ValueError`. -/
def setCode (output : List Byte) (i code : ℕ) : Option (List Byte) :=
  if i < output.length ∧ code < 256 then some (output.set i (BitVec.ofNat 8 code)) else none

namespace PyEncoder

def close (st : PyEncoder) : Option PyEncoder :=
  (setCode st.output st.codeIdx st.code).map fun output => ⟨output++[0],output.length,1⟩

def step (st : PyEncoder) (b : Byte) : Option PyEncoder :=
  if b = 0 then st.close
  else
    let st' : PyEncoder := ⟨st.output++[b],st.codeIdx,st.code+1⟩
    if st'.code = 255 then st'.close else some st'

end PyEncoder

def pyEncode (data : List Byte) : Option (List Byte) :=
  (data.foldlM PyEncoder.step ⟨[0],0,1⟩).bind fun st => setCode st.output st.codeIdx st.code

structure CEncoder where
  output : ℕ → Byte
  outIdx : ℕ
  codeIdx : ℕ
  code : Byte

namespace CEncoder

def close (st : CEncoder) : CEncoder where
  output := Function.update st.output st.codeIdx st.code
  outIdx := st.outIdx+1
  codeIdx := st.outIdx
  code := 1

def step (st : CEncoder) (b : Byte) : CEncoder :=
  if b = 0 then st.close
  else
    let st' : CEncoder := {st with
      output := Function.update st.output st.outIdx b
      outIdx := st.outIdx+1
      code := st.code+1}
    if st'.code = 0xFF then st'.close else st'

end CEncoder

/-- `cobs_encode`: the returned length and the memory behind `output`. -/
def cobsEncode (mem : ℕ → Byte) (input : List Byte) : ℕ × (ℕ → Byte) :=
  let st := input.foldl CEncoder.step ⟨mem,1,0,1⟩
  (st.outIdx,Function.update st.output st.codeIdx st.code)

lemma setCode_open (before block : List Byte) (h : block.length < 255) :
    setCode (before++0::block) before.length (block.length+1) =
      some (before++BitVec.ofNat 8 (block.length+1)::block) := by
  rw [setCode,if_pos ⟨by simp,by omega⟩]
  simp

/-- The host's encoder with these closed blocks and the data of the open one. -/
def PyEncoder.filled (before block : List Byte) : PyEncoder :=
  ⟨before++0::block,before.length,block.length+1⟩

lemma close_filled (before block : List Byte) (h : block.length < 255) :
    (PyEncoder.filled before block).close =
      some (.filled (before++BitVec.ofNat 8 (block.length+1)::block) []) := by
  rw [PyEncoder.close,PyEncoder.filled,setCode_open before block h]
  rfl

lemma step_filled (before block : List Byte) {b : Byte} (hb : b ≠ 0) :
    (PyEncoder.filled before block).step b =
      if block.length+2 = 255 then (PyEncoder.filled before (block++[b])).close
      else some (.filled before (block++[b])) := by
  have hnext : (⟨before++0::block++[b],before.length,block.length+1+1⟩ : PyEncoder) =
      .filled before (block++[b]) := by
    simp [PyEncoder.filled]
  rw [PyEncoder.step,if_neg hb,PyEncoder.filled]
  dsimp only
  simp only [hnext]

lemma pyEncode_from (before block rest : List Byte) (h : block.length < 254) :
    ((rest.foldlM PyEncoder.step (.filled before block)).bind
      fun st => setCode st.output st.codeIdx st.code) =
        some (before++encodeFrom block rest) := by
  induction rest generalizing before block with
  | nil => exact setCode_open before block (by omega)
  | cons b rest ih =>
    rw [List.foldlM_cons,encodeFrom]
    by_cases hb : b = 0
    · have hstep : (PyEncoder.filled before block).step b = _ :=
        (if_pos hb).trans (close_filled before block (by omega))
      rw [hstep,if_pos hb]
      exact (ih _ [] (by simp)).trans (by simp)
    · rw [step_filled before block hb,if_neg hb]
      by_cases hfull : block.length+2 = 255
      · have hlen : (block++[b]).length+1 = 255 := by simp; omega
        rw [if_pos hfull,if_pos hfull,close_filled before (block++[b]) (by omega),hlen]
        exact (ih _ [] (by simp)).trans (by simp)
      · rw [if_neg hfull,if_neg hfull]
        exact ih before (block++[b]) (by simp; omega)

lemma pyEncode_eq (s : List Byte) : pyEncode s = some (encode s) :=
  pyEncode_from [] [] s (by simp)

/-! ### Through a pointer -/

lemma slice_update_apart (m : ℕ → Byte) (i b n : ℕ) (v : Byte) (h : b+n ≤ i ∨ i < b) :
    slice (Function.update m i v) b n = slice m b n := by
  rw [← patch_singleton]
  exact slice_patch_apart m i b n [v] h

lemma slice_update_end (m : ℕ → Byte) (a n : ℕ) (v : Byte) :
    slice (Function.update m (a+n) v) a (n+1) = slice m a n++[v] := by
  rw [slice_add,slice_update_apart m _ a n v (.inl le_rfl)]
  simp [slice]

/-- The agent's encoder with these closed blocks and the data of the open one. -/
structure CEncoder.Filled (before block : List Byte) (st : CEncoder) : Prop where
  codeIdx : st.codeIdx = before.length
  outIdx : st.outIdx = before.length+1+block.length
  code : st.code = BitVec.ofNat 8 (block.length+1)
  closed : slice st.output 0 before.length = before
  data : slice st.output (before.length+1) block.length = block

namespace CEncoder.Filled
variable {before block : List Byte} {st : CEncoder} (h : CEncoder.Filled before block st)
include h

lemma bytes : slice (Function.update st.output st.codeIdx st.code) 0 st.outIdx =
    before++BitVec.ofNat 8 (block.length+1)::block := by
  rw [h.outIdx,slice_add,h.codeIdx,h.code]
  have hend := slice_update_end st.output 0 before.length (BitVec.ofNat 8 (block.length+1))
  rw [Nat.zero_add] at hend ⊢
  rw [hend,h.closed,slice_update_apart _ _ _ _ _ (.inr (Nat.lt_succ_self _)),h.data]
  simp

lemma closes : CEncoder.Filled (before++BitVec.ofNat 8 (block.length+1)::block) [] st.close := by
  have hout := h.outIdx
  have hlen : (before++BitVec.ofNat 8 (block.length+1)::block).length = st.outIdx := by
    rw [List.length_append,List.length_cons,hout]
    omega
  have hbytes := h.bytes
  rw [← hlen] at hbytes
  exact ⟨hlen.symm,congrArg (·+1) hlen.symm,rfl,hbytes,rfl⟩

lemma stores (b : Byte) : CEncoder.Filled before (block++[b]) {st with
    output := Function.update st.output st.outIdx b
    outIdx := st.outIdx+1
    code := st.code+1} := by
  have hout := h.outIdx
  have hlen : (block++[b]).length = block.length+1 := by simp
  refine ⟨h.codeIdx,?_,?_,?_,?_⟩
  · exact (congrArg (·+1) hout).trans (by rw [hlen,Nat.add_assoc])
  · rw [hlen,h.code]
    exact (BitVec.ofNat_add (block.length+1) 1).symm
  · exact (slice_update_apart _ _ _ _ _ (.inl (by omega))).trans h.closed
  · rw [hlen,hout,slice_update_end,h.data]

end CEncoder.Filled

lemma code_full {n : ℕ} (h : n < 254) :
    BitVec.ofNat 8 (n+1)+1 = (0xFF : Byte) ↔ n+2 = 255 := by
  have hone : (1 : Byte).toNat = 1 := rfl
  have hmax : (0xFF : Byte).toNat = 255 := rfl
  rw [← BitVec.toNat_inj,BitVec.toNat_add,BitVec.toNat_ofNat,hone,hmax]
  omega

lemma cobsEncode_from (before block rest : List Byte) (st : CEncoder)
    (h : CEncoder.Filled before block st) (hlen : block.length < 254) :
    let r := rest.foldl CEncoder.step st
    slice (Function.update r.output r.codeIdx r.code) 0 r.outIdx =
      before++encodeFrom block rest := by
  induction rest generalizing before block st with
  | nil => exact h.bytes
  | cons b rest ih =>
    rw [List.foldl_cons,encodeFrom,CEncoder.step]
    by_cases hb : b = 0
    · rw [if_pos hb,if_pos hb]
      exact (ih _ [] _ h.closes (by simp)).trans (by simp)
    · have hstored := h.stores b
      have hcode : st.code+1 = (0xFF : Byte) ↔ block.length+2 = 255 := by
        rw [h.code]
        exact code_full hlen
      rw [if_neg hb,if_neg hb]
      by_cases hfull : block.length+2 = 255
      · have hnext := hstored.closes
        have hcount : (block++[b]).length+1 = 255 := by simp; omega
        rw [hcount] at hnext
        rw [if_pos hfull]
        dsimp only
        rw [if_pos (hcode.mpr hfull)]
        exact (ih _ [] _ hnext (by simp)).trans (by simp)
      · rw [if_neg hfull]
        dsimp only
        rw [if_neg (fun hc => hfull (hcode.mp hc))]
        exact ih before (block++[b]) _ hstored (by simp; omega)

lemma cobsEncode_eq (mem : ℕ → Byte) (s : List Byte) :
    slice (cobsEncode mem s).2 0 (cobsEncode mem s).1 = encode s :=
  cobsEncode_from [] [] s ⟨mem,1,0,1⟩ ⟨rfl,rfl,rfl,rfl,rfl⟩ (by simp)

/-! ## Decoders -/

/-- The inner loop of `cobs.decode`: the copied bytes and what follows them. -/
def pyCopy : ℕ → List Byte → Option (List Byte × List Byte)
  | 0,rest => some ([],rest)
  | _+1,[] => none
  | n+1,b::rest => (pyCopy n rest).map fun r => (b::r.1,r.2)

def pyDecodeLoop : ℕ → List Byte → Option (List Byte)
  | 0,_ => some []
  | _+1,[] => some []
  | n+1,code::rest =>
    if code = 0 then none
    else (pyCopy (code.toNat-1) rest).bind fun r =>
      (pyDecodeLoop n r.2).map fun more =>
        r.1++(if code.toNat < 255 ∧ r.2 ≠ [] then [0] else [])++more

/-- `cobs.decode`; `none` is the `ValueError`. -/
def pyDecode (data : List Byte) : Option (List Byte) := pyDecodeLoop data.length data

structure CDecoder where
  output : ℕ → Byte
  outIdx : ℕ

/-- `output[out_idx++] = b`. -/
def CDecoder.put (st : CDecoder) (b : Byte) : CDecoder :=
  ⟨Function.update st.output st.outIdx b,st.outIdx+1⟩

/-- The inner loop of `cobs_decode`; `none` when the input ends in it. -/
def cCopy : ℕ → List Byte → CDecoder → CDecoder × Option (List Byte)
  | 0,rest,st => (st,some rest)
  | _+1,[],st => (st,none)
  | n+1,b::rest,st => cCopy n rest (st.put b)

def cDecodeLoop : ℕ → List Byte → CDecoder → CDecoder × Bool
  | 0,_,st => (st,true)
  | _+1,[],st => (st,true)
  | n+1,code::rest,st =>
    if code = 0 then (st,false)
    else match cCopy (code.toNat-1) rest st with
      | (st',none) => (st',false)
      | (st',some next) =>
        cDecodeLoop n next (if code.toNat < 255 ∧ next ≠ [] then st'.put 0 else st')

/-- `cobs_decode`: the returned length and the memory behind `output`. -/
def cobsDecode (mem : ℕ → Byte) (input : List Byte) : ℕ × (ℕ → Byte) :=
  let r := cDecodeLoop input.length input ⟨mem,0⟩
  (if r.2 then r.1.outIdx else 0,r.1.output)

lemma pyCopy_eq (n : ℕ) (rest : List Byte) :
    pyCopy n rest = if rest.length < n then none else some (rest.take n,rest.drop n) := by
  induction n generalizing rest with
  | zero => simp [pyCopy]
  | succ n ih =>
    cases rest with
    | nil => simp [pyCopy]
    | cons b rest =>
      rw [pyCopy,ih]
      by_cases hlt : rest.length < n
      · rw [if_pos hlt,if_pos (by simpa using hlt)]
        rfl
      · rw [if_neg hlt,if_neg (by simpa using hlt)]
        rfl

lemma pyDecodeLoop_eq (n : ℕ) (input : List Byte) : pyDecodeLoop n input =
    if (decodeLoop n input).2 then some (decodeLoop n input).1 else none := by
  induction n generalizing input with
  | zero => rfl
  | succ n ih =>
    cases input with
    | nil => rfl
    | cons code rest =>
      rw [pyDecodeLoop,decodeLoop,pyCopy_eq]
      by_cases hcode : code = 0
      · rw [if_pos hcode,if_pos hcode]
        rfl
      by_cases hshort : rest.length < code.toNat-1
      · rw [if_neg hcode,if_neg hcode,if_pos hshort,if_pos hshort]
        rfl
      · rw [if_neg hcode,if_neg hcode,if_neg hshort,if_neg hshort]
        dsimp only [Option.bind_some]
        rw [ih]
        cases (decodeLoop n (rest.drop (code.toNat-1))).2 <;> rfl

lemma pyDecode_eq (input : List Byte) :
    pyDecode input = if (decode input).2 then some (decode input).1 else none :=
  pyDecodeLoop_eq input.length input

def CDecoder.wrote (st : CDecoder) (xs : List Byte) : CDecoder :=
  ⟨patch st.output st.outIdx xs,st.outIdx+xs.length⟩

lemma put_eq (st : CDecoder) (b : Byte) : st.put b = st.wrote [b] := by
  rw [CDecoder.put,CDecoder.wrote,patch_singleton]
  rfl

lemma wrote_nil (st : CDecoder) : st.wrote [] = st := by
  rw [CDecoder.wrote,patch_nil]
  rfl

lemma wrote_append (st : CDecoder) (xs ys : List Byte) :
    (st.wrote xs).wrote ys = st.wrote (xs++ys) := by
  simp only [CDecoder.wrote,patch_append,List.length_append,Nat.add_assoc]

lemma cCopy_eq (n : ℕ) (rest : List Byte) (st : CDecoder) : cCopy n rest st =
    if rest.length < n then (st.wrote rest,none)
    else (st.wrote (rest.take n),some (rest.drop n)) := by
  induction n generalizing rest st with
  | zero => simp [cCopy,wrote_nil]
  | succ n ih =>
    cases rest with
    | nil => simp [cCopy,wrote_nil]
    | cons b rest =>
      rw [cCopy,ih,put_eq,wrote_append,wrote_append]
      by_cases hlt : rest.length < n
      · rw [if_pos hlt,if_pos (by simpa using hlt)]
        rfl
      · rw [if_neg hlt,if_neg (by simpa using hlt)]
        rfl

lemma cDecodeLoop_eq (n : ℕ) (input : List Byte) (st : CDecoder) :
    cDecodeLoop n input st = (st.wrote (decodeLoop n input).1,(decodeLoop n input).2) := by
  induction n generalizing input st with
  | zero => rw [cDecodeLoop,decodeLoop,wrote_nil]
  | succ n ih =>
    cases input with
    | nil => rw [cDecodeLoop,decodeLoop,wrote_nil]
    | cons code rest =>
      rw [cDecodeLoop,decodeLoop,cCopy_eq]
      by_cases hcode : code = 0
      · rw [if_pos hcode,if_pos hcode,wrote_nil]
      by_cases hshort : rest.length < code.toNat-1
      · rw [if_neg hcode,if_neg hcode,if_pos hshort,if_pos hshort]
      · rw [if_neg hcode,if_neg hcode,if_neg hshort,if_neg hshort]
        dsimp only
        rw [ih]
        split_ifs with hzero
        · rw [put_eq,wrote_append,wrote_append,List.append_assoc]
        · rw [wrote_append,List.append_nil]

lemma cobsDecode_eq (mem : ℕ → Byte) (input : List Byte) : cobsDecode mem input =
    (if (decode input).2 then (decode input).1.length else 0,patch mem 0 (decode input).1) := by
  rw [cobsDecode,cDecodeLoop_eq]
  simp only [CDecoder.wrote,Nat.zero_add]
  rfl

/-- What the agent's decoder returns is what the host's returns; where the host raises, the
agent's length is zero. -/
theorem cobsDecode_of_pyDecode (mem : ℕ → Byte) (input : List Byte) :
    slice (cobsDecode mem input).2 0 (cobsDecode mem input).1 = (pyDecode input).getD [] := by
  rw [cobsDecode_eq,pyDecode_eq]
  cases (decode input).2 with
  | true => exact slice_patch_self mem 0 (decode input).1
  | false => rfl

/-- The codecs of host and agent: one code, its round trip and length, and decoders that
agree on every input, well formed or not. -/
theorem cobs_codecs_agree (mem : ℕ → Byte) (s x : List Byte) :
    let e := cobsEncode mem s
    let bytes := slice e.2 0 e.1
    (pyEncode s = some bytes ∧ (∀ b ∈ bytes, b ≠ 0) ∧
      bytes.length ≤ s.length+1+s.length/254 ∧ pyDecode bytes = some s ∧
      slice (cobsDecode mem bytes).2 0 (cobsDecode mem bytes).1 = s) ∧
    (∀ out, pyDecode x = some out →
      slice (cobsDecode mem x).2 0 (cobsDecode mem x).1 = out) ∧
    (pyDecode x = none → (cobsDecode mem x).1 = 0) := by
  have hpy : pyDecode (encode s) = some s := by rw [pyDecode_eq,decode_encode]; rfl
  dsimp only
  rw [cobsEncode_eq]
  refine ⟨⟨pyEncode_eq s,encode_nonzero s,encode_length s,hpy,?_⟩,?_,?_⟩
  · rw [cobsDecode_of_pyDecode,hpy]
    rfl
  · intro out hout
    rw [cobsDecode_of_pyDecode,hout]
    rfl
  · intro hraise
    have hlen := congrArg List.length (cobsDecode_of_pyDecode mem x)
    rw [slice_length,hraise] at hlen
    exact hlen

end Defib.CobsCodecs
