import Mathlib.Data.BitVec
import Mathlib.Data.List.GetD
import Mathlib.Tactic.Ring

/-!
# Bytes and little-endian words

Bytes are eight-bit vectors. The agent's `uint32_t` values are natural numbers
and every operation that can wrap is written with `u32`. The host's `struct.pack`
takes unbounded integers and refuses those that do not fit, so it is partial.
-/
namespace Defib.Words
open List

abbrev Byte := BitVec 8

-- named, so that every membership test in bytes uses the same one
instance byteLawfulBEq : LawfulBEq Byte := inferInstance

/-- Reduction of a natural result to a `uint32_t`. -/
def u32 (n : ℕ) : ℕ := n % 4294967296

lemma u32_lt (n : ℕ) : u32 n < 4294967296 := Nat.mod_lt _ (by decide)

lemma u32_of_lt {n : ℕ} (h : n < 4294967296) : u32 n = n := Nat.mod_eq_of_lt h

/-- `agent/main.c` `read_le32(&p[i])`. Bytes past the buffer are never read: every
caller checks the length first. -/
def readLe32 (p : List Byte) (i : ℕ) : ℕ :=
  (p.getD i 0).toNat+(p.getD (i+1) 0).toNat*256+
    (p.getD (i+2) 0).toNat*65536+(p.getD (i+3) 0).toNat*16777216

/-- `agent/main.c` `write_le32`. -/
def writeLe32 (v : ℕ) : List Byte :=
  [BitVec.ofNat 8 v,BitVec.ofNat 8 (v/256),BitVec.ofNat 8 (v/65536),BitVec.ofNat 8 (v/16777216)]

/-- The two-byte counters of the progress and data packets. -/
def writeLe16 (v : ℕ) : List Byte := [BitVec.ofNat 8 v,BitVec.ofNat 8 (v/256)]

@[simp] lemma writeLe32_length (v : ℕ) : (writeLe32 v).length = 4 := rfl

@[simp] lemma writeLe16_length (v : ℕ) : (writeLe16 v).length = 2 := rfl

lemma readLe32_lt (p : List Byte) (i : ℕ) : readLe32 p i < 4294967296 := by
  have h₀ := (p.getD i 0).isLt
  have h₁ := (p.getD (i+1) 0).isLt
  have h₂ := (p.getD (i+2) 0).isLt
  have h₃ := (p.getD (i+3) 0).isLt
  unfold readLe32
  omega

lemma readLe32_shift (v : ℕ) (rest : List Byte) (k : ℕ) :
    readLe32 (writeLe32 v++rest) (k+4) = readLe32 rest k := by
  simp [readLe32,writeLe32]

lemma readLe32_append (xs p : List Byte) : readLe32 (xs++p) xs.length = readLe32 p 0 := by
  have hget : ∀ k : ℕ, (xs++p).getD (xs.length+k) 0 = p.getD k 0 := by
    intro k
    rw [getD_append_right _ _ _ _ (Nat.le_add_right _ _),Nat.add_sub_cancel_left]
  have hfirst := hget 0
  rw [Nat.add_zero] at hfirst
  simp only [readLe32,hfirst,hget,Nat.zero_add]

lemma readLe32_writeLe32 (v : ℕ) (hv : v < 4294967296) (rest : List Byte) :
    readLe32 (writeLe32 v++rest) 0 = v := by
  simp only [readLe32,writeLe32,cons_append,getD_cons_zero,getD_cons_succ,
    Nat.zero_add,BitVec.toNat_ofNat,Nat.reducePow]
  omega

lemma readLe32_fields {v w : ℕ} (hv : v < 4294967296) (hw : w < 4294967296)
    (rest : List Byte) : readLe32 (writeLe32 v++(writeLe32 w++rest)) 0 = v ∧
      readLe32 (writeLe32 v++(writeLe32 w++rest)) 4 = w := by
  refine ⟨readLe32_writeLe32 v hv _,?_⟩
  exact (readLe32_shift v _ 0).trans (readLe32_writeLe32 w hw rest)

lemma writeLe32_injective {v w : ℕ} (hv : v < 4294967296) (hw : w < 4294967296)
    (h : writeLe32 v = writeLe32 w) : v = w := by
  have hread := congrArg (fun p => readLe32 (p++[]) 0) h
  simpa only [readLe32_writeLe32 v hv,readLe32_writeLe32 w hw] using hread

lemma writeLe32_readLe32 {p : List Byte} {i : ℕ} (h : i+4 ≤ p.length) :
    writeLe32 (readLe32 p i) = (p.drop i).take 4 := by
  obtain ⟨a,b,c,d,rest,hrest⟩ : ∃ a b c d rest,p.drop i = a::b::c::d::rest := by
    have hlen : 4 ≤ (p.drop i).length := by rw [length_drop]; omega
    match hp : p.drop i,hlen with
    | a::b::c::d::rest,_ => exact ⟨a,b,c,d,rest,rfl⟩
  have hread : readLe32 p i = readLe32 (p.drop i) 0 := by
    simp only [readLe32,getD_eq_getElem?_getD,getElem?_drop,Nat.zero_add,Nat.add_zero]
  have ha := a.isLt
  have hb := b.isLt
  have hc := c.isLt
  have hd := d.isLt
  rw [hread,hrest]
  simp only [readLe32,writeLe32,getD_cons_zero,getD_cons_succ,take_succ_cons,
    take_zero,List.cons.injEq,and_true,Nat.zero_add]
  refine ⟨?_,?_,?_,?_⟩
  · exact BitVec.eq_of_toNat_eq (by rw [BitVec.toNat_ofNat]; omega)
  · exact BitVec.eq_of_toNat_eq (by rw [BitVec.toNat_ofNat]; omega)
  · exact BitVec.eq_of_toNat_eq (by rw [BitVec.toNat_ofNat]; omega)
  · exact BitVec.eq_of_toNat_eq (by rw [BitVec.toNat_ofNat]; omega)

/-- Host `struct.pack("<I", v)`; `none` is the `struct.error`. -/
def packLe32 (v : ℕ) : Option (List Byte) := if v < 4294967296 then some (writeLe32 v) else none

lemma packLe32_of_lt {v : ℕ} (h : v < 4294967296) : packLe32 v = some (writeLe32 v) := if_pos h

lemma packLe32_eq_some {v : ℕ} {p : List Byte} (h : packLe32 v = some p) :
    v < 4294967296 ∧ p = writeLe32 v := by
  rw [packLe32] at h
  split at h
  next hv => exact ⟨hv,(Option.some.inj h).symm⟩
  next => cases h

end Defib.Words
