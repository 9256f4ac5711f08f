import Mathlib.Data.BitVec
import Mathlib.Data.List.Basic
import Mathlib.Tactic.Ring

/-!
# Numbers as bytes

`toLe k v` are the `k` low bytes of `v`, the lowest first; `toBe k v` has them the other
way round. Fields are read back by `ofLe` and `ofBe` as long as the number fits.
-/
namespace Defib.Endian

def toLe : ℕ → ℕ → List (BitVec 8)
  | 0,_ => []
  | k+1,v => BitVec.ofNat 8 v :: toLe k (v/256)

def ofLe : List (BitVec 8) → ℕ
  | [] => 0
  | b::bs => b.toNat+256*ofLe bs

def toBe (k v : ℕ) : List (BitVec 8) := (toLe k v).reverse

def ofBe (bs : List (BitVec 8)) : ℕ := ofLe bs.reverse

@[simp] lemma toLe_length (k v : ℕ) : (toLe k v).length = k := by
  induction k generalizing v with
  | zero => rfl
  | succ k ih => rw [toLe,List.length_cons,ih]

@[simp] lemma toBe_length (k v : ℕ) : (toBe k v).length = k := by
  rw [toBe,List.length_reverse,toLe_length]

lemma ofLe_toLe {k v : ℕ} (h : v < 256^k) : ofLe (toLe k v) = v := by
  induction k generalizing v with
  | zero =>
    rw [pow_zero,Nat.lt_one_iff] at h
    rw [h]
    rfl
  | succ k ih =>
    have hrest : v/256 < 256^k := by
      rw [pow_succ] at h
      exact Nat.div_lt_of_lt_mul (by rwa [Nat.mul_comm] at h)
    rw [toLe,ofLe,ih hrest,BitVec.toNat_ofNat]
    omega

lemma ofBe_toBe {k v : ℕ} (h : v < 256^k) : ofBe (toBe k v) = v := by
  rw [ofBe,toBe,List.reverse_reverse,ofLe_toLe h]

lemma ofLe_lt (bs : List (BitVec 8)) : ofLe bs < 256^bs.length := by
  induction bs with
  | nil => exact Nat.one_pos
  | cons b bs ih =>
    have hb := b.isLt
    rw [ofLe,List.length_cons,pow_succ]
    omega

section Bitwise

lemma or_eq_add {v k : ℕ} (w : ℕ) (h : v < 2^w) (hk : 2^w ∣ k) : v ||| k = v+k := by
  obtain ⟨m,rfl⟩ := hk
  rw [Nat.or_comm,← Nat.two_pow_add_eq_or_of_lt h,Nat.add_comm]

lemma shiftLeft_or {y : ℕ} (x : ℕ) (h : y < 256) : (x <<< 8) ||| y = x*256+y := by
  rw [← Nat.shiftLeft_add_eq_or_of_lt h,Nat.shiftLeft_eq]

lemma shiftLeft_or_shiftLeft {y : ℕ} (x k : ℕ) (h : y < 256) :
    (x <<< (8+k)) ||| (y <<< k) = (x*256+y) <<< k := by
  rw [Nat.shiftLeft_add,← Nat.shiftLeft_or_distrib,shiftLeft_or x h]

lemma or_bytes (a b c d : BitVec 8) :
    a.toNat ||| (b.toNat <<< 8) ||| (c.toNat <<< 16) ||| (d.toNat <<< 24) = ofLe [a,b,c,d] := by
  have ha := a.isLt
  have hb := b.isLt
  have hc := c.isLt
  have hd := d.isLt
  simp only [Nat.shiftLeft_eq]
  rw [or_eq_add 8 ha (Nat.dvd_mul_left _ _),or_eq_add 16 (by omega) (Nat.dvd_mul_left _ _),
    or_eq_add 24 (by omega) (Nat.dvd_mul_left _ _)]
  simp only [ofLe]
  omega

end Bitwise

end Defib.Endian
