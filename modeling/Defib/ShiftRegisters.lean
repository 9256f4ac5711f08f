import Mathlib.Data.BitVec
import Mathlib.Logic.Function.Iterate

/-!
# Division registers over GF(2)

A cyclic redundancy check divides a string of digits by a polynomial with coefficients 0
and 1. The register holds a remainder; with exclusive or for addition all its operations
are additive. Feeding digits is Horner's scheme: the register is multiplied by the value
of a place and the digit is added. A register is multiplied by the place of one bit when
it is shifted by one and the polynomial is added if a one has been shifted out, whichever
end that is.
-/
namespace Defib.ShiftRegisters
open BitVec

variable {u v w : ℕ}

/-- Additive for exclusive or. -/
def XorHom (f : BitVec v → BitVec w) : Prop := ∀ a b,f (a ^^^ b) = f a ^^^ f b

variable {f : BitVec v → BitVec w}

lemma XorHom.map_zero (h : XorHom f) : f 0#v = 0#w := by
  have hsum := h 0#v 0#v
  rwa [BitVec.xor_self,BitVec.xor_self] at hsum

lemma XorHom.injective (h : XorHom f)
    (hzero : ∀ c,f c = 0#w → c = 0#v) : Function.Injective f := by
  intro a b hab
  have hdiff : f (a ^^^ b) = 0#w := by rw [h,hab,BitVec.xor_self]
  exact BitVec.xor_eq_zero_iff.mp (hzero _ hdiff)

lemma XorHom.comp {g : BitVec u → BitVec v} (hf : XorHom f) (hg : XorHom g) : XorHom (f ∘ g) := by
  intro a b
  rw [Function.comp_apply,hg,hf]
  rfl

variable {f : BitVec w → BitVec w}

lemma XorHom.iterate (h : XorHom f) (n : ℕ) : XorHom f^[n] := by
  induction n with
  | zero => exact fun _ _ => rfl
  | succ n ih => exact ih.comp h

variable {c : BitVec w}

lemma iterate_eq_zero (h : ∀ c,f c = 0#w → c = 0#w) (n : ℕ)
    (hc : f^[n] c = 0#w) : c = 0#w := by
  induction n generalizing c with
  | zero => exact hc
  | succ n ih => exact h c (ih hc)

/-! ### Horner's scheme -/

section Horner
variable {place : BitVec w → BitVec w} {digit : BitVec v → BitVec w}

/-- One digit after the other is fed into the register `c`. -/
def horner (place : BitVec w → BitVec w) (digit : BitVec v → BitVec w) (c : BitVec w)
    (ds : List (BitVec v)) : BitVec w :=
  ds.foldl (fun c d => place c ^^^ digit d) c

lemma horner_append (c : BitVec w) (ds es : List (BitVec v)) :
    horner place digit c (ds++es) = horner place digit (horner place digit c ds) es :=
  List.foldl_append

/-- What is additive and commutes with the place value can be applied to the digits. -/
theorem horner_hom (hf : XorHom f)
    (hcomm : ∀ c,f (place c) = place (f c)) (c : BitVec w) (ds : List (BitVec v)) :
    f (horner place digit c ds) = horner place (f ∘ digit) (f c) ds := by
  induction ds generalizing c with
  | nil => rfl
  | cons d ds ih =>
    have hstep : f (place c ^^^ digit d) = place (f c) ^^^ f (digit d) := by rw [hf,hcomm]
    calc f (horner place digit (place c ^^^ digit d) ds)
        = horner place (f ∘ digit) (f (place c ^^^ digit d)) ds := ih _
      _ = horner place (f ∘ digit) (f c) (d::ds) := by rw [hstep]; rfl

lemma horner_xor (hplace : XorHom place) (hdigit : XorHom digit) (c c' : BitVec w)
    {ds es : List (BitVec v)} (hlen : ds.length = es.length) :
    horner place digit (c ^^^ c') (List.zipWith (· ^^^ ·) ds es) =
      horner place digit c ds ^^^ horner place digit c' es := by
  induction ds generalizing c c' es with
  | nil =>
    rw [List.eq_nil_of_length_eq_zero hlen.symm]
    rfl
  | cons d ds ih =>
    cases es with
    | nil => cases hlen
    | cons e es =>
      have hstep : place (c ^^^ c') ^^^ digit (d ^^^ e) =
          (place c ^^^ digit d) ^^^ (place c' ^^^ digit e) := by
        rw [hplace,hdigit]
        ac_rfl
      calc horner place digit (place (c ^^^ c') ^^^ digit (d ^^^ e))
            (List.zipWith (· ^^^ ·) ds es)
          = horner place digit ((place c ^^^ digit d) ^^^ (place c' ^^^ digit e))
            (List.zipWith (· ^^^ ·) ds es) := by rw [hstep]
        _ = _ := ih _ _ (Nat.succ.inj hlen)

lemma horner_zeros (hdigit : digit 0#v = 0#w) (n : ℕ) (c : BitVec w) :
    horner place digit c (List.replicate n 0#v) = place^[n] c := by
  induction n generalizing c with
  | zero => rfl
  | succ n ih =>
    rw [List.replicate_succ,horner,List.foldl_cons,hdigit,BitVec.xor_zero]
    exact ih _

end Horner

/-! ### Shifting bit by bit -/

/-- A register that is shifted by one place at a time. -/
structure Register (w : ℕ) where
  shift : BitVec w → BitVec w
  out : BitVec w → Bool
  poly : BitVec w
  shift_xor : XorHom shift
  out_xor : ∀ a b,out (a ^^^ b) = (out a ^^ out b)

namespace Register
variable (r : Register w)

def step (c : BitVec w) : BitVec w := r.shift c ^^^ if r.out c then r.poly else 0#w

lemma step_xor : XorHom r.step := by
  intro a b
  have hpoly (p q : Bool) : (if (p ^^ q) then r.poly else 0#w) =
      (if p then r.poly else 0#w) ^^^ if q then r.poly else 0#w := by
    cases p <;> cases q <;> simp
  rw [step,r.shift_xor,r.out_xor,hpoly,step,step]
  ac_rfl

/-- As long as nothing but zeros leaves it the register is only shifted. -/
theorem steps_eq_shifts {n : ℕ} (h : ∀ i < n,r.out (r.shift^[i] c) = false) :
    r.step^[n] c = r.shift^[n] c := by
  induction n with
  | zero => rfl
  | succ n ih =>
    rw [Function.iterate_succ_apply',Function.iterate_succ_apply',
      ih fun i hi => h i (Nat.lt_succ_of_lt hi),step,h n (Nat.lt_succ_self n)]
    simp

end Register

/-- The most significant bit goes first. -/
def msbFirst (poly : BitVec w) : Register w where
  shift c := c <<< 1
  out c := c.msb
  poly := poly
  shift_xor a b := BitVec.shiftLeft_xor_distrib a b 1
  out_xor _ _ := msb_xor

lemma msbFirst_step (poly c : BitVec w) :
    (msbFirst poly).step c = c <<< 1 ^^^ if c.msb then poly else 0#w := rfl

/-- The least significant bit goes first. -/
def lsbFirst (poly : BitVec w) : Register w where
  shift c := c >>> 1
  out c := c.getLsbD 0
  poly := poly
  shift_xor a b := ushiftRight_xor_distrib a b 1
  out_xor _ _ := getLsbD_xor

lemma getLsbD_byteMask {i : ℕ} (hi : i < 32) : (0xFF#32).getLsbD i = decide (i < 8) := by
  rw [getLsbD_ofNat,show 0xFF = 2^8-1 from rfl,Nat.testBit_two_pow_sub_one]
  simp [hi]

lemma iterate_shiftLeft (n : ℕ) (c : BitVec w) : (fun c : BitVec w => c <<< 1)^[n] c = c <<< n := by
  induction n with
  | zero => exact (BitVec.shiftLeft_zero c).symm
  | succ n ih => rw [Function.iterate_succ_apply',ih,← BitVec.shiftLeft_add]

lemma iterate_ushiftRight (n : ℕ) (c : BitVec w) :
    (fun c : BitVec w => c >>> 1)^[n] c = c >>> n := by
  induction n with
  | zero => exact (ushiftRight_zero c).symm
  | succ n ih => rw [Function.iterate_succ_apply',ih,← BitVec.shiftRight_add]

lemma msbFirst_steps (poly : BitVec w) {n : ℕ}
    (h : ∀ i < n,c.getMsbD i = false) : (msbFirst poly).step^[n] c = c <<< n := by
  rw [Register.steps_eq_shifts]
  · exact iterate_shiftLeft n c
  · intro i hi
    have hshift : (msbFirst poly).shift^[i] c = c <<< i := iterate_shiftLeft i c
    rw [hshift]
    show (c <<< i).msb = false
    rw [BitVec.msb,getMsbD_shiftLeft]
    simpa using h i hi

/-- Division by a polynomial with a constant term loses nothing. -/
theorem msbFirst_step_eq_zero {poly : BitVec w} (hodd : poly.getLsbD 0 = true) (c : BitVec w)
    (h : (msbFirst poly).step c = 0#w) : c = 0#w := by
  rw [msbFirst_step] at h
  have hmsb : c.msb = false := by
    have hbit := congrArg (fun x : BitVec w => x.getLsbD 0) h
    rw [getLsbD_xor,getLsbD_zero] at hbit
    cases hm : c.msb with
    | false => rfl
    | true =>
      rw [hm] at hbit
      simp [hodd] at hbit
  rw [hmsb] at h
  apply eq_of_getLsbD_eq
  intro i hi
  rw [getLsbD_zero]
  by_cases hlast : i = w-1
  · rw [hlast,← msb_eq_getLsbD_last,hmsb]
  · have hbit := congrArg (fun x : BitVec w => x.getLsbD (i+1)) h
    rw [getLsbD_eq_getElem hi]
    simpa [show i+1 < w by omega] using hbit

lemma lsbFirst_steps (poly : BitVec w) {n : ℕ}
    (h : ∀ i < n,c.getLsbD i = false) : (lsbFirst poly).step^[n] c = c >>> n := by
  rw [Register.steps_eq_shifts]
  · exact iterate_ushiftRight n c
  · intro i hi
    have hshift : (lsbFirst poly).shift^[i] c = c >>> i := iterate_ushiftRight i c
    rw [hshift]
    show (c >>> i).getLsbD 0 = false
    rw [getLsbD_ushiftRight,Nat.add_zero]
    exact h i hi

/-- So does division by one whose highest place is taken. -/
theorem lsbFirst_step_eq_zero {poly : BitVec w} (htop : poly.msb = true) (c : BitVec w)
    (h : (lsbFirst poly).step c = 0#w) : c = 0#w := by
  have hbits (i : ℕ) : (c.getLsbD (1+i) ^^ (c.getLsbD 0 && poly.getLsbD i)) = false := by
    have hbit := congrArg (fun x : BitVec w => x.getLsbD i) h
    change (c >>> 1 ^^^ if c.getLsbD 0 then poly else 0#w).getLsbD i = _ at hbit
    rw [getLsbD_xor,getLsbD_ushiftRight,getLsbD_zero] at hbit
    cases hc : c.getLsbD 0 <;> simpa [hc] using hbit
  have hlow : c.getLsbD 0 = false := by
    have hlast := hbits (w-1)
    rw [getLsbD_of_ge c _ (by omega),← msb_eq_getLsbD_last,htop] at hlast
    simpa using hlast
  apply eq_of_getLsbD_eq
  intro i _
  rw [getLsbD_zero]
  cases i with
  | zero => exact hlow
  | succ i =>
    have hbit := hbits i
    rw [hlow,Nat.add_comm] at hbit
    simpa using hbit

end Defib.ShiftRegisters
