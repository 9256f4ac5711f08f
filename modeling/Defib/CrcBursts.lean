import Defib.BlockMemory
import Defib.Crc16
import Defib.Endian

/-!
# Bursts in a frame

Over a whole frame, checksum included, the remainder is zero exactly if the checksum is
right. A change adds its own remainder. Sixteen consecutive bits lie in three bytes,
and the remainder of these is zero only if nothing has changed; what follows moves the
register on, which never makes it zero.
-/
namespace Defib.CrcBursts
open List BitVec Words BlockMemory BootFrames ShiftRegisters Crc16

/-- Which bit of a byte is counted first. -/
inductive BitOrder where
  | msbFirst
  | lsbFirst
  deriving DecidableEq, Repr

def byteBit : BitOrder → Byte → ℕ → Bool
  | .msbFirst,b,t => b.getMsbD t
  | .lsbFirst,b,t => b.getLsbD t

def frameBit (order : BitOrder) (frame : List Byte) (k : ℕ) : Bool :=
  byteBit order (frame.getD (k/8) 0) (k%8)

/-- A change of `frame` that is confined to 16 consecutive bits. -/
structure Burst (order : BitOrder) (frame frame' : List Byte) : Prop where
  length : frame'.length = frame.length
  changed : frame' ≠ frame
  confined : ∃ i,∀ k,k < i ∨ i+16 ≤ k → frameBit order frame' k = frameBit order frame k

/-! ### The remainder of a frame -/

def syndrome (frame : List Byte) : BitVec 16 := horner place low 0#16 frame

lemma horner_two (c : BitVec 16) (x y : Byte) :
    horner place low c [x,y] = place^[2] c ^^^ (low x <<< 8 ^^^ low y) := by
  show place (place c ^^^ low x) ^^^ low y = place (place c) ^^^ _
  rw [place_xor,place_low,BitVec.xor_assoc]

lemma syndrome_append (p : List Byte) (x y : Byte) :
    syndrome (p++[x,y]) = remainder p ^^^ (low x <<< 8 ^^^ low y) := by
  have hrem := horner_low_zeros p
  rw [horner_append,horner_two] at hrem
  rw [syndrome,horner_append,horner_two,← hrem]
  simp [low]

lemma toNat_bytes (x y : Byte) : (low x <<< 8 ^^^ low y).toNat = x.toNat*256+y.toNat := by
  have hx := x.isLt
  have hy := y.isLt
  have hshift : x.toNat <<< 8 < 2^16 := by
    rw [Nat.shiftLeft_eq]
    omega
  rw [low,low,← shiftLeft_or_byte]
  simp only [toNat_or,toNat_shiftLeft,toNat_setWidth]
  rw [Nat.mod_eq_of_lt (show x.toNat < 2^16 by omega),Nat.mod_eq_of_lt hshift,
    Nat.mod_eq_of_lt (show y.toNat < 2^16 by omega),Endian.shiftLeft_or _ hy]

lemma verifyCrc_iff {frame : List Byte} (h : 3 ≤ frame.length) :
    verifyCrc frame = true ↔ syndrome frame = 0#16 := by
  obtain ⟨x,y,htail⟩ : ∃ x y,frame.drop (frame.length-2) = [x,y] := by
    refine length_eq_two.mp ?_
    rw [length_drop]
    omega
  have hframe : frame = frame.take (frame.length-2)++[x,y] := by
    rw [← htail,take_append_drop]
  have hcrc : verifyCrc frame = true ↔
      calcCrc (frame.take (frame.length-2)) = x.toNat*256+y.toNat := by
    rw [verifyCrc,if_neg (by omega)]
    simp only [htail,getD_cons_zero,getD_cons_succ,decide_eq_true_eq]
  rw [hcrc,calcCrc_eq,← toNat_bytes,toNat_inj]
  conv_rhs => rw [hframe,syndrome_append]
  exact BitVec.xor_eq_zero_iff.symm

lemma place_eq_zero (c : BitVec 16) (h : place c = 0#16) : c = 0#16 :=
  iterate_eq_zero (msbFirst_step_eq_zero (by decide)) 8 h

/-! ### Three bytes -/

/-- No one among the bits of a byte from `lo` to `hi`. -/
def bitsClear (order : BitOrder) (b : Byte) (lo hi : ℕ) : Prop :=
  ∀ t < 8,lo ≤ t ∧ t < hi → byteBit order b t = false

instance (order : BitOrder) (b : Byte) (lo hi : ℕ) : Decidable (bitsClear order b lo hi) :=
  Nat.decidableBallLT _ _

lemma folded_outside (order : BitOrder) : ∀ s < 8,∀ n < 256,
    bitsClear order (BitVec.ofNat 8 n) 0 s ∧
      bitsClear order ((folded (BitVec.ofNat 8 n)).setWidth 8) s 8 → n = 0 := by
  cases order with
  | msbFirst => decide +kernel
  | lsbFirst => decide +kernel

lemma syndrome_three (x y z : Byte) :
    syndrome [x,y,z] = folded x ^^^ (low y <<< 8 ^^^ low z) := by
  have hfirst : place 0#16 ^^^ low x = low x := by rw [place_xor.map_zero,BitVec.zero_xor]
  show horner place low (place 0#16 ^^^ low x) [y,z] = _
  rw [horner_two,hfirst]
  show place (place (low x)) ^^^ _ = _
  rw [place_low,folded]

lemma setWidth_bytes (y z : Byte) : (low y <<< 8 ^^^ low z).setWidth 8 = z := by
  apply eq_of_getLsbD_eq
  intro i hi
  simp [low,hi]

variable {order : BitOrder}

lemma syndrome_burst {s : ℕ} (hs : s < 8) {x y z : Byte}
    (hx : bitsClear order x 0 s) (hz : bitsClear order z s 8) (h : syndrome [x,y,z] = 0#16) :
    x = 0#8 ∧ y = 0#8 ∧ z = 0#8 := by
  rw [syndrome_three] at h
  have hfold : folded x = low y <<< 8 ^^^ low z := BitVec.xor_eq_zero_iff.mp h
  have hx0 : x = 0#8 := by
    have hbyte : BitVec.ofNat 8 x.toNat = x := by simp
    have hzero := folded_outside order s hs x.toNat x.isLt
    rw [hbyte,hfold,setWidth_bytes] at hzero
    exact eq_of_toNat_eq (hzero ⟨hx,hz⟩)
  have hfolded : folded 0#8 = 0#16 := by
    rw [folded,low_xor.map_zero,BitVec.zero_shiftLeft,place_xor.map_zero]
  have hrest := toNat_bytes y z
  rw [← hfold,hx0,hfolded,toNat_zero] at hrest
  exact ⟨hx0,eq_of_toNat_eq (by rw [toNat_zero]; omega),
    eq_of_toNat_eq (by rw [toNat_zero]; omega)⟩

/-! ### A change of a frame -/

def change (frame frame' : List Byte) : List Byte := List.zipWith (· ^^^ ·) frame frame'

variable {frame frame' : List Byte}

lemma syndrome_change (h : frame.length = frame'.length) :
    syndrome (change frame frame') = syndrome frame ^^^ syndrome frame' := by
  have hsum := horner_xor place_xor low_xor 0#16 0#16 h
  rwa [BitVec.xor_self] at hsum

lemma change_getD (h : frame.length = frame'.length) (j : ℕ) :
    (change frame frame').getD j 0 = frame.getD j 0 ^^^ frame'.getD j 0 := by
  have hlen : (change frame frame').length = frame.length := by
    rw [change,length_zipWith,h,Nat.min_self]
  by_cases hj : j < frame.length
  · rw [getD_eq_getElem _ _ (hlen ▸ hj),getD_eq_getElem _ _ hj,
      getD_eq_getElem _ _ (h ▸ hj)]
    exact getElem_zipWith
  · rw [getD_eq_default _ _ (by omega),getD_eq_default _ _ (by omega),
      getD_eq_default _ _ (by omega)]
    rfl

lemma slice_eq_zeros {f : ℕ → Byte} {a n : ℕ} (h : ∀ j < n,f (a+j) = 0) :
    slice f a n = List.replicate n 0 := by
  refine eq_replicate_iff.mpr ⟨slice_length f a n,fun b hb => ?_⟩
  obtain ⟨j,hj,rfl⟩ := mem_map.mp hb
  exact h j (mem_range.mp hj)

lemma slice_getD (e : List Byte) (k : ℕ) :
    slice (fun j => e.getD j 0) 0 (e.length+k) = e++List.replicate k 0 := by
  have hfront : slice (fun j => e.getD j 0) 0 e.length = e := by
    refine slice_eq_list_iff.mpr fun i hi => ?_
    rw [Nat.zero_add,getD_eq_getElem _ _ hi]
  rw [slice_add,hfront,slice_eq_zeros fun j _ => getD_eq_default _ _ (by omega)]

lemma syndrome_places {e : List Byte} {i : ℕ} (hi : i ≤ e.length)
    (hzero : ∀ j,j < i ∨ i+3 ≤ j → e.getD j 0 = 0) (h : syndrome e = 0#16) :
    syndrome [e.getD i 0,e.getD (i+1) 0,e.getD (i+2) 0] = 0#16 := by
  obtain ⟨m,hm⟩ := Nat.exists_eq_add_of_le hi
  have hlow : low 0#8 = 0#16 := low_xor.map_zero
  have hshape : e++List.replicate 3 0 = List.replicate i 0++
      ([e.getD i 0,e.getD (i+1) 0,e.getD (i+2) 0]++List.replicate m 0) := by
    have hbefore := slice_eq_zeros (f := fun j => e.getD j 0) (a := 0) (n := i)
      fun j hj => hzero _ (by omega)
    have hafter := slice_eq_zeros (f := fun j => e.getD j 0) (a := i+3) (n := m)
      fun j hj => hzero _ (by omega)
    rw [← slice_getD,show e.length+3 = i+(3+m) by omega,slice_add,slice_add,hbefore,Nat.zero_add,
      hafter]
    rfl
  have hplaces : place^[m] (syndrome [e.getD i 0,e.getD (i+1) 0,e.getD (i+2) 0]) = 0#16 := by
    have hzeros : syndrome (e++List.replicate 3 0) = 0#16 := by
      rw [syndrome,horner_append]
      exact (horner_zeros hlow 3 _).trans ((congrArg _ h).trans (place_xor.iterate 3).map_zero)
    rw [hshape,syndrome,horner_append,horner_append] at hzeros
    have hfirst : horner place low 0#16 (List.replicate i 0) = 0#16 :=
      (horner_zeros hlow i _).trans (place_xor.iterate i).map_zero
    rw [hfirst] at hzeros
    exact (horner_zeros hlow m _).symm.trans hzeros
  exact iterate_eq_zero place_eq_zero m hplaces

lemma byteBit_xor (order : BitOrder) (a b : Byte) (t : ℕ) :
    byteBit order (a ^^^ b) t = (byteBit order a t ^^ byteBit order b t) := by
  cases order with
  | msbFirst => exact getMsbD_xor
  | lsbFirst => exact getLsbD_xor

lemma eq_zero_of_bitsClear {b : Byte} (h : bitsClear order b 0 8) : b = 0#8 := by
  apply eq_of_getLsbD_eq
  intro i hi
  rw [getLsbD_zero]
  cases order with
  | msbFirst =>
    have hbit := h (7-i) (by omega) ⟨Nat.zero_le _,by omega⟩
    rw [byteBit,getMsbD_eq_getLsbD,show 8-1-(7-i) = i by omega] at hbit
    simpa [show 7-i < 8 by omega] using hbit
  | lsbFirst => exact h i hi ⟨Nat.zero_le _,hi⟩

lemma change_eq_zero (hlen : frame.length = frame'.length)
    (hconf : ∃ i,∀ k,k < i ∨ i+16 ≤ k → frameBit order frame' k = frameBit order frame k)
    (h : syndrome (change frame frame') = 0#16) (j : ℕ) : (change frame frame').getD j 0 = 0 := by
  obtain ⟨i,hconf⟩ := hconf
  have hclear (j lo hi : ℕ) (hout : 8*j+hi ≤ i ∨ i+16 ≤ 8*j+lo) :
      bitsClear order ((change frame frame').getD j 0) lo hi := by
    intro t ht ⟨hlo,hhi⟩
    have hbit := hconf (8*j+t) (by omega)
    rw [frameBit,frameBit,show (8*j+t)/8 = j by omega,show (8*j+t)%8 = t by omega] at hbit
    rw [change_getD hlen,byteBit_xor,hbit,Bool.xor_self]
  have hzero (j : ℕ) (hj : j < i/8 ∨ i/8+3 ≤ j) : (change frame frame').getD j 0 = 0 :=
    eq_zero_of_bitsClear (hclear j 0 8 (by omega))
  by_cases hi : i/8 ≤ (change frame frame').length
  · obtain ⟨hx,hy,hz⟩ := syndrome_burst (Nat.mod_lt i (by decide)) (hclear (i/8) 0 (i%8) (by omega))
      (hclear (i/8+2) (i%8) 8 (by omega)) (syndrome_places hi hzero h)
    by_cases hj : j < i/8 ∨ i/8+3 ≤ j
    · exact hzero j hj
    · obtain rfl | rfl | rfl : j = i/8 ∨ j = i/8+1 ∨ j = i/8+2 := by omega
      · exact hx
      · exact hy
      · exact hz
  · by_cases hj : j < i/8
    · exact hzero j (.inl hj)
    · exact getD_eq_default _ _ (by omega)

lemma Burst.syndrome_ne
    (h : Burst order frame frame') (hframe : syndrome frame = 0#16) : syndrome frame' ≠ 0#16 := by
  intro hframe'
  have hlen := h.length.symm
  have hsum : syndrome (change frame frame') = 0#16 := by
    rw [syndrome_change hlen,hframe,hframe',BitVec.xor_self]
  refine h.changed (ext_getElem h.length fun j hj hj' => ?_)
  have hplace := change_eq_zero hlen h.confined hsum j
  rw [change_getD hlen,getD_eq_getElem _ _ hj,getD_eq_getElem _ _ hj'] at hplace
  exact (BitVec.xor_eq_zero_iff.mp hplace).symm

/-- A frame is accepted as it was sent, and with no burst of up to 16 bits in it. -/
theorem frame_crc_detects_bursts {data : List Byte} (hdata : data ≠ []) :
    verifyCrc (appendCrc data) = true ∧
      ∀ order frame',Burst order (appendCrc data) frame' → verifyCrc frame' = false := by
  have hvalid := verifyCrc_appendCrc hdata
  have hlen : 3 ≤ (appendCrc data).length := by
    have hpos := length_pos_iff.mpr hdata
    rw [appendCrc_length]
    omega
  refine ⟨hvalid,fun order frame' hburst => ?_⟩
  have hne := hburst.syndrome_ne ((verifyCrc_iff hlen).mp hvalid)
  rw [← Bool.not_eq_true,verifyCrc_iff (hburst.length ▸ hlen)]
  exact hne

/-- The last bit of the data and the first of the checksum. -/
theorem letter_frame_burst : Burst .msbFirst (appendCrc [0x41]) [0x40,0xD8,0xE5] ∧
    verifyCrc (appendCrc [0x41]) = true ∧ verifyCrc [0x40,0xD8,0xE5] = false := by
  have hframe : appendCrc [0x41] = [0x41,0x58,0xE5] := by decide +kernel
  have hburst : Burst .msbFirst (appendCrc [0x41]) [0x40,0xD8,0xE5] := by
    rw [hframe]
    refine ⟨rfl,by decide,7,fun k hk => ?_⟩
    by_cases hlong : 24 ≤ k
    · rw [frameBit,frameBit,getD_eq_default _ _ (by simp only [length_cons,length_nil]; omega),
        getD_eq_default _ _ (by simp only [length_cons,length_nil]; omega)]
    · have hall : ∀ k < 24,k < 7 ∨ 23 ≤ k → frameBit .msbFirst [0x40,0xD8,0xE5] k =
          frameBit .msbFirst [0x41,0x58,0xE5] k := by decide
      exact hall k (by omega) hk
  have hdetect := frame_crc_detects_bursts (cons_ne_nil (0x41 : Byte) [])
  exact ⟨hburst,hdetect.1,hdetect.2 _ _ hburst⟩

end Defib.CrcBursts
