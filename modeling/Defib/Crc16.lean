import Defib.ShiftRegisters
import Defib.YModemPackets
import Defib.RockusbCodec

/-!
# One CRC-16 in four forms

The frames of the boot ROM, the web page, the YMODEM packets and the upload of the other
boot ROM each have a routine of their own: with a table or bit by bit, over integers of
any size, of 32 bits or cut to 16 bits in every round, with two zero bytes fed at the end or
with the byte added at the top. All are the remainder of the data after division
by one polynomial.
-/
namespace Defib.Crc16
open BitVec Words BootFrames YModemPackets RockusbCodec ShiftRegisters

def webCrcTable : List ℕ :=
  [0x0000, 0x1021, 0x2042, 0x3063, 0x4084, 0x50a5, 0x60c6, 0x70e7,
   0x8108, 0x9129, 0xa14a, 0xb16b, 0xc18c, 0xd1ad, 0xe1ce, 0xf1ef,
   0x1231, 0x0210, 0x3273, 0x2252, 0x52b5, 0x4294, 0x72f7, 0x62d6,
   0x9339, 0x8318, 0xb37b, 0xa35a, 0xd3bd, 0xc39c, 0xf3ff, 0xe3de,
   0x2462, 0x3443, 0x0420, 0x1401, 0x64e6, 0x74c7, 0x44a4, 0x5485,
   0xa56a, 0xb54b, 0x8528, 0x9509, 0xe5ee, 0xf5cf, 0xc5ac, 0xd58d,
   0x3653, 0x2672, 0x1611, 0x0630, 0x76d7, 0x66f6, 0x5695, 0x46b4,
   0xb75b, 0xa77a, 0x9719, 0x8738, 0xf7df, 0xe7fe, 0xd79d, 0xc7bc,
   0x48c4, 0x58e5, 0x6886, 0x78a7, 0x0840, 0x1861, 0x2802, 0x3823,
   0xc9cc, 0xd9ed, 0xe98e, 0xf9af, 0x8948, 0x9969, 0xa90a, 0xb92b,
   0x5af5, 0x4ad4, 0x7ab7, 0x6a96, 0x1a71, 0x0a50, 0x3a33, 0x2a12,
   0xdbfd, 0xcbdc, 0xfbbf, 0xeb9e, 0x9b79, 0x8b58, 0xbb3b, 0xab1a,
   0x6ca6, 0x7c87, 0x4ce4, 0x5cc5, 0x2c22, 0x3c03, 0x0c60, 0x1c41,
   0xedae, 0xfd8f, 0xcdec, 0xddcd, 0xad2a, 0xbd0b, 0x8d68, 0x9d49,
   0x7e97, 0x6eb6, 0x5ed5, 0x4ef4, 0x3e13, 0x2e32, 0x1e51, 0x0e70,
   0xff9f, 0xefbe, 0xdfdd, 0xcffc, 0xbf1b, 0xaf3a, 0x9f59, 0x8f78,
   0x9188, 0x81a9, 0xb1ca, 0xa1eb, 0xd10c, 0xc12d, 0xf14e, 0xe16f,
   0x1080, 0x00a1, 0x30c2, 0x20e3, 0x5004, 0x4025, 0x7046, 0x6067,
   0x83b9, 0x9398, 0xa3fb, 0xb3da, 0xc33d, 0xd31c, 0xe37f, 0xf35e,
   0x02b1, 0x1290, 0x22f3, 0x32d2, 0x4235, 0x5214, 0x6277, 0x7256,
   0xb5ea, 0xa5cb, 0x95a8, 0x8589, 0xf56e, 0xe54f, 0xd52c, 0xc50d,
   0x34e2, 0x24c3, 0x14a0, 0x0481, 0x7466, 0x6447, 0x5424, 0x4405,
   0xa7db, 0xb7fa, 0x8799, 0x97b8, 0xe75f, 0xf77e, 0xc71d, 0xd73c,
   0x26d3, 0x36f2, 0x0691, 0x16b0, 0x6657, 0x7676, 0x4615, 0x5634,
   0xd94c, 0xc96d, 0xf90e, 0xe92f, 0x99c8, 0x89e9, 0xb98a, 0xa9ab,
   0x5844, 0x4865, 0x7806, 0x6827, 0x18c0, 0x08e1, 0x3882, 0x28a3,
   0xcb7d, 0xdb5c, 0xeb3f, 0xfb1e, 0x8bf9, 0x9bd8, 0xabbb, 0xbb9a,
   0x4a75, 0x5a54, 0x6a37, 0x7a16, 0x0af1, 0x1ad0, 0x2ab3, 0x3a92,
   0xfd2e, 0xed0f, 0xdd6c, 0xcd4d, 0xbdaa, 0xad8b, 0x9de8, 0x8dc9,
   0x7c26, 0x6c07, 0x5c64, 0x4c45, 0x3ca2, 0x2c83, 0x1ce0, 0x0cc1,
   0xef1f, 0xff3e, 0xcf5d, 0xdf7c, 0xaf9b, 0xbfba, 0x8fd9, 0x9ff8,
   0x6e17, 0x7e36, 0x4e55, 0x5e74, 0x2e93, 0x3eb2, 0x0ed1, 0x1ef0]

/-- One round of the web page; its integers have 32 bits and a sign. -/
def webCrcStep (crc : BitVec 32) (b : Byte) : BitVec 32 :=
  ((crc <<< 8) ||| b.setWidth 32) ^^^
    BitVec.ofNat 32 (webCrcTable.getD (crc.sshiftRight 8 &&& 0xff#32).toNat 0)

/-- `calcCrc` of the web page. -/
def webCalcCrc (data : List Byte) : ℕ :=
  ((data++[0,0]).foldl webCrcStep 0#32 &&& 0xffff#32).toNat

/-! ### The register -/

def place : BitVec 16 → BitVec 16 := (msbFirst 0x1021#16).step^[8]

lemma place_xor : XorHom place := (msbFirst 0x1021#16).step_xor.iterate 8

def low (b : Byte) : BitVec 16 := b.setWidth 16

lemma low_xor : XorHom low := fun _ _ => setWidth_xor

def folded (b : Byte) : BitVec 16 := place (low b <<< 8)

lemma place_low (b : Byte) : place (low b) = low b <<< 8 := by
  refine msbFirst_steps _ fun i hi => ?_
  simp [low,getMsbD_setWidth]
  omega

lemma crcTable_eq : ∀ i < 256,
    BitVec.ofNat 16 (crcTable.getD i 0) = place (BitVec.ofNat 16 i <<< 8) := by
  decide +kernel

lemma webCrcTable_eq : webCrcTable = crcTable := by decide +kernel

lemma place_split (c : BitVec 16) : place c = place ((c >>> 8) <<< 8) ^^^ (c <<< 8) := by
  have hsplit : c = ((c >>> 8) <<< 8) ^^^ low (c.setWidth 8) := by
    apply eq_of_getLsbD_eq
    intro i hi
    by_cases h : i < 8
    · simp [low,h]
      omega
    · have hidx : 8+(i-8) = i := by omega
      simp [low,h,hi,hidx]
  have hlow : low (c.setWidth 8) <<< 8 = c <<< 8 := by
    apply eq_of_getLsbD_eq
    intro i hi
    by_cases h : i < 8
    · simp [low,h]
    · simp [low,h,hi,show i-8 < 8 by omega,show i-8 < 16 by omega]
  conv_lhs => rw [hsplit]
  rw [place_xor,place_low,hlow]

lemma ofNat_shiftRight_byte (n : ℕ) :
    BitVec.ofNat 16 ((n >>> 8)%256) = BitVec.ofNat 16 n >>> 8 := by
  apply eq_of_toNat_eq
  simp only [toNat_ofNat,toNat_ushiftRight,Nat.shiftRight_eq_div_pow]
  omega

lemma ofNat_shiftLeft_byte (n : ℕ) : BitVec.ofNat 16 (n <<< 8) = BitVec.ofNat 16 n <<< 8 := by
  apply eq_of_toNat_eq
  simp only [toNat_ofNat,toNat_shiftLeft,Nat.shiftLeft_eq]
  omega

lemma ofNat_toNat_byte (b : Byte) : BitVec.ofNat 16 b.toNat = low b := by
  apply eq_of_toNat_eq
  simp [low]

lemma shiftLeft_or_byte {w : ℕ} (c : BitVec w) (b : Byte) :
    (c <<< 8) ||| b.setWidth w = (c <<< 8) ^^^ b.setWidth w := by
  apply eq_of_getLsbD_eq
  intro i hi
  by_cases h : i < 8
  · simp [h]
  · simp [h,getLsbD_of_ge b i (by omega)]

/-! ### The rounds -/

lemma ofNat_crcStep (n : ℕ) (b : Byte) :
    BitVec.ofNat 16 (crcStep n b) = place (BitVec.ofNat 16 n) ^^^ low b := by
  rw [crcStep,ofNat_xor,ofNat_or,ofNat_shiftLeft_byte,ofNat_toNat_byte,low,
    shiftLeft_or_byte,crcTable_eq _ (Nat.mod_lt _ (by decide)),ofNat_shiftRight_byte,
    place_split (BitVec.ofNat 16 n)]
  ac_rfl

lemma ofNat_rkCrcStep (n : ℕ) (b : Byte) :
    BitVec.ofNat 16 (rkCrcStep n b) = place (BitVec.ofNat 16 n) ^^^ folded b := by
  have hindex : ((n >>> 8) ^^^ b.toNat) &&& 0xFF = ((n >>> 8)%256) ^^^ b.toNat := by
    have hmask (m : ℕ) : m &&& 0xFF = m%256 := Nat.and_two_pow_sub_one_eq_mod m 8
    rw [Nat.and_xor_distrib_right,hmask,hmask,Nat.mod_eq_of_lt b.isLt]
  have hshift : BitVec.ofNat 16 ((n <<< 8) &&& 0xFFFF) = BitVec.ofNat 16 n <<< 8 := by
    rw [ofNat_and,ofNat_shiftLeft_byte]
    exact and_allOnes
  have hlt : ((n >>> 8)%256) ^^^ b.toNat < 256 :=
    Nat.xor_lt_two_pow (n := 8) (Nat.mod_lt _ (by decide)) b.isLt
  rw [rkCrcStep,ofNat_xor,hshift,hindex,crcTable_eq _ hlt,ofNat_xor,
    ofNat_shiftRight_byte,ofNat_toNat_byte,BitVec.shiftLeft_xor_distrib,place_xor,
    place_split (BitVec.ofNat 16 n),folded]
  ac_rfl

lemma and_topBit (n : ℕ) : n &&& 0x8000 ≠ 0 ↔ n.testBit 15 = true := by
  have hbit (i : ℕ) : (n &&& 0x8000).testBit i = (n.testBit i && decide (15 = i)) := by
    rw [Nat.testBit_and,show 0x8000 = 2^15 from rfl,Nat.testBit_two_pow]
  constructor
  · intro h
    by_contra hfalse
    rw [Bool.not_eq_true] at hfalse
    refine h (Nat.eq_of_testBit_eq fun i => ?_)
    rw [hbit,Nat.zero_testBit]
    by_cases hi : 15 = i
    · rw [← hi,hfalse]
      rfl
    · simp [hi]
  · intro h hzero
    have htop := hbit 15
    rw [hzero,Nat.zero_testBit,h] at htop
    cases htop

lemma ofNat_crcShift (n : ℕ) :
    BitVec.ofNat 16 (crcShift n) = (msbFirst 0x1021#16).step (BitVec.ofNat 16 n) := by
  have hmsb : (BitVec.ofNat 16 n).msb = n.testBit 15 := by
    rw [msb_eq_getLsbD_last,getLsbD_ofNat]
    rfl
  have hdouble : BitVec.ofNat 16 (n <<< 1) = BitVec.ofNat 16 n <<< 1 := by
    apply eq_of_toNat_eq
    simp only [toNat_ofNat,toNat_shiftLeft,Nat.shiftLeft_eq]
    omega
  have hcut (m : ℕ) : BitVec.ofNat 16 (m%65536) = BitVec.ofNat 16 m := by
    apply eq_of_toNat_eq
    simp only [toNat_ofNat]
    omega
  rw [crcShift,msbFirst_step,hmsb]
  simp only [and_topBit]
  split_ifs with h
  · rw [hcut,ofNat_xor,hdouble]
  · rw [hcut,hdouble,BitVec.xor_zero]

lemma setWidth_webCrcStep (c : BitVec 32) (b : Byte) :
    (webCrcStep c b).setWidth 16 = place (c.setWidth 16) ^^^ low b := by
  have hindex : BitVec.ofNat 16 (c.sshiftRight 8 &&& 0xff#32).toNat = (c.setWidth 16) >>> 8 := by
    rw [BitVec.ofNat_toNat]
    apply eq_of_getLsbD_eq
    intro i hi
    rw [getLsbD_setWidth,getLsbD_and,getLsbD_byteMask (by omega),
      getLsbD_sshiftRight,
      getLsbD_ushiftRight,getLsbD_setWidth]
    by_cases h : i < 8
    · simp [h,hi,show 8+i < 32 by omega,show 8+i < 16 by omega,show ¬32 ≤ i by omega]
    · simp [h]
      omega
  have hlt : (c.sshiftRight 8 &&& 0xff#32).toNat < 256 := by
    rw [toNat_and]
    exact Nat.lt_succ_of_le Nat.and_le_right
  have hshift : (c <<< 8).setWidth 16 = c.setWidth 16 <<< 8 := by
    apply eq_of_getLsbD_eq
    intro i hi
    by_cases h : i < 8
    · simp [h]
    · simp [h,hi]
  rw [webCrcStep,webCrcTable_eq,shiftLeft_or_byte,setWidth_xor,setWidth_xor,hshift,
    setWidth_setWidth_of_le _ (by decide),setWidth_ofNat_of_le (by decide),
    crcTable_eq _ hlt,hindex,place_split (c.setWidth 16),low]
  ac_rfl

/-! ### The whole data -/

/-- The remainder of the data with two bytes of room behind it. -/
def remainder (data : List Byte) : BitVec 16 := horner place folded 0#16 data

lemma horner_low_zeros (data : List Byte) :
    horner place low 0#16 (data++[0,0]) = remainder data := by
  have htwo : XorHom place^[2] := place_xor.iterate 2
  have hdigit : place^[2] ∘ low = folded := by
    funext b
    show place (place (low b)) = _
    rw [place_low,folded]
  have hzeros : horner place low (horner place low 0#16 data) (List.replicate 2 0#8) =
      place^[2] (horner place low 0#16 data) := horner_zeros low_xor.map_zero 2 _
  rw [horner_append]
  refine hzeros.trans ?_
  have hhom : place^[2] (horner place low 0#16 data) =
      horner place (place^[2] ∘ low) (place^[2] 0#16) data :=
    horner_hom htwo ((Function.Commute.refl place).iterate_left 2) 0#16 data
  rw [hhom,hdigit,htwo.map_zero,remainder]

lemma foldl_eq_horner {α : Type*} {view : α → BitVec 16} {round : α → Byte → α}
    {digit : Byte → BitVec 16} (h : ∀ a b,view (round a b) = place (view a) ^^^ digit b) (a : α)
    (data : List Byte) : view (data.foldl round a) = horner place digit (view a) data := by
  induction data generalizing a with
  | nil => rfl
  | cons b data ih => rw [List.foldl_cons,ih,h,horner,horner,List.foldl_cons]

lemma calcCrc_eq (data : List Byte) : calcCrc data = (remainder data).toNat := by
  have hfold := foldl_eq_horner ofNat_crcStep 0 (data++[0,0])
  rw [calcCrc,← horner_low_zeros,← hfold,toNat_ofNat]

lemma and_word (m : ℕ) : m &&& 0xFFFF = m%2^16 := Nat.and_two_pow_sub_one_eq_mod m 16

lemma webCalcCrc_eq (data : List Byte) : webCalcCrc data = (remainder data).toNat := by
  have hfold := foldl_eq_horner setWidth_webCrcStep 0#32 (data++[0,0])
  rw [webCalcCrc,← horner_low_zeros,toNat_and]
  exact (and_word _).trans ((toNat_setWidth _ _).symm.trans (congrArg BitVec.toNat hfold))

/-- From any start: division by the polynomial 0x1021, most significant bit first. -/
theorem rkCrc16_eq (data : List Byte) (crc : ℕ) :
    rkCrc16 data crc = (horner place folded (BitVec.ofNat 16 crc) data).toNat := by
  have hfold := foldl_eq_horner ofNat_rkCrcStep crc data
  rw [rkCrc16,and_word,← toNat_ofNat,hfold]

lemma ofNat_crcShifts (n k : ℕ) :
    BitVec.ofNat 16 (crcShift^[k] n) = (msbFirst 0x1021#16).step^[k] (BitVec.ofNat 16 n) := by
  induction k with
  | zero => rfl
  | succ k ih => rw [Function.iterate_succ_apply',ofNat_crcShift,ih,Function.iterate_succ_apply']

lemma crc16Xmodem_eq (data : List Byte) : crc16Xmodem data = (remainder data).toNat := by
  have hround (n : ℕ) (b : Byte) : BitVec.ofNat 16 (crcShift^[8] (n ^^^ (b.toNat <<< 8))) =
      place (BitVec.ofNat 16 n) ^^^ folded b := by
    rw [ofNat_crcShifts,ofNat_xor,ofNat_shiftLeft_byte,ofNat_toNat_byte]
    exact place_xor _ _
  have hfold := foldl_eq_horner hround 0 data
  rw [remainder,← hfold,toNat_ofNat]
  exact (Nat.mod_eq_of_lt (crc16Xmodem_lt data)).symm

/-- The four routines return the same 16 bits. -/
theorem crc16_forms_agree (data : List Byte) : calcCrc data < 65536 ∧
    webCalcCrc data = calcCrc data ∧ crc16Xmodem data = calcCrc data ∧
    rkCrc16 data 0 = calcCrc data := by
  have hrk : rkCrc16 data 0 = (remainder data).toNat := rkCrc16_eq data 0
  rw [webCalcCrc_eq,crc16Xmodem_eq,hrk,calcCrc_eq]
  exact ⟨(remainder data).isLt,rfl,rfl,rfl⟩

end Defib.Crc16
