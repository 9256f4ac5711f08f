import Mathlib.Tactic.IntervalCases
import Defib.AgentReads

/-!
# When a checksum is the checksum of what a read streams

Both commands accept a request on the same test, so agreement is a question about
two byte functions on the range, `readByte` and `crcByte`. They are equal where
both go to the same region and a register packet never crosses a word; in every
other case some register or card content makes exactly one byte differ, and a
single differing byte always shows in the checksum.
-/
namespace Defib.ReadCrcAgreement
open Words BlockMemory Crc32 Boards FlashDevice AgentMachine AgentReads

variable {b : Board}

/-- The value a checksum request returns after a read of the same range is the
checksum of the bytes that read streamed. -/
def Agree (s : Machine b) (data : List Byte) : Prop :=
  (handleCrc32Cmd (handleRead s data).2 data).1 =
    [⟨rspCrc32,writeLe32 (crc32 0 (streamed (handleRead s data).1)).toNat⟩]

lemma agree_iff_bytes (s : Machine b) {data : List Byte} (hlen : 8 ≤ data.length)
    (hserved : readServed b (readLe32 data 0) (readLe32 data 4) = true) :
    Agree s data ↔
      crc32 0 (slice (crcByte s (readLe32 data 0) (readLe32 data 4)) 0 (readLe32 data 4)) =
      crc32 0 (slice (readByte s (readLe32 data 0) (readLe32 data 4)) 0 (readLe32 data 4)) := by
  have hacc : readAccepted b (readLe32 data 0) (readLe32 data 4) = true := by
    simp only [readServed,Bool.and_eq_true] at hserved
    exact hserved.1
  obtain ⟨hbytes,_,hsame⟩ := handleRead_spec s hlen hserved
  have hcrc : crcByte (handleRead s data).2 (readLe32 data 0) (readLe32 data 4) =
      crcByte s (readLe32 data 0) (readLe32 data 4) := by
    funext k
    simp only [crcByte,ioByte,hsame.mem,hsame.io,hsame.view]
  rw [Agree,handleCrc32Cmd_spec _ hlen hacc,hbytes,hcrc]
  refine ⟨fun h => ?_,fun h => by rw [h]⟩
  simp only [List.cons.injEq,Frame.mk.injEq,true_and,and_true] at h
  exact BitVec.eq_of_toNat_eq (writeLe32_injective (BitVec.isLt _) (BitVec.isLt _) h)

lemma crc32_slice_single {f g : ℕ → Byte} {n j : ℕ} (hj : j < n)
    (hne : ∀ k, k ≠ j → f k = g k) (h : crc32 0 (slice f 0 n) = crc32 0 (slice g 0 n)) :
    f j = g j := by
  have hsplit (f : ℕ → Byte) : slice f 0 n = slice f 0 j++f j::slice f (j+1) (n-j-1) := by
    rw [show n = j+(n-j-1+1) by omega,slice_add,slice_succ,Nat.zero_add]
    rw [show j+(n-j-1+1)-j-1 = n-j-1 by omega]
  have hlow : slice f 0 j = slice g 0 j := slice_congr fun i hi => hne _ (by omega)
  have hhigh : slice f (j+1) (n-j-1) = slice g (j+1) (n-j-1) :=
    slice_congr fun i _ => hne _ (by omega)
  rw [hsplit f,hsplit g,hlow,hhigh] at h
  exact crc32_single_byte h

/-! ### Registers -/

/-- Offset `k` of a register read is fetched from the word that holds it. -/
def inWord (addr k : ℕ) : Prop := (addr+(k-k%1022))%4+k%1022%4 < 4

instance (addr k : ℕ) : Decidable (inWord addr k) := inferInstanceAs (Decidable (_ < _))

lemma ioReadByte_inWord (s : Machine b) {addr k : ℕ} (h : inWord addr k) :
    ioReadByte s addr k = ioByte s (addr+k) := by
  unfold inWord at h
  have hword : (addr+(k-k%1022)+k%1022/4*4)/4*4 = (addr+k)/4*4 := by omega
  have hshift : (addr+(k-k%1022)+k%1022/4*4)%4+k%1022%4 = (addr+k)%4 := by omega
  simp only [ioReadByte,ioByte,hword,hshift]

lemma ioReadByte_not_inWord (s : Machine b) {addr k : ℕ} (h : ¬inWord addr k) :
    ioReadByte s addr k = 0 := by
  unfold inWord at h
  simp only [ioReadByte,byteAt]
  rw [BitVec.ushiftRight_eq_zero (by omega)]
  rfl

/-- All offsets are in their words for one aligned packet (a second one may only fill
up its first word), or for a range inside one word. -/
def ioAligned (addr size : ℕ) : Bool := (addr%4 = 0 && size ≤ 1024) || addr%4+size ≤ 4

lemma ioAligned_iff (addr size : ℕ) :
    ioAligned addr size = true ↔ ∀ k < size, inWord addr k := by
  simp only [ioAligned,Bool.or_eq_true,Bool.and_eq_true,decide_eq_true_eq]
  constructor
  · intro h k hk
    unfold inWord
    omega
  · intro h
    by_contra hbad
    rcases Nat.eq_zero_or_pos (addr%4) with h0 | hpos
    · have hk := h 1024 (by omega)
      unfold inWord at hk
      omega
    · have hk := h (4-addr%4) (by omega)
      unfold inWord at hk
      omega

/-- Registers that are zero but for the byte at `x`. -/
def probe (x w : ℕ) : BitVec 32 := if w = x/4*4 then 1#32 <<< (x%4*8) else 0

lemma ioByte_probe {s : Machine b} {x : ℕ} (h : s.io = probe x) (y : ℕ) :
    ioByte s y = if y = x then 1 else 0 := by
  rw [ioByte,h,probe]
  rcases eq_or_ne (y/4*4) (x/4*4) with hw | hw
  · rw [if_pos hw]
    have hy := Nat.mod_lt y (show 0 < 4 by decide)
    have hx := Nat.mod_lt x (show 0 < 4 by decide)
    have hiff : y = x ↔ y%4 = x%4 := by omega
    simp only [hiff]
    generalize y%4 = i at hy
    generalize x%4 = j at hx
    interval_cases i <;> interval_cases j <;> decide
  · rw [if_neg hw,if_neg (by rintro rfl; exact hw rfl)]
    simp [byteAt]

lemma ioReadByte_probe {s : Machine b} {addr x : ℕ} (h : s.io = probe x) (k : ℕ) :
    ioReadByte s addr k = if inWord addr k ∧ addr+k = x then 1 else 0 := by
  by_cases hk : inWord addr k
  · rw [ioReadByte_inWord s hk,ioByte_probe h]
    simp [hk]
  · rw [ioReadByte_not_inWord s hk]
    simp [hk]

/-! ### The flash window -/

lemma inFlashWindow_of_crcFlash {addr size : ℕ} (hsum : addr+size < 4294967296)
    (h : crcFlash b addr size = true) : inFlashWindow b addr size = true := by
  have hsize := b.flashInfo_size_lt
  have hmem : b.config.flashMem ≤ 0x58000000 := b.soc.flashMem_le
  simp only [crcFlash,inFlashWindow,Bool.and_eq_true,decide_eq_true_eq] at h ⊢
  refine ⟨h.1,?_⟩
  unfold u32 at h
  omega

lemma crcFlash_of_inFlashWindow {addr size : ℕ} (hspi : b.flashInfo.flashType ≠ .emmc)
    (hsum : addr+size < 4294967296) (h : inFlashWindow b addr size = true) :
    crcFlash b addr size = true := by
  have hsize := Board.flashInfo_spi_size hspi
  have hmem : b.config.flashMem ≤ 0x58000000 := b.soc.flashMem_le
  simp only [crcFlash,inFlashWindow,Bool.and_eq_true,decide_eq_true_eq] at h ⊢
  refine ⟨h.1,?_⟩
  unfold u32
  omega

lemma emmcPath_eq {addr size : ℕ} (h : b.flashInfo.flashType = .emmc) :
    emmcPath b addr size = inFlashWindow b addr size := by
  obtain ⟨c,hm⟩ := medium_emmc h
  have hknown := b.known _ hm
  simp only [Medium.knownTo] at hknown
  simp [emmcPath,h,hknown]

/-- Both commands go to the same region, registers in whole words. -/
def agreeWhen (b : Board) (addr size : ℕ) : Bool :=
  if isIoRegion b addr then !crcFlash b addr size && ioAligned addr size
  else !emmcPath b addr size

lemma crcByte_eq_readByte (s : Machine b) {addr size : ℕ} (hsum : addr+size < 4294967296)
    (h : agreeWhen b addr size = true) {k : ℕ} (hk : k < size) :
    crcByte s addr size k = readByte s addr size k := by
  unfold agreeWhen at h
  unfold crcByte readByte
  split_ifs at h with hio
  · simp only [Bool.and_eq_true,Bool.not_eq_true'] at h
    rw [if_neg (by simp [h.1]),if_pos hio,if_pos hio,
      ioReadByte_inWord s ((ioAligned_iff addr size).mp h.2 k hk)]
  · have hem : emmcPath b addr size = false := by simpa using h
    have hflash : crcFlash b addr size = inFlashWindow b addr size := by
      rw [Bool.eq_iff_iff]
      refine ⟨inFlashWindow_of_crcFlash hsum,fun hw => ?_⟩
      by_cases ht : b.flashInfo.flashType = .emmc
      · rw [emmcPath_eq ht,hw] at hem
        exact absurd hem (by decide)
      · exact crcFlash_of_inFlashWindow ht hsum hw
    simp only [hflash,hem,if_neg hio,Bool.false_eq_true,if_false]

section
variable {data : List Byte} (hlen : 8 ≤ data.length)
  (hserved : readServed b (readLe32 data 0) (readLe32 data 4) = true)
include hlen hserved

lemma not_agree_of_first_byte (s t : Machine b)
    (hcrc : crcByte s (readLe32 data 0) (readLe32 data 4) =
      crcByte t (readLe32 data 0) (readLe32 data 4))
    (hfirst : readByte s (readLe32 data 0) (readLe32 data 4) 0 ≠
      readByte t (readLe32 data 0) (readLe32 data 4) 0)
    (hrest : ∀ k, k ≠ 0 → readByte s (readLe32 data 0) (readLe32 data 4) k =
      readByte t (readLe32 data 0) (readLe32 data 4) k) :
    ¬(Agree s data ∧ Agree t data) := by
  rintro ⟨hs,ht⟩
  rw [agree_iff_bytes s hlen hserved] at hs
  rw [agree_iff_bytes t hlen hserved] at ht
  have hpos : 0 < readLe32 data 4 := by
    simp only [readServed,readAccepted,Bool.and_eq_true,decide_eq_true_eq] at hserved
    omega
  refine hfirst (crc32_slice_single hpos hrest ?_)
  rw [← hs,← ht,hcrc]

lemma not_crcFlash_of_agree (hio : isIoRegion b (readLe32 data 0) = true)
    (hall : ∀ s : Machine b, Agree s data) :
    crcFlash b (readLe32 data 0) (readLe32 data 4) = false := by
  by_contra hfl
  rw [Bool.not_eq_false] at hfl
  refine not_agree_of_first_byte hlen hserved
    (.idle b (fun _ => 0) (probe (readLe32 data 0)) (fun _ => 0) 0)
    (.idle b (fun _ => 0) (fun _ => 0) (fun _ => 0) 0) ?_ ?_ ?_ ⟨hall _,hall _⟩
  · funext k
    simp only [crcByte,hfl,if_true,Machine.idle]
  · have hzero : inWord (readLe32 data 0) 0 := by unfold inWord; omega
    rw [readByte,if_pos hio,ioReadByte_probe rfl,readByte,if_pos hio]
    simp [hzero,ioReadByte,byteAt,Machine.idle]
  · intro k hk
    rw [readByte,if_pos hio,ioReadByte_probe rfl,readByte,if_pos hio]
    simp [hk,ioReadByte,byteAt,Machine.idle]

lemma not_agree_probe (hio : isIoRegion b (readLe32 data 0) = true)
    (hfl : crcFlash b (readLe32 data 0) (readLe32 data 4) = false) {k : ℕ}
    (hk : k < readLe32 data 4) (hout : ¬inWord (readLe32 data 0) k) :
    ¬Agree (.idle b (fun _ => 0) (probe (readLe32 data 0+k)) (fun _ => 0) 0) data := by
  intro hagree
  rw [agree_iff_bytes _ hlen hserved] at hagree
  have hcrc (j : ℕ) : crcByte (.idle b (fun _ => 0) (probe (readLe32 data 0+k)) (fun _ => 0) 0)
      (readLe32 data 0) (readLe32 data 4) j = if j = k then 1 else 0 := by
    rw [crcByte,if_neg (by simp [hfl]),if_pos hio,ioByte_probe rfl]
    simp
  have hread (j : ℕ) : readByte (.idle b (fun _ => 0) (probe (readLe32 data 0+k)) (fun _ => 0) 0)
      (readLe32 data 0) (readLe32 data 4) j = 0 := by
    rw [readByte,if_pos hio,ioReadByte_probe rfl,if_neg]
    rintro ⟨hin,hj⟩
    exact hout (by rwa [show j = k by omega] at hin)
  have hbyte := crc32_slice_single hk (fun j hj => by rw [hcrc,hread,if_neg hj]) hagree
  rw [hcrc,hread,if_pos rfl] at hbyte
  exact absurd hbyte (by decide)

lemma not_emmcPath_of_agree (hio : ¬isIoRegion b (readLe32 data 0) = true)
    (hall : ∀ s : Machine b, Agree s data) :
    emmcPath b (readLe32 data 0) (readLe32 data 4) = false := by
  by_contra hem
  rw [Bool.not_eq_false] at hem
  have htype : b.flashInfo.flashType = .emmc := by
    simp only [emmcPath,Bool.and_eq_true,decide_eq_true_eq] at hem
    exact hem.1.2
  obtain ⟨c,hm⟩ := medium_emmc htype
  refine not_agree_of_first_byte hlen hserved
    (.idle b (fun _ => 0) (fun _ => 0)
      (Function.update (fun _ => 0) (readLe32 data 0-b.config.flashMem) 1) 0)
    (.idle b (fun _ => 0) (fun _ => 0) (fun _ => 0) 0) ?_ ?_ ?_ ⟨hall _,hall _⟩
  · funext k
    simp only [crcByte,Machine.idle,hm,Option.getD_some,Dev.idle,Dev.view,ioByte]
  · simp only [readByte,if_neg hio,if_pos hem,Machine.idle_array]
    simp
  · intro k hk
    simp only [readByte,if_neg hio,if_pos hem,Machine.idle_array]
    rw [Function.update_of_ne (by omega)]

end

/-- For every request both commands serve, they agree on every memory, register and
flash content exactly under `agreeWhen`. -/
theorem read_crc_agree_iff (b : Board) (data : List Byte) (hlen : 8 ≤ data.length)
    (hserved : readServed b (readLe32 data 0) (readLe32 data 4) = true) :
    (∀ s : Machine b, Agree s data) ↔
      agreeWhen b (readLe32 data 0) (readLe32 data 4) = true := by
  constructor
  · intro hall
    unfold agreeWhen
    split_ifs with hio
    · have hfl := not_crcFlash_of_agree hlen hserved hio hall
      have hal : ioAligned (readLe32 data 0) (readLe32 data 4) = true := by
        rw [ioAligned_iff]
        intro k hk
        by_contra hout
        exact not_agree_probe hlen hserved hio hfl hk hout (hall _)
      rw [hfl,hal]
      rfl
    · rw [not_emmcPath_of_agree hlen hserved hio hall]
      rfl
  · intro hwhen s
    rw [agree_iff_bytes s hlen hserved]
    have hacc := hserved
    simp only [readServed,readAccepted,Bool.and_eq_true] at hacc
    have hsum := (addrReadable_no_wrap (readLe32_lt data 0) (readLe32_lt data 4) hacc.1.2).2
    refine congrArg (crc32 0) (slice_congr fun k hk => ?_)
    rw [Nat.zero_add]
    exact crcByte_eq_readByte s hsum hwhen hk

/-- One 1 KiB block of clock registers. -/
theorem crg_kilobyte_agrees :
    readServed (.withNor .hi3516ev300 0x18#8) 0x12010000 1024 = true ∧
    ∀ s : Machine (.withNor .hi3516ev300 0x18#8),Agree s (writeLe32 0x12010000++writeLe32 1024) :=
  ⟨by decide,(read_crc_agree_iff (.withNor .hi3516ev300 0x18#8)
    (writeLe32 0x12010000++writeLe32 1024) (by decide) (by decide)).mpr (by decide)⟩

/-- A 2 KiB dump of the same block: the second packet starts in the middle of a word, and
the register at offset 1024 is streamed as zero. -/
theorem crg_dump_disagrees :
    readServed (.withNor .hi3516ev300 0x18#8) 0x12010000 2048 = true ∧
    ¬Agree (.idle (.withNor .hi3516ev300 0x18#8) (fun _ => 0) (probe (0x12010000+1024))
      (fun _ => 0) 0) (writeLe32 0x12010000++writeLe32 2048) :=
  ⟨by decide,not_agree_probe (by decide) (by decide) (by decide) (by decide) (by decide)
    (by decide)⟩

end Defib.ReadCrcAgreement
