import Defib.ReadCrcAgreement
import Defib.TransferRuns

/-!
# RAM ranges and the flash

A request for a range of RAM should go to RAM, whatever medium start-up found. With SPI
flash it does, on every target. With an eMMC card the card's size takes part in three
different tests, and each of them claims RAM addresses for the card once it is large enough.
-/
namespace Defib.AddressSeparation
open Words BlockMemory Spans Crc32 Boards FlashDevice AgentMachine AgentReads AgentTransfers
open TransferRuns ReadCrcAgreement

/-- The window of RAM that `addr_readable` uses. -/
def ramSize : ℕ := 128*1024*1024

def InRam (b : Board) (addr size : ℕ) : Prop :=
  b.config.ramBase ≤ addr ∧ addr+size ≤ b.config.ramBase+ramSize

/-- An accepted `CMD_WRITE` of the range stores what it receives and touches no flash. -/
def WriteSeparated (b : Board) (addr size : ℕ) : Prop :=
  ∀ data t,12 ≤ data.length → readLe32 data 0 = addr → readLe32 data 4 = size →
    writeTransfer b data = some t → ∀ (s : Machine b) rxs,
      (transferRun s t rxs).2.1 = s.store addr (gathered size rxs) ∧
        ∀ e ∈ (transferRun s t rxs).1,¬OnFlash e

/-- An accepted `CMD_READ` of the range streams RAM. -/
def ReadSeparated (b : Board) (addr size : ℕ) : Prop :=
  ∀ data,8 ≤ data.length → readLe32 data 0 = addr → readLe32 data 4 = size →
    readServed b addr size = true → ∀ s : Machine b,
      streamed (handleRead s data).1 = slice s.mem addr size

/-- An accepted `CMD_CRC32` of the range returns the checksum of RAM. -/
def CrcSeparated (b : Board) (addr size : ℕ) : Prop :=
  ∀ data,8 ≤ data.length → readLe32 data 0 = addr → readLe32 data 4 = size →
    readAccepted b addr size = true → ∀ s : Machine b,
      (handleCrc32Cmd s data).1 = [⟨rspCrc32,writeLe32 (crc32 0 (slice s.mem addr size)).toNat⟩]

/-- The range is below the end of the card. -/
def WriteClash (b : Board) (addr size : ℕ) : Prop :=
  b.flashInfo.flashType = .emmc ∧ 0 < size ∧ addr+size ≤ b.flashInfo.size

/-- The range consists of blocks inside the card's window. -/
def ReadClash (b : Board) (addr size : ℕ) : Prop :=
  b.flashInfo.flashType = .emmc ∧ 0 < size ∧ size ≤ maxReadSize ∧
    addr+size ≤ b.config.flashMem+b.flashInfo.size ∧ (addr-b.config.flashMem)%512 = 0 ∧
    size%512 = 0

/-- The range is below the end of the card's window, as far as 32 bits show it. -/
def CrcClash (b : Board) (addr size : ℕ) : Prop :=
  b.flashInfo.flashType = .emmc ∧ 0 < size ∧ size ≤ maxReadSize ∧
    addr+size ≤ u32 (b.config.flashMem+b.flashInfo.size)

/-! ### The address maps -/

lemma Soc.ram_above (soc : Soc) : soc.config.flashMem+134217728 ≤ soc.config.ramBase ∧
    0x13000000 ≤ soc.config.ramBase ∧ soc.config.fmcBase+0x1000 ≤ soc.config.ramBase ∧
    soc.config.crgBase+0x1000 ≤ soc.config.ramBase ∧
    soc.config.uartBase+0x1000 ≤ soc.config.ramBase ∧ soc.config.ramBase ≤ 0x80000000 ∧
    0x40000000 ≤ soc.config.ramBase := by
  cases soc <;> decide

section
variable {b : Board} {addr size : ℕ} (hram : InRam b addr size)
include hram

lemma InRam.no_wrap : addr+size < 4294967296 := by
  obtain ⟨_,_,_,_,_,hmax,_⟩ := Soc.ram_above b.soc
  have hend := hram.2
  unfold ramSize at hend
  simp only [Board.config] at hend
  omega

lemma InRam.not_io : isIoRegion b addr = false := by
  obtain ⟨_,hper,hfmc,hcrg,huart,_,_⟩ := Soc.ram_above b.soc
  have hlow := hram.1
  simp only [isIoRegion,Board.config,Bool.or_eq_false_iff,Bool.and_eq_false_iff,
    decide_eq_false_iff_not] at hlow ⊢
  omega

lemma InRam.readable (hpos : 0 < size) : addrReadable b addr size = true := by
  have hsum : u32 (addr+size) = addr+size := u32_of_lt hram.no_wrap
  have hwin : inWindow addr size b.config.ramBase (128*1024*1024) = true := by
    simp only [inWindow,hsum,Bool.and_eq_true,decide_eq_true_eq]
    exact hram
  simp only [addrReadable,hwin,hsum,Bool.true_or,Bool.and_true,Bool.and_eq_true,decide_eq_true_eq]
  omega

lemma InRam.accepted_iff : readAccepted b addr size = true ↔ 0 < size ∧ size ≤ maxReadSize := by
  simp only [readAccepted,Bool.and_eq_true,decide_eq_true_eq]
  constructor
  · rintro ⟨⟨hpos,hmax⟩,_⟩
    exact ⟨Nat.pos_of_ne_zero hpos,hmax⟩
  · rintro ⟨hpos,hmax⟩
    exact ⟨⟨hpos.ne',hmax⟩,hram.readable hpos⟩

lemma InRam.flashWindow_iff (hpos : 0 < size) : inFlashWindow b addr size = true ↔
    b.flashInfo.flashType = .emmc ∧ addr+size ≤ b.config.flashMem+b.flashInfo.size := by
  obtain ⟨hspi,_⟩ := Soc.ram_above b.soc
  have hlow := hram.1
  simp only [inFlashWindow,Bool.and_eq_true,decide_eq_true_eq]
  simp only [Board.config] at hlow ⊢
  constructor
  · rintro ⟨⟨_,_⟩,hin⟩
    refine ⟨?_,by omega⟩
    by_contra hne
    have hsize := Board.flashInfo_spi_size hne
    omega
  · rintro ⟨htype,hin⟩
    obtain ⟨c,hm⟩ := medium_emmc htype
    exact ⟨⟨by rw [Board.flashReadable,hm]; rfl,by omega⟩,by omega⟩

lemma InRam.emmcPath_iff (hpos : 0 < size) : emmcPath b addr size = true ↔
    b.flashInfo.flashType = .emmc ∧ addr+size ≤ b.config.flashMem+b.flashInfo.size := by
  rw [emmcPath,Bool.and_eq_true,hram.flashWindow_iff hpos,Bool.and_eq_true,decide_eq_true_eq]
  constructor
  · exact fun h => h.2
  · intro h
    obtain ⟨c,hm⟩ := medium_emmc h.1
    exact ⟨⟨b.known _ hm,h.1⟩,h⟩

/-! ### `CMD_READ` -/

lemma readServed_iff : readServed b addr size = true ↔ 0 < size ∧ size ≤ maxReadSize ∧
    (b.flashInfo.flashType = .emmc → addr+size ≤ b.config.flashMem+b.flashInfo.size →
      (addr-b.config.flashMem)%512 = 0 ∧ size%512 = 0) := by
  rw [readServed,Bool.and_eq_true,hram.accepted_iff,and_assoc]
  refine and_congr_right fun hpos => and_congr_right fun _ => ?_
  have hpath := hram.emmcPath_iff hpos
  by_cases hin : emmcPath b addr size = true
  · obtain ⟨htype,hend⟩ := hpath.mp hin
    rw [hin]
    simp [htype,hend]
  · rw [Bool.eq_false_of_not_eq_true hin]
    simp only [Bool.false_and,Bool.not_false,true_iff]
    exact fun htype hend => absurd (hpath.mpr ⟨htype,hend⟩) hin

lemma readByte_ram (hpos : 0 < size) (s : Machine b)
    (h : ¬(b.flashInfo.flashType = .emmc ∧ addr+size ≤ b.config.flashMem+b.flashInfo.size)) :
    slice (readByte s addr size) 0 size = slice s.mem addr size := by
  refine slice_congr fun k hk => ?_
  have hwrap := hram.no_wrap
  have hio := hram.not_io
  rw [readByte,hio,if_neg Bool.false_ne_true,if_neg (mt (hram.emmcPath_iff hpos).mp h),
    if_neg (mt (hram.flashWindow_iff hpos).mp h),Nat.zero_add,u32_of_lt (by omega)]

lemma readSeparated_iff : ReadSeparated b addr size ↔ ¬ReadClash b addr size := by
  have hwrap := hram.no_wrap
  constructor
  · rintro hsep ⟨htype,hpos,hmax,hend,hbase,hblocks⟩
    have hserved := (readServed_iff hram).mpr ⟨hpos,hmax,fun _ _ => ⟨hbase,hblocks⟩⟩
    obtain ⟨h0,h4⟩ := readLe32_fields (show addr < 4294967296 by omega)
      (show size < 4294967296 by omega) []
    -- zeros in RAM, ones on the card
    have hread := hsep _ (by simp) h0 h4 hserved (.idle b (fun _ => 0) (fun _ => 0) (fun _ => 1) 0)
    rw [(handleRead_spec _ (by simp) (by rw [h0,h4]; exact hserved)).1,h0,h4] at hread
    have hfirst := slice_eq_iff.mp hread 0 hpos
    have hio := hram.not_io
    rw [readByte,hio,if_neg Bool.false_ne_true,if_pos ((hram.emmcPath_iff hpos).mpr ⟨htype,hend⟩),
      Machine.idle_array] at hfirst
    exact absurd hfirst (show ¬(1 : Byte) = 0 by decide)
  · intro hclash data hlen h0 h4 hserved s
    obtain ⟨hpos,hmax,hblocks⟩ := (readServed_iff hram).mp hserved
    subst h0 h4
    rw [(handleRead_spec s hlen hserved).1]
    refine readByte_ram hram hpos s fun hin => hclash ?_
    exact ⟨hin.1,hpos,hmax,hin.2,hblocks hin.1 hin.2⟩

/-! ### `CMD_CRC32` -/

lemma crcFlash_iff (hpos : 0 < size) : crcFlash b addr size = true ↔
    b.flashInfo.flashType = .emmc ∧ addr+size ≤ u32 (b.config.flashMem+b.flashInfo.size) := by
  obtain ⟨hspi,_,_,_,_,hmax,_⟩ := Soc.ram_above b.soc
  have hlow := hram.1
  have hsum : u32 (addr+size) = addr+size := u32_of_lt hram.no_wrap
  simp only [crcFlash,Bool.and_eq_true,decide_eq_true_eq,hsum]
  simp only [Board.config] at hlow ⊢
  constructor
  · rintro ⟨⟨_,_⟩,hin⟩
    refine ⟨?_,hin⟩
    by_contra hne
    have hsize := Board.flashInfo_spi_size hne
    rw [u32_of_lt (by omega)] at hin
    omega
  · rintro ⟨htype,hin⟩
    obtain ⟨c,hm⟩ := medium_emmc htype
    exact ⟨⟨by rw [Board.flashReadable,hm]; rfl,by omega⟩,hin⟩

lemma crcSeparated_iff : CrcSeparated b addr size ↔ ¬CrcClash b addr size := by
  have hwrap := hram.no_wrap
  have hio := hram.not_io
  constructor
  · rintro hsep ⟨htype,hpos,hmax,hend⟩
    have hacc := hram.accepted_iff.mpr ⟨hpos,hmax⟩
    obtain ⟨h0,h4⟩ := readLe32_fields (show addr < 4294967296 by omega)
      (show size < 4294967296 by omega) []
    obtain ⟨c,hm⟩ := medium_emmc htype
    -- the idle bus reads zero, RAM has one byte that is not
    have hcrc := hsep _ (by simp) h0 h4 hacc
      (.idle b (Function.update (fun _ => 0) addr 1) (fun _ => 0) (fun _ => 0) 0)
    rw [handleCrc32Cmd_spec _ (by simp) (by rw [h0,h4]; exact hacc),h0,h4] at hcrc
    simp only [List.cons.injEq,Frame.mk.injEq,true_and,and_true] at hcrc
    have heq := BitVec.eq_of_toNat_eq (writeLe32_injective (BitVec.isLt _) (BitVec.isLt _) hcrc)
    have hbus (k : ℕ) : crcByte (.idle b (Function.update (fun _ => 0) addr 1) (fun _ => 0)
        (fun _ => 0) 0) addr size k = 0 := by
      rw [crcByte,if_pos ((crcFlash_iff hram hpos).mpr ⟨htype,hend⟩)]
      simp only [Machine.idle,hm,Option.getD_some,Dev.idle,Dev.view]
    have hshift : slice (Machine.idle b (Function.update (fun _ => 0) addr 1) (fun _ => 0)
        (fun _ => 0) 0).mem addr size = slice (fun k => Function.update (fun _ => (0 : Byte)) addr 1
          (addr+k)) 0 size :=
      slice_congr fun k _ => by rw [Nat.zero_add]; rfl
    rw [hshift] at heq
    have hbyte := crc32_slice_single hpos (fun k hk => by
      rw [hbus,Function.update_of_ne (by omega)]) heq
    rw [hbus,Nat.add_zero,Function.update_self] at hbyte
    exact absurd hbyte (by decide)
  · intro hclash data hlen h0 h4 hacc s
    obtain ⟨hpos,hmax⟩ := hram.accepted_iff.mp hacc
    subst h0 h4
    rw [handleCrc32Cmd_spec s hlen hacc]
    have hbytes : slice (crcByte s (readLe32 data 0) (readLe32 data 4)) 0 (readLe32 data 4) =
        slice s.mem (readLe32 data 0) (readLe32 data 4) := by
      refine slice_congr fun k hk => ?_
      rw [crcByte,if_neg (fun h => hclash ?_),hio,if_neg Bool.false_ne_true,Nat.zero_add,
        u32_of_lt (by omega)]
      obtain ⟨htype,hend⟩ := (crcFlash_iff hram hpos).mp h
      exact ⟨htype,hpos,hmax,hend⟩
    rw [hbytes]

/-! ### `CMD_WRITE` -/

lemma flashRouted_iff : flashRouted b addr size = true ↔
    b.flashInfo.flashType = .emmc ∧ addr < b.flashInfo.size ∧ addr+size ≤ b.flashInfo.size := by
  obtain ⟨_,_,_,_,_,_,hmin⟩ := Soc.ram_above b.soc
  have hlow := hram.1
  have hsum : u32 (addr+size) = addr+size := u32_of_lt hram.no_wrap
  simp only [flashRouted,Bool.and_eq_true,decide_eq_true_eq,hsum]
  simp only [Board.config] at hlow
  constructor
  · rintro ⟨⟨_,hlt⟩,hin⟩
    refine ⟨?_,hlt,hin⟩
    by_contra hne
    have hsize := Board.flashInfo_spi_size hne
    omega
  · rintro ⟨htype,hlt,hin⟩
    obtain ⟨c,hm⟩ := medium_emmc htype
    exact ⟨⟨by rw [Board.flashReadable,hm]; rfl,hlt⟩,hin⟩

lemma writeTransfer_ram {data : List Byte} {t : Transfer} (h0 : readLe32 data 0 = addr)
    (h4 : readLe32 data 4 = size) (ht : writeTransfer b data = some t)
    (hclash : ¬WriteClash b addr size) : t = ⟨.ram,addr,size,readLe32 data 8,0⟩ := by
  simp only [writeTransfer,h0,h4] at ht
  split_ifs at ht with hroute hflash hramAcc
  · obtain ⟨htype,_,hend⟩ := (flashRouted_iff hram).mp hroute
    simp only [flashWriteAccepted,Bool.and_eq_true,decide_eq_true_eq] at hflash
    exact absurd ⟨htype,Nat.pos_of_ne_zero hflash.1.1.2,hend⟩ hclash
  · exact (Option.some.inj ht).symm

lemma writeSeparated_iff : WriteSeparated b addr size ↔ ¬WriteClash b addr size := by
  have hwrap := hram.no_wrap
  constructor
  · rintro hsep ⟨htype,hpos,hend⟩
    have hroute := (flashRouted_iff hram).mpr ⟨htype,by omega,hend⟩
    obtain ⟨_,_,_,_,_,hmax,_⟩ := Soc.ram_above b.soc
    obtain ⟨hlow,hin⟩ := hram
    unfold ramSize at hin
    simp only [Board.config] at hlow hin
    have hcrc := (crc32 0 (List.replicate size 0)).isLt
    obtain ⟨h0,h4⟩ := readLe32_fields (show addr < 4294967296 by omega)
      (show size < 4294967296 by omega) (writeLe32 (crc32 0 (List.replicate size 0)).toNat++[])
    have h8 : readLe32 (writeLe32 addr++(writeLe32 size++
        (writeLe32 (crc32 0 (List.replicate size 0)).toNat++[]))) 8 = _ :=
      ((readLe32_shift addr _ 4).trans (readLe32_shift size _ 0)).trans
        (readLe32_writeLe32 _ hcrc [])
    have hacc : flashWriteAccepted b addr size = true := by
      simp only [flashRouted,Bool.and_eq_true,decide_eq_true_eq] at hroute
      simp only [flashWriteAccepted,Bool.and_eq_true,decide_eq_true_eq]
      exact ⟨⟨⟨hroute.1.1,hpos.ne'⟩,by omega⟩,hroute.2⟩
    have ht := hsep _ ⟨.flash addr,flashStaging b,size,_,0⟩ (by simp) h0 h4
      (by simp only [writeTransfer,h0,h4,h8,hroute,hacc,if_true]; rfl)
      (.idle b (fun _ => 0) (fun _ => 0) (fun _ => 0) 0) (List.replicate size byteFrame)
    obtain ⟨e,he,hflash⟩ := flash_write_programs
      (t := ⟨.flash addr,flashStaging b,size,(crc32 0 (List.replicate size 0)).toNat,0⟩) rfl
      (by simp only [flashStaging,Board.config]; omega) hpos rfl rfl
      (.idle b (fun _ => 0) (fun _ => 0) (fun _ => 0) 0)
    exact ht.2 e he hflash
  · intro hclash data t hlen h0 h4 ht s rxs
    obtain rfl := writeTransfer_ram hram h0 h4 ht hclash
    exact transferRun_ram s _ rxs rfl

end

/-- For every target, medium and range of RAM: each of the three commands keeps to RAM exactly if
the card does not reach into the range by that command's own test. -/
theorem ram_requests_separate_iff (b : Board) (addr size : ℕ) (hram : InRam b addr size) :
    (WriteSeparated b addr size ↔ ¬WriteClash b addr size) ∧
      (ReadSeparated b addr size ↔ ¬ReadClash b addr size) ∧
      (CrcSeparated b addr size ↔ ¬CrcClash b addr size) :=
  ⟨writeSeparated_iff hram,readSeparated_iff hram,crcSeparated_iff hram⟩

/-- A megabyte of RAM on a board with NOR flash. -/
theorem nor_megabyte_separate :
    WriteSeparated (.withNor .hi3516ev300 0x18#8) 0x42000000 0x100000 ∧
      ReadSeparated (.withNor .hi3516ev300 0x18#8) 0x42000000 0x100000 ∧
      CrcSeparated (.withNor .hi3516ev300 0x18#8) 0x42000000 0x100000 := by
  obtain ⟨hwrite,hread,hcrc⟩ := ram_requests_separate_iff (.withNor .hi3516ev300 0x18#8) 0x42000000
    0x100000 ⟨by decide,by decide⟩
  exact ⟨hwrite.mpr fun h => absurd h.1 (by decide),hread.mpr fun h => absurd h.1 (by decide),
    hcrc.mpr fun h => absurd h.1 (by decide)⟩

/-- The target with an eMMC host and a card of nearly 4 GiB. -/
def largeCard : Board where
  soc := .hi3516cv500
  medium := some (.emmc 0xFFFFFE00)
  known := by
    rintro m ⟨⟩
    rfl

/-- On it, one block at the beginning of RAM is sent to the flash writer and read from the card. -/
theorem largeCard_claims_ram : InRam largeCard 0x80000000 512 ∧
    ¬WriteSeparated largeCard 0x80000000 512 ∧ ¬ReadSeparated largeCard 0x80000000 512 := by
  have hram : InRam largeCard 0x80000000 512 := ⟨by decide,by decide⟩
  refine ⟨hram,?_,?_⟩
  · exact mt (writeSeparated_iff hram).mp (not_not.mpr ⟨by decide,by decide,by decide⟩)
  · exact mt (readSeparated_iff hram).mp (not_not.mpr
      ⟨by decide,by decide,by decide,by decide,by decide,by decide⟩)

end Defib.AddressSeparation
