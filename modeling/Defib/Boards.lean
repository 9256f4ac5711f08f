import Defib.NorDrivers

/-!
# Build targets and flash media

The address map of each supported target is fixed when the agent is built
(`agent/Makefile`). The medium is found at start-up: `flash_init` recognises SPI
NOR and SPI NAND, and on builds with an eMMC host `main` falls back to the card.
A `Board` is a target together with what start-up found; it can only hold media
which that target's drivers know.
-/
namespace Defib.Boards
open Words NorDrivers

structure SocConfig where
  uartBase : ℕ
  loadAddr : ℕ
  flashMem : ℕ
  fmcBase : ℕ
  ramBase : ℕ
  crgBase : ℕ
  emmcBase : Option ℕ
  ioCtrl0Base : Option ℕ
  bootrom : Option (ℕ × ℕ)
  spiDriver : NorDriver
  deriving DecidableEq, Repr

inductive Soc where
  | hi3516ev300
  | hi3516ev200
  | gk7205v200
  | gk7205v300
  | gk7605v100
  | gk7205v500
  | hi3516cv300
  | hi3516cv500
  | hi3518ev200
  | hi3516cv610
  | hi3519v101
  | hi3520dv200
  | hi3536dv100
  deriving DecidableEq, Repr

/-- The map most targets share, up to the addresses given. -/
def SocConfig.fmc (uartBase loadAddr ramBase : ℕ) : SocConfig where
  uartBase := uartBase
  loadAddr := loadAddr
  flashMem := 0x14000000
  fmcBase := 0x10000000
  ramBase := ramBase
  crgBase := 0x12010000
  emmcBase := none
  ioCtrl0Base := none
  bootrom := none
  spiDriver := .fmc100

def Soc.config : Soc → SocConfig
  | hi3516ev300 => .fmc 0x12040000 0x41000000 0x40000000
  | hi3516ev200 => .fmc 0x12040000 0x41000000 0x40000000
  | gk7205v200 => .fmc 0x12040000 0x41000000 0x40000000
  | gk7205v300 => .fmc 0x12040000 0x41000000 0x40000000
  | gk7605v100 => .fmc 0x12040000 0x41000000 0x40000000
  | gk7205v500 => .fmc 0x12040000 0x41007000 0x40000000
  | hi3516cv300 => .fmc 0x12100000 0x81000000 0x80000000
  | hi3516cv500 => {SocConfig.fmc 0x120A0000 0x81000000 0x80000000 with
      emmcBase := some 0x10100000
      ioCtrl0Base := some 0x10ff0000
      bootrom := some (0x04000000,0x10000)}
  | hi3518ev200 => .fmc 0x12100000 0x81000000 0x80000000
  | hi3516cv610 => {SocConfig.fmc 0x11040000 0x41000400 0x40000000 with
      flashMem := 0x0F000000
      crgBase := 0x11010000}
  | hi3519v101 => .fmc 0x12100000 0x81000000 0x80000000
  | hi3520dv200 => {SocConfig.fmc 0x20080000 0x81000000 0x80000000 with
      flashMem := 0x58000000
      fmcBase := 0x10010000
      crgBase := 0x20030000
      spiDriver := .hisfc350}
  | hi3536dv100 => {SocConfig.fmc 0x12080000 0x81000000 0x80000000 with
      crgBase := 0x12040000}

lemma Soc.eq_cv500 {soc : Soc} (h : soc.config.emmcBase.isSome = true) : soc = .hi3516cv500 := by
  revert h
  cases soc <;> decide

lemma Soc.flashMem_le (soc : Soc) : soc.config.flashMem ≤ 0x58000000 := by
  cases soc <;> decide

lemma Soc.config_low (soc : Soc) : 0x04000000 ≤ soc.config.ramBase ∧
    0x04000000 ≤ soc.config.fmcBase ∧ 0x04000000 ≤ soc.config.crgBase ∧
    0x04000000 ≤ soc.config.uartBase ∧ 0x04000000 ≤ soc.config.flashMem ∧
    (∀ a ∈ soc.config.emmcBase, 0x04000000 ≤ a) ∧
    (∀ a ∈ soc.config.ioCtrl0Base, 0x04000000 ≤ a) ∧
    ∀ r ∈ soc.config.bootrom, 0x04000000 ≤ r.1 := by
  cases soc <;> decide

inductive FlashType where
  | nor
  | nand
  | emmc
  deriving DecidableEq, Repr

inductive Medium where
  | nor (id2 : Byte)
  | nand
  | emmc (capacity : ℕ)
  deriving DecidableEq, Repr

/-- The fields of `flash_info_t` that request handling reads. -/
structure FlashInfo where
  size : ℕ
  sectorSize : ℕ
  pageSize : ℕ
  flashType : FlashType
  deriving DecidableEq, Repr

def Medium.info : Medium → FlashInfo
  | nor id2 => ⟨detectSize id2,0x10000,256,.nor⟩
  | nand => ⟨128*1024*1024,131072,2048,.nand⟩
  | emmc capacity => ⟨if capacity > 0xFFFFFFFF then 0xFFFFFFFF else capacity,512,512,.emmc⟩

/-- Media the drivers of a target can identify. -/
def Medium.knownTo (c : SocConfig) : Medium → Bool
  | nor _ => true
  | nand => c.spiDriver = .fmc100
  | emmc _ => c.emmcBase.isSome

/-- A target after start-up; `none` when no medium was found (`flash_readable = 0`). -/
structure Board where
  soc : Soc
  medium : Option Medium
  known : ∀ m ∈ medium, m.knownTo soc.config = true

namespace Board

/-- A board on which start-up found an SPI NOR with the given size byte. -/
def withNor (soc : Soc) (id2 : Byte) : Board where
  soc := soc
  medium := some (.nor id2)
  known := by
    rintro m ⟨⟩
    rfl

abbrev config (b : Board) : SocConfig := b.soc.config

def flashReadable (b : Board) : Bool := b.medium.isSome

/-- `flash_info`; read by the code only behind `flash_readable`. -/
def flashInfo (b : Board) : FlashInfo := (b.medium.map Medium.info).getD ⟨0,0x10000,256,.nor⟩

lemma flashInfo_some {b : Board} {m : Medium} (h : b.medium = some m) : b.flashInfo = m.info := by
  simp [flashInfo,h]

end Board

lemma Medium.info_size_lt (m : Medium) : m.info.size < 4294967296 := by
  cases m with
  | nor id2 =>
    have h := (detectSize_bounds id2).2.1
    simp only [Medium.info]
    omega
  | nand => decide
  | emmc capacity =>
    simp only [Medium.info]
    split_ifs <;> omega

lemma Board.flashInfo_size_lt (b : Board) : b.flashInfo.size < 4294967296 := by
  cases h : b.medium with
  | none => simp [Board.flashInfo,h]
  | some m =>
    rw [Board.flashInfo_some h]
    exact m.info_size_lt

lemma Board.flashInfo_spi_size {b : Board} (h : b.flashInfo.flashType ≠ .emmc) :
    b.flashInfo.size ≤ 134217728 := by
  cases hm : b.medium with
  | none => simp [Board.flashInfo,hm]
  | some m =>
    rw [Board.flashInfo_some hm] at h ⊢
    cases m with
    | nor id2 =>
      have hb := (detectSize_bounds id2).2.1
      simp only [Medium.info]
      omega
    | nand => decide
    | emmc c => exact absurd rfl h

lemma Board.geometry (b : Board) :
    (b.flashInfo.sectorSize = 65536 ∧ b.flashInfo.pageSize = 256) ∨
    (b.flashInfo.sectorSize = 131072 ∧ b.flashInfo.pageSize = 2048) ∨
    (b.flashInfo.sectorSize = 512 ∧ b.flashInfo.pageSize = 512) := by
  cases hm : b.medium with
  | none => simp [Board.flashInfo,hm]
  | some m =>
    rw [Board.flashInfo_some hm]
    cases m with
    | nor id2 => exact .inl ⟨rfl,rfl⟩
    | nand => exact .inr (.inl ⟨rfl,rfl⟩)
    | emmc c => exact .inr (.inr ⟨rfl,rfl⟩)

lemma Board.pageSize_pos (b : Board) : 0 < b.flashInfo.pageSize := by
  rcases b.geometry with ⟨_,hg⟩ | ⟨_,hg⟩ | ⟨_,hg⟩ <;> omega

lemma Board.sectorSize_pos (b : Board) : 0 < b.flashInfo.sectorSize := by
  rcases b.geometry with ⟨hg,_⟩ | ⟨hg,_⟩ | ⟨hg,_⟩ <;> omega

lemma Medium.info_geometry (m : Medium) : 0 < m.info.sectorSize ∧ 0 < m.info.pageSize ∧
    m.info.pageSize ∣ m.info.sectorSize := by
  cases m with
  | nor id2 => exact show 0 < 65536 ∧ 0 < 256 ∧ 256 ∣ 65536 by decide
  | nand => decide
  | emmc capacity => exact ⟨by simp [Medium.info],by simp [Medium.info],dvd_refl _⟩

end Defib.Boards
