import Defib.Boards
import Defib.NorReach

/-!
# The flash behind the agent

`agent/spi_flash.c` serves SPI NAND next to SPI NOR; a build with an eMMC host
reads the card through `emmc_read_block` while the SPI entry points still talk to
the FMC100 with nothing attached, whose data lines then read one constant byte.
`Dev` puts the three behind the interface of `spi_flash.h`. Each operation is
specified on the plain array of the medium for addresses within `Medium.reach`,
and cells beyond the reach are shown to be out of every operation's way.
-/
namespace Defib.FlashDevice
open Words BlockMemory Spans Crc32 NorDrivers Boards

/-- What a failed program of a page, or a failed erase of a block, leaves in its cells. -/
structure NandFaults where
  program : ℕ → Option (ℕ → Byte)
  erase : ℕ → Option (ℕ → Byte)

namespace NandFaults

def none : NandFaults := ⟨fun _ => .none,fun _ => .none⟩

/-- No page of the range fails. -/
def Programs (f : NandFaults) (addr len : ℕ) : Prop :=
  ∀ x,addr ≤ x → x < addr+len → f.program (x/2048%65536) = .none

/-- No block of the range fails. -/
def Erases (f : NandFaults) (addr len : ℕ) : Prop :=
  ∀ x,addr ≤ x → x < addr+len → f.erase (x/131072%1024) = .none

end NandFaults

/-- The data area of a 1 Gbit SPI NAND; on-chip ECC keeps it exact. -/
structure NandChip where
  mem : ℕ → Byte
  faults : NandFaults

namespace NandChip

/-- Cell of column `col` in page `row`; the chip has 65536 pages. -/
def cell (row col : ℕ) : ℕ := row%65536*2048+col

/-- `nand_read`: page read, then cache reads of at most 255 bytes. -/
def nandRead (n : NandChip) (row column len : ℕ) : List Byte :=
  (pieces 255 len).flatMap fun s => slice (fun c => n.mem (cell row c)) (column+s.1) s.2

/-- `nand_erase_block`; false is the `E_FAIL` status. -/
def nandEraseBlock (n : NandChip) (row : ℕ) : Bool × NandChip :=
  match n.faults.erase (row/64%1024) with
  | none => (true,{n with mem := fillBlock 131072 n.mem (cell row 0) 0xFF#8})
  | some left =>
    (false,{n with mem := fun x => if x/131072 = row/64%1024 then left x else n.mem x})

/-- `nand_program_page`: load the cache in pieces of 256, then commit it; false is the `P_FAIL`
status. -/
def nandProgramPage (n : NandChip) (row column : ℕ) (data : List Byte) : Bool × NandChip :=
  let cache := (pieces 256 data.length).foldl
    (fun m s => patch m (column+s.1) ((data.drop s.1).take s.2)) fun _ => 0xFF#8
  match n.faults.program (row%65536) with
  | none => (true,{n with mem := fun x =>
    if x/2048 = row%65536 then n.mem x &&& cache (x%2048) else n.mem x})
  | some left =>
    (false,{n with mem := fun x => if x/2048 = row%65536 then left x else n.mem x})

def flashRead (n : NandChip) (addr len : ℕ) : List Byte :=
  (spans (fun a => 2048-a%2048) addr len).flatMap fun s => n.nandRead (s.1/2048) (s.1%2048) s.2

def flashCrc32 (n : NandChip) (addr len : ℕ) : BitVec 32 :=
  (spans (fun a => 2048-a%2048) addr len).foldl (fun c s => crc32 c (n.flashRead s.1 s.2)) 0

def flashEraseSector (n : NandChip) (addr : ℕ) : Bool × NandChip := n.nandEraseBlock (addr/2048)

def flashWritePage (n : NandChip) (addr : ℕ) (data : List Byte) : Bool × NandChip :=
  n.nandProgramPage (addr/2048) (addr%2048) (data.take (2048-addr%2048))

end NandChip

inductive Dev where
  | nor (f : NorFlash)
  | nand (n : NandChip)
  | emmc (card : ℕ → Byte) (bus : Byte)

namespace Dev

def array : Dev → ℕ → Byte
  | nor f => f.chip.mem
  | nand n => n.mem
  | emmc card _ => card

def unlockDebug : Dev → List Byte
  | nor f => f.unlockDebug
  | nand _ => [0,0,0]
  | emmc _ _ => [0,0,0]

def flashRead (addr len : ℕ) : Dev → List Byte × Dev
  | nor f => (f.flashRead addr len).map id nor
  | nand n => (n.flashRead addr len,nand n)
  | emmc card bus => (List.replicate len bus,emmc card bus)

def flashCrc32 (addr len : ℕ) : Dev → BitVec 32 × Dev
  | nor f => (f.flashCrc32 addr len).map id nor
  | nand n => (n.flashCrc32 addr len,nand n)
  | emmc card bus => (crc32 0 (List.replicate len bus),emmc card bus)

/-- `flash_erase_sector`; with no chip the read-back check sees the idle bus. -/
def flashEraseSector (addr : ℕ) : Dev → Bool × Dev
  | nor f => (f.flashEraseSector addr).map id nor
  | nand n => (n.flashEraseSector addr).map id nand
  | emmc card bus => (bus == 0xFF#8,emmc card bus)

/-- `flash_write_page`; only a NAND reports failures. -/
def flashWritePage (addr : ℕ) (data : List Byte) : Dev → Bool × Dev
  | nor f => (true,nor (f.flashWritePage addr data))
  | nand n => (n.flashWritePage addr data).map id nand
  | emmc card bus => (true,emmc card bus)

def faults : Dev → NandFaults
  | nand n => n.faults
  | _ => .none

/-- `emmc_read_block` for a card of known capacity. -/
def emmcReadBlock (b : Board) (block : ℕ) : Dev → Option (List Byte)
  | emmc card _ => if b.flashInfo.size = 0 then none else some (slice card (block*512) 512)
  | _ => none

/-- The device of a board with driver `d` on which start-up found the medium. -/
def Fits (d : NorDriver) : Medium → Dev → Prop
  | .nor id2,nor f => f.driver = d ∧ f.chip.size = detectSize id2
  | .nand,nand _ => True
  | .emmc _,emmc _ _ => True
  | _,_ => False

end Dev

/-- Bytes of the medium that the driver's addresses select. -/
def reach (d : NorDriver) : Medium → ℕ
  | .nor _ => NorReach.reach d
  | .nand => 134217728
  | .emmc _ => 0

/-! ### NAND -/

section
variable (n : NandChip) (addr len : ℕ)

lemma NandChip.nandRead_eq (row column : ℕ) :
    n.nandRead row column len = slice (fun c => n.mem (NandChip.cell row c)) column len := by
  exact pieces_flatMap_slice (by decide) (fun c => n.mem (NandChip.cell row c)) column len

lemma NandChip.flashRead_eq :
    n.flashRead addr len = slice (fun x => n.mem (x%134217728)) addr len := by
  rw [NandChip.flashRead,← spans_flatMap_slice (l := fun a => 2048-a%2048) (fun a => by omega)]
  apply List.flatMap_congr
  intro s hs
  have hin := (mem_spans (fun a => by omega) hs).2.2.1
  rw [NandChip.nandRead_eq]
  apply slice_congr
  intro i hi
  -- the piece stays inside its page
  congr 1
  simp only [NandChip.cell]
  omega

lemma NandChip.flashCrc32_eq :
    n.flashCrc32 addr len = crc32 0 (slice (fun x => n.mem (x%134217728)) addr len) := by
  rw [NandChip.flashCrc32,crc32_foldl]
  simp only [NandChip.flashRead_eq]
  rw [spans_flatMap_slice (fun a => by omega)]

lemma NandChip.flashEraseSector_ok (hgood : n.faults.erase (addr/131072%1024) = none) :
    n.flashEraseSector addr =
      (true,{n with mem := fillBlock 131072 n.mem (addr%134217728) 0xFF#8}) := by
  have hblock : NandChip.cell (addr/2048) 0/131072 = addr%134217728/131072 := by
    simp only [NandChip.cell]
    omega
  rw [NandChip.flashEraseSector,NandChip.nandEraseBlock,Nat.div_div_eq_div_mul,hgood]
  simp only [fillBlock_congr n.mem _ hblock]

lemma NandChip.flashWritePage_mem (data : List Byte) (hlen : addr%2048+data.length ≤ 2048)
    (hgood : n.faults.program (addr/2048%65536) = none) :
    (n.flashWritePage addr data).2.mem = blend (· &&& ·) n.mem (addr%134217728) data := by
  have hcache := spans_foldl_patch (l := fun _ => 256) (fun _ => by decide) data (addr%2048)
    (fun _ => 0xFF#8) 0 data.length (Nat.zero_add _)
  rw [Nat.add_zero,List.drop_zero] at hcache
  funext x
  simp only [NandChip.flashWritePage,NandChip.nandProgramPage,pieces,hgood,
    List.take_of_length_le (show data.length ≤ 2048-addr%2048 by omega),hcache]
  rcases Nat.lt_or_ge x (addr%134217728) with hx | hx
  · rw [blend_outside _ _ _ data (.inl hx)]
    split_ifs with hpage
    · rw [patch_outside _ _ data (by omega)]
      exact BitVec.and_allOnes
    · rfl
  · obtain ⟨i,rfl⟩ := Nat.exists_eq_add_of_le hx
    rcases Nat.lt_or_ge i data.length with hi | hi
    · have hcol : (addr%134217728+i)%2048 = addr%2048+i := by omega
      rw [blend_inside _ _ _ data hi,if_pos (by omega),hcol,patch_inside _ _ data hi]
    · rw [blend_outside _ _ _ data (by omega)]
      split_ifs with hpage
      · rw [patch_outside _ _ data (by omega)]
        exact BitVec.and_allOnes
      · rfl

end

/-! ### All media -/

section
variable {d : NorDriver} {m : Medium} {dev : Dev}

/-- The bytes the SPI entry points see at each address. -/
def Dev.view : Dev → ℕ → Byte
  | .nor f => NorReach.view f
  | .nand n => fun x => n.mem (x%134217728)
  | .emmc _ bus => fun _ => bus

lemma Dev.flashRead_eq (dev : Dev) (a n : ℕ) : (dev.flashRead a n).1 = slice dev.view a n := by
  cases dev with
  | nor f => exact (NorReach.flashRead_spec f a n).1
  | nand k => exact NandChip.flashRead_eq k a n
  | emmc card bus => simp [Dev.flashRead,Dev.view,slice]

lemma Dev.flashCrc32_eq (dev : Dev) (a n : ℕ) :
    (dev.flashCrc32 a n).1 = crc32 0 (slice dev.view a n) := by
  cases dev with
  | nor f => exact (NorReach.flashCrc32_spec f a n).1
  | nand k => exact NandChip.flashCrc32_eq k a n
  | emmc card bus => exact congrArg (crc32 0) (Dev.flashRead_eq (.emmc card bus) a n)

lemma Dev.nor_fits {f g : NorFlash} (hsize : g.chip.size = f.chip.size)
    (hdrv : g.driver = f.driver) {d : NorDriver} {m : Medium} (hfit : (Dev.nor f).Fits d m) :
    (Dev.nor g).Fits d m := by
  cases m with
  | nor id2 => exact ⟨hdrv.trans hfit.1,hsize.trans hfit.2⟩
  | nand => exact hfit.elim
  | emmc c => exact hfit.elim

lemma Dev.nor_keeps {f g : NorFlash} (hmem : g.chip.mem = f.chip.mem)
    (hsize : g.chip.size = f.chip.size) (hdrv : g.driver = f.driver) :
    (∀ d m, (Dev.nor f).Fits d m → (Dev.nor g).Fits d m) ∧
    (Dev.nor g).array = (Dev.nor f).array ∧ (Dev.nor g).view = (Dev.nor f).view := by
  refine ⟨fun _ _ => Dev.nor_fits hsize hdrv,hmem,?_⟩
  change NorReach.view g = NorReach.view f
  funext x
  simp only [NorReach.view,hmem,hsize,hdrv]

lemma Dev.flashRead_keeps (dev : Dev) (a n : ℕ) :
    (∀ d m, dev.Fits d m → (dev.flashRead a n).2.Fits d m) ∧
    (dev.flashRead a n).2.array = dev.array ∧ (dev.flashRead a n).2.view = dev.view := by
  cases dev with
  | nor f =>
    obtain ⟨_,hmem,hsize,hdrv⟩ := NorReach.flashRead_spec f a n
    exact Dev.nor_keeps hmem hsize hdrv
  | nand k => exact ⟨fun _ _ hfit => hfit,rfl,rfl⟩
  | emmc card bus => exact ⟨fun _ _ hfit => hfit,rfl,rfl⟩

lemma Dev.flashCrc32_keeps (dev : Dev) (a n : ℕ) :
    (∀ d m, dev.Fits d m → (dev.flashCrc32 a n).2.Fits d m) ∧
    (dev.flashCrc32 a n).2.array = dev.array ∧ (dev.flashCrc32 a n).2.view = dev.view := by
  cases dev with
  | nor f =>
    obtain ⟨_,hmem,hsize,hdrv⟩ := NorReach.flashCrc32_spec f a n
    exact Dev.nor_keeps hmem hsize hdrv
  | nand k => exact ⟨fun _ _ hfit => hfit,rfl,rfl⟩
  | emmc card bus => exact ⟨fun _ _ hfit => hfit,rfl,rfl⟩

lemma Dev.flashEraseSector_faults (dev : Dev) (a : ℕ) :
    (dev.flashEraseSector a).2.faults = dev.faults := by
  cases dev with
  | nor f => rfl
  | nand n =>
    show (n.nandEraseBlock (a/2048)).2.faults = n.faults
    rw [NandChip.nandEraseBlock]
    split <;> rfl
  | emmc card bus => rfl

lemma Dev.flashWritePage_faults (dev : Dev) (a : ℕ) (data : List Byte) :
    (dev.flashWritePage a data).2.faults = dev.faults := by
  cases dev with
  | nor f => rfl
  | nand n =>
    show (n.nandProgramPage _ _ _).2.faults = n.faults
    rw [NandChip.nandProgramPage]
    split <;> rfl
  | emmc card bus => rfl

lemma Dev.flashEraseSector_good {a : ℕ} (h : (dev.flashEraseSector a).1 = true) :
    dev.faults.erase (a/131072%1024) = none := by
  cases dev with
  | nand n =>
    have hok : (n.nandEraseBlock (a/2048)).1 = true := h
    rw [NandChip.nandEraseBlock,Nat.div_div_eq_div_mul] at hok
    cases hf : n.faults.erase (a/131072%1024) with
    | none => exact hf
    | some left =>
      rw [show a/(2048*64) = a/131072 from rfl,hf] at hok
      cases hok
  | nor f => rfl
  | emmc card bus => rfl

lemma Dev.flashEraseSector_fits (hfit : dev.Fits d m) (a : ℕ) :
    (dev.flashEraseSector a).2.Fits d m := by
  cases dev with
  | nor f =>
    obtain ⟨_,hsize,hdrv⟩ := NorReach.flashEraseSector_spec f a
    exact Dev.nor_fits hsize hdrv hfit
  | nand k =>
    cases m with
    | nor id2 => exact hfit.elim
    | nand => trivial
    | emmc c => exact hfit.elim
  | emmc card bus => exact hfit

lemma Dev.flashWritePage_fits (hfit : dev.Fits d m) (a : ℕ) (data : List Byte) :
    (dev.flashWritePage a data).2.Fits d m := by
  cases dev with
  | nor f =>
    obtain ⟨hsize,hdrv⟩ := NorReach.flashWritePage_shape f a data
    exact Dev.nor_fits hsize hdrv hfit
  | nand k =>
    cases m with
    | nor id2 => exact hfit.elim
    | nand => trivial
    | emmc c => exact hfit.elim
  | emmc card bus => exact hfit

/-- Where byte address `x` lands on an SPI medium. -/
def place (d : NorDriver) (x : ℕ) : Medium → ℕ
  | .nor id2 => NorReach.phys d (detectSize id2) x
  | .nand => x%134217728
  | .emmc _ => x

lemma place_eq {x : ℕ} (hs : x < m.info.size) (hr : x < reach d m) : place d x m = x := by
  cases m with
  | nor id2 => exact NorReach.phys_eq hs hr
  | nand => exact Nat.mod_eq_of_lt hr
  | emmc c => rfl

lemma place_spi (hspi : m.info.flashType ≠ .emmc) (x : ℕ) :
    place d x m < reach d m ∧ place d x m%m.info.sectorSize = x%m.info.sectorSize ∧
      reach d m%m.info.sectorSize = 0 := by
  cases m with
  | nor id2 =>
    exact ⟨NorReach.phys_lt_reach d _ x,
      NorReach.phys_mod (dvd_refl _) (detectSize_bounds id2).2.2,NorReach.reach_mod d⟩
  | nand =>
    refine ⟨Nat.mod_lt _ (by decide),?_,show 134217728%131072 = 0 by decide⟩
    simp only [place,Medium.info]
    omega
  | emmc c => exact absurd rfl hspi

lemma Dev.flashEraseSector_array (hfit : dev.Fits d m) (hspi : m.info.flashType ≠ .emmc)
    {a : ℕ} (hgood : dev.faults.erase (a/131072%1024) = none) :
    (dev.flashEraseSector a).2.array =
      fillBlock m.info.sectorSize dev.array (place d a m) 0xFF#8 := by
  cases dev with
  | nor f =>
    cases m with
    | nor id2 =>
      obtain ⟨rfl,hsize⟩ := hfit
      have hmem := (NorReach.flashEraseSector_spec f a).1
      rwa [hsize] at hmem
    | nand => exact hfit.elim
    | emmc c => exact hfit.elim
  | nand k =>
    cases m with
    | nor id2 => exact hfit.elim
    | nand => exact congrArg (·.2.mem) (NandChip.flashEraseSector_ok k a hgood)
    | emmc c => exact hfit.elim
  | emmc card bus =>
    cases m with
    | nor id2 => exact hfit.elim
    | nand => exact hfit.elim
    | emmc c => exact absurd rfl hspi

lemma Dev.flashEraseSector_ok (hfit : dev.Fits d m) (hspi : m.info.flashType ≠ .emmc)
    {a : ℕ} (ha : a%m.info.sectorSize = 0) (hgood : dev.faults.erase (a/131072%1024) = none) :
    (dev.flashEraseSector a).1 = true := by
  cases dev with
  | nor f =>
    cases m with
    | nor id2 =>
      exact NorReach.flashEraseSector_ok f a
        (by rw [hfit.2]; exact (detectSize_bounds id2).2.2) ha
    | nand => exact hfit.elim
    | emmc c => exact hfit.elim
  | nand k => exact congrArg (·.1) (NandChip.flashEraseSector_ok k a hgood)
  | emmc card bus =>
    cases m with
    | nor id2 => exact hfit.elim
    | nand => exact hfit.elim
    | emmc c => exact absurd rfl hspi

/-- A device at rest with the given contents. -/
def Dev.idle (d : NorDriver) (array : ℕ → Byte) (bus : Byte) : Medium → Dev
  | .nor id2 => .nor (NorReach.idleFlash d (detectSize id2) array)
  | .nand => .nand ⟨array,.none⟩
  | .emmc _ => .emmc array bus

lemma Dev.idle_fits (array : ℕ → Byte) (bus : Byte) : (Dev.idle d array bus m).Fits d m := by
  cases m with
  | nor id2 => exact ⟨NorReach.idleFlash_driver d _ _,by rw [NorReach.idleFlash_chip]⟩
  | nand => trivial
  | emmc c => trivial

lemma Dev.idle_array (array : ℕ → Byte) (bus : Byte) : (Dev.idle d array bus m).array = array := by
  cases m with
  | nor id2 => simp only [Dev.idle,Dev.array,NorReach.idleFlash_chip]
  | nand => rfl
  | emmc c => rfl

lemma Dev.idle_faults (array : ℕ → Byte) (bus : Byte) :
    (Dev.idle d array bus m).faults = .none := by
  cases m <;> rfl

/-- Everything the drivers can see is 0xFF, and every erase succeeds. -/
def Dev.Blank : Dev → Prop
  | .nor f => f.chip.mem = fun _ => 0xFF#8
  | .nand n => (n.mem = fun _ => 0xFF#8) ∧ n.faults = .none
  | .emmc _ bus => bus = 0xFF#8

lemma Dev.idle_blank : (Dev.idle d (fun _ => 0xFF#8) 0xFF#8 m).Blank := by
  cases m with
  | nor id2 => simp only [Dev.idle,Dev.Blank,NorReach.idleFlash_chip]
  | nand => exact ⟨rfl,rfl⟩
  | emmc c => rfl

lemma fillBlock_blank (B a : ℕ) :
    fillBlock B (fun _ => 0xFF#8) a 0xFF#8 = fun _ => (0xFF#8 : Byte) := by
  funext x
  rw [fillBlock]
  split_ifs <;> rfl

lemma Dev.flashEraseSector_blank (h : dev.Blank) (a : ℕ) :
    (dev.flashEraseSector a).1 = true ∧ (dev.flashEraseSector a).2.Blank := by
  cases dev with
  | nor f =>
    refine ⟨NorReach.flashEraseSector_ok_blank f a h,?_⟩
    have hmem := (NorReach.flashEraseSector_spec f a).1
    rw [show f.chip.mem = fun _ => 0xFF#8 from h,fillBlock_blank] at hmem
    exact hmem
  | nand n =>
    obtain ⟨hmem,hfaults⟩ := h
    have hok := NandChip.flashEraseSector_ok n a (by rw [hfaults]; rfl)
    rw [hmem,fillBlock_blank] at hok
    exact ⟨congrArg (·.1) hok,congrArg (·.2.mem) hok,(congrArg (·.2.faults) hok).trans hfaults⟩
  | emmc card bus =>
    refine ⟨?_,h⟩
    rw [Dev.flashEraseSector,show bus = 0xFF#8 from h]
    rfl

end

end Defib.FlashDevice
