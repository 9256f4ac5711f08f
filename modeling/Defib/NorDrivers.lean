import Mathlib.Tactic.IntervalCases
import Defib.Spans
import Defib.Crc32

/-!
# SPI NOR chips and the two controller drivers

The chip is a flat array that sees only the bytes clocked onto its bus. An
address is 24 bits wide and continues counting modulo 2^24 inside a burst; the
extended address register supplies the bits above. Programming clears bits, wraps
inside a 256-byte page and, like erasing, needs the write-enable latch and no
block-protection bit.

`Fmc100` follows `agent/spi_flash.c`, which sends three address bytes and never
touches the extended register. `Hisfc350` follows `agent/spi_flash_hisfc350.c`,
which keeps one bank bit in it. Controller polling is taken to finish; the second
and third status registers are cleared once at start-up and play no role later.
-/
namespace Defib.NorDrivers
open Words BlockMemory Spans Crc32

structure NorChip where
  size : ℕ
  mem : ℕ → Byte
  ear : ℕ
  wel : Bool
  status : Byte

/-- The cell selected by a 24-bit bus address. -/
def NorChip.cell (c : NorChip) (a : ℕ) : ℕ := (c.ear*16777216+a%16777216)%c.size

def NorChip.read (c : NorChip) (a n : ℕ) : List Byte := slice (fun x => c.mem (c.cell x)) a n

/-- `RDSR` 0x05; bit 1 is the write-enable latch. -/
def NorChip.readStatus (c : NorChip) : Byte := if c.wel then c.status ||| 0x02#8 else c.status

def NorChip.writeEnable (c : NorChip) : NorChip := {c with wel := true}

/-- `WRSR` 0x01; the busy and latch bits are read-only. -/
def NorChip.writeStatus (c : NorChip) (v : Byte) : NorChip :=
  if c.wel then {c with status := v &&& 0xFC#8, wel := false} else c

/-- `WREAR` 0xC5. -/
def NorChip.writeEar (c : NorChip) (v : ℕ) : NorChip :=
  if c.wel then {c with ear := v, wel := false} else c

def NorChip.writable (c : NorChip) : Bool := c.wel && (c.status &&& 0x7C#8 == 0)

/-- `SE` 0xD8: erase the 64 KiB sector of the addressed cell. -/
def NorChip.sectorErase (c : NorChip) (a : ℕ) : NorChip :=
  {c with
    mem := if c.writable then fillBlock 65536 c.mem (c.cell a) 0xFF#8 else c.mem
    wel := false}

/-- Bytes programmed from `a` on stay inside the 256-byte page of `a`. -/
def pageWrap (m : ℕ → Byte) (a : ℕ) (data : List Byte) : ℕ → Byte := fun x =>
  if x/256 = a/256 then (data[(x%256+256-a%256)%256]?).elim (m x) (m x &&& ·) else m x

/-- `PP` 0x02. -/
def NorChip.pageProgram (c : NorChip) (a : ℕ) (data : List Byte) : NorChip :=
  {c with
    mem := if c.writable then pageWrap c.mem (c.cell a) data else c.mem
    wel := false}

section
variable (c : NorChip) (a : ℕ) (v : Byte) (data : List Byte)

@[simp] lemma NorChip.writeEnable_mem : c.writeEnable.mem = c.mem := rfl
@[simp] lemma NorChip.writeEnable_ear : c.writeEnable.ear = c.ear := rfl
@[simp] lemma NorChip.writeEnable_size : c.writeEnable.size = c.size := rfl
@[simp] lemma NorChip.writeEnable_wel : c.writeEnable.wel = true := rfl
@[simp] lemma NorChip.writeEnable_status : c.writeEnable.status = c.status := rfl
@[simp] lemma NorChip.sectorErase_ear : (c.sectorErase a).ear = c.ear := rfl
@[simp] lemma NorChip.sectorErase_size : (c.sectorErase a).size = c.size := rfl
@[simp] lemma NorChip.sectorErase_status : (c.sectorErase a).status = c.status := rfl
@[simp] lemma NorChip.pageProgram_ear : (c.pageProgram a data).ear = c.ear := rfl
@[simp] lemma NorChip.pageProgram_size : (c.pageProgram a data).size = c.size := rfl
@[simp] lemma NorChip.pageProgram_status : (c.pageProgram a data).status = c.status := rfl

@[simp] lemma NorChip.writeStatus_ear : (c.writeStatus v).ear = c.ear := by
  unfold NorChip.writeStatus
  split_ifs <;> rfl

@[simp] lemma NorChip.writeStatus_size : (c.writeStatus v).size = c.size := by
  unfold NorChip.writeStatus
  split_ifs <;> rfl

@[simp] lemma NorChip.cell_writeEnable : c.writeEnable.cell a = c.cell a := rfl

end

/-! ### FMC100 -/

/-- The FMC100 driver with its chip. It never writes the extended address register. -/
structure Fmc100 where
  chip : NorChip
  unlockDebug : List Byte
  ear_zero : chip.ear = 0

namespace Fmc100

/-- `flash_read`: register reads of at most 256 bytes. The 32-bit address counter
wraps at a multiple of the chip's 2^24, so it is left unreduced. -/
def flashRead (f : Fmc100) (addr len : ℕ) : List Byte :=
  (spans (fun _ => 256) addr len).flatMap fun s => f.chip.read s.1 s.2

def flashCrc32 (f : Fmc100) (addr len : ℕ) : BitVec 32 :=
  (spans (fun _ => 256) addr len).foldl (fun c s => crc32 c (f.chip.read s.1 s.2)) 0

/-- `flash_unlock`: clear the block-protection bits if any is set. -/
def flashUnlock (f : Fmc100) : Fmc100 :=
  let srBefore := f.chip.readStatus
  if srBefore &&& 0x7C#8 = 0 then f else
    let enabled := f.chip.writeEnable
    let cleared := enabled.writeStatus 0x00#8
    { chip := cleared
      unlockDebug := [srBefore,enabled.readStatus,cleared.readStatus]
      ear_zero := by simpa [cleared,enabled] using f.ear_zero }

/-- `flash_verify_erased`: the first and the last 16 bytes read 0xFF. -/
def flashVerifyErased (f : Fmc100) (addr len : ℕ) : Bool :=
  (f.flashRead addr (min len 16)).all (· == 0xFF#8) &&
    (len ≤ 32 || (f.flashRead (addr+len-16) 16).all (· == 0xFF#8))

/-- `flash_erase_sector`; `true` is the return value 0. -/
def flashEraseSector (f : Fmc100) (addr : ℕ) : Bool × Fmc100 :=
  let u := f.flashUnlock
  let e : Fmc100 := {u with
    chip := u.chip.writeEnable.sectorErase addr
    ear_zero := by simpa using u.ear_zero }
  (e.flashVerifyErased addr 65536,e)

def flashWritePage (f : Fmc100) (addr : ℕ) (data : List Byte) : Fmc100 :=
  let u := f.flashUnlock
  {u with
    chip := u.chip.writeEnable.pageProgram addr (data.take 256)
    ear_zero := by simpa using u.ear_zero }

end Fmc100

/-! ### HISFC350 -/

/-- The HISFC350 driver after `flash_init`: banking is on exactly for chips beyond
16 MiB, and the recorded bank is the one the chip has. -/
structure Hisfc350 where
  chip : NorChip
  unlockDebug : List Byte
  needsBankSwitch : Bool
  currentBank : ℕ
  needs_iff : needsBankSwitch = true ↔ 16777216 < chip.size
  ear_eq : chip.ear = if needsBankSwitch ∧ currentBank ≠ 0 then 1 else 0

namespace Hisfc350

/-- The bank bit an access to `addr` asks for. -/
def bankOf (addr : ℕ) : ℕ := if 16777216 ≤ addr then 1 else 0

def flashSelectBank (h : Hisfc350) (bank : ℕ) : Hisfc350 :=
  if hskip : h.needsBankSwitch = false ∨ bank = h.currentBank then h else
    {h with
      chip := h.chip.writeEnable.writeEar (if bank ≠ 0 then 1 else 0)
      currentBank := bank
      needs_iff := by simpa [NorChip.writeEar] using h.needs_iff
      ear_eq := by
        push Not at hskip
        simp [NorChip.writeEar,hskip.1] }

/-- `flash_walk_banked`: `step` gets the bytes of each piece inside one bank. -/
def flashWalkBanked {σ : Type*} (h : Hisfc350) (addr len : ℕ) (step : σ → List Byte → σ)
    (ctx : σ) : σ × Hisfc350 :=
  (spans (fun a => 16777216-a%16777216) addr len).foldl (fun st s =>
    let h := st.2.flashSelectBank (bankOf s.1)
    (step st.1 (h.chip.read (s.1%16777216) s.2),h)) (ctx,h)

def flashRead (h : Hisfc350) (addr len : ℕ) : List Byte × Hisfc350 :=
  if h.needsBankSwitch then h.flashWalkBanked addr len (· ++ ·) []
  else (h.chip.read addr len,h)

def flashCrc32 (h : Hisfc350) (addr len : ℕ) : BitVec 32 × Hisfc350 :=
  if h.needsBankSwitch then h.flashWalkBanked addr len crc32 0
  else (crc32 0 (h.chip.read addr len),h)

def flashUnlock (h : Hisfc350) : Hisfc350 :=
  let srBefore := h.chip.readStatus
  if srBefore &&& 0x7C#8 = 0 then {h with unlockDebug := [srBefore,srBefore,srBefore]} else
    let enabled := h.chip.writeEnable
    let cleared := enabled.writeStatus (srBefore &&& ~~~0x7C#8)
    {h with
      chip := cleared
      unlockDebug := [srBefore,enabled.readStatus,cleared.readStatus]
      needs_iff := by simpa [cleared,enabled] using h.needs_iff
      ear_eq := by simpa [cleared,enabled] using h.ear_eq }

def flashVerifyErased (h : Hisfc350) (addr len : ℕ) : Bool × Hisfc350 :=
  let head := h.flashRead addr (min len 16)
  if head.1.all (· == 0xFF#8) then
    if 32 < len then
      let tail := head.2.flashRead (addr+len-16) 16
      (tail.1.all (· == 0xFF#8),tail.2)
    else (true,head.2)
  else (false,head.2)

/-- Write enable, then one command that leaves the bank alone. -/
def command (h : Hisfc350) (op : NorChip → NorChip)
    (hop : ∀ c, (op c).ear = c.ear ∧ (op c).size = c.size) : Hisfc350 :=
  {h with
    chip := op h.chip.writeEnable
    needs_iff := by simpa [(hop _).2] using h.needs_iff
    ear_eq := by simpa [(hop _).1] using h.ear_eq }

def flashEraseSector (h : Hisfc350) (addr : ℕ) : Bool × Hisfc350 :=
  let u := (h.flashSelectBank (bankOf addr)).flashUnlock
  (u.command (·.sectorErase (addr%16777216)) fun _ => ⟨rfl,rfl⟩).flashVerifyErased addr 65536

/-- A page is programmed in 64-byte commands. -/
def flashWritePage (h : Hisfc350) (addr : ℕ) (data : List Byte) : Hisfc350 :=
  let page := data.take 256
  (pieces 64 page.length).foldl (fun h s =>
      h.command (·.pageProgram ((addr+s.1)%16777216) ((page.drop s.1).take s.2))
        fun _ => ⟨rfl,rfl⟩)
    (h.flashSelectBank (bankOf addr)).flashUnlock

end Hisfc350

/-! ### Both drivers under the interface of `agent/spi_flash.h` -/

inductive NorDriver where
  | fmc100
  | hisfc350
  deriving DecidableEq, Repr

inductive NorFlash where
  | fmc100 (f : Fmc100)
  | hisfc350 (h : Hisfc350)

namespace NorFlash

def driver : NorFlash → NorDriver
  | fmc100 _ => .fmc100
  | hisfc350 _ => .hisfc350

def chip : NorFlash → NorChip
  | fmc100 f => f.chip
  | hisfc350 h => h.chip

def unlockDebug : NorFlash → List Byte
  | fmc100 f => f.unlockDebug
  | hisfc350 h => h.unlockDebug

def flashRead (addr len : ℕ) : NorFlash → List Byte × NorFlash
  | fmc100 f => (f.flashRead addr len,fmc100 f)
  | hisfc350 h => (h.flashRead addr len).map id hisfc350

def flashCrc32 (addr len : ℕ) : NorFlash → BitVec 32 × NorFlash
  | fmc100 f => (f.flashCrc32 addr len,fmc100 f)
  | hisfc350 h => (h.flashCrc32 addr len).map id hisfc350

def flashEraseSector (addr : ℕ) : NorFlash → Bool × NorFlash
  | fmc100 f => (f.flashEraseSector addr).map id fmc100
  | hisfc350 h => (h.flashEraseSector addr).map id hisfc350

def flashWritePage (addr : ℕ) (data : List Byte) : NorFlash → NorFlash
  | fmc100 f => fmc100 (f.flashWritePage addr data)
  | hisfc350 h => hisfc350 (h.flashWritePage addr data)

end NorFlash

/-- `detect_size`, the same in both drivers. -/
def detectSize (id2 : Byte) : ℕ :=
  if 0x14 ≤ id2.toNat ∧ id2.toNat ≤ 0x1A then 2^id2.toNat else 0x1000000

lemma detectSize_bounds (id2 : Byte) :
    0x100000 ≤ detectSize id2 ∧ detectSize id2 ≤ 0x4000000 ∧ detectSize id2%65536 = 0 := by
  unfold detectSize
  split_ifs with h
  · obtain ⟨hl,hu⟩ := h
    generalize id2.toNat = n at hl hu
    interval_cases n <;> decide
  · decide

end Defib.NorDrivers
