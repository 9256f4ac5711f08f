import Defib.FlashDevice

/-!
# The machine the agent runs on

Frames are what `proto_recv` and `proto_send` exchange: a command byte and its
payload. The machine has byte-addressed memory, word-addressed registers and the
flash device found at start-up; the device is of the board's medium by
construction. Handlers report what they do as a list of events, in order.
-/
namespace Defib.AgentMachine
open Words BlockMemory Boards FlashDevice

structure Frame where
  cmd : Byte
  payload : List Byte
  deriving DecidableEq, Repr

def cmdInfo : Byte := 0x01
def cmdRead : Byte := 0x02
def cmdWrite : Byte := 0x03
def cmdErase : Byte := 0x04
def cmdCrc32 : Byte := 0x05
def cmdReboot : Byte := 0x06
def cmdSelfupdate : Byte := 0x07
def cmdSetBaud : Byte := 0x08
def cmdScan : Byte := 0x09
def cmdFlashProgram : Byte := 0x0A
def cmdFlashStream : Byte := 0x0B
def cmdMarkBad : Byte := 0x0C
def cmdMembw : Byte := 0x0D
def cmdNand : Byte := 0x0E

def rspData : Byte := 0x82
def rspAck : Byte := 0x83
def rspCrc32 : Byte := 0x84
def rspReady : Byte := 0x85
def rspScan : Byte := 0x86
def rspNand : Byte := 0x88

def ackOk : Byte := 0x00
def ackCrcError : Byte := 0x01
def ackFlashError : Byte := 0x02

def ack (status : Byte) : Frame := ⟨rspAck,[status]⟩

def maxPayload : ℕ := 1024
def maxReadSize : ℕ := 32*1024*1024
def maxUpdateSize : ℕ := 256*1024

inductive Event where
  | reply (f : Frame)
  | store (addr : ℕ) (data : List Byte)
  | erase (addr : ℕ)
  | program (addr : ℕ) (data : List Byte)
  deriving DecidableEq, Repr

/-- Byte stores through a 32-bit pointer that counts up from `a`. -/
def storeBytes (mem : ℕ → Byte) (a : ℕ) : List Byte → ℕ → Byte
  | [] => mem
  | x::xs => storeBytes (Function.update mem (u32 a) x) (a+1) xs

/-- Byte loads through a 32-bit pointer that counts up from `a`. -/
def loadBytes (mem : ℕ → Byte) (a n : ℕ) : List Byte := slice (fun x => mem (u32 x)) a n

lemma storeBytes_eq_patch (mem : ℕ → Byte) (a : ℕ) (xs : List Byte)
    (h : a+xs.length ≤ 4294967296) : storeBytes mem a xs = patch mem a xs := by
  induction xs generalizing mem a with
  | nil => simp [storeBytes]
  | cons x xs ih =>
    simp only [List.length_cons] at h
    rw [storeBytes,u32_of_lt (by omega),ih _ _ (by omega),← patch_singleton,
      show a+1 = a+[x].length from rfl,patch_append]
    rfl

lemma loadBytes_eq_slice (mem : ℕ → Byte) (a n : ℕ) (h : a+n ≤ 4294967296) :
    loadBytes mem a n = slice mem a n :=
  slice_congr fun i hi => by rw [u32_of_lt (by omega)]

@[simp] lemma loadBytes_length (mem : ℕ → Byte) (a n : ℕ) : (loadBytes mem a n).length = n :=
  slice_length _ _ _

lemma loadBytes_add (mem : ℕ → Byte) (a n k : ℕ) :
    loadBytes mem a (n+k) = loadBytes mem a n++loadBytes mem (a+n) k := slice_add _ a n k

lemma loadBytes_part (mem : ℕ → Byte) (a : ℕ) {n o c : ℕ} (h : o+c ≤ n) :
    loadBytes mem (a+o) c = ((loadBytes mem a n).drop o).take c := slice_part _ a n o c h

lemma loadBytes_store_apart (mem : ℕ → Byte) {a c n : ℕ} {xs : List Byte}
    (ha : a+xs.length ≤ 4294967296) (hc : c+n ≤ 4294967296)
    (h : c+n ≤ a ∨ a+xs.length ≤ c) : loadBytes (storeBytes mem a xs) c n = loadBytes mem c n := by
  rw [loadBytes_eq_slice _ _ _ hc,loadBytes_eq_slice _ _ _ hc,storeBytes_eq_patch _ _ _ ha,
    slice_patch_apart _ _ _ _ _ h]

lemma loadBytes_store_append (mem : ℕ → Byte) {a n : ℕ} {xs : List Byte}
    (h : a+n+xs.length ≤ 4294967296) : loadBytes (storeBytes mem (a+n) xs) a (n+xs.length) =
      loadBytes mem a n++xs := by
  rw [loadBytes_add,loadBytes_store_apart mem h (by omega) (.inl le_rfl),
    loadBytes_eq_slice _ (a+n) _ h,storeBytes_eq_patch _ _ _ h,slice_patch_self]

/-- Memory, registers and the device of a board. -/
structure Machine (b : Board) where
  mem : ℕ → Byte
  io : ℕ → BitVec 32
  dev : Dev
  fits : ∀ m ∈ b.medium, dev.Fits b.config.spiDriver m

namespace Machine
variable {b : Board}

def store (s : Machine b) (a : ℕ) (xs : List Byte) : Machine b :=
  {s with mem := storeBytes s.mem a xs}

def flashRead (s : Machine b) (a n : ℕ) : List Byte × Machine b :=
  let r := s.dev.flashRead a n
  (r.1,{s with dev := r.2, fits := fun m hm => (Dev.flashRead_keeps s.dev a n).1 _ m (s.fits m hm)})

def flashCrc32 (s : Machine b) (a n : ℕ) : BitVec 32 × Machine b :=
  let r := s.dev.flashCrc32 a n
  (r.1,{s with
    dev := r.2, fits := fun m hm => (Dev.flashCrc32_keeps s.dev a n).1 _ m (s.fits m hm)})

def flashEraseSector (s : Machine b) (a : ℕ) : Bool × Machine b :=
  let r := s.dev.flashEraseSector a
  (r.1,{s with dev := r.2, fits := fun m hm => Dev.flashEraseSector_fits (s.fits m hm) a})

def flashWritePage (s : Machine b) (a : ℕ) (data : List Byte) : Bool × Machine b :=
  let r := s.dev.flashWritePage a data
  (r.1,{s with dev := r.2, fits := fun m hm => Dev.flashWritePage_fits (s.fits m hm) a data})

/-- A machine at rest; without a medium the device is never looked at. -/
def idle (b : Board) (mem : ℕ → Byte) (io : ℕ → BitVec 32) (array : ℕ → Byte) (bus : Byte) :
    Machine b where
  mem := mem
  io := io
  dev := Dev.idle b.config.spiDriver array bus (b.medium.getD (.emmc 0))
  fits := by
    intro m hm
    rw [Option.mem_def.mp hm]
    exact Dev.idle_fits array bus

lemma idle_array (mem : ℕ → Byte) (io : ℕ → BitVec 32) (array : ℕ → Byte) (bus : Byte) :
    (idle b mem io array bus).dev.array = array := Dev.idle_array array bus

lemma idle_faults (mem : ℕ → Byte) (io : ℕ → BitVec 32) (array : ℕ → Byte) (bus : Byte) :
    (idle b mem io array bus).dev.faults = .none := Dev.idle_faults array bus

end Machine

/-! ### Address classes -/

section
variable (b : Board) (addr size : ℕ)

/-- `addr >= base && (addr + size) <= base + len`. -/
def inWindow (addr size base len : ℕ) : Bool := base ≤ addr && u32 (addr+size) ≤ base+len

/-- The flash window test with 64-bit arithmetic. -/
def inFlashWindow : Bool :=
  b.flashReadable && b.config.flashMem ≤ addr && addr-b.config.flashMem+size ≤ b.flashInfo.size

def addrReadable : Bool :=
  size ≠ 0 && addr < u32 (addr+size) &&
    (inWindow addr size b.config.ramBase (128*1024*1024) ||
     inWindow addr size 0x10000000 0x1000 ||
     inWindow addr size 0x12010000 0x10000 ||
     inWindow addr size 0x12020000 0x10000 ||
     inWindow addr size b.config.fmcBase 0x1000 ||
     inWindow addr size b.config.crgBase 0x1000 ||
     inWindow addr size b.config.uartBase 0x1000 ||
     b.config.emmcBase.any (inWindow addr size · 0x1000) ||
     b.config.ioCtrl0Base.any (inWindow addr size · 0x1000) ||
     b.config.bootrom.any (fun r => inWindow addr size r.1 r.2) ||
     inFlashWindow b addr size)

def isIoRegion : Bool :=
  (0x10000000 ≤ addr && addr < 0x13000000) ||
  (b.config.fmcBase ≤ addr && addr < b.config.fmcBase+0x1000) ||
  (b.config.crgBase ≤ addr && addr < b.config.crgBase+0x1000) ||
  (b.config.uartBase ≤ addr && addr < b.config.uartBase+0x1000)

end

lemma addrReadable_no_wrap {b : Board} {addr size : ℕ} (ha : addr < 4294967296)
    (hs : size < 4294967296) (h : addrReadable b addr size = true) :
    0 < size ∧ addr+size < 4294967296 := by
  simp only [addrReadable,Bool.and_eq_true,decide_eq_true_eq,ne_eq] at h
  obtain ⟨⟨hpos,hsum⟩,_⟩ := h
  unfold u32 at hsum
  omega

lemma inWindow_low {addr size base len : ℕ} (hb : 0x04000000 ≤ base)
    (h : inWindow addr size base len = true) : 0x04000000 ≤ addr := by
  simp only [inWindow,Bool.and_eq_true,decide_eq_true_eq] at h
  omega

lemma addrReadable_low {b : Board} {addr size : ℕ} (h : addrReadable b addr size = true) :
    0x04000000 ≤ addr := by
  obtain ⟨hram,hfmc,hcrg,huart,hflash,hemmc,hioctl,hrom⟩ := b.soc.config_low
  simp only [addrReadable,Bool.and_eq_true,Bool.or_eq_true] at h
  rcases h.2 with (((((((((h | h) | h) | h) | h) | h) | h) | h) | h) | h) | h
  · exact inWindow_low hram h
  · exact inWindow_low (by decide) h
  · exact inWindow_low (by decide) h
  · exact inWindow_low (by decide) h
  · exact inWindow_low hfmc h
  · exact inWindow_low hcrg h
  · exact inWindow_low huart h
  · obtain ⟨a,ha,hw⟩ := (Option.any_eq_true _ _).mp h
    exact inWindow_low (hemmc a ha) hw
  · obtain ⟨a,ha,hw⟩ := (Option.any_eq_true _ _).mp h
    exact inWindow_low (hioctl a ha) hw
  · obtain ⟨r,hr,hw⟩ := (Option.any_eq_true _ _).mp h
    exact inWindow_low (hrom r hr) hw
  · simp only [inFlashWindow,Bool.and_eq_true,decide_eq_true_eq] at h
    have hle : 0x04000000 ≤ b.config.flashMem := hflash
    omega

end Defib.AgentMachine
