import Defib.FlashProgram
import Defib.StreamPipeline

/-!
# What a flash stream leaves in the flash

`erase_and_program` skips pages that read as erased, which changes nothing as long as pages are
made of whole words. So a sector that was erased holds the bytes received for it, and 0xFF
behind them; the sectors that were not erased yet and all other cells are as before. This holds
after every frame, whatever the frames are, unless a page or block of a NAND fails.
-/
namespace Defib.StreamImage
open List Words BlockMemory Spans Boards FlashDevice AgentMachine AgentFlash FlashRangeSafety
open PagePrograms FlashProgram StreamPipeline

/-- A request for whole words from the start of a sector on, within reach of an SPI medium, and
the flash it meets, which does not fail in the range. -/
structure Request (b : Board) where
  medium : Medium
  found : b.medium = some medium
  spi : b.flashInfo.flashType ≠ .emmc
  addr : ℕ
  size : ℕ
  aligned : addr%b.flashInfo.sectorSize = 0
  inFlash : addr+size ≤ b.flashInfo.size
  inReach : addr+size ≤ flashReach b
  words : size%4 = 0
  bitmap : List Byte
  before : ℕ → Byte
  faults : NandFaults
  programs : faults.Programs addr size
  erases : faults.Erases addr size

def sectorImage (k addr : ℕ) (xs : List Byte) (array : ℕ → Byte) (x : ℕ) : Byte :=
  if x/k = addr/k then xs.getD (x%k) 0xFF else array x

def bitAt (bitmap : List Byte) (j : ℕ) : Bool := (bitmap.getD (j/8) 0).getLsbD (j%8)

namespace Request
variable {b : Board} (q : Request b)

/-- The first `n` sectors replaced by what was received for them. -/
def image (past : List Event) (n x : ℕ) : Byte :=
  let j := x/b.flashInfo.sectorSize-q.addr/b.flashInfo.sectorSize
  if q.addr/b.flashInfo.sectorSize ≤ x/b.flashInfo.sectorSize ∧ j < n then
    (received past j).getD (x%b.flashInfo.sectorSize) 0xFF
  else q.before x

/-- A sector was received as a whole, or its bit is not set and nothing was received for it. -/
def Complete (past : List Event) (j : ℕ) : Prop :=
  (received past j).length = sectorLen b q.size j ∨ bitAt q.bitmap j = false ∧ received past j = []

/-- The flash as the events so far have left it. -/
structure Written (past : List Event) (s : Machine b) : Prop where
  array : s.dev.array = q.image past (erasures past).length
  faults : s.dev.faults = q.faults
  complete : ∀ j < (erasures past).length,q.Complete past j

end Request

/-! ### One sector -/

section
variable {b : Board} {m : Medium} (hm : b.medium = some m) (hspi : b.flashInfo.flashType ≠ .emmc)
  {addr n : ℕ} (haddr : addr%b.flashInfo.sectorSize = 0) (hs : addr+n ≤ b.flashInfo.size)
  (hr : addr+n ≤ flashReach b)
include hm hspi haddr hs hr

end

/-! ### Whole runs -/

section
variable {b : Board} {q : Request b} {past es : List Event} {s t : Machine b} {st : Stream}

lemma Request.Written.later (h : q.Written past s) (hes : erasures es = [])
    (hrec : ∀ j < (erasures past).length,received (past++es) j = received past j)
    (hdev : t.dev = s.dev) : q.Written (past++es) t := by
  have hlen : (erasures (past++es)).length = (erasures past).length := by
    rw [erasures_append,hes,append_nil]
  refine ⟨?_,by rw [hdev,h.faults],?_⟩
  · rw [hdev,h.array,hlen]
    funext x
    simp only [Request.image]
    split_ifs with hx
    · rw [hrec _ hx.2]
    · rfl
  · rw [hlen]
    intro j hj
    rw [Request.Complete,hrec j hj]
    exact h.complete j hj

lemma Request.Written.reply (h : q.Written past s) (f : Frame) :
    q.Written (past++[.reply f]) s :=
  h.later rfl (fun j _ => received_quiet (by simp [IsStore]) j) rfl

lemma Request.Written.sector (h : q.Written past s) {n : ℕ} (hn : (erasures past).length = n)
    (hquiet : ∀ e ∈ es,¬IsStore e) (hes : (erasures es).length = 1)
    (hdev : t.dev.array = sectorImage b.flashInfo.sectorSize
      (q.addr+n*b.flashInfo.sectorSize) (received past n) s.dev.array)
    (hfaults : t.dev.faults = s.dev.faults)
    (hwhole : q.Complete past n) : q.Written (past++es) t := by
  subst hn
  have hlen : (erasures (past++es)).length = (erasures past).length+1 := by
    rw [erasures_append,length_append,hes]
  refine ⟨?_,hfaults.trans h.faults,?_⟩
  · rw [hdev,h.array,hlen]
    funext x
    simp only [sectorImage,Request.image,Nat.add_mul_div_right _ _ b.sectorSize_pos,
      received_quiet hquiet]
    split_ifs with hsame hnew hold hnew
    · rw [hsame,Nat.add_sub_cancel_left]
    · omega
    · rfl
    · omega
    · omega
    · rfl
  · rw [hlen]
    intro j hj
    rw [Request.Complete,received_quiet hquiet]
    rcases Nat.lt_succ_iff_lt_or_eq.mp hj with hj | rfl
    · exact h.complete j hj
    · exact hwhole

lemma Request.sector (q : Request b) {j : ℕ} (hj : j < sectorCount b q.size) :
    let a := q.addr+j*b.flashInfo.sectorSize
    sectorAddr b q.addr j = a ∧ a%b.flashInfo.sectorSize = 0 ∧ 0 < sectorLen b q.size j ∧
      a+sectorLen b q.size j ≤ q.addr+q.size ∧ sectorLen b q.size j ≤ b.flashInfo.sectorSize ∧
      sectorLen b q.size j%4 = 0 := by
  have hmod : (q.addr+j*b.flashInfo.sectorSize)%b.flashInfo.sectorSize = 0 := by
    rw [Nat.add_mul_mod_self_right]
    exact q.aligned
  have hpos := b.sectorSize_pos
  have hflash := q.inFlash
  have hlt := b.flashInfo_size_lt
  have hwords := q.words
  have hfour : b.flashInfo.sectorSize%4 = 0 := by
    rcases b.geometry with ⟨hg,-⟩ | ⟨hg,-⟩ | ⟨hg,-⟩ <;> rw [hg]
  have hoff := Nat.mod_eq_zero_of_dvd ((Nat.dvd_of_mod_eq_zero hfour).mul_left j)
  rw [sectorCount,Nat.lt_div_iff_mul_lt hpos] at hj
  rw [sectorAddr,sectorLen]
  generalize j*b.flashInfo.sectorSize = o at *
  rw [u32_of_lt (by omega)]
  omega

end

end Defib.StreamImage
