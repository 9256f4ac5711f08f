import Defib.NorDrivers

/-!
# Which addresses the NOR drivers reach

Every operation of either driver acts on the flat array through one map,
`phys`, from byte addresses to cells: three address bytes, plus the bank bit of
the HISFC350. The map is the identity exactly below `reach`, 16 MiB for FMC100
and 32 MiB for HISFC350, while `detect_size` reports chips of up to 64 MiB.
The four operations are first specified through `phys` without any bound; the
comparison with the flat array then only looks at that map.
-/
namespace Defib.NorReach
open List Words BlockMemory Spans Crc32 NorDrivers

/-- Bytes addressable with the address bits the driver drives. -/
def reach : NorDriver → ℕ
  | .fmc100 => 16777216
  | .hisfc350 => 33554432

def physBank (size x : ℕ) : NorDriver → ℕ
  | .fmc100 => 0
  | .hisfc350 => if 16777216 < size ∧ 16777216 ≤ x then 1 else 0

def phys (d : NorDriver) (size x : ℕ) : ℕ := (physBank size x d*16777216+x%16777216)%size

variable {d : NorDriver}

lemma phys_eq {size x : ℕ} (hs : x < size) (hx : x < reach d) :
    phys d size x = x := by
  have hsum : physBank size x d*16777216+x%16777216 = x := by
    cases d with
    | fmc100 =>
      simp only [reach] at hx
      simp only [physBank]
      omega
    | hisfc350 =>
      simp only [reach] at hx
      simp only [physBank]
      split_ifs <;> omega
  rw [phys,hsum,Nat.mod_eq_of_lt hs]

lemma phys_mod {size x k : ℕ} (hk : k ∣ 65536) (hsize : size%65536 = 0) :
    phys d size x%k = x%k := by
  have hks : k ∣ size := hk.trans (Nat.dvd_of_mod_eq_zero hsize)
  have hk24 : k ∣ 16777216 := hk.trans (by decide)
  rw [phys,Nat.mod_mod_of_dvd _ hks,Nat.add_mod,Nat.mod_mod_of_dvd _ hk24,
    Nat.mod_eq_zero_of_dvd (hk24.mul_left _)]
  simp

lemma phys_add {size x i : ℕ} (hsize : size%65536 = 0)
    (hi : x%65536+i < 65536) : phys d size (x+i) = phys d size x+i := by
  have hbank : physBank size (x+i) d = physBank size x d := by
    cases d with
    | fmc100 => rfl
    | hisfc350 =>
      simp only [physBank]
      have hiff : 16777216 ≤ x+i ↔ 16777216 ≤ x := by omega
      simp only [hiff]
  have hlow : (x+i)%16777216 = x%16777216+i := by omega
  have hmod := phys_mod (d := d) (x := x) (dvd_refl 65536) hsize
  rw [phys,hbank,hlow,← Nat.add_assoc,Nat.add_mod]
  have hpos : size = 0 ∨ 65536 ≤ size := by omega
  rcases hpos with rfl | hpos
  · simp [phys]
  · have hlt : phys d size x < size := Nat.mod_lt _ (by omega)
    rw [Nat.mod_eq_of_lt (show i < size by omega)]
    change (phys d size x+i)%size = _
    refine Nat.mod_eq_of_lt ?_
    omega

lemma readStatus_lock (c : NorChip) : c.readStatus &&& 0x7C#8 = c.status &&& 0x7C#8 := by
  unfold NorChip.readStatus
  split_ifs
  · rw [BitVec.and_or_distrib_right]
    simp
  · rfl

lemma sectorErase_mem {c : NorChip} (a : ℕ) (h : c.status &&& 0x7C#8 = 0) :
    (c.writeEnable.sectorErase a).mem = fillBlock 65536 c.mem (c.cell a) 0xFF#8 := by
  simp [NorChip.sectorErase,NorChip.writable,h]

lemma pageProgram_mem {c : NorChip} (a : ℕ) (data : List Byte) (h : c.status &&& 0x7C#8 = 0) :
    (c.writeEnable.pageProgram a data).mem = pageWrap c.mem (c.cell a) data := by
  simp [NorChip.pageProgram,NorChip.writable,h]

lemma pageWrap_eq_blend (m : ℕ → Byte) (a : ℕ) (data : List Byte)
    (h : a%256+data.length ≤ 256) : pageWrap m a data = blend (· &&& ·) m a data := by
  funext x
  exact wrap_eq_blend (· &&& ·) m (by decide) h x

/-! ### FMC100 -/

section
variable (f : Fmc100) (addr len : ℕ) (data : List Byte)

lemma Fmc100.cell_eq_phys (x : ℕ) : f.chip.cell x = phys .fmc100 f.chip.size x := by
  simp [NorChip.cell,phys,physBank,f.ear_zero]

lemma Fmc100.read_eq : f.chip.read addr len =
    slice (fun x => f.chip.mem (phys .fmc100 f.chip.size x)) addr len := by
  simp only [NorChip.read,Fmc100.cell_eq_phys]

lemma Fmc100.flashRead_eq : f.flashRead addr len =
    slice (fun x => f.chip.mem (phys .fmc100 f.chip.size x)) addr len := by
  simp only [Fmc100.flashRead,Fmc100.read_eq]
  exact spans_flatMap_slice (fun _ => by decide) _ addr len

lemma Fmc100.flashCrc32_eq : f.flashCrc32 addr len =
    crc32 0 (slice (fun x => f.chip.mem (phys .fmc100 f.chip.size x)) addr len) := by
  rw [Fmc100.flashCrc32,crc32_foldl]
  exact congrArg (crc32 0) (Fmc100.flashRead_eq f addr len)

lemma Fmc100.flashUnlock_spec : f.flashUnlock.chip.mem = f.chip.mem ∧
    f.flashUnlock.chip.size = f.chip.size ∧ f.flashUnlock.chip.status &&& 0x7C#8 = 0 := by
  simp only [Fmc100.flashUnlock]
  split_ifs with h
  · exact ⟨rfl,rfl,by rwa [readStatus_lock] at h⟩
  · exact ⟨rfl,rfl,by simp [NorChip.writeStatus]⟩

lemma Fmc100.flashEraseSector_spec :
    (f.flashEraseSector addr).2.chip.mem =
      fillBlock 65536 f.chip.mem (phys .fmc100 f.chip.size addr) 0xFF#8 ∧
    (f.flashEraseSector addr).2.chip.size = f.chip.size := by
  obtain ⟨hmem,hsize,hlock⟩ := Fmc100.flashUnlock_spec f
  refine ⟨?_,hsize⟩
  have h := sectorErase_mem (c := f.flashUnlock.chip) addr hlock
  rwa [Fmc100.cell_eq_phys,hmem,hsize] at h

lemma Fmc100.flashWritePage_spec :
    (f.flashWritePage addr data).chip.mem =
      pageWrap f.chip.mem (phys .fmc100 f.chip.size addr) (data.take 256) ∧
    (f.flashWritePage addr data).chip.size = f.chip.size := by
  obtain ⟨hmem,hsize,hlock⟩ := Fmc100.flashUnlock_spec f
  refine ⟨?_,hsize⟩
  have h := pageProgram_mem (c := f.flashUnlock.chip) addr (data.take 256) hlock
  rwa [Fmc100.cell_eq_phys,hmem,hsize] at h

end

/-! ### HISFC350 -/

section
variable (h : Hisfc350) (addr len : ℕ) (data : List Byte)

lemma Hisfc350.flashSelectBank_spec (bank : ℕ) :
    (h.flashSelectBank bank).chip.mem = h.chip.mem ∧
    (h.flashSelectBank bank).chip.size = h.chip.size ∧
    (h.flashSelectBank bank).chip.ear = if 16777216 < h.chip.size ∧ bank ≠ 0 then 1 else 0 := by
  have hneeds : h.needsBankSwitch = decide (16777216 < h.chip.size) := by
    rw [Bool.eq_iff_iff,decide_eq_true_eq]
    exact h.needs_iff
  by_cases hskip : h.needsBankSwitch = false ∨ bank = h.currentBank
  · simp only [Hisfc350.flashSelectBank,dif_pos hskip]
    refine ⟨trivial,trivial,?_⟩
    rw [h.ear_eq]
    rcases hskip with hs | hs
    · have hsmall : ¬16777216 < h.chip.size := of_decide_eq_false (hneeds ▸ hs)
      simp [hs,hsmall]
    · simp [hs,hneeds]
  · simp only [Hisfc350.flashSelectBank,dif_neg hskip]
    push Not at hskip
    have hbig : 16777216 < h.chip.size := by simpa [hneeds] using hskip.1
    simp [NorChip.writeEar,hbig]

lemma Hisfc350.flashSelectBank_ear :
    (h.flashSelectBank (Hisfc350.bankOf addr)).chip.ear = physBank h.chip.size addr .hisfc350 := by
  rw [(Hisfc350.flashSelectBank_spec h _).2.2]
  simp [physBank,Hisfc350.bankOf]

lemma Hisfc350.read_selected {a n : ℕ} (hn : a%16777216+n ≤ 16777216) :
    (h.flashSelectBank (Hisfc350.bankOf a)).chip.read (a%16777216) n =
      slice (fun x => h.chip.mem (phys .hisfc350 h.chip.size x)) a n := by
  obtain ⟨hmem,hsize,_⟩ := Hisfc350.flashSelectBank_spec h (Hisfc350.bankOf a)
  rw [NorChip.read,hmem]
  apply slice_congr
  intro i hi
  have hbank : physBank h.chip.size (a+i) .hisfc350 = physBank h.chip.size a .hisfc350 := by
    have hiff : 16777216 ≤ a+i ↔ 16777216 ≤ a := by omega
    simp only [physBank,hiff]
  have hlow : (a%16777216+i)%16777216 = (a+i)%16777216 := by omega
  rw [NorChip.cell,hsize,Hisfc350.flashSelectBank_ear,hlow,← hbank]
  rfl

lemma Hisfc350.walk_spec {σ : Type*} (step : σ → List Byte → σ) (ctx : σ) :
    (h.flashWalkBanked addr len step ctx).1 =
      (spans (fun a => 16777216-a%16777216) addr len).foldl
        (fun c s => step c (slice (fun x => h.chip.mem (phys .hisfc350 h.chip.size x)) s.1 s.2))
        ctx ∧
    (h.flashWalkBanked addr len step ctx).2.chip.mem = h.chip.mem ∧
    (h.flashWalkBanked addr len step ctx).2.chip.size = h.chip.size := by
  have hpieces : ∀ s ∈ spans (fun a => 16777216-a%16777216) addr len,
      s.1%16777216+s.2 ≤ 16777216 := by
    intro s hs
    have hlim := (mem_spans (fun a => by omega) hs).2.2.1
    omega
  unfold Hisfc350.flashWalkBanked
  generalize spans (fun a => 16777216-a%16777216) addr len = ps at hpieces
  induction ps generalizing h ctx with
  | nil => exact ⟨rfl,rfl,rfl⟩
  | cons s ps ih =>
    obtain ⟨hmem,hsize,_⟩ := Hisfc350.flashSelectBank_spec h (Hisfc350.bankOf s.1)
    have hrest := ih (h.flashSelectBank (Hisfc350.bankOf s.1))
      (step ctx ((h.flashSelectBank (Hisfc350.bankOf s.1)).chip.read (s.1%16777216) s.2))
      (fun t ht => hpieces t (mem_cons_of_mem _ ht))
    rw [Hisfc350.read_selected h (hpieces s mem_cons_self),hmem,hsize] at hrest
    simp only [foldl_cons]
    rw [Hisfc350.read_selected h (hpieces s mem_cons_self)]
    exact hrest

lemma Hisfc350.read_flat (hsmall : h.needsBankSwitch = false) : h.chip.read addr len =
    slice (fun x => h.chip.mem (phys .hisfc350 h.chip.size x)) addr len := by
  have hle : ¬16777216 < h.chip.size := fun hbig => by simp [h.needs_iff.mpr hbig] at hsmall
  have hear : h.chip.ear = 0 := by rw [h.ear_eq]; simp [hsmall]
  simp only [NorChip.read,NorChip.cell,hear,phys,physBank,hle,false_and,if_false]

lemma Hisfc350.flashRead_spec :
    (h.flashRead addr len).1 =
      slice (fun x => h.chip.mem (phys .hisfc350 h.chip.size x)) addr len ∧
    (h.flashRead addr len).2.chip.mem = h.chip.mem ∧
    (h.flashRead addr len).2.chip.size = h.chip.size := by
  cases hb : h.needsBankSwitch with
  | false =>
    simp only [Hisfc350.flashRead,hb]
    exact ⟨Hisfc350.read_flat h addr len hb,rfl,rfl⟩
  | true =>
    simp only [Hisfc350.flashRead,hb]
    obtain ⟨hctx,hkeep⟩ := Hisfc350.walk_spec h addr len (· ++ ·) []
    refine ⟨hctx.trans ?_,hkeep⟩
    rw [foldl_append_eq_append,nil_append,← flatMap_def]
    exact spans_flatMap_slice (fun a => by omega) _ addr len

lemma Hisfc350.flashCrc32_spec :
    (h.flashCrc32 addr len).1 =
      crc32 0 (slice (fun x => h.chip.mem (phys .hisfc350 h.chip.size x)) addr len) ∧
    (h.flashCrc32 addr len).2.chip.mem = h.chip.mem ∧
    (h.flashCrc32 addr len).2.chip.size = h.chip.size := by
  cases hb : h.needsBankSwitch with
  | false =>
    simp only [Hisfc350.flashCrc32,hb]
    exact ⟨congrArg (crc32 0) (Hisfc350.read_flat h addr len hb),rfl,rfl⟩
  | true =>
    simp only [Hisfc350.flashCrc32,hb]
    obtain ⟨hctx,hkeep⟩ := Hisfc350.walk_spec h addr len crc32 0
    refine ⟨hctx.trans ?_,hkeep⟩
    rw [crc32_foldl,spans_flatMap_slice (fun a => by omega)]

lemma Hisfc350.flashUnlock_spec : h.flashUnlock.chip.mem = h.chip.mem ∧
    h.flashUnlock.chip.size = h.chip.size ∧ h.flashUnlock.chip.ear = h.chip.ear ∧
    h.flashUnlock.chip.status &&& 0x7C#8 = 0 := by
  simp only [Hisfc350.flashUnlock]
  split_ifs with hl
  · exact ⟨rfl,rfl,rfl,by rwa [readStatus_lock] at hl⟩
  · refine ⟨rfl,rfl,rfl,?_⟩
    simp only [NorChip.writeStatus,NorChip.writeEnable_wel,if_true]
    generalize h.chip.readStatus = v
    rw [BitVec.and_assoc,BitVec.and_assoc]
    simp

lemma Hisfc350.flashVerifyErased_keeps :
    (h.flashVerifyErased addr len).2.chip.mem = h.chip.mem ∧
    (h.flashVerifyErased addr len).2.chip.size = h.chip.size := by
  have hhead := (Hisfc350.flashRead_spec h addr (min len 16)).2
  have htail := (Hisfc350.flashRead_spec (h.flashRead addr (min len 16)).2 (addr+len-16) 16).2
  simp only [Hisfc350.flashVerifyErased]
  split_ifs
  · exact ⟨htail.1.trans hhead.1,htail.2.trans hhead.2⟩
  · exact hhead
  · exact hhead

lemma Hisfc350.prepared_spec :
    let u := (h.flashSelectBank (Hisfc350.bankOf addr)).flashUnlock
    u.chip.mem = h.chip.mem ∧ u.chip.size = h.chip.size ∧ u.chip.status &&& 0x7C#8 = 0 ∧
      u.chip.ear = physBank h.chip.size addr .hisfc350 := by
  intro u
  obtain ⟨hmem,hsize,_⟩ := Hisfc350.flashSelectBank_spec h (Hisfc350.bankOf addr)
  obtain ⟨umem,usize,uear,ulock⟩ :=
    Hisfc350.flashUnlock_spec (h.flashSelectBank (Hisfc350.bankOf addr))
  exact ⟨umem.trans hmem,usize.trans hsize,ulock,uear.trans (Hisfc350.flashSelectBank_ear h addr)⟩

lemma Hisfc350.flashEraseSector_spec :
    (h.flashEraseSector addr).2.chip.mem =
      fillBlock 65536 h.chip.mem (phys .hisfc350 h.chip.size addr) 0xFF#8 ∧
    (h.flashEraseSector addr).2.chip.size = h.chip.size := by
  obtain ⟨umem,usize,ulock,uear⟩ := Hisfc350.prepared_spec h addr
  obtain ⟨hmem,hsize⟩ := Hisfc350.flashVerifyErased_keeps
    ((h.flashSelectBank (Hisfc350.bankOf addr)).flashUnlock.command
      (·.sectorErase (addr%16777216)) fun _ => ⟨rfl,rfl⟩) addr 65536
  refine ⟨hmem.trans ?_,hsize.trans usize⟩
  have herase := sectorErase_mem (addr%16777216) ulock
  rwa [NorChip.cell,umem,usize,uear,Nat.mod_mod] at herase

lemma Hisfc350.program_pieces_spec (page : List Byte) (hpage : page.length ≤ 256)
    (haddr : addr%256 = 0) (a n : ℕ) (han : a+n = page.length) (hsize : h.chip.size%65536 = 0)
    (hlock : h.chip.status &&& 0x7C#8 = 0)
    (hear : h.chip.ear = physBank h.chip.size addr .hisfc350) :
    let r := (spans (fun _ => 64) a n).foldl (fun h s =>
      h.command (·.pageProgram ((addr+s.1)%16777216) ((page.drop s.1).take s.2))
        fun _ => ⟨rfl,rfl⟩) h
    r.chip.mem = blend (· &&& ·) h.chip.mem (phys .hisfc350 h.chip.size addr+a) (page.drop a) := by
  induction a, n using spans_induction (l := fun _ => 64) (fun _ => by decide)
    generalizing h with
  | done a =>
    have hnil : page.drop a = [] := drop_eq_nil_of_le (by omega)
    simp [hnil]
  | piece a n hn ih =>
    rw [spans_pos (fun _ => by decide) a n hn]
    simp only [foldl_cons]
    set c := min 64 n with hc
    set chunk := (page.drop a).take c with hchunk
    -- the command selects the cell of `addr+a` and does not wrap in its page
    have hcell : h.chip.cell ((addr+a)%16777216) = phys .hisfc350 h.chip.size addr+a := by
      have hiff : 16777216 ≤ addr+a ↔ 16777216 ≤ addr := by omega
      rw [← phys_add hsize (show addr%65536+a < 65536 by omega)]
      simp only [NorChip.cell,phys,hear,physBank,hiff,Nat.mod_mod]
    have halign := phys_mod (d := .hisfc350) (x := addr) (show 256 ∣ 65536 by decide) hsize
    have hlen : chunk.length = c := by simp [hchunk]; omega
    have hmem := pageProgram_mem ((addr+a)%16777216) chunk hlock
    rw [hcell,pageWrap_eq_blend _ _ _ (by omega)] at hmem
    have hrest := ih (h.command (·.pageProgram ((addr+a)%16777216) chunk) fun _ => ⟨rfl,rfl⟩)
      (by omega) hsize hlock hear
    refine hrest.trans ?_
    change blend _ (h.chip.writeEnable.pageProgram ((addr+a)%16777216) chunk).mem
      (phys .hisfc350 h.chip.size addr+(a+c)) (page.drop (a+c)) = _
    rw [hmem,← Nat.add_assoc,← hlen,blend_append,hlen,← drop_drop,take_append_drop]

lemma Hisfc350.flashWritePage_spec (haddr : addr%256 = 0) (hsize : h.chip.size%65536 = 0) :
    (h.flashWritePage addr data).chip.mem =
      blend (· &&& ·) h.chip.mem (phys .hisfc350 h.chip.size addr) (data.take 256) := by
  obtain ⟨umem,usize,ulock,uear⟩ := Hisfc350.prepared_spec h addr
  have hprog := Hisfc350.program_pieces_spec
    (h.flashSelectBank (Hisfc350.bankOf addr)).flashUnlock addr (data.take 256)
    (by simp) haddr 0 (data.take 256).length (Nat.zero_add _) (by rwa [usize]) ulock
    (by rw [uear,usize])
  rw [umem,usize,Nat.add_zero,drop_zero] at hprog
  simpa only [Hisfc350.flashWritePage,pieces] using hprog

lemma Hisfc350.flashWritePage_size :
    (h.flashWritePage addr data).chip.size = h.chip.size := by
  simp only [Hisfc350.flashWritePage]
  rw [← (Hisfc350.prepared_spec h addr).2.1]
  generalize (h.flashSelectBank (Hisfc350.bankOf addr)).flashUnlock = u
  induction pieces 64 (data.take 256).length generalizing u with
  | nil => rfl
  | cons s ps ih => exact ih _

end

/-! ### The interface -/

section
variable (f : NorFlash) (addr len : ℕ)

/-- The flat array as the driver shows it. -/
def view (f : NorFlash) (x : ℕ) : Byte := f.chip.mem (phys f.driver f.chip.size x)

lemma flashRead_spec : (f.flashRead addr len).1 = slice (view f) addr len ∧
    (f.flashRead addr len).2.chip.mem = f.chip.mem ∧
    (f.flashRead addr len).2.chip.size = f.chip.size ∧
    (f.flashRead addr len).2.driver = f.driver := by
  cases f with
  | fmc100 f => exact ⟨Fmc100.flashRead_eq f addr len,rfl,rfl,rfl⟩
  | hisfc350 h =>
    obtain ⟨hread,hmem,hsize⟩ := Hisfc350.flashRead_spec h addr len
    exact ⟨hread,hmem,hsize,rfl⟩

lemma flashCrc32_spec : (f.flashCrc32 addr len).1 = crc32 0 (slice (view f) addr len) ∧
    (f.flashCrc32 addr len).2.chip.mem = f.chip.mem ∧
    (f.flashCrc32 addr len).2.chip.size = f.chip.size ∧
    (f.flashCrc32 addr len).2.driver = f.driver := by
  cases f with
  | fmc100 f => exact ⟨Fmc100.flashCrc32_eq f addr len,rfl,rfl,rfl⟩
  | hisfc350 h =>
    obtain ⟨hcrc,hmem,hsize⟩ := Hisfc350.flashCrc32_spec h addr len
    exact ⟨hcrc,hmem,hsize,rfl⟩

lemma flashEraseSector_spec :
    (f.flashEraseSector addr).2.chip.mem =
      fillBlock 65536 f.chip.mem (phys f.driver f.chip.size addr) 0xFF#8 ∧
    (f.flashEraseSector addr).2.chip.size = f.chip.size ∧
    (f.flashEraseSector addr).2.driver = f.driver := by
  cases f with
  | fmc100 f =>
    obtain ⟨hmem,hsize⟩ := Fmc100.flashEraseSector_spec f addr
    exact ⟨hmem,hsize,rfl⟩
  | hisfc350 h =>
    obtain ⟨hmem,hsize⟩ := Hisfc350.flashEraseSector_spec h addr
    exact ⟨hmem,hsize,rfl⟩

lemma erased_reads_ff {size a : ℕ} (mem : ℕ → Byte) (hsize : size%65536 = 0)
    (ha : a%65536 = 0) {o n : ℕ} (hn : o+n ≤ 65536) :
    (slice (fun x => fillBlock 65536 mem (phys d size a) 0xFF#8 (phys d size x)) (a+o) n).all
      (· == 0xFF#8) = true := by
  rw [all_eq_true]
  intro v hv
  obtain ⟨i,hi,rfl⟩ := mem_map.mp hv
  have hi := mem_range.mp hi
  have halign : phys d size a%65536 = a%65536 := phys_mod (dvd_refl _) hsize
  dsimp only
  rw [Nat.add_assoc,phys_add hsize (by omega),fillBlock_same _ _ (by omega)]
  rfl

lemma flashEraseSector_ok_of_view
    (h : ∀ g : NorFlash, g.driver = f.driver → g.chip.size = f.chip.size →
      g.chip.mem = fillBlock 65536 f.chip.mem (phys f.driver f.chip.size addr) 0xFF#8 →
      (slice (view g) addr 16).all (· == 0xFF#8) = true ∧
      (slice (view g) (addr+65520) 16).all (· == 0xFF#8) = true) :
    (f.flashEraseSector addr).1 = true := by
  cases f with
  | fmc100 f =>
    obtain ⟨hmem,hs⟩ := Fmc100.flashEraseSector_spec f addr
    obtain ⟨hhead,htail⟩ := h (.fmc100 (f.flashEraseSector addr).2) rfl hs hmem
    change Fmc100.flashVerifyErased (f.flashEraseSector addr).2 addr 65536 = true
    simp only [Fmc100.flashVerifyErased,Bool.and_eq_true,Bool.or_eq_true]
    rw [Fmc100.flashRead_eq,Fmc100.flashRead_eq]
    exact ⟨hhead,.inr htail⟩
  | hisfc350 k =>
    obtain ⟨umem,usize,ulock,uear⟩ := Hisfc350.prepared_spec k addr
    have herase := sectorErase_mem (addr%16777216) ulock
    rw [NorChip.cell,umem,usize,uear,Nat.mod_mod] at herase
    change (Hisfc350.flashVerifyErased
      ((k.flashSelectBank (Hisfc350.bankOf addr)).flashUnlock.command
        (·.sectorErase (addr%16777216)) fun _ => ⟨rfl,rfl⟩) addr 65536).1 = true
    generalize he : (k.flashSelectBank (Hisfc350.bankOf addr)).flashUnlock.command
      (·.sectorErase (addr%16777216)) (fun _ => ⟨rfl,rfl⟩) = e
    have hmem : e.chip.mem =
        fillBlock 65536 k.chip.mem (phys .hisfc350 k.chip.size addr) 0xFF#8 := by
      rw [← he]
      exact herase
    have hs : e.chip.size = k.chip.size := by
      rw [← he]
      exact usize
    -- the second sample is read after the first one may have switched the bank
    obtain ⟨hread,rmem,rsize⟩ := Hisfc350.flashRead_spec e addr 16
    have hhead := (h (.hisfc350 e) rfl hs hmem).1
    have htail := (h (.hisfc350 (e.flashRead addr 16).2) rfl (rsize.trans hs)
      (rmem.trans hmem)).2
    have hhead : (e.flashRead addr 16).1.all (· == 0xFF#8) = true := by
      rw [hread]
      exact hhead
    simp only [Hisfc350.flashVerifyErased,show min 65536 16 = 16 by decide,
      show addr+65536-16 = addr+65520 by omega,if_pos hhead]
    rw [if_pos (by decide),(Hisfc350.flashRead_spec _ (addr+65520) 16).1]
    exact htail

lemma flashEraseSector_ok (hsize : f.chip.size%65536 = 0) (ha : addr%65536 = 0) :
    (f.flashEraseSector addr).1 = true := by
  apply flashEraseSector_ok_of_view
  intro g hdrv hs hmem
  have hread (o n : ℕ) (hn : o+n ≤ 65536) :
      (slice (view g) (addr+o) n).all (· == 0xFF#8) = true := by
    have h := erased_reads_ff (d := f.driver) f.chip.mem hsize ha hn
    rwa [← hmem,← hdrv,← hs] at h
  exact ⟨hread 0 16 (by decide),hread 65520 16 (by decide)⟩

lemma flashEraseSector_ok_blank (hblank : f.chip.mem = fun _ => 0xFF#8) :
    (f.flashEraseSector addr).1 = true := by
  apply flashEraseSector_ok_of_view
  intro g _ _ hmem
  have hall : ∀ x, view g x = 0xFF#8 := by
    intro x
    rw [view,hmem,hblank,fillBlock]
    split_ifs <;> rfl
  have hread (a n : ℕ) : (slice (view g) a n).all (· == 0xFF#8) = true := by
    rw [all_eq_true]
    intro v hv
    obtain ⟨i,_,rfl⟩ := mem_map.mp hv
    rw [hall]
    rfl
  exact ⟨hread _ _,hread _ _⟩

lemma flashWritePage_shape (data : List Byte) :
    (f.flashWritePage addr data).chip.size = f.chip.size ∧
    (f.flashWritePage addr data).driver = f.driver := by
  cases f with
  | fmc100 f => exact ⟨(Fmc100.flashWritePage_spec f addr data).2,rfl⟩
  | hisfc350 h => exact ⟨Hisfc350.flashWritePage_size h addr data,rfl⟩

lemma flashWritePage_spec (data : List Byte) (haddr : addr%256 = 0)
    (hsize : f.chip.size%65536 = 0) :
    (f.flashWritePage addr data).chip.mem =
      blend (· &&& ·) f.chip.mem (phys f.driver f.chip.size addr) (data.take 256) := by
  cases f with
  | fmc100 f =>
    refine (Fmc100.flashWritePage_spec f addr data).1.trans (pageWrap_eq_blend _ _ _ ?_)
    have halign : phys .fmc100 f.chip.size addr%256 = addr%256 := phys_mod (by decide) hsize
    have hlen := length_take_le 256 data
    omega
  | hisfc350 h =>
    exact Hisfc350.flashWritePage_spec h addr data haddr hsize

end

/-- The four operations at `a` and `len` are those of the flat array. Page programs
keep to the length of a page, as `spi_flash.h` demands of the caller. -/
structure OpsExact (f : NorFlash) (a len : ℕ) : Prop where
  read : (f.flashRead a len).1 = slice f.chip.mem a len ∧
    (f.flashRead a len).2.chip.mem = f.chip.mem
  crc : (f.flashCrc32 a len).1 = crc32 0 (slice f.chip.mem a len) ∧
    (f.flashCrc32 a len).2.chip.mem = f.chip.mem
  erase : (f.flashEraseSector a).2.chip.mem = fillBlock 65536 f.chip.mem a 0xFF#8
  write : ∀ data : List Byte, data.length = len → len ≤ 256 → a%256 = 0 →
    (f.flashWritePage a data).chip.mem = blend (· &&& ·) f.chip.mem a data

/-- Exactness for every content and every driver state of a chip with this id. -/
def DriverExact (d : NorDriver) (id2 : Byte) (a len : ℕ) : Prop :=
  ∀ f : NorFlash, f.driver = d → f.chip.size = detectSize id2 → OpsExact f a len

/-- Erasing one in-range sector never touches another one. -/
def SectorsApart (d : NorDriver) (id2 : Byte) : Prop :=
  ∀ f : NorFlash, f.driver = d → f.chip.size = detectSize id2 →
    ∀ a b, a < detectSize id2 → b < detectSize id2 → a/65536 ≠ b/65536 →
      ∀ x, x/65536 = b/65536 → (f.flashEraseSector a).2.chip.mem x = f.chip.mem x

/-- An unprotected chip with the given contents, low bank selected. -/
def idleFlash (d : NorDriver) (size : ℕ) (mem : ℕ → Byte) : NorFlash :=
  let chip : NorChip := ⟨size,mem,0,false,0⟩
  match d with
  | .fmc100 => .fmc100 ⟨chip,[0,0,0],rfl⟩
  | .hisfc350 => .hisfc350 {
      chip := chip
      unlockDebug := [0,0,0]
      needsBankSwitch := decide (16777216 < size)
      currentBank := 0
      needs_iff := by simp [chip]
      ear_eq := by simp [chip] }

@[simp] lemma idleFlash_driver (d : NorDriver) (size : ℕ) (mem : ℕ → Byte) :
    (idleFlash d size mem).driver = d := by
  cases d <;> rfl

@[simp] lemma idleFlash_chip (d : NorDriver) (size : ℕ) (mem : ℕ → Byte) :
    (idleFlash d size mem).chip = ⟨size,mem,0,false,0⟩ := by
  cases d <;> rfl

lemma view_eq {f : NorFlash} {x : ℕ} (hs : x < f.chip.size) (hx : x < reach f.driver) :
    view f x = f.chip.mem x := by
  rw [view,phys_eq hs hx]

lemma slice_view {f : NorFlash} {a len : ℕ} (hs : a+len ≤ f.chip.size)
    (hr : a+len ≤ reach f.driver) : slice (view f) a len = slice f.chip.mem a len := by
  apply slice_congr
  intro i hi
  exact view_eq (by omega) (by omega)

lemma opsExact_of_reach {f : NorFlash} {a len : ℕ} (hal : f.chip.size%65536 = 0)
    (ha : a < f.chip.size) (hs : a+len ≤ f.chip.size) (hr : a+max len 1 ≤ reach f.driver) :
    OpsExact f a len := by
  have hphys : phys f.driver f.chip.size a = a := phys_eq ha (by omega)
  have hview := slice_view hs (show a+len ≤ reach f.driver by omega)
  obtain ⟨hread,hrmem,_⟩ := flashRead_spec f a len
  obtain ⟨hcrc,hcmem,_⟩ := flashCrc32_spec f a len
  refine ⟨⟨hread.trans hview,hrmem⟩,⟨hcrc.trans (congrArg _ hview),hcmem⟩,?_,?_⟩
  · rw [(flashEraseSector_spec f a).1,hphys]
  · intro data hdata hlen hpage
    rw [flashWritePage_spec f a data hpage hal,hphys,take_of_length_le (by omega)]

lemma phys_lt_reach (d : NorDriver) (size x : ℕ) : phys d size x < reach d := by
  refine Nat.lt_of_le_of_lt (Nat.mod_le _ _) ?_
  cases d with
  | fmc100 =>
    simp only [reach,physBank]
    omega
  | hisfc350 =>
    simp only [reach,physBank]
    split_ifs <;> omega

lemma reach_mod (d : NorDriver) : reach d%65536 = 0 := by cases d <;> rfl

lemma erase_phys (d : NorDriver) (size a : ℕ) (mem : ℕ → Byte) :
    ((idleFlash d size mem).flashEraseSector a).2.chip.mem (phys d size a) = 0xFF#8 := by
  rw [(flashEraseSector_spec _ a).1]
  simp only [idleFlash_driver,idleFlash_chip]
  exact fillBlock_same _ _ rfl

lemma reach_of_driverExact {id2 : Byte} {a len : ℕ}
    (hs : a+len ≤ detectSize id2) (hexact : DriverExact d id2 a len) :
    a+max len 1 ≤ reach d := by
  have halign := reach_mod d
  by_contra hbeyond
  rcases Nat.lt_or_ge a (reach d) with hlow | hhigh
  · -- the range crosses the reach: its first byte there is read from below
    have hx : reach d < detectSize id2 := by omega
    have hback := phys_lt_reach d (detectSize id2) (reach d)
    have hread := (hexact (idleFlash d (detectSize id2) fun y => if y < reach d then 0 else 1)
      (by simp) (by simp)).read.1
    rw [(flashRead_spec _ a len).1,slice_eq_iff] at hread
    have hbyte := hread (reach d-a) (by omega)
    rw [show a+(reach d-a) = reach d by omega] at hbyte
    simp [view,hback] at hbyte
  · have hback := phys_lt_reach d (detectSize id2) a
    have herase := (hexact (idleFlash d (detectSize id2) fun _ => 0) (by simp) (by simp)).erase
    have hcell := congrFun herase (phys d (detectSize id2) a)
    rw [erase_phys,fillBlock_other _ _ (by omega)] at hcell
    simp at hcell

lemma reach_of_sectorsApart {id2 : Byte} (hapart : SectorsApart d id2) :
    detectSize id2 ≤ reach d := by
  by_contra hbig
  have hback := phys_lt_reach d (detectSize id2) (reach d)
  have halign := reach_mod d
  -- the first sector beyond the reach is erased in the place of a lower one
  have hcell := hapart (idleFlash d (detectSize id2) fun _ => 0) (by simp) (by simp) (reach d)
    (phys d (detectSize id2) (reach d)) (by omega) (by omega) (by omega) _ rfl
  rw [erase_phys] at hcell
  simp at hcell

/-- For every size that can be reported, a driver implements the flat array at `a` and
`len` exactly when the touched range ends within its reach, and it keeps all sectors
apart exactly when the whole chip lies within it. -/
theorem nor_ops_exact_iff (d : NorDriver) (id2 : Byte) :
    (∀ a len, a < detectSize id2 → a+len ≤ detectSize id2 →
      (DriverExact d id2 a len ↔ a+max len 1 ≤ reach d)) ∧
    (SectorsApart d id2 ↔ detectSize id2 ≤ reach d) := by
  have hsize := (detectSize_bounds id2).2.2
  refine ⟨fun a len ha hs => ⟨reach_of_driverExact hs,?_⟩,reach_of_sectorsApart,?_⟩
  · rintro hr f rfl hf
    rw [← hf] at hsize ha hs
    exact opsExact_of_reach hsize ha hs hr
  · rintro hr f rfl hf a b ha hb hab x hx
    rw [← hf] at ha
    rw [(flashEraseSector_spec f a).1,phys_eq ha (by omega)]
    exact fillBlock_other _ _ (by omega)

/-- The second bank of a 32 MiB chip behind the HISFC350. -/
theorem hisfc350_upper_bank_exact : DriverExact .hisfc350 0x19#8 0x1000000 256 :=
  ((nor_ops_exact_iff .hisfc350 0x19#8).1 0x1000000 256 (by decide) (by decide)).mpr (by decide)

/-- A 32 MiB chip behind the FMC100: the upper half is served by the lower one. -/
theorem fmc100_upper_half_aliases :
    0x1000000+16 ≤ detectSize 0x19#8 ∧ ¬DriverExact .fmc100 0x19#8 0x1000000 16 ∧
      ¬SectorsApart .fmc100 0x19#8 := by
  refine ⟨by decide,fun hexact => ?_,fun hapart => ?_⟩
  · exact absurd (reach_of_driverExact (by decide) hexact) (by decide)
  · exact absurd (reach_of_sectorsApart hapart) (by decide)

end Defib.NorReach
