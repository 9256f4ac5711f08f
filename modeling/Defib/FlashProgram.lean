import Defib.FlashRangeSafety
import Defib.PagePrograms

/-!
# Programming a range from RAM

`handle_flash_program` takes any range inside the flash. It erases the sectors around the
range and then cuts the source into pages counted from the start of the range, so that a
range which starts inside a page gives the drivers pieces that cross page ends. The flash
holds the source afterwards exactly when no command of the driver crosses one, and when
the range lies within the driver's reach. A NAND page that fails to program goes unnoticed, so
that none may.
-/
namespace Defib.FlashProgram
open List Words BlockMemory Spans Crc32 NorDrivers Boards FlashDevice AgentMachine AgentFlash
open FlashRangeSafety PagePrograms

/-- Cells of the board's medium that byte addresses select. -/
def flashReach (b : Board) : ℕ := b.medium.elim 0 (reach b.config.spiDriver)

/-- The bytes the board's driver programs with one command. -/
def flashCommandSize (b : Board) : ℕ := b.medium.elim 0 (commandSize b.config.spiDriver)

/-- The range starts at a page, stays in one, or starts at a command and stays in one bank. -/
def Aligned (b : Board) (flashAddr size : ℕ) : Prop :=
  flashAddr%b.flashInfo.pageSize = 0 ∨
  flashAddr%b.flashInfo.pageSize+size ≤ b.flashInfo.pageSize ∨
  flashAddr%flashCommandSize b = 0 ∧ ¬(flashAddr < 16777216 ∧ 16777216 < flashAddr+size)

def EndsOk (es : List Event) : Prop := es.getLast? = some (.reply (ack ackOk))

/-- Whenever the request ends with `ACK_OK`, the flash holds the source, unless a page of the
range fails to program. -/
def ProgramCorrect (b : Board) (ramAddr flashAddr size : ℕ) : Prop :=
  ∀ (s : Machine b) (data : List Byte),s.dev.faults.Programs flashAddr size →
    readLe32 data 0 = ramAddr → readLe32 data 4 = flashAddr →
    readLe32 data 8 = size → EndsOk (handleFlashProgram s data).1 →
    slice (handleFlashProgram s data).2.dev.array flashAddr size = loadBytes s.mem ramAddr size

section
variable {b : Board} {m : Medium}

lemma flashReach_some (hm : b.medium = some m) : flashReach b = reach b.config.spiDriver m := by
  rw [flashReach,hm]
  rfl

lemma flashCommandSize_some (hm : b.medium = some m) :
    flashCommandSize b = commandSize b.config.spiDriver m := by
  rw [flashCommandSize,hm]
  rfl

/-! ### The erase loop -/

lemma erase_beyond (hm : b.medium = some m) (hspi : b.flashInfo.flashType ≠ .emmc)
    {s : Machine b} {x a : ℕ} (hgood : s.dev.faults.erase (a/131072%1024) = none)
    (hx : flashReach b ≤ x) :
    (s.flashEraseSector a).2.dev.array x = s.dev.array x := by
  rw [Board.flashInfo_some hm] at hspi
  rw [flashReach_some hm] at hx
  have harray := Dev.flashEraseSector_array (s.fits m hm) hspi hgood
  obtain ⟨hlt,-,hmod⟩ := place_spi (d := b.config.spiDriver) hspi a
  refine (congrFun harray x).trans (fillBlock_other _ _ ?_)
  obtain ⟨q,hq⟩ := Nat.dvd_of_mod_eq_zero hmod
  have hpos := m.info_geometry.1
  have hlow : place b.config.spiDriver a m/m.info.sectorSize < q := by
    rw [Nat.div_lt_iff_lt_mul hpos,Nat.mul_comm]
    omega
  have hhigh : q ≤ x/m.info.sectorSize := by
    rw [Nat.le_div_iff_mul_le hpos,Nat.mul_comm]
    omega
  omega

lemma erase_within (hm : b.medium = some m) (hspi : b.flashInfo.flashType ≠ .emmc)
    {s : Machine b} {a : ℕ} (hgood : s.dev.faults.erase (a/131072%1024) = none)
    (hs : a < b.flashInfo.size) (hr : a < flashReach b) :
    (s.flashEraseSector a).2.dev.array =
      fillBlock b.flashInfo.sectorSize s.dev.array a 0xFF#8 := by
  rw [Board.flashInfo_some hm] at hspi hs ⊢
  rw [flashReach_some hm] at hr
  have harray := Dev.flashEraseSector_array (s.fits m hm) hspi hgood
  rw [place_eq hs hr] at harray
  exact harray

lemma eraseLoop_frame (progress : ℕ → Machine b → Frame) (as : List ℕ) (i : ℕ)
    (s : Machine b) : (eraseLoop progress i as s).2.2.mem = s.mem ∧
      (eraseLoop progress i as s).2.2.dev.faults = s.dev.faults := by
  induction as generalizing i s with
  | nil => exact ⟨rfl,rfl⟩
  | cons a as ih =>
    have hsame := Dev.flashEraseSector_faults s.dev a
    obtain ⟨hmem,hfaults⟩ := ih (i+1) (s.flashEraseSector a).2
    simp only [eraseLoop]
    split_ifs
    · exact ⟨hmem,hfaults.trans hsame⟩
    · exact ⟨rfl,hsame⟩

variable (hm : b.medium = some m) (hspi : b.flashInfo.flashType ≠ .emmc)
  (progress : ℕ → Machine b → Frame)
include hm hspi

lemma eraseLoop_passes (as : List ℕ) (has : ∀ a ∈ as,a%b.flashInfo.sectorSize = 0) (i : ℕ)
    {s : Machine b} (hs : s.dev.faults = .none) : (eraseLoop progress i as s).1 = true ∧
      ∀ x,flashReach b ≤ x → (eraseLoop progress i as s).2.2.dev.array x = s.dev.array x := by
  induction as generalizing i s with
  | nil => exact ⟨rfl,fun _ _ => rfl⟩
  | cons a as ih =>
    have hgood : s.dev.faults.erase (a/131072%1024) = none := by rw [hs]; rfl
    have hok : (s.flashEraseSector a).1 = true := by
      have hal := has a mem_cons_self
      rw [Board.flashInfo_some hm] at hspi hal
      exact Dev.flashEraseSector_ok (s.fits m hm) hspi hal hgood
    obtain ⟨hall,harray⟩ := ih (fun a' ha' => has a' (mem_cons_of_mem a ha')) (i+1)
      (s := (s.flashEraseSector a).2) ((Dev.flashEraseSector_faults s.dev a).trans hs)
    simp only [eraseLoop,hok,if_true]
    exact ⟨hall,fun x hx => (harray x hx).trans (erase_beyond hm hspi hgood hx)⟩

lemma eraseLoop_blanks (as : List ℕ) (has : ∀ a ∈ as,a < b.flashInfo.size ∧ a < flashReach b)
    (i : ℕ) {s : Machine b} (hpass : (eraseLoop progress i as s).1 = true) {x : ℕ}
    (hx : s.dev.array x = 0xFF#8 ∨ ∃ a ∈ as,a/b.flashInfo.sectorSize = x/b.flashInfo.sectorSize) :
    (eraseLoop progress i as s).2.2.dev.array x = 0xFF#8 := by
  induction as generalizing i s with
  | nil => simpa [eraseLoop] using hx
  | cons a as ih =>
    obtain ⟨hs,hr⟩ := has a mem_cons_self
    by_cases hok : (s.flashEraseSector a).1 = true
    · have hfill := erase_within hm hspi (Dev.flashEraseSector_good hok) hs hr
      simp only [eraseLoop,hok,if_true] at hpass ⊢
      refine ih (fun a' ha' => has a' (mem_cons_of_mem a ha')) (i+1) hpass ?_
      rw [hfill]
      by_cases hsame : x/b.flashInfo.sectorSize = a/b.flashInfo.sectorSize
      · exact .inl (fillBlock_same _ _ hsame)
      · rcases hx with hx | ⟨a',ha',hdiv⟩
        · exact .inl ((fillBlock_other _ _ hsame).trans hx)
        · rcases mem_cons.mp ha' with rfl | ha'
          · exact absurd hdiv.symm hsame
          · exact .inr ⟨a',ha',hdiv⟩
    · simp [eraseLoop,hok] at hpass

/-! ### The page loop -/

omit hm hspi in
lemma programLoop_keeps {src base total size page x : ℕ} (ps : List (ℕ × ℕ)) (s : Machine b)
    (h : ∀ p ∈ ps,∀ t : Machine b,t.dev.faults = s.dev.faults →
      (t.flashWritePage (u32 (base+p.1)) (loadBytes s.mem (src+p.1) p.2)).2.dev.array x =
        t.dev.array x) :
    (programLoop src base total size page ps s).2.dev.array x = s.dev.array x := by
  induction ps generalizing s with
  | nil => rfl
  | cons p ps ih =>
    have hsame := Dev.flashWritePage_faults s.dev (u32 (base+p.1)) (loadBytes s.mem (src+p.1) p.2)
    refine (ih (s.flashWritePage _ _).2 fun q hq t ht => ?_).trans (h p mem_cons_self s rfl)
    exact h q (mem_cons_of_mem p hq) t (ht.trans hsame)

lemma piece_fits {flashAddr size : ℕ} (hal : Aligned b flashAddr size) {p : ℕ × ℕ}
    (hp : p ∈ pieces b.flashInfo.pageSize size) :
    Fitting b.config.spiDriver (flashAddr+p.1) p.2 m := by
  obtain ⟨hstart,hpos,hle,hend,-⟩ := mem_pieces b.pageSize_pos hp
  unfold Aligned at hal
  unfold Fitting
  rw [flashCommandSize_some hm] at hal
  rw [Board.flashInfo_some hm] at hstart hle hal hspi
  have hunit : p.1%commandSize b.config.spiDriver m = 0 := Nat.mod_eq_zero_of_dvd
    ((commandSize_dvd _ hspi).trans (Nat.dvd_of_mod_eq_zero hstart))
  have hpage := m.info_geometry.2.1
  rcases hal with hal | hal | ⟨hal,hbank⟩
  · left
    rw [Nat.add_mod,hal,hstart,Nat.zero_add,Nat.zero_mod]
    omega
  · left
    -- the only piece
    have hfirst : p.1 = 0 := Nat.eq_zero_of_dvd_of_lt (Nat.dvd_of_mod_eq_zero hstart) (by omega)
    rw [hfirst,Nat.add_zero]
    omega
  · right
    rw [Nat.add_mod,hal,hunit]
    exact ⟨Nat.zero_mod _,by omega⟩

lemma programLoop_exact (src total : ℕ) {flashAddr size : ℕ} (hal : Aligned b flashAddr size)
    (hs : flashAddr+size ≤ b.flashInfo.size) (hr : flashAddr+size ≤ flashReach b) (o n : ℕ)
    (hon : o+n = size) (hsub : spans (fun _ => b.flashInfo.pageSize) o n ⊆
      pieces b.flashInfo.pageSize size) (s : Machine b)
    (hgood : s.dev.faults.Programs flashAddr size) :
    (programLoop src flashAddr total size b.flashInfo.pageSize
      (spans (fun _ => b.flashInfo.pageSize) o n) s).2.dev.array =
      blend (· &&& ·) s.dev.array (flashAddr+o) ((loadBytes s.mem src size).drop o) := by
  have hsize := b.flashInfo_size_lt
  induction o, n using spans_induction (l := fun _ => b.flashInfo.pageSize)
    (fun _ => b.pageSize_pos) generalizing s with
  | done o =>
    rw [drop_eq_nil_of_le (by simp [loadBytes]; omega),blend_nil]
    rfl
  | piece o n hn ih =>
    rw [spans_pos (fun _ => b.pageSize_pos) o n hn] at hsub ⊢
    have hfits := piece_fits hm hspi hal (hsub mem_cons_self)
    generalize hc : min b.flashInfo.pageSize n = c at *
    have hcpos := b.pageSize_pos
    have hlen : (loadBytes s.mem (src+o) c).length = c := slice_length _ _ _
    have hwrite : (s.flashWritePage (u32 (flashAddr+o)) (loadBytes s.mem (src+o) c)).2.dev.array =
        blend (· &&& ·) s.dev.array (flashAddr+o) (loadBytes s.mem (src+o) c) := by
      rw [u32_of_lt (by omega)]
      rw [Board.flashInfo_some hm] at hspi hs hc hcpos
      rw [flashReach_some hm] at hr
      exact Dev.flashWritePage_exact (s.fits m hm) hspi (hgood _ (by omega) (by omega)) (by omega)
        (by omega) (by omega) (by omega) (by rw [hlen]; exact hfits)
    have hsame : (s.flashWritePage (u32 (flashAddr+o)) (loadBytes s.mem (src+o) c)).2.dev.faults =
        s.dev.faults := Dev.flashWritePage_faults ..
    have hrest := ih (by omega) (fun p hp => hsub (mem_cons_of_mem _ hp))
      (s.flashWritePage (u32 (flashAddr+o)) (loadBytes s.mem (src+o) c)).2 (hsame ▸ hgood)
    refine hrest.trans ?_
    rw [hwrite]
    have hsplit : loadBytes s.mem (src+o) c++(loadBytes s.mem src size).drop (o+c) =
        (loadBytes s.mem src size).drop o := by
      rw [loadBytes,slice_part _ src size o c (by omega),← drop_drop]
      exact take_append_drop c _
    have hjoin := blend_append (· &&& ·) s.dev.array (flashAddr+o) (loadBytes s.mem (src+o) c)
      ((loadBytes s.mem src size).drop (o+c))
    rw [hlen,hsplit,Nat.add_assoc] at hjoin
    exact hjoin

end

/-! ### A whole request -/

section
variable {b : Board} {m : Medium} {ramAddr flashAddr size : ℕ}

/-- Memory that is 0xFF except for one byte. -/
def marked (y : ℕ) : ℕ → Byte := fun x => if x = y then 0 else 0xFF

def eraseProgress (b : Board) (flashAddr size : ℕ) (i : ℕ) (_ : Machine b) : Frame :=
  ⟨rspData,writeLe16 i++writeLe16 (eraseCount b flashAddr size)⟩

def afterErase (progress : ℕ → Machine b → Frame) (as : List ℕ) (s : Machine b) : Machine b :=
  (eraseLoop progress 0 as s).2.2

def erased (s : Machine b) (flashAddr size : ℕ) : Machine b :=
  afterErase (eraseProgress b flashAddr size) (programSectors b flashAddr size) s

/-- The machine after an accepted request with the right checksum. -/
def programmed (s : Machine b) (ramAddr flashAddr size : ℕ) : Machine b :=
  (programLoop ramAddr flashAddr (eraseCount b flashAddr size) size b.flashInfo.pageSize
    (pieces b.flashInfo.pageSize size) (erased s flashAddr size)).2

lemma handleFlashProgram_run {s : Machine b} {data : List Byte} (h0 : readLe32 data 0 = ramAddr)
    (h4 : readLe32 data 4 = flashAddr) (h8 : readLe32 data 8 = size) (hlen : 16 ≤ data.length)
    (hacc : programAccepted b ramAddr flashAddr size = true)
    (hcrc : (crc32 0 (loadBytes s.mem ramAddr size)).toNat = readLe32 data 12)
    (hpass : (eraseLoop (eraseProgress b flashAddr size) 0 (programSectors b flashAddr size)
      s).1 = true) :
    (∃ es,(handleFlashProgram s data).1 = es++[.reply (ack ackOk)]) ∧
      (handleFlashProgram s data).2 = programmed s ramAddr flashAddr size := by
  simp only [handleFlashProgram,h0,h4,h8,if_neg (show ¬data.length < 16 by omega),hacc,hcrc,
    Bool.not_true,Bool.false_eq_true,if_false,ne_eq,not_true_eq_false]
  rw [programmed,erased]
  unfold programSectors eraseProgress at *
  generalize eraseCount b flashAddr size = num at *
  rw [if_pos hpass]
  refine ⟨⟨_::_,(cons_append).symm⟩,?_⟩
  rw [afterErase]

lemma eraseLoop_failed {progress : ℕ → Machine b → Frame} {as : List ℕ} {i : ℕ} {s : Machine b}
    (h : (eraseLoop progress i as s).1 ≠ true) :
    (eraseLoop progress i as s).2.1.getLast? = some (.reply (ack ackFlashError)) := by
  induction as generalizing i s with
  | nil => exact absurd rfl h
  | cons a as ih =>
    simp only [eraseLoop] at h ⊢
    split_ifs at h ⊢ with hok
    · simp [getLast?_cons,ih h]
    · rfl

lemma endsOk_run {s : Machine b} {data : List Byte} (h : EndsOk (handleFlashProgram s data).1) :
    16 ≤ data.length ∧ (crc32 0 (loadBytes s.mem (readLe32 data 0) (readLe32 data 8))).toNat =
      readLe32 data 12 ∧
    (eraseLoop (eraseProgress b (readLe32 data 4) (readLe32 data 8)) 0
      (programSectors b (readLe32 data 4) (readLe32 data 8)) s).1 = true := by
  simp only [handleFlashProgram,EndsOk] at h
  split_ifs at h with hlen hacc hcrc herase
  · simp [AgentMachine.ack,ackOk,ackCrcError] at h
  · simp [AgentMachine.ack,ackOk,ackFlashError] at h
  · simp [AgentMachine.ack,ackOk,ackCrcError] at h
  · exact ⟨by omega,by simpa using hcrc,herase⟩
  · rw [getLast?_cons,eraseLoop_failed herase] at h
    simp [AgentMachine.ack,ackOk,ackFlashError] at h

lemma programAccepted_lt (hacc : programAccepted b ramAddr flashAddr size = true)
    (hin : flashAddr+size ≤ b.flashInfo.size) : 0 < size ∧ ramAddr+size < 4294967296 := by
  have hfs := b.flashInfo_size_lt
  simp only [programAccepted,Bool.and_eq_true] at hacc
  have hread := hacc.2
  have hlt : ramAddr < 4294967296 := by
    simp only [addrReadable,Bool.and_eq_true,decide_eq_true_eq] at hread
    exact hread.1.2.trans (u32_lt _)
  exact addrReadable_no_wrap hlt (by omega) hread

lemma programSectors_cover (hin : flashAddr+size ≤ b.flashInfo.size)
    (hspi : b.flashInfo.flashType ≠ .emmc) :
    (∀ a ∈ programSectors b flashAddr size,a%b.flashInfo.sectorSize = 0 ∧ a < flashAddr+size) ∧
    ∀ x,flashAddr ≤ x → x < flashAddr+size →
      ∃ a ∈ programSectors b flashAddr size,
        a/b.flashInfo.sectorSize = x/b.flashInfo.sectorSize := by
  have hsmall := Board.flashInfo_spi_size hspi
  have hcount : eraseStart b flashAddr+eraseCount b flashAddr size*b.flashInfo.sectorSize =
      (flashAddr+size+b.flashInfo.sectorSize-1)/b.flashInfo.sectorSize*b.flashInfo.sectorSize :=
    eraseCount_eq b (by omega) (by omega)
  have hpos := b.sectorSize_pos
  unfold eraseStart at hcount
  unfold programSectors sectorAddrs eraseStart
  generalize eraseCount b flashAddr size = count at *
  constructor
  · intro a ha
    obtain ⟨i,hi,rfl⟩ := mem_map.mp ha
    have hle := Nat.mul_le_mul_right b.flashInfo.sectorSize (mem_range.mp hi)
    have hround := Nat.div_mul_le_self (flashAddr+size+b.flashInfo.sectorSize-1)
      b.flashInfo.sectorSize
    rw [Nat.succ_mul] at hle
    rw [u32_of_lt (by omega),← Nat.add_mul]
    exact ⟨Nat.mul_mod_left _ _,by rw [Nat.add_mul]; omega⟩
  · intro x hlow hhigh
    have hdiv := Nat.div_le_div_right (c := b.flashInfo.sectorSize) hlow
    have hx := Nat.div_mul_le_self x b.flashInfo.sectorSize
    refine ⟨_,mem_map.mpr ⟨x/b.flashInfo.sectorSize-flashAddr/b.flashInfo.sectorSize,
      mem_range.mpr ?_,rfl⟩,?_⟩
    · have hlt : x/b.flashInfo.sectorSize <
          (flashAddr+size+b.flashInfo.sectorSize-1)/b.flashInfo.sectorSize := by
        rw [Nat.lt_iff_add_one_le,Nat.le_div_iff_mul_le hpos,Nat.add_mul]
        omega
      rw [← Nat.add_mul] at hcount
      have := Nat.eq_of_mul_eq_mul_right hpos hcount
      omega
    · rw [← Nat.add_mul,Nat.add_sub_cancel' hdiv,u32_of_lt (by omega),
        Nat.mul_div_cancel _ hpos]

variable (hm : b.medium = some m) (hspi : b.flashInfo.flashType ≠ .emmc)
  (hin : flashAddr+size ≤ b.flashInfo.size)
include hm hspi hin

/-- The erase loop of the request succeeds. -/
def ErasePasses (s : Machine b) (flashAddr size : ℕ) : Prop :=
  (eraseLoop (eraseProgress b flashAddr size) 0 (programSectors b flashAddr size) s).1 = true

omit hm hspi hin in
lemma erased_frame (flashAddr size : ℕ) (s : Machine b) :
    (erased s flashAddr size).mem = s.mem ∧
      (erased s flashAddr size).dev.faults = s.dev.faults := by
  rw [erased]
  generalize programSectors b flashAddr size = as
  rw [afterErase]
  exact eraseLoop_frame _ _ _ _

lemma erased_blank (hr : flashAddr+size ≤ flashReach b) {s : Machine b}
    (hpass : ErasePasses s flashAddr size) {x : ℕ} (hlow : flashAddr ≤ x)
    (hhigh : x < flashAddr+size) : (erased s flashAddr size).dev.array x = 0xFF#8 := by
  obtain ⟨hal,hcover⟩ := programSectors_cover hin hspi
  rw [erased]
  rw [ErasePasses] at hpass
  generalize programSectors b flashAddr size = as at *
  rw [afterErase]
  refine eraseLoop_blanks hm hspi _ _ (fun a ha => ?_) 0 hpass (.inr (hcover x hlow hhigh))
  have hlt := (hal a ha).2
  exact ⟨by omega,by omega⟩

lemma erase_of_sound {s : Machine b} (hs : s.dev.faults = .none) :
    ErasePasses s flashAddr size ∧
      ∀ x,flashReach b ≤ x → (erased s flashAddr size).dev.array x = s.dev.array x := by
  obtain ⟨hal,-⟩ := programSectors_cover hin hspi
  rw [ErasePasses,erased]
  generalize programSectors b flashAddr size = as at *
  rw [afterErase]
  exact eraseLoop_passes hm hspi (eraseProgress b flashAddr size) as (fun a ha => (hal a ha).1) 0 hs

omit hm hspi in
lemma programCorrect_iff_programmed (hacc : programAccepted b ramAddr flashAddr size = true) :
    ProgramCorrect b ramAddr flashAddr size ↔ ∀ s : Machine b,
      s.dev.faults.Programs flashAddr size → ErasePasses s flashAddr size →
      slice (programmed s ramAddr flashAddr size).dev.array flashAddr size =
        loadBytes s.mem ramAddr size := by
  obtain ⟨hpos,hram⟩ := programAccepted_lt hacc hin
  have hfs := b.flashInfo_size_lt
  constructor
  · intro hcorrect s hgood hpass
    have hr : ramAddr < 4294967296 := by omega
    have hf : flashAddr < 4294967296 := by omega
    have hs : size < 4294967296 := by omega
    obtain ⟨data,hlen,h0,h4,h8,h12⟩ := exists_program_request hr hf hs
      (crc32 0 (loadBytes s.mem ramAddr size))
    obtain ⟨⟨es,hes⟩,hstate⟩ := handleFlashProgram_run h0 h4 h8 hlen hacc h12.symm hpass
    have hslice := hcorrect s data hgood h0 h4 h8 (by rw [EndsOk,hes,getLast?_concat])
    rwa [hstate] at hslice
  · intro hall s data hgood h0 h4 h8 hends
    obtain ⟨hlen,hcrc,hpass⟩ := endsOk_run hends
    rw [h4,h8] at hpass
    rw [h0,h8] at hcrc
    rw [(handleFlashProgram_run h0 h4 h8 hlen hacc hcrc hpass).2]
    exact hall s hgood hpass

lemma programmed_exact (hr : flashAddr+size ≤ flashReach b) (hal : Aligned b flashAddr size)
    {s : Machine b} (hgood : s.dev.faults.Programs flashAddr size)
    (hpass : ErasePasses s flashAddr size) :
    slice (programmed s ramAddr flashAddr size).dev.array flashAddr size =
      loadBytes s.mem ramAddr size := by
  obtain ⟨hmem,hfaults⟩ := erased_frame flashAddr size s
  have hloop := programLoop_exact hm hspi ramAddr (eraseCount b flashAddr size) hal hin hr 0 size
    (Nat.zero_add _) (List.Subset.refl _) (erased s flashAddr size) (hfaults ▸ hgood)
  rw [hmem,Nat.add_zero,drop_zero] at hloop
  have hlen : (loadBytes s.mem ramAddr size).length = size := slice_length _ _ _
  rw [programmed]
  rw [loadBytes]
  refine slice_congr fun i hi => ?_
  refine (congrFun hloop (flashAddr+i)).trans ?_
  rw [blend_inside _ _ _ _ (by omega),erased_blank hm hspi hin hr hpass (by omega) (by omega),
    ff_and]
  exact slice_getElem _ _ _ _ _

/-- A sound machine on which the request goes wrong. -/
def Fails (b : Board) (ramAddr flashAddr size : ℕ) : Prop :=
  ∃ s : Machine b,s.dev.faults = .none ∧ slice (programmed s ramAddr flashAddr size).dev.array
    flashAddr size ≠ loadBytes s.mem ramAddr size

lemma Fails.not_correct (hacc : programAccepted b ramAddr flashAddr size = true)
    (h : Fails b ramAddr flashAddr size) : ¬ProgramCorrect b ramAddr flashAddr size := by
  obtain ⟨s,hs,hslice⟩ := h
  rw [programCorrect_iff_programmed hin hacc]
  exact fun hall => hslice (hall s (fun _ _ _ => by rw [hs]; rfl) (erase_of_sound hm hspi hin hs).1)

lemma not_programmed_beyond (ramAddr : ℕ) (hpos : 0 < size) (hr : flashReach b < flashAddr+size) :
    Fails b ramAddr flashAddr size := by
  let s := Machine.idle b (fun _ => 1) (fun _ => 0) (fun _ => 0) 0
  have hs : s.dev.faults = .none := Machine.idle_faults ..
  refine ⟨s,hs,fun hslice => ?_⟩
  have hcell := slice_eq_iff.mp hslice (size-1) (by omega)
  have hbeyond := (erase_of_sound hm hspi hin hs).2
  rw [programmed,programLoop_keeps _ _ fun p _ t ht => ?_,hbeyond _ (by omega),
    Machine.idle_array] at hcell
  · exact absurd hcell (show ¬(0 : Byte) = 1 by decide)
  · rw [Board.flashInfo_some hm] at hspi
    rw [flashReach_some hm] at hr
    rw [(erased_frame _ _ s).2,hs] at ht
    exact Dev.flashWritePage_beyond (t.fits m hm) hspi (by rw [ht]; rfl) _ (by omega)

omit hin in
lemma exists_missed (hal : ¬Aligned b flashAddr size) :
    ∃ x,flashAddr < x ∧ x < flashAddr+size ∧ x%b.flashInfo.pageSize = 0 ∧
      flashAddr%b.flashInfo.pageSize ≠ 0 ∧
      (flashAddr%flashCommandSize b ≠ 0 ∨ x = 16777216) := by
  unfold Aligned at hal
  push Not at hal
  obtain ⟨hpage,hcross,hbank⟩ := hal
  by_cases hunit : flashAddr%flashCommandSize b = 0
  · obtain ⟨hlow,hhigh⟩ := hbank hunit
    refine ⟨16777216,hlow,hhigh,?_,hpage,.inr rfl⟩
    rw [Board.flashInfo_some hm] at hspi ⊢
    cases m with
    | nor id2 => exact show 16777216%256 = 0 by decide
    | nand => exact show 16777216%2048 = 0 by decide
    | emmc c => exact absurd rfl hspi
  · have hdiv := Nat.div_add_mod flashAddr b.flashInfo.pageSize
    have hmod := Nat.mod_lt flashAddr b.pageSize_pos
    refine ⟨b.flashInfo.pageSize*(flashAddr/b.flashInfo.pageSize+1),?_,?_,Nat.mul_mod_right _ _,
      hpage,.inl hunit⟩
    all_goals
      rw [Nat.mul_add,Nat.mul_one]
      omega

omit hm hspi hin in
lemma marked_bytes {y a n i : ℕ} {v : Byte} (hn : a+n < 4294967296)
    (hget : (loadBytes (marked y) a n)[i]? = some v) (hne : a+i ≠ y) : v = 0xFF#8 := by
  simp only [loadBytes,slice,getElem?_map,Option.map_eq_some_iff] at hget
  obtain ⟨j,hj,rfl⟩ := hget
  obtain ⟨hlt,rfl⟩ := List.getElem?_eq_some_iff.mp hj
  rw [length_range] at hlt
  rw [getElem_range,u32_of_lt (by omega)]
  exact if_neg hne

lemma not_programmed_misaligned (hram : ramAddr+size < 4294967296)
    (hr : flashAddr+size ≤ flashReach b) (hal : ¬Aligned b flashAddr size) :
    Fails b ramAddr flashAddr size := by
  obtain ⟨x,hlow,hhigh,hx,hpage,hbad⟩ := exists_missed hm hspi hal
  have hfs := b.flashInfo_size_lt
  let s := Machine.idle b (marked (ramAddr+(x-flashAddr))) (fun _ => 0) (fun _ => 0) 0
  have hs : s.dev.faults = .none := Machine.idle_faults ..
  refine ⟨s,hs,fun hslice => ?_⟩
  have hcell := slice_eq_iff.mp hslice (x-flashAddr) (by omega)
  obtain ⟨hmem,hfaults⟩ := erased_frame flashAddr size s
  rw [show flashAddr+(x-flashAddr) = x by omega,programmed,
    programLoop_keeps _ _ fun p hp t ht => ?_,erased_blank hm hspi hin hr
      (erase_of_sound hm hspi hin hs).1 (by omega) hhigh,u32_of_lt (by omega)] at hcell
  · have hmark : s.mem (ramAddr+(x-flashAddr)) = 0 := if_pos rfl
    rw [hmark] at hcell
    exact absurd hcell (by decide)
  · obtain ⟨hstart,hppos,hle,hend,-⟩ := mem_pieces b.pageSize_pos hp
    rw [hmem,u32_of_lt (by omega)]
    rw [hfaults,hs] at ht
    have hgood : t.dev.faults.program ((flashAddr+p.1)/2048%65536) = none := by rw [ht]; rfl
    have hff := fun i v hget (hne : flashAddr+p.1+i ≠ x) =>
      marked_bytes (y := ramAddr+(x-flashAddr)) (a := ramAddr+p.1) (n := p.2) (by omega) (i := i)
        (v := v) hget (by omega)
    have hlen : (loadBytes s.mem (ramAddr+p.1) p.2).length = p.2 := slice_length _ _ _
    rw [Board.flashInfo_some hm] at *
    rw [flashReach_some hm] at hr
    rw [flashCommandSize_some hm] at hbad
    -- the piece starts where the range does, seen from its page
    obtain ⟨k,hk⟩ := Nat.dvd_of_mod_eq_zero hstart
    have hunit : (flashAddr+p.1)%commandSize b.config.spiDriver m =
        flashAddr%commandSize b.config.spiDriver m := by
      rw [hk,Nat.add_mod,Nat.mod_eq_zero_of_dvd ((commandSize_dvd _ hspi).mul_right k),
        Nat.add_zero,Nat.mod_mod]
    have hoff : flashAddr+p.1 ≠ x := by
      rintro rfl
      rw [hk,Nat.add_mul_mod_self_left] at hx
      exact hpage hx
    by_cases hxin : flashAddr+p.1 < x ∧ x < flashAddr+p.1+p.2
    · exact Dev.flashWritePage_misses (t.fits m hm) hspi hgood (by omega) (by omega) (by omega)
        hxin.1 (by omega) hx (by rw [hunit]; exact hbad) hff
    · refine Dev.flashWritePage_ff (t.fits m hm) hspi hgood fun v hv => ?_
      obtain ⟨i,hi,rfl⟩ := mem_iff_getElem.mp hv
      exact hff i _ (getElem?_eq_getElem hi) (by omega)

end

/-- `FLASH_PROGRAM` leaves the source in flash for every content, if no page of the range fails,
exactly if the range lies within the driver's reach and none of its commands crosses the end of a
page or bank. -/
theorem flash_program_correct_iff {b : Board} {ramAddr flashAddr size : ℕ}
    (hspi : b.flashInfo.flashType ≠ .emmc)
    (hacc : programAccepted b ramAddr flashAddr size = true)
    (hin : flashAddr+size ≤ b.flashInfo.size) :
    ProgramCorrect b ramAddr flashAddr size ↔
      flashAddr+size ≤ flashReach b ∧ Aligned b flashAddr size := by
  obtain ⟨hpos,hram⟩ := programAccepted_lt hacc hin
  obtain ⟨m,hm⟩ : ∃ m,b.medium = some m := by
    simp only [programAccepted,Bool.and_eq_true,Board.flashReadable] at hacc
    exact Option.isSome_iff_exists.mp hacc.1.1.1
  constructor
  · intro hcorrect
    have hr : flashAddr+size ≤ flashReach b := by
      by_contra hr
      exact (not_programmed_beyond hm hspi hin ramAddr hpos (by omega)).not_correct hm hspi hin hacc
        hcorrect
    refine ⟨hr,?_⟩
    by_contra hal
    exact (not_programmed_misaligned hm hspi hin hram hr hal).not_correct hm hspi hin hacc hcorrect
  · rintro ⟨hr,hal⟩
    rw [programCorrect_iff_programmed hin hacc]
    exact fun s hgood hpass => programmed_exact hm hspi hin hr hal hgood hpass

/-- One page at the beginning of a NOR flash of 8 MiB. -/
theorem page_from_ram_correct :
    ProgramCorrect (Board.withNor .hi3516ev300 0x17) 0x42000000 0 256 :=
  (flash_program_correct_iff (by decide) (by decide) (by decide)).mpr (by
    exact ⟨by decide,.inl (by decide)⟩)

/-- The same page one byte further up: its last byte wraps to the beginning of the page. -/
theorem shifted_page_incorrect :
    programAccepted (Board.withNor .hi3516ev300 0x17) 0x42000000 1 256 = true ∧
    ¬ProgramCorrect (Board.withNor .hi3516ev300 0x17) 0x42000000 1 256 := by
  have hacc : programAccepted (Board.withNor .hi3516ev300 0x17) 0x42000000 1 256 = true := by decide
  have hmissed : Fails (Board.withNor .hi3516ev300 0x17) 0x42000000 1 256 :=
    not_programmed_misaligned rfl (by decide) (by decide) (by decide) (by decide)
      (by unfold Aligned; decide)
  exact ⟨hacc,hmissed.not_correct rfl (by decide) (by decide) hacc⟩

end Defib.FlashProgram
