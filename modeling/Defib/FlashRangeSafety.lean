import Defib.AgentTransfers

/-!
# Which flash ranges accepted requests work on

The three handlers test `addr + size > flash_info.size` in 32-bit arithmetic. A sum
that wraps passes the test with an address near the top of the address space, and
the sector loop then starts there. For each handler the accepted requests that
stay inside the chip are characterised on the unbounded sums. That no event leaves
the chip is shown over every machine state and every sequence of frames; that
the others do leave it is seen on a blank chip, where every erase succeeds.
-/
namespace Defib.FlashRangeSafety
open List Words BlockMemory Spans Crc32 Boards FlashDevice AgentMachine AgentFlash

variable {b : Board}

/-- The sector of an erase and the bytes of a page program lie inside the chip. -/
def InRange (b : Board) : Event → Prop
  | .erase a => a/b.flashInfo.sectorSize*b.flashInfo.sectorSize+b.flashInfo.sectorSize ≤
      b.flashInfo.size
  | .program a data => a+data.length ≤ b.flashInfo.size
  | _ => True

/-- The agent answers the request with `ACK_OK`. -/
def Accepted (tr : List Event) : Prop := tr.head? = some (.reply (ack ackOk))

/-! ### What the loops do -/

lemma eraseLoop_inRange (progress : ℕ → Machine b → Frame) (as : List ℕ)
    (has : ∀ a ∈ as, InRange b (.erase a)) (i : ℕ) (s : Machine b) :
    ∀ e ∈ (eraseLoop progress i as s).2.1, InRange b e := by
  induction as generalizing i s with
  | nil => intro e he; cases he
  | cons a as ih =>
    intro e he
    simp only [eraseLoop] at he
    split_ifs at he
    · rcases mem_cons.mp he with rfl | he
      · exact has a mem_cons_self
      · rcases mem_cons.mp he with rfl | he
        · trivial
        · exact ih (fun x hx => has x (mem_cons_of_mem _ hx)) _ _ e he
    · simp only [mem_cons,not_mem_nil,or_false] at he
      rcases he with rfl | rfl
      · exact has a mem_cons_self
      · trivial

lemma eraseLoop_blank (progress : ℕ → Machine b → Frame) (as : List ℕ) (i : ℕ)
    (s : Machine b) (hs : s.dev.Blank) : (eraseLoop progress i as s).1 = true ∧
      ∀ a ∈ as, Event.erase a ∈ (eraseLoop progress i as s).2.1 := by
  induction as generalizing i s with
  | nil => exact ⟨rfl,fun a ha => absurd ha not_mem_nil⟩
  | cons a as ih =>
    obtain ⟨hok,hblank⟩ := Dev.flashEraseSector_blank hs a
    obtain ⟨hall,hmem⟩ := ih (i+1) (s.flashEraseSector a).2 hblank
    have hok' : (s.flashEraseSector a).1 = true := hok
    simp only [eraseLoop,hok',if_true]
    refine ⟨hall,fun x hx => ?_⟩
    rcases mem_cons.mp hx with rfl | hx
    · exact mem_cons_self
    · exact mem_cons_of_mem _ (mem_cons_of_mem _ (hmem x hx))

lemma programLoop_inRange (src base total size page : ℕ) (ps : List (ℕ × ℕ))
    (hps : ∀ p ∈ ps, base+p.1+p.2 ≤ b.flashInfo.size) (s : Machine b) :
    ∀ e ∈ (programLoop src base total size page ps s).1, InRange b e := by
  induction ps generalizing s with
  | nil => intro e he; cases he
  | cons p ps ih =>
    intro e he
    have hp := hps p mem_cons_self
    simp only [programLoop] at he
    rcases mem_cons.mp he with rfl | he
    · have hle := Nat.mod_le (base+p.1) 4294967296
      simp only [InRange,loadBytes,slice_length,u32]
      omega
    · rcases mem_append.mp he with he | he
      · split_ifs at he with hnote
        · rw [mem_singleton.mp he]
          trivial
        · cases he
      · exact ih (fun q hq => hps q (mem_cons_of_mem _ hq)) _ e he

lemma mem_programLoop (src base total size page : ℕ) (ps : List (ℕ × ℕ)) (s : Machine b)
    {p : ℕ × ℕ} (hp : p ∈ ps) : ∃ bytes : List Byte, bytes.length = p.2 ∧
      Event.program (u32 (base+p.1)) bytes ∈ (programLoop src base total size page ps s).1 := by
  induction ps generalizing s with
  | nil => cases hp
  | cons q ps ih =>
    simp only [programLoop]
    rcases mem_cons.mp hp with rfl | hp
    · exact ⟨_,slice_length _ _ _,mem_cons_self⟩
    · obtain ⟨bytes,hlen,hmem⟩ :=
        ih (s.flashWritePage (u32 (base+q.1)) (loadBytes s.mem (src+q.1) q.2)).2 hp
      exact ⟨bytes,hlen,mem_cons_of_mem _ (mem_append_right _ hmem)⟩

def blankMachine (b : Board) (mem : ℕ → Byte) : Machine b :=
  .idle b mem (fun _ => 0) (fun _ => 0xFF#8) 0xFF#8

lemma blankMachine_blank (mem : ℕ → Byte) : (blankMachine b mem).dev.Blank := Dev.idle_blank

/-! ### CMD_ERASE -/

def EraseSafe (b : Board) (addr size : ℕ) : Prop :=
  ∀ (s : Machine b) (data : List Byte), readLe32 data 0 = addr → readLe32 data 4 = size →
    Accepted (handleErase s data).1 → ∀ e ∈ (handleErase s data).1, InRange b e

variable {data : List Byte} {s : Machine b}

lemma handleErase_accepted (h : Accepted (handleErase s data).1) :
    8 ≤ data.length ∧ eraseAccepted b (readLe32 data 0) (readLe32 data 4) = true := by
  unfold handleErase at h
  split_ifs at h with hlen hacc
  · exact absurd h (by simp [Accepted,AgentMachine.ack,ackCrcError,ackOk])
  · exact absurd h (by simp [Accepted,AgentMachine.ack,ackFlashError,ackOk])
  · exact ⟨by omega,by simpa using hacc⟩

lemma handleErase_events (s : Machine b) (data : List Byte) (hlen : 8 ≤ data.length)
    (hacc : eraseAccepted b (readLe32 data 0) (readLe32 data 4) = true) :
    ∃ progress last, (∀ e ∈ last, ∃ f, e = Event.reply f) ∧ (handleErase s data).1 =
      .reply (ack ackOk) :: ((eraseLoop progress 0 (sectorAddrs b (readLe32 data 0)
        (readLe32 data 4/b.flashInfo.sectorSize)) s).2.1++last) := by
  simp only [handleErase,if_neg (show ¬data.length < 8 by omega),hacc,Bool.not_true,
    Bool.false_eq_true,if_false]
  refine ⟨_,_,?_,rfl⟩
  intro e he
  split_ifs at he
  · exact ⟨_,mem_singleton.mp he⟩
  · cases he

lemma eraseSafe_iff {addr size : ℕ} (ha : addr < 4294967296) (hs : size < 4294967296) :
    EraseSafe b addr size ↔
      (eraseAccepted b addr size = true → addr+size ≤ b.flashInfo.size) := by
  have hfs := b.flashInfo_size_lt
  constructor
  · intro hsafe hacc
    by_contra hout
    have hsum := hacc
    simp only [eraseAccepted,Bool.and_eq_true,decide_eq_true_eq,ne_eq] at hsum
    obtain ⟨⟨⟨_,hle⟩,hal⟩,hsz⟩ := hsum
    obtain ⟨h0,h4⟩ := readLe32_fields ha hs []
    obtain ⟨progress,last,_,hev⟩ := handleErase_events (blankMachine b fun _ => 0)
      (writeLe32 addr++(writeLe32 size++[])) (by simp) (by rw [h0,h4]; exact hacc)
    rw [h0,h4] at hev
    have hall := hsafe (blankMachine b fun _ => 0) (writeLe32 addr++(writeLe32 size++[])) h0 h4
      (by rw [hev]; rfl)
    rw [hev] at hall
    -- the sum wraps, so the last sector of the address space is among the erased ones
    have hlast : (4294967296-b.flashInfo.sectorSize) ∈
        sectorAddrs b addr (size/b.flashInfo.sectorSize) := by
      refine mem_map.mpr
        ⟨(4294967296-b.flashInfo.sectorSize-addr)/b.flashInfo.sectorSize,?_,?_⟩
      · rw [mem_range]
        unfold u32 at hle
        rcases b.geometry with ⟨hg,_⟩ | ⟨hg,_⟩ | ⟨hg,_⟩ <;> rw [hg] at hal hsz ⊢ <;> omega
      · unfold u32 at hle ⊢
        rcases b.geometry with ⟨hg,_⟩ | ⟨hg,_⟩ | ⟨hg,_⟩ <;> rw [hg] at hal ⊢ <;> omega
    have hbad := hall _ (mem_cons_of_mem _ (mem_append_left _
      ((eraseLoop_blank progress _ 0 _ (blankMachine_blank _)).2 _ hlast)))
    simp only [InRange] at hbad
    rcases b.geometry with ⟨hg,_⟩ | ⟨hg,_⟩ | ⟨hg,_⟩ <;> rw [hg] at hbad <;> omega
  · rintro hcond s data rfl rfl hacc e he
    obtain ⟨hlen,hok⟩ := handleErase_accepted hacc
    have hin := hcond hok
    simp only [eraseAccepted,Bool.and_eq_true,decide_eq_true_eq,ne_eq] at hok
    obtain ⟨progress,last,hlast,hev⟩ := handleErase_events s data hlen (handleErase_accepted hacc).2
    rw [hev] at he
    rcases mem_cons.mp he with rfl | he
    · trivial
    · rcases mem_append.mp he with he | he
      · refine eraseLoop_inRange progress _ (fun a hmem => ?_) 0 s e he
        obtain ⟨i,hi,rfl⟩ := mem_map.mp hmem
        rw [mem_range] at hi
        simp only [InRange,u32]
        rcases b.geometry with ⟨hg,_⟩ | ⟨hg,_⟩ | ⟨hg,_⟩ <;> rw [hg] at hok hi ⊢ <;> omega
      · obtain ⟨f,rfl⟩ := hlast e he
        trivial

/-! ### CMD_FLASH_PROGRAM -/

def ProgramSafe (b : Board) (ramAddr flashAddr size : ℕ) : Prop :=
  ∀ (s : Machine b) (data : List Byte), readLe32 data 0 = ramAddr →
    readLe32 data 4 = flashAddr → readLe32 data 8 = size →
    Accepted (handleFlashProgram s data).1 → ∀ e ∈ (handleFlashProgram s data).1, InRange b e

/-- The sectors an accepted program request erases. -/
def programSectors (b : Board) (flashAddr size : ℕ) : List ℕ :=
  sectorAddrs b (eraseStart b flashAddr) (eraseCount b flashAddr size)

lemma handleFlashProgram_accepted
    (h : Accepted (handleFlashProgram s data).1) : 16 ≤ data.length ∧
      programAccepted b (readLe32 data 0) (readLe32 data 4) (readLe32 data 8) = true ∧
      (crc32 0 (loadBytes s.mem (readLe32 data 0) (readLe32 data 8))).toNat =
        readLe32 data 12 := by
  simp only [handleFlashProgram] at h
  split_ifs at h with hlen hacc hcrc herase
  · exact absurd h (by simp [Accepted,AgentMachine.ack,ackCrcError,ackOk])
  · exact absurd h (by simp [Accepted,AgentMachine.ack,ackFlashError,ackOk])
  · exact absurd h (by simp [Accepted,AgentMachine.ack,ackCrcError,ackOk])
  all_goals exact ⟨by omega,by simpa using hacc,by simpa using hcrc⟩

lemma handleFlashProgram_events (hlen : 16 ≤ data.length)
    (hacc : programAccepted b (readLe32 data 0) (readLe32 data 4) (readLe32 data 8) = true)
    (hcrc : (crc32 0 (loadBytes s.mem (readLe32 data 0) (readLe32 data 8))).toNat =
      readLe32 data 12) :
    ∃ (progress : ℕ → Machine b → Frame) (total : ℕ),
      (handleFlashProgram s data).1 = .reply (ack ackOk) ::
        ((eraseLoop progress 0 (programSectors b (readLe32 data 4) (readLe32 data 8)) s).2.1++
        if (eraseLoop progress 0 (programSectors b (readLe32 data 4) (readLe32 data 8)) s).1 then
          (programLoop (readLe32 data 0) (readLe32 data 4) total (readLe32 data 8)
            b.flashInfo.pageSize (pieces b.flashInfo.pageSize (readLe32 data 8))
            (eraseLoop progress 0 (programSectors b (readLe32 data 4) (readLe32 data 8)) s).2.2).1++
              [.reply (ack ackOk)]
        else []) := by
  simp only [handleFlashProgram,if_neg (show ¬data.length < 16 by omega),hacc,hcrc,Bool.not_true,
    Bool.false_eq_true,if_false,ne_eq,not_true_eq_false]
  refine ⟨fun i _ => ⟨rspData,writeLe16 i++
    writeLe16 (eraseCount b (readLe32 data 4) (readLe32 data 8))⟩,
    eraseCount b (readLe32 data 4) (readLe32 data 8),?_⟩
  unfold programSectors
  split_ifs with hok
  · simp only [append_assoc]
  · rw [append_nil]

lemma exists_program_request {ramAddr flashAddr size : ℕ} (hr : ramAddr < 4294967296)
    (hf : flashAddr < 4294967296) (hs : size < 4294967296) (crc : BitVec 32) :
    ∃ data : List Byte,16 ≤ data.length ∧ readLe32 data 0 = ramAddr ∧
      readLe32 data 4 = flashAddr ∧ readLe32 data 8 = size ∧ readLe32 data 12 = crc.toNat := by
  obtain ⟨h0,h4⟩ := readLe32_fields hr hf (writeLe32 size++(writeLe32 crc.toNat++[]))
  obtain ⟨h8,h12⟩ := readLe32_fields hs crc.isLt []
  rw [← readLe32_shift flashAddr,← readLe32_shift ramAddr] at h8 h12
  exact ⟨_,by simp,h0,h4,h8,h12⟩

variable {flashAddr size : ℕ}

lemma exists_page_at_top (hf : flashAddr < 4294967296) (hwrap : 4294967296 ≤ flashAddr+size) :
    ∃ p ∈ pieces b.flashInfo.pageSize size, u32 (flashAddr+p.1)+p.2 ≥ 4294967296 := by
  obtain ⟨p,hp,hlow,hhigh⟩ := exists_mem_spans (l := fun _ => b.flashInfo.pageSize)
    (fun _ => b.pageSize_pos) (a := 0) (n := size) (x := 4294967295-flashAddr)
    (Nat.zero_le _) (by omega)
  refine ⟨p,hp,?_⟩
  rw [u32_of_lt (by omega)]
  omega

lemma eraseCount_eq (b : Board) (hs : size < 0xFC000000) (hsum : flashAddr+size < 4294967296) :
    eraseStart b flashAddr+eraseCount b flashAddr size*b.flashInfo.sectorSize =
      (flashAddr+size+b.flashInfo.sectorSize-1)/b.flashInfo.sectorSize*b.flashInfo.sectorSize := by
  simp only [eraseCount,eraseStart,eraseEnd,u32]
  rcases b.geometry with ⟨hg,_⟩ | ⟨hg,_⟩ | ⟨hg,_⟩ <;> rw [hg]
  · rcases Nat.lt_or_ge (flashAddr+size+65536-1) 4294967296 with h | h
    · rw [Nat.mod_eq_of_lt h]
      omega
    · omega
  · rcases Nat.lt_or_ge (flashAddr+size+131072-1) 4294967296 with h | h
    · rw [Nat.mod_eq_of_lt h]
      omega
    · omega
  · rcases Nat.lt_or_ge (flashAddr+size+512-1) 4294967296 with h | h
    · rw [Nat.mod_eq_of_lt h]
      omega
    · omega

lemma programSectors_inRange (hs : size < 0xFC000000)
    (hin : (flashAddr+size+b.flashInfo.sectorSize-1)/b.flashInfo.sectorSize*
      b.flashInfo.sectorSize ≤ b.flashInfo.size) :
    ∀ a ∈ programSectors b flashAddr size, InRange b (.erase a) := by
  intro a hmem
  obtain ⟨i,hi,rfl⟩ := mem_map.mp hmem
  rw [mem_range] at hi
  have hfs := b.flashInfo_size_lt
  have hwrap : flashAddr+size < 4294967296 := by
    rcases b.geometry with ⟨hg,_⟩ | ⟨hg,_⟩ | ⟨hg,_⟩ <;> rw [hg] at hin <;> omega
  have hcount := eraseCount_eq b hs hwrap
  have hle := Nat.mul_le_mul_right b.flashInfo.sectorSize (Nat.succ_le_of_lt hi)
  rw [Nat.succ_mul] at hle
  unfold eraseStart at hcount ⊢
  rw [u32_of_lt (by omega),← Nat.add_mul,InRange,Nat.mul_div_cancel _ (b.sectorSize_pos),
    Nat.add_mul]
  omega

lemma programSafe_iff {ramAddr flashAddr size : ℕ} (hr : ramAddr < 4294967296)
    (hf : flashAddr < 4294967296) (hs : size < 4294967296) :
    ProgramSafe b ramAddr flashAddr size ↔ (programAccepted b ramAddr flashAddr size = true →
      (flashAddr+size+b.flashInfo.sectorSize-1)/b.flashInfo.sectorSize*b.flashInfo.sectorSize ≤
        b.flashInfo.size) := by
  have hfs := b.flashInfo_size_lt
  constructor
  · intro hsafe hacc
    by_contra hout
    have hsum := hacc
    simp only [programAccepted,Bool.and_eq_true,decide_eq_true_eq,ne_eq] at hsum
    obtain ⟨⟨⟨_,hpos⟩,hle⟩,hread⟩ := hsum
    -- a request that carries the checksum of the zeroed source
    obtain ⟨data,hlen,h0,h4,h8,h12⟩ := exists_program_request hr hf hs
      (crc32 0 (loadBytes (blankMachine b fun _ => 0).mem ramAddr size))
    obtain ⟨progress,total,hev⟩ := handleFlashProgram_events (s := blankMachine b fun _ => 0)
      hlen (by rw [h0,h4,h8]; exact hacc) (by rw [h0,h8,h12])
    have hall := hsafe (blankMachine b fun _ => 0) data h0 h4 h8 (by rw [hev]; rfl)
    rw [h0,h4,h8] at hev
    obtain ⟨hok,herased⟩ := eraseLoop_blank progress (programSectors b flashAddr size) 0
      (blankMachine b fun _ => 0) (blankMachine_blank _)
    rw [hok,if_pos rfl] at hev
    rw [hev] at hall
    rcases Nat.lt_or_ge (flashAddr+size) 4294967296 with hwrap | hwrap
    · -- rounding up leaves the chip: the last sector is erased beyond its end
      have hlow := addrReadable_low hread
      have hsmall : size < 0xFC000000 := by
        have hnw := (addrReadable_no_wrap hr hs hread).2
        omega
      have hcount := eraseCount_eq b hsmall hwrap
      have hlast : u32 (eraseStart b flashAddr+(eraseCount b flashAddr size-1)*
          b.flashInfo.sectorSize) ∈ programSectors b flashAddr size := by
        refine mem_map.mpr ⟨eraseCount b flashAddr size-1,?_,rfl⟩
        rw [mem_range]
        unfold eraseStart at hcount
        rcases b.geometry with ⟨hg,_⟩ | ⟨hg,_⟩ | ⟨hg,_⟩ <;> rw [hg] at hcount <;> omega
      have hbad := hall _ (mem_cons_of_mem _ (mem_append_left _ (herased _ hlast)))
      simp only [InRange,eraseStart,u32] at hbad hcount
      rcases b.geometry with ⟨hg,_⟩ | ⟨hg,_⟩ | ⟨hg,_⟩ <;> rw [hg] at hbad hcount hout <;> omega
    · -- the range wraps: the page at the top of the address space is programmed
      obtain ⟨p,hp,htop⟩ := exists_page_at_top (b := b) hf hwrap
      obtain ⟨bytes,hbytes,hmem⟩ := mem_programLoop ramAddr flashAddr total size
        b.flashInfo.pageSize _ (eraseLoop progress 0 (programSectors b flashAddr size)
          (blankMachine b fun _ => 0)).2.2 hp
      have hbad := hall _ (mem_cons_of_mem _ (mem_append_right _
        (mem_append_left _ hmem)))
      simp only [InRange] at hbad
      omega
  · rintro hcond s data rfl rfl rfl hacc e he
    obtain ⟨hlen,hok,hcrc⟩ := handleFlashProgram_accepted hacc
    have hin := hcond hok
    simp only [programAccepted,Bool.and_eq_true,decide_eq_true_eq,ne_eq] at hok
    obtain ⟨progress,total,hev⟩ :=
      handleFlashProgram_events hlen (handleFlashProgram_accepted hacc).2.1 hcrc
    rw [hev] at he
    rcases mem_cons.mp he with rfl | he
    · trivial
    rcases mem_append.mp he with he | he
    · have hlow := addrReadable_low hok.2
      have hnw := (addrReadable_no_wrap hr hs hok.2).2
      exact eraseLoop_inRange progress _ (programSectors_inRange (by omega) hin) 0 s e he
    · split_ifs at he
      · rcases mem_append.mp he with he | he
        · refine programLoop_inRange _ _ total _ _ _ (fun p hp => ?_) _ e he
          have hend := (mem_pieces (b.pageSize_pos) hp).2.2.2.1
          rcases b.geometry with ⟨hg,_⟩ | ⟨hg,_⟩ | ⟨hg,_⟩ <;> rw [hg] at hin <;> omega
        · rw [mem_singleton.mp he]
          trivial
      · cases he

/-! ### CMD_FLASH_STREAM -/

/-- The longest request payload the receive buffer holds beside command and checksum. -/
def maxRequest : ℕ := maxPayload+16-5

/-- The handler over the returns of `proto_recv` it sees. -/
def streamRun (s : Machine b) : Option Stream → List Frame → List Event
  | none,_ => []
  | some _,[] => []
  | some st,rx::rxs =>
    let r := streamRecv s st rx
    r.1++streamRun r.2.1 r.2.2 rxs

def streamTrace (s : Machine b) (data : List Byte) (rxs : List Frame) : List Event :=
  let r := handleFlashStream s data
  r.1++streamRun r.2.1 r.2.2 rxs

def StreamSafe (b : Board) (flashAddr size : ℕ) : Prop :=
  ∀ (s : Machine b) (data : List Byte) (rxs : List Frame), data.length ≤ maxRequest →
    readLe32 data 0 = flashAddr → readLe32 data 4 = size →
    Accepted (handleFlashStream s data).1 → ∀ e ∈ streamTrace s data rxs, InRange b e

/-- Erasing the sector at `addr` and programming `bytes` bytes there stays in the chip. -/
def SectorFits (b : Board) (addr bytes : ℕ) : Prop :=
  InRange b (.erase addr) ∧ addr+bytes ≤ b.flashInfo.size

/-- Every sector of the request fits, and so does the one waiting to be programmed. -/
def StreamFits (b : Board) (st : Stream) : Prop :=
  (∀ i < st.numSectors, SectorFits b (u32 (st.flashAddr+i*b.flashInfo.sectorSize))
    (min (st.size-i*b.flashInfo.sectorSize) b.flashInfo.sectorSize)) ∧
  ∀ p ∈ st.pending, SectorFits b p.addr p.bytes

lemma pageLoop_inRange (addr buf : ℕ) (ps : List (ℕ × ℕ))
    (hps : ∀ p ∈ ps, addr+p.1+p.2 ≤ b.flashInfo.size) (s : Machine b) :
    ∀ e ∈ (pageLoop addr buf ps s).1, InRange b e := by
  induction ps generalizing s with
  | nil => intro e he; cases he
  | cons p ps ih =>
    intro e he
    have hp := hps p mem_cons_self
    have hrest : ∀ q ∈ ps, addr+q.1+q.2 ≤ b.flashInfo.size :=
      fun q hq => hps q (mem_cons_of_mem _ hq)
    simp only [pageLoop] at he
    split_ifs at he
    · exact ih hrest _ e he
    · rcases mem_cons.mp he with rfl | he
      · have hle := Nat.mod_le (addr+p.1) 4294967296
        simp only [InRange,loadBytes,slice_length,u32]
        omega
      · exact ih hrest _ e he

lemma processPending_inRange (s : Machine b) {pend : Option Pending}
    (h : ∀ p ∈ pend, SectorFits b p.addr p.bytes) :
    ∀ e ∈ (processPending s pend).2.1, InRange b e := by
  cases pend with
  | none => intro e he; cases he
  | some p =>
    intro e he
    obtain ⟨herase,hfit⟩ := h p rfl
    simp only [processPending,eraseAndProgram] at he
    split_ifs at he
    · rcases mem_cons.mp he with rfl | he
      · exact herase
      · refine pageLoop_inRange _ _ _ (fun q hq => ?_) _ e he
        have hend := (mem_pieces b.pageSize_pos hq).2.2.2.1
        omega
    · rw [mem_singleton.mp he]
      exact herase

lemma streamAdvance_inRange (n : ℕ) (st : Stream) (s : Machine b)
    (hn : st.sector+n = st.numSectors) (hfits : StreamFits b st) :
    (∀ e ∈ (streamAdvance n st s).1, InRange b e) ∧ ∀ st' ∈ (streamAdvance n st s).2.2,
      StreamFits b st' ∧ st'.sector < st'.numSectors := by
  induction n generalizing st s with
  | zero =>
    refine ⟨fun e he => ?_,fun st' hst' => by cases hst'⟩
    rcases mem_append.mp he with he | he
    · exact processPending_inRange s hfits.2 e he
    · rw [mem_singleton.mp he]
      trivial
  | succ n ih =>
    have hsector : InRange b (.erase (st.sectorAddr b)) := (hfits.1 st.sector (by omega)).1
    have hpend := processPending_inRange s hfits.2
    simp only [streamAdvance]
    split_ifs with hdata hproc herase
    · refine ⟨fun e he => absurd he not_mem_nil,fun st' hst' => ?_⟩
      cases hst'
      exact ⟨hfits,by show st.sector < st.numSectors; omega⟩
    · -- a blank sector: erased at once, nothing is left pending
      obtain ⟨hev,hnext⟩ := ih {st with sector := st.sector+1, pending := none}
        ((processPending s st.pending).2.2.flashEraseSector (st.sectorAddr b)).2
        (by show st.sector+1+n = st.numSectors; omega) ⟨hfits.1,fun p hp => by cases hp⟩
      refine ⟨fun e he => ?_,hnext⟩
      rcases mem_append.mp he with he | he
      · exact hpend e he
      rcases mem_cons.mp he with rfl | he
      · exact hsector
      rcases mem_cons.mp he with rfl | he
      · trivial
      · exact hev e he
    · refine ⟨fun e he => ?_,fun st' hst' => by cases hst'⟩
      rcases mem_append.mp he with he | he
      · exact hpend e he
      · simp only [mem_cons,not_mem_nil,or_false] at he
        rcases he with rfl | rfl
        · exact hsector
        · trivial
    · refine ⟨fun e he => ?_,fun st' hst' => by cases hst'⟩
      rcases mem_append.mp he with he | he
      · exact hpend e he
      · rw [mem_singleton.mp he]
        trivial

lemma streamRecv_inRange (s : Machine b) (st : Stream) (rx : Frame)
    (hn : st.sector < st.numSectors) (hfits : StreamFits b st) :
    (∀ e ∈ (streamRecv s st rx).1, InRange b e) ∧ ∀ st' ∈ (streamRecv s st rx).2.2,
      StreamFits b st' ∧ st'.sector < st'.numSectors := by
  simp only [streamRecv]
  split_ifs with hdata hmore hproc hzero
  · refine ⟨fun e he => ?_,fun st' hst' => ?_⟩
    · rw [mem_singleton.mp he]
      trivial
    · cases hst'
      exact ⟨hfits,hn⟩
  · -- the sector is complete: the one before it is programmed and it takes its place
    obtain ⟨hev,hnext⟩ := streamAdvance_inRange (st.numSectors-(st.sector+1))
      {st with
        sector := st.sector+1
        rxBuf := !st.rxBuf
        totalReceived := st.totalReceived+st.sectorBytes b
        pending := some ⟨st.rxBuf,st.sectorAddr b,st.sectorBytes b⟩}
      (processPending (s.store (streamBuf b st.rxBuf+st.received)
        ((rx.payload.drop 2).take (st.sectorBytes b-st.received))) st.pending).2.2
      (Nat.add_sub_of_le hn) ⟨hfits.1,fun p hp => by cases hp; exact hfits.1 st.sector hn⟩
    refine ⟨fun e he => ?_,hnext⟩
    rcases mem_cons.mp he with rfl | he
    · trivial
    rcases mem_cons.mp he with rfl | he
    · trivial
    rcases mem_append.mp he with he | he
    · exact processPending_inRange _ hfits.2 e he
    · exact hev e he
  · refine ⟨fun e he => ?_,fun st' hst' => by cases hst'⟩
    rcases mem_cons.mp he with rfl | he
    · trivial
    rcases mem_cons.mp he with rfl | he
    · trivial
    rcases mem_append.mp he with he | he
    · exact processPending_inRange _ hfits.2 e he
    · rw [mem_singleton.mp he]
      trivial
  · refine ⟨fun e he => ?_,fun st' hst' => by cases hst'⟩
    rw [mem_singleton.mp he]
    trivial
  · refine ⟨fun e he => absurd he not_mem_nil,fun st' hst' => ?_⟩
    cases hst'
    exact ⟨hfits,hn⟩

lemma streamRun_inRange (rxs : List Frame) (s : Machine b) (ost : Option Stream)
    (h : ∀ st ∈ ost, StreamFits b st ∧ st.sector < st.numSectors) :
    ∀ e ∈ streamRun s ost rxs, InRange b e := by
  induction rxs generalizing s ost with
  | nil => intro e he; cases ost <;> cases he
  | cons rx rxs ih =>
    cases ost with
    | none => intro e he; cases he
    | some st =>
      obtain ⟨hfits,hn⟩ := h st rfl
      obtain ⟨hev,hnext⟩ := streamRecv_inRange s st rx hn hfits
      intro e he
      rcases mem_append.mp he with he | he
      · exact hev e he
      · exact ih _ _ hnext e he

lemma streamAdvance_blank (n : ℕ) (st : Stream) (s : Machine b) (hs : s.dev.Blank)
    (hp : st.pending = none) (hb : ∀ x ∈ st.bitmap, x = 0#8) (i : ℕ) (hi : i < n) :
    Event.erase (u32 (st.flashAddr+(st.sector+i)*b.flashInfo.sectorSize)) ∈
      (streamAdvance n st s).1 := by
  induction n generalizing st s i with
  | zero => omega
  | succ n ih =>
    have hdata : st.hasData = false := by
      have hz : st.bitmap.getD (st.sector/8) 0 = 0#8 := by
        rcases Nat.lt_or_ge (st.sector/8) st.bitmap.length with hlt | hge
        · rw [getD_eq_getElem _ _ hlt]
          exact hb _ (getElem_mem hlt)
        · exact getD_eq_default _ _ hge
      rw [Stream.hasData,hz]
      exact BitVec.getLsbD_zero
    obtain ⟨hok,hblank⟩ := Dev.flashEraseSector_blank hs (st.sectorAddr b)
    have hok' : (s.flashEraseSector (st.sectorAddr b)).1 = true := hok
    simp only [streamAdvance,hdata,hp,processPending,hok',Bool.false_eq_true,if_false,if_true,
      nil_append]
    cases i with
    | zero => exact mem_cons_self
    | succ i =>
      have hrec := ih {st with sector := st.sector+1, pending := none}
        (s.flashEraseSector (st.sectorAddr b)).2 hblank rfl hb i (by omega)
      rw [show st.sector+(i+1) = st.sector+1+i by omega]
      exact mem_cons_of_mem _ (mem_cons_of_mem _ hrec)

/-- The request names no sector, or its range and its last sector end inside the chip. -/
def streamInside (b : Board) (flashAddr size : ℕ) : Prop :=
  numSectors b size = 0 ∨ (flashAddr+size ≤ b.flashInfo.size ∧
    (flashAddr+(numSectors b size-1)*b.flashInfo.sectorSize)/b.flashInfo.sectorSize*
      b.flashInfo.sectorSize+b.flashInfo.sectorSize ≤ b.flashInfo.size)

lemma numSectors_spec {size : ℕ} (hs : size < 4294967296) (hnum : numSectors b size ≠ 0) :
    (numSectors b size-1)*b.flashInfo.sectorSize < size ∧
      size ≤ numSectors b size*b.flashInfo.sectorSize := by
  simp only [numSectors,u32] at hnum ⊢
  rcases b.geometry with ⟨hg,_⟩ | ⟨hg,_⟩ | ⟨hg,_⟩ <;> rw [hg] at hnum ⊢ <;> omega

lemma sectorFits_of_inside (hs : size < 4294967296)
    (h : streamInside b flashAddr size) : ∀ i < numSectors b size,
      SectorFits b (u32 (flashAddr+i*b.flashInfo.sectorSize))
        (min (size-i*b.flashInfo.sectorSize) b.flashInfo.sectorSize) := by
  intro i hi
  have hfs := b.flashInfo_size_lt
  rcases h with h | ⟨hend,hlast⟩
  · omega
  have hspec := (numSectors_spec (b := b) hs (by omega)).1
  have hle := Nat.mul_le_mul_right b.flashInfo.sectorSize (show i ≤ numSectors b size-1 by omega)
  rw [u32_of_lt (by omega)]
  constructor
  · have hdiv := Nat.mul_le_mul_right b.flashInfo.sectorSize (Nat.div_le_div_right
      (c := b.flashInfo.sectorSize) (Nat.add_le_add_left hle flashAddr))
    simp only [InRange]
    omega
  · omega

lemma inside_of_erases (hf : flashAddr < 4294967296)
    (hs : size < 4294967296) (hacc : u32 (flashAddr+size) ≤ b.flashInfo.size)
    (h : ∀ i < numSectors b size,
      InRange b (.erase (u32 (flashAddr+i*b.flashInfo.sectorSize)))) :
    streamInside b flashAddr size := by
  have hfs := b.flashInfo_size_lt
  by_cases hnum : numSectors b size = 0
  · exact .inl hnum
  obtain ⟨hlow,hhigh⟩ := numSectors_spec hs hnum
  rcases Nat.lt_or_ge (flashAddr+size) 4294967296 with hwrap | hwrap
  · rw [u32_of_lt hwrap] at hacc
    have hlast := h (numSectors b size-1) (by omega)
    rw [u32_of_lt (by omega)] at hlast
    exact .inr ⟨hacc,hlast⟩
  · -- the sector that holds the last byte of the address space
    have hdiv := Nat.div_mul_le_self (4294967295-flashAddr) b.flashInfo.sectorSize
    have htop : (4294967295-flashAddr)/b.flashInfo.sectorSize < numSectors b size := by
      rw [Nat.div_lt_iff_lt_mul b.sectorSize_pos]
      omega
    have hbad := h _ htop
    rw [u32_of_lt (by omega)] at hbad
    simp only [InRange] at hbad
    rcases b.geometry with ⟨hg,_⟩ | ⟨hg,_⟩ | ⟨hg,_⟩ <;> rw [hg] at hbad <;> omega

lemma handleFlashStream_accepted (h : Accepted (handleFlashStream s data).1) : 12 ≤ data.length ∧
      streamAccepted b (readLe32 data 0) (readLe32 data 4) = true ∧
      12+(numSectors b (readLe32 data 4)+7)/8 ≤ data.length := by
  simp only [handleFlashStream] at h
  split_ifs at h with hlen hacc hmap
  · exact absurd h (by simp [Accepted,AgentMachine.ack,ackCrcError,ackOk])
  · exact absurd h (by simp [Accepted,AgentMachine.ack,ackFlashError,ackOk])
  · exact absurd h (by simp [Accepted,AgentMachine.ack,ackCrcError,ackOk])
  · exact ⟨by omega,by simpa using hacc,by omega⟩

lemma fst_snd_eq {α β : Type} {p : α × β} {x : α} {y : β} (h : p = (x,y)) :
    p.1 = x ∧ p.2 = y := by
  subst h
  exact ⟨rfl,rfl⟩

lemma handleFlashStream_events
    (hacc : streamAccepted b (readLe32 data 0) (readLe32 data 4) = true)
    (hmap : 12+(numSectors b (readLe32 data 4)+7)/8 ≤ data.length) :
    (handleFlashStream s data).1 = .reply (ack ackOk) ::
        (streamAdvance (numSectors b (readLe32 data 4)) (streamStart b data) s).1 ∧
      (handleFlashStream s data).2 =
        (streamAdvance (numSectors b (readLe32 data 4)) (streamStart b data) s).2 := by
  have heq : handleFlashStream s data = (.reply (ack ackOk) ::
      (streamAdvance (numSectors b (readLe32 data 4)) (streamStart b data) s).1,
      (streamAdvance (numSectors b (readLe32 data 4)) (streamStart b data) s).2) := by
    simp only [handleFlashStream,if_neg (show ¬data.length < 12 by omega),hacc,Bool.not_true,
      Bool.false_eq_true,if_false,
      if_neg (show ¬data.length < 12+(numSectors b (readLe32 data 4)+7)/8 by omega)]
  exact fst_snd_eq heq

lemma handleFlashStream_inRange (s : Machine b) (hacc : Accepted (handleFlashStream s data).1)
    (hin : streamInside b (readLe32 data 0) (readLe32 data 4)) :
    (∀ e ∈ (handleFlashStream s data).1, InRange b e) ∧
      ∀ st ∈ (handleFlashStream s data).2.2, StreamFits b st ∧ st.sector < st.numSectors := by
  obtain ⟨_,hok,hmap⟩ := handleFlashStream_accepted hacc
  obtain ⟨hfirst,hrest⟩ := handleFlashStream_events (s := s) hok hmap
  have hfit : StreamFits b (streamStart b data) :=
    ⟨sectorFits_of_inside (readLe32_lt data 4) hin,fun p hp => by cases hp⟩
  have hn : (streamStart b data).sector+numSectors b (readLe32 data 4) =
      (streamStart b data).numSectors := by rw [streamStart,Nat.zero_add]
  obtain ⟨hev,hnext⟩ := streamAdvance_inRange _ _ s hn hfit
  rw [hfirst,hrest]
  refine ⟨fun e he => ?_,hnext⟩
  rcases mem_cons.mp he with rfl | he
  · trivial
  · exact hev e he

lemma streamSafe_iff (hf : flashAddr < 4294967296)
    (hs : size < 4294967296) : StreamSafe b flashAddr size ↔
      (streamAccepted b flashAddr size = true → 12+(numSectors b size+7)/8 ≤ maxRequest →
        streamInside b flashAddr size) := by
  constructor
  · intro hsafe hacc hmap
    obtain ⟨h0,h4⟩ := readLe32_fields hf hs (List.replicate (4+(numSectors b size+7)/8) 0)
    have hlen : (writeLe32 flashAddr++(writeLe32 size++
        List.replicate (4+(numSectors b size+7)/8) (0 : Byte))).length =
        12+(numSectors b size+7)/8 := by
      simp only [length_append,writeLe32_length,length_replicate]
      omega
    have hzero : ∀ x ∈ (writeLe32 flashAddr++(writeLe32 size++
        List.replicate (4+(numSectors b size+7)/8) (0 : Byte))).drop 12, x = 0#8 := by
      intro x hx
      rw [drop_append,drop_of_length_le (by simp),nil_append,drop_append,
        drop_of_length_le (by simp),nil_append] at hx
      exact eq_of_mem_replicate (mem_of_mem_drop hx)
    generalize writeLe32 flashAddr++(writeLe32 size++
      List.replicate (4+(numSectors b size+7)/8) (0 : Byte)) = data at h0 h4 hlen hzero
    obtain ⟨hfirst,_⟩ := handleFlashStream_events (s := blankMachine b fun _ => 0)
      (show streamAccepted b (readLe32 data 0) (readLe32 data 4) = true by rw [h0,h4]; exact hacc)
      (by rw [h4]; omega)
    have hall := hsafe (blankMachine b fun _ => 0) data [] (by omega) h0 h4 (by rw [hfirst]; rfl)
    simp only [streamAccepted,Bool.and_eq_true,decide_eq_true_eq] at hacc
    refine inside_of_erases hf hs hacc.2 (fun i hi => hall _ ?_)
    have hmem := streamAdvance_blank (numSectors b size) (streamStart b data)
      (blankMachine b fun _ => 0) (blankMachine_blank _) rfl hzero i hi
    rw [show (streamStart b data).flashAddr = flashAddr from h0,
      show (streamStart b data).sector = 0 from rfl,Nat.zero_add] at hmem
    rw [streamTrace,hfirst,h4]
    exact mem_append_left _ (mem_cons_of_mem _ hmem)
  · rintro hcond s data rxs hmax rfl rfl hacc e he
    obtain ⟨_,hok,hmap⟩ := handleFlashStream_accepted hacc
    obtain ⟨hev,hnext⟩ := handleFlashStream_inRange s hacc (hcond hok (by omega))
    rw [streamTrace] at he
    rcases mem_append.mp he with he | he
    · exact hev e he
    · exact streamRun_inRange rxs _ _ hnext e he

/-! ### All three commands -/

/-- Which requests keep every erase and program inside the chip. -/
theorem flash_requests_inRange_iff (b : Board) (addr size : ℕ) (ha : addr < 4294967296)
    (hs : size < 4294967296) :
    (EraseSafe b addr size ↔
      (eraseAccepted b addr size = true → addr+size ≤ b.flashInfo.size)) ∧
    (∀ ramAddr < 4294967296, ProgramSafe b ramAddr addr size ↔
      (programAccepted b ramAddr addr size = true →
        (addr+size+b.flashInfo.sectorSize-1)/b.flashInfo.sectorSize*b.flashInfo.sectorSize ≤
          b.flashInfo.size)) ∧
    (StreamSafe b addr size ↔
      (streamAccepted b addr size = true → 12+(numSectors b size+7)/8 ≤ maxRequest →
        streamInside b addr size)) :=
  ⟨eraseSafe_iff ha hs,fun _ hr => programSafe_iff hr ha hs,streamSafe_iff ha hs⟩

theorem nor16_upload_inRange :
    EraseSafe (.withNor .hi3516ev300 0x18) 0xF00000 0x100000 ∧
    ProgramSafe (.withNor .hi3516ev300 0x18) 0x41000000 0xF00000 0x100000 ∧
    StreamSafe (.withNor .hi3516ev300 0x18) 0xF00000 0x100000 := by
  obtain ⟨herase,hprogram,hstream⟩ := flash_requests_inRange_iff (.withNor .hi3516ev300 0x18)
    0xF00000 0x100000 (by decide) (by decide)
  exact ⟨herase.mpr fun _ => by decide,(hprogram 0x41000000 (by decide)).mpr fun _ => by decide,
    hstream.mpr fun _ _ => .inr (by decide)⟩

/-- `addr + size` is `0x10000` modulo 2^32: the request is accepted and the sector at
`0xFFFF0000` of a 16 MiB chip is erased. -/
theorem erase_accepted_beyond_chip :
    Accepted (handleErase (blankMachine (.withNor .hi3516ev300 0x18) fun _ => 0)
      (writeLe32 0xFFFF0000++writeLe32 0x20000)).1 ∧
    Event.erase 0xFFFF0000 ∈ (handleErase (blankMachine (.withNor .hi3516ev300 0x18) fun _ => 0)
      (writeLe32 0xFFFF0000++writeLe32 0x20000)).1 ∧
    ¬InRange (.withNor .hi3516ev300 0x18) (.erase 0xFFFF0000) := by
  obtain ⟨h0,h4⟩ := readLe32_fields (show 0xFFFF0000 < 4294967296 by decide)
    (show 0x20000 < 4294967296 by decide) []
  rw [append_nil] at h0 h4
  obtain ⟨progress,last,_,hev⟩ := handleErase_events
    (blankMachine (.withNor .hi3516ev300 0x18) fun _ => 0)
    (writeLe32 0xFFFF0000++writeLe32 0x20000) (by simp) (by rw [h0,h4]; decide)
  rw [h0,h4] at hev
  rw [hev]
  refine ⟨rfl,?_,show ¬0xFFFF0000/0x10000*0x10000+0x10000 ≤ 0x1000000 by decide⟩
  exact mem_cons_of_mem _ (mem_append_left _
    ((eraseLoop_blank progress _ 0 _ (blankMachine_blank _)).2 _ (by decide)))

end Defib.FlashRangeSafety
