import Defib.AddressSeparation

/-!
# Where received bytes are stored

The checks of `handle_write` and `handle_selfupdate` know where RAM begins but not where
it ends, and the staging area of a flash write lies below the agent. For every request the
stores of all runs stay inside RAM, and the staging area outside the running agent, exactly
under a bound on the size that the code does not check.
-/
namespace Defib.RamWriteSafety
open Words BlockMemory Boards FlashDevice AgentMachine AgentTransfers TransferRuns
open AddressSeparation

variable {b : Board}

def InWindow (b : Board) (x : ℕ) : Prop := b.config.ramBase ≤ x ∧ x < b.config.ramBase+ramSize

def Footprint (b : Board) (x : ℕ) : Prop :=
  b.config.loadAddr-0x10000 ≤ x ∧ x < b.config.loadAddr+0x100000

/-- Every run of the transfer stores inside RAM; one that is `staged` by the agent's own choice
collects its bytes outside the agent. -/
def StoresSafe (b : Board) (t : Transfer) (staged : Prop) : Prop :=
  ∀ (s : Machine b) rxs x,(Touches (transferRun s t rxs).1 x → InWindow b x) ∧
    (staged → Touches (beforeReply (transferRun s t rxs).1) x → ¬Footprint b x)

def WriteSafe (b : Board) (data : List Byte) : Prop :=
  ∀ t,(startTransfer (writeTransfer b) data).2 = .transfer t → StoresSafe b t (t.job ≠ .ram)

def UpdateSafe (b : Board) (data : List Byte) : Prop :=
  ∀ t,(startTransfer (updateTransfer b) data).2 = .transfer t →
    StoresSafe b t (readLe32 data 0 = b.config.loadAddr)

/-- A flash write that fits below the agent, or a write that ends inside RAM. -/
def WriteFits (b : Board) (addr size : ℕ) : Prop :=
  if flashRouted b addr size = true then
    flashWriteAccepted b addr size = true → flashStaging b+size ≤ b.config.loadAddr-0x10000
  else ramWriteAccepted b addr size = true → addr+size ≤ b.config.ramBase+ramSize

/-- An update whose staging area ends inside RAM. -/
def UpdateFits (b : Board) (addr size : ℕ) : Prop :=
  updateAccepted b addr size = true → addr+0x100000+size ≤ b.config.ramBase+ramSize

lemma Soc.load_above (soc : Soc) : soc.config.ramBase+0x1000000 ≤ soc.config.loadAddr ∧
    soc.config.loadAddr ≤ soc.config.ramBase+0x1007000 := by
  cases soc <;> decide

/-! ### Runs of a transfer -/

lemma exists_touches_dest (s : Machine b) {t : Transfer} (h0 : t.received = 0) {k : ℕ}
    (hk : k < t.size) : ∃ rxs,Touches (beforeReply (transferRun s t rxs).1) (u32 (t.dest+k)) := by
  obtain ⟨n,hn⟩ : ∃ n,t.size = n+1 := ⟨t.size-1,by omega⟩
  obtain ⟨s',_,hrun⟩ := transferRun_bytes n s t (by omega)
  refine ⟨List.replicate (n+1) byteFrame,?_⟩
  rw [hrun,h0,Nat.add_zero]
  exact touches_before_append (touches_byteStores (by omega)) (byteStores_not_reply _ _)

lemma startTransfer_eq {start : List Byte → Option Transfer} {data : List Byte} {t : Transfer} :
    (startTransfer start data).2 = .transfer t ↔ 12 ≤ data.length ∧ start data = some t := by
  unfold startTransfer
  split_ifs with hlen
  · exact ⟨nofun,fun h => absurd h.1 (by omega)⟩
  · cases hs : start data with
    | none => exact ⟨nofun,nofun⟩
    | some u =>
      constructor
      · intro h
        cases h
        exact ⟨by omega,rfl⟩
      · rintro ⟨_,h⟩
        cases h
        rfl

lemma storesSafe_iff {t : Transfer} {staged : Prop} (h0 : t.received = 0)
    (hcopy : ∀ addr,t.job = .update addr → ∀ x,Covers addr t.size x → InWindow b x ∨
      ∃ y,Covers t.dest t.size y ∧ ¬InWindow b y) :
    StoresSafe b t staged ↔
      (∀ x,Covers t.dest t.size x → InWindow b x ∧ (staged → ¬Footprint b x)) := by
  constructor
  · rintro hsafe x ⟨k,hk,rfl⟩
    obtain ⟨rxs,h⟩ := exists_touches_dest (.idle b (fun _ => 0) (fun _ => 0) (fun _ => 0) 0) h0 hk
    obtain ⟨hwin,hfoot⟩ := hsafe _ rxs _
    exact ⟨hwin (touches_of_before h),fun hst => hfoot hst h⟩
  · intro hcovers s rxs x
    have hle : t.received ≤ t.size := by omega
    refine ⟨fun h => ?_,fun hst h => (hcovers x (transferRun_before s t rxs hle h)).2 hst⟩
    rcases transferRun_touches s t rxs hle h with hdest | ⟨addr,hjob,hcov⟩
    · exact (hcovers x hdest).1
    · rcases hcopy addr hjob x hcov with hin | ⟨y,hy,hout⟩
      · exact hin
      · exact absurd (hcovers y hy).1 hout

lemma covers_of_le {base size x : ℕ} (hle : base+size ≤ 4294967296) (h : Covers base size x) :
    base ≤ x ∧ x < base+size := by
  obtain ⟨k,hk,rfl⟩ := h
  rw [u32_of_lt (by omega)]
  omega

lemma covers_at {base size x : ℕ} (hlo : base ≤ x) (hhi : x < base+size) (hx : x < 4294967296) :
    Covers base size x :=
  ⟨x-base,by omega,by rw [Nat.add_sub_cancel' hlo,u32_of_lt hx]⟩

/-! ### The three destinations -/

lemma flash_storesSafe_iff (flashAddr size crc : ℕ) :
    StoresSafe b ⟨.flash flashAddr,flashStaging b,size,crc,0⟩ True ↔
      flashStaging b+size ≤ b.config.loadAddr-0x10000 := by
  obtain ⟨hload,hload'⟩ := Soc.load_above b.soc
  obtain ⟨_,_,_,_,_,hmax,_⟩ := Soc.ram_above b.soc
  rw [storesSafe_iff rfl (fun _ h => by cases h)]
  unfold InWindow Footprint ramSize flashStaging
  simp only [Board.config]
  constructor
  · intro h
    by_contra hover
    -- the first address of the agent is stored to
    have hfoot := h (b.soc.config.loadAddr-0x10000) (covers_at (by omega) (by omega) (by omega))
    exact hfoot.2 trivial ⟨Nat.le_refl _,by omega⟩
  · intro hfit x hx
    have hrange := covers_of_le (by omega) hx
    exact ⟨by omega,fun _ hfoot => by omega⟩

lemma ram_storesSafe_iff {addr size : ℕ} (crc : ℕ) (hacc : ramWriteAccepted b addr size = true)
    (ha : addr < 4294967296) (hs : size < 4294967296) :
    StoresSafe b ⟨.ram,addr,size,crc,0⟩ False ↔ addr+size ≤ b.config.ramBase+ramSize := by
  simp only [ramWriteAccepted,Bool.and_eq_true,decide_eq_true_eq] at hacc
  obtain ⟨⟨⟨hpos,_⟩,hlow⟩,hsum⟩ := hacc
  unfold u32 at hsum
  rw [storesSafe_iff rfl (fun _ h => by cases h)]
  simp only [InWindow]
  constructor
  · intro h
    by_contra hover
    have hlast := (h (addr+size-1) (covers_at (by omega) (by omega) (by omega))).1
    omega
  · intro hfit x hx
    have hrange := covers_of_le (by omega) hx
    exact ⟨by omega,False.elim⟩

lemma update_storesSafe_iff {addr size : ℕ} (crc : ℕ) (hacc : updateAccepted b addr size = true)
    (ha : addr < 4294967296) (hs : size < 4294967296) :
    StoresSafe b ⟨.update addr,updateStaging addr,size,crc,0⟩ (addr = b.config.loadAddr) ↔
      addr+0x100000+size ≤ b.config.ramBase+ramSize := by
  obtain ⟨hload,hload'⟩ := Soc.load_above b.soc
  obtain ⟨_,_,_,_,_,hmax,hmin⟩ := Soc.ram_above b.soc
  simp only [updateAccepted,Bool.and_eq_true,decide_eq_true_eq,maxUpdateSize,Board.config] at hacc
  obtain ⟨⟨⟨hpos,hsmall⟩,hlow⟩,hsum⟩ := hacc
  unfold u32 at hsum
  -- past the end of RAM, or wrapped around to below its beginning
  have hout (hover : ¬addr+0x100000+size ≤ b.config.ramBase+ramSize) :
      ∃ y,Covers (updateStaging addr) size y ∧ ¬InWindow b y := by
    refine ⟨u32 (updateStaging addr+(size-1)),⟨size-1,by omega,rfl⟩,?_⟩
    unfold ramSize at hover
    unfold InWindow ramSize updateStaging u32
    simp only [Board.config] at hover ⊢
    omega
  rw [storesSafe_iff rfl]
  · constructor
    · intro h
      by_contra hover
      obtain ⟨y,hy,hno⟩ := hout hover
      exact hno (h y hy).1
    · intro hfit x hx
      unfold ramSize at hfit
      simp only [Board.config] at hfit
      have hstage : updateStaging addr = addr+0x100000 := u32_of_lt (by omega)
      simp only [hstage] at hx
      have hrange := covers_of_le (by omega) hx
      unfold InWindow Footprint ramSize
      simp only [Board.config]
      exact ⟨by omega,fun heq hfoot => by omega⟩
  · intro addr' hjob x hx
    cases hjob
    have hcopy : Covers addr size x := hx
    by_cases hover : addr+0x100000+size ≤ b.config.ramBase+ramSize
    · have hrange := covers_of_le (by omega) hcopy
      unfold InWindow
      simp only [Board.config] at hover ⊢
      exact .inl (by omega)
    · exact .inr (hout hover)

/-! ### Every request -/

lemma writeSafe_iff (b : Board) (data : List Byte) : WriteSafe b data ↔
    (12 ≤ data.length → WriteFits b (readLe32 data 0) (readLe32 data 4)) := by
  unfold WriteSafe WriteFits
  simp only [startTransfer_eq,writeTransfer]
  have ha := readLe32_lt data 0
  have hs := readLe32_lt data 4
  split_ifs with hroute hflash hram
  · simp only [Option.some.injEq]
    rw [← flash_storesSafe_iff (readLe32 data 0) (readLe32 data 4) (readLe32 data 8)]
    constructor
    · intro h hlen _
      have hsafe := h _ ⟨hlen,rfl⟩
      simpa using hsafe
    · rintro h t ⟨hlen,rfl⟩
      simpa using h hlen hflash
  · refine ⟨fun _ _ h => absurd h hflash,?_⟩
    rintro _ t ⟨_,h⟩
    cases h
  · simp only [Option.some.injEq]
    rw [← ram_storesSafe_iff (readLe32 data 8) hram ha hs]
    constructor
    · intro h hlen _
      have hsafe := h _ ⟨hlen,rfl⟩
      simpa using hsafe
    · rintro h t ⟨hlen,rfl⟩
      simpa using h hlen hram
  · refine ⟨fun _ _ h => absurd h hram,?_⟩
    rintro _ t ⟨_,h⟩
    cases h

lemma updateSafe_iff (b : Board) (data : List Byte) : UpdateSafe b data ↔
    (12 ≤ data.length → UpdateFits b (readLe32 data 0) (readLe32 data 4)) := by
  unfold UpdateSafe UpdateFits
  simp only [startTransfer_eq,updateTransfer]
  split_ifs with hacc
  · simp only [Option.some.injEq]
    rw [← update_storesSafe_iff (readLe32 data 8) hacc (readLe32_lt data 0) (readLe32_lt data 4)]
    constructor
    · intro h hlen _
      exact h _ ⟨hlen,rfl⟩
    · rintro h t ⟨hlen,rfl⟩
      exact h hlen hacc
  · exact ⟨fun _ _ h => absurd h hacc,fun _ t h => nomatch h.2⟩

/-- For every request: the stores of every run of an accepted `CMD_WRITE` or `CMD_SELFUPDATE` are
in RAM, and its staging area is off the agent, exactly if the range fits. -/
theorem received_stores_safe_iff (b : Board) (data : List Byte) :
    (WriteSafe b data ↔
      (12 ≤ data.length → WriteFits b (readLe32 data 0) (readLe32 data 4))) ∧
    (UpdateSafe b data ↔
      (12 ≤ data.length → UpdateFits b (readLe32 data 0) (readLe32 data 4))) :=
  ⟨writeSafe_iff b data,updateSafe_iff b data⟩

/-- A write of 16 MiB to a NOR flash runs over the agent from below; a write of one byte behind
the end of RAM and an update close to it are accepted, too. -/
theorem accepted_stores_unsafe :
    ¬WriteSafe (.withNor .hi3516ev300 0x18#8) (writeLe32 0++(writeLe32 0x1000000++writeLe32 0)) ∧
    ¬WriteSafe (.withNor .hi3516ev300 0x18#8) (writeLe32 0x48000000++(writeLe32 1++writeLe32 0)) ∧
    ¬UpdateSafe (.withNor .hi3516ev300 0x18#8)
      (writeLe32 0x47F00000++(writeLe32 1++writeLe32 0)) := by
  refine ⟨?_,?_,?_⟩
  · rw [writeSafe_iff]
    intro h
    exact absurd (h (by decide)) (by unfold WriteFits; decide)
  · rw [writeSafe_iff]
    intro h
    exact absurd (h (by decide)) (by unfold WriteFits; decide)
  · rw [updateSafe_iff]
    intro h
    exact absurd (h (by decide)) (by unfold UpdateFits; decide)

end Defib.RamWriteSafety
