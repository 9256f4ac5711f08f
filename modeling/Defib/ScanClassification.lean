import Defib.ScanFlash

/-!
# What a scan says of a NOR sector

The handler reads a sector in pieces of at most 128 KiB and carries the checksum, the first
byte and two flags from piece to piece; the byte loop over a piece ends when neither flag
can change any more. On a flash that reads the same every time the flags tell whether all
bytes of the sector are 0xFF or equal, the second checksum agrees with the first, and each
sector gets one entry in the order of the sectors.
-/
namespace Defib.ScanClassification
open List Words BlockMemory Crc32 Spans Boards FlashDevice AgentMachine ScanFlash

/-! ### The byte loop -/

lemma judgeBytes_eq (first : Byte) (xs : List Byte) (allFf allSame : Bool) :
    judgeBytes first xs allFf allSame =
      (allFf && xs.all (· = 0xFF),allSame && xs.all (· = first)) := by
  induction xs generalizing allFf allSame with
  | nil => simp [judgeBytes]
  | cons x xs ih =>
    have hflag : ∀ (y : Byte) (flag : Bool),
        (if x ≠ y then false else flag) = (flag && decide (x = y)) := by
      intro y flag
      by_cases hy : x = y <;> simp [hy]
    rw [judgeBytes,hflag,hflag]
    by_cases hgo : (allFf || allSame) = true
    · rw [if_pos hgo,ih,all_cons,all_cons,Bool.and_assoc,Bool.and_assoc]
    · rw [if_neg hgo]
      rw [Bool.or_eq_true,not_or,Bool.not_eq_true,Bool.not_eq_true] at hgo
      rw [hgo.1,hgo.2,Bool.false_and,Bool.false_and]

/-- Pass 1 with every byte looked at. -/
def readSector (fl : FlashReads) (start : ℕ) : List (ℕ × ℕ) → Pass → Option Pass
  | [],p => some p
  | (off,n)::ps,p =>
    match fl.scanRead (start+off) n with
    | none => none
    | some bytes =>
      let first := if off = 0 then bytes.headD 0 else p.first
      readSector fl start ps ⟨crc32 p.crc bytes,first,p.allFf && bytes.all (· = 0xFF),
        p.allSame && bytes.all (· = first)⟩

theorem passOne_eq_readSector (fl : FlashReads) (start : ℕ) (ps : List (ℕ × ℕ)) (p : Pass) :
    passOne fl start ps p = readSector fl start ps p := by
  induction ps generalizing p with
  | nil => rfl
  | cons piece ps ih =>
    obtain ⟨off,n⟩ := piece
    rw [passOne,readSector]
    cases fl.scanRead (start+off) n with
    | none => rfl
    | some bytes => simp only [judgeBytes_eq,ih]

/-! ### A flash that reads the same every time -/

/-- Every read of the flash, and every checksum of it, is that of `content`. -/
def ReadsAs (g : Geometry) (fl : FlashReads) (content : ℕ → Byte) : Prop :=
  ∀ off n,off+n ≤ g.size → fl.scanRead off n = some (slice content off n) ∧
    fl.scanCrc off n = crc32 0 (slice content off n)

section
variable {g : Geometry} {fl : FlashReads} {content : ℕ → Byte}

lemma passOne_rest (h : ReadsAs g fl content) (start : ℕ) {k : ℕ} (hk : 0 < k) (a n : ℕ)
    (ha : 0 < a) (hend : start+a+n ≤ g.size) (p : Pass) :
    passOne fl start (spans (fun _ => k) a n) p =
      some ⟨crc32 p.crc (slice content (start+a) n),p.first,
        p.allFf && (slice content (start+a) n).all (· = 0xFF),
        p.allSame && (slice content (start+a) n).all (· = p.first)⟩ := by
  induction a, n using spans_induction (l := fun _ => k) (fun _ => hk) generalizing p with
  | done a => simp [passOne,crc32_nil]
  | piece a n hn ih =>
    rw [spans_pos (fun _ => hk) a n hn]
    generalize hc : min k n = c at ih ⊢
    have hread := (h (start+a) c (by omega)).1
    have hsplit := slice_add content (start+a) c (n-c)
    rw [Nat.add_sub_of_le (by omega)] at hsplit
    rw [passOne,hread]
    simp only [if_neg (show a ≠ 0 by omega),judgeBytes_eq]
    rw [ih (by omega) (by omega),hsplit,crc32_append,all_append,all_append,
      ← Nat.add_assoc]
    simp only [Bool.and_assoc]

lemma passOne_sector (h : ReadsAs g fl content) (start : ℕ) {k n : ℕ} (hk : 0 < k)
    (hn : 0 < n) (hend : start+n ≤ g.size) :
    passOne fl start (pieces k n) ⟨0,0,true,true⟩ =
      some ⟨crc32 0 (slice content start n),content start,
        (slice content start n).all (· = 0xFF),
        (slice content start n).all (· = content start)⟩ := by
  rw [pieces,spans_pos (fun _ => hk) 0 n hn]
  generalize hc : min k n = c
  have hread := (h start c (by omega)).1
  have hsplit := slice_add content start c (n-c)
  rw [Nat.add_sub_of_le (by omega)] at hsplit
  have hhead : (slice content start c).headD 0 = content start := by
    obtain ⟨c',rfl⟩ : ∃ c',c = c'+1 := ⟨c-1,by omega⟩
    rw [slice_succ]
    rfl
  rw [passOne,Nat.add_zero,hread]
  simp only [if_true,hhead,judgeBytes_eq,Bool.true_and]
  rw [passOne_rest h start hk (0+c) (n-c) (by omega) (by omega),hsplit,crc32_append,
    all_append,all_append,Nat.zero_add]

/-- The verdict and the checksum are those of the sector's bytes. -/
structure Judged (bytes : List Byte) (v : Verdict) : Prop where
  crc : v.crc = crc32 0 bytes
  empty : v.status = .empty ↔ ∀ x ∈ bytes,x = 0xFF
  stuckZero : v.status = .stuckZero ↔ ∀ x ∈ bytes,x = 0x00
  stuckPattern : v.status = .stuckPattern ↔ ∃ y,y ≠ 0xFF ∧ y ≠ 0x00 ∧ ∀ x ∈ bytes,x = y
  good : v.status = .good ↔ ¬∃ y,∀ x ∈ bytes,x = y

lemma judged_tests {bytes : List Byte} {first : Byte} (hfirst : first ∈ bytes) :
    Judged bytes
      (if bytes.all (· = 0xFF) then ⟨.empty,crc32 0 bytes⟩
       else if bytes.all (· = first) && first = 0 then ⟨.stuckZero,crc32 0 bytes⟩
       else if bytes.all (· = first) then ⟨.stuckPattern,crc32 0 bytes⟩
       else ⟨.good,crc32 0 bytes⟩) := by
  have hall : ∀ y : Byte,bytes.all (· = y) = true ↔ ∀ x ∈ bytes,x = y := by simp
  -- all bytes are `y` exactly if all are the first one and that is `y`
  have hsame : ∀ y : Byte,(∀ x ∈ bytes,x = y) ↔ (∀ x ∈ bytes,x = first) ∧ first = y := by
    refine fun y => ⟨fun h => ?_,fun h x hx => (h.1 x hx).trans h.2⟩
    have hy := h first hfirst
    exact ⟨fun x hx => (h x hx).trans hy.symm,hy⟩
  have hsome : (∃ y,∀ x ∈ bytes,x = y) ↔ ∀ x ∈ bytes,x = first :=
    ⟨fun ⟨y,h⟩ => ((hsame y).mp h).1,fun h => ⟨first,h⟩⟩
  have hother : (∃ y : Byte,y ≠ 0xFF ∧ y ≠ 0 ∧ ∀ x ∈ bytes,x = y) ↔
      (∀ x ∈ bytes,x = first) ∧ first ≠ 0xFF ∧ first ≠ 0 := by
    constructor
    · rintro ⟨y,hff,hzero,h⟩
      obtain ⟨hfirst,rfl⟩ := (hsame y).mp h
      exact ⟨hfirst,hff,hzero⟩
    · rintro ⟨h,hff,hzero⟩
      exact ⟨first,hff,hzero,h⟩
  have hff : first = 0xFF → first ≠ 0 := by
    rintro rfl
    decide
  simp only [Bool.and_eq_true,hall,decide_eq_true_eq,hsame 0xFF]
  refine ⟨by split_ifs <;> rfl,Iff.trans ?_ (hsame 0xFF).symm,Iff.trans ?_ (hsame 0).symm,
    Iff.trans ?_ hother.symm,Iff.trans ?_ (not_congr hsome).symm⟩
  all_goals
    split_ifs with hempty hzero hpattern
    all_goals
      simp only [true_iff,false_iff]
      tauto

lemma scanSector_judged (hnor : g.isNand = false) (h : ReadsAs g fl content) {sz s : ℕ}
    (hsz : 0 < sz) (hend : s*sz+sz ≤ g.size) :
    Judged (slice content (s*sz) sz) (scanSector g fl sz s) := by
  have hfirst : content (s*sz) ∈ slice content (s*sz) sz :=
    mem_map.mpr ⟨0,mem_range.mpr hsz,rfl⟩
  have hpass := passOne_sector h (s*sz) (k := scanBufSize) (by decide) hsz hend
  have hcrc := (h (s*sz) sz hend).2
  have htests := judged_tests hfirst
  simp only [scanSector,hnor,hpass,hcrc,Bool.false_and,Bool.false_eq_true,if_false,ne_eq,
    not_true_eq_false,decide_false,Bool.and_false]
  exact htests

end

/-! ### The flash of a board -/

section
variable {b : Board}

def scanRegReadLimit : ℕ := 0x1000000

def scanViaWindow (b : Board) (off : ℕ) : Bool :=
  b.config.spiDriver = .fmc100 && b.flashInfo.flashType ≠ .nand && scanRegReadLimit ≤ off

def geometry (b : Board) : Geometry where
  readable := b.flashReadable
  size := b.flashInfo.size
  sectorSize := b.flashInfo.sectorSize
  isNand := b.flashInfo.flashType = .nand
  size_lt := b.flashInfo_size_lt

/-- `scan_read` and `scan_crc`. The spare bytes of a NAND flash are not part of the machine. -/
def machineReads (oob : ℕ → Option Byte) (s : Machine b) : FlashReads where
  readOob := oob
  scanRead off n := some (if scanViaWindow b off then loadBytes s.mem (b.config.flashMem+off) n
    else (s.flashRead off n).1)
  scanCrc off n := if scanViaWindow b off then crc32 0 (loadBytes s.mem (b.config.flashMem+off) n)
    else (s.flashCrc32 off n).1

/-- The reads of a scan do not disturb each other. -/
theorem machineReads_flashRead (oob : ℕ → Option Byte) (s : Machine b) (a n : ℕ) :
    machineReads oob (s.flashRead a n).2 = machineReads oob s ∧
      machineReads oob (s.flashCrc32 a n).2 = machineReads oob s := by
  have hsame (t : Machine b) (hmem : t.mem = s.mem) (hview : t.dev.view = s.dev.view) :
      machineReads oob t = machineReads oob s := by
    simp only [machineReads,Machine.flashRead,Machine.flashCrc32,Dev.flashRead_eq,
      Dev.flashCrc32_eq,hmem,hview]
  exact ⟨hsame _ rfl (Dev.flashRead_keeps s.dev a n).2.2,
    hsame _ rfl (Dev.flashCrc32_keeps s.dev a n).2.2⟩

/-- Where no sector is read through the window, a scan sees what `CMD_READ` sees. -/
theorem machineReads_readsAs (oob : ℕ → Option Byte) (s : Machine b)
    (h : ∀ off < b.flashInfo.size,scanViaWindow b off = false) :
    ReadsAs (geometry b) (machineReads oob s) s.dev.view := by
  intro off n hend
  have hend' : off+n ≤ b.flashInfo.size := hend
  simp only [machineReads,Machine.flashRead,Machine.flashCrc32,Dev.flashRead_eq,Dev.flashCrc32_eq]
  rcases Nat.eq_zero_or_pos n with rfl | hn
  · exact ⟨congrArg some (ite_self _),ite_self _⟩
  · rw [h off (by omega)]
    exact ⟨rfl,rfl⟩

end

/-! ### The scan -/

/-- For a NOR flash that reads the same every time the scan sends the sector count, packets of
at most eight results and `ACK_OK`; the results are those of the sectors in order. -/
theorem nor_scan_classifies {g : Geometry} {fl : FlashReads} {content : ℕ → Byte}
    (hnor : g.isNand = false) (hnum : numSectors g ≠ 0) (h : ReadsAs g fl content) :
    ∃ batches : List (List Verdict),
      handleScan g fl = ⟨rspScan,writeLe32 (numSectors g)⟩::
        (batches.map batchFrame++[ack ackOk]) ∧
      (∀ batch ∈ batches,batch.length ≤ 8) ∧ batches.flatten.length = numSectors g ∧
      ∀ s < numSectors g,∃ v,batches.flatten[s]? = some v ∧
        Judged (slice content (s*sectorSz g) (sectorSz g)) v := by
  obtain ⟨bs,hframes,hsmall,hall⟩ := scanFrames_batches g fl hnum
  refine ⟨bs,?_,fun batch hb => (hsmall batch hb).2,?_,?_⟩
  · rw [handleScan,hframes,scanAck,if_neg hnum]
    rfl
  · rw [hall,verdicts_length]
  · intro s hs
    refine ⟨scanSector g fl (sectorSz g) s,?_,?_⟩
    · rw [hall,verdicts,getElem?_map,getElem?_range hs]
      rfl
    · have hpos : 0 < sectorSz g := by
        rw [sectorSz]
        split_ifs
        · decide
        · omega
      refine scanSector_judged hnor h hpos ?_
      have hread : numSectors g ≤ g.size/sectorSz g := by
        rw [numSectors]
        split_ifs
        · exact le_rfl
        · exact Nat.zero_le _
      have hle := (Nat.le_div_iff_mul_le hpos).mp (Nat.le_trans hs hread)
      rwa [Nat.succ_mul] at hle

/-- Two sectors of two bytes, the first one empty. -/
def small : Geometry := ⟨true,4,2,false,by decide⟩

def smallReads : FlashReads where
  readOob _ := none
  scanRead off n := some (slice (fun x => if x < 2 then 0xFF else 0) off n)
  scanCrc off n := crc32 0 (slice (fun x => if x < 2 then 0xFF else 0) off n)

theorem small_scan_classified : ∃ batches : List (List Verdict),
    handleScan small smallReads = ⟨rspScan,writeLe32 2⟩::(batches.map batchFrame++[ack ackOk]) ∧
    batches.flatten.length = 2 := by
  have h : ReadsAs small smallReads (fun x => if x < 2 then 0xFF else 0) :=
    fun _ _ _ => ⟨rfl,rfl⟩
  obtain ⟨batches,hframes,-,hlen,-⟩ := nor_scan_classifies rfl (by decide) h
  exact ⟨batches,hframes,hlen⟩

end Defib.ScanClassification
