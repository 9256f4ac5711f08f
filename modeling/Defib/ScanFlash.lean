import Defib.AgentMachine
import Defib.Spans
import Mathlib.Data.List.Flatten

/-!
# Scanning the flash

For `CMD_SCAN` the agent judges one sector after the other and sends the verdicts in
batches of eight, after a packet with the number of sectors and before a final
acknowledgement. A verdict carries no sector number: the client gives the verdicts
the numbers 0, 1, 2, … in the order in which they arrive. What the flash driver
returns while the scan runs is a parameter, so that a sector may read differently
the second time and a read may fail. An agent that answers with an acknowledgement
alone is taken for an old one, and the client asks for the checksum of every sector.
-/
namespace Defib.ScanFlash
open List Words Crc32 Spans AgentMachine

inductive SectorStatus where
  | good
  | empty
  | stuckZero
  | stuckPattern
  | unstable
  | readError
  | badBlock
  deriving DecidableEq, Repr

def SectorStatus.code : SectorStatus → Byte
  | good => 0x00
  | empty => 0x01
  | stuckZero => 0x02
  | stuckPattern => 0x03
  | unstable => 0x04
  | readError => 0x05
  | badBlock => 0x06

/-- `SectorStatus(status_byte)`, where an unknown byte counts as a read error. -/
def SectorStatus.ofByte (b : Byte) : SectorStatus :=
  (([good,empty,stuckZero,stuckPattern,unstable,readError,badBlock].find?
    (·.code = b)).getD readError)

lemma SectorStatus.ofByte_code (st : SectorStatus) : ofByte st.code = st := by
  cases st <;> rfl

structure Verdict where
  status : SectorStatus
  crc : BitVec 32
  deriving DecidableEq, Repr

/-- What the flash driver returns during a scan; `none` is a failed operation. -/
structure FlashReads where
  /-- The first spare byte of a block. -/
  readOob : ℕ → Option Byte
  scanRead : (off n : ℕ) → Option (List Byte)
  scanCrc : (off n : ℕ) → BitVec 32

/-- The flash as the agent knows it. -/
structure Geometry where
  readable : Bool
  size : ℕ
  sectorSize : ℕ
  isNand : Bool
  size_lt : size < 4294967296

section Agent
variable (g : Geometry) (fl : FlashReads)

/-- What pass 1 has found out about the bytes so far. -/
structure Pass where
  crc : BitVec 32
  first : Byte
  allFf : Bool
  allSame : Bool
  deriving DecidableEq, Repr

/-- `for (i = 0; i < n && (all_ff || all_same); i++)`. -/
def judgeBytes (first : Byte) : List Byte → Bool → Bool → Bool × Bool
  | [],allFf,allSame => (allFf,allSame)
  | x::xs,allFf,allSame =>
    if allFf || allSame then
      judgeBytes first xs (if x ≠ 0xFF then false else allFf) (if x ≠ first then false else allSame)
    else (allFf,allSame)

/-- Pass 1 over the pieces of a sector. -/
def passOne (start : ℕ) : List (ℕ × ℕ) → Pass → Option Pass
  | [],p => some p
  | (off,n)::ps,p =>
    match fl.scanRead (start+off) n with
    | none => none
    | some bytes =>
      let first := if off = 0 then bytes.headD 0 else p.first
      let flags := judgeBytes first bytes p.allFf p.allSame
      passOne start ps ⟨crc32 p.crc bytes,first,flags.1,flags.2⟩

def scanBufSize : ℕ := 128*1024

def scanSector (sectorSz s : ℕ) : Verdict :=
  if g.isNand && (fl.readOob s).any (· ≠ 0xFF) then ⟨.badBlock,0⟩
  else
    match passOne fl (s*sectorSz) (pieces scanBufSize sectorSz) ⟨0,0,true,true⟩ with
    | none => ⟨.readError,0⟩
    | some p =>
      if p.allFf then ⟨.empty,p.crc⟩
      else if p.allSame && p.first = 0 then ⟨.stuckZero,p.crc⟩
      else if p.allSame then ⟨.stuckPattern,p.crc⟩
      else if !g.isNand && fl.scanCrc (s*sectorSz) sectorSz ≠ p.crc then ⟨.unstable,p.crc⟩
      else ⟨.good,p.crc⟩

/-- `[status:1][crc32:4]`. -/
def entry (v : Verdict) : List Byte := v.status.code::writeLe32 v.crc.toNat

def scanBatchMax : ℕ := 8

/-- The sector loop: `left` sectors from `s` on, with the results not sent yet in `buf`. -/
def scanLoop (verdict : ℕ → Verdict) (numSectors : ℕ) : (left s : ℕ) → List Byte → List Frame
  | 0,_,_ => []
  | left+1,s,buf =>
    let buf := buf++entry (verdict s)
    if scanBatchMax*5 ≤ buf.length ∨ s = numSectors-1 then
      ⟨rspScan,buf⟩ :: scanLoop verdict numSectors left (s+1) []
    else scanLoop verdict numSectors left (s+1) buf

def sectorSz : ℕ := if g.sectorSize = 0 then 0x10000 else g.sectorSize

def numSectors : ℕ := if g.readable then g.size/sectorSz g else 0

def verdicts : List Verdict := (List.range (numSectors g)).map (scanSector g fl (sectorSz g))

/-- The `RSP_SCAN` packets of `handle_scan`. -/
def scanFrames : List Frame :=
  if numSectors g = 0 then []
  else ⟨rspScan,writeLe32 (numSectors g)⟩ ::
    scanLoop (scanSector g fl (sectorSz g)) (numSectors g) (numSectors g) 0 []

def scanAck : Frame := AgentMachine.ack (if numSectors g = 0 then ackFlashError else ackOk)

def handleScan : List Frame := scanFrames g fl++[scanAck g]

end Agent

structure SectorResult where
  index : ℕ
  address : ℕ
  status : SectorStatus
  crc32 : BitVec 32
  deriving DecidableEq, Repr

inductive ScanError where
  | timeout
  | header (cmd : Byte)
  | unexpected (cmd : Byte)
  deriving DecidableEq, Repr

/-- How a scan ends, with the sectors reported by then. -/
inductive ScanEnd where
  | returned (sectors : List SectorResult)
  | raised (reported : List SectorResult) (e : ScanError)
  deriving DecidableEq, Repr

/-- What the client knows of the flash, and what a fresh `get_info` would tell it. -/
structure Client where
  flashSize : ℕ
  sectorSize : ℕ
  infoFlashSize : ℕ
  deriving DecidableEq, Repr

section Client
variable (c : Client)

def decodeBatch (numSectors : ℕ) : List Byte → List SectorResult → List SectorResult
  | status::b₀::b₁::b₂::b₃::rest,sectors =>
    if sectors.length < numSectors then
      decodeBatch numSectors rest (sectors++[⟨sectors.length,sectors.length*c.sectorSize,
        .ofByte status,BitVec.ofNat 32 (readLe32 [b₀,b₁,b₂,b₃] 0)⟩])
    else sectors
  | _,sectors => sectors

/-- The loop of `scan_flash` after the header. Once all sectors are there one more packet
is taken, whatever it is. -/
def collectScan (numSectors : ℕ) : List SectorResult → List Frame → ScanEnd
  | sectors,[] => .raised sectors .timeout
  | sectors,f::fs =>
    if f.cmd = rspReady then collectScan numSectors sectors fs
    else if numSectors ≤ sectors.length then .returned sectors
    else if f.cmd = rspAck then .returned sectors
    else if f.cmd ≠ rspScan then .raised sectors (.unexpected f.cmd)
    else collectScan numSectors (decodeBatch c numSectors f.payload sectors) fs

/-- The answers to the two `CMD_CRC32` of a sector; `none` when `crc32` raises. -/
structure CrcAnswers where
  pass1 : ℕ → Option (BitVec 32)
  pass2 : ℕ → Option (BitVec 32)

def compatSectorSz : ℕ := if c.sectorSize = 0 then 0x10000 else c.sectorSize

def compatSectors : ℕ :=
  (if c.flashSize = 0 then c.infoFlashSize else c.flashSize)/compatSectorSz c

def emptyCrc : BitVec 32 := Crc32.crc32 0 (List.replicate (compatSectorSz c) 0xFF)

/-- One sector of `_scan_flash_compat`. -/
def compatVerdict (crcs : CrcAnswers) (i : ℕ) : Verdict :=
  match crcs.pass1 i with
  | none => ⟨.readError,0⟩
  | some crc1 =>
    if crc1 = emptyCrc c then ⟨.empty,crc1⟩
    else if (crcs.pass2 i).getD crc1 ≠ crc1 then ⟨.unstable,crc1⟩
    else ⟨.good,crc1⟩

/-- Sector results with consecutive numbers. -/
def numberedFrom (sectorSize : ℕ) : ℕ → List Verdict → List SectorResult
  | _,[] => []
  | k,v::vs => ⟨k,k*sectorSize,v.status,v.crc⟩ :: numberedFrom sectorSize (k+1) vs

def scanFlashCompat (crcs : CrcAnswers) : ScanEnd :=
  .returned (numberedFrom (compatSectorSz c) 0
    ((List.range (compatSectors c)).map (compatVerdict c crcs)))

/-- `scan_flash` from the first packet after `CMD_SCAN` on. -/
def scanFlash (crcs : CrcAnswers) : List Frame → ScanEnd
  | [] => .raised [] .timeout
  | f::fs =>
    if f.cmd = rspReady then scanFlash crcs fs
    else if f.cmd = rspAck then scanFlashCompat c crcs
    else if f.cmd ≠ rspScan ∨ f.payload.length < 4 then .raised [] (.header f.cmd)
    else collectScan c (readLe32 f.payload 0) [] fs

end Client

/-- The sector results carry the verdicts of their sectors. -/
def Attributed (vs : List Verdict) (sectors : List SectorResult) : Prop :=
  ∀ r ∈ sectors,vs[r.index]? = some ⟨r.status,r.crc32⟩

/-- Every reported sector result is the agent's for that sector, and a scan that returns
has one for every sector. -/
def Right (vs : List Verdict) : ScanEnd → Prop
  | .returned sectors => Attributed vs sectors ∧ ∀ i < vs.length,∃ r ∈ sectors,r.index = i
  | .raised reported _ => Attributed vs reported

/-- What the two checksums of a sector must be for the fallback to reach the verdict of
the scan. -/
def SameVerdict (c : Client) (crcs : CrcAnswers) (i : ℕ) (v : Verdict) : Prop :=
  match crcs.pass1 i with
  | none => v = ⟨.readError,0⟩
  | some crc1 => v.crc = crc1 ∧
      (v.status = .empty ∧ crc1 = emptyCrc c ∨
       v.status = .unstable ∧ crc1 ≠ emptyCrc c ∧ (crcs.pass2 i).getD crc1 ≠ crc1 ∨
       v.status = .good ∧ crc1 ≠ emptyCrc c ∧ (crcs.pass2 i).getD crc1 = crc1)

section Numbers
variable {sz : ℕ}

lemma numberedFrom_append (k : ℕ) (vs ws : List Verdict) :
    numberedFrom sz k (vs++ws) = numberedFrom sz k vs++numberedFrom sz (k+vs.length) ws := by
  induction vs generalizing k with
  | nil => rfl
  | cons v vs ih =>
    simp only [cons_append,numberedFrom,ih,length_cons]
    congr 3
    omega

@[simp] lemma numberedFrom_length (k : ℕ) (vs : List Verdict) :
    (numberedFrom sz k vs).length = vs.length := by
  induction vs generalizing k with
  | nil => rfl
  | cons v vs ih => rw [numberedFrom,length_cons,length_cons,ih]

lemma mem_numberedFrom {k : ℕ} {vs : List Verdict} {r : SectorResult} :
    r ∈ numberedFrom sz k vs ↔
      ∃ i v,vs[i]? = some v ∧ r = ⟨k+i,(k+i)*sz,v.status,v.crc⟩ := by
  induction vs generalizing k with
  | nil => simp [numberedFrom]
  | cons v vs ih =>
    rw [numberedFrom,mem_cons,ih]
    constructor
    · rintro (rfl | ⟨i,w,hw,rfl⟩)
      · exact ⟨0,v,rfl,rfl⟩
      · refine ⟨i+1,w,hw,?_⟩
        rw [Nat.add_right_comm,Nat.add_assoc]
    · rintro ⟨i,w,hw,rfl⟩
      cases i with
      | zero =>
        cases hw
        exact .inl rfl
      | succ i =>
        refine .inr ⟨i,w,hw,?_⟩
        rw [Nat.add_right_comm,Nat.add_assoc]

lemma right_numbered_iff (vs ws : List Verdict) :
    Right vs (.returned (numberedFrom sz 0 ws)) ↔ ws = vs := by
  constructor
  · rintro ⟨hattr,hall⟩
    have hsame : ∀ (i : ℕ) (v : Verdict),ws[i]? = some v → vs[i]? = some v := by
      intro i v hv
      have hr := hattr _ (mem_numberedFrom.mpr ⟨i,v,hv,rfl⟩)
      simpa using hr
    apply ext_getElem?
    intro i
    cases hw : ws[i]? with
    | some v => exact (hsame i v hw).symm
    | none =>
      rw [List.getElem?_eq_none_iff] at hw
      rw [eq_comm,List.getElem?_eq_none_iff]
      by_contra hlt
      -- a sector without a result would have to be numbered past the end
      obtain ⟨r,hr,hindex⟩ := hall i (Nat.lt_of_not_le hlt)
      obtain ⟨j,v,hv,rfl⟩ := mem_numberedFrom.mp hr
      obtain ⟨hj,-⟩ := List.getElem?_eq_some_iff.mp hv
      simp only [Nat.zero_add] at hindex
      omega
  · rintro rfl
    constructor
    · intro r hr
      obtain ⟨i,v,hv,rfl⟩ := mem_numberedFrom.mp hr
      simpa using hv
    · intro i hi
      exact ⟨_,mem_numberedFrom.mpr ⟨i,ws[i],getElem?_eq_getElem hi,rfl⟩,Nat.zero_add i⟩

end Numbers

lemma readLe32_crc (crc : BitVec 32) (rest : List Byte) :
    BitVec.ofNat 32 (readLe32 (writeLe32 crc.toNat++rest) 0) = crc := by
  rw [readLe32_writeLe32 _ crc.isLt,BitVec.ofNat_toNat,BitVec.setWidth_eq]

/-- An entry is the status and the checksum, lowest byte first. -/
theorem entry_bytes (v : Verdict) : ∃ b₀ b₁ b₂ b₃ : Byte,entry v = [v.status.code,b₀,b₁,b₂,b₃] ∧
    v.crc.toNat = b₀.toNat+256*b₁.toNat+65536*b₂.toNat+16777216*b₃.toNat := by
  have hlt := v.crc.isLt
  refine ⟨_,_,_,_,rfl,?_⟩
  simp only [BitVec.toNat_ofNat]
  omega

def batchFrame (vs : List Verdict) : Frame := ⟨rspScan,vs.flatMap entry⟩

section Packets
variable (c : Client)

lemma decodeBatch_entries (num : ℕ) (vs before : List Verdict) :
    decodeBatch c num (vs.flatMap entry) (numberedFrom c.sectorSize 0 before) =
      numberedFrom c.sectorSize 0 (before++vs.take (num-before.length)) := by
  induction vs generalizing before with
  | nil => simp [decodeBatch]
  | cons v vs ih =>
    have hone : decodeBatch c num (entry v++vs.flatMap entry)
        (numberedFrom c.sectorSize 0 before) =
        if before.length < num then decodeBatch c num (vs.flatMap entry)
          (numberedFrom c.sectorSize 0 (before++[v]))
        else numberedFrom c.sectorSize 0 before := by
      have hcrc := readLe32_crc v.crc []
      rw [numberedFrom_append,entry,writeLe32] at *
      simp only [cons_append,nil_append,decodeBatch,numberedFrom_length,
        SectorStatus.ofByte_code,numberedFrom,Nat.zero_add] at *
      rw [hcrc]
    rw [flatMap_cons,hone]
    by_cases hroom : before.length < num
    · obtain ⟨k,hk⟩ := Nat.exists_eq_add_of_lt hroom
      have hleft : num-before.length = k+1 := by omega
      have hleft' : num-(before++[v]).length = k := by
        rw [length_append,length_singleton]
        omega
      rw [if_pos hroom,ih,hleft,hleft',take_succ_cons,append_assoc]
      rfl
    · have hnone : num-before.length = 0 := by omega
      rw [if_neg hroom,hnone,take_zero,append_nil]

lemma collectScan_batches (num : ℕ) (status : Byte) (bs : List (List Verdict))
    (before : List Verdict) :
    collectScan c num (numberedFrom c.sectorSize 0 before)
      (bs.map batchFrame++[AgentMachine.ack status]) =
    .returned (numberedFrom c.sectorSize 0 (before++bs.flatten.take (num-before.length))) := by
  have hready : ¬ rspAck = rspReady := by decide
  have hready' : ¬ rspScan = rspReady := by decide
  have hack : ¬ rspScan = rspAck := by decide
  induction bs generalizing before with
  | nil => simp [collectScan,AgentMachine.ack,hready]
  | cons b bs ih =>
    rw [map_cons,cons_append,collectScan]
    simp only [batchFrame,hready',hack,if_false,numberedFrom_length,ne_eq,not_true_eq_false]
    by_cases hfull : num ≤ before.length
    · have hnone : num-before.length = 0 := by omega
      rw [if_pos hfull,hnone,take_zero,append_nil]
    · have hrest : num-(before.length+min (num-before.length) b.length) =
          num-before.length-b.length := by omega
      rw [if_neg hfull,decodeBatch_entries,ih,flatten_cons,take_append,
        append_assoc,length_append,length_take,hrest]

lemma scanFlash_header (crcs : CrcAnswers) (status : Byte) (payload : List Byte)
    (hlong : 4 ≤ payload.length) (bs : List (List Verdict)) :
    scanFlash c crcs (⟨rspScan,payload⟩::(bs.map batchFrame++[AgentMachine.ack status])) =
      .returned (numberedFrom c.sectorSize 0 (bs.flatten.take (readLe32 payload 0))) := by
  have hready : ¬ rspScan = rspReady := by decide
  have hack : ¬ rspScan = rspAck := by decide
  have hshort : ¬ payload.length < 4 := Nat.not_lt.mpr hlong
  rw [scanFlash]
  simp only [hready,hack,hshort,if_false,ne_eq,not_true_eq_false,or_self]
  generalize readLe32 payload 0 = num
  have hall := collectScan_batches c num status bs []
  rwa [length_nil,Nat.sub_zero,nil_append,numberedFrom] at hall

end Packets

section Loop
variable (verdict : ℕ → Verdict) {num : ℕ}

lemma entries_length (vs : List Verdict) : (vs.flatMap entry).length = vs.length*5 := by
  induction vs with
  | nil => rfl
  | cons v vs ih =>
    rw [flatMap_cons,length_append,ih,length_cons,entry,length_cons,
      writeLe32_length]
    omega

/-- The packets of the sector loop hold the verdicts in order; none is empty or has more
than a batch. -/
theorem scanLoop_batches (left s : ℕ) (held : List Verdict) (hnum : s+left = num)
    (hheld : left = 0 → held = []) (hfew : held.length < scanBatchMax) :
    ∃ bs : List (List Verdict),
      scanLoop verdict num left s (held.flatMap entry) = bs.map batchFrame ∧
      (∀ b ∈ bs,b ≠ [] ∧ b.length ≤ scanBatchMax) ∧
      bs.flatten = held++(List.range' s left).map verdict := by
  induction left generalizing s held with
  | zero => exact ⟨[],rfl,by simp,by simp [hheld rfl]⟩
  | succ left ih =>
    have hbuf : held.flatMap entry++entry (verdict s) = (held++[verdict s]).flatMap entry := by
      simp
    simp only [scanLoop,hbuf]
    by_cases hflush : scanBatchMax*5 ≤ ((held++[verdict s]).flatMap entry).length ∨ s = num-1
    · obtain ⟨bs,heq,hne,hall⟩ := ih (s+1) [] (by omega) (fun _ => rfl) (by decide)
      refine ⟨(held++[verdict s])::bs,?_,?_,?_⟩
      · rw [if_pos hflush,map_cons]
        exact congrArg _ heq
      · rw [forall_mem_cons]
        exact ⟨⟨by simp,by rw [length_append]; exact hfew⟩,hne⟩
      · rw [flatten_cons,hall,range'_succ]
        simp
    · obtain ⟨bs,heq,hne,hall⟩ := ih (s+1) (held++[verdict s]) (by omega) (by omega)
        (by rw [entries_length] at hflush; omega)
      refine ⟨bs,?_,hne,?_⟩
      · rw [if_neg hflush,heq]
      · rw [hall,range'_succ]
        simp

end Loop

section Scan
variable (c : Client) (crcs : CrcAnswers) (g : Geometry) (fl : FlashReads)

lemma scanFrames_batches (hnum : numSectors g ≠ 0) : ∃ bs : List (List Verdict),
    scanFrames g fl = ⟨rspScan,writeLe32 (numSectors g)⟩::bs.map batchFrame ∧
    (∀ b ∈ bs,b ≠ [] ∧ b.length ≤ scanBatchMax) ∧ bs.flatten = verdicts g fl := by
  obtain ⟨bs,heq,hne,hall⟩ := scanLoop_batches (scanSector g fl (sectorSz g))
    (numSectors g) 0 [] (Nat.zero_add _) (fun _ => rfl) (by decide)
  refine ⟨bs,?_,hne,?_⟩
  · rw [scanFrames,if_neg hnum]
    exact congrArg _ heq
  · rw [hall,verdicts,range_eq_range']
    rfl

lemma numSectors_lt : numSectors g < 4294967296 := by
  rw [numSectors]
  split
  · exact Nat.lt_of_le_of_lt (Nat.div_le_self _ _) g.size_lt
  · decide

lemma readLe32_num : readLe32 (writeLe32 (numSectors g)) 0 = numSectors g := by
  have hread := readLe32_writeLe32 _ (numSectors_lt g) []
  rwa [append_nil] at hread

lemma verdicts_length : (verdicts g fl).length = numSectors g := by
  rw [verdicts,length_map,length_range]

lemma sublist_eq_of_flatten {bs bs' : List (List Verdict)} (h : bs'.Sublist bs)
    (hne : ∀ b ∈ bs,b ≠ []) (hlen : bs.flatten.length ≤ bs'.flatten.length) : bs' = bs := by
  induction h with
  | slnil => rfl
  | cons b h ih =>
    rw [forall_mem_cons] at hne
    have hpos := length_pos_iff.mpr hne.1
    have hle := h.flatten.length_le
    rw [flatten_cons,length_append] at hlen
    omega
  | cons_cons b h ih =>
    rw [forall_mem_cons] at hne
    rw [flatten_cons,flatten_cons,length_append,length_append] at hlen
    rw [ih hne.2 (by omega)]

lemma sameVerdict_iff (i : ℕ) (v : Verdict) :
    SameVerdict c crcs i v ↔ compatVerdict c crcs i = v := by
  obtain ⟨status,crc⟩ := v
  rw [SameVerdict,compatVerdict]
  cases crcs.pass1 i with
  | none => exact eq_comm
  | some crc1 =>
    by_cases he : crc1 = emptyCrc c
    · simp only [if_pos he,Verdict.mk.injEq]
      constructor
      · rintro ⟨rfl,⟨rfl,-⟩ | ⟨-,hne,-⟩ | ⟨-,hne,-⟩⟩
        · exact ⟨rfl,rfl⟩
        · exact absurd he hne
        · exact absurd he hne
      · rintro ⟨rfl,rfl⟩
        exact ⟨rfl,.inl ⟨rfl,he⟩⟩
    · by_cases hs : (crcs.pass2 i).getD crc1 = crc1
      · simp only [if_neg he,hs,ne_eq,not_true_eq_false,if_false,Verdict.mk.injEq]
        constructor
        · rintro ⟨rfl,⟨-,h⟩ | ⟨-,-,h⟩ | ⟨rfl,-⟩⟩
          · exact absurd h he
          · cases h
          · exact ⟨rfl,rfl⟩
        · rintro ⟨rfl,rfl⟩
          exact ⟨rfl,.inr (.inr ⟨rfl,he,trivial⟩)⟩
      · simp only [if_neg he,ne_eq,hs,not_false_eq_true,if_true,Verdict.mk.injEq]
        constructor
        · rintro ⟨rfl,⟨-,h⟩ | ⟨rfl,-⟩ | ⟨-,-,h⟩⟩
          · exact absurd h he
          · exact ⟨rfl,rfl⟩
          · cases h
        · rintro ⟨rfl,rfl⟩
          exact ⟨rfl,.inr (.inl ⟨rfl,he,trivial⟩)⟩

lemma right_compat_iff : Right (verdicts g fl) (scanFlashCompat c crcs) ↔
    compatSectors c = numSectors g ∧
      ∀ i v,(verdicts g fl)[i]? = some v → SameVerdict c crcs i v := by
  rw [scanFlashCompat,right_numbered_iff]
  constructor
  · intro heq
    have hlen := congrArg List.length heq
    rw [length_map,length_range,verdicts_length] at hlen
    refine ⟨hlen,?_⟩
    intro i v hv
    rw [← heq,getElem?_map] at hv
    obtain ⟨j,hj,rfl⟩ := Option.map_eq_some_iff.mp hv
    rw [sameVerdict_iff]
    rw [getElem?_range (by
      have := (List.getElem?_eq_some_iff.mp hj).1
      simpa using this)] at hj
    cases hj
    rfl
  · rintro ⟨hlen,hall⟩
    apply ext_getElem
    · rw [length_map,length_range,verdicts_length,hlen]
    · intro i hi hi'
      have hv := (sameVerdict_iff c crcs i _).mp (hall i _ (getElem?_eq_getElem hi'))
      rw [← hv,getElem_map,getElem_range]

/-- A scan reports every sector's own verdict if and only if no packet of verdicts is
lost, or all of them are and the fallback reaches the same verdicts. -/
theorem scan_right_iff {kept : List Frame} (h : kept.Sublist (scanFrames g fl)) :
    Right (verdicts g fl) (scanFlash c crcs (kept++[scanAck g])) ↔
      kept = scanFrames g fl ∧ kept ≠ [] ∨
      kept = [] ∧ compatSectors c = numSectors g ∧
        ∀ i v,(verdicts g fl)[i]? = some v → SameVerdict c crcs i v := by
  cases kept with
  | nil =>
    have hack : scanFlash c crcs ([]++[scanAck g]) = scanFlashCompat c crcs := rfl
    rw [hack,right_compat_iff]
    simp
  | cons f fs =>
    simp only [ne_eq,reduceCtorEq,not_false_eq_true,and_true,false_and,or_false]
    by_cases hnum : numSectors g = 0
    · rw [scanFrames,if_pos hnum] at h
      cases h
    obtain ⟨bs,hframes,hne,hall⟩ := scanFrames_batches g fl hnum
    rw [hframes] at h ⊢
    cases h with
    | cons_cons _ hrest =>
      -- the header has arrived, so a lost packet leaves the list short
      obtain ⟨bs',hsub,rfl⟩ := sublist_map_iff.mp hrest
      have hlen : bs.flatten.length = numSectors g := by rw [hall,verdicts_length]
      have hle := hsub.flatten.length_le
      have hfour : 4 ≤ (writeLe32 (numSectors g)).length := Nat.le_refl 4
      rw [cons_append,scanAck,scanFlash_header c crcs _ _ hfour,right_numbered_iff,
        readLe32_num,← hall,take_of_length_le (by omega)]
      constructor
      · intro heq
        rw [sublist_eq_of_flatten hsub (fun b hb => (hne b hb).1) (by rw [heq])]
      · intro heq
        have hcount := congrArg List.length (List.cons.inj heq).2
        rw [length_map,length_map] at hcount
        rw [hsub.eq_of_length hcount]
    | cons _ hrest =>
      -- the header is lost and the first packet of verdicts stands in for it
      obtain ⟨bs',hsub,heq⟩ := sublist_map_iff.mp hrest
      cases bs' with
      | nil => cases heq
      | cons b bs' =>
        rw [map_cons,List.cons.injEq] at heq
        obtain ⟨rfl,rfl⟩ := heq
        have hpos := length_pos_iff.mpr (hne b (hsub.subset mem_cons_self)).1
        have hle := hsub.flatten.length_le
        have hcount := hsub.length_le
        rw [flatten_cons,length_append] at hle
        have hlong : 4 ≤ (b.flatMap entry).length := by
          rw [entries_length]
          omega
        rw [cons_append,scanAck,batchFrame,scanFlash_header c crcs _ _ hlong,
          right_numbered_iff,← hall]
        constructor
        · intro heq
          have hlen := congrArg List.length heq
          rw [length_take] at hlen
          omega
        · intro heq
          have hlen := congrArg List.length heq
          rw [length_cons,length_cons,length_map,length_map] at hlen
          rw [length_cons] at hcount
          omega

end Scan

/-- Nine sectors of four bytes; sector 0 is erased and sector `i` holds `i`, `0`, `0`, `0`. -/
def nineSectors : Geometry := ⟨true,36,4,false,by decide⟩

def nineReads : FlashReads where
  readOob _ := none
  scanRead off n := some (if off = 0 then [0xFF,0xFF,0xFF,0xFF] else
    (BitVec.ofNat 8 (off/4) :: List.replicate (n-1) 0))
  scanCrc off _ := crc32 0 [BitVec.ofNat 8 (off/4),0,0,0]

def nineClient : Client := ⟨36,4,36⟩

def noCrcs : CrcAnswers := ⟨fun _ => none,fun _ => none⟩

/-- Nothing is lost. -/
theorem nine_sectors_right :
    Right (verdicts nineSectors nineReads)
      (scanFlash nineClient noCrcs (handleScan nineSectors nineReads)) :=
  (scan_right_iff nineClient noCrcs nineSectors nineReads (List.Sublist.refl _)).mpr
    (.inl ⟨rfl,by decide⟩)

/-- The first packet of verdicts is lost: the scan returns the verdict of sector 8 as the
one of sector 0, and none for the others. -/
theorem lost_batch_shifts :
    ((scanFrames nineSectors nineReads).eraseIdx 1).Sublist (scanFrames nineSectors nineReads) ∧
    ¬ Right (verdicts nineSectors nineReads) (scanFlash nineClient noCrcs
      ((scanFrames nineSectors nineReads).eraseIdx 1++[scanAck nineSectors])) := by
  refine ⟨eraseIdx_sublist _ _,?_⟩
  have hkept : (scanFrames nineSectors nineReads).eraseIdx 1 =
      ⟨rspScan,writeLe32 9⟩::[[scanSector nineSectors nineReads 4 8]].map batchFrame := rfl
  have hfour : 4 ≤ (writeLe32 9).length := by decide
  rw [hkept,cons_append,scanAck,scanFlash_header _ _ _ _ hfour,right_numbered_iff]
  intro heq
  have hlen := congrArg List.length heq
  rw [verdicts_length] at hlen
  revert hlen
  decide

end Defib.ScanFlash
