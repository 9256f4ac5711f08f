import Defib.AgentMachine

/-!
# Reading and checksumming a range

`handle_read` streams a range in packets and `handle_crc32_cmd` returns its
checksum. Both accept the same requests but choose the source of the bytes by
different tests and in a different order: a read looks for registers, then the
eMMC card, then the flash window, while a checksum looks for the flash window
with a 32-bit sum first and never at the card. Register reads of a packet
that does not start on a word shift by 32 bits or more, which yields zero.
-/
namespace Defib.AgentReads
open List Words BlockMemory Spans Crc32 Boards FlashDevice AgentMachine

section
variable {b : Board}

/-- `(val >> shift) & 0xFF`. -/
def byteAt (val : BitVec 32) (shift : ℕ) : Byte := (val >>> shift).setWidth 8

def ioByte (s : Machine b) (addr : ℕ) : Byte := byteAt (s.io (addr/4*4)) (addr%4*8)

/-- The register branch of a packet: byte `k` comes from group `k/4` of the packet. -/
def ioPacket (s : Machine b) (start chunk : ℕ) : List Byte :=
  (List.range chunk).map fun k =>
    let a := start+k/4*4
    byteAt (s.io (a/4*4)) ((a%4+k%4)*8)

/-- The eMMC branch is compiled in and the range lies in the card's window. -/
def emmcPath (b : Board) (addr size : ℕ) : Bool :=
  b.config.emmcBase.isSome && b.flashInfo.flashType = .emmc && inFlashWindow b addr size

/-- The bytes of one packet; `none` when a card block cannot be read. -/
def readChunk (s : Machine b) (addr size offset chunk : ℕ) : Option (List Byte × Machine b) :=
  if isIoRegion b addr then some (ioPacket s (addr+offset) chunk,s)
  else if emmcPath b addr size then
    (s.dev.emmcReadBlock b ((addr-b.config.flashMem+offset)/512)).map fun blk => (blk.take chunk,s)
  else if inFlashWindow b addr size then some (s.flashRead (addr-b.config.flashMem+offset) chunk)
  else some (loadBytes s.mem (addr+offset) chunk,s)

/-- The packet loop over the remaining pieces. -/
def readLoop (addr size : ℕ) : ℕ → List (ℕ × ℕ) → Machine b → List Frame × Machine b
  | _,[],s => ([ack ackOk],s)
  | seq,p::ps,s =>
    match readChunk s addr size p.1 p.2 with
    | none => ([ack ackFlashError],s)
    | some (bytes,s') =>
      let r := readLoop addr size (seq+1) ps s'
      (⟨rspData,writeLe16 seq++bytes⟩ :: r.1,r.2)

/-- The bounds check both commands start with. -/
def readAccepted (b : Board) (addr size : ℕ) : Bool :=
  size ≠ 0 && size ≤ maxReadSize && addrReadable b addr size

def handleRead (s : Machine b) (data : List Byte) : List Frame × Machine b :=
  if data.length < 8 then ([ack ackCrcError],s) else
    let addr := readLe32 data 0
    let size := readLe32 data 4
    if !readAccepted b addr size then ([ack ackFlashError],s)
    else if emmcPath b addr size && ((addr-b.config.flashMem)%512 ≠ 0 || size%512 ≠ 0) then
      ([ack ackFlashError],s)
    else readLoop addr size 0 (pieces (if emmcPath b addr size then 512 else 1022) size) s

/-- The flash test of the checksum, on 32-bit sums. -/
def crcFlash (b : Board) (addr size : ℕ) : Bool :=
  b.flashReadable && b.config.flashMem ≤ addr &&
    u32 (addr+size) ≤ u32 (b.config.flashMem+b.flashInfo.size)

def handleCrc32Cmd (s : Machine b) (data : List Byte) : List Frame × Machine b :=
  if data.length < 8 then ([ack ackCrcError],s) else
    let addr := readLe32 data 0
    let size := readLe32 data 4
    if !readAccepted b addr size then ([ack ackFlashError],s)
    else
      let r :=
        if crcFlash b addr size then s.flashCrc32 (addr-b.config.flashMem) size
        else if isIoRegion b addr then
          ((List.range size).foldl (fun c off => crc32 c [ioByte s (addr+off)]) 0,s)
        else (crc32 0 (loadBytes s.mem addr size),s)
      ([⟨rspCrc32,writeLe32 r.1.toNat⟩],r.2)

/-- The payload bytes the host collects from the data packets. -/
def streamed (fs : List Frame) : List Byte :=
  (fs.filter (·.cmd = rspData)).flatMap (·.payload.drop 2)

/-- Two states that no read can tell apart. -/
structure SameData (s t : Machine b) : Prop where
  mem : t.mem = s.mem
  io : t.io = s.io
  array : t.dev.array = s.dev.array
  view : t.dev.view = s.dev.view

lemma SameData.refl (s : Machine b) : SameData s s := ⟨rfl,rfl,rfl,rfl⟩

lemma SameData.trans {s t u : Machine b} (h₁ : SameData s t) (h₂ : SameData t u) :
    SameData s u :=
  ⟨h₂.mem.trans h₁.mem,h₂.io.trans h₁.io,h₂.array.trans h₁.array,h₂.view.trans h₁.view⟩

lemma flashRead_sameData (s : Machine b) (a n : ℕ) : SameData s (s.flashRead a n).2 :=
  ⟨rfl,rfl,(Dev.flashRead_keeps s.dev a n).2.1,(Dev.flashRead_keeps s.dev a n).2.2⟩

lemma medium_emmc (h : b.flashInfo.flashType = .emmc) : ∃ c, b.medium = some (.emmc c) := by
  unfold Board.flashInfo at h
  cases hm : b.medium with
  | none => simp [hm] at h
  | some m =>
    cases m with
    | nor id2 => simp [hm,Medium.info] at h
    | nand => simp [hm,Medium.info] at h
    | emmc c => exact ⟨c,rfl⟩

lemma emmcReadBlock_eq (s : Machine b) (h : b.flashInfo.flashType = .emmc)
    (hsize : b.flashInfo.size ≠ 0) (blk : ℕ) :
    s.dev.emmcReadBlock b blk = some (slice s.dev.array (blk*512) 512) := by
  obtain ⟨c,hm⟩ := medium_emmc h
  have hfit := s.fits _ hm
  cases hd : s.dev with
  | nor f => rw [hd] at hfit; exact hfit.elim
  | nand n => rw [hd] at hfit; exact hfit.elim
  | emmc card bus => simp [Dev.emmcReadBlock,hsize,Dev.array]

/-- The byte a register read returns at offset `k`: packets start at multiples of 1022. -/
def ioReadByte (s : Machine b) (addr k : ℕ) : Byte :=
  let a := addr+(k-k%1022)+k%1022/4*4
  byteAt (s.io (a/4*4)) ((a%4+k%1022%4)*8)

/-- The byte a read streams at offset `k`, by the region that serves it. -/
def readByte (s : Machine b) (addr size k : ℕ) : Byte :=
  if isIoRegion b addr then ioReadByte s addr k
  else if emmcPath b addr size then s.dev.array (addr-b.config.flashMem+k)
  else if inFlashWindow b addr size then s.dev.view (addr-b.config.flashMem+k)
  else s.mem (u32 (addr+k))

/-- The byte a checksum takes at offset `k`. -/
def crcByte (s : Machine b) (addr size k : ℕ) : Byte :=
  if crcFlash b addr size then s.dev.view (addr-b.config.flashMem+k)
  else if isIoRegion b addr then ioByte s (addr+k)
  else s.mem (u32 (addr+k))

lemma not_emmcPath_of_io {addr size : ℕ} (h : isIoRegion b addr = true) :
    emmcPath b addr size = false := by
  by_contra hp
  rw [Bool.not_eq_false] at hp
  simp only [emmcPath,inFlashWindow,Bool.and_eq_true,decide_eq_true_eq] at hp
  obtain ⟨⟨hb,_⟩,⟨_,hlow⟩,_⟩ := hp
  simp only [isIoRegion,Bool.or_eq_true,Bool.and_eq_true,decide_eq_true_eq] at h
  simp only [Board.config,Soc.eq_cv500 hb,Soc.config,SocConfig.fmc] at hlow h
  omega

lemma streamed_cons (seq : ℕ) (bytes : List Byte) (fs : List Frame) :
    streamed (⟨rspData,writeLe16 seq++bytes⟩ :: fs) = bytes++streamed fs := by
  simp [streamed,writeLe16]

lemma readLoop_spec {addr size : ℕ} {s : Machine b} {f : ℕ × ℕ → List Byte}
    (ps : List (ℕ × ℕ)) (hchunk : ∀ t, SameData s t → ∀ p ∈ ps,
      ∃ u, readChunk t addr size p.1 p.2 = some (f p,u) ∧ SameData s u)
    (seq : ℕ) (t : Machine b) (ht : SameData s t) :
    streamed (readLoop addr size seq ps t).1 = ps.flatMap f ∧
      (readLoop addr size seq ps t).1.getLast? = some (ack ackOk) ∧
      SameData s (readLoop addr size seq ps t).2 := by
  induction ps generalizing seq t with
  | nil => exact ⟨rfl,rfl,ht⟩
  | cons p ps ih =>
    obtain ⟨u,hu,hsu⟩ := hchunk t ht p mem_cons_self
    obtain ⟨hbytes,hlast,hsame⟩ :=
      ih (fun t ht q hq => hchunk t ht q (mem_cons_of_mem _ hq)) (seq+1) u hsu
    simp only [readLoop,hu]
    refine ⟨?_,?_,hsame⟩
    · rw [streamed_cons,hbytes,flatMap_cons]
    · rw [getLast?_cons,hlast]
      rfl

lemma ioPacket_eq {s t : Machine b} (ht : SameData s t) (addr : ℕ) {o c : ℕ}
    (ho : o%1022 = 0) (hc : c ≤ 1022) :
    ioPacket t (addr+o) c = slice (ioReadByte s addr) o c := by
  apply map_congr_left
  intro i hi
  have hi := mem_range.mp hi
  have hmod : (o+i)%1022 = i := by omega
  simp only [ioReadByte,hmod,Nat.add_sub_cancel,ht.io]

/-- The bounds checks of a read, all of them on the request alone. -/
def readServed (b : Board) (addr size : ℕ) : Bool :=
  readAccepted b addr size &&
    !(emmcPath b addr size && ((addr-b.config.flashMem)%512 ≠ 0 || size%512 ≠ 0))

lemma slice_offset {f g : ℕ → Byte} {base o c : ℕ} (h : ∀ k, g k = f (base+k)) :
    slice f (base+o) c = slice g o c :=
  slice_congr fun i _ => by rw [h,Nat.add_assoc]

lemma readChunk_spec {s t : Machine b} {addr size : ℕ} (hserved : readServed b addr size = true)
    (ht : SameData s t) {p : ℕ × ℕ}
    (hp : p ∈ pieces (if emmcPath b addr size then 512 else 1022) size) :
    ∃ u, readChunk t addr size p.1 p.2 = some (slice (readByte s addr size) p.1 p.2,u) ∧
      SameData s u := by
  by_cases hio : isIoRegion b addr = true
  · rw [not_emmcPath_of_io hio,if_neg Bool.false_ne_true] at hp
    obtain ⟨hstart,_,hlen,_⟩ := mem_pieces (by decide) hp
    refine ⟨t,?_,ht⟩
    rw [readChunk,if_pos hio,ioPacket_eq ht addr hstart hlen]
    have hbyte : readByte s addr size = ioReadByte s addr := by
      funext k
      rw [readByte,if_pos hio]
    rw [hbyte]
  by_cases hem : emmcPath b addr size = true
  · rw [hem,if_pos rfl] at hp
    obtain ⟨hstart,hpos,hlen,hend,hlast⟩ := mem_pieces (by decide) hp
    simp only [readServed,hem,Bool.true_and,Bool.and_eq_true,Bool.not_eq_true',
      Bool.or_eq_false_iff,decide_eq_false_iff_not,ne_eq,not_not] at hserved
    obtain ⟨_,hbase,hsize⟩ := hserved
    have hwin := hem
    simp only [emmcPath,inFlashWindow,Bool.and_eq_true,decide_eq_true_eq] at hwin
    obtain ⟨⟨_,htype⟩,_,hin⟩ := hwin
    refine ⟨t,?_,ht⟩
    -- card packets are whole blocks: the length is a multiple of 512 and so is every start
    have hwhole : p.2 = 512 := by omega
    rw [readChunk,if_neg hio,if_pos hem,emmcReadBlock_eq t htype (by omega),Option.map_some,
      take_of_length_le (by simp [hwhole]),
      show (addr-b.config.flashMem+p.1)/512*512 = addr-b.config.flashMem+p.1 by omega,
      ht.array,hwhole,slice_offset (g := readByte s addr size)]
    intro k
    rw [readByte,if_neg hio,if_pos hem]
  by_cases hfl : inFlashWindow b addr size = true
  · refine ⟨_,?_,ht.trans (flashRead_sameData t (addr-b.config.flashMem+p.1) p.2)⟩
    rw [readChunk,if_neg hio,if_neg hem,if_pos hfl]
    have hbytes : (t.flashRead (addr-b.config.flashMem+p.1) p.2).1 =
        slice (readByte s addr size) p.1 p.2 := by
      refine (Dev.flashRead_eq t.dev _ _).trans ?_
      rw [ht.view]
      refine slice_offset fun k => ?_
      rw [readByte,if_neg hio,if_neg hem,if_pos hfl]
    rw [← hbytes]
  · refine ⟨t,?_,ht⟩
    rw [readChunk,if_neg hio,if_neg hem,if_neg hfl,loadBytes,ht.mem,
      slice_offset (g := readByte s addr size)]
    intro k
    rw [readByte,if_neg hio,if_neg hem,if_neg hfl]

lemma handleRead_spec (s : Machine b) {data : List Byte} (hlen : 8 ≤ data.length)
    (hserved : readServed b (readLe32 data 0) (readLe32 data 4) = true) :
    streamed (handleRead s data).1 =
      slice (readByte s (readLe32 data 0) (readLe32 data 4)) 0 (readLe32 data 4) ∧
    (handleRead s data).1.getLast? = some (ack ackOk) ∧ SameData s (handleRead s data).2 := by
  have hsv := hserved
  simp only [readServed,Bool.and_eq_true,Bool.not_eq_true'] at hsv
  have hloop := readLoop_spec (s := s)
    (pieces (if emmcPath b (readLe32 data 0) (readLe32 data 4) then 512 else 1022)
      (readLe32 data 4))
    (fun t ht p hp => readChunk_spec hserved ht hp) 0 s (SameData.refl s)
  simp only [handleRead,if_neg (show ¬data.length < 8 by omega),hsv.1,hsv.2,Bool.not_true,
    Bool.false_eq_true,if_false]
  refine ⟨hloop.1.trans ?_,hloop.2⟩
  have hall := pieces_flatMap_slice (k := if emmcPath b (readLe32 data 0) (readLe32 data 4)
    then 512 else 1022) (by split_ifs <;> decide)
    (readByte s (readLe32 data 0) (readLe32 data 4)) 0 (readLe32 data 4)
  simpa only [Nat.zero_add] using hall

lemma handleCrc32Cmd_spec (s : Machine b) {data : List Byte} (hlen : 8 ≤ data.length)
    (hacc : readAccepted b (readLe32 data 0) (readLe32 data 4) = true) :
    (handleCrc32Cmd s data).1 = [⟨rspCrc32,writeLe32 (crc32 0
      (slice (crcByte s (readLe32 data 0) (readLe32 data 4)) 0 (readLe32 data 4))).toNat⟩] := by
  simp only [handleCrc32Cmd,if_neg (show ¬data.length < 8 by omega),hacc,Bool.not_true,
    Bool.false_eq_true,if_false]
  generalize readLe32 data 0 = addr
  generalize readLe32 data 4 = size
  congr 4
  split_ifs with hfl hio
  · refine (Dev.flashCrc32_eq s.dev _ _).trans (congrArg (crc32 0) (slice_congr fun k _ => ?_))
    rw [crcByte,if_pos hfl,Nat.zero_add]
  · dsimp only
    rw [crc32_foldl,← map_eq_flatMap]
    refine congrArg (crc32 0) (map_congr_left fun k _ => ?_)
    rw [crcByte,if_neg hfl,if_pos hio,Nat.zero_add]
  · refine congrArg (crc32 0) (slice_congr fun k _ => ?_)
    rw [crcByte,if_neg hfl,if_neg hio,Nat.zero_add]

end

end Defib.AgentReads
