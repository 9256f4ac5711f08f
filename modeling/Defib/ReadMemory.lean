import Defib.AgentReads

/-!
# Reads over a link that loses and keeps frames

`read_memory` takes the frames that arrive for the answer to its request. Nothing in
a frame says which request it belongs to: the data packets of an answer are numbered
from zero and the acknowledgement at its end carries a status. The link may still hold
the rest of an earlier answer, and any frame may be lost. The numbers are enough: the
first packet an earlier answer can still show is number one, and no answer is long
enough for a number to come back.
-/
namespace Defib.ReadMemory
open List Words BlockMemory Spans Boards FlashDevice AgentMachine AgentReads

inductive ReadError where
  /-- `struct.pack` of the address or of the size. -/
  | pack
  | seqGap (offset expected got : ℕ)
  | rejected (status : Byte)
  | short (received : ℕ)
  | unexpected (cmd : Byte)
  | timeout
  deriving DecidableEq, Repr

inductive ReadEnd where
  | returned (bytes : List Byte)
  | raised (e : ReadError)
  deriving DecidableEq, Repr

def seqOf (data : List Byte) : ℕ := (data.getD 0 0).toNat+(data.getD 1 0).toNat*256

/-- The acknowledgement that ends the stream. -/
def acknowledged (size : ℕ) (received : List Byte) (status : Byte) : ReadEnd :=
  if status ≠ ackOk then .raised (.rejected status)
  else if received.length ≠ size then .raised (.short received.length)
  else .returned received

/-- The receive loop of `read_memory`; `recv_response` drops READY packets, and a link
that stays silent is a timeout. -/
def collect (size : ℕ) : List Byte → ℕ → List Frame → ReadEnd
  | _,_,[] => .raised .timeout
  | received,expected,f::fs =>
    if f.cmd = rspReady then collect size received expected fs
    else if f.cmd = rspData ∧ 2 < f.payload.length then
      if seqOf f.payload ≠ expected then
        .raised (.seqGap received.length expected (seqOf f.payload))
      else collect size (received++f.payload.drop 2) ((expected+1)%65536) fs
    else if f.cmd = rspAck then acknowledged size received (f.payload.headD ackOk)
    else .raised (.unexpected f.cmd)

/-- `read_memory`, where `link` gives the frames that arrive after the request is sent. -/
def readMemory (addr size : ℕ) (link : List Byte → List Frame) : ReadEnd :=
  match packLe32 addr,packLe32 size with
  | some a,some n => collect size [] 0 (link (a++n))
  | _,_ => .raised .pack

/-- Data packets with the numbers the agent stamps on them. -/
def numbered : ℕ → List (List Byte) → List Frame
  | _,[] => []
  | seq,c::cs => ⟨rspData,writeLe16 seq++c⟩ :: numbered (seq+1) cs

lemma seqOf_writeLe16 (seq : ℕ) (c : List Byte) : seqOf (writeLe16 seq++c) = seq%65536 := by
  simp only [seqOf,writeLe16,cons_append,getD_cons_zero,getD_cons_succ,
    BitVec.toNat_ofNat]
  omega

lemma mem_numbered {seq : ℕ} {cs : List (List Byte)} {f : Frame} (h : f ∈ numbered seq cs) :
    ∃ i c, c ∈ cs ∧ seq ≤ i ∧ i < seq+cs.length ∧ f = ⟨rspData,writeLe16 i++c⟩ := by
  induction cs generalizing seq with
  | nil => cases h
  | cons c cs ih =>
    rw [numbered,mem_cons] at h
    rw [length_cons]
    rcases h with h | h
    · exact ⟨seq,c,mem_cons_self,Nat.le_refl seq,by omega,h⟩
    · obtain ⟨i,d,hd,hle,hlt,hf⟩ := ih h
      exact ⟨i,d,mem_cons_of_mem c hd,by omega,by omega,hf⟩

lemma streamed_numbered (seq : ℕ) (cs : List (List Byte)) (status : Byte) :
    streamed (numbered seq cs++[AgentMachine.ack status]) = cs.flatten := by
  induction cs generalizing seq with
  | nil => rfl
  | cons c cs ih => rw [numbered,cons_append,streamed_cons,ih,flatten_cons]

/-- What the agent sends for a read of `size` bytes: numbered packets, none of them empty
and not too many for their numbers, and one acknowledgement. -/
def Streams (size : ℕ) (fs : List Frame) : Prop :=
  ∃ chunks status,fs = numbered 0 chunks++[AgentMachine.ack status] ∧ (∀ c ∈ chunks,c ≠ []) ∧
    chunks.length ≤ 65536 ∧ chunks.flatten.length ≤ size

section Agent
variable {b : Board}

lemma emmcReadBlock_length {dev : Dev} {n : ℕ} {blk : List Byte}
    (h : dev.emmcReadBlock b n = some blk) : blk.length = 512 := by
  rw [Dev.emmcReadBlock.eq_def] at h
  split at h
  next =>
      split at h
      next => cases h
      next => rw [← Option.some.inj h,slice_length]
  next => cases h

lemma readChunk_length {s t : Machine b} {addr size o n : ℕ} {bytes : List Byte}
    (hn : emmcPath b addr size = true → n ≤ 512)
    (h : readChunk s addr size o n = some (bytes,t)) : bytes.length = n := by
  rw [readChunk] at h
  split at h
  next =>
      cases h
      simp [ioPacket]
  next =>
      split at h
      next hem =>
          obtain ⟨blk,hblk,heq⟩ := Option.map_eq_some_iff.mp h
          cases heq
          have hlen : blk.length = 512 := emmcReadBlock_length hblk
          rw [length_take,hlen]
          exact Nat.min_eq_left (hn hem)
      next =>
          split at h
          next =>
              have hbytes : bytes = (s.dev.flashRead (addr-b.config.flashMem+o) n).1 := by
                cases h
                rfl
              rw [hbytes,Dev.flashRead_eq,slice_length]
          next =>
              cases h
              exact slice_length _ _ _

lemma readLoop_numbered {addr size : ℕ} (ps : List (ℕ × ℕ))
    (hps : ∀ p ∈ ps,0 < p.2 ∧ (emmcPath b addr size = true → p.2 ≤ 512)) (seq : ℕ)
    (s : Machine b) : ∃ chunks status,
      (readLoop addr size seq ps s).1 = numbered seq chunks++[AgentMachine.ack status] ∧
      (∀ c ∈ chunks,c ≠ []) ∧ chunks.length ≤ ps.length ∧
      chunks.flatten.length ≤ (ps.map Prod.snd).sum := by
  induction ps generalizing seq s with
  | nil => exact ⟨[],ackOk,rfl,by simp,Nat.le_refl 0,Nat.le_refl 0⟩
  | cons p ps ih =>
    rw [forall_mem_cons] at hps
    cases hr : readChunk s addr size p.1 p.2 with
    | none =>
      refine ⟨[],ackFlashError,?_,by simp,Nat.zero_le _,Nat.zero_le _⟩
      rw [readLoop,hr]
      rfl
    | some r =>
      obtain ⟨bytes,t⟩ := r
      have hlen : bytes.length = p.2 := readChunk_length hps.1.2 hr
      obtain ⟨chunks,status,heq,hne,hcount,htotal⟩ := ih hps.2 (seq+1) t
      refine ⟨bytes::chunks,status,?_,?_,?_,?_⟩
      · rw [readLoop,hr]
        simp only [numbered,cons_append,heq]
      · rw [forall_mem_cons]
        refine ⟨?_,hne⟩
        intro hnil
        rw [hnil,length_nil] at hlen
        omega
      · rw [length_cons,length_cons]
        omega
      · rw [flatten_cons,length_append,map_cons,sum_cons]
        omega

lemma streams_ack (size : ℕ) (status : Byte) : Streams size [AgentMachine.ack status] :=
  ⟨[],status,rfl,by simp,Nat.zero_le _,Nat.zero_le _⟩

lemma pieces_count {k size : ℕ} (hk : 512 ≤ k) (hsize : size ≤ maxReadSize) :
    (pieces k size).length ≤ 65536 := by
  have hmul := (pieces_length_bounds (k := k) (by omega) size).2
  have hle : (pieces k size).length*512 ≤ (pieces k size).length*k := Nat.mul_le_mul_left _ hk
  rw [maxReadSize] at hsize
  by_contra hcon
  have hbig : 65537*k ≤ (pieces k size).length*k := Nat.mul_le_mul_right k (by omega)
  omega

lemma readLoop_streams {addr size k : ℕ} (hk : 512 ≤ k) (hsize : size ≤ maxReadSize)
    (hcard : emmcPath b addr size = true → k = 512) (s : Machine b) :
    Streams size (readLoop addr size 0 (pieces k size) s).1 := by
  have hps : ∀ p ∈ pieces k size,0 < p.2 ∧ (emmcPath b addr size = true → p.2 ≤ 512) := by
    intro p hp
    obtain ⟨_,h0,hle,_⟩ := mem_pieces (by omega) hp
    refine ⟨h0,?_⟩
    intro h
    rw [← hcard h]
    exact hle
  obtain ⟨chunks,status,heq,hne,hcount,htotal⟩ := readLoop_numbered _ hps 0 s
  rw [pieces,spans_sum (fun _ => by omega)] at htotal
  exact ⟨chunks,status,heq,hne,hcount.trans (pieces_count hk hsize),htotal⟩

lemma handleRead_streams (s : Machine b) (data : List Byte) :
    Streams (readLe32 data 4) (handleRead s data).1 := by
  rw [handleRead]
  by_cases hlen : data.length < 8
  · rw [if_pos hlen]
    exact streams_ack _ _
  rw [if_neg hlen]
  generalize readLe32 data 0 = addr
  generalize readLe32 data 4 = size
  cases hacc : readAccepted b addr size with
  | false =>
    simp only [hacc,Bool.not_false,if_true]
    exact streams_ack _ _
  | true =>
    have hsize : size ≤ maxReadSize := by
      simp only [readAccepted,Bool.and_eq_true,decide_eq_true_eq] at hacc
      exact hacc.1.2
    simp only [hacc,Bool.not_true,Bool.false_eq_true,if_false]
    by_cases hodd : (emmcPath b addr size &&
        ((addr-b.config.flashMem)%512 ≠ 0 || size%512 ≠ 0)) = true
    · rw [if_pos hodd]
      exact streams_ack _ _
    · rw [if_neg hodd]
      refine readLoop_streams ?_ hsize ?_ s
      · split <;> omega
      · intro h
        rw [if_pos h]

end Agent

section Host
variable {size : ℕ} {received bytes : List Byte} {expected seq : ℕ} {status : Byte}

lemma acknowledged_returned (h : acknowledged size received status = .returned bytes) :
    received.length = size ∧ bytes = received := by
  simp only [acknowledged,ne_eq,ite_not] at h
  split at h
  next =>
      split at h
      next hlen => exact ⟨hlen,(ReadEnd.returned.inj h).symm⟩
      next => cases h
  next => cases h

lemma collect_ack {fs : List Frame}
    (h : collect size received expected (AgentMachine.ack status::fs) = .returned bytes) :
    received.length = size ∧ bytes = received := by
  have hready : ¬ rspAck = rspReady := by decide
  have hdata : ¬ rspAck = rspData := by decide
  rw [collect] at h
  simp only [AgentMachine.ack,hready,hdata,false_and,if_false,if_true] at h
  exact acknowledged_returned h

lemma collect_data {c : List Byte} (hc : c ≠ []) (fs : List Frame) :
    collect size received expected (⟨rspData,writeLe16 seq++c⟩::fs) =
      if seq%65536 = expected then collect size (received++c) ((expected+1)%65536) fs
      else .raised (.seqGap received.length expected (seq%65536)) := by
  have hlong : 2 < (writeLe16 seq++c).length := by
    have := length_pos_iff.mpr hc
    rw [length_append,writeLe16_length]
    omega
  have hready : ¬ rspData = rspReady := by decide
  rw [collect]
  simp only [hready,if_false,hlong,and_self,if_true,seqOf_writeLe16,ne_eq,ite_not]
  rfl

/-- A packet whose number is not the expected one, or an acknowledgement: in both cases
the call cannot go on to other bytes. -/
def Stops (expected : ℕ) (f : Frame) : Prop :=
  (∃ status,f = AgentMachine.ack status) ∨
    ∃ i c,c ≠ [] ∧ i%65536 ≠ expected ∧ f = ⟨rspData,writeLe16 i++c⟩

lemma Stops.collect {f : Frame} {fs : List Frame} (hf : Stops expected f)
    (h : collect size received expected (f::fs) = .returned bytes) : received.length = size := by
  rcases hf with ⟨status,rfl⟩ | ⟨i,c,hc,hi,rfl⟩
  · exact (collect_ack h).1
  · rw [collect_data hc,if_neg hi] at h
    cases h

lemma stops_of_mem {cs : List (List Byte)} (hne : ∀ c ∈ cs,c ≠ [])
    (hlow : expected < seq) (hhigh : seq+cs.length ≤ 65536) {f : Frame}
    (hf : f ∈ numbered seq cs++[AgentMachine.ack status]) : Stops expected f := by
  rcases mem_append.mp hf with hf | hf
  · obtain ⟨i,c,hc,hle,hlt,rfl⟩ := mem_numbered hf
    refine .inr ⟨i,c,hne c hc,?_,rfl⟩
    rw [Nat.mod_eq_of_lt (by omega)]
    omega
  · exact .inl ⟨status,mem_singleton.mp hf⟩

/-- From a stream that has arrived up to `seq`, whatever is lost from there on, the call
returns the whole stream or nothing. -/
theorem collect_stream {cs : List (List Byte)} {l : List Frame}
    (hl : l.Sublist (numbered seq cs++[AgentMachine.ack status])) (hne : ∀ c ∈ cs,c ≠ [])
    (hseq : seq+cs.length ≤ 65536) (hsize : received.length+cs.flatten.length ≤ size)
    (h : collect size received (seq%65536) l = .returned bytes) :
    bytes = received++cs.flatten ∧ bytes.length = size := by
  induction cs generalizing seq received l with
  | nil =>
    rcases sublist_singleton.mp hl with rfl | rfl
    · cases h
    · obtain ⟨hlen,rfl⟩ := collect_ack h
      simpa using hlen
  | cons c cs ih =>
    rw [forall_mem_cons] at hne
    rw [length_cons] at hseq
    rw [flatten_cons,length_append] at hsize
    have hpos : 0 < c.length := length_pos_iff.mpr hne.1
    rw [numbered,cons_append] at hl
    cases hl with
    | cons _ hrest =>
      -- the packet is lost, so the next frame ends the call short of `size` bytes
      cases l with
      | nil => cases h
      | cons f fs =>
        have hf : f ∈ numbered (seq+1) cs++[AgentMachine.ack status] := hrest.subset mem_cons_self
        have hmod : seq%65536 = seq := Nat.mod_eq_of_lt (by omega)
        have hlen : received.length = size :=
          (stops_of_mem hne.2 (by omega) (by omega) hf).collect h
        omega
    | cons_cons _ hrest =>
      rw [collect_data hne.1,if_pos rfl,Nat.mod_add_mod] at h
      have hall := ih hrest hne.2 (by omega) (by rw [length_append]; omega) h
      rwa [append_assoc,← flatten_cons] at hall

lemma stops_of_stale {fs : List Frame} {n : ℕ} (hs : Streams n fs) {f : Frame}
    (hf : f ∈ fs.tail) : Stops 0 f := by
  obtain ⟨chunks,status,rfl,hne,hcount,_⟩ := hs
  cases chunks with
  | nil => cases hf
  | cons c cs =>
    rw [forall_mem_cons] at hne
    rw [length_cons] at hcount
    exact stops_of_mem hne.2 Nat.zero_lt_one (by omega) hf

lemma collect_after_stale {old new l : List Frame} {n : ℕ} (hold : Streams n old)
    (hnew : Streams size new) (hsize : size ≠ 0) (hl : l.Sublist (old.tail++new))
    (h : collect size [] 0 l = .returned bytes) :
    bytes = streamed new ∧ bytes.length = size := by
  obtain ⟨l₁,l₂,rfl,h₁,h₂⟩ := sublist_append_iff.mp hl
  cases l₁ with
  | nil =>
    obtain ⟨chunks,status,rfl,hne,hcount,htotal⟩ := hnew
    rw [streamed_numbered]
    exact collect_stream h₂ hne (by omega) (by simpa using htotal) h
  | cons f fs =>
    have hf : f ∈ old.tail := h₁.subset mem_cons_self
    exact absurd ((stops_of_stale hold hf).collect h).symm hsize

end Host

/-- Whatever an earlier answer left behind and whatever is lost, a read returns the bytes
the agent sent for it or raises. -/
theorem read_memory_exact {b : Board} (s₀ s : Machine b) (earlier : List Byte) {addr size : ℕ}
    (hacc : readAccepted b addr size = true) {link : List Byte → List Frame}
    (hlink : (link (writeLe32 addr++writeLe32 size)).Sublist
      ((handleRead s₀ earlier).1.tail++(handleRead s (writeLe32 addr++writeLe32 size)).1))
    {bytes : List Byte} (h : readMemory addr size link = .returned bytes) :
    bytes = streamed (handleRead s (writeLe32 addr++writeLe32 size)).1 ∧ bytes.length = size := by
  have hsize : size ≠ 0 := by
    simp only [readAccepted,Bool.and_eq_true,decide_eq_true_eq] at hacc
    exact hacc.1.1
  rw [readMemory] at h
  cases ha : packLe32 addr with
  | none =>
    rw [ha] at h
    cases h
  | some a =>
    cases hn : packLe32 size with
    | none =>
      rw [ha,hn] at h
      cases h
    | some n =>
      obtain ⟨-,rfl⟩ := packLe32_eq_some ha
      obtain ⟨hlt,rfl⟩ := packLe32_eq_some hn
      rw [ha,hn] at h
      have hnew := handleRead_streams s (writeLe32 addr++writeLe32 size)
      have hfield : readLe32 (writeLe32 addr++writeLe32 size) 4 = size := by
        have hread := readLe32_shift addr (writeLe32 size++[]) 0
        rwa [readLe32_writeLe32 size hlt,append_nil] at hread
      rw [hfield] at hnew
      exact collect_after_stale (handleRead_streams s₀ earlier) hnew hsize hlink h

/-- A register of a board whose flash holds zeros. -/
def zeros : Machine (.withNor .hi3516ev300 0x18#8) :=
  .idle _ (fun _ => 0) (fun _ => 0) (fun _ => 0) 0

def zerosLink (request : List Byte) : List Frame := (handleRead zeros request).1

lemma zerosLink_word : readMemory 0x12010000 4 zerosLink = .returned [0,0,0,0] := by decide

/-- Four bytes of a clock register, with the end of a 2 KiB read lost before them. -/
theorem crg_word_read :
    [0,0,0,0] = streamed (handleRead zeros (writeLe32 0x12010000++writeLe32 4)).1 ∧
    [(0 : Byte),0,0,0].length = 4 := by
  have hlink : (zerosLink (writeLe32 0x12010000++writeLe32 4)).Sublist
      ((handleRead zeros (writeLe32 0x12010000++writeLe32 2048)).1.tail++
        (handleRead zeros (writeLe32 0x12010000++writeLe32 4)).1) :=
    sublist_append_right _ _
  exact read_memory_exact zeros zeros _ (by decide) hlink zerosLink_word

end Defib.ReadMemory
