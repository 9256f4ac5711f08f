import Defib.WriteMemory

/-!
# What a successful upload has stored

The agent and the line are a server of `AckCredit`: a block is a job, its `CMD_WRITE` the
request. Every step of the agent is a move of that server, so the count of the host stands
for the blocks in RAM as long as each batch starts with nothing left over.
-/
namespace Defib.RamUpload
open List
open Words BlockMemory Spans Crc32 Boards AgentMachine AgentTransfers TransferRuns AgentWire Runs
  AckCredit WriteMemory

variable {b : Board} {u : Upload}

section Blocks
variable (u)

def pos (c : ℕ) : ℕ := min (writeMaxTransfer*c) u.total

lemma lt_count_iff (c : ℕ) : c < u.count ↔ writeMaxTransfer*c < u.total := by
  rw [Upload.count,writeMaxTransfer]
  omega

lemma pos_lt_iff (c : ℕ) : pos u c < u.total ↔ c < u.count := by
  rw [lt_count_iff,pos]
  omega

variable {u}

lemma pos_of_lt {c : ℕ} (h : c < u.count) : pos u c = writeMaxTransfer*c :=
  Nat.min_eq_left ((lt_count_iff u c).mp h).le

lemma pos_succ {c : ℕ} (h : c < u.count) : pos u c+u.blockSize (pos u c) = pos u (c+1) := by
  have hlt := (lt_count_iff u c).mp h
  rw [pos_of_lt h,pos,Upload.blockSize]
  rw [writeMaxTransfer] at *
  omega

lemma block_length (offset : ℕ) : (u.block offset).length = u.blockSize offset := by
  rw [Upload.block,length_take,length_drop,Upload.blockSize,Upload.total]
  omega

lemma blockSize_pos {i : ℕ} (h : i < u.count) : 0 < u.blockSize (writeMaxTransfer*i) := by
  have hlt := (lt_count_iff u i).mp h
  rw [Upload.blockSize]
  rw [writeMaxTransfer] at *
  omega

def Stored (u : Upload) (mem : ℕ → Byte) (i : ℕ) : Prop :=
  loadBytes mem (u.addr+writeMaxTransfer*i) (u.blockSize (writeMaxTransfer*i)) =
    u.block (writeMaxTransfer*i)

lemma stored_prefix {mem : ℕ → Byte} {c : ℕ} (hc : c ≤ u.count)
    (h : ∀ i < c,Stored u mem i) : loadBytes mem u.addr (pos u c) = u.data.take (pos u c) := by
  induction c with
  | zero =>
    rw [pos,Nat.mul_zero,Nat.zero_min]
    rfl
  | succ c ih =>
    have hlt : c < u.count := hc
    have hlast := h c (Nat.lt_succ_self c)
    rw [← pos_succ hlt,loadBytes_add,ih hlt.le fun i hi => h i (Nat.lt_succ_of_lt hi),
      take_add]
    rw [Stored,← pos_of_lt hlt] at hlast
    rw [hlast,Upload.block]

lemma pos_count : pos u u.count = u.total := by
  rw [pos,Upload.count,writeMaxTransfer]
  omega

lemma Stored.store {s : Machine b} {i j r : ℕ} {bytes : List Byte} (h : Stored u s.mem i)
    (hij : i < j) (hfit : u.addr+writeMaxTransfer*j+(r+bytes.length) ≤ 4294967296) :
    Stored u (s.store (u.addr+writeMaxTransfer*j+r) bytes).mem i := by
  rw [← Nat.add_assoc] at hfit
  have hsize : u.blockSize (writeMaxTransfer*i) ≤ writeMaxTransfer := Nat.min_le_left _ _
  have hnext : writeMaxTransfer*i+writeMaxTransfer ≤ writeMaxTransfer*j := by
    rw [← Nat.mul_succ]
    exact Nat.mul_le_mul_left _ hij
  rw [Stored,loadBytes_eq_slice _ _ _ (by omega)] at h
  rw [Stored,loadBytes_eq_slice _ _ _ (by omega),Machine.store,storeBytes_eq_patch _ _ _ hfit,
    slice_patch_apart _ _ _ _ _ (by omega)]
  exact h

end Blocks

variable {f : Frame}

section Agent
variable (others : Machine b → Frame → List Event × Machine b × Phase) (a : Agent b)

/-- The positive acknowledgements among the answers. -/
def oks (fs : List Frame) : ℕ := fs.countP fun f => isOk f = some true

@[simp] lemma oks_nil : oks [] = 0 := rfl

@[simp] lemma oks_append (fs gs : List Frame) : oks (fs++gs) = oks fs+oks gs :=
  countP_append

lemma oks_cons (f : Frame) (fs : List Frame) :
    oks (f::fs) = oks fs+if isOk f = some true then 1 else 0 := by
  simp [oks,countP_cons]

lemma recv_idle_noise (ha : a.phase = .idle) : ∃ events n,
    recv others a noise = (events,⟨a.machine,.idle,n⟩) ∧ oks (replies events) = 0 := by
  rw [recv,ha]
  simp only [noise,if_true]
  split
  · exact ⟨_,_,rfl,rfl⟩
  · exact ⟨_,_,rfl,rfl⟩

lemma recv_idle_data (ha : a.phase = .idle) (hf : f.cmd = rspData) :
    recv others a f = ([.reply (ack ackCrcError)],⟨a.machine,.idle,0⟩) := by
  rw [recv,ha]
  simp only [dispatch,hf]
  rfl

lemma recv_idle_write (ha : a.phase = .idle) (hf : f.cmd = cmdWrite) :
    recv others a f = ((startTransfer (writeTransfer b) f.payload).1,
      ⟨a.machine,(startTransfer (writeTransfer b) f.payload).2,0⟩) := by
  rw [recv,ha]
  simp only [dispatch,hf]
  rfl

lemma recv_transfer {t : Transfer} (ha : a.phase = .transfer t) (f : Frame) :
    recv others a f = ((transferRecv a.machine t f).1,
      ⟨(transferRecv a.machine t f).2.1,(transferRecv a.machine t f).2.2,a.idleCount⟩) := by
  rw [recv,ha]

/-- The transfer for block `i` with `r` bytes received. -/
def blockTransfer (u : Upload) (i r : ℕ) : Transfer :=
  ⟨.ram,u.addr+writeMaxTransfer*i,u.blockSize (writeMaxTransfer*i),
    (crc32 0 (u.block (writeMaxTransfer*i))).toNat,r⟩

lemma chunkOf_length_le (t : Transfer) (f : Frame) : (chunkOf t f).length ≤ t.size-t.received := by
  rw [chunkOf,taken,length_take]
  exact Nat.min_le_left _ _

lemma finishTransfer_block (s : Machine b) (j r : ℕ) :
    (crc32 0 (loadBytes s.mem (u.addr+writeMaxTransfer*j) (u.blockSize (writeMaxTransfer*j))) =
        crc32 0 (u.block (writeMaxTransfer*j)) ∧
      finishTransfer s (blockTransfer u j r) = ([.reply (ack ackOk)],s,.idle)) ∨
    ∃ answer,isOk answer ≠ some true ∧
      finishTransfer s (blockTransfer u j r) = ([.reply answer],s,.idle) := by
  simp only [finishTransfer,blockTransfer]
  by_cases heq : crc32 0 (loadBytes s.mem (u.addr+writeMaxTransfer*j)
      (u.blockSize (writeMaxTransfer*j))) = crc32 0 (u.block (writeMaxTransfer*j))
  · exact .inl ⟨heq,if_neg (not_not.mpr (congrArg BitVec.toNat heq))⟩
  · refine .inr ⟨_,?_,if_pos fun hnat => heq (BitVec.eq_of_toNat_eq hnat)⟩
    simp [isOk,crcErrorReply,ackCrcError,ackOk]

lemma startTransfer_request {i : ℕ} (hf : u.request (writeMaxTransfer*i) = some f)
    (hroute : flashRouted b (u.addr+writeMaxTransfer*i)
      (u.blockSize (writeMaxTransfer*i)) = false) :
    (startTransfer (writeTransfer b) f.payload = ([.reply (ack ackFlashError)],.idle)) ∨
    (startTransfer (writeTransfer b) f.payload =
        ([.reply (ack ackOk)],.transfer (blockTransfer u i 0)) ∧
      u.addr+writeMaxTransfer*i+u.blockSize (writeMaxTransfer*i) < 4294967296) := by
  obtain ⟨p,hp,rfl⟩ := Option.map_eq_some_iff.mp hf
  obtain ⟨haddr,rfl⟩ := packLe32_eq_some hp
  have hsize : u.blockSize (writeMaxTransfer*i) < 4294967296 :=
    (Nat.min_le_left _ _).trans_lt (by decide)
  have hcrc : (crc32 0 (u.block (writeMaxTransfer*i))).toNat < 4294967296 := BitVec.isLt _
  generalize hc : (crc32 0 (u.block (writeMaxTransfer*i))).toNat = crc at *
  obtain ⟨h0,h4⟩ := readLe32_fields haddr hsize (writeLe32 crc)
  have h8 : readLe32 (writeLe32 (u.addr+writeMaxTransfer*i)++
      (writeLe32 (u.blockSize (writeMaxTransfer*i))++writeLe32 crc)) 8 = crc := by
    rw [readLe32_shift _ _ 4,readLe32_shift _ _ 0]
    simpa using readLe32_writeLe32 crc hcrc []
  have hlong : ¬(writeLe32 (u.addr+writeMaxTransfer*i)++
      (writeLe32 (u.blockSize (writeMaxTransfer*i))++writeLe32 crc)).length < 12 := by
    simp
  simp only [startTransfer,if_neg hlong,writeTransfer,h0,h4,h8,hroute,Bool.false_eq_true,if_false]
  by_cases hacc : ramWriteAccepted b (u.addr+writeMaxTransfer*i) (u.blockSize (writeMaxTransfer*i))
  · refine .inr ⟨?_,?_⟩
    · simp only [hacc,if_true,blockTransfer,hc]
    · simp only [ramWriteAccepted,Bool.and_eq_true,decide_eq_true_eq] at hacc
      have hsum := hacc.2
      unfold u32 at hsum
      omega
  · exact .inl (by simp only [hacc,Bool.false_eq_true,if_false])

end Agent

section Simulation

inductive IsItem (u : Upload) : Frame → Item → Prop
  | request {i : ℕ} {f : Frame} : i < u.count → u.request (writeMaxTransfer*i) = some f →
      IsItem u f (.request i)
  | data {f : Frame} : f.cmd = rspData → IsItem u f .data

inductive IsWork (u : Upload) : Phase → Option ℕ → Prop
  | idle : IsWork u .idle none
  | busy {i r : ℕ} : i < u.count → r < u.blockSize (writeMaxTransfer*i) →
      u.addr+writeMaxTransfer*i+u.blockSize (writeMaxTransfer*i) < 4294967296 →
      IsWork u (.transfer (blockTransfer u i r)) (some i)

/-- The wire as a server; `todo` are frames the host is about to send and `read` the
acknowledgements it has counted. -/
structure Sim (u : Upload) (todo : List Frame) (read : ℕ) (w : Wire b) (s : State) : Prop where
  line : List.Forall₂ (IsItem u) (w.out++todo) s.line
  work : IsWork u w.agent.phase s.work
  acks : read+oks (w.inbox++w.back) = s.acks
  stored : ∀ i < u.count,s.stored i → Stored u w.agent.machine.mem i

variable {todo : List Frame} {read : ℕ} {w : Wire b} {s : State}
  (others : Machine b → Frame → List Event × Machine b × Phase)

lemma IsWork.phase {p : Phase} {o : Option ℕ} (h : IsWork u p o) :
    (p = .idle ∧ o = none) ∨ ∃ i r,p = .transfer (blockTransfer u i r) ∧ o = some i ∧
      i < u.count ∧ r < u.blockSize (writeMaxTransfer*i) ∧
      u.addr+writeMaxTransfer*i+u.blockSize (writeMaxTransfer*i) < 4294967296 := by
  cases h with
  | idle => exact .inl ⟨rfl,rfl⟩
  | busy hi hr hfit => exact .inr ⟨_,_,rfl,rfl,hi,hr,hfit⟩

lemma Sim.takeIn (h : Sim u todo read w s) {out : List Frame} {l : List Item}
    {o : Option ℕ} {n : ℕ} {stored : ℕ → Prop} {events : List Event} {a : Agent b}
    (hrecv : recv others w.agent f = (events,a)) (hline : List.Forall₂ (IsItem u) (out++todo) l)
    (hwork : IsWork u a.phase o) (hacks : n = s.acks+oks (replies events))
    (hstored : ∀ i < u.count,stored i → Stored u a.machine.mem i) :
    Sim u todo read (w.takeIn others f out) ⟨l,o,n,stored⟩ where
  line := hline
  work := by simpa only [Wire.takeIn,hrecv] using hwork
  acks := by
    have hold := h.acks
    simp only [oks_append] at hold
    simp only [Wire.takeIn,hrecv,oks_append]
    omega
  stored := by simpa only [Wire.takeIn,hrecv] using hstored

lemma Sim.lose (h : Sim u todo read w s) : ∃ s',
    Sim u todo read (w.step others .lose) s' ∧ Moves s s' := by
  rw [Wire.step]
  cases hout : w.out with
  | nil => exact ⟨s,{h with line := by simpa only [hout,tail_nil] using h.line},.refl⟩
  | cons f out =>
    have hline := h.line
    rw [hout,cons_append] at hline
    obtain ⟨x,l,_,hrest,hl⟩ := forall₂_cons_left_iff.mp hline
    exact ⟨{s with line := l},{h with line := hrest},.single (.lose hl)⟩

lemma Sim.noise (h : Sim u todo read w s) : ∃ s',
    Sim u todo read (w.takeIn others noise w.out) s' ∧ Moves s s' := by
  rcases h.work.phase with ⟨hphase,hnone⟩ | ⟨i,r,hphase,_⟩
  · obtain ⟨events,n,hrecv,hoks⟩ := recv_idle_noise others w.agent hphase
    exact ⟨s,h.takeIn others hrecv h.line (hnone ▸ .idle) (by rw [hoks]; rfl) h.stored,.refl⟩
  · have hrecv := recv_transfer others w.agent hphase AgentWire.noise
    exact ⟨{s with work := none},h.takeIn others hrecv h.line .idle rfl h.stored,.single .abort⟩

/-- A request arrives: it starts a transfer, is refused, or comes while another one is
under way. -/
theorem Sim.request (h : Sim u todo read w s) {i : ℕ} {out : List Frame}
    {l : List Item} (hi : i < u.count) (hf : u.request (writeMaxTransfer*i) = some f)
    (hroute : flashRouted b (u.addr+writeMaxTransfer*i) (u.blockSize (writeMaxTransfer*i)) = false)
    (hline : List.Forall₂ (IsItem u) (out++todo) l) (hl : s.line = .request i::l) : ∃ s',
    Sim u todo read (w.takeIn others f out) s' ∧ Moves s s' := by
  have hcmd : f.cmd = cmdWrite := by
    obtain ⟨p,_,rfl⟩ := Option.map_eq_some_iff.mp hf
    rfl
  rcases h.work.phase with ⟨hphase,hnone⟩ | ⟨j,r,hphase,hsome,hj,hr,hfit⟩
  · have hrecv := recv_idle_write others w.agent hphase hcmd
    rcases startTransfer_request hf hroute with hrefused | ⟨haccepted,hfit⟩
    · rw [hrefused] at hrecv
      exact ⟨{s with line := l},h.takeIn others hrecv hline (hnone ▸ .idle) rfl h.stored,
        .single (.lose hl)⟩
    · rw [haccepted] at hrecv
      exact ⟨{s with line := l, work := some i, acks := s.acks+1},
        h.takeIn others hrecv hline (.busy hi (blockSize_pos hi) hfit) rfl h.stored,
        .single (.start hl hnone)⟩
  · have hrecv := recv_transfer others w.agent hphase f
    have hskip : transferRecv w.agent.machine (blockTransfer u j r) f =
        ([],w.agent.machine,.transfer (blockTransfer u j r)) := by
      rw [transferRecv,hcmd]
      rfl
    rw [hskip] at hrecv
    exact ⟨{s with line := l},h.takeIn others hrecv hline (hsome ▸ .busy hj hr hfit) rfl h.stored,
      .single (.lose hl)⟩

lemma Sim.data (h : Sim u todo read w s) {out : List Frame} {l : List Item}
    (hf : f.cmd = rspData) (hline : List.Forall₂ (IsItem u) (out++todo) l)
    (hl : s.line = .data::l)
    (hcrc : ∀ t,w.agent.phase = .transfer t → t.size ≤ t.received+(chunkOf t f).length →
      NoCollision u (loadBytes
        (w.agent.machine.store (t.dest+t.received) (chunkOf t f)).mem t.dest t.size)) : ∃ s',
    Sim u todo read (w.takeIn others f out) s' ∧ Moves s s' := by
  rcases h.work.phase with ⟨hphase,hnone⟩ | ⟨j,r,hphase,hsome,hj,hr,hfit⟩
  · have hrecv := recv_idle_data others w.agent hphase hf
    exact ⟨{s with line := l},h.takeIn others hrecv hline (hnone ▸ .idle) rfl h.stored,
      .single (.lose hl)⟩
  · have hrecv := recv_transfer others w.agent hphase f
    have hkept : ∀ i < j,s.stored i → Stored u (w.agent.machine.store
        (u.addr+writeMaxTransfer*j+r) (chunkOf (blockTransfer u j r) f)).mem i := by
      intro i hij hs
      apply (h.stored i (hij.trans hj) hs).store hij
      have hchunk : (chunkOf (blockTransfer u j r) f).length ≤
          u.blockSize (writeMaxTransfer*j)-r := chunkOf_length_le _ f
      omega
    rcases transferRecv_cases w.agent.machine (blockTransfer u j r) f with
      ⟨_,_,⟨hmore,hstep⟩ | ⟨hmore,hstep⟩⟩ | ⟨_,⟨hzero,_⟩ | ⟨_,hstep⟩⟩
    · rw [hstep] at hrecv
      exact ⟨{s with line := l, stored := fun i => i < j ∧ s.stored i},
        h.takeIn others hrecv hline (hsome ▸ .busy hj hmore hfit) rfl
          fun i _ hs => hkept i hs.1 hs.2,
        .single (.fill hl hsome fun i hi hs => ⟨hi,hs⟩)⟩
    · rw [hstep] at hrecv
      have hfound := hcrc _ hphase (Nat.le_of_not_lt hmore)
      rcases finishTransfer_block (w.agent.machine.store ((blockTransfer u j r).dest+
        (blockTransfer u j r).received) (chunkOf (blockTransfer u j r) f)) j
        (r+(chunkOf (blockTransfer u j r) f).length) with
        ⟨hsum,hdone⟩ | ⟨answer,hnot,hdone⟩
      · rw [show finishTransfer _ (advance (blockTransfer u j r) _) = _ from hdone] at hrecv
        have hstored : Stored u _ j := hfound j hj (by rw [loadBytes_length,block_length]; rfl) hsum
        refine ⟨⟨l,none,s.acks+1,fun i => i = j ∨ i < j ∧ s.stored i⟩,
          h.takeIn others hrecv hline .idle rfl ?_,
          .single (.finish hl hsome (fun i hi hs => .inr ⟨hi,hs⟩) (.inl rfl))⟩
        rintro i _ (rfl | hs)
        · exact hstored
        · exact hkept i hs.1 hs.2
      · rw [show finishTransfer _ (advance (blockTransfer u j r) _) = _ from hdone] at hrecv
        have hacks : oks [answer] = 0 := by rw [oks_cons,if_neg hnot]; rfl
        refine ⟨⟨l,none,s.acks,fun i => i < j ∧ s.stored i⟩,
          h.takeIn others hrecv hline .idle ?_ ?_,?_⟩
        · rw [replies_store,replies_reply,replies_nil,hacks]
          rfl
        · exact fun i _ hs => hkept i hs.1 hs.2
        · -- the block is spoilt and the agent free again
          exact (Relation.ReflTransGen.single
            (.fill hl hsome fun i hi hs => ⟨hi,hs⟩)).tail .abort
    · rw [hf] at hzero
      exact absurd hzero (by decide)
    · rw [hstep] at hrecv
      exact ⟨{s with line := l},h.takeIn others hrecv hline (hsome ▸ .busy hj hr hfit) rfl h.stored,
        .single (.lose hl)⟩

/-- No block of the upload is taken for flash. -/
def Apart (b : Board) (u : Upload) : Prop := ∀ i < u.count,
  flashRouted b (u.addr+writeMaxTransfer*i) (u.blockSize (writeMaxTransfer*i)) = false

lemma Sim.deliver (h : Sim u todo read w s) (hapart : Apart b u) {host : Host}
    (hcrc : CollisionFree u ⟨host,w⟩ (.wire .deliver)) : ∃ s',
    Sim u todo read (w.step others .deliver) s' ∧ Moves s s' := by
  rw [Wire.step]
  cases hout : w.out with
  | nil => exact ⟨s,h,.refl⟩
  | cons f out =>
    have hline := h.line
    rw [hout,cons_append] at hline
    obtain ⟨x,l,hitem,hrest,hl⟩ := forall₂_cons_left_iff.mp hline
    cases hitem with
    | request hi hf => exact h.request others hi hf (hapart _ hi) hrest hl
    | data hf =>
      apply h.data others hf hrest hl
      intro t ht hsize
      apply hcrc f (by rw [hout]; rfl) t (by rw [ht]; rfl) hsize

lemma Sim.wire (h : Sim u todo read w s) (hapart : Apart b u) {host : Host} (l : WireLabel)
    (hcrc : CollisionFree u ⟨host,w⟩ (.wire l)) : ∃ s',
    Sim u todo read (w.step others l) s' ∧ Moves s s' := by
  cases l with
  | deliver => exact h.deliver others hapart hcrc
  | corrupt =>
    -- the frame is lost and the agent hears noise instead
    obtain ⟨s',hlost,hmoves⟩ := h.lose others
    obtain ⟨s'',hnoise,hmoves'⟩ := hlost.noise others
    rw [Wire.step]
    cases hout : w.out with
    | nil => exact ⟨s,h,.refl⟩
    | cons f out =>
      refine ⟨s'',?_,hmoves.trans hmoves'⟩
      simpa only [Wire.takeIn,Wire.step,hout,tail_cons] using hnoise
  | lose => exact h.lose others
  | silence => exact h.noise others
  | arrive =>
    rw [Wire.step]
    cases hback : w.back with
    | nil => exact ⟨s,h,.refl⟩
    | cons f back =>
      refine ⟨s,{h with acks := ?_},.refl⟩
      rw [← h.acks,hback,append_assoc]
      rfl
  | loseAnswer =>
    have hle : oks w.back.tail ≤ oks w.back := (tail_sublist _).countP_le
    have hacks := h.acks
    rw [oks_append] at hacks
    refine ⟨{s with acks := read+oks (w.inbox++w.back.tail)},⟨h.line,h.work,rfl,h.stored⟩,
      .single (.miss ?_)⟩
    rw [oks_append]
    omega

end Simulation

section Host
variable {c n read : ℕ} {todo : List Frame} {w : Wire b}
  (others : Machine b → Frame → List Event × Machine b × Phase)

/-- The host is at a batch of `n` blocks from block `c` on. -/
def Holds (u : Upload) (c n : ℕ) (todo : List Frame) (read : ℕ) (w : Wire b) : Prop :=
  ∃ s,Sim u todo read w s ∧ Batch c n s

/-- The host has given up a batch that began with block `c`. -/
def Left (u : Upload) (c : ℕ) (w : Wire b) : Prop := ∃ read s,Sim u [] read w s ∧ Base c s

lemma Holds.left (h : Holds u c n [] read w) : Left u c w := by
  obtain ⟨s,hsim,hbatch⟩ := h
  exact ⟨read,s,hsim,hbatch.base⟩

lemma Holds.send (h : Holds u c n (f::todo) read w) :
    Holds u c n todo read (send w f) := by
  obtain ⟨s,hsim,hbatch⟩ := h
  refine ⟨s,{hsim with line := ?_},hbatch⟩
  have hline := hsim.line
  rw [WriteMemory.send,append_assoc]
  exact hline

lemma dataFrames_items (block : List Byte) :
    ∃ ds,List.Forall₂ (IsItem u) (dataFrames block) ds ∧ ∀ x ∈ ds,x = Item.data := by
  refine ⟨(dataFrames block).map fun _ => .data,?_,by simp⟩
  rw [forall₂_map_right_iff,forall₂_same]
  intro f hf
  obtain ⟨x,_,rfl⟩ := mem_map.mp hf
  exact .data rfl

lemma Holds.submit (h : Holds u c n [] read w) (hc : c+n < u.count)
    (hf : u.request (writeMaxTransfer*(c+n)) = some f) {fs : List Frame} {ds : List Item}
    (hfs : List.Forall₂ (IsItem u) fs ds) (hds : ∀ x ∈ ds,x = Item.data) :
    Holds u c (n+1) (f::fs) read w := by
  obtain ⟨s,hsim,hbatch⟩ := h
  refine ⟨{s with line := s.line++.request (c+n)::ds},{hsim with line := ?_},hbatch.submit hds⟩
  have hline := hsim.line
  rw [append_nil] at hline
  exact rel_append hline (.cons (.request hc hf) hfs)

lemma Holds.feed {ds : List Item} (h : Holds u c n [] read w) (hn : 0 < n)
    (hfs : List.Forall₂ (IsItem u) todo ds) (hds : ∀ x ∈ ds,x = Item.data) :
    Holds u c n todo read w := by
  obtain ⟨s,hsim,hbatch⟩ := h
  refine ⟨{s with line := s.line++ds},{hsim with line := ?_},hbatch.feed hn hds⟩
  have hline := hsim.line
  rw [append_nil] at hline
  exact rel_append hline hfs

lemma Holds.counted {inbox : List Frame} (h : Holds u c n todo read w)
    (hin : w.inbox = f::inbox) :
    Holds u c n todo (read+if isOk f = some true then 1 else 0) {w with inbox := inbox} := by
  obtain ⟨s,hsim,hbatch⟩ := h
  refine ⟨s,{hsim with acks := ?_},hbatch⟩
  rw [← hsim.acks,hin,cons_append,oks_cons]
  dsimp only
  omega

lemma Holds.clear (h : Holds u c n todo read w) (held : ℕ) :
    Holds u c n todo read (clearRxBuffers u w held) := by
  rw [clearRxBuffers]
  split
  · obtain ⟨s,hsim,hbatch⟩ := h
    have hle : oks (w.inbox.drop held) ≤ oks w.inbox := (drop_sublist _ _).countP_le
    have hacks := hsim.acks
    rw [oks_append] at hacks
    refine ⟨{s with acks := read+oks (w.inbox.drop held++w.back)},
      ⟨hsim.line,hsim.work,rfl,hsim.stored⟩,hbatch.miss ?_⟩
    rw [oks_append]
    omega
  · exact h

lemma Holds.settle (h : Holds u c n [] (2*n) w) : Holds u (c+n) 0 [] 0 w := by
  obtain ⟨s,hsim,hbatch⟩ := h
  have hacks := hsim.acks
  obtain ⟨heq,hnext⟩ := hbatch.settle (by omega)
  exact ⟨{s with acks := 0},⟨hsim.line,hsim.work,by dsimp only; omega,hsim.stored⟩,hnext⟩

lemma Left.restart (h : Left u c w) (hout : w.out = []) (hback : w.back = [])
    (hin : u.hasPort ∨ w.inbox = []) : Holds u c 0 [] 0 (resetInput u w) := by
  obtain ⟨read,s,hsim,hbase⟩ := h
  have hline := hsim.line
  rw [hout,append_nil,forall₂_nil_left_iff] at hline
  refine ⟨{s with acks := 0},?_,hbase.restart hline⟩
  rw [resetInput]
  split
  · exact ⟨hsim.line,hsim.work,by simp [hback],hsim.stored⟩
  · next hport =>
    have hempty : w.inbox = [] := hin.resolve_left hport
    exact ⟨hsim.line,hsim.work,by simp [hback,hempty],hsim.stored⟩

lemma Holds.wire (h : Holds u c n todo read w) (hapart : Apart b u) {host : Host}
    {l : WireLabel} (hcrc : CollisionFree u ⟨host,w⟩ (.wire l)) :
    Holds u c n todo read (w.step others l) := by
  obtain ⟨s,hsim,hbatch⟩ := h
  obtain ⟨s',hsim',hmoves⟩ := hsim.wire others hapart l hcrc
  exact ⟨s',hsim',hbatch.moves hmoves⟩

lemma Left.wire (h : Left u c w) (hapart : Apart b u) {host : Host} {l : WireLabel}
    (hcrc : CollisionFree u ⟨host,w⟩ (.wire l)) : Left u c (w.step others l) := by
  obtain ⟨read,s,hsim,hbase⟩ := h
  obtain ⟨s',hsim',hmoves⟩ := hsim.wire others hapart l hcrc
  exact ⟨read,s',hsim',hbase.moves hmoves⟩

/-- The batch a state of the host is about. -/
inductive At (u : Upload) : Host → (c n : ℕ) → List Frame → (read : ℕ) → Prop
  | window {c : ℕ} (size : ℕ) : c ≤ u.count → At u (.window (pos u c) size) c 0 [] 0
  | blocks {c n : ℕ} (size : ℕ) (todo : List Frame) : c+n ≤ u.count →
      At u (.blocks (pos u c) (pos u (c+n)) n size todo) c n todo 0
  | acks {c n left read : ℕ} (size : ℕ) : c+n ≤ u.count → left+read = 2*n →
      At u (.acks (pos u c) (pos u (c+n)) n size left) c n [] read
  | single {c : ℕ} (left : ℕ) : c ≤ u.count → At u (.single (pos u c) left) c 0 [] 0
  | accept {c : ℕ} (left : ℕ) : c < u.count → At u (.accept (pos u c) left) c 1 [] 0
  | chunks {c : ℕ} (left : ℕ) (todo : List Frame) : c < u.count →
      At u (.chunks (pos u c) left todo) c 1 todo 1
  | verdict {c : ℕ} (left : ℕ) : c < u.count → At u (.verdict (pos u c) left) c 1 [] 1
  | ended : At u (.ended true) u.count 0 [] 0

inductive Sound (u : Upload) : System b → Prop
  | at {host : Host} {c n : ℕ} {todo : List Frame} {read : ℕ} {w : Wire b} :
      At u host c n todo read → Holds u c n todo read w → Sound u ⟨host,w⟩
  | failed {c : ℕ} (sent : ℕ) {w : Wire b} : c ≤ u.count → Left u c w →
      Sound u ⟨.failed (pos u c) sent,w⟩
  | refused {w : Wire b} : Sound u ⟨.ended false,w⟩
  | raised {w : Wire b} : Sound u ⟨.raised,w⟩

lemma Sound.waiting {host : Host} {w : Wire b} (h : Sound u ⟨host,w⟩) (hw : host.waits = true) :
    ∃ c n read,At u host c n [] read ∧ Holds u c n [] read w := by
  cases h with
  | «at» hat hholds =>
    cases hat with
    | acks size hc hleft => exact ⟨_,_,_,.acks size hc hleft,hholds⟩
    | accept left hc => exact ⟨_,_,_,.accept left hc,hholds⟩
    | verdict left hc => exact ⟨_,_,_,.verdict left hc,hholds⟩
    | window => cases hw
    | blocks => cases hw
    | single => cases hw
    | chunks => cases hw
    | ended => cases hw
  | failed => cases hw
  | refused => cases hw
  | raised => cases hw

lemma Sound.blocks {size : ℕ} (hc : c+n ≤ u.count) (h : Holds u c n todo 0 w) (held : ℕ) :
    Sound u (hostStep u ⟨.blocks (pos u c) (pos u (c+n)) n size todo,w⟩ held) := by
  cases todo with
  | cons f todo => exact .at (.blocks size todo hc) h.send
  | nil =>
    simp only [hostStep]
    by_cases hmore : n < size ∧ pos u (c+n) < u.total
    · have hlt := (pos_lt_iff u (c+n)).mp hmore.2
      rw [if_pos hmore,pos_succ hlt]
      cases hf : u.request (pos u (c+n)) with
      | none => exact .raised
      | some f =>
        obtain ⟨ds,hfs,hds⟩ := dataFrames_items (u := u) (u.block (pos u (c+n)))
        refine .at (.blocks (n := n+1) size _ hlt) (h.submit hlt ?_ hfs hds)
        rw [← pos_of_lt hlt]
        exact hf
    · rw [if_neg hmore]
      exact .at (.acks size hc rfl) h

lemma Sound.single (hc : c ≤ u.count) (h : Holds u c 0 [] 0 w) (left held : ℕ) :
    Sound u (hostStep u ⟨.single (pos u c) left,w⟩ held) := by
  cases left with
  | zero => exact .at (.window _ hc) h
  | succ left =>
    simp only [hostStep]
    by_cases hend : u.total ≤ pos u c
    · rw [if_pos hend]
      exact .at (.window _ hc) h
    · have hlt := (pos_lt_iff u c).mp (Nat.lt_of_not_le hend)
      rw [if_neg hend]
      cases hf : u.request (pos u c) with
      | none => exact .raised
      | some f =>
        rw [pos_of_lt hlt] at hf
        have hnext := (h.clear held).submit hlt hf .nil nofun
        exact .at (.accept left hlt) hnext.send

lemma Sound.chunks (hc : c < u.count) (h : Holds u c 1 todo 1 w) (left held : ℕ) :
    Sound u (hostStep u ⟨.chunks (pos u c) left todo,w⟩ held) := by
  cases todo with
  | nil => exact .at (.verdict left hc) h
  | cons f todo => exact .at (.chunks left todo hc) h.send

lemma Sound.host {s : System b} (h : Sound u s) {held : ℕ} (hd : Drained u s (.host held)) :
    Sound u (hostStep u s held) := by
  cases h with
  | «at» hat hholds =>
    cases hat with
    | window size hc =>
      simp only [hostStep]
      split
      · exact .at (.blocks (n := 0) size [] hc) hholds
      · next hend =>
        obtain rfl := Nat.le_antisymm hc (Nat.le_of_not_lt (mt (pos_lt_iff u _).mpr hend))
        exact .at .ended hholds
    | blocks size todo hc => exact Sound.blocks hc hholds held
    | @acks c n left read size hc hleft =>
      cases left with
      | zero =>
        rw [Nat.zero_add] at hleft
        subst hleft
        exact .at (.window size hc) hholds.settle
      | succ left => exact .at (.acks size hc hleft) hholds
    | single left hc => exact Sound.single hc hholds left held
    | accept left hc => exact .at (.accept left hc) hholds
    | chunks left todo hc => exact Sound.chunks hc hholds left held
    | verdict left hc => exact .at (.verdict left hc) hholds
    | ended => exact .at .ended hholds
  | failed sent hc hleft =>
    obtain ⟨hout,hback,hin⟩ := hd rfl
    exact .at (.single sent hc) (hleft.restart hout hback hin)
  | refused => exact .refused
  | raised => exact .raised

lemma Sound.answered {host : Host} {inbox : List Frame} (h : Sound u ⟨host,w⟩)
    (hw : host.waits = true) (hin : w.inbox = f::inbox) :
    Sound u ⟨answered u ⟨host,w⟩ f,{w with inbox := inbox}⟩ := by
  obtain ⟨c,n,read,hat,hholds⟩ := h.waiting hw
  have hread := hholds.counted hin
  by_cases hready : f.cmd = rspReady
  · rw [WriteMemory.answered,if_pos hready]
    have hnot : isOk f ≠ some true := by
      rw [isOk,hready,if_neg (by decide)]
      exact nofun
    rw [if_neg hnot] at hread
    exact .at hat hread
  · rw [WriteMemory.answered,if_neg hready]
    cases hat with
    | @acks _ _ left _ size hc hleft =>
      cases left with
      | zero => cases hw
      | succ left =>
        by_cases hok : isOk f = some true
        · simp only [hok,if_true] at hread ⊢
          exact .at (.acks size hc (by omega)) hread
        · simp only [hok,if_false] at hread ⊢
          exact .failed _ ((Nat.le_add_right _ _).trans hc) hread.left
    | accept left hc =>
      cases hok : isOk f with
      | none => exact .raised
      | some r =>
        cases r with
        | false => exact .refused
        | true =>
          rw [if_pos hok] at hread
          obtain ⟨ds,hfs,hds⟩ := dataFrames_items (u := u) (u.block (pos u c))
          exact .at (.chunks left _ hc) (hread.feed Nat.one_pos hfs hds)
    | verdict left hc =>
      cases hok : isOk f with
      | none => exact .raised
      | some r =>
        cases r with
        | false => exact .refused
        | true =>
          rw [if_pos hok] at hread
          have hnext : At u (.single (pos u c+u.blockSize (pos u c)) left) (c+1) 0 [] 0 :=
            pos_succ hc ▸ .single left hc
          exact .at hnext hread.settle
    | window => cases hw
    | blocks => cases hw
    | single => cases hw
    | chunks => cases hw
    | ended => cases hw

lemma Sound.expire {s : System b} (h : Sound u s) : Sound u (step others u s .expire) := by
  cases h with
  | «at» hat hholds =>
    cases hat with
    | window size hc => exact .at (.window size hc) hholds
    | blocks size _ hc => exact .at (.blocks size _ hc) hholds
    | @acks _ _ left _ size hc hleft =>
      cases left with
      | zero => exact .at (.acks size hc hleft) hholds
      | succ left => exact .failed _ ((Nat.le_add_right _ _).trans hc) hholds.left
    | single left hc => exact .at (.single left hc) hholds
    | accept left hc => exact .raised
    | chunks left _ hc => exact .at (.chunks left _ hc) hholds
    | verdict left hc => exact .raised
    | ended => exact .at .ended hholds
  | failed sent hc hleft => exact .failed sent hc hleft
  | refused => exact .refused
  | raised => exact .raised

lemma Sound.step {s : System b} (h : Sound u s) (hapart : Apart b u) {l : Label}
    (hcrc : CollisionFree u s l) (hd : Drained u s l) : Sound u (step others u s l) := by
  cases l with
  | host held => exact h.host hd
  | read =>
    obtain ⟨host,w⟩ := s
    rw [WriteMemory.step]
    cases hw : host.waits with
    | false => exact h
    | true =>
      cases hin : w.inbox with
      | nil => exact h
      | cons f inbox => exact h.answered hw hin
  | expire => exact h.expire others
  | wire l =>
    cases h with
    | «at» hat hholds => exact .at hat (hholds.wire others hapart hcrc)
    | failed sent hc hleft => exact .failed sent hc (hleft.wire others hapart hcrc)
    | refused => exact .refused
    | raised => exact .raised

lemma Sound.start (a : Agent b) (ha : a.phase = .idle) : Sound u (start u a) := by
  have hbase : Base 0 ⟨[],none,0,fun _ => False⟩ := ⟨by simp,by simp,by simp⟩
  have hzero : pos u 0 = 0 := Nat.zero_min _
  have hat := At.window (u := u) (u.windowAt 0) (Nat.zero_le u.count)
  rw [hzero] at hat
  exact .at hat ⟨_,⟨.nil,ha ▸ .idle,rfl,by simp⟩,hbase.restart rfl⟩

end Host

/-- When no block is taken for flash and nothing of a failed window is under way at the end
of the pause, an upload that returns `True` has stored the data. -/
theorem upload_stored (u : Upload)
    (others : Machine b → Frame → List Event × Machine b × Phase) (a : Agent b)
    (ha : a.phase = .idle) (ls : List Label)
    (hcrc : Along (step others u) (CollisionFree u) (start u a) ls) (hapart : Apart b u)
    (hdrained : Along (step others u) (Drained u) (start u a) ls)
    (htrue : (ls.foldl (step others u) (start u a)).host = .ended true) :
    loadBytes (ls.foldl (step others u) (start u a)).wire.agent.machine.mem u.addr
      u.data.length = u.data := by
  have hsound : Sound u (ls.foldl (step others u) (start u a)) :=
    Along.invariant (fun s l h hk => h.step others hapart hk.1 hk.2) (Sound.start a ha)
      (hcrc.and hdrained)
  generalize ls.foldl (step others u) (start u a) = s at hsound htrue
  cases hsound with
  | «at» hat hholds =>
    cases htrue
    cases hat with
    | ended =>
      obtain ⟨s,hsim,hbatch⟩ := hholds
      have hall := stored_prefix le_rfl fun i hi => hsim.stored i hi (hbatch.base.stored i hi)
      rw [pos_count,Upload.total,take_length] at hall
      exact hall
  | failed => cases htrue
  | refused => cases htrue
  | raised => cases htrue

section Cases

/-- A board with 16 MiB of SPI NOR, its agent waiting for a command. -/
def board : Board := .withNor .hi3516ev300 0x18

def waiting : Agent board := ⟨.idle board (fun _ => 0) (fun _ => 0) (fun _ => 0xFF) 0,.idle,0⟩

def noOthers : Machine board → Frame → List Event × Machine board × Phase :=
  fun s _ => ([],s,.idle)

def oneByte (hasPort : Bool) : Upload := ⟨0x42000000,[0xAA],hasPort⟩

/-- The data packet is lost and the window fails. The agent's complaint arrives before the pause
ends, and the retry goes through. -/
def retryRun : List Label :=
  List.replicate 3 (.host 0)++[.wire .deliver,.host 0,.wire .lose,.host 0,.wire .arrive,.read,
    .expire,.wire .silence,.wire .arrive,.host 0,.host 0,.wire .deliver,.wire .arrive,.read,
    .host 0,.host 0,.wire .deliver,.wire .arrive,.read,.host 0,.host 0]

theorem retried_upload_stored :
    loadBytes (retryRun.foldl (step noOthers (oneByte true)) (start (oneByte true)
      waiting)).wire.agent.machine.mem 0x42000000 1 = [0xAA] :=
  upload_stored (oneByte true) noOthers waiting rfl retryRun (by decide +kernel)
    (by unfold Apart; decide +kernel) (by decide +kernel) (by decide +kernel)

/-- The first answer is late and the data packet lost. The retry takes the late answer for
the one to its own `CMD_WRITE` and that one for the verdict on the data, which is lost too. -/
def lateRun : List Label :=
  List.replicate 3 (.host 0)++[.wire .deliver,.host 0,.wire .lose,.host 0,.expire,.wire .silence,
    .host 0,.host 0,.wire .deliver,.wire .arrive,.wire .loseAnswer,.wire .arrive,.read,.host 0,
    .wire .lose,.host 0,.read,.host 0,.host 0]

def lateEnd (hasPort : Bool) : System board :=
  lateRun.foldl (step noOthers (oneByte hasPort)) (start (oneByte hasPort) waiting)

theorem late_answer_stores_nothing :
    (Along (step noOthers (oneByte true)) (CollisionFree (oneByte true))
        (start (oneByte true) waiting) lateRun ∧ (lateEnd true).host = .ended true ∧
      loadBytes (lateEnd true).wire.agent.machine.mem 0x42000000 1 = [0]) ∧
    (Along (step noOthers (oneByte false)) (CollisionFree (oneByte false))
        (start (oneByte false) waiting) lateRun ∧ (lateEnd false).host = .ended true ∧
      loadBytes (lateEnd false).wire.agent.machine.mem 0x42000000 1 = [0]) := by
  decide +kernel

end Cases

end Defib.RamUpload
