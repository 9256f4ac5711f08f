import Defib.AgentTransfers

/-!
# Whole transfers

The receive loop on every sequence of frames that may follow an accepted request. The
received bytes go to the destination in order and the loop ends with the job of the
transfer, with a refusal, or not at all. Which addresses a run can touch, and that one-byte
frames make it touch all of them, is what the range checks have to be measured by.
-/
namespace Defib.TransferRuns
open List Words BlockMemory Spans Crc32 Boards FlashDevice AgentMachine AgentTransfers

variable {b : Board}

/-- The receive loop on the frames `proto_recv` returns; `cmd = 0` is its timeout. -/
def transferRun : Machine b → Transfer → List Frame → List Event × Machine b × Phase
  | s,t,[] => ([],s,.transfer t)
  | s,t,rx::rxs =>
    let r := transferRecv s t rx
    match r.2.2 with
    | .transfer t' => (r.1++(transferRun r.2.1 t' rxs).1,(transferRun r.2.1 t' rxs).2)
    | _ => r

/-- The bytes taken from a frame while `left` are missing. -/
def taken (left : ℕ) (rx : Frame) : List Byte := (rx.payload.drop 2).take left

def chunkOf (t : Transfer) (rx : Frame) : List Byte := taken (t.size-t.received) rx

def advance (t : Transfer) (n : ℕ) : Transfer := {t with received := t.received+n}

lemma transferRecv_cases (s : Machine b) (t : Transfer) (rx : Frame) :
    (rx.cmd = rspData ∧ 2 < rx.payload.length ∧
      ((t.received+(chunkOf t rx).length < t.size ∧ transferRecv s t rx =
          ([.store (u32 (t.dest+t.received)) (chunkOf t rx)],
            s.store (t.dest+t.received) (chunkOf t rx),
            .transfer (advance t (chunkOf t rx).length))) ∨
        (¬t.received+(chunkOf t rx).length < t.size ∧ transferRecv s t rx =
          (.store (u32 (t.dest+t.received)) (chunkOf t rx) ::
              (finishTransfer (s.store (t.dest+t.received) (chunkOf t rx))
                (advance t (chunkOf t rx).length)).1,
            (finishTransfer (s.store (t.dest+t.received) (chunkOf t rx))
                (advance t (chunkOf t rx).length)).2)))) ∨
    (¬(rx.cmd = rspData ∧ 2 < rx.payload.length) ∧
      ((rx.cmd = 0 ∧ transferRecv s t rx = ([.reply (abortReply t)],s,.idle)) ∨
        (rx.cmd ≠ 0 ∧ transferRecv s t rx = ([],s,.transfer t)))) := by
  by_cases hdata : rx.cmd = rspData ∧ 2 < rx.payload.length
  · by_cases hmore : t.received+(chunkOf t rx).length < t.size
    · refine .inl ⟨hdata.1,hdata.2,.inl ⟨hmore,?_⟩⟩
      rw [transferRecv,if_pos hdata]
      exact if_pos hmore
    · refine .inl ⟨hdata.1,hdata.2,.inr ⟨hmore,?_⟩⟩
      rw [transferRecv,if_pos hdata]
      exact if_neg hmore
  · by_cases hzero : rx.cmd = 0
    · exact .inr ⟨hdata,.inl ⟨hzero,by rw [transferRecv,if_neg hdata,if_pos hzero]⟩⟩
    · exact .inr ⟨hdata,.inr ⟨hzero,by rw [transferRecv,if_neg hdata,if_neg hzero]⟩⟩

lemma finishTransfer_phase (s : Machine b) (t : Transfer) (t' : Transfer) :
    (finishTransfer s t).2.2 ≠ .transfer t' := by
  unfold finishTransfer
  cases t.job with
  | ram => simp only; split_ifs <;> exact nofun
  | flash a => simp only; split_ifs <;> exact nofun
  | update a => simp only; split_ifs <;> exact nofun

variable {t : Transfer} {s : Machine b}

lemma transferRun_cons_of_over {rx : Frame}
    (h : ∀ t',(transferRecv s t rx).2.2 ≠ .transfer t') (rxs : List Frame) :
    transferRun s t (rx::rxs) = transferRecv s t rx := by
  rw [transferRun]
  split
  · next t' ht => exact absurd ht (h t')
  · rfl

lemma transferRun_cons_of_more {s s' : Machine b} {t t' : Transfer} {rx : Frame}
    {ev : List Event} (h : transferRecv s t rx = (ev,s',.transfer t')) (rxs : List Frame) :
    transferRun s t (rx::rxs) = (ev++(transferRun s' t' rxs).1,(transferRun s' t' rxs).2) := by
  rw [transferRun,h]

lemma transferRun_induction {P : Machine b → Transfer → List Frame →
      List Event × Machine b × Phase → Prop}
    (stop : ∀ s t,P s t [] ([],s,.transfer t))
    (more : ∀ s t rx rxs,2 < rx.payload.length → rx.cmd = rspData →
      t.received+(chunkOf t rx).length < t.size →
      (let s' := s.store (t.dest+t.received) (chunkOf t rx)
       let t' := advance t (chunkOf t rx).length
       P s' t' rxs (transferRun s' t' rxs) → P s t (rx::rxs)
        (.store (u32 (t.dest+t.received)) (chunkOf t rx) :: (transferRun s' t' rxs).1,
          (transferRun s' t' rxs).2)))
    (last : ∀ s t rx rxs,2 < rx.payload.length → rx.cmd = rspData →
      ¬t.received+(chunkOf t rx).length < t.size →
      (let f := finishTransfer (s.store (t.dest+t.received) (chunkOf t rx))
        (advance t (chunkOf t rx).length)
       P s t (rx::rxs) (.store (u32 (t.dest+t.received)) (chunkOf t rx) :: f.1,f.2)))
    (abort : ∀ s t rx rxs,¬(rx.cmd = rspData ∧ 2 < rx.payload.length) → rx.cmd = 0 →
      P s t (rx::rxs) ([.reply (abortReply t)],s,.idle))
    (skip : ∀ s t rx rxs,¬(rx.cmd = rspData ∧ 2 < rx.payload.length) → rx.cmd ≠ 0 →
      P s t rxs (transferRun s t rxs) → P s t (rx::rxs) (transferRun s t rxs))
    (s : Machine b) (t : Transfer) (rxs : List Frame) : P s t rxs (transferRun s t rxs) := by
  induction rxs generalizing s t with
  | nil => exact stop s t
  | cons rx rxs ih =>
    rcases transferRecv_cases s t rx with ⟨hcmd,hlen,⟨hmore,hr⟩ | ⟨hmore,hr⟩⟩ |
      ⟨hdata,⟨hzero,hr⟩ | ⟨hzero,hr⟩⟩
    · rw [transferRun_cons_of_more hr]
      exact more s t rx rxs hlen hcmd hmore (ih _ _)
    · rw [transferRun_cons_of_over (by rw [hr]; exact finishTransfer_phase _ _),hr]
      exact last s t rx rxs hlen hcmd hmore
    · rw [transferRun_cons_of_over (by rw [hr]; exact nofun),hr]
      exact abort s t rx rxs hdata hzero
    · rw [transferRun_cons_of_more hr]
      exact skip s t rx rxs hdata hzero (ih s t)

/-! ### A transfer to RAM -/

/-- The bytes a transfer takes from the frames while `left` are missing. -/
def gathered : ℕ → List Frame → List Byte
  | _,[] => []
  | left,rx::rxs =>
    if rx.cmd = rspData ∧ 2 < rx.payload.length then
      if (taken left rx).length < left then taken left rx++
        gathered (left-(taken left rx).length) rxs
      else taken left rx
    else if rx.cmd = 0 then []
    else gathered left rxs

lemma storeBytes_append (mem : ℕ → Byte) (a : ℕ) (xs ys : List Byte) :
    storeBytes mem a (xs++ys) = storeBytes (storeBytes mem a xs) (a+xs.length) ys := by
  induction xs generalizing mem a with
  | nil => rfl
  | cons x xs ih =>
    rw [cons_append,storeBytes,ih,storeBytes,length_cons]
    congr 1
    omega

lemma store_append (s : Machine b) (a : ℕ) (xs ys : List Byte) :
    s.store a (xs++ys) = (s.store a xs).store (a+xs.length) ys := by
  simp only [Machine.store,storeBytes_append]

def OnFlash : Event → Prop
  | .erase _ => True
  | .program _ _ => True
  | _ => False

lemma finishTransfer_ram (h : t.job = .ram) :
    (finishTransfer s t).2.1 = s ∧ ∀ e ∈ (finishTransfer s t).1,¬OnFlash e := by
  unfold finishTransfer
  simp only [h]
  split_ifs
  · exact ⟨rfl,forall_mem_singleton.mpr id⟩
  · exact ⟨rfl,forall_mem_singleton.mpr id⟩

/-- A transfer to RAM stores what it gathers, from the destination on, and leaves the flash
alone. -/
theorem transferRun_ram (s : Machine b) (t : Transfer) (rxs : List Frame) (hjob : t.job = .ram) :
    (transferRun s t rxs).2.1 = s.store (t.dest+t.received) (gathered (t.size-t.received) rxs) ∧
      ∀ e ∈ (transferRun s t rxs).1,¬OnFlash e := by
  revert hjob
  refine transferRun_induction (P := fun s t rxs r => t.job = .ram →
    r.2.1 = s.store (t.dest+t.received) (gathered (t.size-t.received) rxs) ∧
      ∀ e ∈ r.1,¬OnFlash e) ?_ ?_ ?_ ?_ ?_ s t rxs
  · exact fun s t _ => ⟨rfl,nofun⟩
  · intro s t rx rxs hlen hcmd hmore s' t' ih hjob
    obtain ⟨hmachine,hevents⟩ := ih hjob
    refine ⟨?_,forall_mem_cons.mpr ⟨id,hevents⟩⟩
    have hleft : (taken (t.size-t.received) rx).length < t.size-t.received := by
      rw [← chunkOf]
      omega
    rw [hmachine,gathered,if_pos ⟨hcmd,hlen⟩,if_pos hleft,store_append,Nat.sub_sub,Nat.add_assoc]
    rfl
  · intro s t rx rxs hlen hcmd hmore f hjob
    obtain ⟨hmachine,hevents⟩ := finishTransfer_ram (s := s.store (t.dest+t.received)
      (chunkOf t rx))
      (t := advance t (chunkOf t rx).length) hjob
    refine ⟨?_,forall_mem_cons.mpr ⟨id,hevents⟩⟩
    have hleft : ¬(taken (t.size-t.received) rx).length < t.size-t.received := by
      rw [← chunkOf]
      omega
    rw [gathered,if_pos ⟨hcmd,hlen⟩,if_neg hleft]
    exact hmachine
  · intro s t rx rxs hdata hzero _
    rw [gathered,if_neg hdata,if_pos hzero]
    exact ⟨rfl,forall_mem_singleton.mpr id⟩
  · intro s t rx rxs hdata hzero ih hjob
    rw [gathered,if_neg hdata,if_neg hzero]
    exact ih hjob

/-! ### What a run touches -/

def Touches (tr : List Event) (x : ℕ) : Prop :=
  ∃ a bytes i,.store a bytes ∈ tr ∧ i < bytes.length ∧ x = u32 (a+i)

lemma u32_add_left (a i : ℕ) : u32 (u32 a+i) = u32 (a+i) := by
  unfold u32
  omega

variable {x : ℕ}

lemma touches_cons {a : ℕ} {bytes : List Byte} {tr : List Event} :
    Touches (.store a bytes :: tr) x ↔ (∃ i < bytes.length,x = u32 (a+i)) ∨ Touches tr x := by
  constructor
  · rintro ⟨a',bytes',i,hmem,hi,hx⟩
    rcases mem_cons.mp hmem with heq | hmem
    · cases heq
      exact .inl ⟨i,hi,hx⟩
    · exact .inr ⟨a',bytes',i,hmem,hi,hx⟩
  · rintro (⟨i,hi,hx⟩ | ⟨a',bytes',i,hmem,hi,hx⟩)
    · exact ⟨a,bytes,i,mem_cons_self,hi,hx⟩
    · exact ⟨a',bytes',i,mem_cons_of_mem _ hmem,hi,hx⟩

lemma not_touches_nil (x : ℕ) : ¬Touches [] x := by
  rintro ⟨_,_,_,hmem,_⟩
  cases hmem

lemma not_touches_reply {f : Frame} {tr : List Event} (h : ¬Touches tr x) :
    ¬Touches (.reply f :: tr) x := by
  rintro ⟨a,bytes,i,hmem,hi,hx⟩
  rcases mem_cons.mp hmem with heq | hmem
  · cases heq
  · exact h ⟨a,bytes,i,hmem,hi,hx⟩

/-- The addresses of a range that counts through 32 bits. -/
def Covers (base size x : ℕ) : Prop := ∃ k < size,x = u32 (base+k)

/-- Where a transfer may store: its destination and, for a new agent, the place it is copied to. -/
def Target (t : Transfer) (x : ℕ) : Prop :=
  Covers t.dest t.size x ∨ ∃ addr,t.job = .update addr ∧ Covers addr t.size x

lemma stagedProgram_touches (flashAddr staging : ℕ) (ps : List (ℕ × ℕ)) (s : Machine b)
    (f : Frame) (x : ℕ) : ¬Touches ((stagedProgram flashAddr staging ps s).1++[.reply f]) x := by
  induction ps generalizing s with
  | nil => exact not_touches_reply (not_touches_nil x)
  | cons p ps ih =>
    rintro ⟨a,bytes,i,hmem,hi,hx⟩
    rcases mem_cons.mp hmem with heq | hmem
    · cases heq
    · exact ih _ ⟨a,bytes,i,hmem,hi,hx⟩

lemma finishTransfer_touches
    (h : Touches (finishTransfer s t).1 x) :
    ∃ addr,t.job = .update addr ∧ Covers addr t.size x := by
  unfold finishTransfer at h
  cases hjob : t.job with
  | ram =>
    simp only [hjob] at h
    split_ifs at h <;> exact absurd h (not_touches_reply (not_touches_nil x))
  | flash a =>
    simp only [hjob] at h
    split_ifs at h
    · exact absurd h (not_touches_reply (not_touches_nil x))
    · exact absurd h (stagedProgram_touches _ _ _ _ _ x)
    · exact absurd h (stagedProgram_touches _ _ _ _ _ x)
  | update addr =>
    simp only [hjob] at h
    split_ifs at h
    · exact absurd h (not_touches_reply (not_touches_nil x))
    · refine ⟨addr,rfl,?_⟩
      obtain ⟨a',bytes,i,hmem,hi,hx⟩ := h
      simp only [mem_cons,not_mem_nil,or_false,reduceCtorEq,false_or,
        Event.store.injEq] at hmem
      obtain ⟨rfl,rfl⟩ := hmem
      rw [loadBytes_length] at hi
      exact ⟨i,hi,hx⟩

lemma chunk_covers {rx : Frame} (hle : t.received ≤ t.size) {i x : ℕ}
    (hi : i < (chunkOf t rx).length) (hx : x = u32 (u32 (t.dest+t.received)+i)) :
    Covers t.dest t.size x := by
  refine ⟨t.received+i,?_,?_⟩
  · rw [chunkOf,taken,length_take] at hi
    omega
  · rw [hx,u32_add_left,Nat.add_assoc]

lemma transferRun_touches (s : Machine b) (t : Transfer) (rxs : List Frame)
    (hle : t.received ≤ t.size) (h : Touches (transferRun s t rxs).1 x) : Target t x := by
  revert hle h
  -- the destination, the size and the job are those of the request in every round
  refine transferRun_induction (P := fun _ t _ r => t.received ≤ t.size →
    Touches r.1 x → Target t x)
    ?_ ?_ ?_ ?_ ?_ s t rxs
  · exact fun s t _ h => absurd h (not_touches_nil x)
  · intro s t rx rxs hlen hcmd hmore s' t' ih hle h
    rcases touches_cons.mp h with ⟨i,hi,hx⟩ | h
    · exact .inl (chunk_covers hle hi hx)
    · exact ih hmore.le h
  · intro s t rx rxs hlen hcmd hmore f hle h
    rcases touches_cons.mp h with ⟨i,hi,hx⟩ | h
    · exact .inl (chunk_covers hle hi hx)
    · exact .inr (finishTransfer_touches h)
  · exact fun s t rx rxs _ _ _ h => absurd h (not_touches_reply (not_touches_nil x))
  · exact fun s t rx rxs _ _ ih hle h => ih hle h

/-! ### A complete run -/

def byteFrame : Frame := ⟨rspData,[0,0,0]⟩

lemma chunkOf_byteFrame (h : t.received < t.size) : chunkOf t byteFrame = [0] := by
  rw [chunkOf,taken,show t.size-t.received = t.size-t.received-1+1 by omega]
  simp [byteFrame]

/-- The stores of `n` one-byte packets. -/
def byteStores : ℕ → ℕ → List Event
  | _,0 => []
  | a,n+1 => .store (u32 a) [0] :: byteStores (a+1) n

lemma touches_byteStores {a n k : ℕ} (h : k < n) : Touches (byteStores a n) (u32 (a+k)) := by
  induction n generalizing a k with
  | zero => omega
  | succ n ih =>
    rw [byteStores,touches_cons]
    cases k with
    | zero => exact .inl ⟨0,by decide,by rw [u32_add_left]⟩
    | succ k =>
      rw [show a+(k+1) = a+1+k by omega]
      exact .inr (ih (by omega))

lemma transferRun_bytes (n : ℕ) (s : Machine b) (t : Transfer) (hn : t.received+(n+1) = t.size) :
    ∃ s',s'.mem = storeBytes s.mem (t.dest+t.received) (List.replicate (n+1) 0) ∧
      transferRun s t (List.replicate (n+1) byteFrame) =
        (byteStores (t.dest+t.received) (n+1)++(finishTransfer s' (advance t (n+1))).1,
          (finishTransfer s' (advance t (n+1))).2) := by
  have hdata : byteFrame.cmd = rspData ∧ 2 < byteFrame.payload.length := by decide
  have hchunk := chunkOf_byteFrame (t := t) (by omega)
  induction n generalizing s t with
  | zero =>
    rcases transferRecv_cases s t byteFrame with ⟨_,_,⟨hmore,_⟩ | ⟨_,hr⟩⟩ | ⟨hno,_⟩
    · rw [hchunk,length_singleton] at hmore
      omega
    · rw [hchunk] at hr
      refine ⟨s.store (t.dest+t.received) [0],rfl,?_⟩
      rw [replicate_succ,transferRun_cons_of_over (by rw [hr]; exact finishTransfer_phase _ _),
        hr]
      rfl
    · exact absurd hdata hno
  | succ n ih =>
    rcases transferRecv_cases s t byteFrame with ⟨_,_,⟨_,hr⟩ | ⟨hmore,_⟩⟩ | ⟨hno,_⟩
    · rw [hchunk] at hr
      have ht : (advance t 1).received+(n+1) = (advance t 1).size := by
        simp only [advance]
        omega
      obtain ⟨s',hmem,hrun⟩ := ih (s.store (t.dest+t.received) [0]) (advance t 1) ht
        (chunkOf_byteFrame (by omega))
      refine ⟨s',hmem,?_⟩
      rw [replicate_succ,transferRun_cons_of_more hr,length_singleton,hrun]
      simp only [advance,Nat.add_assoc,Nat.add_comm 1]
      rfl
    · rw [hchunk,length_singleton] at hmore
      omega
    · exact absurd hdata hno

lemma stagedProgram_onFlash (flashAddr staging : ℕ) {ps : List (ℕ × ℕ)} (hne : ps ≠ [])
    (s : Machine b) : ∃ e ∈ (stagedProgram flashAddr staging ps s).1,OnFlash e := by
  cases ps with
  | nil => exact absurd rfl hne
  | cons p ps => exact ⟨_,mem_cons_self,trivial⟩

lemma flash_write_programs {a : ℕ} (hjob : t.job = .flash a)
    (hdest : t.dest+t.size ≤ 4294967296) (hpos : 0 < t.size) (h0 : t.received = 0)
    (hcrc : t.expectedCrc = (crc32 0 (List.replicate t.size 0)).toNat) (s : Machine b) :
    ∃ e ∈ (transferRun s t (List.replicate t.size byteFrame)).1,OnFlash e := by
  obtain ⟨n,hn⟩ : ∃ n,t.size = n+1 := ⟨t.size-1,by omega⟩
  obtain ⟨s',hmem,hrun⟩ := transferRun_bytes n s t (by omega)
  rw [h0,Nat.add_zero,← hn] at hmem
  have hload : loadBytes s'.mem t.dest t.size = List.replicate t.size 0 := by
    have hself := slice_patch_self s.mem t.dest (List.replicate t.size 0)
    rw [length_replicate] at hself
    rw [loadBytes_eq_slice _ _ _ hdest,hmem,
      storeBytes_eq_patch _ _ _ (by rwa [length_replicate]),hself]
  have hne : pieces b.flashInfo.pageSize t.size ≠ [] := by
    obtain ⟨p,hp,_⟩ := exists_mem_spans (l := fun _ => b.flashInfo.pageSize)
      (fun _ => b.pageSize_pos) (Nat.zero_le 0) (show 0 < 0+t.size by omega)
    exact ne_nil_of_mem hp
  obtain ⟨e,he,hflash⟩ := stagedProgram_onFlash a t.dest hne s'
  refine ⟨e,?_,hflash⟩
  rw [hn,hrun]
  refine mem_append_right _ ?_
  simp only [finishTransfer,advance,hjob,hload,hcrc,ne_eq,not_true,if_false]
  exact mem_append_left _ he

/-! ### The receiving part of a run -/

def isReply : Event → Bool
  | .reply _ => true
  | _ => false

/-- What is done before the first answer: the stores of the receive loop come first. -/
def beforeReply (tr : List Event) : List Event := tr.takeWhile fun e => !isReply e

lemma touches_of_before {tr : List Event} (h : Touches (beforeReply tr) x) :
    Touches tr x := by
  obtain ⟨a,bytes,i,hmem,hi,hx⟩ := h
  exact ⟨a,bytes,i,(takeWhile_sublist _).subset hmem,hi,hx⟩

lemma touches_before_append {tr tr' : List Event} (h : Touches tr x)
    (hnone : ∀ e ∈ tr,isReply e = false) : Touches (beforeReply (tr++tr')) x := by
  obtain ⟨a,bytes,i,hmem,hi,hx⟩ := h
  refine ⟨a,bytes,i,?_,hi,hx⟩
  rw [beforeReply,takeWhile_append_of_pos (fun e he => by rw [hnone e he]; rfl)]
  exact mem_append_left _ hmem

lemma byteStores_not_reply (a n : ℕ) : ∀ e ∈ byteStores a n,isReply e = false := by
  induction n generalizing a with
  | zero => exact nofun
  | succ n ih => exact forall_mem_cons.mpr ⟨rfl,ih (a+1)⟩

lemma finishTransfer_before :
    ¬Touches (beforeReply (finishTransfer s t).1) x := by
  intro h
  obtain ⟨addr,hjob,_⟩ := finishTransfer_touches (touches_of_before h)
  -- the copy of a new agent follows the answer
  unfold finishTransfer at h
  simp only [hjob] at h
  split_ifs at h
  · exact not_touches_nil x h
  · exact not_touches_nil x h

lemma transferRun_before (s : Machine b) (t : Transfer) (rxs : List Frame)
    (hle : t.received ≤ t.size) (h : Touches (beforeReply (transferRun s t rxs).1) x) :
    Covers t.dest t.size x := by
  revert hle h
  refine transferRun_induction (P := fun _ t _ r => t.received ≤ t.size →
    Touches (beforeReply r.1) x → Covers t.dest t.size x) ?_ ?_ ?_ ?_ ?_ s t rxs
  · exact fun s t _ h => absurd h (not_touches_nil x)
  · intro s t rx rxs hlen hcmd hmore s' t' ih hle h
    rcases touches_cons.mp h with ⟨i,hi,hx⟩ | h
    · exact chunk_covers hle hi hx
    · exact ih hmore.le h
  · intro s t rx rxs hlen hcmd hmore f hle h
    rcases touches_cons.mp h with ⟨i,hi,hx⟩ | h
    · exact chunk_covers hle hi hx
    · exact absurd h finishTransfer_before
  · exact fun s t rx rxs _ _ _ h => absurd h (not_touches_nil x)
  · exact fun s t rx rxs _ _ ih hle h => ih hle h

end Defib.TransferRuns
