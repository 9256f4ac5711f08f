import Defib.FlashRangeSafety

/-!
# The order of work in a flash stream

`handle_flash_stream` receives one sector while the one before it waits in the other buffer,
and blank sectors in between flush the waiting one first. What such a pipeline must keep to
is said of each event and of the events before it. The number of progress packets sent so
far is the index of the sector being received, and the number of erases so far is the index
of the next sector to erase.
-/
namespace Defib.StreamPipeline
open List Words BlockMemory Spans Boards AgentMachine AgentFlash FlashRangeSafety

/-! ### Events after a past -/

section
variable {E : Type} {P : List E → E → Prop}

/-- Each of the events satisfies `P` with what came before it. -/
def EachAfter (P : List E → E → Prop) : List E → List E → Prop
  | _,[] => True
  | past,e::es => P past e ∧ EachAfter P (past++[e]) es

lemma EachAfter.append {past xs ys : List E} (hxs : EachAfter P past xs)
    (hys : EachAfter P (past++xs) ys) : EachAfter P past (xs++ys) := by
  induction xs generalizing past with
  | nil => simpa using hys
  | cons x xs ih =>
    refine ⟨hxs.1,ih hxs.2 ?_⟩
    rwa [append_assoc,singleton_append]

end

/-! ### What the events say -/

def erasures : List Event → List ℕ
  | [] => []
  | .erase a::es => a::erasures es
  | _::es => erasures es

def passed : List Event → ℕ
  | [] => 0
  | .reply f::es => (if f.cmd = rspData then 1 else 0)+passed es
  | _::es => passed es

/-- The bytes stored for sector `j`, when sector `i` is being received at the beginning. -/
def receivedFrom (j : ℕ) : ℕ → List Event → List Byte
  | _,[] => []
  | i,.store _ xs::es => (if i = j then xs else [])++receivedFrom j i es
  | i,.reply f::es => receivedFrom j (i+if f.cmd = rspData then 1 else 0) es
  | i,_::es => receivedFrom j i es

def received (past : List Event) (j : ℕ) : List Byte := receivedFrom j 0 past

def IsStore : Event → Prop
  | .store _ _ => True
  | _ => False

def IsProgram : Event → Prop
  | .program _ _ => True
  | _ => False

lemma erasures_append (xs ys : List Event) : erasures (xs++ys) = erasures xs++erasures ys := by
  induction xs with
  | nil => rfl
  | cons x xs ih => cases x <;> simp [erasures,ih]

lemma passed_append (xs ys : List Event) : passed (xs++ys) = passed xs+passed ys := by
  induction xs with
  | nil => simp [passed]
  | cons x xs ih => cases x <;> simp [passed,ih,Nat.add_assoc]

lemma receivedFrom_append (j i : ℕ) (xs ys : List Event) :
    receivedFrom j i (xs++ys) = receivedFrom j i xs++receivedFrom j (i+passed xs) ys := by
  induction xs generalizing i with
  | nil => simp [receivedFrom,passed]
  | cons x xs ih => cases x <;> simp [receivedFrom,passed,ih,Nat.add_assoc]

lemma received_append (xs ys : List Event) (j : ℕ) :
    received (xs++ys) j = received xs j++receivedFrom j (passed xs) ys := by
  rw [received,receivedFrom_append,Nat.zero_add]
  rfl

variable {es : List Event}

lemma receivedFrom_later {i j : ℕ} (h : i+passed es < j) :
    receivedFrom j i es = [] := by
  induction es generalizing i with
  | nil => rfl
  | cons e es ih =>
    cases e with
    | reply f =>
      simp only [passed] at h
      exact ih (by omega)
    | store a xs =>
      simp only [passed] at h
      rw [receivedFrom,if_neg (by omega),nil_append]
      exact ih h
    | erase a => exact ih h
    | program a xs => exact ih h

lemma receivedFrom_quiet {i j : ℕ} (h : ∀ e ∈ es,¬IsStore e) :
    receivedFrom j i es = [] := by
  induction es generalizing i with
  | nil => rfl
  | cons e es ih =>
    have hes := fun i => ih (i := i) fun e' he' => h e' (mem_cons_of_mem e he')
    cases e with
    | reply f => exact hes _
    | store a xs => exact absurd trivial (h _ mem_cons_self)
    | erase a => exact hes i
    | program a xs => exact hes i

/-! ### The discipline -/

/-- The sectors a range of `size` bytes touches, in unbounded numbers. -/
def sectorCount (b : Board) (size : ℕ) : ℕ :=
  (size+b.flashInfo.sectorSize-1)/b.flashInfo.sectorSize

def sectorAddr (b : Board) (flashAddr i : ℕ) : ℕ := u32 (flashAddr+i*b.flashInfo.sectorSize)

def sectorLen (b : Board) (size i : ℕ) : ℕ :=
  min (size-i*b.flashInfo.sectorSize) b.flashInfo.sectorSize

/-- What each event must keep to, given the past. Sectors are erased in order, each once;
a page is programmed right behind the erase of its own sector, with the bytes received for
it; bytes never go where a complete sector still waits for its erase; the final `ACK_OK`
comes when all sectors were erased. -/
def Proper (b : Board) (flashAddr size : ℕ) (past : List Event) : Event → Prop
  | .erase a => (erasures past).length < sectorCount b size ∧
      a = sectorAddr b flashAddr (erasures past).length
  | .program a bytes => ∃ i o before pages,
      past = before++.erase (sectorAddr b flashAddr i)::pages ∧ (∀ e ∈ pages,IsProgram e) ∧
      (erasures before).length = i ∧ a = u32 (sectorAddr b flashAddr i+o) ∧
      o+bytes.length ≤ sectorLen b size i ∧
      bytes = ((received past i).drop o).take bytes.length
  | .store a bytes => a+bytes.length ≤ 4294967296 ∧ ∀ before a' bytes' after,
      past = before++.store a' bytes'::after → (erasures past).length ≤ passed before →
      passed before < passed past → a+bytes.length ≤ a' ∨ a'+bytes'.length ≤ a
  | .reply f => f = ack ackOk → past ≠ [] → (erasures past).length = sectorCount b size

/-- Every run of the request keeps to the discipline. -/
def Disciplined (b : Board) (data : List Byte) : Prop :=
  ∀ (s : Machine b) (rxs : List Frame),
    EachAfter (Proper b (readLe32 data 0) (readLe32 data 4)) [] (streamTrace s data rxs)

section
variable {b : Board} {flashAddr size : ℕ} {past : List Event}

lemma proper_progress (st : Stream) : Proper b flashAddr size past (.reply st.progress) :=
  fun h => absurd (congrArg Frame.cmd h) (show rspData ≠ rspAck by decide)

lemma proper_failure {f : Frame} (hf : f ≠ ack ackOk) :
    Proper b flashAddr size past (.reply f) := fun h => absurd h hf

lemma pageLoop_proper (flashAddr : ℕ) {before : List Event} {i buf n : ℕ}
    (hi : (erasures before).length = i)
    (hn : n = sectorLen b size i) (ps : List (ℕ × ℕ)) (hps : ∀ p ∈ ps,p.1+p.2 ≤ n)
    (pages : List Event) (hpages : ∀ e ∈ pages,IsProgram e) (s : Machine b)
    (hbuf : loadBytes s.mem buf n = received before i) :
    EachAfter (Proper b flashAddr size) (before++.erase (sectorAddr b flashAddr i)::pages)
        (pageLoop (sectorAddr b flashAddr i) buf ps s).1 ∧
      (∀ e ∈ (pageLoop (sectorAddr b flashAddr i) buf ps s).1,IsProgram e) ∧
      (pageLoop (sectorAddr b flashAddr i) buf ps s).2.mem = s.mem := by
  induction ps generalizing pages s with
  | nil => exact ⟨trivial,forall_mem_nil _,rfl⟩
  | cons p ps ih =>
    have hrest : ∀ q ∈ ps,q.1+q.2 ≤ n := fun q hq => hps q (mem_cons_of_mem p hq)
    rw [pageLoop]
    split_ifs
    · exact ih hrest pages hpages s hbuf
    · have hp := hps p mem_cons_self
      have hquiet : received (before++.erase (sectorAddr b flashAddr i)::pages) i =
          received before i := by
        rw [received_append,receivedFrom_quiet,append_nil]
        intro e he
        rcases mem_cons.mp he with rfl | he
        · exact id
        · have hprog := hpages e he
          cases e <;> first | exact id | exact hprog.elim
      have hmore : ∀ e ∈ pages++[.program (u32 (sectorAddr b flashAddr i+p.1))
          (loadBytes s.mem (buf+p.1) p.2)],IsProgram e := by
        intro e he
        rcases mem_append.mp he with he | he
        · exact hpages e he
        · rw [mem_singleton.mp he]
          trivial
      obtain ⟨heach,hprog,hmem⟩ := ih hrest _ hmore (s.flashWritePage
        (u32 (sectorAddr b flashAddr i+p.1)) (loadBytes s.mem (buf+p.1) p.2)).2 hbuf
      refine ⟨⟨⟨i,p.1,before,pages,rfl,hpages,hi,rfl,?_,?_⟩,?_⟩,?_,hmem⟩
      · rw [loadBytes_length]
        omega
      · rw [loadBytes_length,hquiet,← hbuf]
        exact loadBytes_part _ _ hp
      · rw [append_assoc,cons_append]
        exact heach
      · intro e he
        rcases mem_cons.mp he with rfl | he
        · trivial
        · exact hprog e he

/-- The waiting sector is the next one to erase, and its buffer holds what came for it. -/
def Due (b : Board) (flashAddr size : ℕ) (past : List Event) (mem : ℕ → Byte) (p : Pending) :
    Prop :=
  (erasures past).length < sectorCount b size ∧
    p.addr = sectorAddr b flashAddr (erasures past).length ∧
    p.bytes = sectorLen b size (erasures past).length ∧
    loadBytes mem (streamBuf b p.buf) p.bytes = received past (erasures past).length

lemma isProgram_quiet {e : Event} (h : IsProgram e) : ¬IsStore e := by
  cases e <;> first | exact id | exact h.elim

lemma passed_programs (h : ∀ e ∈ es,IsProgram e) :
    passed es = 0 ∧ erasures es = [] := by
  induction es with
  | nil => exact ⟨rfl,rfl⟩
  | cons e es ih =>
    have hes := ih fun e' he' => h e' (mem_cons_of_mem e he')
    have he := h e mem_cons_self
    cases e with
    | program a xs => exact hes
    | reply f => exact he.elim
    | store a xs => exact he.elim
    | erase a => exact he.elim

lemma processPending_proper {pend : Option Pending} (s : Machine b)
    (hp : ∀ p ∈ pend,Due b flashAddr size past s.mem p) :
    EachAfter (Proper b flashAddr size) past (processPending s pend).2.1 ∧
      (∀ e ∈ (processPending s pend).2.1,¬IsStore e) ∧
      passed (processPending s pend).2.1 = 0 ∧ (processPending s pend).2.2.mem = s.mem ∧
      (erasures (processPending s pend).2.1).length = if pend.isSome then 1 else 0 := by
  cases pend with
  | none => exact ⟨trivial,forall_mem_nil _,rfl,rfl,rfl⟩
  | some p =>
    obtain ⟨hlt,haddr,hbytes,hbuf⟩ := hp p rfl
    obtain ⟨heach,hprog,hmem⟩ := pageLoop_proper flashAddr rfl hbytes
      (pieces b.flashInfo.pageSize p.bytes)
      (fun q hq => (mem_pieces b.pageSize_pos hq).2.2.2.1) []
      (forall_mem_nil _) (s.flashEraseSector p.addr).2 hbuf
    rw [← haddr] at heach hprog hmem
    rw [processPending,eraseAndProgram]
    by_cases hok : (s.flashEraseSector p.addr).1 = true
    · rw [if_pos hok]
      obtain ⟨hpassed,herased⟩ := passed_programs hprog
      refine ⟨⟨⟨hlt,haddr⟩,heach⟩,?_,hpassed,hmem,?_⟩
      · intro e he
        rcases mem_cons.mp he with rfl | he
        · exact id
        · exact isProgram_quiet (hprog e he)
      · simp [erasures,herased]
    · rw [if_neg hok]
      refine ⟨⟨⟨hlt,haddr⟩,trivial⟩,?_,rfl,rfl,rfl⟩
      intro e he
      rw [mem_singleton.mp he]
      exact id

end

/-! ### The state of the handler and its past -/

def InBuffer (b : Board) (i : Bool) (a : ℕ) (xs : List Byte) : Prop :=
  streamBuf b i ≤ a ∧ a+xs.length ≤ streamBuf b i+131072

/-- How the control state of the handler reflects what happened. -/
structure Tracked (b : Board) (flashAddr size : ℕ) (past : List Event) (st : Stream)
    (mem : ℕ → Byte) : Prop where
  request : st.flashAddr = flashAddr ∧ st.size = size
  count : st.numSectors = sectorCount b size
  index : passed past = st.sector
  order : (erasures past).length+(if st.pending.isSome then 1 else 0) = st.sector
  due : ∀ p ∈ st.pending,p.buf = (!st.rxBuf) ∧ Due b flashAddr size past mem p
  kept : ∀ before a xs after,past = before++.store a xs::after →
    (erasures past).length ≤ passed before →
    InBuffer b (if passed before = st.sector then st.rxBuf else !st.rxBuf) a xs

/-- The handler while it waits for a frame. -/
structure Receiving (b : Board) (flashAddr size : ℕ) (past : List Event) (st : Stream)
    (mem : ℕ → Byte) : Prop where
  tracked : Tracked b flashAddr size past st mem
  more : st.sector < st.numSectors
  room : st.received ≤ st.sectorBytes b
  current : loadBytes mem (streamBuf b st.rxBuf) st.received = received past st.sector

variable {data : List Byte}

section
variable {b : Board} {flashAddr size : ℕ} {past : List Event} {st : Stream} {mem : ℕ → Byte}

lemma streamBuf_lt (b : Board) (i : Bool) : streamBuf b i+131072 < 4294967296 := by
  have hram : b.soc.config.ramBase ≤ 0x80000000 := by
    cases b.soc <;> decide
  rw [streamBuf,Board.config]
  split_ifs <;> omega

lemma sectorBytes_le (b : Board) (st : Stream) : st.sectorBytes b ≤ 131072 := by
  have hle : st.sectorBytes b ≤ b.flashInfo.sectorSize := Nat.min_le_right _ _
  rcases b.geometry with ⟨hg,-⟩ | ⟨hg,-⟩ | ⟨hg,-⟩ <;> omega

lemma inBuffer_apart {i : Bool} {a a' : ℕ} {xs xs' : List Byte} (h : InBuffer b i a xs)
    (h' : InBuffer b (!i) a' xs') : a+xs.length ≤ a' ∨ a'+xs'.length ≤ a := by
  unfold InBuffer streamBuf at h h'
  cases i with
  | false =>
    simp only [Bool.not_false,if_true,Bool.false_eq_true,if_false] at h h'
    omega
  | true =>
    simp only [Bool.not_true,if_true,Bool.false_eq_true,if_false] at h h'
    omega

lemma split_append {es before after : List Event} {e : Event}
    (h : past++es = before++e::after) :
    (∃ after',past = before++e::after') ∨ ∃ new,before = past++new ∧ es = new++e::after := by
  rcases append_eq_append_iff.mp h with ⟨new,hbefore,hes⟩ | ⟨c,hpast,hafter⟩
  · exact .inr ⟨new,hbefore,hes⟩
  · cases c with
    | nil => exact .inr ⟨[],by simpa using hpast.symm,by simpa using hafter.symm⟩
    | cons x c =>
      obtain ⟨rfl,-⟩ := List.cons.inj hafter
      exact .inl ⟨c,hpast⟩

lemma split_quiet {es before after : List Event} {a : ℕ} {xs : List Byte}
    (hes : ∀ e ∈ es,¬IsStore e) (h : past++es = before++.store a xs::after) :
    ∃ after',past = before++.store a xs::after' := by
  rcases split_append h with hpast | ⟨new,-,rfl⟩
  · exact hpast
  · exact absurd trivial (hes _ (mem_append_right new mem_cons_self))

lemma passed_before_le {before after : List Event} {e : Event}
    (h : past = before++e::after) : passed before ≤ passed past := by
  rw [h,passed_append]
  omega

lemma received_quiet (hes : ∀ e ∈ es,¬IsStore e) (j : ℕ) :
    received (past++es) j = received past j := by
  rw [received_append,receivedFrom_quiet hes,append_nil]

lemma received_later {j : ℕ} (h : passed past < j) : received past j = [] :=
  receivedFrom_later (by omega)

lemma Due.reply {p : Pending} {f : Frame} (h : Due b flashAddr size past mem p) :
    Due b flashAddr size (past++[.reply f]) mem p := by
  have herase : erasures (past++[.reply f]) = erasures past := by
    simp [erasures_append,erasures]
  rw [Due,herase,received_quiet (by simp [IsStore])]
  exact h

lemma Tracked.kept_quiet (h : Tracked b flashAddr size past st mem)
    (hes : ∀ e ∈ es,¬IsStore e) {before after : List Event} {a : ℕ} {xs : List Byte}
    (hsplit : past++es = before++.store a xs::after)
    (hle : (erasures (past++es)).length ≤ passed before) :
    passed before ≤ st.sector ∧
      InBuffer b (if passed before = st.sector then st.rxBuf else !st.rxBuf) a xs := by
  obtain ⟨after',hpast⟩ := split_quiet hes hsplit
  rw [erasures_append,length_append] at hle
  refine ⟨?_,h.kept before a xs after' hpast (by omega)⟩
  rw [← h.index]
  exact passed_before_le hpast

variable {s : Machine b}

lemma Tracked.flush (h : Tracked b flashAddr size past st mem)
    (hmem : s.mem = mem) : Tracked b flashAddr size (past++(processPending s st.pending).2.1)
      {st with pending := none} mem := by
  subst hmem
  obtain ⟨-,hquiet,hpassed,-,herased⟩ := processPending_proper s fun p hp => (h.due p hp).2
  refine ⟨h.request,h.count,?_,?_,nofun,?_⟩
  · rw [passed_append,hpassed]
    exact h.index
  · rw [erasures_append,length_append,herased]
    exact h.order
  · intro before a xs after hsplit hle
    exact (h.kept_quiet hquiet hsplit hle).2

lemma Tracked.skip (h : Tracked b flashAddr size past st mem) (hnone : st.pending = none)
    {a : ℕ} {f : Frame} (hf : f.cmd = rspData) :
    Tracked b flashAddr size (past++[.erase a,.reply f])
      {st with sector := st.sector+1, pending := none} mem := by
  have horder := h.order
  rw [hnone] at horder
  have hlen : (erasures (past++[.erase a,.reply f])).length = st.sector+1 := by
    rw [erasures_append,length_append]
    exact congrArg (·+1) horder
  refine ⟨h.request,h.count,?_,hlen,nofun,?_⟩
  · rw [passed_append,h.index]
    simp [passed,hf]
  · intro before a' xs after hsplit hle
    have hquiet : ∀ e ∈ [.erase a,.reply f],¬IsStore e := by simp [IsStore]
    have := (h.kept_quiet hquiet hsplit hle).1
    omega

lemma no_stream {P : Stream → Prop} {o : Option Stream} (h : o = none) : ∀ st ∈ o,P st := by
  rw [h]
  intro st hst
  cases hst

lemma streamAdvance_proper (n : ℕ) (st : Stream) (s : Machine b) (past : List Event)
    (h : Tracked b flashAddr size past st s.mem)
    (hfresh : received past st.sector = []) (hn : st.sector+n = st.numSectors) :
    EachAfter (Proper b flashAddr size) past (streamAdvance n st s).1 ∧
      ∀ st' ∈ (streamAdvance n st s).2.2,Receiving b flashAddr size
        (past++(streamAdvance n st s).1) st' (streamAdvance n st s).2.1.mem := by
  induction n generalizing st s past with
  | zero =>
    obtain ⟨heach,-,-,-,-⟩ := processPending_proper s fun p hp => (h.due p hp).2
    have hflush := h.flush rfl
    refine ⟨heach.append ⟨?_,trivial⟩,no_stream rfl⟩
    intro _ _
    have horder := hflush.order
    have hcount := hflush.count
    simp only [Option.isSome_none,Bool.false_eq_true,if_false] at horder hcount
    omega
  | succ n ih =>
    obtain ⟨heach,hquiet,-,hmem,-⟩ := processPending_proper s fun p hp => (h.due p hp).2
    have hflush := h.flush rfl
    have herased : (erasures (past++(processPending s st.pending).2.1)).length = st.sector :=
      hflush.order
    have hcount := h.count
    have herase : Proper b flashAddr size (past++(processPending s st.pending).2.1)
        (.erase (st.sectorAddr b)) := by
      refine ⟨by omega,?_⟩
      rw [herased,Stream.sectorAddr,h.request.1]
      rfl
    rw [streamAdvance]
    by_cases hdata : st.hasData = true
    · rw [if_pos hdata]
      refine ⟨trivial,fun st' hst' => ?_⟩
      cases hst'
      rw [append_nil]
      refine ⟨⟨h.request,h.count,h.index,h.order,h.due,h.kept⟩,?_,Nat.zero_le _,hfresh.symm⟩
      show st.sector < st.numSectors
      omega
    · rw [if_neg hdata]
      simp only
      by_cases hproc : (processPending s st.pending).1 = true
      · rw [if_pos hproc]
        by_cases hok : ((processPending s st.pending).2.2.flashEraseSector
            (st.sectorAddr b)).1 = true
        · rw [if_pos hok]
          have hskip := hflush.skip rfl (a := st.sectorAddr b) (f := st.progress) rfl
          rw [append_assoc,← hmem] at hskip
          have hnothing : received (past++((processPending s st.pending).2.1++
              [.erase (st.sectorAddr b),.reply st.progress])) (st.sector+1) = [] := by
            rw [← append_assoc,received_quiet (by simp [IsStore]),received_quiet hquiet]
            exact received_later (by rw [h.index]; omega)
          obtain ⟨hrest,hnext⟩ := ih {st with sector := st.sector+1, pending := none}
            ((processPending s st.pending).2.2.flashEraseSector (st.sectorAddr b)).2 _ hskip
            hnothing (by show st.sector+1+n = st.numSectors; omega)
          refine ⟨heach.append ⟨herase,proper_progress st,?_⟩,?_⟩
          · rw [append_assoc,append_assoc]
            exact hrest
          · intro st' hst'
            have hrecv := hnext st' hst'
            rwa [append_assoc,append_assoc] at hrecv
        · rw [if_neg hok]
          exact ⟨heach.append ⟨herase,proper_failure (by decide),trivial⟩,no_stream rfl⟩
      · rw [if_neg hproc]
        exact ⟨heach.append ⟨proper_failure (by decide),trivial⟩,no_stream rfl⟩

/-- Bytes of a frame go behind those already there, into the other buffer than a waiting
sector's. -/
theorem Receiving.store (h : Receiving b flashAddr size past st s.mem)
    {xs : List Byte} (hlen : st.received+xs.length ≤ st.sectorBytes b) :
    Proper b flashAddr size past (.store (u32 (streamBuf b st.rxBuf+st.received)) xs) ∧
      Receiving b flashAddr size (past++[.store (u32 (streamBuf b st.rxBuf+st.received)) xs])
        {st with received := st.received+xs.length}
        (s.store (streamBuf b st.rxBuf+st.received) xs).mem := by
  have hbuf := streamBuf_lt b st.rxBuf
  have hother := streamBuf_lt b (!st.rxBuf)
  have hsector := sectorBytes_le b st
  have hindex := h.tracked.index
  rw [u32_of_lt (by omega)]
  have hin : InBuffer b st.rxBuf (streamBuf b st.rxBuf+st.received) xs := ⟨by omega,by omega⟩
  have herase : erasures (past++[.store (streamBuf b st.rxBuf+st.received) xs]) =
      erasures past := by simp [erasures_append,erasures]
  have hpassed : passed (past++[.store (streamBuf b st.rxBuf+st.received) xs]) = passed past := by
    simp [passed_append,passed]
  refine ⟨⟨by omega,?_⟩,⟨⟨h.tracked.request,h.tracked.count,?_,?_,?_,?_⟩,h.more,hlen,?_⟩⟩
  · intro before a' xs' after hsplit hle hlt
    have hkept := h.tracked.kept before a' xs' after hsplit hle
    rw [if_neg (by omega)] at hkept
    exact inBuffer_apart hin hkept
  · rw [hpassed]
    exact hindex
  · rw [herase]
    exact h.tracked.order
  · intro p hp
    obtain ⟨hpbuf,hlt,haddr,hbytes,hload⟩ := h.tracked.due p hp
    have horder := h.tracked.order
    rw [Option.mem_def.mp hp] at horder
    simp only [Option.isSome_some,if_true] at horder
    have hpsize : p.bytes ≤ 131072 := by
      have hle : p.bytes ≤ b.flashInfo.sectorSize := hbytes.trans_le (Nat.min_le_right _ _)
      rcases b.geometry with ⟨hg,-⟩ | ⟨hg,-⟩ | ⟨hg,-⟩ <;> omega
    rw [Due,herase,received_append]
    refine ⟨hpbuf,hlt,haddr,hbytes,?_⟩
    -- the waiting sector's bytes are in the other buffer, and the new ones are not its own
    have hwaiting : InBuffer b (!st.rxBuf) (streamBuf b p.buf)
        (loadBytes s.mem (streamBuf b p.buf) p.bytes) := by
      rw [InBuffer,loadBytes_length,hpbuf]
      omega
    have hapart := inBuffer_apart hin hwaiting
    rw [loadBytes_length] at hapart
    rw [Machine.store,loadBytes_store_apart _ (by omega) (by rw [hpbuf]; omega) (by omega),hload,
      receivedFrom,if_neg (by omega),receivedFrom,append_nil,append_nil]
  · intro before a' xs' after hsplit hle
    rw [herase] at hle
    rcases split_append hsplit with ⟨after',hpast⟩ | ⟨new,hbefore,hnew⟩
    · exact h.tracked.kept before a' xs' after' hpast hle
    · obtain ⟨rfl,rfl,rfl⟩ : new = [] ∧ streamBuf b st.rxBuf+st.received = a' ∧ xs = xs' := by
        cases new with
        | nil =>
          have hhead := (List.cons.inj hnew).1
          injection hhead with ha hx
          exact ⟨rfl,ha,hx⟩
        | cons e new => simp at hnew
      rw [append_nil] at hbefore
      rw [hbefore,if_pos hindex]
      exact hin
  · rw [received_append,← hindex,receivedFrom,if_pos rfl,receivedFrom,append_nil,
      Machine.store,loadBytes_store_append _ (by omega),h.current,hindex]

lemma Receiving.pass (h : Receiving b flashAddr size past st s.mem)
    (hfull : st.received = st.sectorBytes b) (r total : ℕ) :
    let es := .reply st.progress::(processPending s st.pending).2.1
    EachAfter (Proper b flashAddr size) past es ∧
      received (past++es) (st.sector+1) = [] ∧
      Tracked b flashAddr size (past++es) {st with
        sector := st.sector+1
        rxBuf := !st.rxBuf
        received := r
        totalReceived := total
        pending := some ⟨st.rxBuf,st.sectorAddr b,st.sectorBytes b⟩}
        (processPending s st.pending).2.2.mem := by
  intro es
  have hdue : ∀ p ∈ st.pending,Due b flashAddr size (past++[.reply st.progress]) s.mem p :=
    fun p hp => ((h.tracked.due p hp).2).reply
  obtain ⟨heach,hquiet,hpassed,hmem,herased⟩ := processPending_proper s hdue
  have hes : ∀ e ∈ es,¬IsStore e := by
    intro e he
    rcases mem_cons.mp he with rfl | he
    · exact id
    · exact hquiet e he
  have hindex : passed (past++es) = st.sector+1 := by
    rw [passed_append,h.tracked.index,passed,hpassed,
      if_pos (show st.progress.cmd = rspData from rfl)]
  have horder : (erasures (past++es)).length = st.sector := by
    have hskip : erasures es = erasures (processPending s st.pending).2.1 := rfl
    rw [erasures_append,length_append,hskip,herased]
    exact h.tracked.order
  have hmore := h.more
  have hcount := h.tracked.count
  refine ⟨⟨proper_progress st,heach⟩,?_,⟨h.tracked.request,hcount,hindex,?_,?_,?_⟩⟩
  · rw [received_quiet hes]
    exact received_later (by rw [h.tracked.index]; omega)
  · rw [horder]
    rfl
  · intro p hp
    cases hp
    refine ⟨(Bool.not_not _).symm,by omega,?_,?_,?_⟩
    · rw [horder,Stream.sectorAddr,h.tracked.request.1]
      rfl
    · rw [horder,Stream.sectorBytes,h.tracked.request.2]
      rfl
    · rw [horder,received_quiet hes,← h.current,hfull,hmem]
  · intro before a xs after hsplit hle
    obtain ⟨hlow,hin⟩ := h.tracked.kept_quiet hes hsplit hle
    rw [horder] at hle
    rw [if_pos (by omega)] at hin
    rw [if_neg (show passed before ≠ st.sector+1 by omega),Bool.not_not]
    exact hin

lemma streamRecv_proper (s : Machine b) (rx : Frame)
    (h : Receiving b flashAddr size past st s.mem) :
    EachAfter (Proper b flashAddr size) past (streamRecv s st rx).1 ∧
      ∀ st' ∈ (streamRecv s st rx).2.2,Receiving b flashAddr size
        (past++(streamRecv s st rx).1) st' (streamRecv s st rx).2.1.mem := by
  rw [streamRecv]
  by_cases hdata : rx.cmd = rspData ∧ 2 < rx.payload.length
  · rw [if_pos hdata]
    simp only
    have hroom := h.room
    generalize hxs : (rx.payload.drop 2).take (st.sectorBytes b-st.received) = xs
    have hlen : st.received+xs.length ≤ st.sectorBytes b := by
      have hle := length_take_le (st.sectorBytes b-st.received) (rx.payload.drop 2)
      rw [hxs] at hle
      omega
    obtain ⟨hproper,hstored⟩ := h.store hlen
    by_cases hmore : st.received+xs.length < st.sectorBytes b
    · rw [if_pos hmore]
      refine ⟨⟨hproper,trivial⟩,fun st' hst' => ?_⟩
      cases hst'
      exact hstored
    · rw [if_neg hmore]
      have hfull : st.received+xs.length = st.sectorBytes b := by omega
      obtain ⟨heach,hfresh,htracked⟩ := hstored.pass hfull st.received
        (st.totalReceived+st.sectorBytes b)
      by_cases hproc : (processPending (s.store (streamBuf b st.rxBuf+st.received) xs)
          st.pending).1 = true
      · rw [if_pos hproc]
        obtain ⟨hrest,hnext⟩ := streamAdvance_proper (st.numSectors-(st.sector+1)) _ _ _ htracked
          hfresh (Nat.add_sub_of_le h.more)
        refine ⟨⟨hproper,heach.append hrest⟩,fun st' hst' => ?_⟩
        have hrecv := hnext st' hst'
        rw [append_assoc,append_assoc] at hrecv
        exact hrecv
      · rw [if_neg hproc]
        exact ⟨⟨hproper,heach.append ⟨proper_failure (by decide),trivial⟩⟩,no_stream rfl⟩
  · rw [if_neg hdata]
    by_cases hzero : rx.cmd = 0
    · rw [if_pos hzero]
      exact ⟨⟨proper_failure (by simp [AgentMachine.ack,ackFlashError,ackOk]),trivial⟩,
        no_stream rfl⟩
    · rw [if_neg hzero]
      refine ⟨trivial,fun st' hst' => ?_⟩
      cases hst'
      rwa [append_nil]

lemma streamRun_proper (rxs : List Frame) (s : Machine b) (ost : Option Stream)
    (past : List Event) (h : ∀ st ∈ ost,Receiving b flashAddr size past st s.mem) :
    EachAfter (Proper b flashAddr size) past (streamRun s ost rxs) := by
  induction rxs generalizing s ost past with
  | nil => cases ost <;> exact trivial
  | cons rx rxs ih =>
    cases ost with
    | none => exact trivial
    | some st =>
      obtain ⟨heach,hnext⟩ := streamRecv_proper s rx (h st rfl)
      exact heach.append (ih _ _ _ hnext)

/-! ### Whole requests -/

/-- The handler begins to erase and receive. -/
def streamBegins (b : Board) (data : List Byte) : Prop :=
  12 ≤ data.length ∧ streamAccepted b (readLe32 data 0) (readLe32 data 4) = true ∧
    12+(numSectors b (readLe32 data 4)+7)/8 ≤ data.length

lemma handleFlashStream_begins (s : Machine b) (h : streamBegins b data) :
    handleFlashStream s data = (.reply (ack ackOk)::
      (streamAdvance (numSectors b (readLe32 data 4)) (streamStart b data) s).1,
      (streamAdvance (numSectors b (readLe32 data 4)) (streamStart b data) s).2) := by
  obtain ⟨hlen,hacc,hmap⟩ := h
  rw [handleFlashStream]
  simp only [if_neg (show ¬data.length < 12 by omega),hacc,Bool.not_true,Bool.false_eq_true,
    if_false,if_neg (show ¬data.length < 12+(numSectors b (readLe32 data 4)+7)/8 by omega)]

lemma handleFlashStream_refuses (s : Machine b) (h : ¬streamBegins b data) :
    ∃ f,f ≠ ack ackOk ∧ handleFlashStream s data = ([.reply f],s,none) := by
  rw [handleFlashStream]
  by_cases hlen : data.length < 12
  · exact ⟨ack ackCrcError,by decide,by simp only [if_pos hlen]⟩
  · by_cases hacc : streamAccepted b (readLe32 data 0) (readLe32 data 4) = true
    · have hmap : data.length < 12+(numSectors b (readLe32 data 4)+7)/8 := by
        by_contra hmap
        exact h ⟨by omega,hacc,by omega⟩
      refine ⟨ack ackCrcError,by decide,?_⟩
      simp only [if_neg hlen,hacc,Bool.not_true,Bool.false_eq_true,if_false,if_pos hmap]
    · refine ⟨ack ackFlashError,by decide,?_⟩
      simp only [if_neg hlen,Bool.eq_false_iff.mpr hacc,Bool.not_false,if_true]

lemma numSectors_eq {size : ℕ} (h : size+b.flashInfo.sectorSize-1 < 4294967296) :
    numSectors b size = sectorCount b size := by
  rw [numSectors,u32_of_lt h,sectorCount]

lemma tracked_start (s : Machine b) (h : readLe32 data 4+b.flashInfo.sectorSize-1 < 4294967296) :
    Tracked b (readLe32 data 0) (readLe32 data 4) [.reply (ack ackOk)] (streamStart b data)
      s.mem := by
  refine ⟨⟨rfl,rfl⟩,numSectors_eq h,rfl,rfl,nofun,?_⟩
  intro before a xs after hsplit
  cases before with
  | nil => cases hsplit
  | cons e before => simp at hsplit

/-- The trace of a request that begins, from what the handler does at once and what the
frames lead to. -/
theorem begins_proper {n : ℕ} {r : List Event × Machine b × Option Stream} (rxs : List Frame)
    (hr : r = (.reply (ack ackOk)::(streamAdvance n st s).1,(streamAdvance n st s).2))
    (h : Tracked b flashAddr size [.reply (ack ackOk)] st s.mem)
    (hn : st.sector+n = st.numSectors) :
    EachAfter (Proper b flashAddr size) [] (r.1++streamRun r.2.1 r.2.2 rxs) := by
  obtain ⟨heach,hnext⟩ := streamAdvance_proper n st s _ h
    (receivedFrom_quiet (by simp [IsStore])) hn
  subst hr
  exact EachAfter.append ⟨fun _ h => absurd rfl h,heach⟩
    (streamRun_proper rxs _ _ _ hnext)

lemma numSectors_wrap {size : ℕ} (hs : size < 4294967296)
    (h : 4294967296 ≤ size+b.flashInfo.sectorSize-1) :
    numSectors b size = 0 ∧ 0 < sectorCount b size := by
  unfold numSectors sectorCount u32
  rcases b.geometry with ⟨hg,-⟩ | ⟨hg,-⟩ | ⟨hg,-⟩ <;> rw [hg] at h ⊢ <;> omega

end

lemma not_disciplined_of_wrap {b : Board} (h : streamBegins b data)
    (hwrap : 4294967296 ≤ readLe32 data 4+b.flashInfo.sectorSize-1) : ¬Disciplined b data := by
  intro hall
  obtain ⟨hzero,hpos⟩ := numSectors_wrap (readLe32_lt data 4) hwrap
  have htrace := hall (Machine.idle b (fun _ => 0) (fun _ => 0) (fun _ => 0) 0) []
  rw [streamTrace,handleFlashStream_begins _ h,hzero] at htrace
  have hdone := htrace.2.1 rfl (by simp)
  simp only [erasures,nil_append,length_nil] at hdone
  omega

/-- A flash stream keeps its pipeline in order, for every bitmap and all frames, exactly if
the number of its sectors does not wrap. -/
theorem flash_stream_disciplined_iff (b : Board) (data : List Byte) :
    Disciplined b data ↔ (streamBegins b data →
      readLe32 data 4+b.flashInfo.sectorSize-1 < 4294967296) := by
  constructor
  · intro hall hbegins
    by_contra hwrap
    exact not_disciplined_of_wrap hbegins (by omega) hall
  · intro hcond s rxs
    rw [streamTrace]
    by_cases hbegins : streamBegins b data
    · have hcount : (streamStart b data).sector+numSectors b (readLe32 data 4) =
          (streamStart b data).numSectors := by simp only [streamStart,Nat.zero_add]
      exact begins_proper rxs (handleFlashStream_begins s hbegins)
        (tracked_start s (hcond hbegins)) hcount
    · obtain ⟨f,hf,heq⟩ := handleFlashStream_refuses s hbegins
      rw [heq]
      refine EachAfter.append ⟨proper_failure hf,trivial⟩ ?_
      exact streamRun_proper rxs s none _ (no_stream rfl)

/-- 4 GiB less one byte from the second sector on: the end of the range wraps into the flash,
and the sector count to zero. -/
theorem wrapped_count_undisciplined :
    streamBegins (Board.withNor .hi3516ev300 0x17)
      (writeLe32 0x10000++(writeLe32 0xFFFFFFFF++writeLe32 0)) ∧
    ¬Disciplined (Board.withNor .hi3516ev300 0x17)
      (writeLe32 0x10000++(writeLe32 0xFFFFFFFF++writeLe32 0)) := by
  have hbegins : streamBegins (Board.withNor .hi3516ev300 0x17)
      (writeLe32 0x10000++(writeLe32 0xFFFFFFFF++writeLe32 0)) := by
    unfold streamBegins
    decide +kernel
  exact ⟨hbegins,not_disciplined_of_wrap hbegins (by decide +kernel)⟩

end Defib.StreamPipeline
