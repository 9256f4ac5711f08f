import Defib.TftpServer
import Defib.Runs

/-!
# Any clients, any network

The server under every sequence of datagrams and timer callbacks. What one event can
do is said once, by `Change`: nothing to the transfers, a new transfer, the
next block, the end of a transfer, its loss, or a repeated packet. From this follow the
pairing of transfers and timers and the content of every packet sent, over whole runs.
-/
namespace Defib.TftpInvariant
open List Words TftpServer Runs

variable {A : Type} [DecidableEq A]

/-- The server with everything it has sent. -/
structure World (A : Type) where
  server : Server A
  log : List (Sent A)
  raised : Bool

def World.start : World A := ⟨Server.start,[],false⟩

def step (c : Config) (w : World A) (ev : Event A) : World A :=
  match w.server.react c ev with
  | none => {w with raised := true}
  | some (s,sent) => ⟨s,w.log++sent,w.raised⟩

/-- The request names a file of fewer than 65536 blocks, if it names one. -/
def SmallRequest (c : Config) (ev : Event A) : Prop :=
  ∀ addr d r file,ev = .datagram addr d → parseRrq d = some r →
    c.resolveFile r.filename = some file → file.length/c.blocksize r+1 < 65536

/-- An acknowledgement of block `n` from `addr`. -/
def IsAck (ev : Event A) (addr : A) (n : ℕ) : Prop :=
  ∃ d,ev = .datagram addr d ∧ 4 ≤ d.length ∧ Server.unpackBe16 d 0 = 4 ∧ Server.unpackBe16 d 2 = n

/-- The data blocks sent for a transfer other than by its timer. -/
def firstNumbers (id : ℕ) (log : List (Sent A)) : List ℕ :=
  log.filterMap fun e => match e.transfer,e.packet with
    | some t,.data n _ => if t.id = id ∧ e.resend = false then some n else none
    | _,_ => none

/-! ### Transfers and timers -/

/-- Every live transfer has its timer, and every timer its live transfer. -/
structure Timed (s : Server A) : Prop where
  addr_eq : ∀ a t,s.transfers.lookup a = some t → t.addr = a
  id_lt : ∀ a t,s.transfers.lookup a = some t → t.id < s.nextId
  id_inj : ∀ a b t u,s.transfers.lookup a = some t → s.transfers.lookup b = some u →
    t.id = u.id → a = b
  armed : ∀ a t,s.transfers.lookup a = some t →
    ∃ m ∈ s.timers,m.addr = a ∧ m.owner = t.id ∧ t.timer = some m.handle
  owned : ∀ m ∈ s.timers,∃ t,s.transfers.lookup m.addr = some t ∧ t.id = m.owner ∧
    t.timer = some m.handle
  handle_lt : ∀ m ∈ s.timers,m.handle < s.nextHandle
  nodup : (s.timers.map (·.handle)).Nodup
  size_le : s.transfers.keys.length ≤ maxTransfers

lemma start_timed : Timed (Server.start : Server A) where
  addr_eq := by intro a t h; cases h
  id_lt := by intro a t h; cases h
  id_inj := by intro a b t u h; cases h
  armed := by intro a t h; cases h
  owned := by intro m h; cases h
  handle_lt := by intro m h; cases h
  nodup := nodup_nil
  size_le := Nat.zero_le _

/-- `s'` has transfer `t` at `a`, with a fresh timer in place of the old one. -/
structure Installs (s s' : Server A) (a : A) (t : Transfer A) : Prop where
  transfers : s'.transfers = s.transfers.insert a t
  timers : s'.timers = ⟨s.nextHandle,a,t.id⟩ :: s.timers.filter (·.addr ≠ a)
  nextHandle : s'.nextHandle = s.nextHandle+1
  timer : t.timer = some s.nextHandle
  addr : t.addr = a

/-- `s'` has neither transfer nor timer at `a`. -/
structure Removes (s s' : Server A) (a : A) : Prop where
  transfers : s'.transfers = s.transfers.erase a
  timers : s'.timers = s.timers.filter (·.addr ≠ a)
  nextHandle : s'.nextHandle = s.nextHandle
  nextId : s'.nextId = s.nextId

variable {s s' : Server A}

lemma handle_inj (hs : Timed s) {m m' : Timer A} (hm : m ∈ s.timers)
    (hm' : m' ∈ s.timers) (h : m.handle = m'.handle) : m = m' :=
  inj_on_of_nodup_map hs.nodup hm hm' h

variable {t : Transfer A}

lemma cancelTimer_filter (hs : Timed s) {a : A} (ht : s.transfers.lookup a = some t) :
    (s.cancelTimer t).timers = s.timers.filter (·.addr ≠ a) := by
  refine filter_congr fun m hm => decide_eq_decide.mpr ?_
  obtain ⟨u,hu,_,hut⟩ := hs.owned m hm
  constructor
  · rintro h rfl
    rw [ht] at hu
    cases hu
    exact h hut
  · intro h htm
    obtain ⟨m',hm',ha,_,hmt⟩ := hs.armed a t ht
    rw [htm] at hmt
    have := handle_inj hs hm hm' (Option.some.inj hmt)
    exact h (this ▸ ha)

lemma filter_absent (hs : Timed s) {a : A} (ha : s.transfers.lookup a = none) :
    s.timers = s.timers.filter (·.addr ≠ a) := by
  refine (filter_eq_self.mpr fun m hm => decide_eq_true ?_).symm
  rintro rfl
  obtain ⟨t,ht,_⟩ := hs.owned m hm
  rw [ha] at ht
  cases ht

lemma Removes.lookup {a : A} (h : Removes s s' a) {b : A}
    (hb : s'.transfers.lookup b = some t) : b ≠ a ∧ s.transfers.lookup b = some t := by
  rw [h.transfers] at hb
  by_cases hba : b = a
  · subst hba
    rw [AList.lookup_erase] at hb
    cases hb
  · rw [AList.lookup_erase_ne hba] at hb
    exact ⟨hba,hb⟩

lemma Removes.timed {a : A} (hs : Timed s) (h : Removes s s' a) : Timed s' := by
  have hlive : ∀ b t,s'.transfers.lookup b = some t → b ≠ a ∧ s.transfers.lookup b = some t :=
    fun b t hb => h.lookup hb
  have hmem : ∀ m ∈ s'.timers,m ∈ s.timers ∧ m.addr ≠ a := by
    intro m hm
    rw [h.timers] at hm
    exact ⟨(mem_filter.mp hm).1,of_decide_eq_true (mem_filter.mp hm).2⟩
  constructor
  · exact fun b t hb => hs.addr_eq b t (hlive b t hb).2
  · exact fun b t hb => h.nextId ▸ hs.id_lt b t (hlive b t hb).2
  · exact fun b b' t u hb hb' => hs.id_inj b b' t u (hlive b t hb).2 (hlive b' u hb').2
  · intro b t hb
    obtain ⟨m,hm,hma,hrest⟩ := hs.armed b t (hlive b t hb).2
    refine ⟨m,?_,hma,hrest⟩
    rw [h.timers,mem_filter]
    exact ⟨hm,decide_eq_true (hma ▸ (hlive b t hb).1)⟩
  · intro m hm
    obtain ⟨t,ht,hrest⟩ := hs.owned m (hmem m hm).1
    refine ⟨t,?_,hrest⟩
    rw [h.transfers,AList.lookup_erase_ne (hmem m hm).2]
    exact ht
  · exact fun m hm => h.nextHandle ▸ hs.handle_lt m (hmem m hm).1
  · rw [h.timers]
    exact hs.nodup.sublist (filter_sublist.map _)
  · rw [h.transfers,AList.keys_erase]
    exact (length_erase_le).trans hs.size_le

lemma Installs.lookup {a : A} (h : Installs s s' a t) {b : A}
    {u : Transfer A} (hb : s'.transfers.lookup b = some u) :
    (b = a ∧ u = t) ∨ (b ≠ a ∧ s.transfers.lookup b = some u) := by
  rw [h.transfers] at hb
  by_cases hba : b = a
  · subst hba
    rw [AList.lookup_insert] at hb
    cases hb
    exact .inl ⟨rfl,rfl⟩
  · rw [AList.lookup_insert_ne hba] at hb
    exact .inr ⟨hba,hb⟩

lemma Installs.timed {a : A} (hs : Timed s)
    (h : Installs s s' a t) (hnext : s.nextId ≤ s'.nextId) (hid : t.id < s'.nextId)
    (hfresh : ∀ b u,b ≠ a → s.transfers.lookup b = some u → u.id ≠ t.id) (hroom : s.HasRoom a) :
    Timed s' := by
  constructor
  · intro b u hb
    rcases h.lookup hb with ⟨rfl,rfl⟩ | ⟨_,hb⟩
    · exact h.addr
    · exact hs.addr_eq b u hb
  · intro b u hb
    rcases h.lookup hb with ⟨rfl,rfl⟩ | ⟨_,hb⟩
    · exact hid
    · exact Nat.lt_of_lt_of_le (hs.id_lt b u hb) hnext
  · intro b b' u u' hb hb' huu
    rcases h.lookup hb with ⟨rfl,rfl⟩ | ⟨hne,hb⟩
    · rcases h.lookup hb' with ⟨rfl,_⟩ | ⟨hne',hb'⟩
      · rfl
      · exact absurd huu.symm (hfresh b' u' hne' hb')
    · rcases h.lookup hb' with ⟨rfl,rfl⟩ | ⟨_,hb'⟩
      · exact absurd huu (hfresh b u hne hb)
      · exact hs.id_inj b b' u u' hb hb' huu
  · intro b u hb
    rw [h.timers]
    rcases h.lookup hb with ⟨rfl,rfl⟩ | ⟨hne,hb⟩
    · exact ⟨_,mem_cons_self,rfl,rfl,h.timer⟩
    · obtain ⟨m,hm,hma,hrest⟩ := hs.armed b u hb
      exact ⟨m,mem_cons_of_mem _ (mem_filter.mpr ⟨hm,decide_eq_true (hma ▸ hne)⟩),
        hma,hrest⟩
  · intro m hm
    rw [h.timers] at hm
    rw [h.transfers]
    rcases mem_cons.mp hm with rfl | hm
    · exact ⟨t,AList.lookup_insert _,rfl,h.timer⟩
    · obtain ⟨hm,hne⟩ := mem_filter.mp hm
      obtain ⟨u,hu,hrest⟩ := hs.owned m hm
      exact ⟨u,by rw [AList.lookup_insert_ne (of_decide_eq_true hne)]; exact hu,hrest⟩
  · intro m hm
    rw [h.timers] at hm
    rw [h.nextHandle]
    rcases mem_cons.mp hm with rfl | hm
    · exact Nat.lt_succ_self _
    · exact Nat.lt_succ_of_lt (hs.handle_lt m (mem_filter.mp hm).1)
  · rw [h.timers,map_cons,nodup_cons]
    refine ⟨fun hmem => ?_,hs.nodup.sublist (filter_sublist.map _)⟩
    obtain ⟨m,hm,hmh⟩ := mem_map.mp hmem
    exact absurd (hs.handle_lt m (mem_filter.mp hm).1) (by rw [hmh]; exact lt_irrefl _)
  · rw [h.transfers,AList.keys_insert,length_cons]
    have hlen : s.transfers.keys.length = s.transfers.entries.length := length_map _
    by_cases ha : a ∈ s.transfers
    · rw [length_erase_of_mem (AList.mem_keys.mp ha)]
      have hpos := length_pos_of_mem (AList.mem_keys.mp ha)
      have hle := hs.size_le
      omega
    · rw [erase_of_not_mem (fun hk => ha (AList.mem_keys.mpr hk))]
      rcases hroom with hr | hr
      · exact absurd hr ha
      · omega

/-! ### What one event can do -/

/-- The record of a sent packet names the transfer `t`. -/
def SentFor (e : Sent A) (t : Transfer A) : Prop :=
  ∃ u,e.transfer = some u ∧ u.id = t.id ∧ u.data = t.data ∧ u.blocksize = t.blocksize

/-- The transfer waits for the acknowledgement of block `n`, which it has sent. -/
structure Waits (t : Transfer A) (n : ℕ) : Prop where
  blockNum : t.blockNum = n
  complete : t.complete = decide ((Server.block t n).length < t.blocksize)
  lastPacket : t.lastPacket = some (.data n (Server.block t n))

inductive Change (c : Config) (s : Server A) (ev : Event A) (s' : Server A) (sent : List (Sent A)) :
    Prop
  /-- Counters and error replies only. -/
  | quiet (transfers : s'.transfers = s.transfers) (timers : s'.timers = s.timers)
      (nextId : s'.nextId = s.nextId) (nextHandle : s'.nextHandle = s.nextHandle)
      (count : s'.transfersComplete = s.transfersComplete)
      (sent_none : ∀ e ∈ sent,e.transfer = none)
  /-- A request opens a transfer, with an option reply or the first block. -/
  | opened (a : A) (d : List Byte) (r : Rrq) (t : Transfer A) (e : Sent A)
      (event : ev = .datagram a d) (request : parseRrq d = some r)
      (file : c.resolveFile r.filename = some t.data) (blocksize : t.blocksize = c.blocksize r)
      (room : s.HasRoom a) (id : t.id = s.nextId) (nextId : s'.nextId = s.nextId+1)
      (installs : Installs s s' a t) (count : s'.transfersComplete = s.transfersComplete)
      (sent_eq : sent = [e]) (sent_for : SentFor e t) (first : e.resend = false)
      (packet : t.lastPacket = some e.packet)
      (state : (t.blockNum = 0 ∧ t.complete = false ∧ e.packet = .oack t.blocksize) ∨ Waits t 1)
  /-- An acknowledgement of the current block brings the next one. -/
  | advanced (a : A) (t u : Transfer A) (e : Sent A) (ack : IsAck ev a t.blockNum)
      (live : s.transfers.lookup a = some t) (pending : t.complete = false)
      (installs : Installs s s' a u) (id : u.id = t.id) (data : u.data = t.data)
      (blocksize : u.blocksize = t.blocksize) (waits : Waits u (t.blockNum+1))
      (nextId : s'.nextId = s.nextId) (count : s'.transfersComplete = s.transfersComplete)
      (sent_eq : sent = [e]) (sent_for : SentFor e u) (first : e.resend = false)
      (packet : u.lastPacket = some e.packet)
  /-- An acknowledgement of the last block ends the transfer. -/
  | finished (a : A) (t : Transfer A) (ack : IsAck ev a t.blockNum)
      (live : s.transfers.lookup a = some t) (complete : t.complete = true)
      (removes : Removes s s' a) (count : s'.transfersComplete = s.transfersComplete+1)
      (sent_eq : sent = [])
  /-- An error of the client or too many retransmits end the transfer. -/
  | dropped (a : A) (removes : Removes s s' a) (count : s'.transfersComplete = s.transfersComplete)
      (sent_eq : sent = [])
  /-- The timer of a live transfer repeats its last packet. -/
  | resent (a : A) (t u : Transfer A) (e : Sent A) (live : s.transfers.lookup a = some t)
      (installs : Installs s s' a u) (same : u = {t with retries := u.retries, timer := u.timer})
      (nextId : s'.nextId = s.nextId) (count : s'.transfersComplete = s.transfersComplete)
      (sent_eq : sent = [e]) (sent_for : SentFor e u) (again : e.resend = true)
      (packet : t.lastPacket = some e.packet)

omit [DecidableEq A] in
lemma cancelTimer_none (s : Server A) (ht : t.timer = none) :
    (s.cancelTimer t).timers = s.timers := by
  simp [Server.cancelTimer,ht]

section
variable {c : Config} {s s₀ : Server A} {a : A} {t : Transfer A}

lemma sendTracked_installs (htr : s₀.transfers = s.transfers) (hnh : s₀.nextHandle = s.nextHandle)
    (htm : (s₀.cancelTimer t).timers = s.timers.filter (·.addr ≠ a))
    (ha : t.addr = a) (p : Packet) :
    Installs s (s₀.sendTracked t p).1 a
      {t with lastPacket := some p, timer := some s.nextHandle} := by
  subst ha
  constructor
  · show s₀.transfers.insert t.addr _ = _
    rw [htr,← hnh]
    rfl
  · rw [← htm,← hnh]
    rfl
  · rw [← hnh]
    rfl
  · rfl
  · rfl

lemma sendDataBlock_installs (htr : s₀.transfers = s.transfers)
    (hnh : s₀.nextHandle = s.nextHandle)
    (htm : (s₀.cancelTimer t).timers = s.timers.filter (·.addr ≠ a)) (ha : t.addr = a)
    (hn : t.blockNum+1 < 65536) (hc : t.complete = false) :
    ∃ s' u e,s₀.sendDataBlock t = some (s',[e]) ∧ Installs s s' a u ∧ u.id = t.id ∧
      u.data = t.data ∧ u.blocksize = t.blocksize ∧ Waits u (t.blockNum+1) ∧ SentFor e u ∧
      e.resend = false ∧ u.lastPacket = some e.packet ∧ s'.nextId = s₀.nextId ∧
      s'.transfersComplete = s₀.transfersComplete := by
  rw [Server.sendDataBlock,if_pos hn]
  have hins := sendTracked_installs (t := {t with
    blockNum := t.blockNum+1
    complete := t.complete || (Server.block t (t.blockNum+1)).length < t.blocksize}) htr hnh htm ha
    (.data (t.blockNum+1) (Server.block t (t.blockNum+1)))
  refine ⟨_,_,_,rfl,hins,rfl,rfl,rfl,⟨rfl,?_,rfl⟩,⟨_,rfl,rfl,rfl,rfl⟩,rfl,rfl,rfl,rfl⟩
  simp only [hc,Bool.false_or]
  rfl

/-- What the handlers rely on for the live transfers. -/
def Servable (s : Server A) : Prop :=
  ∀ a t,s.transfers.lookup a = some t → (t.complete = false → t.blockNum+1 < 65536) ∧
    (t.blockNum = 0 → t.complete = false) ∧ t.lastPacket.isSome = true

lemma handleRrq_change (hs : Timed s) (addr : A) (d : List Byte) : ∃ s' sent,
    s.handleRrq c addr d = some (s',sent) ∧ Change c s (.datagram addr d) s' sent := by
  unfold Server.handleRrq
  cases hr : parseRrq d with
  | none =>
    exact ⟨_,_,rfl,.quiet rfl rfl rfl rfl rfl fun e he => by
      rw [mem_singleton.mp he]⟩
  | some r =>
    by_cases hfull : addr ∉ s.transfers ∧ maxTransfers ≤ s.transfers.entries.length
    · simp only [if_pos hfull]
      exact ⟨_,_,rfl,.quiet rfl rfl rfl rfl rfl fun e he => absurd he not_mem_nil⟩
    · have hroom : s.HasRoom addr := by
        by_cases hmem : addr ∈ s.transfers
        · exact .inl hmem
        · exact .inr (by
            by_contra hge
            exact hfull ⟨hmem,by omega⟩)
      simp only [if_neg hfull]
      cases hf : c.resolveFile r.filename with
      | none =>
        exact ⟨_,_,rfl,.quiet rfl rfl rfl rfl rfl fun e he => by
          rw [mem_singleton.mp he]⟩
      | some file =>
        -- the state the new transfer is sent from: no timer for this address
        generalize hbase : ({((s.transfers.lookup addr).elim
          {s with requests := s.requests+1}
          (Server.cancelTimer {s with requests := s.requests+1})) with
            nextId := s.nextId+1} : Server A) = base
        have hbaseEq : base.transfers = s.transfers ∧ base.nextHandle = s.nextHandle ∧
            base.nextId = s.nextId+1 ∧ base.transfersComplete = s.transfersComplete ∧
            base.timers = s.timers.filter (·.addr ≠ addr) := by
          rw [← hbase]
          cases hl : s.transfers.lookup addr with
          | none => exact ⟨rfl,rfl,rfl,rfl,filter_absent hs hl⟩
          | some old => exact ⟨rfl,rfl,rfl,rfl,cancelTimer_filter hs hl⟩
        obtain ⟨htr,hnh,hni,hcount,htm⟩ := hbaseEq
        have hcancel : (base.cancelTimer (Server.newTransfer c s addr r file)).timers =
            s.timers.filter (·.addr ≠ addr) := (cancelTimer_none base rfl).trans htm
        cases hblk : r.blksize with
        | some n =>
          refine ⟨_,_,rfl,.opened addr d r _ _ rfl hr ?_ ?_ hroom ?_ ?_
            (sendTracked_installs htr hnh hcancel rfl _) ?_ rfl ⟨_,rfl,rfl,rfl,rfl⟩ rfl rfl
            (.inl ⟨rfl,rfl,rfl⟩)⟩
          · exact hf
          · rfl
          · rfl
          · exact hni
          · exact hcount
        | none =>
          obtain ⟨s',u,e,hsend,hins,hid,hdata,hbs,hwaits,hfor,hfirst,hpkt,hnext,hc'⟩ :=
            sendDataBlock_installs htr hnh hcancel rfl (show 0+1 < 65536 by decide) rfl
          refine ⟨s',[e],hsend,.opened addr d r u e rfl hr ?_ hbs hroom hid (hnext.trans hni)
            hins (hc'.trans hcount) rfl hfor hfirst hpkt (.inr hwaits)⟩
          rw [hf,hdata]
          rfl

lemma handleAck_change (hs : Timed s) (hsv : Servable s) (addr : A) (d : List Byte)
    (hop : Server.unpackBe16 d 0 = 4) : ∃ s' sent,
    s.handleAck c addr d = some (s',sent) ∧ Change c s (.datagram addr d) s' sent := by
  unfold Server.handleAck
  by_cases hlen : d.length < 4
  · rw [if_pos hlen]
    exact ⟨_,_,rfl,.quiet rfl rfl rfl rfl rfl fun e he => absurd he not_mem_nil⟩
  rw [if_neg hlen]
  cases hl : s.transfers.lookup addr with
  | none => exact ⟨_,_,rfl,.quiet rfl rfl rfl rfl rfl fun e he => absurd he not_mem_nil⟩
  | some t =>
    obtain ⟨hroomy,hzero,_⟩ := hsv addr t hl
    have haddr := hs.addr_eq addr t hl
    simp only
    by_cases h0 : Server.unpackBe16 d 2 = 0 ∧ t.blockNum = 0
    · -- the option reply was acknowledged
      rw [if_pos h0]
      obtain ⟨s',u,e,hsend,hins,hid,hdata,hbs,hwaits,hfor,hfirst,hpkt,hnext,hcount⟩ :=
        sendDataBlock_installs (s := s) (t := {t with retries := 0}) rfl rfl
          (show (s.cancelTimer t).timers = _ from cancelTimer_filter hs hl) haddr
          (hroomy (hzero h0.2)) (hzero h0.2)
      exact ⟨s',[e],hsend,.advanced addr t u e
        ⟨d,rfl,by omega,hop,h0.1.trans h0.2.symm⟩ hl (hzero h0.2) hins hid hdata hbs hwaits
        hnext hcount rfl hfor hfirst hpkt⟩
    rw [if_neg h0]
    by_cases hcur : Server.unpackBe16 d 2 = t.blockNum
    · have hack : IsAck (.datagram addr d) addr t.blockNum := ⟨d,rfl,by omega,hop,hcur⟩
      rw [if_pos hcur]
      cases hc : t.complete with
      | true =>
        refine ⟨_,_,rfl,.finished addr t hack hl hc ⟨?_,cancelTimer_filter hs hl,rfl,rfl⟩ rfl rfl⟩
        show s.transfers.erase t.addr = _
        rw [haddr]
      | false =>
        obtain ⟨s',u,e,hsend,hins,hid,hdata,hbs,hwaits,hfor,hfirst,hpkt,hnext,hcount⟩ :=
          sendDataBlock_installs (s := s)
            (t := {t with retries := 0, timer := none, complete := false})
            (show (s.cancelTimer t).transfers = s.transfers from rfl) rfl
            ((cancelTimer_none _ rfl).trans (cancelTimer_filter hs hl)) haddr (hroomy hc) rfl
        exact ⟨s',[e],hsend,.advanced addr t u e hack hl hc hins hid hdata hbs hwaits hnext
          hcount rfl hfor hfirst hpkt⟩
    · rw [if_neg hcur]
      exact ⟨_,_,rfl,.quiet rfl rfl rfl rfl rfl fun e he => absurd he not_mem_nil⟩

lemma handleError_change (hs : Timed s) (addr : A) (ev : Event A) :
    Change c s ev (s.handleError addr) [] := by
  unfold Server.handleError
  cases hl : s.transfers.lookup addr with
  | none => exact .quiet rfl rfl rfl rfl rfl fun e he => absurd he not_mem_nil
  | some t => exact .dropped addr ⟨rfl,cancelTimer_filter hs hl,rfl,rfl⟩ rfl rfl

lemma retransmit_change (hs : Timed s) (hsv : Servable s) {m : Timer A} (hm : m ∈ s.timers)
    (ev : Event A) : Change c s ev (s.retransmit c m).1 (s.retransmit c m).2 := by
  obtain ⟨t,hl,hid,htimer⟩ := hs.owned m hm
  have haddr := hs.addr_eq m.addr t hl
  have hfilter : s.timers.filter (·.handle ≠ m.handle) = s.timers.filter (·.addr ≠ m.addr) := by
    rw [← cancelTimer_filter hs hl]
    refine filter_congr fun m' _ => decide_eq_decide.mpr ?_
    rw [htimer,ne_eq,ne_eq,Option.some.injEq,eq_comm]
  obtain ⟨p,hp⟩ := Option.isSome_iff_exists.mp (hsv m.addr t hl).2.2
  simp only [Server.retransmit,hl,hid,ne_eq,not_true_eq_false,if_false,hp,Option.elim_some]
  by_cases hr : c.maxRetries ≤ t.retries
  · rw [if_pos hr]
    refine .dropped m.addr ⟨?_,hfilter,rfl,rfl⟩ rfl rfl
    show s.transfers.erase t.addr = _
    rw [haddr]
  · rw [if_neg hr]
    refine .resent m.addr t {t with retries := t.retries+1, timer := some s.nextHandle} _ hl
      ⟨?_,?_,rfl,rfl,haddr⟩ rfl rfl rfl rfl ⟨_,rfl,hid.symm,rfl,rfl⟩ rfl hp
    · show s.transfers.insert t.addr _ = _
      rw [haddr]
      simp only [Server.armTimer,hid,hp,Server.cancelTimer]
    · simp only [Server.put,Server.armTimer,Server.cancelTimer,haddr,hid]
      rw [show (fun m' : Timer A => decide (¬(none : Option ℕ) = some m'.handle)) =
        fun _ => true from
        funext fun _ => rfl,filter_true]
      exact congrArg _ hfilter

lemma react_change (hs : Timed s) (hsv : Servable s) (ev : Event A) : ∃ s' sent,
    s.react c ev = some (s',sent) ∧ Change c s ev s' sent := by
  cases ev with
  | datagram addr d =>
    simp only [Server.react,Server.datagramReceived]
    split_ifs with hlen hrrq hack herr
    · exact ⟨_,_,rfl,.quiet rfl rfl rfl rfl rfl fun e he => absurd he not_mem_nil⟩
    · exact handleRrq_change hs addr d
    · exact handleAck_change hs hsv addr d hack
    · exact ⟨_,_,rfl,handleError_change hs addr _⟩
    · exact ⟨_,_,rfl,.quiet rfl rfl rfl rfl rfl fun e he => by
        rw [mem_singleton.mp he]⟩
  | timer h =>
    simp only [Server.react]
    cases hf : s.timers.find? (·.handle = h) with
    | none => exact ⟨_,_,rfl,.quiet rfl rfl rfl rfl rfl fun e he => absurd he not_mem_nil⟩
    | some m => exact ⟨_,_,rfl,retransmit_change hs hsv (mem_of_find?_eq_some hf) _⟩

end

/-! ### What has been sent -/

/-- A live transfer: its file, the blocks sent for it so far and the packet it repeats. `F`
gives every transfer its file and block size. -/
structure Faithful (F : ℕ → List Byte × ℕ) (log : List (Sent A)) (t : Transfer A) : Prop where
  file : F t.id = (t.data,t.blocksize)
  pos : 0 < t.blocksize
  small : t.data.length/t.blocksize+1 < 65536
  firsts : firstNumbers t.id log = List.range' 1 t.blockNum
  state : (t.blockNum = 0 ∧ t.complete = false ∧ t.lastPacket = some (.oack t.blocksize)) ∨
    (Waits t t.blockNum ∧ 1 ≤ t.blockNum ∧ t.blockNum ≤ t.data.length/t.blocksize+1 ∧
      ∃ e ∈ log,SentFor e t ∧ e.packet = .data t.blockNum (Server.block t t.blockNum))

/-- Every packet of the log carries what its number says, and the blocks of a transfer are
first sent in order. -/
structure LogFaithful (F : ℕ → List Byte × ℕ) (log : List (Sent A)) (nextId : ℕ) : Prop where
  entry : ∀ e ∈ log,∀ u,e.transfer = some u → u.id < nextId ∧ F u.id = (u.data,u.blocksize) ∧
    ∀ n p,e.packet = .data n p → 1 ≤ n ∧ p = Server.block u n
  ordered : ∀ id,∃ k,firstNumbers id log = List.range' 1 k

structure Sound (s : Server A) (log : List (Sent A)) : Prop where
  timed : Timed s
  faithful : ∃ F,LogFaithful F log s.nextId ∧
    ∀ a t,s.transfers.lookup a = some t → Faithful F log t

omit [DecidableEq A] in
lemma firstNumbers_append (id : ℕ) (l₁ l₂ : List (Sent A)) :
    firstNumbers id (l₁++l₂) = firstNumbers id l₁++firstNumbers id l₂ :=
  filterMap_append

omit [DecidableEq A] in
lemma firstNumbers_quiet (id : ℕ) {sent : List (Sent A)} (h : ∀ e ∈ sent,e.transfer = none) :
    firstNumbers id sent = [] := by
  refine filterMap_eq_nil_iff.mpr fun e he => ?_
  rw [h e he]

variable {e : Sent A}

omit [DecidableEq A] in
lemma firstNumbers_first (he : SentFor e t)
    (hfirst : e.resend = false) {n : ℕ} {p : List Byte} (hp : e.packet = .data n p) (id : ℕ) :
    firstNumbers id [e] = if t.id = id then [n] else [] := by
  obtain ⟨u,hu,hid,_⟩ := he
  by_cases h : t.id = id
  · simp [firstNumbers,hu,hp,hid,hfirst,h]
  · simp [firstNumbers,hu,hp,hid,h]

omit [DecidableEq A] in
lemma firstNumbers_oack {n : ℕ} (hp : e.packet = .oack n) (id : ℕ) :
    firstNumbers id [e] = [] := by
  cases ht : e.transfer <;> simp [firstNumbers,ht,hp]

omit [DecidableEq A] in
lemma firstNumbers_resend (h : e.resend = true) (id : ℕ) :
    firstNumbers id [e] = [] := by
  cases ht : e.transfer <;> cases hp : e.packet <;> simp [firstNumbers,ht,hp,h]

variable {F : ℕ → List Byte × ℕ}

omit [DecidableEq A] in
lemma firstNumbers_fresh {log : List (Sent A)} {n : ℕ}
    (h : LogFaithful F log n) : firstNumbers n log = [] := by
  refine filterMap_eq_nil_iff.mpr fun e he => ?_
  cases hu : e.transfer with
  | none => rfl
  | some u =>
    have hlt := (h.entry e he u hu).1
    cases e.packet with
    | data k p => simp [hlt.ne]
    | oack k => rfl
    | error k m => rfl

omit [DecidableEq A] in
lemma block_congr {t u : Transfer A} (hd : u.data = t.data) (hb : u.blocksize = t.blocksize)
    (n : ℕ) : Server.block u n = Server.block t n := by
  rw [Server.block,Server.block,hd,hb]

omit [DecidableEq A] in
lemma Faithful.mono {F F' : ℕ → List Byte × ℕ} {log sent : List (Sent A)}
    (h : Faithful F log t) (hF : F' t.id = F t.id) (hs : firstNumbers t.id sent = []) :
    Faithful F' (log++sent) t where
  file := hF.trans h.file
  pos := h.pos
  small := h.small
  firsts := by rw [firstNumbers_append,hs,append_nil,h.firsts]
  state := h.state.imp id fun ⟨hw,h1,hle,e,he,hrest⟩ =>
    ⟨hw,h1,hle,e,mem_append_left _ he,hrest⟩

omit [DecidableEq A] in
lemma Faithful.next_le {log : List (Sent A)} (h : Faithful F log t) (hc : t.complete = false) :
    t.blockNum+1 ≤ t.data.length/t.blocksize+1 := by
  rcases h.state with ⟨h0,_⟩ | ⟨hw,h1,_⟩
  · rw [h0]
    exact Nat.le_add_left _ _
  · have hfull : ¬(Server.block t t.blockNum).length < t.blocksize := by
      have := hw.complete
      rw [hc] at this
      exact of_decide_eq_false this.symm
    rw [Server.block,chunk_short_iff h.pos] at hfull
    omega

omit [DecidableEq A] in
lemma Faithful.servable {log : List (Sent A)}
    (h : Faithful F log t) : (t.complete = false → t.blockNum+1 < 65536) ∧
      (t.blockNum = 0 → t.complete = false) ∧ t.lastPacket.isSome = true := by
  refine ⟨fun hc => Nat.lt_of_le_of_lt (h.next_le hc) h.small,fun h0 => ?_,?_⟩
  · rcases h.state with ⟨_,hc,_⟩ | ⟨_,h1,_⟩
    · exact hc
    · omega
  · rcases h.state with ⟨_,_,hp⟩ | ⟨hw,_⟩
    · rw [hp]; rfl
    · rw [hw.lastPacket]; rfl

/-! ### The invariant, change by change -/

section
variable {c : Config} {s s' : Server A} {log : List (Sent A)} {a : A}

lemma Sound.quiet (h : Sound s log) (htr : s'.transfers = s.transfers)
    (htm : s'.timers = s.timers) (hni : s'.nextId = s.nextId) (hnh : s'.nextHandle = s.nextHandle)
    {sent : List (Sent A)} (hnone : ∀ e ∈ sent,e.transfer = none) : Sound s' (log++sent) := by
  obtain ⟨F,hlog,hlive⟩ := h.faithful
  refine ⟨?_,F,⟨?_,?_⟩,?_⟩
  · obtain ⟨h1,h2,h3,h4,h5,h6,h7,h8⟩ := h.timed
    constructor <;> simp only [htr,htm,hni,hnh] <;> assumption
  · intro e he u hu
    rw [hni]
    rcases mem_append.mp he with he | he
    · exact hlog.entry e he u hu
    · rw [hnone e he] at hu
      cases hu
  · intro id
    rw [firstNumbers_append,firstNumbers_quiet id hnone,append_nil]
    exact hlog.ordered id
  · intro b t ht
    rw [htr] at ht
    exact (hlive b t ht).mono rfl (firstNumbers_quiet _ hnone)

lemma Sound.removes (h : Sound s log) (hrem : Removes s s' a) : Sound s' log := by
  obtain ⟨F,hlog,hlive⟩ := h.faithful
  refine ⟨hrem.timed h.timed,F,?_,fun b u hb => hlive b u (hrem.lookup hb).2⟩
  rw [hrem.nextId]
  exact hlog

omit [DecidableEq A] in
lemma entry_of_sentFor {n : ℕ}
    (hfor : SentFor e t) (hlt : t.id < n) (hF : F t.id = (t.data,t.blocksize))
    (hp : ∀ k p,e.packet = .data k p → 1 ≤ k ∧ p = Server.block t k) :
    ∀ u,e.transfer = some u → u.id < n ∧ F u.id = (u.data,u.blocksize) ∧
      ∀ k p,e.packet = .data k p → 1 ≤ k ∧ p = Server.block u k := by
  intro u hu
  obtain ⟨v,hv,hid,hd,hb⟩ := hfor
  rw [hv] at hu
  cases hu
  refine ⟨hid ▸ hlt,by rw [hid,hd,hb,hF],fun k p hkp => ?_⟩
  rw [block_congr hd hb]
  exact hp k p hkp

lemma id_ne_of_ne (hs : Timed s) {t u v : Transfer A} (hl : s.transfers.lookup a = some t)
    (hid : u.id = t.id) {b : A} (hb : b ≠ a) (hv : s.transfers.lookup b = some v) : v.id ≠ u.id :=
  fun h => hb (hs.id_inj b a v t hv hl (h.trans hid))

lemma hasRoom_of_live (hl : s.transfers.lookup a = some t) : s.HasRoom a :=
  .inl (AList.lookup_isSome.mp (by rw [hl]; rfl))

lemma Sound.opened (h : Sound s log) (hroom : s.HasRoom a)
    (hid : t.id = s.nextId) (hni : s'.nextId = s.nextId+1) (hins : Installs s s' a t)
    (hfor : SentFor e t) (hfirst : e.resend = false) (hpkt : t.lastPacket = some e.packet)
    (hstate : (t.blockNum = 0 ∧ t.complete = false ∧ e.packet = .oack t.blocksize) ∨ Waits t 1)
    (hpos : 0 < t.blocksize) (hsmall : t.data.length/t.blocksize+1 < 65536) :
    Sound s' (log++[e]) := by
  obtain ⟨F,hlog,hlive⟩ := h.faithful
  -- the new transfer gets its entry in `F`; every identity in use is smaller
  have hold : ∀ n < s.nextId,Function.update F t.id (t.data,t.blocksize) n = F n := fun n hn =>
    Function.update_of_ne (hid ▸ hn.ne) _ _
  have hnone : firstNumbers t.id log = [] := hid ▸ firstNumbers_fresh hlog
  have hothers : ∀ b u,s.transfers.lookup b = some u → t.id ≠ u.id := fun b u hb =>
    hid ▸ (h.timed.id_lt b u hb).ne'
  have hnew : (∀ id,firstNumbers id [e] = if t.id = id then List.range' 1 t.blockNum else []) ∧
      ∀ n p,e.packet = .data n p → 1 ≤ n ∧ p = Server.block t n := by
    rcases hstate with ⟨h0,_,hoack⟩ | hwait
    · refine ⟨fun id => ?_,fun n p hp => by rw [hoack] at hp; cases hp⟩
      rw [firstNumbers_oack hoack,h0]
      split_ifs <;> rfl
    · have hp : e.packet = .data 1 (Server.block t 1) :=
        Option.some.inj (hpkt.symm.trans hwait.lastPacket)
      refine ⟨fun id => ?_,fun n p hnp => ?_⟩
      · rw [firstNumbers_first hfor hfirst hp,hwait.blockNum]
        rfl
      · rw [hp] at hnp
        cases hnp
        exact ⟨le_rfl,rfl⟩
  refine ⟨hins.timed h.timed (by omega) (by omega) (fun b u _ hb => (hothers b u hb).symm) hroom,
    Function.update F t.id (t.data,t.blocksize),⟨?_,?_⟩,?_⟩
  · intro e' he'
    rcases mem_append.mp he' with he' | he'
    · intro u hu
      obtain ⟨hlt,hF,hdata⟩ := hlog.entry e' he' u hu
      exact ⟨by omega,(hold u.id hlt).trans hF,hdata⟩
    · rw [mem_singleton.mp he']
      exact entry_of_sentFor hfor (by omega) (Function.update_self _ _ _) hnew.2
  · intro id
    rw [firstNumbers_append,hnew.1 id]
    split_ifs with hd
    · rw [← hd,hnone]
      exact ⟨t.blockNum,rfl⟩
    · rw [append_nil]
      exact hlog.ordered id
  · intro b u hb
    rcases hins.lookup hb with ⟨rfl,rfl⟩ | ⟨hne,hb⟩
    · refine ⟨Function.update_self _ _ _,hpos,hsmall,?_,?_⟩
      · rw [firstNumbers_append,hnone,hnew.1,if_pos rfl,nil_append]
      · rcases hstate with ⟨h0,hc,hoack⟩ | hwait
        · exact .inl ⟨h0,hc,hoack ▸ hpkt⟩
        · rw [hwait.blockNum]
          exact .inr ⟨hwait,le_rfl,Nat.le_add_left _ _,e,
            mem_append_right _ mem_cons_self,hfor,
            Option.some.inj (hpkt.symm.trans hwait.lastPacket)⟩
    · refine (hlive b u hb).mono (hold u.id (h.timed.id_lt b u hb)) ?_
      rw [hnew.1,if_neg (hothers b u hb)]

lemma Sound.advanced (h : Sound s log) {t u : Transfer A}
    (hl : s.transfers.lookup a = some t) (hpend : t.complete = false) (hins : Installs s s' a u)
    (hid : u.id = t.id) (hdata : u.data = t.data) (hbs : u.blocksize = t.blocksize)
    (hwait : Waits u (t.blockNum+1)) (hni : s'.nextId = s.nextId) (hfor : SentFor e u)
    (hfirst : e.resend = false) (hpkt : u.lastPacket = some e.packet) : Sound s' (log++[e]) := by
  obtain ⟨F,hlog,hlive⟩ := h.faithful
  have ht := hlive a t hl
  have hlt := h.timed.id_lt a t hl
  have hp : e.packet = .data (t.blockNum+1) (Server.block u (t.blockNum+1)) :=
    Option.some.inj (hpkt.symm.trans hwait.lastPacket)
  have hrange : List.range' 1 t.blockNum++[t.blockNum+1] = List.range' 1 (t.blockNum+1) := by
    rw [range'_concat,Nat.one_mul,Nat.add_comm 1]
  have hF : F u.id = (u.data,u.blocksize) := by rw [hid,ht.file,hdata,hbs]
  refine ⟨hins.timed h.timed hni.ge (by omega) (fun b v hb hv => id_ne_of_ne h.timed hl hid hb hv)
    (hasRoom_of_live hl),F,⟨?_,?_⟩,?_⟩
  · intro e' he'
    rw [hni]
    rcases mem_append.mp he' with he' | he'
    · exact hlog.entry e' he'
    · rw [mem_singleton.mp he']
      refine entry_of_sentFor hfor (by omega) hF fun n p hnp => ?_
      rw [hp] at hnp
      cases hnp
      exact ⟨Nat.le_add_left _ _,rfl⟩
  · intro id
    rw [firstNumbers_append,firstNumbers_first hfor hfirst hp]
    split_ifs with hd
    · rw [← hd,hid,ht.firsts,hrange]
      exact ⟨_,rfl⟩
    · rw [append_nil]
      exact hlog.ordered id
  · intro b v hb
    rcases hins.lookup hb with ⟨rfl,rfl⟩ | ⟨hne,hb⟩
    · refine ⟨hF,hbs ▸ ht.pos,by rw [hdata,hbs]; exact ht.small,?_,.inr ?_⟩
      · rw [firstNumbers_append,firstNumbers_first hfor hfirst hp,if_pos rfl,hid,ht.firsts,
          hwait.blockNum,hrange]
      · rw [hwait.blockNum,hdata,hbs]
        exact ⟨hwait,Nat.le_add_left _ _,ht.next_le hpend,e,
          mem_append_right _ mem_cons_self,hfor,hp⟩
    · refine (hlive b v hb).mono rfl ?_
      rw [firstNumbers_first hfor hfirst hp,if_neg (id_ne_of_ne h.timed hl hid hne hb).symm]

lemma Sound.resent (h : Sound s log) {t u : Transfer A}
    (hl : s.transfers.lookup a = some t) (hins : Installs s s' a u)
    (hsame : u = {t with retries := u.retries, timer := u.timer}) (hni : s'.nextId = s.nextId)
    (hfor : SentFor e u) (hagain : e.resend = true) (hpkt : t.lastPacket = some e.packet) :
    Sound s' (log++[e]) := by
  obtain ⟨F,hlog,hlive⟩ := h.faithful
  have hnone : ∀ id,firstNumbers id [e] = [] := firstNumbers_resend hagain
  have hlt := h.timed.id_lt a t hl
  have hid : u.id = t.id := by rw [hsame]
  have hu : Faithful F (log++[e]) u := by
    have hmono : Faithful F (log++[e]) t := (hlive a t hl).mono rfl (hnone t.id)
    rw [hsame]
    exact ⟨hmono.file,hmono.pos,hmono.small,hmono.firsts,
      hmono.state.imp id fun ⟨h1,h2⟩ => ⟨⟨h1.blockNum,h1.complete,h1.lastPacket⟩,h2⟩⟩
  have hlast : u.lastPacket = some e.packet := by rw [hsame]; exact hpkt
  refine ⟨hins.timed h.timed hni.ge (by omega) (fun b v hb hv => id_ne_of_ne h.timed hl hid hb hv)
    (hasRoom_of_live hl),F,⟨?_,?_⟩,?_⟩
  · intro e' he'
    rw [hni]
    rcases mem_append.mp he' with he' | he'
    · exact hlog.entry e' he'
    · rw [mem_singleton.mp he']
      refine entry_of_sentFor hfor (by omega) hu.file fun n p hnp => ?_
      rw [hnp] at hlast
      rcases hu.state with ⟨_,_,hoack⟩ | ⟨hwait,h1,_⟩
      · rw [hoack] at hlast
        cases hlast
      · rw [hwait.lastPacket] at hlast
        cases hlast
        exact ⟨h1,rfl⟩
  · intro id
    rw [firstNumbers_append,hnone,append_nil]
    exact hlog.ordered id
  · intro b v hb
    rcases hins.lookup hb with ⟨rfl,rfl⟩ | ⟨_,hb⟩
    · exact hu
    · exact (hlive b v hb).mono rfl (hnone v.id)

lemma Sound.change (h : Sound s log) {ev : Event A} {sent : List (Sent A)}
    (hsmall : SmallRequest c ev) (hch : Change c s ev s' sent) : Sound s' (log++sent) := by
  cases hch with
  | quiet htr htm hni hnh _ hnone => exact h.quiet htr htm hni hnh hnone
  | opened a d r t e hev hr hfile hbs hroom hid hni hins _ hsent hfor hfirst hpkt hstate =>
    subst hsent
    exact h.opened hroom hid hni hins hfor hfirst hpkt hstate (hbs ▸ blocksize_pos c r)
      (hbs ▸ hsmall a d r t.data hev hr hfile)
  | advanced a t u e _ hl hpend hins hid hdata hbs hwait hni _ hsent hfor hfirst hpkt =>
    subst hsent
    exact h.advanced hl hpend hins hid hdata hbs hwait hni hfor hfirst hpkt
  | finished a t _ _ _ hrem _ hsent =>
    subst hsent
    rw [append_nil]
    exact h.removes hrem
  | dropped a hrem _ hsent =>
    subst hsent
    rw [append_nil]
    exact h.removes hrem
  | resent a t u e hl hins hsame hni _ hsent hfor hagain hpkt =>
    subst hsent
    exact h.resent hl hins hsame hni hfor hagain hpkt

end

/-! ### Whole runs -/

/-- What is true of the server and of everything it has sent. -/
structure RunOk (w : World A) : Prop where
  calm : w.raised = false
  content : ∀ e ∈ w.log,∀ t n p,e.transfer = some t → e.packet = .data n p →
    1 ≤ n ∧ p = (t.data.drop ((n-1)*t.blocksize)).take t.blocksize
  same_file : ∀ e ∈ w.log,∀ e' ∈ w.log,∀ t t',e.transfer = some t → e'.transfer = some t' →
    t.id = t'.id → t.data = t'.data ∧ t.blocksize = t'.blocksize
  live_file : ∀ e ∈ w.log,∀ t a t',e.transfer = some t → w.server.transfers.lookup a = some t' →
    t.id = t'.id → t.data = t'.data ∧ t.blocksize = t'.blocksize
  once : ∀ id,∃ k,firstNumbers id w.log = List.range' 1 k
  once_live : ∀ a t,w.server.transfers.lookup a = some t →
    firstNumbers t.id w.log = List.range' 1 t.blockNum
  few : w.server.transfers.entries.length ≤ maxTransfers
  armed : ∀ a t,w.server.transfers.lookup a = some t →
    ∃ m,w.server.timers.filter (·.owner = t.id) = [m] ∧ m.addr = a ∧ t.timer = some m.handle
  owned : ∀ m ∈ w.server.timers,∃ t,w.server.transfers.lookup m.addr = some t ∧ t.id = m.owner

/-- A timer callback acts on the live transfer that set it, or not at all. -/
def TimerOk (w w' : World A) (h : ℕ) : Prop :=
  w' = w ∨ ∃ m ∈ w.server.timers,m.handle = h ∧ ∃ t,w.server.transfers.lookup m.addr = some t ∧
    t.id = m.owner ∧ (∀ b,b ≠ m.addr → w'.server.transfers.lookup b = w.server.transfers.lookup b) ∧
    ∃ sent,w'.log = w.log++sent ∧ ∀ e ∈ sent,e.addr = m.addr ∧ SentFor e t

/-- What one event may do to block numbers and to the count of completed transfers. -/
structure StepOk (c : Config) (w : World A) (ev : Event A) : Prop where
  grows : ∀ a t t',w.server.transfers.lookup a = some t →
    (step c w ev).server.transfers.lookup a = some t' → t'.id = t.id →
    t'.blockNum = t.blockNum ∨ (t'.blockNum = t.blockNum+1 ∧ IsAck ev a t.blockNum)
  counted : (step c w ev).server.transfersComplete = w.server.transfersComplete ∨
    ((step c w ev).server.transfersComplete = w.server.transfersComplete+1 ∧
      ∃ a t,w.server.transfers.lookup a = some t ∧ IsAck ev a t.blockNum ∧
        ∃ e ∈ w.log,SentFor e t ∧
          ∃ p,e.packet = .data t.blockNum p ∧ p.length < t.blocksize)
  fires : ∀ h,ev = .timer h → TimerOk w (step c w ev) h

/-- The state of a run that has kept every request small. -/
structure Good (w : World A) : Prop where
  calm : w.raised = false
  sound : Sound w.server w.log

lemma start_good : Good (World.start : World A) where
  calm := rfl
  sound :=
    { timed := start_timed
      faithful := ⟨fun _ => ([],0),⟨fun _ he => absurd he not_mem_nil,fun _ => ⟨0,rfl⟩⟩,
        fun _ _ h => by cases h⟩ }

variable {c : Config} {w : World A}

lemma Good.step_eq (hw : Good w) (ev : Event A) : ∃ s' sent,
    step c w ev = ⟨s',w.log++sent,false⟩ ∧ Change c w.server ev s' sent := by
  obtain ⟨F,_,hlive⟩ := hw.sound.faithful
  obtain ⟨s',sent,hr,hch⟩ := react_change hw.sound.timed
    (fun a t h => (hlive a t h).servable) (c := c) ev
  refine ⟨s',sent,?_,hch⟩
  rw [step,hr]
  simp only [hw.calm]

lemma step_good (ev : Event A) (hw : Good w)
    (hsmall : SmallRequest c ev) : Good (step c w ev) := by
  obtain ⟨s',sent,heq,hch⟩ := hw.step_eq ev
  rw [heq]
  exact ⟨rfl,hw.sound.change hsmall hch⟩

lemma Timed.owner_filter (hs : Timed s) {a : A} (ht : s.transfers.lookup a = some t) :
    ∃ m,s.timers.filter (·.owner = t.id) = [m] ∧ m.addr = a ∧ t.timer = some m.handle := by
  obtain ⟨m,hm,hma,hmo,hmt⟩ := hs.armed a t ht
  refine ⟨m,?_,hma,hmt⟩
  have hnodup : (s.timers.filter (·.owner = t.id)).Nodup :=
    (List.Nodup.of_map _ hs.nodup).filter _
  refine perm_singleton.mp ((perm_ext_iff_of_nodup hnodup (nodup_singleton m)).mpr
    fun m' => ?_)
  rw [mem_filter,mem_singleton,decide_eq_true_iff]
  constructor
  · rintro ⟨hm',ho⟩
    obtain ⟨u,hu,huo,hut⟩ := hs.owned m' hm'
    have hb := hs.id_inj _ _ u t hu ht (huo.trans ho)
    rw [hb,ht] at hu
    cases hu
    rw [hmt] at hut
    exact (handle_inj hs hm hm' (Option.some.inj hut)).symm
  · rintro rfl
    exact ⟨hm,hmo⟩

lemma Good.runOk (hw : Good w) : RunOk w := by
  obtain ⟨F,hlog,hlive⟩ := hw.sound.faithful
  have hfile : ∀ e ∈ w.log,∀ t,e.transfer = some t → F t.id = (t.data,t.blocksize) :=
    fun e he t ht => (hlog.entry e he t ht).2.1
  constructor
  · exact hw.calm
  · intro e he t n p ht hp
    exact (hlog.entry e he t ht).2.2 n p hp
  · intro e he e' he' t t' ht ht' hid
    have h := hfile e he t ht
    rw [hid,hfile e' he' t' ht'] at h
    exact ⟨(Prod.mk.inj h).1.symm,(Prod.mk.inj h).2.symm⟩
  · intro e he t a t' ht ht' hid
    have h := hfile e he t ht
    rw [hid,(hlive a t' ht').file] at h
    exact ⟨(Prod.mk.inj h).1.symm,(Prod.mk.inj h).2.symm⟩
  · exact hlog.ordered
  · exact fun a t ht => (hlive a t ht).firsts
  · exact (length_map _).symm.trans_le hw.sound.timed.size_le
  · exact fun a t ht => hw.sound.timed.owner_filter ht
  · intro m hm
    obtain ⟨t,ht,hid,_⟩ := hw.sound.timed.owned m hm
    exact ⟨t,ht,hid⟩

lemma Change.grows {ev : Event A} {sent : List (Sent A)}
    (hs : Timed s) (hch : Change c s ev s' sent) {b : A} {v v' : Transfer A}
    (hb : s.transfers.lookup b = some v) (hb' : s'.transfers.lookup b = some v')
    (hvid : v'.id = v.id) :
    v'.blockNum = v.blockNum ∨ (v'.blockNum = v.blockNum+1 ∧ IsAck ev b v.blockNum) := by
  have kept : s.transfers.lookup b = some v' → v'.blockNum = v.blockNum := by
    intro h
    rw [hb] at h
    cases h
    rfl
  cases hch with
  | quiet htr => exact .inl (kept (htr ▸ hb'))
  | opened a d r t e _ _ _ _ _ hid _ hins =>
    rcases hins.lookup hb' with ⟨rfl,rfl⟩ | ⟨_,h⟩
    · exact absurd (hs.id_lt b v hb) (by omega)
    · exact .inl (kept h)
  | advanced a t u e hack hl _ hins _ _ _ hwait =>
    rcases hins.lookup hb' with ⟨rfl,rfl⟩ | ⟨_,h⟩
    · rw [hb] at hl
      cases hl
      exact .inr ⟨hwait.blockNum,hack⟩
    · exact .inl (kept h)
  | finished a t _ _ _ hrem => exact .inl (kept (hrem.lookup hb').2)
  | dropped a hrem => exact .inl (kept (hrem.lookup hb').2)
  | resent a t u e hl hins hsame =>
    rcases hins.lookup hb' with ⟨rfl,rfl⟩ | ⟨_,h⟩
    · rw [hb] at hl
      cases hl
      rw [hsame]
      exact .inl rfl
    · exact .inl (kept h)

lemma Change.counted {ev : Event A} {log sent : List (Sent A)}
    (h : Sound s log) (hch : Change c s ev s' sent) :
    s'.transfersComplete = s.transfersComplete ∨
      (s'.transfersComplete = s.transfersComplete+1 ∧
        ∃ a t,s.transfers.lookup a = some t ∧ IsAck ev a t.blockNum ∧
          ∃ e ∈ log,SentFor e t ∧ ∃ p,e.packet = .data t.blockNum p ∧ p.length < t.blocksize) := by
  cases hch with
  | quiet _ _ _ _ hcount => exact .inl hcount
  | opened _ _ _ _ _ _ _ _ _ _ _ _ _ hcount => exact .inl hcount
  | advanced _ _ _ _ _ _ _ _ _ _ _ _ _ hcount => exact .inl hcount
  | dropped _ _ hcount => exact .inl hcount
  | resent _ _ _ _ _ _ _ _ hcount => exact .inl hcount
  | finished a t hack hl hc _ hcount =>
    obtain ⟨F,_,hlive⟩ := h.faithful
    rcases (hlive a t hl).state with ⟨_,hopen,_⟩ | ⟨hwait,_,_,e,he,hfor,hp⟩
    · rw [hc] at hopen
      cases hopen
    · have hshort := hwait.complete
      rw [hc] at hshort
      exact .inr ⟨hcount,a,t,hl,hack,e,he,hfor,_,hp,of_decide_eq_true hshort.symm⟩

lemma retransmit_fires (hs : Timed s) {m : Timer A}
    (hm : m ∈ s.timers) : ∃ t,s.transfers.lookup m.addr = some t ∧ t.id = m.owner ∧
      (∀ b,b ≠ m.addr → (s.retransmit c m).1.transfers.lookup b = s.transfers.lookup b) ∧
      ∀ e ∈ (s.retransmit c m).2,e.addr = m.addr ∧ SentFor e t := by
  obtain ⟨t,hl,hid,_⟩ := hs.owned m hm
  have haddr := hs.addr_eq m.addr t hl
  refine ⟨t,hl,hid,?_,?_⟩
  · intro b hb
    simp only [Server.retransmit,hl,hid,ne_eq,not_true_eq_false,if_false]
    by_cases hr : c.maxRetries ≤ t.retries
    · rw [if_pos hr]
      exact AList.lookup_erase_ne (haddr ▸ hb)
    · rw [if_neg hr]
      exact AList.lookup_insert_ne (haddr ▸ hb)
  · intro e he
    simp only [Server.retransmit,hl,hid,ne_eq,not_true_eq_false,if_false] at he
    by_cases hr : c.maxRetries ≤ t.retries
    · rw [if_pos hr] at he
      cases he
    · rw [if_neg hr] at he
      cases hp : t.lastPacket with
      | none =>
        simp only [hp,Option.elim_none] at he
        cases he
      | some p =>
        simp only [hp,Option.elim_some] at he
        rw [mem_singleton.mp he]
        exact ⟨haddr,_,rfl,hid.symm,rfl,rfl⟩

lemma step_fires (hw : Good w) (h : ℕ) :
    TimerOk w (step c w (.timer h)) h := by
  unfold step
  simp only [Server.react]
  cases hf : w.server.timers.find? (·.handle = h) with
  | none =>
    left
    simp only [append_nil]
  | some m =>
    have hm := mem_of_find?_eq_some hf
    obtain ⟨t,hl,hid,hothers,hsent⟩ := retransmit_fires (c := c) hw.sound.timed hm
    have hh := find?_some hf
    exact .inr ⟨m,hm,of_decide_eq_true hh,t,hl,hid,hothers,_,rfl,hsent⟩

lemma Good.stepOk (hw : Good w) (ev : Event A) : StepOk c w ev := by
  obtain ⟨s',sent,heq,hch⟩ := hw.step_eq (c := c) ev
  constructor
  · intro a t t' ht ht' hid
    rw [heq] at ht'
    exact hch.grows hw.sound.timed ht ht' hid
  · rw [heq]
    exact hch.counted hw.sound
  · rintro h rfl
    exact step_fires hw h

/-- Every event sequence over small files. -/
theorem tftp_run_safe (c : Config) (evs : List (Event A)) (hsmall : ∀ ev ∈ evs,SmallRequest c ev) :
    RunOk (evs.foldl (step c) World.start) ∧ Along (step c) (StepOk c) World.start evs := by
  have hkept : Along (step c) (fun _ ev => SmallRequest c ev) World.start evs :=
    Along.of_forall hsmall
  constructor
  · exact (Along.invariant (fun w ev hw => step_good ev hw) start_good hkept).runOk
  · exact Along.of_invariant (fun w ev hw => step_good ev hw) (fun w ev hw _ => hw.stepOk ev)
      start_good hkept

omit [DecidableEq A] in
lemma smallRequest_of_short
    (h : ∀ name file,c.resolveFile name = some file → file.length < 65535) (ev : Event A) :
    SmallRequest c ev := fun _ _ r file _ _ hf =>
  Nat.add_lt_of_lt_sub (Nat.lt_of_le_of_lt (Nat.div_le_self _ _) (h r.filename file hf))

def threeBytes : Config :=
  ⟨[],some [1,2,3],maxBlocksizeLimit,10,1,none,maxBlocksizeLimit_bounds⟩

/-- A request, a repeated block, a stale timer and the acknowledgement of block one. -/
def threeByteRun : List (Event ℕ) :=
  [.datagram 7 ([0,1]++ascii "fw"++[0]++ascii "octet"++[0]),.timer 0,.timer 0,.datagram 7 [0,4,0,1]]

lemma threeBytes_short (name file : List Byte) (h : threeBytes.resolveFile name = some file) :
    file.length < 65535 := by
  have hfile : file = [1,2,3] := (Option.some.inj h).symm
  rw [hfile]
  decide

theorem threeByteRun_safe :
    RunOk (threeByteRun.foldl (step threeBytes) World.start) ∧
      Along (step threeBytes) (StepOk threeBytes) World.start threeByteRun :=
  tftp_run_safe threeBytes threeByteRun fun ev _ => smallRequest_of_short threeBytes_short ev

end Defib.TftpInvariant
