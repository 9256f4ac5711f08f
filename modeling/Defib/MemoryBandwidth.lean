import Defib.AgentMachine

/-!
# The memory bandwidth test

`CMD_MEMBW` fills, reads and copies a scratch area that the host chooses. The three
loops are written in assembly: each pass moves eight words and the loop goes on while a
pointer, compared after the pass, is below an end address. The checks in front of them
are sums of 32-bit numbers. None of these sums wraps on a supported target, and the
loops stop exactly at the end of the area.
-/
namespace Defib.MemoryBandwidth
open List Words BlockMemory Boards AgentMachine

abbrev Memory := ℕ → Byte

def rspMembw : Byte := 0x87

/-- `CPU_ARM926`: the targets built for the older core. -/
def arm926 (soc : Soc) : Bool := soc = .hi3516cv300

/-! ### Block transfers -/

/-- `ldmia p, {r4-r11}`. -/
def ldmia (mem : Memory) (p : ℕ) : List (List Byte) :=
  (List.range 8).map fun i => loadBytes mem (u32 (p+4*i)) 4

/-- `stmia p, {r4-r11}`: the stores, lowest register first. -/
def stmia (p : ℕ) : List (List Byte) → List Event
  | [] => []
  | w::ws => .store p w::stmia (u32 (p+4)) ws

def performStores (mem : Memory) : List Event → Memory
  | [] => mem
  | .store a xs::es => performStores (storeBytes mem a xs) es
  | _::es => performStores mem es

/-- What a loop did within its fuel, and whether it came to its end. -/
structure Loop where
  events : List Event
  mem : Memory
  finished : Bool

/-- `1: body; cmp s, end; blo 1b` with both pointers written back by each pass. -/
def blockLoop (body : Memory → ℕ → ℕ → List Event) (limit : ℕ) : ℕ → ℕ → ℕ → Memory → Loop
  | 0,_,_,mem => ⟨[],mem,false⟩
  | fuel+1,s,d,mem =>
    let es := body mem s d
    if u32 (s+32) < limit then
      let r := blockLoop body limit fuel (u32 (s+32)) (u32 (d+32)) (performStores mem es)
      ⟨es++r.events,r.mem,r.finished⟩
    else ⟨es,performStores mem es,true⟩

def membwMemset (fuel addr bytes : ℕ) : Memory → Loop :=
  blockLoop (fun _ _ p => stmia p (List.replicate 8 (writeLe32 0xA5A5A5A5)))
    (u32 (addr+bytes)) fuel addr addr

/-- The loads of `membw_read` leave nothing behind. -/
def membwRead (fuel addr bytes : ℕ) : Memory → Loop :=
  blockLoop (fun _ _ _ => []) (u32 (addr+bytes)) fuel addr addr

def membwMemcpy (fuel dst src bytes : ℕ) : Memory → Loop :=
  blockLoop (fun mem s d => stmia d (ldmia mem s)) (u32 (src+bytes)) fuel src dst

/-- `for (i = 0; i < iters; i++) call`. -/
def iterate (call : Memory → Loop) : ℕ → Memory → Loop
  | 0,mem => ⟨[],mem,true⟩
  | iters+1,mem =>
    let r := call mem
    if r.finished then
      let rest := iterate call iters r.mem
      ⟨r.events++rest.events,rest.mem,rest.finished⟩
    else r

/-! ### The handler -/

structure Request where
  size : ℕ
  iters : ℕ
  addr : ℕ
  deriving DecidableEq, Repr

def maxMembwSize : ℕ := 16*1024*1024
def membwAgentGuardLo (c : SocConfig) : ℕ := c.loadAddr-0x10000
def membwAgentGuardHi (c : SocConfig) : ℕ := u32 (c.loadAddr+0x800000)
def membwDefaultAddr (c : SocConfig) : ℕ := u32 (c.loadAddr+0x800000)

def readRequest (c : SocConfig) (data : List Byte) : Request :=
  let size := readLe32 data 0
  let iters := readLe32 data 4
  let addr := readLe32 data 8
  ⟨if size = 0 then 4*1024*1024 else size,if iters = 0 then 8 else iters,
    if addr = 0 then membwDefaultAddr c else addr⟩

/-- The checks in front of the test; an error is the status of the acknowledgement. -/
def membwStart (soc : Soc) (data : List Byte) : Except Byte Request :=
  let c := soc.config
  let q := readRequest c data
  if arm926 soc then .error ackFlashError
  else if data.length < 12 then .error ackCrcError
  else if q.iters > 256 ∨ q.size > maxMembwSize ∨ q.size%256 ≠ 0 then .error ackFlashError
  else if q.addr < c.ramBase then .error ackFlashError
  else if u32 (q.addr-c.ramBase+u32 (2*q.size)) > 128*1024*1024 then .error ackFlashError
  else if u32 (q.addr+u32 (2*q.size)) > membwAgentGuardLo c ∧ q.addr < membwAgentGuardHi c then
    .error ackFlashError
  else .ok q

/-- What the cycle counter gives for a test: its rate and the ticks of the three loops. -/
structure Ticks where
  timerHz : ℕ
  memset : ℕ
  read : ℕ
  memcpy : ℕ

def membwTest (fuel : ℕ) (q : Request) (mem : Memory) : Loop :=
  let fill := iterate (membwMemset fuel q.addr q.size) q.iters mem
  if !fill.finished then fill
  else
    let load := iterate (membwRead fuel q.addr q.size) q.iters fill.mem
    if !load.finished then ⟨fill.events++load.events,load.mem,false⟩
    else
      let copy := iterate (membwMemcpy fuel (u32 (q.addr+q.size)) q.addr q.size) q.iters load.mem
      ⟨fill.events++(load.events++copy.events),copy.mem,copy.finished⟩

def membwReply (q : Request) (t : Ticks) : Frame :=
  ⟨rspMembw,writeLe32 q.addr++(writeLe32 q.size++(writeLe32 q.iters++(writeLe32 t.timerHz++
    (writeLe32 t.memset++(writeLe32 t.read++(writeLe32 t.memcpy++writeLe32 1))))))⟩

/-- `handle_membw`; `fuel` bounds the passes of one loop. -/
def handleMembw (soc : Soc) (fuel : ℕ) (t : Ticks) (data : List Byte) (mem : Memory) :
    List Event × Memory :=
  match membwStart soc data with
  | .error status => ([.reply (ack status)],mem)
  | .ok q =>
    let r := membwTest fuel q mem
    (r.events++if r.finished then [.reply (membwReply q t)] else [],r.mem)

/-! ### What the checks guarantee -/

/-- A test area as the checks mean it, in unbounded numbers. -/
structure Confined (c : SocConfig) (q : Request) : Prop where
  window : c.ramBase ≤ q.addr ∧ q.addr+2*q.size ≤ c.ramBase+128*1024*1024
  guard : q.addr+2*q.size ≤ c.loadAddr-0x10000 ∨ c.loadAddr+0x800000 ≤ q.addr
  blocks : ∃ n,q.size = 32*(n+1)
  below : q.addr+2*q.size < 4294967296

lemma config_bounds (soc : Soc) : 0x40000000 ≤ soc.config.ramBase ∧
    soc.config.ramBase ≤ 0x80000000 ∧ soc.config.loadAddr < 0x82000000 := by
  cases soc <;> decide

lemma readRequest_addr_lt (soc : Soc) (data : List Byte) :
    (readRequest soc.config data).addr < 4294967296 := by
  simp only [readRequest,membwDefaultAddr]
  split_ifs
  · exact u32_lt _
  · exact readLe32_lt data 8

lemma readRequest_size_pos (c : SocConfig) (data : List Byte) :
    0 < (readRequest c data).size := by
  simp only [readRequest]
  split_ifs with hsize
  · decide
  · exact Nat.pos_of_ne_zero hsize

variable {q : Request}

lemma of_check {p : Prop} [Decidable p] {e : Byte} {x : Except Byte Request}
    (h : (if p then .error e else x) = .ok q) : ¬p ∧ x = .ok q := by
  by_cases hp : p
  · rw [if_pos hp] at h
    cases h
  · rw [if_neg hp] at h
    exact ⟨hp,h⟩

lemma membwStart_confined {soc : Soc} {data : List Byte}
    (h : membwStart soc data = .ok q) : Confined soc.config q := by
  have haddr := readRequest_addr_lt soc data
  have hsize := readRequest_size_pos soc.config data
  obtain ⟨hlow,hhigh,hload⟩ := config_bounds soc
  unfold membwStart at h
  obtain ⟨-,h⟩ := of_check h
  obtain ⟨-,h⟩ := of_check h
  obtain ⟨hshape,h⟩ := of_check h
  obtain ⟨hbase,h⟩ := of_check h
  obtain ⟨hend,h⟩ := of_check h
  obtain ⟨hguard,h⟩ := of_check h
  obtain rfl : readRequest soc.config data = q := by injection h
  generalize readRequest soc.config data = q at *
  generalize soc.config = c at *
  unfold maxMembwSize at hshape
  unfold membwAgentGuardLo membwAgentGuardHi at hguard
  -- the area has at most 32 MiB, so every sum below is exact
  rw [u32_of_lt (n := 2*q.size) (by omega)] at hend hguard
  rw [u32_of_lt (by omega)] at hend
  rw [u32_of_lt (by omega),u32_of_lt (by omega)] at hguard
  have hoff : q.addr+2*q.size ≤ c.ramBase+128*1024*1024 := by omega
  exact ⟨⟨by omega,hoff⟩,by omega,⟨q.size/32-1,by omega⟩,by omega⟩

/-! ### What the loops store -/

lemma mem_stmia {p n : ℕ} {ws : List (List Byte)} {a : ℕ} {xs : List Byte}
    (hwords : ∀ w ∈ ws,w.length = 4) (hlen : ws.length = n) (hp : p+4*n < 4294967296)
    (h : Event.store a xs ∈ stmia p ws) : p ≤ a ∧ a+xs.length ≤ p+4*n ∧ xs.length = 4 := by
  induction ws generalizing p n with
  | nil => cases h
  | cons w ws ih =>
    have hw := hwords w mem_cons_self
    rw [length_cons] at hlen
    rcases mem_cons.mp h with heq | h
    · cases heq
      omega
    · rw [u32_of_lt (by omega)] at h
      have hrest := ih (fun v hv => hwords v (mem_cons_of_mem _ hv)) rfl (by omega) h
      omega

variable {mem : Memory}

/-- Passes of a loop over `n+1` blocks: the pointers advance together and the comparison
fails after the last block. -/
theorem mem_blockLoop {body : Memory → ℕ → ℕ → List Event} {limit n : ℕ} (fuel : ℕ) {s d : ℕ}
    (hs : s+32*(n+1) = limit) (hlimit : limit < 4294967296)
    (hd : d+32*(n+1) < 4294967296) {e : Event}
    (h : e ∈ (blockLoop body limit fuel s d mem).events) :
    ∃ i ≤ n,∃ m,e ∈ body m (s+32*i) (d+32*i) := by
  induction fuel generalizing n s d mem with
  | zero => cases h
  | succ fuel ih =>
    rw [blockLoop,u32_of_lt (by omega),u32_of_lt (by omega)] at h
    split_ifs at h with hmore
    · rcases mem_append.mp h with h | h
      · exact ⟨0,Nat.zero_le n,mem,h⟩
      · obtain ⟨k,rfl⟩ : ∃ k,n = k+1 := ⟨n-1,by omega⟩
        obtain ⟨i,hi,m,he⟩ := ih (n := k) (by omega) (by omega) h
        refine ⟨i+1,by omega,m,?_⟩
        rwa [show s+32*(i+1) = s+32+32*i by ring,show d+32*(i+1) = d+32+32*i by ring]
    · exact ⟨0,Nat.zero_le n,mem,h⟩

lemma mem_iterate {call : Memory → Loop} {iters : ℕ} {e : Event}
    (h : e ∈ (iterate call iters mem).events) : ∃ m,e ∈ (call m).events := by
  induction iters generalizing mem with
  | zero => cases h
  | succ iters ih =>
    rw [iterate] at h
    split_ifs at h with hdone
    · rcases mem_append.mp h with h | h
      · exact ⟨mem,h⟩
      · exact ih h
    · exact ⟨mem,h⟩

lemma mem_membwTest {fuel : ℕ} {e : Event} (h : e ∈ (membwTest fuel q mem).events) :
    ∃ m,e ∈ (membwMemset fuel q.addr q.size m).events ∨
      e ∈ (membwRead fuel q.addr q.size m).events ∨
      e ∈ (membwMemcpy fuel (u32 (q.addr+q.size)) q.addr q.size m).events := by
  unfold membwTest at h
  simp only at h
  split_ifs at h
  · obtain ⟨m,hm⟩ := mem_iterate h
    exact ⟨m,.inl hm⟩
  · rcases mem_append.mp h with h | h
    · obtain ⟨m,hm⟩ := mem_iterate h
      exact ⟨m,.inl hm⟩
    · obtain ⟨m,hm⟩ := mem_iterate h
      exact ⟨m,.inr (.inl hm)⟩
  · rcases mem_append.mp h with h | h
    · obtain ⟨m,hm⟩ := mem_iterate h
      exact ⟨m,.inl hm⟩
    · rcases mem_append.mp h with h | h
      · obtain ⟨m,hm⟩ := mem_iterate h
        exact ⟨m,.inr (.inl hm)⟩
      · obtain ⟨m,hm⟩ := mem_iterate h
        exact ⟨m,.inr (.inr hm)⟩

lemma block_store {p i : ℕ} {ws : List (List Byte)} {lo hi a : ℕ} {xs : List Byte}
    (hws : ws.length = 8) (hwords : ∀ w ∈ ws,w.length = 4) (hlo : lo ≤ p)
    (hhi : p+32*(i+1) ≤ hi) (hlt : hi < 4294967296)
    (h : Event.store a xs ∈ stmia (p+32*i) ws) : lo ≤ a ∧ a+xs.length ≤ hi ∧ xs.length = 4 := by
  have hstore := mem_stmia hwords hws (by omega) h
  omega

lemma membwTest_stores {c : SocConfig} {fuel : ℕ} (hq : Confined c q) {a : ℕ} {xs : List Byte}
    (h : Event.store a xs ∈ (membwTest fuel q mem).events) :
    q.addr ≤ a ∧ a+xs.length ≤ q.addr+2*q.size ∧ xs.length = 4 := by
  obtain ⟨n,hn⟩ := hq.blocks
  have hbelow := hq.below
  obtain ⟨m,hm⟩ := mem_membwTest h
  have hend : u32 (q.addr+q.size) = q.addr+q.size := u32_of_lt (by omega)
  simp only [membwMemset,membwRead,membwMemcpy,hend] at hm
  rcases hm with hm | hm | hm
  · obtain ⟨i,hi,m',he⟩ := mem_blockLoop fuel (n := n) (by omega) (by omega) (by omega) hm
    exact block_store rfl (by simp) le_rfl (by omega) hbelow he
  · obtain ⟨i,hi,m',he⟩ := mem_blockLoop fuel (n := n) (by omega) (by omega) (by omega) hm
    cases he
  · obtain ⟨i,hi,m',he⟩ := mem_blockLoop fuel (n := n) (by omega) (by omega) (by omega) hm
    exact block_store (by simp [ldmia]) (by simp [ldmia,loadBytes]) (by omega) (by omega) hbelow he

/-! ### The test stays in its area -/

/-- A started test stores words of its own area only, and the area lies in RAM beside the
agent. -/
theorem membw_confined {soc : Soc} {data : List Byte} {q : Request}
    (h : membwStart soc data = .ok q) :
    (∀ fuel t mem a xs,Event.store a xs ∈ (handleMembw soc fuel t data mem).1 →
      q.addr ≤ a ∧ a+xs.length ≤ q.addr+2*q.size ∧ xs.length = 4) ∧
    soc.config.ramBase ≤ q.addr ∧
    q.addr+2*q.size ≤ soc.config.ramBase+128*1024*1024 ∧
    (q.addr+2*q.size ≤ soc.config.loadAddr-0x10000 ∨
      soc.config.loadAddr+0x800000 ≤ q.addr) := by
  have hq := membwStart_confined h
  refine ⟨?_,hq.window.1,hq.window.2,hq.guard⟩
  intro fuel t mem a xs hstore
  simp only [handleMembw,h] at hstore
  rcases mem_append.mp hstore with hstore | hstore
  · exact membwTest_stores hq hstore
  · split_ifs at hstore <;> simp at hstore

/-- The request without any preference. -/
theorem default_membw_confined :
    ∃ q,membwStart .gk7205v300 (List.replicate 12 0) = .ok q ∧
      q.addr+2*q.size ≤ 0x48000000 :=
  have h : membwStart .gk7205v300 (List.replicate 12 0) = .ok ⟨4194304,8,0x41800000⟩ := by
    decide +kernel
  ⟨_,h,(membw_confined h).2.2.1⟩

end Defib.MemoryBandwidth
