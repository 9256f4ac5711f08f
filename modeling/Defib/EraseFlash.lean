import Defib.WriteMemory

/-!
# Erasing on request, seen from the host

`handle_erase` on any flash: a sector either passes its check or the handler gives up.
`erase_flash` reads as many answers as it expects progress packets, whatever they are, and
takes the one behind them for the verdict. Waiting for an answer that does not come ends in a
timeout.
-/
namespace Defib.EraseFlash
open List Words Boards AgentMachine AgentWire
open WriteMemory (isOk)

/-- The flash as `handle_erase` sees it; the flag of `eraseSector` is the return value 0. -/
structure Flash (S : Type) where
  readable : Bool
  size : ℕ
  sectorSize : ℕ
  eraseSector : ℕ → S → Bool × S
  unlockDebug : S → List Byte

section Agent
variable {S : Type} (e : Flash S)

/-- The address of sector `i` of a range. -/
def sectorAt (addr i : ℕ) : ℕ := u32 (addr+i*e.sectorSize)

/-- Erase `n` sectors from number `i` on. -/
def eraseLoop (addr : ℕ) : ℕ → ℕ → S → List Frame × S
  | _,0,s => ([ack ackOk],s)
  | i,n+1,s =>
    let r := e.eraseSector (sectorAt e addr i) s
    if r.1 then
      let q := eraseLoop addr (i+1) n r.2
      (⟨rspData,writeLe16 (i+1)++e.unlockDebug r.2⟩::q.1,q.2)
    else ([ack ackFlashError],r.2)

def eraseAccepted (addr size : ℕ) : Bool :=
  e.readable && size ≠ 0 && u32 (addr+size) ≤ e.size && addr%e.sectorSize = 0 &&
    size%e.sectorSize = 0

def handleErase (data : List Byte) (s : S) : List Frame × S :=
  if data.length < 8 then ([ack ackCrcError],s)
  else if !eraseAccepted e (readLe32 data 0) (readLe32 data 4) then ([ack ackFlashError],s)
  else
    let r := eraseLoop e (readLe32 data 0) 0 (readLe32 data 4/e.sectorSize) s
    (ack ackOk::r.1,r.2)

def stateAt (addr : ℕ) (s : S) : ℕ → S
  | 0 => s
  | i+1 => (e.eraseSector (sectorAt e addr i) (stateAt addr s i)).2

/-- The erase of sector `i` passes its check. -/
def passes (addr : ℕ) (s : S) (i : ℕ) : Bool :=
  (e.eraseSector (sectorAt e addr i) (stateAt e addr s i)).1

/-- The progress packets of `k` sectors. -/
def progress (addr : ℕ) (s : S) (i k : ℕ) : List Frame :=
  (List.range' i k).map fun j => ⟨rspData,writeLe16 (j+1)++e.unlockDebug (stateAt e addr s (j+1))⟩

variable {e}

lemma eraseLoop_fails {addr : ℕ} {s : S} {i k n : ℕ} (hk : k < n)
    (hpass : ∀ j,i ≤ j → j < i+k → passes e addr s j = true)
    (hfail : passes e addr s (i+k) = false) :
    (eraseLoop e addr i n (stateAt e addr s i)).1 = progress e addr s i k++[ack ackFlashError] := by
  induction k generalizing i n with
  | zero =>
    obtain ⟨m,rfl⟩ : ∃ m,n = m+1 := ⟨n-1,by omega⟩
    rw [Nat.add_zero,passes] at hfail
    simp only [eraseLoop,hfail]
    rfl
  | succ k ih =>
    obtain ⟨m,rfl⟩ : ∃ m,n = m+1 := ⟨n-1,by omega⟩
    have hfirst := hpass i (Nat.le_refl i) (by omega)
    have hrest := ih (n := m) (i := i+1) (by omega)
      (fun j hlo hhi => hpass j (by omega) (by omega)) (by rw [Nat.add_right_comm]; exact hfail)
    rw [passes] at hfirst
    rw [stateAt] at hrest
    simp only [eraseLoop,hfirst,if_true,hrest]
    rfl

/-! ### The flash of a board -/

/-- The flash of a board, through the operations of `flash.c`. -/
def ofBoard (b : Board) : Flash (Machine b) where
  readable := b.flashReadable
  size := b.flashInfo.size
  sectorSize := b.flashInfo.sectorSize
  eraseSector a s := s.flashEraseSector a
  unlockDebug s := s.dev.unlockDebug

lemma eraseLoop_board {b : Board} (addr i n : ℕ) (s : Machine b) :
    eraseLoop (ofBoard b) addr i n s =
      let r := AgentFlash.eraseLoop (fun i t => ⟨rspData,writeLe16 i++t.dev.unlockDebug⟩) i
        ((List.range' i n).map (sectorAt (ofBoard b) addr)) s
      (replies (r.2.1++if r.1 then [.reply (ack ackOk)] else []),r.2.2) := by
  induction n generalizing i s with
  | zero => rfl
  | succ n ih =>
    rw [range'_succ,map_cons,eraseLoop,AgentFlash.eraseLoop]
    have hstep : (ofBoard b).eraseSector (sectorAt (ofBoard b) addr i) s =
      s.flashEraseSector (sectorAt (ofBoard b) addr i) := rfl
    cases hpass : (s.flashEraseSector (sectorAt (ofBoard b) addr i)).1 with
    | false => simp [hstep,hpass]
    | true =>
      simp only [hstep,hpass,if_true,ih,cons_append,replies_erase,replies_reply]
      rfl

/-- The answers and the final state of the handler are those of `AgentFlash.handleErase`. -/
theorem handleErase_board {b : Board} (data : List Byte) (s : Machine b) :
    handleErase (ofBoard b) data s =
      (replies (AgentFlash.handleErase s data).1,(AgentFlash.handleErase s data).2) := by
  have haddrs (addr n : ℕ) : AgentFlash.sectorAddrs b addr n =
      (List.range' 0 n).map (sectorAt (ofBoard b) addr) := by
    rw [AgentFlash.sectorAddrs,range_eq_range']
    rfl
  have haccept : eraseAccepted (ofBoard b) = AgentFlash.eraseAccepted b := rfl
  have hsector : (ofBoard b).sectorSize = b.flashInfo.sectorSize := rfl
  rw [handleErase,AgentFlash.handleErase,haccept,hsector,eraseLoop_board,haddrs]
  split_ifs
  · rfl
  · rfl
  · exact Prod.ext (replies_reply _ _).symm rfl

end Agent

section Host

inductive Outcome where
  | returned (result : Bool)
  | timedOut
  | raised
  deriving DecidableEq, Repr

/-- `recv_response`: `RSP_READY` is skipped, and with no answer left the wait runs out. -/
def recvResponse : List Frame → Option (Frame × List Frame)
  | [] => none
  | f::fs => if f.cmd = rspReady then recvResponse fs else some (f,fs)

/-- The loop over the progress packets; only `on_progress` looks at them. -/
def progressLoop : ℕ → List Frame → Option (List Frame)
  | 0,fs => some fs
  | n+1,fs => match recvResponse fs with
      | none => none
      | some (_,fs) => progressLoop n fs

/-- The verdict; an acknowledgement without a status is an `IndexError`. -/
def verdict (fs : List Frame) : Outcome :=
  match recvResponse fs with
  | none => .timedOut
  | some (f,_) => match isOk f with
      | none => .raised
      | some r => .returned r

/-- `self._sector_size or 0x10000`. -/
def sectorSz (sectorSize : ℕ) : ℕ := if sectorSize = 0 then 0x10000 else sectorSize

/-- The `CMD_ERASE`; `none` when `struct.pack` raises. -/
def request (addr size : ℕ) : Option Frame :=
  (packLe32 addr).bind fun a => (packLe32 size).map fun n => ⟨cmdErase,a++n⟩

/-- `erase_flash` with the answers that come. -/
def eraseFlash (addr size sectorSize : ℕ) (answers : List Frame) : Outcome :=
  match request addr size with
  | none => .raised
  | some _ => match recvResponse answers with
      | none => .timedOut
      | some (f,fs) => match isOk f with
          | none => .raised
          | some false => .returned false
          | some true => match progressLoop (size/sectorSz sectorSize) fs with
              | none => .timedOut
              | some fs => verdict fs

def heard (fs : List Frame) : List Frame := fs.filter fun f => f.cmd ≠ rspReady

lemma recvResponse_nil {fs : List Frame} (h : heard fs = []) : recvResponse fs = none := by
  induction fs with
  | nil => rfl
  | cons f fs ih =>
    by_cases hf : f.cmd = rspReady
    · rw [recvResponse,if_pos hf]
      exact ih (by simpa [heard,hf] using h)
    · simp [heard,hf] at h

lemma recvResponse_cons {fs gs : List Frame} {g : Frame} (h : heard fs = g::gs) :
    ∃ fs',recvResponse fs = some (g,fs') ∧ heard fs' = gs := by
  induction fs with
  | nil => cases h
  | cons f fs ih =>
    by_cases hf : f.cmd = rspReady
    · rw [recvResponse,if_pos hf]
      exact ih (by simpa [heard,hf] using h)
    · have hsplit : f = g ∧ heard fs = gs := by simpa [heard,hf] using h
      exact ⟨fs,by rw [recvResponse,if_neg hf,hsplit.1],hsplit.2⟩

lemma progressLoop_cases (n : ℕ) (fs : List Frame) :
    if n ≤ (heard fs).length then
      ∃ fs',progressLoop n fs = some fs' ∧ heard fs' = (heard fs).drop n
    else progressLoop n fs = none := by
  induction n generalizing fs with
  | zero => exact ⟨fs,rfl,rfl⟩
  | succ n ih =>
    cases hheard : heard fs with
    | nil => simp [progressLoop,recvResponse_nil hheard]
    | cons g gs =>
      obtain ⟨fs',hrecv,rfl⟩ := recvResponse_cons hheard
      simp only [progressLoop,hrecv,length_cons,drop_succ_cons,
        Nat.add_le_add_iff_right]
      exact ih fs'

end Host

/-! ### The verdict on a failed erase -/

section
variable {S : Type} {e : Flash S} {s : S} {addr size k : ℕ}

lemma handleErase_fails {f : Frame} (hf : request addr size = some f)
    (hacc : eraseAccepted e addr size = true) (hk : k < size/e.sectorSize)
    (hpass : ∀ i < k,passes e addr s i = true) (hfail : passes e addr s k = false) :
    (handleErase e f.payload s).1 =
      ack ackOk::(progress e addr s 0 k++[ack ackFlashError]) := by
  simp only [request,Option.bind_eq_some_iff,Option.map_eq_some_iff] at hf
  obtain ⟨a,ha,n,hn,rfl⟩ := hf
  obtain ⟨haddr,rfl⟩ := packLe32_eq_some ha
  obtain ⟨hsize,rfl⟩ := packLe32_eq_some hn
  obtain ⟨h0,h4⟩ := readLe32_fields haddr hsize []
  rw [append_nil] at h0 h4
  have hloop := eraseLoop_fails (i := 0) hk (fun j _ hj => hpass j (by omega))
    (by rw [Nat.zero_add]; exact hfail)
  have hlong : ¬(writeLe32 addr++writeLe32 size).length < 8 := by simp
  simp only [handleErase,if_neg hlong,h0,h4,hacc,Bool.not_true,Bool.false_eq_true,if_false]
  exact congrArg (ack ackOk::·) hloop

lemma verdict_not_ready {fs gs : List Frame} {g : Frame} (h : heard fs = g::gs)
    (hg : isOk g = some false) : verdict fs = .returned false := by
  obtain ⟨fs',hrecv,-⟩ := recvResponse_cons h
  simp only [verdict,hrecv,hg]

/-- `erase_flash` reports the failure of sector `k` when it counts at most `k` sectors itself;
with the agent's sector size it counts all of them and waits for answers that do not come. -/
theorem erase_failure_reported_iff {f : Frame} (hf : request addr size = some f)
    (hacc : eraseAccepted e addr size = true) (hk : k < size/e.sectorSize)
    (hpass : ∀ i < k,passes e addr s i = true) (hfail : passes e addr s k = false)
    (sectorSize : ℕ) {answers : List Frame}
    (hanswers : heard answers = (handleErase e f.payload s).1) :
    eraseFlash addr size sectorSize answers = .returned false ↔ size/sectorSz sectorSize ≤ k := by
  rw [handleErase_fails hf hacc hk hpass hfail] at hanswers
  obtain ⟨fs,hrecv,hheard⟩ := recvResponse_cons hanswers
  have hlen : (heard fs).length = k+1 := by simp [hheard,progress]
  have hloop := progressLoop_cases (size/sectorSz sectorSize) fs
  simp only [eraseFlash,hf,hrecv,show isOk (ack ackOk) = some true from rfl]
  rw [hlen] at hloop
  split_ifs at hloop with hle
  · obtain ⟨fs',hsome,hdrop⟩ := hloop
    simp only [hsome]
    rcases Nat.lt_or_ge k (size/sectorSz sectorSize) with hlt | hge
    · -- the loop has taken the negative acknowledgement, too
      have hnil : heard fs' = [] := by
        rw [hdrop,drop_of_length_le (by omega)]
      simp only [verdict,recvResponse_nil hnil]
      exact iff_of_false (by decide) (by omega)
    · refine iff_of_true ?_ hge
      rw [hheard,drop_append_of_le_length (by simpa [progress] using hge)] at hdrop
      cases hrest : (progress e addr s 0 k).drop (size/sectorSz sectorSize) with
      | nil =>
        rw [hrest] at hdrop
        exact verdict_not_ready hdrop rfl
      | cons g gs =>
        rw [hrest] at hdrop
        obtain ⟨j,-,rfl⟩ := mem_map.mp
          (mem_of_mem_drop (hrest ▸ mem_cons_self : g ∈ _))
        exact verdict_not_ready hdrop rfl
  · simp only [hloop]
    exact iff_of_false (by decide) (by omega)

end

/-- A flash of four sectors whose sectors never pass. -/
def worn (sectorSize : ℕ) : Flash Unit where
  readable := true
  size := 4*sectorSize
  sectorSize := sectorSize
  eraseSector _ s := (false,s)
  unlockDebug _ := [0,0,0]

/-- A client that has not asked for the sector size of an eMMC counts no sector. -/
theorem worn_card_reported :
    eraseFlash 0 2048 0x10000 [ack ackOk,ack ackFlashError] = .returned false :=
  (erase_failure_reported_iff (e := worn 512) (s := ()) (k := 0) (f := ⟨cmdErase,
    writeLe32 0++writeLe32 2048⟩) rfl (by decide) (by decide) (fun i hi => absurd hi
    (Nat.not_lt_zero i)) rfl 0x10000 (by decide)).mpr (by decide)

/-- The first of four sectors fails and the call ends in a timeout. -/
theorem worn_sector_unreported :
    heard [ack ackOk,ack ackFlashError] =
      (handleErase (worn 0x10000) (writeLe32 0++writeLe32 0x40000) ()).1 ∧
    eraseFlash 0 0x40000 0x10000 [ack ackOk,ack ackFlashError] = .timedOut := by
  decide

end Defib.EraseFlash
