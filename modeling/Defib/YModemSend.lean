import Defib.Runs
import Defib.StopAndWait
import Defib.YModemPackets

/-!
# Delivery of a file with YMODEM

The sender repeats a packet until it reads an ACK, and throws away what has arrived
before each attempt. A stalled transport keeps a copy of the packet and sends it later,
at the latest with the next attempt that goes through; such an attempt ends only when
nothing is queued. The receiver acknowledges the block it expects and the one before it.
Packets may be corrupted, answers may be lost and take any time.
-/
namespace Defib.YModemSend
open List Words YModemPackets StopAndWait Runs

/-- What receivers do differently: a NAK for the first EOT, and the answer to a packet they
do not want. -/
structure Habits where
  nakFirstEot : Bool
  other : List Byte
  other_not_ack : ackCode ∉ other

structure Receiver where
  size : Option ℕ
  /-- The blocks taken so far, block 0 included. -/
  blocks : ℕ
  stored : List (List Byte)
  eots : ℕ
  ended : Bool
  deriving DecidableEq, Repr

namespace Receiver

def fresh : Receiver := ⟨none,0,[],0,false⟩

/-- What has been stored, cut to the size in block 0. -/
def file (r : Receiver) : List Byte :=
  match r.size with
  | none => r.stored.flatten
  | some size => r.stored.flatten.take size

def endOfFile (habits : Habits) (r : Receiver) : Receiver × List Byte :=
  if habits.nakFirstEot ∧ r.eots = 0 then ({r with eots := 1},[nakCode])
  else ({r with eots := r.eots+1, ended := true},[ackCode,crcRequest])

def take (r : Receiver) (block : List Byte) : Receiver × List Byte :=
  if r.blocks = 0 then ({r with size := readSize block, blocks := 1},[ackCode,crcRequest])
  else ({r with blocks := r.blocks+1, stored := r.stored++[block]},[ackCode])

/-- A packet or EOT arrives, `none` when it is corrupted: the new state and the answer. -/
def receive (habits : Habits) (r : Receiver) : Option (List Byte) → Receiver × List Byte
  | none => (r,[nakCode])
  | some bytes =>
    if bytes = [eot] then r.endOfFile habits
    else
      match parsePacket bytes with
      | none => (r,[nakCode])
      | some (seq,block) =>
        if r.ended then (r,if seq = 0 then [ackCode] else habits.other)
        else if seq = r.blocks%256 then r.take block
        else if 0 < r.blocks ∧ seq = (r.blocks-1)%256 then
          (r,if r.blocks = 1 then [ackCode,crcRequest] else [ackCode])
        else (r,habits.other)

end Receiver

/-- A file that block 0 can announce. -/
structure Plan where
  data : List Byte
  filename : List Char
  header : List Byte
  header_eq : makeHeader filename data.length = some header

namespace Plan
variable (plan : Plan)

def count : ℕ := (payloads plan.data).length

/-- The position of the header that ends the session. -/
def finalPos : ℕ := plan.count+2

def finalHeader : List Byte := (makePacket 0 (List.replicate 128 0)).getD []

/-- The packets by their position, from block 0 at position 1 on. -/
def packet : ℕ → List Byte
  | 0 => []
  | 1 => plan.header
  | k+2 =>
    if k < plan.count then (makePacket ((k+1)%256) (payload plan.data k)).getD []
    else finalHeader

end Plan

/-- Where the sender is. -/
inductive Phase where
  | awaitStart
  | attempt (left : ℕ)
  | waiting (left : ℕ)
  | awaitData
  | eot (second : Bool)
  | eotAnswer (second : Bool)
  | awaitFinal
  | ended (ok : Bool)
  deriving DecidableEq, Repr

structure System where
  pos : ℕ
  phase : Phase
  queued : List (Option (List Byte))
  line : Line Receiver Byte

inductive Label where
  /-- An attempt that goes through, the packet perhaps corrupted on the line. -/
  | write (corrupt : Bool)
  /-- An attempt whose packet stays queued. -/
  | stall (corrupt : Bool)
  /-- An attempt that fails before anything is queued. -/
  | fail (flushed : Bool)
  /-- The first queued copy leaves. -/
  | transmit
  | eot (corrupt : Bool)
  | arrive
  | lose
  | read
  | expire
  /-- Any other exception. -/
  | abort
  deriving DecidableEq, Repr

section System
variable (plan : Plan) (habits : Habits) (packetRetries : ℕ)

def attempts : Phase := if packetRetries = 0 then .ended false else .attempt packetRetries

def failed (left : ℕ) : Phase := if 1 < left then .attempt (left-1) else .ended false

/-- The next packet of the data, or the end of it. -/
def nextData (pos : ℕ) : Phase := if pos = plan.finalPos then .eot false else attempts packetRetries

def acked (s : System) : System :=
  if s.pos = plan.finalPos then {s with phase := .ended true}
  else if s.pos = 1 then {s with pos := 2, phase := .awaitData}
  else {s with pos := s.pos+1, phase := nextData plan packetRetries (s.pos+1)}

/-- The control byte `b` is read; bytes that are not waited for are dropped. -/
def control (s : System) (b : Byte) : System :=
  match s.phase with
  | .awaitStart =>
    if b = crcRequest then {s with phase := attempts packetRetries}
    else if b = can then {s with phase := .ended false}
    else s
  | .waiting left =>
    if b = ackCode then acked plan packetRetries s
    else if b = can then {s with phase := .ended false}
    else if b = nakCode ∨ b = crcRequest then {s with phase := failed left}
    else s
  | .awaitData =>
    if b = crcRequest then {s with phase := nextData plan packetRetries s.pos}
    else if b = can then {s with phase := .ended false}
    else s
  | .eotAnswer second =>
    if b = ackCode then {s with phase := .awaitFinal}
    else if b = can then {s with phase := .ended false}
    else if b = nakCode then {s with phase := if second then .ended false else .eot true}
    else if b = crcRequest then
      {s with phase := if second then .ended false else attempts packetRetries}
    else s
  | .awaitFinal =>
    if b = crcRequest then {s with phase := attempts packetRetries}
    else if b = can then {s with phase := .ended false}
    else s
  | _ => s

def step (s : System) : Label → System
  | .write corrupt =>
    match s.phase with
    | .attempt left => {s with
        phase := .waiting left
        queued := []
        line := s.line.flush.deliverAll (Receiver.receive habits) s.pos
          (s.queued++[if corrupt then none else some (plan.packet s.pos)])}
    | _ => s
  | .stall corrupt =>
    match s.phase with
    | .attempt left => {s with
        phase := failed left
        queued := s.queued++[if corrupt then none else some (plan.packet s.pos)]
        line := s.line.flush}
    | _ => s
  | .fail flushed =>
    match s.phase with
    | .attempt left => {s with
        phase := failed left
        line := if flushed then s.line.flush else s.line}
    | _ => s
  | .transmit => {s with
      queued := s.queued.tail
      line := s.line.deliverAll (Receiver.receive habits) s.pos (s.queued.take 1)}
  | .eot corrupt =>
    match s.phase with
    | .eot second => {s with
        phase := .eotAnswer second
        line := (if second then s.line else s.line.flush).deliver (Receiver.receive habits) s.pos
          (if corrupt then none else some [eot])}
    | _ => s
  | .arrive => {s with line := s.line.arrive}
  | .lose => {s with line := s.line.lose}
  | .read =>
    match s.phase,s.line.arrived with
    | .attempt _,_ => s
    | .eot _,_ => s
    | .ended _,_ => s
    | _,[] => s
    | _,x::_ => control plan packetRetries {s with line := s.line.drop} x.2
  | .expire =>
    match s.phase with
    | .waiting left => {s with phase := failed left}
    | .attempt _ => s
    | .eot _ => s
    | .ended _ => s
    | _ => {s with phase := .ended false}
  | .abort =>
    match s.phase with
    | .ended _ => s
    | _ => {s with phase := .ended false}

/-- The receiver is waiting for block 0; bytes from before may be left over. -/
def start (arrived inFlight : List Byte) : System where
  pos := 1
  phase := .awaitStart
  queued := []
  line := ⟨.fresh,inFlight.map fun b => (0,b),arrived.map fun b => (0,b)⟩

/-- When block 0 or a data packet is written, no ACK of another packet is on its way. -/
def Keeps (s : System) : Label → Prop
  | .write _ =>
    match s.phase with
    | .attempt _ => s.pos < plan.finalPos → Clear (· = ackCode) s.pos s.line
    | _ => True
  | _ => True

instance (s : System) : (l : Label) → Decidable (Keeps plan s l)
  | .write _ =>
    match h : s.phase with
    | .attempt _ =>
      decidable_of_iff (s.pos < plan.finalPos → Clear (· = ackCode) s.pos s.line)
        (by simp [Keeps,h])
    | .awaitStart | .waiting _ | .awaitData | .eot _ | .eotAnswer _ | .awaitFinal | .ended _ =>
      isTrue (by simp [Keeps,h])
  | .stall _ | .fail _ | .transmit | .eot _ | .arrive | .lose | .read | .expire | .abort =>
    isTrue trivial

end System

section Receiver
variable {plan : Plan} {habits : Habits} {r : Receiver} {bytes block : List Byte}

lemma Receiver.receive_parsed {seq : ℕ} (h : parsePacket bytes = some (seq,block)) :
    r.receive habits (some bytes) =
      if r.ended then (r,if seq = 0 then [ackCode] else habits.other)
      else if seq = r.blocks%256 then r.take block
      else if 0 < r.blocks ∧ seq = (r.blocks-1)%256 then
        (r,if r.blocks = 1 then [ackCode,crcRequest] else [ackCode])
      else (r,habits.other) := by
  have hne : bytes ≠ [eot] := by
    intro heq
    rw [heq] at h
    cases h
  simp only [receive,if_neg hne,h]

lemma Receiver.receive_expected {seq : ℕ}
    (h : parsePacket bytes = some (seq,block)) (hended : r.ended = false)
    (hseq : seq = r.blocks%256) : r.receive habits (some bytes) = r.take block := by
  rw [receive_parsed h,hended,if_neg Bool.false_ne_true,if_pos hseq]

lemma Receiver.receive_unexpected {seq : ℕ}
    (h : parsePacket bytes = some (seq,block)) (hseq : seq ≠ r.blocks%256) :
    (r.receive habits (some bytes)).1 = r := by
  rw [receive_parsed h,if_neg hseq]
  split
  · rfl
  · split
    · rfl
    · rfl

/-- The file is there, whatever has been stored behind it. -/
structure Delivered (plan : Plan) (r : Receiver) : Prop where
  size : r.size = some plan.data.length
  begins : plan.data <+: r.stored.flatten
  begun : 0 < r.blocks

lemma Delivered.file (h : Delivered plan r) : r.file = plan.data := by
  rw [Receiver.file,h.size]
  exact (prefix_iff_eq_take.mp h.begins).symm

lemma Delivered.take (h : Delivered plan r) (block : List Byte) :
    Delivered plan (r.take block).1 := by
  rw [Receiver.take,if_neg h.begun.ne']
  refine ⟨h.size,?_,Nat.succ_pos _⟩
  rw [flatten_append]
  exact h.begins.trans (prefix_append _ _)

lemma Delivered.receive (h : Delivered plan r) (p : Option (List Byte)) :
    Delivered plan (r.receive habits p).1 := by
  cases p with
  | none => exact h
  | some bytes =>
    by_cases heot : bytes = [eot]
    · simp only [Receiver.receive,if_pos heot,Receiver.endOfFile]
      split
      · exact ⟨h.size,h.begins,h.begun⟩
      · exact ⟨h.size,h.begins,h.begun⟩
    · cases hparse : parsePacket bytes with
      | none =>
        simp only [Receiver.receive,if_neg heot,hparse]
        exact h
      | some packet =>
        rw [Receiver.receive_parsed hparse]
        split
        · exact h
        · split
          · exact h.take _
          · split
            · exact h
            · exact h

end Receiver

namespace Plan
variable (plan : Plan)

lemma count_eq : plan.count = (plan.data.length+1023)/1024 := by
  rw [count,payloads,length_map,length_range]

lemma payloads_getElem {k : ℕ} (hk : k < plan.count) :
    (payloads plan.data)[k]? = some (payload plan.data k) := by
  rw [count_eq] at hk
  rw [payloads,getElem?_map,getElem?_range hk]
  rfl

lemma parse_packet {k : ℕ} (hk : k < plan.count) :
    parsePacket (plan.packet (k+2)) = some ((k+1)%256,payload plan.data k) := by
  have hmake : makePacket ((k+1)%256) (payload plan.data k) =
      some (packetBytes stx ((k+1)%256) (payload plan.data k)) := by
    rw [makePacket,payload_length,if_neg (by decide),if_pos rfl]
  rw [packet,if_pos hk,hmake,Option.getD_some,parsePacket_makePacket hmake,Nat.mod_mod]

/-- The receiver when it has taken the packets before position `k`. -/
def receiverAt : ℕ → Receiver
  | 0 => .fresh
  | 1 => .fresh
  | k+2 => ⟨some plan.data.length,k+1,(payloads plan.data).take k,0,false⟩

lemma tracks (habits : Habits) :
    Tracks (Receiver.receive habits) (· = ackCode) plan.packet plan.receiverAt plan.finalPos where
  next i hi := by
    match i,hi with
    | 0,_ => rfl
    | 1,_ =>
      obtain ⟨block,hparse,hsize⟩ := makeHeader_reads plan.header_eq
      rw [packet,receiverAt,Receiver.receive_expected hparse rfl rfl]
      simp only [Receiver.take,Receiver.fresh,if_true,hsize,receiverAt,take_zero]
    | k+2,hi =>
      have hk : k < plan.count := Nat.lt_of_add_lt_add_right hi
      rw [Receiver.receive_expected (plan.parse_packet hk) rfl rfl]
      simp only [receiverAt,Receiver.take,Nat.succ_ne_zero,if_false]
      rw [take_add_one,plan.payloads_getElem hk]
      rfl
  again i hi := by
    match i,hi with
    | 0,_ => rfl
    | 1,_ =>
      obtain ⟨block,hparse,_⟩ := makeHeader_reads plan.header_eq
      exact Receiver.receive_unexpected hparse (by decide : 0 ≠ 1%256)
    | k+2,hi =>
      have hk : k < plan.count := Nat.lt_of_add_lt_add_right hi
      apply Receiver.receive_unexpected (plan.parse_packet hk)
      simp only [receiverAt]
      omega
  bad k := by
    refine ⟨rfl,?_⟩
    intro a ha
    rw [mem_singleton.mp ha]
    decide

lemma delivered_receiverAt {k : ℕ} (hk : plan.finalPos ≤ k) :
    Delivered plan (plan.receiverAt k) := by
  obtain ⟨j,rfl⟩ : ∃ j,k = j+2 := ⟨k-2,by rw [finalPos] at hk; omega⟩
  have hj : (payloads plan.data).length ≤ j := Nat.le_of_add_le_add_right hk
  refine ⟨rfl,?_,Nat.succ_pos _⟩
  rw [receiverAt,take_of_length_le hj]
  exact data_isPrefix plan.data

end Plan

/-- Phases in which nothing is queued, as the last attempt went through. -/
def Phase.idle : Phase → Bool
  | .attempt _ => false
  | .ended _ => false
  | _ => true

def Phase.finishing : Phase → Bool
  | .eot _ => true
  | .eotAnswer _ => true
  | .awaitFinal => true
  | .ended ok => ok
  | _ => false

/-- The sender is at a packet and the receiver at that packet or one past it, up to the
last data packet; behind it the file is there. What the sender may read for an ACK
belongs to its packet. -/
structure Sound (plan : Plan) (s : System) : Prop where
  first : 1 ≤ s.pos
  inside : s.pos ≤ plan.finalPos
  copies : ∀ p ∈ s.queued,p = none ∨ p = some (plan.packet s.pos)
  drained : s.phase.idle = true → s.queued = []
  near : s.pos < plan.finalPos → Near (· = ackCode) plan.receiverAt s.pos s.line
  delivered : s.pos = plan.finalPos → Delivered plan s.line.receiver
  own : ∀ left,s.phase = .waiting left → s.pos < plan.finalPos → Own (· = ackCode) s.pos s.line
  finishing : s.phase.finishing = true → s.pos = plan.finalPos

/-- A phase without a read of an answer to a packet, at a position where it may be. -/
structure Rests (plan : Plan) (pos : ℕ) (p : Phase) : Prop where
  not_waiting : ∀ left,p ≠ .waiting left
  finishing : p.finishing = true → pos = plan.finalPos

section Run
variable {plan : Plan} {habits : Habits} {packetRetries : ℕ} {s : System} {pos : ℕ}

lemma rests_of_not_finishing {p : Phase} (hw : ∀ left,p ≠ .waiting left)
    (hf : p.finishing = false) : Rests plan pos p :=
  ⟨hw,fun h => absurd h (by simp [hf])⟩

lemma rests_attempts : Rests plan pos (attempts packetRetries) := by
  rw [attempts]
  split
  · exact rests_of_not_finishing (by simp) rfl
  · exact rests_of_not_finishing (by simp) rfl

lemma rests_failed (left : ℕ) : Rests plan pos (failed left) := by
  rw [failed]
  split
  · exact rests_of_not_finishing (by simp) rfl
  · exact rests_of_not_finishing (by simp) rfl

lemma failed_not_idle (left : ℕ) : (failed left).idle = false := by
  rw [failed]
  split
  · rfl
  · rfl

lemma copy_cases (corrupt : Bool) (bytes : List Byte) :
    (if corrupt then none else some bytes) = none ∨
      (if corrupt then none else some bytes) = some bytes := by
  cases corrupt with
  | true => exact .inl rfl
  | false => exact .inr rfl

lemma rests_aborted : Rests plan pos (.ended false) := rests_of_not_finishing (by simp) rfl

lemma rests_nextData : Rests plan pos (nextData plan packetRetries pos) := by
  rw [nextData]
  split
  · next hpos => exact ⟨by simp,fun _ => hpos⟩
  · exact rests_attempts

lemma Sound.line (h : Sound plan s) {l : Line Receiver Byte}
    (hr : l.receiver = s.line.receiver) (hq : ∀ x ∈ l.queue,x ∈ s.line.queue) :
    Sound plan {s with line := l} :=
  {h with
    near := fun hpos => (h.near hpos).mono hr hq
    delivered := fun hpos => by rw [hr]; exact h.delivered hpos
    own := fun left hphase hpos => (h.own left hphase hpos).mono hq}

lemma Sound.rest (h : Sound plan s) {p : Phase} (hp : Rests plan s.pos p)
    (hq : p.idle = true → s.queued = []) : Sound plan {s with phase := p} :=
  {h with
    drained := hq
    own := fun left heq => absurd heq (hp.not_waiting left)
    finishing := hp.finishing}

lemma Sound.acked (h : Sound plan s) (hq : s.queued = [])
    (hnear : s.pos < plan.finalPos → Near (· = ackCode) plan.receiverAt (s.pos+1) s.line) :
    Sound plan (acked plan packetRetries s) := by
  rw [YModemSend.acked]
  split
  · next hpos => exact h.rest ⟨by simp,fun _ => hpos⟩ (fun _ => hq)
  · next hpos =>
    have hlt : s.pos < plan.finalPos := Nat.lt_of_le_of_ne h.inside hpos
    -- both kinds of successor leave the sender at the next position
    have hnext (p : Phase) (hp : Rests plan (s.pos+1) p) :
        Sound plan {s with pos := s.pos+1, phase := p} := by
      refine ⟨Nat.le_add_left 1 _,hlt,by simp [hq],fun _ => hq,fun _ => hnear hlt,?_,?_,
        hp.finishing⟩
      · intro hfinal
        obtain ⟨k,hk,hstate,_⟩ := hnear hlt
        dsimp only at hfinal ⊢
        rw [hstate]
        exact plan.delivered_receiverAt (by omega)
      · exact fun left heq => absurd heq (hp.not_waiting left)
    split
    · next hone =>
      have hdata := hnext .awaitData (rests_of_not_finishing (by simp) rfl)
      rwa [hone] at hdata
    · exact hnext _ rests_nextData

lemma Sound.control (h : Sound plan s) (hq : s.queued = []) {b : Byte}
    (hack : ∀ left,s.phase = .waiting left → b = ackCode → s.pos < plan.finalPos →
      Near (· = ackCode) plan.receiverAt (s.pos+1) s.line) :
    Sound plan (control plan packetRetries s b) := by
  have hrest {p : Phase} (hp : Rests plan s.pos p) : Sound plan {s with phase := p} :=
    h.rest hp fun _ => hq
  rw [YModemSend.control]
  split
  · split_ifs
    · exact hrest rests_attempts
    · exact hrest rests_aborted
    · exact h
  · next left hphase =>
    split_ifs with hb
    · exact h.acked hq (hack left hphase hb)
    · exact hrest rests_aborted
    · exact hrest (rests_failed left)
    · exact h
  · split_ifs
    · exact hrest rests_nextData
    · exact hrest rests_aborted
    · exact h
  · next second hphase =>
    have hpos : s.pos = plan.finalPos := h.finishing (by rw [hphase]; rfl)
    split_ifs
    · exact hrest ⟨by simp,fun _ => hpos⟩
    · exact hrest rests_aborted
    · exact hrest rests_aborted
    · exact hrest ⟨by simp,fun _ => hpos⟩
    · exact hrest rests_aborted
    · exact hrest rests_attempts
    · exact h
  · split_ifs
    · exact hrest rests_attempts
    · exact hrest rests_aborted
    · exact h
  · exact h

lemma Sound.read (h : Sound plan s) :
    Sound plan (step plan habits packetRetries s .read) := by
  have hdrop : Sound plan {s with line := s.line.drop} :=
    h.line rfl fun x hx => mem_queue_drop hx
  -- a byte is read in the idle phases only
  have hread {x : ℕ × Byte} {xs : List (ℕ × Byte)} (harrived : s.line.arrived = x::xs)
      (hidle : s.phase.idle = true) :
      Sound plan (YModemSend.control plan packetRetries {s with line := s.line.drop} x.2) := by
    apply hdrop.control (h.drained hidle)
    intro left hphase hb hpos
    have hx : x ∈ s.line.queue := by
      rw [Line.queue,harrived]
      exact mem_cons_self
    have hown := h.own left hphase hpos x hx hb
    exact ((h.near hpos).acknowledged hx hb hown).mono rfl fun y hy => mem_queue_drop hy
  simp only [step]
  split
  · exact h
  · exact h
  · exact h
  · exact h
  · next harrived hattempt _ hended =>
    apply hread harrived
    cases hphase : s.phase with
    | attempt left => exact absurd hphase (hattempt left)
    | ended ok => exact absurd hphase (hended ok)
    | _ => rfl

lemma Sound.write (h : Sound plan s) {left : ℕ} (corrupt : Bool)
    (hclear : s.pos < plan.finalPos → Clear (· = ackCode) s.pos s.line) :
    Sound plan {s with
      phase := .waiting left
      queued := []
      line := s.line.flush.deliverAll (Receiver.receive habits) s.pos
        (s.queued++[if corrupt then none else some (plan.packet s.pos)])} where
  first := h.first
  inside := h.inside
  copies := nofun
  drained _ := rfl
  near hpos := by
    have hflush : Near (· = ackCode) plan.receiverAt s.pos s.line.flush :=
      (h.near hpos).mono rfl fun x hx => mem_queue_flush hx
    apply hflush.deliverAll (plan.tracks habits) hpos
    exact forall_mem_append.mpr ⟨h.copies,forall_mem_singleton.mpr (copy_cases _ _)⟩
  delivered hpos := Line.deliverAll_receiver (fun _ p _ hd => hd.receive p) (h.delivered hpos)
  own _ _ hpos := (Own.flush (hclear hpos)).deliverAll _
  finishing := nofun

lemma Sound.stall (h : Sound plan s) (left : ℕ) (corrupt : Bool) :
    Sound plan {s with
      phase := failed left
      queued := s.queued++[if corrupt then none else some (plan.packet s.pos)]
      line := s.line.flush} := by
  have hflush : Sound plan {s with line := s.line.flush} :=
    h.line rfl fun x hx => mem_queue_flush hx
  have hp : Rests plan s.pos (failed left) := rests_failed left
  exact {hflush with
    copies := forall_mem_append.mpr
      ⟨h.copies,forall_mem_singleton.mpr (copy_cases _ _)⟩
    drained := fun hidle => absurd hidle (by simp [failed_not_idle])
    own := fun left heq => absurd heq (hp.not_waiting left)
    finishing := hp.finishing}

lemma Sound.transmit (h : Sound plan s) :
    Sound plan {s with
      queued := s.queued.tail
      line := s.line.deliverAll (Receiver.receive habits) s.pos (s.queued.take 1)} := by
  have hfirst : ∀ p ∈ s.queued.take 1,p = none ∨ p = some (plan.packet s.pos) :=
    fun p hp => h.copies p (mem_of_mem_take hp)
  exact {h with
    copies := fun p hp => h.copies p (mem_of_mem_tail hp)
    drained := fun hidle => by simp [h.drained hidle]
    near := fun hpos => (h.near hpos).deliverAll (plan.tracks habits) hpos hfirst
    delivered := fun hpos =>
      Line.deliverAll_receiver (fun _ p _ hd => hd.receive p) (h.delivered hpos)
    own := fun left hphase hpos => (h.own left hphase hpos).deliverAll _}

lemma Sound.eot (h : Sound plan s) {second : Bool} (hphase : s.phase = .eot second)
    {l : Line Receiver Byte} (hr : l.receiver = s.line.receiver) (p : Option (List Byte)) :
    Sound plan {s with
      phase := .eotAnswer second
      line := l.deliver (Receiver.receive habits) s.pos p} := by
  have hpos : s.pos = plan.finalPos := h.finishing (by rw [hphase]; rfl)
  have hnot : ¬ s.pos < plan.finalPos := by omega
  have hdelivered : Delivered plan l.receiver := by
    rw [hr]
    exact h.delivered hpos
  exact {h with
    drained := fun _ => h.drained (by rw [hphase]; rfl)
    near := fun hlt => absurd hlt hnot
    delivered := fun _ => hdelivered.receive p
    own := nofun
    finishing := fun _ => hpos}

lemma Sound.step (h : Sound plan s) (label : Label) (hk : Keeps plan s label) :
    Sound plan (step plan habits packetRetries s label) := by
  cases label with
  | write corrupt =>
    simp only [YModemSend.step]
    simp only [Keeps] at hk
    split
    · next left hphase =>
      rw [hphase] at hk
      exact h.write corrupt hk
    · exact h
  | stall corrupt =>
    simp only [YModemSend.step]
    split
    · exact h.stall _ corrupt
    · exact h
  | fail flushed =>
    simp only [YModemSend.step]
    split
    · next left _ =>
      have hline : Sound plan {s with line := if flushed then s.line.flush else s.line} := by
        cases flushed with
        | true => exact h.line rfl fun x hx => mem_queue_flush hx
        | false => exact h
      exact hline.rest (rests_failed left) (by simp [failed_not_idle])
    · exact h
  | transmit => exact h.transmit
  | eot corrupt =>
    simp only [YModemSend.step]
    split
    · next second hphase =>
      apply h.eot hphase
      cases second with
      | true => rfl
      | false => rfl
    · exact h
  | arrive => exact h.line rfl fun x hx => mem_queue_arrive hx
  | lose => exact h.line rfl fun x hx => mem_queue_lose hx
  | read => exact h.read
  | expire =>
    simp only [YModemSend.step]
    split
    · exact h.rest (rests_failed _) (by simp [failed_not_idle])
    · exact h
    · exact h
    · exact h
    · exact h.rest rests_aborted nofun
  | abort =>
    simp only [YModemSend.step]
    split
    · exact h
    · exact h.rest rests_aborted nofun

lemma Sound.start (plan : Plan) (arrived inFlight : List Byte) :
    Sound plan (start arrived inFlight) where
  first := le_rfl
  inside := Nat.le_add_left 1 _
  copies := nofun
  drained _ := rfl
  near _ := by
    refine ⟨1,.inl rfl,rfl,?_⟩
    intro x hx _
    rcases mem_append.mp hx with hx | hx <;>
      · obtain ⟨b,_,rfl⟩ := mem_map.mp hx
        exact Nat.zero_lt_one
  delivered h := by
    have hlt : 1 < plan.finalPos := Nat.le_add_left 2 _
    exact absurd h hlt.ne
  own := nofun
  finishing := nofun

/-- When no ACK of another packet is on its way at any write of block 0 or a data packet, a
normal end means that the receiver has the file. -/
theorem send_delivers (plan : Plan) (habits : Habits) (packetRetries : ℕ)
    (arrived inFlight : List Byte) (ls : List Label)
    (hkeeps : Along (step plan habits packetRetries) (Keeps plan) (start arrived inFlight) ls)
    (hended : (ls.foldl (step plan habits packetRetries) (start arrived inFlight)).phase =
      .ended true) :
    (ls.foldl (step plan habits packetRetries) (start arrived inFlight)).line.receiver.file =
      plan.data := by
  have hsound : Sound plan (ls.foldl (step plan habits packetRetries) (start arrived inFlight)) :=
    Along.invariant (fun _ l h hk => h.step l hk) (Sound.start plan arrived inFlight) hkeeps
  have hpos := hsound.finishing (by rw [hended]; rfl)
  exact (hsound.delivered hpos).file

def oneByte : Plan where
  data := [0x12]
  filename := ['u']
  header := (makeHeader ['u'] 1).getD []
  header_eq := by decide +kernel

/-- A receiver that acknowledges the first EOT and does not answer what it does not want. -/
def plain : Habits := ⟨false,[],nofun⟩

/-- A packet that goes through, and the reads of its answer. -/
def exchange (reads : ℕ) : List Label :=
  .write false::(List.replicate reads [Label.arrive,.read]).flatten

/-- The end of a transfer: EOT with its two answers, and the final header. -/
def finish : List Label := .eot false::(.arrive::.read::.arrive::.read::exchange 1)

-- the payload of 1024 bytes is checked by evaluation
set_option maxRecDepth 20000

theorem one_byte_delivered :
    ((.read::(exchange 2++exchange 1++finish)).foldl (step oneByte plain 32)
      (start [crcRequest] [])).line.receiver.file = [0x12] :=
  send_delivers oneByte plain 32 [crcRequest] [] (.read::(exchange 2++exchange 1++finish))
    (by decide +kernel) (by decide +kernel)

/-- The answers to block 0 are late and it is written twice. Its second ACK arrives after the
flush before the data packet, which is corrupted; the rest arrives before the EOT. -/
def spareAck : List Label :=
  [.read,.write false,.expire]++exchange 2++
    [.write true,.arrive,.read,.arrive,.arrive]++finish

theorem spare_ack_loses_data :
    (spareAck.foldl (step oneByte plain 32) (start [crcRequest] [])).phase = .ended true ∧
      (spareAck.foldl (step oneByte plain 32) (start [crcRequest] [])).line.receiver.file ≠
        oneByte.data := by
  decide +kernel

end Run

end Defib.YModemSend
