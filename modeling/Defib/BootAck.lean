import Defib.BootUpload
import Defib.Runs
import Defib.StopAndWait

/-!
# Acknowledgements of the boot ROM

The boot ROM answers a frame it takes, and a repetition of the last frame it took, with
the byte 0xAA. `_send_frame_with_retry` writes a frame again when no such byte comes in
time, after throwing away what has arrived by then. An answer that is late by more than
that is still on its way when the next frame is written. The system here is the sender
from the HEAD frame on, the boot ROM, and the answers between them; frames may be
corrupted, attempts may fail before the write, and answers take any time.
-/
namespace Defib.BootAck
open List Words BootFrames BootUpload StopAndWait Runs

/-- The receiving side of the boot ROM. -/
structure Rom where
  previous : Option (List Byte)
  started : Bool
  expected : ℕ
  stored : List (List Byte)
  deriving DecidableEq, Repr

namespace Rom

/-- Before the upload, perhaps with the HEAD frame of the start as the last frame. -/
def idle : Option (List Byte) → Rom
  | none => ⟨none,false,0,[]⟩
  | some blast => ⟨some blast,true,1,[]⟩

/-- The state after the next frame of an upload, if this is one. Up to the first DATA frame
that is a HEAD frame too. -/
def next (r : Rom) (bytes : List Byte) : Option Rom :=
  if ¬ verifyCrc bytes then none
  else
    match HeadFrame.decode bytes,DataFrame.decode bytes,TailFrame.decode bytes with
    | .ok _,_,_ => if r.expected ≤ 1 then some ⟨some bytes,true,1,r.stored⟩ else none
    | _,.ok d,_ =>
      if r.started ∧ d.seq = r.expected%256 then
        some ⟨some bytes,true,r.expected+1,r.stored++[d.payload]⟩
      else none
    | _,_,.ok t =>
      if r.started ∧ t.seq = r.expected%256 then some {r with previous := some bytes} else none
    | _,_,_ => none

/-- A frame arrives, `none` when it is corrupted: the new state and the answer. -/
def receive (r : Rom) : Option (List Byte) → Rom × List Byte
  | none => (r,[])
  | some bytes =>
    match r.next bytes with
    | some r' => (r',[ackByte])
    | none => (r,if r.previous = some bytes then [ackByte] else [])

end Rom

/-- An image for `_send_uboot` that fits the fields of the HEAD frame. -/
structure Plan where
  firmware : List Byte
  address : ℕ
  firmware_lt : firmware.length < 4294967296
  address_lt : address < 4294967296

namespace Plan
variable (plan : Plan)

def image : List Byte := zeroLongFfRuns plan.firmware

def chunks : List (List Byte) := chunkData plan.image

def head : List Byte :=
  appendCrc (headMagic++writeBe32 plan.image.length++writeBe32 plan.address)

/-- The frames by their position, from the HEAD frame at position 1 on. -/
def frame : ℕ → List Byte
  | 0 => []
  | i+1 => (framesOf plan.head plan.chunks).getD i []

def tailPos : ℕ := plan.chunks.length+2

def retries (pos : ℕ) : ℕ := if pos = 1 then 64 else if pos < plan.tailPos then 32 else 16

end Plan

/-- Where the sender is with the current frame: before one of `left` attempts, reading
after the write of one, or at the end of `_send_uboot`. -/
inductive Phase where
  | attempt (left : ℕ)
  | waiting (left : ℕ)
  | ended (result : Bool)
  deriving DecidableEq, Repr

structure System where
  pos : ℕ
  phase : Phase
  line : Line Rom Byte

inductive Label where
  /-- The flushes and the write of an attempt. -/
  | write (corrupt : Bool)
  /-- An attempt that raises before anything is written. -/
  | fail (flushed : Bool)
  | arrive
  | lose
  | read
  /-- The deadline of the attempt, or an exception while reading. -/
  | expire
  deriving DecidableEq, Repr

section System
variable (plan : Plan)

def acked (s : System) : System :=
  if s.pos = plan.tailPos then {s with phase := .ended true}
  else {s with pos := s.pos+1, phase := .attempt (plan.retries (s.pos+1))}

/-- An attempt has failed. A TAIL that is never acknowledged does not matter. -/
def failed (s : System) (left : ℕ) : System :=
  if 1 < left then {s with phase := .attempt (left-1)}
  else {s with phase := .ended (decide (s.pos = plan.tailPos))}

def step (s : System) : Label → System
  | .write corrupt =>
    match s.phase with
    | .attempt left => {s with
        phase := .waiting left
        line := s.line.flush.deliver Rom.receive s.pos
          (if corrupt then none else some (plan.frame s.pos))}
    | _ => s
  | .fail flushed =>
    match s.phase with
    | .attempt left => failed plan {s with line := if flushed then s.line.flush else s.line} left
    | _ => s
  | .arrive => {s with line := s.line.arrive}
  | .lose => {s with line := s.line.lose}
  | .read =>
    match s.phase,s.line.arrived with
    | .waiting _,x::_ =>
      if x.2 = ackByte then acked plan {s with line := s.line.drop}
      else {s with line := s.line.drop}
    | _,_ => s
  | .expire =>
    match s.phase with
    | .waiting left => failed plan s left
    | _ => s

/-- The start of the upload has been made; bytes of that time may be left over. -/
def start (blast : Option (List Byte)) (arrived inFlight : List Byte) : System where
  pos := 1
  phase := .attempt (plan.retries 1)
  line := ⟨.idle blast,inFlight.map fun b => (0,b),arrived.map fun b => (0,b)⟩

/-- When a frame is written, no acknowledgement of another frame is on its way. -/
def Keeps (s : System) : Label → Prop
  | .write _ =>
    match s.phase with
    | .attempt _ => Clear (· = ackByte) s.pos s.line
    | _ => True
  | _ => True

instance (s : System) : (l : Label) → Decidable (Keeps s l)
  | .write _ =>
    match h : s.phase with
    | .attempt _ => decidable_of_iff (Clear (· = ackByte) s.pos s.line) (by simp [Keeps,h])
    | .waiting _ => isTrue (by simp [Keeps,h])
    | .ended _ => isTrue (by simp [Keeps,h])
  | .fail _ => isTrue trivial
  | .arrive => isTrue trivial
  | .lose => isTrue trivial
  | .read => isTrue trivial
  | .expire => isTrue trivial

end System

section Frames

variable {bytes : List Byte}

lemma headDecode_error (h : bytes.getD 0 0 ≠ 0xFE) :
    ∃ e,HeadFrame.decode bytes = .error e := by
  rw [HeadFrame.decode]
  by_cases hshort : bytes.length < 14
  · exact ⟨_,if_pos hshort⟩
  · have hmagic : bytes.take 4 ≠ headMagic := by
      intro heq
      cases bytes with
      | nil => exact hshort (by decide)
      | cons b bs =>
        rw [take_succ_cons] at heq
        exact h (cons_eq_cons.mp heq).1
    rw [if_neg hshort,if_pos hmagic]
    exact ⟨_,rfl⟩

namespace Rom
variable {r : Rom}

lemma next_head {h : HeadFrame} (he : h.encode = some bytes)
    (hr : r.expected ≤ 1) : r.next bytes = some ⟨some bytes,true,1,r.stored⟩ := by
  obtain ⟨hdecode,hcrc⟩ := HeadFrame.decode_encode he
  simp only [next,hcrc,not_true_eq_false,if_false,hdecode,hr,if_true]

lemma next_data (d : DataFrame) (hpayload : d.payload ≠ []) :
    r.next d.encode = if r.started ∧ d.seq%256 = r.expected%256 then
      some ⟨some d.encode,true,r.expected+1,r.stored++[d.payload]⟩ else none := by
  obtain ⟨hdecode,hcrc⟩ := DataFrame.decode_encode d hpayload
  have hfirst : d.encode.getD 0 0 ≠ 0xFE := (by decide : dataMagic ≠ 0xFE)
  obtain ⟨e,hhead⟩ := headDecode_error hfirst
  simp only [next,hcrc,not_true_eq_false,if_false,hdecode,hhead]

lemma next_tail (t : TailFrame) : r.next t.encode =
    if r.started ∧ t.seq%256 = r.expected%256 then some {r with previous := some t.encode}
    else none := by
  obtain ⟨hdecode,hcrc⟩ := TailFrame.decode_encode t
  have hfirst : t.encode.getD 0 0 ≠ 0xFE := (by decide : tailMagic ≠ 0xFE)
  obtain ⟨e,hhead⟩ := headDecode_error hfirst
  have hlen : t.encode.length = 5 := appendCrc_length _
  have hdata : DataFrame.decode t.encode = .error (.short 5) := by
    rw [DataFrame.decode,hlen,if_pos (by decide)]
  simp only [next,hcrc,not_true_eq_false,if_false,hdecode,hhead,hdata]

lemma receive_of_next {r' : Rom} (h : r.next bytes = some r') :
    (r.receive (some bytes)).1 = r' := by
  simp only [receive,h]

lemma receive_of_none (h : r.next bytes = none) :
    (r.receive (some bytes)).1 = r := by
  simp only [receive,h]

lemma next_nil : r.next [] = none := rfl

end Rom

end Frames

namespace Plan
variable (plan : Plan)

lemma head_encode : HeadFrame.encode ⟨plan.image.length,plan.address⟩ = some plan.head := by
  apply HeadFrame.encode_eq
  · rw [image,zeroLongFfRuns_length]
    exact plan.firmware_lt
  · exact plan.address_lt

lemma chunks_flatten : plan.chunks.flatten = plan.image := by
  rw [chunks,chunkData_eq,handMadePayloads_flatten]

lemma chunk_ne_nil (p : List Byte) (hp : p ∈ plan.chunks) : p ≠ [] := by
  rw [chunks,chunkData_eq] at hp
  exact (handMadePayloads_size p hp).1

lemma frame_head : plan.frame 1 = plan.head := rfl

lemma frame_data {k : ℕ} (hk : k < plan.chunks.length) :
    plan.frame (k+2) = DataFrame.encode ⟨k+1,plan.chunks[k]⟩ := by
  rw [frame,framesOf,getD_cons_succ,getD_append _ _ _ _ (by simpa using hk)]
  rw [getD_eq_getElem _ _ (by simpa using hk),getElem_map,getElem_zipIdx,
    Nat.add_comm]

lemma frame_tail :
    plan.frame plan.tailPos = TailFrame.encode ⟨plan.chunks.length+1⟩ := by
  rw [tailPos,frame,framesOf,getD_cons_succ,
    getD_append_right _ _ _ _ (by simp),length_map,length_zipIdx,Nat.sub_self]
  rfl

/-- The boot ROM when it has taken the frames before position `k`. -/
def romAt (blast : Option (List Byte)) : ℕ → Rom
  | 0 => .idle blast
  | 1 => .idle blast
  | k+2 => ⟨some (plan.frame (k+1)),true,min (k+1) (plan.chunks.length+1),plan.chunks.take k⟩

lemma tracks (blast : Option (List Byte)) :
    Tracks Rom.receive (· = ackByte) plan.frame (plan.romAt blast) (plan.tailPos+1) where
  next i hi := by
    match i,hi with
    | 0,_ => exact Rom.receive_of_none Rom.next_nil
    | 1,_ =>
      have hidle : (Rom.idle blast).expected ≤ 1 ∧ (Rom.idle blast).stored = [] := by
        cases blast with
        | none => exact ⟨Nat.zero_le _,rfl⟩
        | some head => exact ⟨le_rfl,rfl⟩
      apply Rom.receive_of_next
      rw [romAt,frame_head,Rom.next_head plan.head_encode hidle.1,hidle.2]
      simp only [romAt,frame_head,take_zero,Nat.zero_add,Nat.le_add_left,min_eq_left]
    | k+2,hi =>
      rw [tailPos] at hi
      apply Rom.receive_of_next
      by_cases hk : k < plan.chunks.length
      · rw [frame_data plan hk,Rom.next_data _ (plan.chunk_ne_nil _ (getElem_mem hk))]
        have hmin : min (k+1) (plan.chunks.length+1) = k+1 := by omega
        have hmin' : min (k+2) (plan.chunks.length+1) = k+2 := by omega
        simp only [romAt,hmin,hmin',and_self,if_true,frame_data plan hk,take_concat_get']
      · have hlast : k = plan.chunks.length := by omega
        subst hlast
        have htail : plan.frame (plan.chunks.length+2) = _ := plan.frame_tail
        rw [htail,Rom.next_tail]
        simp only [romAt,htail,min_self,and_self,if_true,take_length,Nat.le_add_right,
          min_eq_right,take_of_length_le]
  again i hi := by
    match i,hi with
    | 0,_ => exact Rom.receive_of_none Rom.next_nil
    | 1,_ =>
      apply Rom.receive_of_next
      have hexp : (plan.romAt blast 2).expected ≤ 1 := Nat.min_le_left _ _
      rw [frame_head,Rom.next_head plan.head_encode hexp]
      simp only [romAt,frame_head,take_zero,Nat.zero_add,Nat.le_add_left,min_eq_left]
    | k+2,hi =>
      rw [tailPos] at hi
      by_cases hk : k < plan.chunks.length
      · apply Rom.receive_of_none
        rw [frame_data plan hk,Rom.next_data _ (plan.chunk_ne_nil _ (getElem_mem hk))]
        have hmin : min (k+2) (plan.chunks.length+1) = k+2 := by omega
        have hother : (k+1)%256 ≠ (k+2)%256 := by omega
        simp only [romAt,hmin,hother,and_false,if_false]
      · have hlast : k = plan.chunks.length := by omega
        subst hlast
        have htail : plan.frame (plan.chunks.length+2) = _ := plan.frame_tail
        apply Rom.receive_of_next
        rw [htail,Rom.next_tail]
        simp only [romAt,htail,and_self,if_true,Nat.le_add_right,min_eq_right]
  bad k := ⟨rfl,fun a ha => absurd ha not_mem_nil⟩

end Plan

/-- The sender is at a frame of the upload and the boot ROM at that frame or one past it;
what the sender may read while it waits belongs to its frame. -/
structure Sound (plan : Plan) (blast : Option (List Byte)) (s : System) : Prop where
  first : 1 ≤ s.pos
  inside : s.pos ≤ plan.tailPos
  near : Near (· = ackByte) (plan.romAt blast) s.pos s.line
  own : ∀ left,s.phase = .waiting left → Own (· = ackByte) s.pos s.line
  done : s.phase = .ended true → s.pos = plan.tailPos

section Run
variable {plan : Plan} {blast : Option (List Byte)} {s : System}

lemma Sound.line (h : Sound plan blast s) {l : Line Rom Byte}
    (hr : l.receiver = s.line.receiver) (hq : ∀ x ∈ l.queue,x ∈ s.line.queue) :
    Sound plan blast {s with line := l} where
  first := h.first
  inside := h.inside
  near := h.near.mono hr hq
  own left hphase := (h.own left hphase).mono hq
  done := h.done

lemma Sound.phase (h : Sound plan blast s) {p : Phase} (hwait : ∀ left,p ≠ .waiting left)
    (hdone : p = .ended true → s.pos = plan.tailPos) : Sound plan blast {s with phase := p} where
  first := h.first
  inside := h.inside
  near := h.near
  own left heq := absurd heq (hwait left)
  done := hdone

lemma Sound.failed (h : Sound plan blast s) (left : ℕ) :
    Sound plan blast (failed plan s left) := by
  rw [BootAck.failed]
  split
  · exact h.phase (by simp) (by simp)
  · exact h.phase (by simp) (by simp)

lemma Sound.acked (h : Sound plan blast s)
    (hnear : Near (· = ackByte) (plan.romAt blast) (s.pos+1) s.line) :
    Sound plan blast (acked plan s) := by
  rw [BootAck.acked]
  split
  · next hpos => exact h.phase (by simp) (fun _ => hpos)
  · next hpos =>
    have hpast : s.pos+1 ≤ plan.tailPos := Nat.lt_of_le_of_ne h.inside hpos
    exact ⟨Nat.le_add_left 1 _,hpast,hnear,by simp,by simp⟩

lemma Sound.write (h : Sound plan blast s) {left : ℕ} (corrupt : Bool)
    (hclear : Clear (· = ackByte) s.pos s.line) :
    Sound plan blast {s with
      phase := .waiting left
      line := s.line.flush.deliver Rom.receive s.pos
        (if corrupt then none else some (plan.frame s.pos))} where
  first := h.first
  inside := h.inside
  near := by
    have hflush : Near (· = ackByte) (plan.romAt blast) s.pos s.line.flush :=
      h.near.mono rfl fun x hx => mem_queue_flush hx
    apply hflush.deliver (plan.tracks blast) (Nat.lt_succ_of_le h.inside)
    cases corrupt with
    | true => exact .inl rfl
    | false => exact .inr rfl
  own _ _ := (Own.flush hclear).deliver _
  done heq := by cases heq

lemma Sound.read (h : Sound plan blast s) : Sound plan blast (step plan s .read) := by
  have hdrop := h.line (l := s.line.drop) rfl fun x hx => mem_queue_drop hx
  simp only [step]
  split
  · next left x xs hphase harrived =>
    split
    · next hack =>
      apply hdrop.acked
      -- the acknowledgement read is one for the frame the sender is at
      have hx : x ∈ s.line.queue := by
        rw [Line.queue,harrived]
        exact mem_cons_self
      have hown := h.own left hphase x hx hack
      exact (h.near.acknowledged hx hack hown).mono rfl fun y hy => mem_queue_drop hy
    · exact hdrop
  · exact h

lemma Sound.step (h : Sound plan blast s) (label : Label) (hk : Keeps s label) :
    Sound plan blast (step plan s label) := by
  cases label with
  | write corrupt =>
    simp only [BootAck.step]
    simp only [Keeps] at hk
    split
    · next left hphase =>
      rw [hphase] at hk
      exact h.write corrupt hk
    · exact h
  | fail flushed =>
    simp only [BootAck.step]
    split
    · apply Sound.failed
      cases flushed with
      | true => exact h.line rfl fun x hx => mem_queue_flush hx
      | false => exact h
    · exact h
  | arrive => exact h.line rfl fun x hx => mem_queue_arrive hx
  | lose => exact h.line rfl fun x hx => mem_queue_lose hx
  | read => exact h.read
  | expire =>
    simp only [BootAck.step]
    split
    · exact h.failed _
    · exact h

lemma Sound.start (plan : Plan) (blast : Option (List Byte)) (arrived inFlight : List Byte) :
    Sound plan blast (start plan blast arrived inFlight) where
  first := le_rfl
  inside := Nat.le_add_left 1 _
  near := by
    refine ⟨1,.inl rfl,rfl,?_⟩
    intro x hx _
    rcases mem_append.mp hx with hx | hx <;>
      · obtain ⟨b,_,rfl⟩ := mem_map.mp hx
        exact Nat.zero_lt_one
  own left heq := by cases heq
  done heq := by cases heq

lemma Sound.stored (h : Sound plan blast s) (hpos : s.pos = plan.tailPos) :
    s.line.receiver.stored = plan.chunks := by
  obtain ⟨k,hk,hstate,_⟩ := h.near
  obtain ⟨j,rfl,hj⟩ : ∃ j,k = j+2 ∧ plan.chunks.length ≤ j := by
    rw [hpos,Plan.tailPos] at hk
    exact ⟨k-2,by omega,by omega⟩
  rw [hstate]
  exact take_of_length_le hj

/-- When no acknowledgement of another frame is on its way at any write, success means that
the boot ROM has the image. -/
theorem uboot_stored (plan : Plan) (blast : Option (List Byte)) (arrived inFlight : List Byte)
    (ls : List Label)
    (hkeeps : Along (step plan) Keeps (start plan blast arrived inFlight) ls)
    (htrue : (ls.foldl (step plan) (start plan blast arrived inFlight)).phase = .ended true) :
    (ls.foldl (step plan) (start plan blast arrived inFlight)).line.receiver.stored =
        plan.chunks ∧
      (ls.foldl (step plan) (start plan blast arrived inFlight)).line.receiver.stored.flatten =
        plan.image := by
  have hsound : Sound plan blast (ls.foldl (step plan) (start plan blast arrived inFlight)) :=
    Along.invariant (fun _ l h hk => h.step l hk) (Sound.start plan blast arrived inFlight) hkeeps
  have hstored := hsound.stored (hsound.done htrue)
  refine ⟨hstored,?_⟩
  rw [hstored,plan.chunks_flatten]

def oneByte : Plan := ⟨[0x12],0x81000000,by decide,by decide⟩

/-- Three frames, each answered before the next one is written. -/
theorem one_byte_stored :
    (((List.replicate 3 [Label.write false,.arrive,.read]).flatten.foldl (step oneByte)
      (start oneByte none [] [])).line.receiver.stored.flatten = [0x12]) :=
  (uboot_stored oneByte none [] [] (List.replicate 3 [Label.write false,.arrive,.read]).flatten
    (by decide +kernel) (by decide +kernel)).2

/-- The answer to the HEAD frame is late, and the frame is written a second time. The spare
acknowledgement arrives after the flush before the DATA frame, which is corrupted; nobody
answers the TAIL frame, and nothing has been stored. -/
def lateAnswer : List Label :=
  [.write false,.expire,.write false,.arrive,.read,.write true,.arrive,.read]++
    (List.replicate 16 [Label.write false,.expire]).flatten

theorem late_answer_loses_image :
    ((lateAnswer.foldl (step oneByte) (start oneByte none [] [])).phase = .ended true) ∧
      (lateAnswer.foldl (step oneByte) (start oneByte none [] [])).line.receiver.stored = [] := by
  decide +kernel

end Run

end Defib.BootAck
