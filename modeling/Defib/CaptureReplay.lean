import Defib.CaptureFormat
import Defib.Runs
import Defib.Transports

/-!
# Recording and replay

`RecordingTransport` hands every call on to the transport it wraps and keeps a record of each
read that returned bytes and of each write. It keeps none of `unread`, so bytes that are
pushed back and read again are recorded again. `ReplayTransport` serves the bytes of the
records of reads.

A session is the recorder with what the device has sent and how many of these bytes have been
handed out at some time.
-/
namespace Defib.CaptureReplay
open List Words CaptureFormat Runs Transports

/-! ## The recorder -/

def flagHasTiming : ℤ := 1

def addTx (c : CaptureFile) (timestampUs : ℤ) (data : List Byte) : CaptureFile :=
  {c with records := c.records++[⟨timestampUs,.tx,data⟩]}

def addRx (c : CaptureFile) (timestampUs : ℤ) (data : List Byte) : CaptureFile :=
  {c with records := c.records++[⟨timestampUs,.rx,data⟩]}

structure RecordingTransport (σ : Type) where
  inner : σ
  capture : CaptureFile

namespace RecordingTransport
variable {σ : Type} (T : Transport σ) (r : RecordingTransport σ)

def create (inner : σ) (chip : Utf8.Text) (baudrate : ℤ) : RecordingTransport σ :=
  ⟨inner,⟨baudrate,chip,flagHasTiming,[]⟩⟩

/-- `read`; the time is that of the record. -/
def read (now : ℤ) (size : ℕ) (pieces : List ℕ) :
    Except TransportError (List Byte) × RecordingTransport σ :=
  match T.read r.inner size pieces with
  | (.ok data,inner) =>
    (.ok data,⟨inner,if data ≠ [] then addRx r.capture now data else r.capture⟩)
  | (.error e,inner) => (.error e,⟨inner,r.capture⟩)

def write (now : ℤ) (data : List Byte) : RecordingTransport σ :=
  ⟨T.write r.inner data,addTx r.capture now data⟩

def bytesWaiting (k : ℕ) : ℕ × RecordingTransport σ :=
  let (n,inner) := T.bytesWaiting r.inner k
  (n,{r with inner := inner})

def unread (data : List Byte) : Except TransportError Unit × RecordingTransport σ :=
  let (result,inner) := T.unread r.inner data
  (result,{r with inner := inner})

end RecordingTransport

/-! ## The replay -/

/-- The data of the RX records, one after the other. -/
def rxData (c : CaptureFile) : List Byte :=
  ((c.records.filter (·.direction = .rx)).map (·.data)).flatten

structure ReplayTransport where
  rxBuffer : List Byte
  txLog : List (List Byte)
  closed : Bool
  deriving DecidableEq, Repr

namespace ReplayTransport

def create (c : CaptureFile) : ReplayTransport := ⟨rxData c,[],false⟩

def read (s : ReplayTransport) (size : ℕ) :
    Except TransportError (List Byte) × ReplayTransport :=
  if s.closed then (.ok [],s)
  else if s.rxBuffer = [] then (.error (.timeout size),s)
  else
    let count := min size s.rxBuffer.length
    (.ok (s.rxBuffer.take count),{s with rxBuffer := s.rxBuffer.drop count})

/-- What a caller gets from reads of the given sizes. -/
def served : ReplayTransport → List ℕ → List Byte
  | _,[] => []
  | s,size::sizes => handedOut (s.read size).1++served (s.read size).2 sizes

lemma read_open {s : ReplayTransport} (hopen : s.closed = false) (size : ℕ) :
    handedOut (s.read size).1 = s.rxBuffer.take size ∧
      (s.read size).2 = {s with rxBuffer := s.rxBuffer.drop size} := by
  unfold read
  rw [if_neg (by simp only [hopen,Bool.false_eq_true,not_false_eq_true])]
  split_ifs with hempty
  · cases s
    cases hempty
    simp [handedOut]
  · rcases Nat.le_total size s.rxBuffer.length with hle | hle
    · simp only [handedOut,Nat.min_eq_left hle,and_self]
    · simp only [handedOut,Nat.min_eq_right hle,take_length,drop_length,
        take_of_length_le hle,drop_of_length_le hle,and_self]

lemma served_eq (sizes : List ℕ) {s : ReplayTransport} (hopen : s.closed = false) :
    served s sizes = s.rxBuffer.take sizes.sum := by
  induction sizes generalizing s with
  | nil => rfl
  | cons size sizes ih =>
    obtain ⟨hout,hnext⟩ := read_open hopen size
    have hrest := ih (s := {s with rxBuffer := s.rxBuffer.drop size}) hopen
    rw [served,hout,hnext,hrest,sum_cons,take_add]

end ReplayTransport

/-! ## Sessions -/

structure Session (σ : Type) where
  recorder : RecordingTransport σ
  /-- all that the device has sent -/
  sent : List Byte
  /-- how many of these bytes have been handed out, pushed back or not -/
  handed : ℕ

inductive Call where
  | device (bytes : List Byte)
  | read (now : ℤ) (size : ℕ) (pieces : List ℕ)
  | write (now : ℤ) (data : List Byte)
  | bytesWaiting (k : ℕ)
  | unread (data : List Byte)
  deriving DecidableEq, Repr

section Sessions
variable {σ : Type} (T : Transport σ)

/-- How many of the sent bytes are not waiting. -/
def Session.position (s : Session σ) : ℕ := s.sent.length-(T.waiting s.recorder.inner).length

/-- The bytes that the caller has got and not pushed back. -/
def Session.taken (s : Session σ) : List Byte := s.sent.take (s.position T)

def Session.rx (s : Session σ) : List Byte := rxData s.recorder.capture

/-- What was waiting at the start counts as sent. -/
def start (inner : σ) (chip : Utf8.Text) (baudrate : ℤ) : Session σ :=
  ⟨.create inner chip baudrate,T.waiting inner,0⟩

def perform (s : Session σ) : Call → RecordingTransport σ
  | .device bytes => {s.recorder with inner := T.receive s.recorder.inner bytes}
  | .read now size pieces => (s.recorder.read T now size pieces).2
  | .write now data => s.recorder.write T now data
  | .bytesWaiting k => (s.recorder.bytesWaiting T k).2
  | .unread data => (s.recorder.unread T data).2

def sends : Call → List Byte
  | .device bytes => bytes
  | _ => []

def step (s : Session σ) (c : Call) : Session σ :=
  let recorder := perform T s c
  let sent := s.sent++sends c
  ⟨recorder,sent,max s.handed (sent.length-(T.waiting recorder.inner).length)⟩

def JustRead (s : Session σ) : Call → Prop
  | .unread data => data <:+ s.taken T
  | _ => True

instance (s : Session σ) (c : Call) : Decidable (JustRead T s c) := by
  unfold JustRead
  split <;> infer_instance

/-- A read of an open transport that holds bytes which have been pushed back. -/
def ReadsAgain (s : Session σ) : Call → Prop
  | .read _ size _ => T.isOpen s.recorder.inner = true ∧ 0 < size ∧ s.position T < s.handed
  | _ => False

/-- The records of reads are the bytes the device sent and the transport handed out, and a
replay serves these. -/
def Faithful (s : Session σ) : Prop :=
  s.rx = s.sent.take s.handed ∧
    ∀ sizes,(ReplayTransport.create s.recorder.capture).served sizes =
      (s.sent.take s.handed).take sizes.sum

variable {T} {s : Session σ}

lemma faithful_iff : Faithful s ↔ s.rx = s.sent.take s.handed := by
  refine ⟨And.left,fun h => ⟨h,fun sizes => ?_⟩⟩
  rw [ReplayTransport.served_eq sizes rfl,← h]
  rfl

lemma rxData_addRx (c : CaptureFile) (now : ℤ) (data : List Byte) :
    rxData (addRx c now data) = rxData c++data := by
  simp [rxData,addRx]

lemma rxData_addTx (c : CaptureFile) (now : ℤ) (data : List Byte) :
    rxData (addTx c now data) = rxData c := by
  simp [rxData,addTx]

lemma read_rx (r : RecordingTransport σ) (now : ℤ) (size : ℕ) (pieces : List ℕ) :
    (r.read T now size pieces).2.inner = (T.read r.inner size pieces).2 ∧
      rxData (r.read T now size pieces).2.capture =
        rxData r.capture++handedOut (T.read r.inner size pieces).1 := by
  rcases hread : T.read r.inner size pieces with ⟨result,inner⟩
  cases result with
  | ok data =>
    simp only [RecordingTransport.read,hread,handedOut]
    split_ifs with hdata
    · exact ⟨trivial,rxData_addRx _ _ _⟩
    · rw [not_not.mp hdata,append_nil]
      exact ⟨trivial,rfl⟩
  | error e =>
    simp only [RecordingTransport.read,hread,handedOut,append_nil,and_self]

/-- The queue is the end of what was sent; pushed back bytes are in the transport's own
buffer; no byte that was handed out is missing from the records. -/
structure Sound (T : Transport σ) (s : Session σ) : Prop where
  waiting : T.waiting s.recorder.inner <:+ s.sent
  position_le : s.position T ≤ s.handed
  handed_le : s.handed ≤ s.sent.length
  buffered : s.handed ≤ s.position T+T.buffered s.recorder.inner
  recorded : s.handed ≤ s.rx.length

lemma Sound.length (h : Sound T s) :
    s.position T+(T.waiting s.recorder.inner).length = s.sent.length := by
  have hle := h.waiting.length_le
  rw [Session.position]
  omega

lemma Sound.taken_length (h : Sound T s) :
    (s.taken T).length = s.position T := by
  have hlen := h.length
  rw [Session.taken,length_take]
  omega

lemma Sound.sent_eq (h : Sound T s) :
    s.taken T++T.waiting s.recorder.inner = s.sent := by
  obtain ⟨pre,hpre⟩ := h.waiting
  have hlen := h.length
  rw [← hpre,length_append] at hlen
  rw [Session.taken,← hpre,take_left' (by omega)]

lemma start_sound (inner : σ) (chip : Utf8.Text) (baudrate : ℤ) :
    Sound T (start T inner chip baudrate) := by
  have hposition : (start T inner chip baudrate).position T = 0 := Nat.sub_self _
  exact ⟨suffix_rfl,hposition.le,Nat.zero_le _,Nat.zero_le _,Nat.zero_le _⟩

/-! ## One call -/

/-- What a call does to the queue of the transport and to the records of reads. -/
inductive Effect (T : Transport σ) (s : Session σ) (c : Call) (s' : Session σ) : Prop
  | arrive (bytes : List Byte) (sent : s'.sent = s.sent++bytes)
      (waiting : T.waiting s'.recorder.inner = T.waiting s.recorder.inner++bytes)
      (position : s'.position T = s.position T)
      (buffered : T.buffered s.recorder.inner ≤ T.buffered s'.recorder.inner)
      (rx : s'.rx = s.rx) (other : ¬ReadsAgain T s c)
  | take (out : List Byte) (sent : s'.sent = s.sent)
      (waiting : out++T.waiting s'.recorder.inner = T.waiting s.recorder.inner)
      (position : s'.position T = s.position T+out.length)
      (buffered : T.buffered s.recorder.inner ≤ out.length+T.buffered s'.recorder.inner)
      (rx : s'.rx = s.rx++out) (again : ReadsAgain T s c → 0 < out.length)
      (first : ¬ReadsAgain T s c → out = [] ∨ s.handed ≤ s.position T)
  | back (data : List Byte) (sent : s'.sent = s.sent)
      (waiting : T.waiting s'.recorder.inner = data++T.waiting s.recorder.inner)
      (taken : data <:+ s.taken T) (position : s'.position T+data.length = s.position T)
      (buffered : data.length+T.buffered s.recorder.inner ≤ T.buffered s'.recorder.inner)
      (rx : s'.rx = s.rx) (other : ¬ReadsAgain T s c)

lemma effect_arrive {s s' : Session σ} {c : Call} (bytes : List Byte)
    (sent : s'.sent = s.sent++bytes)
    (waiting : T.waiting s'.recorder.inner = T.waiting s.recorder.inner++bytes)
    (buffered : T.buffered s.recorder.inner ≤ T.buffered s'.recorder.inner)
    (rx : s'.rx = s.rx) (other : ¬ReadsAgain T s c) : Effect T s c s' := by
  refine .arrive bytes sent waiting ?_ buffered rx other
  rw [Session.position,Session.position,sent,waiting,length_append,length_append,
    Nat.add_sub_add_right]

lemma effect_read (h : Sound T s) (now : ℤ) (size : ℕ) (pieces : List ℕ) :
    Effect T s (.read now size pieces) (step T s (.read now size pieces)) := by
  obtain ⟨hinner,hrx⟩ := read_rx (T := T) s.recorder now size pieces
  have hstep : (step T s (.read now size pieces)).recorder.inner =
    (T.read s.recorder.inner size pieces).2 := hinner
  have hsent : (step T s (.read now size pieces)).sent = s.sent := append_nil _
  have hwaiting := T.read_waiting s.recorder.inner size pieces
  have hbuffered := T.read_buffered s.recorder.inner size pieces
  have hlength := T.read_length s.recorder.inner size pieces
  have hclosed := T.read_closed s.recorder.inner size pieces
  have hsome := T.read_some s.recorder.inner size pieces
  generalize handedOut (T.read s.recorder.inner size pieces).1 = out at *
  rw [← hstep] at hwaiting hbuffered
  refine .take out hsent hwaiting ?_ hbuffered hrx ?_ ?_
  · have hlen := h.length
    rw [← hwaiting,length_append] at hlen
    rw [Session.position,hsent]
    omega
  · intro hagain
    have hown := h.buffered
    obtain ⟨hopen,hsize,hpushed⟩ := hagain
    exact length_pos_of_ne_nil (hsome hopen hsize (by omega))
  · intro hfirst
    by_cases hopen : T.isOpen s.recorder.inner = true
    · by_cases hsize : 0 < size
      · right
        by_contra hpushed
        exact hfirst ⟨hopen,hsize,by omega⟩
      · left
        exact eq_nil_of_length_eq_zero (by omega)
    · left
      exact hclosed (Bool.eq_false_of_not_eq_true hopen)

lemma effect_unread (h : Sound T s) {data : List Byte}
    (hback : data <:+ s.taken T) : Effect T s (.unread data) (step T s (.unread data)) := by
  have hwaiting := T.unread_waiting s.recorder.inner data
  have hbuffered := T.unread_buffered s.recorder.inner data
  have htaken : givenBack data (T.unread s.recorder.inner data).1 <:+ s.taken T := by
    cases (T.unread s.recorder.inner data).1 with
    | ok => exact hback
    | error => exact nil_suffix
  have hsent : (step T s (.unread data)).sent = s.sent := append_nil _
  have hlen := h.length
  have hle := htaken.length_le
  rw [h.taken_length] at hle
  refine .back _ hsent hwaiting htaken ?_ hbuffered rfl id
  have hnew := congrArg List.length hwaiting
  rw [length_append] at hnew
  rw [Session.position,hsent]
  change s.sent.length-(T.waiting (T.unread s.recorder.inner data).2).length+_ = _
  omega

lemma step_effect {c : Call} (h : Sound T s) (hback : JustRead T s c) :
    Effect T s c (step T s c) := by
  cases c with
  | device bytes =>
    exact effect_arrive bytes rfl (T.receive_waiting _ _) (T.receive_buffered _ _) rfl id
  | read now size pieces => exact effect_read h now size pieces
  | write now data =>
    refine effect_arrive [] rfl ?_ (T.write_buffered _ _) (rxData_addTx _ _ _) id
    rw [append_nil]
    exact T.write_waiting _ _
  | bytesWaiting k =>
    refine effect_arrive [] rfl ?_ (T.bytesWaiting_buffered _ _) rfl id
    rw [append_nil]
    exact T.bytesWaiting_waiting _ _
  | unread data => exact effect_unread h hback

lemma step_handed (s : Session σ) (c : Call) :
    (step T s c).handed = max s.handed ((step T s c).position T) := rfl

lemma sound_step (s : Session σ) (c : Call) (h : Sound T s) (hback : JustRead T s c) :
    Sound T (step T s c) := by
  have hsent := h.sent_eq
  have hlen := h.length
  have hhanded := step_handed (T := T) s c
  have heffect := step_effect h hback
  obtain ⟨-,hposition,hin,hown,hrecorded⟩ := h
  cases heffect with
  | arrive bytes sent waiting position buffered rx _ =>
    refine ⟨?_,by omega,?_,by omega,?_⟩
    · rw [sent,waiting,← hsent,append_assoc]
      exact suffix_append _ _
    · rw [sent,length_append]
      omega
    · rw [rx]
      omega
  | take out sent waiting position buffered rx _ _ =>
    have hout := congrArg List.length waiting
    rw [length_append] at hout
    refine ⟨?_,by omega,?_,by omega,?_⟩
    · rw [sent,← hsent,← waiting,← append_assoc]
      exact suffix_append _ _
    · rw [sent]
      omega
    · rw [rx,length_append]
      omega
  | back data sent waiting taken position buffered rx _ =>
    refine ⟨?_,by omega,?_,by omega,?_⟩
    · obtain ⟨pre,hpre⟩ := taken
      rw [sent,waiting,← hsent,← hpre,append_assoc]
      exact suffix_append _ _
    · rw [sent]
      omega
    · rw [rx]
      omega

lemma faithful_step (s : Session σ) (c : Call) (h : Sound T s) (hback : JustRead T s c)
    (hrx : Faithful s) (hfirst : ¬ReadsAgain T s c) : Faithful (step T s c) := by
  rw [faithful_iff] at hrx ⊢
  have hhanded := step_handed (T := T) s c
  have hposition := h.position_le
  cases step_effect h hback with
  | arrive bytes sent waiting position buffered rx _ =>
    rw [rx,hrx,sent,hhanded,position,Nat.max_eq_left hposition,
      take_append_of_le_length h.handed_le]
  | take out sent waiting position buffered rx _ first =>
    rw [rx,hrx,sent,hhanded,position]
    rcases first hfirst with rfl | hnew
    · rw [length_nil,Nat.add_zero,Nat.max_eq_left hposition,append_nil]
    · -- the queue starts where the handed out bytes end
      have hsent := h.sent_eq
      rw [← waiting,← append_assoc] at hsent
      have heq : s.handed = s.position T := Nat.le_antisymm hnew hposition
      have hlen : (s.taken T++out).length = s.position T+out.length := by
        rw [length_append,h.taken_length]
      rw [heq,Nat.max_eq_right (Nat.le_add_right _ _),← hlen]
      conv_rhs => rw [← hsent,take_left]
      rfl
  | back data sent waiting taken position buffered rx _ =>
    rw [rx,hrx,sent,hhanded,Nat.max_eq_left (by omega)]

/-- More bytes are in the records than have been handed out. -/
def Excess (s : Session σ) : Prop := s.handed < s.rx.length

/-- A call adds at least as many bytes to the records as it hands out for the first time, and
more if it reads again. -/
theorem excess_step {c : Call} (h : Sound T s) (hback : JustRead T s c) :
    (step T s c).handed+s.rx.length ≤ s.handed+(step T s c).rx.length ∧
      (ReadsAgain T s c →
        (step T s c).handed+s.rx.length < s.handed+(step T s c).rx.length) := by
  have hhanded := step_handed (T := T) s c
  have hposition := h.position_le
  cases step_effect h hback with
  | arrive bytes sent waiting position buffered rx other =>
    rw [rx]
    exact ⟨by omega,fun h => absurd h other⟩
  | take out sent waiting position buffered rx again _ =>
    rw [rx,length_append]
    refine ⟨by omega,fun hagain => ?_⟩
    have hsome := again hagain
    have hpushed : s.position T < s.handed := by
      cases c with
      | read => exact hagain.2.2
      | _ => exact absurd hagain id
    omega
  | back data sent waiting taken position buffered rx other =>
    rw [rx]
    exact ⟨by omega,fun h => absurd h other⟩

lemma not_faithful_of_excess (s : Session σ) (h : Sound T s) (hexcess : Excess s) :
    ¬Faithful s := by
  rw [faithful_iff]
  intro hrx
  have hin := h.handed_le
  have hlen := congrArg List.length hrx
  rw [length_take] at hlen
  unfold Excess at hexcess
  omega

/-- Every run that pushes back only bytes just read: the capture is faithful at its end
exactly if nothing was read while pushed back bytes were waiting. -/
theorem recording_faithful_iff (inner : σ) (chip : Utf8.Text) (baudrate : ℤ)
    (calls : List Call) (hback : Along (step T) (JustRead T) (start T inner chip baudrate) calls) :
    Faithful (calls.foldl (step T) (start T inner chip baudrate)) ↔
      Along (step T) (fun s c => ¬ReadsAgain T s c) (start T inner chip baudrate) calls := by
  refine Along.good_iff sound_step faithful_step ?_ ?_
    not_faithful_of_excess (start_sound inner chip baudrate) (faithful_iff.mpr rfl) hback
  · intro s c h hback hrx hagain
    have hmore := (excess_step h hback).2 (not_not.mp hagain)
    have hrecorded := h.recorded
    unfold Excess
    omega
  · intro s c h hback hexcess
    have hmore := (excess_step h hback).1
    unfold Excess at hexcess ⊢
    omega

/-! ## Transports that take nothing back -/

section Refused
variable (hT : ∀ i data,T.unread i data = (.error .notImplemented,i))
include hT

lemma position_le_step (s : Session σ) (c : Call) :
    s.position T ≤ (step T s c).position T := by
  suffices h : (T.waiting (perform T s c).inner).length ≤
      (T.waiting s.recorder.inner).length+(sends c).length by
    simp only [Session.position,step,length_append]
    omega
  cases c with
  | device bytes => simp [perform,sends,T.receive_waiting]
  | read now size pieces =>
    have hwaiting := congrArg List.length (T.read_waiting s.recorder.inner size pieces)
    rw [length_append] at hwaiting
    rw [perform,(read_rx s.recorder now size pieces).1]
    omega
  | write now data => simp [perform,RecordingTransport.write,T.write_waiting]
  | bytesWaiting k => simp [perform,RecordingTransport.bytesWaiting,T.bytesWaiting_waiting]
  | unread data => simp [perform,RecordingTransport.unread,hT]

lemma refused_step (s : Session σ) (c : Call)
    (h : Sound T s ∧ Faithful s ∧ s.handed ≤ s.position T) :
    Sound T (step T s c) ∧ Faithful (step T s c) ∧
      (step T s c).handed ≤ (step T s c).position T := by
  obtain ⟨hsound,hfaithful,hle⟩ := h
  -- a refused `unread` is like one of no bytes
  obtain ⟨d,hd,hback⟩ : ∃ d,step T s c = step T s d ∧ JustRead T s d := by
    cases c with
    | unread data =>
      refine ⟨.unread [],?_,nil_suffix⟩
      simp only [step,perform,sends,RecordingTransport.unread,hT]
    | _ => exact ⟨_,rfl,trivial⟩
  have hfirst : ¬ReadsAgain T s d := by
    cases d with
    | read => exact fun hagain => Nat.not_lt_of_le hle hagain.2.2
    | _ => exact id
  have hposition := position_le_step hT s c
  rw [hd] at hposition ⊢
  refine ⟨sound_step s d hsound hback,faithful_step s d hsound hback hfaithful hfirst,?_⟩
  rw [step_handed]
  omega

lemma refused_faithful (inner : σ) (chip : Utf8.Text) (baudrate : ℤ) (calls : List Call) :
    Faithful (calls.foldl (step T) (start T inner chip baudrate)) := by
  have hstart : Sound T (start T inner chip baudrate) ∧ Faithful (start T inner chip baudrate) ∧
      (start T inner chip baudrate).handed ≤ (start T inner chip baudrate).position T :=
    ⟨start_sound inner chip baudrate,faithful_iff.mpr rfl,Nat.zero_le _⟩
  have hall : Along (step T) (fun _ _ => True) (start T inner chip baudrate) calls :=
    Along.of_forall fun _ _ => trivial
  exact (hall.invariant (fun s c hs _ => refused_step hT s c hs) hstart).2.1

end Refused

end Sessions

/-- Over a serial port or a socket every sequence of calls is recorded faithfully. -/
theorem serial_and_socket_recordings_faithful (port : SerialTransport) (peer : SocketTransport)
    (chip : Utf8.Text) (baudrate : ℤ) (calls : List Call) :
    Faithful (calls.foldl (step serial) (start serial port chip baudrate)) ∧
      Faithful (calls.foldl (step socket) (start socket peer chip baudrate)) :=
  ⟨refused_faithful (fun _ _ => rfl) _ _ _ _,refused_faithful (fun _ _ => rfl) _ _ _ _⟩

/-- An RFC 2217 connection on which nothing has come in. -/
def silent : Session Rfc2217Transport := start rfc2217 ⟨[],[],[]⟩ [] 115200

/-- The answer with the board id and one byte after it. -/
def boardIdAnswer : List Byte :=
  [0xCE,0x01,0x00,0x00,0x35,0x16,0xC6,0x10,0x4B,0x7E,0xAA,0x43]

/-- All of the answer is read, the byte after it pushed back and then read again. -/
def boardIdCalls : List Call :=
  [.device boardIdAnswer,.read 0 12 [12],.unread [0x43],.read 1000 1 []]

theorem pushed_back_byte_recorded_twice :
    Along (step rfc2217) (JustRead rfc2217) silent boardIdCalls ∧
      ¬Faithful (boardIdCalls.foldl (step rfc2217) silent) := by
  refine ⟨by decide,?_⟩
  rw [faithful_iff]
  decide

/-- The same without the second read. -/
theorem pushed_back_byte_left_waiting :
    Faithful ((boardIdCalls.take 3).foldl (step rfc2217) silent) := by
  refine (recording_faithful_iff _ [] 115200 (boardIdCalls.take 3) (by decide)).mpr ?_
  exact ⟨id,fun hagain => absurd hagain.2.2 (by decide),id,trivial⟩

end Defib.CaptureReplay
