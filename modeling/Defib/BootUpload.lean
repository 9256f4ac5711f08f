import Defib.BootFrames
import Defib.Spans

/-!
# Uploads to the boot ROM

Three senders put an image on the line as HEAD, DATA and TAIL frames: the ones for the
V500 and the CV6xx build their frames by hand and count the pieces twice, once while
sending and once for the TAIL; the standard one uses the frame classes, zeroes long runs
of 0xFF first and starts with a handshake. Each frame is written again until it is
acknowledged or the sender gives up.
-/
namespace Defib.BootUpload
open List Words Spans BootFrames

def ackByte : Byte := 0xAA

/-- What has been written, and what the reads from here on return; `none` is a timeout, and
so is the end of the list. Input that a sender flushes before a write is not in the list. -/
structure Link where
  written : List (List Byte)
  input : List (Option Byte)
  deriving DecidableEq, Repr

/-- Frames one after the other, until one is not acknowledged. -/
def sendAll (send : List Byte → Link → Bool × Link) : List (List Byte) → Link → Bool × Link
  | [],l => (true,l)
  | f::fs,l =>
    match send f l with
    | (true,l') => sendAll send fs l'
    | (false,l') => (false,l')

section HandMade

/-- The wait for an acknowledgement, with a repetition for every `U`. -/
def waitAck (maxRetries : ℕ) (frame : List Byte) : ℕ → List (List Byte) → List (Option Byte) →
    Bool × Link
  | _,written,[] => (false,⟨written,[]⟩)
  | retries,written,r::input =>
    if maxRetries ≤ retries then (false,⟨written,r::input⟩)
    else
      match r with
      | none => (false,⟨written,input⟩)
      | some b =>
        if b = ackByte then (true,⟨written,input⟩)
        else if b = 0x55 then waitAck maxRetries frame (retries+1) (written++[frame]) input
        else waitAck maxRetries frame retries written input

def sendFrameWaitAck (maxRetries : ℕ) (frame : List Byte) (l : Link) : Bool × Link :=
  waitAck maxRetries frame 0 (l.written++[frame]) l.input

/-- The DATA frames: `idx` counts from one and `pos` goes up by the size of the piece. -/
def handMadeData (data : List Byte) : List (List Byte) :=
  ((pieces 1024 data.length).zipIdx 1).map fun p =>
    appendCrc ([0xDA,BitVec.ofNat 8 p.2,~~~BitVec.ofNat 8 p.2]++(data.drop p.1.1).take p.1.2)

def handMadeTail (total : ℕ) : List Byte :=
  let count := (total+1023)/1024+1
  appendCrc [0xED,BitVec.ofNat 8 count,~~~BitVec.ofNat 8 count]

/-- `_send_data_to_bootrom`, the same for both families; `none` is a `struct.error`. -/
def sendDataToBootrom (maxRetries : ℕ) (data : List Byte) (address : ℕ) (l : Link) :
    Option (Bool × Link) :=
  match packBe32 data.length,packBe32 address with
  | some total,some addr => some (sendAll (sendFrameWaitAck maxRetries)
      (appendCrc ([0xFE,0x00,0xFF,0x01]++total++addr)::
        (handMadeData data++[handMadeTail data.length])) l)
  | _,_ => none

def V500.sendDataToBootrom : List Byte → ℕ → Link → Option (Bool × Link) :=
  BootUpload.sendDataToBootrom 10

def CV6xx.sendDataToBootrom : List Byte → ℕ → Link → Option (Bool × Link) :=
  BootUpload.sendDataToBootrom 10

end HandMade

section Standard

/-- The reads of one attempt: bytes that are no acknowledgement are dropped. -/
def awaitAck : List (Option Byte) → Bool × List (Option Byte)
  | [] => (false,[])
  | none::input => (false,input)
  | some b::input => if b = ackByte then (true,input) else awaitAck input

def sendFrameWithRetry (retries : ℕ) (frame : List Byte) (l : Link) : Bool × Link :=
  match retries with
  | 0 => (false,l)
  | retries+1 =>
    match awaitAck l.input with
    | (true,input) => (true,⟨l.written++[frame],input⟩)
    | (false,input) => sendFrameWithRetry retries frame ⟨l.written++[frame],input⟩

structure Profile where
  ubootAddress : ℕ
  ddrStepAddress : ℕ
  prestepData : Option (List Byte)
  deriving DecidableEq, Repr

/-- `_send_frame_for_start`: the blast is repeated until an acknowledgement comes. -/
def sendFrameForStart (blast : List Byte) : List (List Byte) → List (Option Byte) → Bool × Link
  | written,[] => (false,⟨written++[blast],[]⟩)
  | written,r::input =>
    if r = some ackByte then (true,⟨written++[blast],input⟩)
    else sendFrameForStart blast (written++[blast]) input

/-- `_rehandshake`; its result is not used. -/
def rehandshake (markers : ℕ) (written : List (List Byte)) : List (Option Byte) → Link
  | [] => ⟨written,[]⟩
  | none::input => ⟨if 0 < markers then written++[[ackByte]] else written,input⟩
  | some b::input =>
    if b = 0x20 then
      if 5 ≤ markers+1 then ⟨written++[[ackByte]],input⟩
      else rehandshake (markers+1) written input
    else if b = 0x0A ∨ b = 0x0D then rehandshake markers written input
    else ⟨written,input⟩

def startUpload (p : Profile) (l : Link) : Option (Bool × Link) :=
  match p.prestepData with
  | some _ => (HeadFrame.encode ⟨64,p.ddrStepAddress⟩).map fun head =>
    sendFrameForStart (ackByte::head) l.written l.input
  | none => some (true,rehandshake 0 l.written l.input)

/-- The bytes of a run of `n` times 0xFF after `_zero_long_ff_runs`. -/
def ffRun (threshold n : ℕ) : List Byte := List.replicate n (if threshold ≤ n then 0 else 0xFF)

/-- The loop of `_zero_long_ff_runs` with the length of the current run. -/
def zeroRuns (threshold : ℕ) : ℕ → List Byte → List Byte
  | run,[] => ffRun threshold run
  | run,b::bs =>
    if b = 0xFF then zeroRuns threshold (run+1) bs
    else ffRun threshold run++b::zeroRuns threshold 0 bs

def zeroLongFfRuns (firmware : List Byte) : List Byte :=
  if firmware.tails.any (fun t => t.take 12 = List.replicate 12 0xFF) then zeroRuns 12 0 firmware
  else firmware

def maxDataLen : ℕ := 0x400

def chunkData (data : List Byte) : List (List Byte) :=
  (List.range ((data.length+maxDataLen-1)/maxDataLen)).map fun i =>
    (data.drop (i*maxDataLen)).take maxDataLen

/-- `_send_uboot`; a TAIL that is not acknowledged does not matter. -/
def sendUboot (p : Profile) (firmware : List Byte) (l : Link) : Option (Bool × Link) :=
  let firmware := zeroLongFfRuns firmware
  match startUpload p l,HeadFrame.encode ⟨firmware.length,p.ubootAddress⟩ with
  | some (true,l₁),some head =>
    let chunks := chunkData firmware
    match sendFrameWithRetry 64 head l₁ with
    | (true,l₂) =>
      match sendAll (sendFrameWithRetry 32)
          ((chunks.zipIdx 1).map fun c => DataFrame.encode ⟨c.2,c.1⟩) l₂ with
      | (true,l₃) =>
        some (true,(sendFrameWithRetry 16 (TailFrame.encode ⟨chunks.length+1⟩) l₃).2)
      | r => some r
    | r => some r
  | some (true,_),none => none
  | r,_ => r

end Standard

/-- The frames of an upload of `data` to `address`, as the decoder reads them. -/
def Upload (frames : List (List Byte)) (data : List Byte) (address : ℕ) : Prop :=
  ∃ (head : List Byte) (datas : List (List Byte)) (tail : List Byte)
      (payloads : List (List Byte)),frames = head::(datas++[tail]) ∧
    (∀ f ∈ frames,verifyCrc f = true) ∧
    HeadFrame.decode head = .ok ⟨data.length,address⟩ ∧
    datas.map DataFrame.decode = (payloads.zipIdx 1).map (fun p => .ok ⟨p.2%256,p.1⟩) ∧
    (∀ p ∈ payloads,p.length ≤ 1024) ∧
    TailFrame.decode tail = .ok ⟨(payloads.length+1)%256⟩ ∧
    tail.getD 2 0 = ~~~tail.getD 1 0 ∧
    payloads.flatten = data

/-- The frames of an upload in the given pieces. -/
def framesOf (head : List Byte) (payloads : List (List Byte)) : List (List Byte) :=
  head::((payloads.zipIdx 1).map (fun p => DataFrame.encode ⟨p.2,p.1⟩)++
    [TailFrame.encode ⟨payloads.length+1⟩])

lemma framesOf_length (head : List Byte) (payloads : List (List Byte)) :
    (framesOf head payloads).length = payloads.length+2 := by
  simp [framesOf]

lemma upload_framesOf {head : List Byte} {payloads : List (List Byte)} {address : ℕ}
    (hhead : HeadFrame.encode ⟨payloads.flatten.length,address⟩ = some head)
    (hsize : ∀ p ∈ payloads,p ≠ [] ∧ p.length ≤ 1024) :
    Upload (framesOf head payloads) payloads.flatten address := by
  obtain ⟨hdecode,hcrc⟩ := HeadFrame.decode_encode hhead
  have hmem : ∀ p ∈ payloads.zipIdx 1,p.1 ≠ [] := fun p hp =>
    (hsize p.1 (fst_mem_of_mem_zipIdx hp)).1
  have htail := TailFrame.decode_encode ⟨payloads.length+1⟩
  refine ⟨head,_,_,payloads,rfl,?_,hdecode,?_,fun p hp => (hsize p hp).2,htail.1,?_,rfl⟩
  · intro f hf
    rcases mem_cons.mp hf with rfl | hf
    · exact hcrc
    rcases mem_append.mp hf with hf | hf
    · obtain ⟨p,hp,rfl⟩ := mem_map.mp hf
      exact (DataFrame.decode_encode ⟨p.2,p.1⟩ (hmem p hp)).2
    · rw [mem_singleton.mp hf]
      exact htail.2
  · rw [map_map]
    apply map_congr_left
    intro p hp
    exact (DataFrame.decode_encode ⟨p.2,p.1⟩ (hmem p hp)).1
  · rfl

/-- Every write is answered with an acknowledgement. -/
def acks (n : ℕ) : List (Option Byte) := List.replicate n (some ackByte)

/-- A sender of single frames that takes an acknowledgement for an answer. -/
def TakesAck (send : List Byte → Link → Bool × Link) : Prop :=
  ∀ frame written rest,send frame ⟨written,some ackByte::rest⟩ = (true,⟨written++[frame],rest⟩)

lemma takesAck_waitAck : TakesAck (sendFrameWaitAck 10) := by
  intro frame written rest
  rfl

lemma takesAck_withRetry (retries : ℕ) : TakesAck (sendFrameWithRetry (retries+1)) := by
  intro frame written rest
  rfl

lemma sendAll_acks {send : List Byte → Link → Bool × Link} (hsend : TakesAck send)
    (frames written : List (List Byte)) (rest : List (Option Byte)) :
    sendAll send frames ⟨written,acks frames.length++rest⟩ = (true,⟨written++frames,rest⟩) := by
  induction frames generalizing written with
  | nil => simp [sendAll,acks]
  | cons f fs ih =>
    have hfirst : acks (f::fs).length++rest = some ackByte::(acks fs.length++rest) := rfl
    rw [hfirst,sendAll,hsend]
    dsimp only
    rw [ih,append_assoc,singleton_append]

lemma acked_frames (k₁ k₂ k₃ : ℕ) (head : List Byte) (payloads written : List (List Byte))
    (rest : List (Option Byte)) : ∃ l₁ l₂,
    sendFrameWithRetry (k₁+1) head ⟨written,acks (payloads.length+2)++rest⟩ = (true,l₁) ∧
    sendAll (sendFrameWithRetry (k₂+1))
      ((payloads.zipIdx 1).map fun c => DataFrame.encode ⟨c.2,c.1⟩) l₁ = (true,l₂) ∧
    sendFrameWithRetry (k₃+1) (TailFrame.encode ⟨payloads.length+1⟩) l₂ =
      (true,⟨written++framesOf head payloads,rest⟩) := by
  generalize hdatas : (payloads.zipIdx 1).map (fun c => DataFrame.encode ⟨c.2,c.1⟩) = datas
  have hlen : payloads.length = datas.length := by
    rw [← hdatas,length_map,length_zipIdx]
  have hinput : acks (payloads.length+2)++rest =
      some ackByte::(acks datas.length++(some ackByte::rest)) := by
    rw [hlen,acks,replicate_succ,replicate_succ',cons_append,append_assoc,
      singleton_append,acks]
  have hsend := sendAll_acks (takesAck_withRetry k₂) datas (written++[head]) (some ackByte::rest)
  rw [hinput]
  refine ⟨_,_,takesAck_withRetry k₁ head written _,hsend,?_⟩
  rw [takesAck_withRetry k₃,framesOf,hdatas]
  simp

section HandMade
variable {data : List Byte} {address : ℕ}

def handMadePayloads (data : List Byte) : List (List Byte) :=
  (pieces 1024 data.length).map fun p => (data.drop p.1).take p.2

lemma handMadePayloads_flatten (data : List Byte) : (handMadePayloads data).flatten = data := by
  have hall := spans_flatMap_list (l := fun _ => 1024) (fun _ => by decide) data 0 data.length
    (Nat.zero_add _)
  rwa [drop_zero,flatMap_def] at hall

lemma handMadePayloads_size (p : List Byte) (hp : p ∈ handMadePayloads data) :
    p ≠ [] ∧ p.length ≤ 1024 := by
  obtain ⟨s,hs,rfl⟩ := mem_map.mp hp
  obtain ⟨_,hpos,hle,hin,_⟩ := mem_pieces (by decide) hs
  have hlen : ((data.drop s.1).take s.2).length = s.2 := by
    rw [length_take,length_drop]
    omega
  refine ⟨?_,by omega⟩
  intro hnil
  rw [hnil,length_nil] at hlen
  omega

lemma handMade_framesOf (data : List Byte) (head : List Byte) :
    head::(handMadeData data++[handMadeTail data.length]) =
      framesOf head (handMadePayloads data) := by
  have hcount : (handMadePayloads data).length = (data.length+1023)/1024 := by
    rw [handMadePayloads,length_map,pieces_length (by decide)]
    omega
  rw [framesOf,hcount,handMadePayloads,zipIdx_map,map_map]
  rfl

lemma sendDataToBootrom_upload (hdata : data.length < 4294967296)
    (haddr : address < 4294967296) : ∃ frames,Upload frames data address ∧
      ∀ written rest,sendDataToBootrom 10 data address ⟨written,acks frames.length++rest⟩ =
        some (true,⟨written++frames,rest⟩) := by
  have hflat := handMadePayloads_flatten data
  have hhead : HeadFrame.encode ⟨(handMadePayloads data).flatten.length,address⟩ =
      some (appendCrc (headMagic++writeBe32 data.length++writeBe32 address)) := by
    rw [hflat]
    exact HeadFrame.encode_eq hdata haddr
  have hup := upload_framesOf hhead handMadePayloads_size
  rw [hflat] at hup
  refine ⟨_,hup,?_⟩
  intro written rest
  rw [sendDataToBootrom,packBe32,packBe32,if_pos hdata,if_pos haddr]
  dsimp only
  rw [handMade_framesOf]
  exact congrArg some (sendAll_acks takesAck_waitAck _ written rest)

end HandMade

section Standard

lemma zeroRuns_length (threshold run : ℕ) (bs : List Byte) :
    (zeroRuns threshold run bs).length = run+bs.length := by
  induction bs generalizing run with
  | nil => simp [zeroRuns,ffRun]
  | cons b bs ih =>
    rw [zeroRuns]
    split
    · rw [ih,length_cons]
      omega
    · rw [length_append,length_cons,ih,ffRun,length_replicate,length_cons]
      omega

lemma zeroLongFfRuns_length (firmware : List Byte) :
    (zeroLongFfRuns firmware).length = firmware.length := by
  rw [zeroLongFfRuns]
  split
  · rw [zeroRuns_length,Nat.zero_add]
  · rfl

lemma chunkData_eq (data : List Byte) : chunkData data = handMadePayloads data :=
  slices_eq_pieces (by decide) data

/-- What the start of an upload writes: blasts of a HEAD frame for 64 bytes, or at most
the byte that answers the boot markers. -/
def StartWrites (p : Profile) (ws : List (List Byte)) : Prop :=
  match p.prestepData with
  | some _ => ∃ head,HeadFrame.encode ⟨64,p.ddrStepAddress⟩ = some head ∧
      ws ≠ [] ∧ ∀ w ∈ ws,w = ackByte::head
  | none => ws = [] ∨ ws = [[ackByte]]

lemma sendFrameForStart_written (blast : List Byte) (written : List (List Byte))
    (input : List (Option Byte)) : ∃ ws,ws ≠ [] ∧ (∀ w ∈ ws,w = blast) ∧
      (sendFrameForStart blast written input).2.written = written++ws := by
  induction input generalizing written with
  | nil => exact ⟨[blast],by simp,by simp,rfl⟩
  | cons r input ih =>
    rw [sendFrameForStart]
    split
    · exact ⟨[blast],by simp,by simp,rfl⟩
    · obtain ⟨ws,_,hall,heq⟩ := ih (written++[blast])
      refine ⟨blast::ws,by simp,?_,?_⟩
      · rw [forall_mem_cons]
        exact ⟨rfl,hall⟩
      · rw [heq,append_assoc,singleton_append]

lemma rehandshake_written (markers : ℕ) (written : List (List Byte))
    (input : List (Option Byte)) : ∃ ws,(ws = [] ∨ ws = [[ackByte]]) ∧
      (rehandshake markers written input).written = written++ws := by
  induction input generalizing markers with
  | nil => exact ⟨[],.inl rfl,(append_nil _).symm⟩
  | cons r input ih =>
    cases r with
    | none =>
      rw [rehandshake]
      split
      · exact ⟨[[ackByte]],.inr rfl,rfl⟩
      · exact ⟨[],.inl rfl,(append_nil _).symm⟩
    | some b =>
      rw [rehandshake]
      split
      · split
        · exact ⟨[[ackByte]],.inr rfl,rfl⟩
        · exact ih (markers+1)
      · split
        · exact ih markers
        · exact ⟨[],.inl rfl,(append_nil _).symm⟩

lemma startUpload_written {p : Profile} {l l' : Link} {ok : Bool}
    (h : startUpload p l = some (ok,l')) : ∃ ws,StartWrites p ws ∧ l'.written = l.written++ws := by
  rw [startUpload] at h
  simp only [StartWrites]
  cases hp : p.prestepData with
  | some prestep =>
    simp only [hp] at h
    obtain ⟨head,hhead,heq⟩ := Option.map_eq_some_iff.mp h
    obtain ⟨ws,hne,hall,hws⟩ := sendFrameForStart_written (ackByte::head) l.written l.input
    rw [heq] at hws
    exact ⟨ws,⟨head,hhead,hne,hall⟩,hws⟩
  | none =>
    simp only [hp] at h
    cases h
    exact rehandshake_written 0 l.written l.input

lemma sendUboot_acked {p : Profile} {firmware head : List Byte} {l l' : Link}
    {rest : List (Option Byte)}
    (hhead : HeadFrame.encode ⟨(zeroLongFfRuns firmware).length,p.ubootAddress⟩ = some head)
    (hstart : startUpload p l = some (true,l'))
    (hinput : l'.input = acks ((chunkData (zeroLongFfRuns firmware)).length+2)++rest) :
    sendUboot p firmware l =
      some (true,⟨l'.written++framesOf head (chunkData (zeroLongFfRuns firmware)),rest⟩) := by
  generalize himage : zeroLongFfRuns firmware = image at *
  obtain ⟨written,input⟩ := l'
  dsimp only at hinput
  obtain ⟨l₁,l₂,hsent₁,hsent₂,hsent₃⟩ :=
    acked_frames 63 31 15 head (chunkData image) written rest
  simp only [sendUboot,himage,hstart,hhead,hinput,hsent₁,hsent₂,hsent₃]

lemma sendUboot_upload {p : Profile} {firmware : List Byte}
    (hdata : firmware.length < 4294967296) (haddr : p.ubootAddress < 4294967296) :
    ∃ frames,Upload frames (zeroLongFfRuns firmware) p.ubootAddress ∧
      ∀ l l' rest,startUpload p l = some (true,l') → l'.input = acks frames.length++rest →
        sendUboot p firmware l = some (true,⟨l'.written++frames,rest⟩) := by
  rw [← zeroLongFfRuns_length] at hdata
  obtain ⟨head,hhead⟩ : ∃ head,
      HeadFrame.encode ⟨(zeroLongFfRuns firmware).length,p.ubootAddress⟩ = some head :=
    ⟨_,HeadFrame.encode_eq hdata haddr⟩
  have hflat : (chunkData (zeroLongFfRuns firmware)).flatten = zeroLongFfRuns firmware := by
    rw [chunkData_eq,handMadePayloads_flatten]
  have hup : Upload (framesOf head (chunkData (zeroLongFfRuns firmware)))
      (chunkData (zeroLongFfRuns firmware)).flatten p.ubootAddress := by
    apply upload_framesOf
    · rwa [hflat]
    · rw [chunkData_eq]
      exact handMadePayloads_size
  rw [hflat] at hup
  refine ⟨_,hup,?_⟩
  intro l l' rest hstart hinput
  rw [framesOf_length] at hinput
  exact sendUboot_acked hhead hstart hinput

end Standard

/-- With every frame acknowledged, the three senders write the frames of the upload; the
standard one writes them after the start of the upload. -/
theorem uploads_decode {data : List Byte} (hdata : data.length < 4294967296) {address : ℕ}
    (haddr : address < 4294967296) :
    (∃ frames,Upload frames data address ∧ ∀ written rest,
      V500.sendDataToBootrom data address ⟨written,acks frames.length++rest⟩ =
        some (true,⟨written++frames,rest⟩)) ∧
    (∃ frames,Upload frames data address ∧ ∀ written rest,
      CV6xx.sendDataToBootrom data address ⟨written,acks frames.length++rest⟩ =
        some (true,⟨written++frames,rest⟩)) ∧
    ∀ p : Profile,p.ubootAddress = address →
      ∃ frames,Upload frames (zeroLongFfRuns data) address ∧
        ∀ l l' rest,startUpload p l = some (true,l') → l'.input = acks frames.length++rest →
          ∃ ws,StartWrites p ws ∧
            sendUboot p data l = some (true,⟨l.written++ws++frames,rest⟩) := by
  have hmade := sendDataToBootrom_upload hdata haddr
  refine ⟨hmade,hmade,?_⟩
  intro p hp
  obtain ⟨frames,hup,hsend⟩ := sendUboot_upload (p := p) hdata (by rwa [hp])
  rw [hp] at hup
  refine ⟨frames,hup,?_⟩
  intro l l' rest hstart hinput
  obtain ⟨ws,hws,hwritten⟩ := startUpload_written hstart
  refine ⟨ws,hws,?_⟩
  rw [hsend l l' rest hstart hinput,hwritten]

/-- Two bytes to the usual load address. -/
theorem two_bytes_upload : ∃ frames,Upload frames [0x12,0x34] 0x81000000 ∧ ∀ written rest,
    V500.sendDataToBootrom [0x12,0x34] 0x81000000 ⟨written,acks frames.length++rest⟩ =
      some (true,⟨written++frames,rest⟩) :=
  (uploads_decode (by decide) (by decide)).1

/-- A chip that is started with HEAD frames for its DDR step. -/
def blastProfile : Profile := ⟨0x81000000,0x04013000,some [0]⟩

/-- The frame in a write, without the byte a blast puts before it. -/
def frameIn (w : List Byte) : List Byte := if w.head? = some ackByte then w.tail else w

def blastWrites : List (List Byte) :=
  ((sendUboot blastProfile [0x12,0x34] ⟨[],acks 4⟩).map (·.2.written)).getD []

/-- The blast that starts the upload is a HEAD frame of its own, for 64 bytes that do not
follow. -/
theorem blast_precedes_head :
    (sendUboot blastProfile [0x12,0x34] ⟨[],acks 4⟩).map (·.1) = some true ∧
    ¬ Upload (blastWrites.map frameIn) [0x12,0x34] 0x81000000 := by
  refine ⟨by decide +kernel,?_⟩
  rintro ⟨head,datas,tail,payloads,hframes,-,hhead,-⟩
  have hfirst : (blastWrites.map frameIn).head? = some head := by rw [hframes]; rfl
  have hdecode : ((blastWrites.map frameIn).head?.map HeadFrame.decode) =
      some (.ok ⟨64,0x04013000⟩) := by decide +kernel
  rw [hfirst,Option.map_some,hhead] at hdecode
  revert hdecode
  decide

end Defib.BootUpload
