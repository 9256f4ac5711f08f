import Defib.BootUpload
import Defib.Endian
import Defib.FfRuns
import Defib.SplSize

/-!
# Uploads from the host and from the rack

`send_firmware` of the host sends the DDR steps, the SPL and a second stage to the boot ROM
frame by frame. `run_rack_fastboot` packs the same parts into a blob of length-prefixed fields,
and a pod next to the board sends them. Both cut the SPL out of the firmware image themselves.
-/
namespace Defib.RackFastboot
open List Option Words Endian BootFrames BootUpload

/-- A profile of a chip that is recovered over UART, without an SPL of its own. -/
structure UartProfile extends Profile where
  splAddress : ℕ
  splMaxSize : ℕ
  splSramLimit : Option ℕ
  ddrStepData : List Byte
  prestep1Data : Option (List Byte)
  deriving DecidableEq, Repr

def ljust (data : List Byte) (n : ℕ) : List Byte := data++List.replicate (n-data.length) 0

def UartProfile.detect (p : UartProfile) (buf : List Byte) : Option ℕ :=
  (SplSize.detectSplSize buf p.splMaxSize p.splSramLimit).toOption

section Host

/-- Stages one after the other, until one fails; `none` is an exception. -/
def andThen (x : Option (Bool × Link)) (f : Link → Option (Bool × Link)) : Option (Bool × Link) :=
  match x with
  | some (true,l) => f l
  | r => r

/-- HEAD, one DATA frame and TAIL of a DDR step; the TAIL need not be acknowledged. -/
def sendStep (address length : ℕ) (data : List Byte) (l : Link) : Option (Bool × Link) :=
  match HeadFrame.encode ⟨length,address⟩ with
  | none => none
  | some head =>
    match sendFrameWithRetry 16 head l with
    | (true,l₁) =>
      match sendFrameWithRetry 32 (DataFrame.encode ⟨1,data⟩) l₁ with
      | (true,l₂) => some (true,(sendFrameWithRetry 16 (TailFrame.encode ⟨2⟩) l₂).2)
      | r => some r
    | r => some r

def sendDdrStep (p : UartProfile) (l : Link) : Option (Bool × Link) :=
  let address := p.ddrStepAddress
  let prestep : Option (Bool × Link) :=
    match p.prestepData with
    | some data => andThen (startUpload p.toProfile l) (sendStep address 64 data)
    | none => some (true,l)
  andThen (andThen prestep (sendStep address 64 p.ddrStepData)) fun l =>
    match p.prestep1Data with
    | some data => sendStep address data.length data l
    | none => some (true,l)

/-- The size and the bytes `_send_spl` sends; `none` is an exception. -/
def splImage (p : UartProfile) (firmware : List Byte) (splOverride : Option (List Byte)) :
    Option (ℕ × List Byte) :=
  (p.detect (splOverride.getD firmware)).map fun detected =>
    let size :=
      match splOverride with
      | some o => if o.length < detected then o.length else detected
      | none => detected
    let data :=
      match splOverride with
      | some o => ljust (o.take size) size
      | none => firmware.take size
    (size,zeroLongFfRuns data)

/-- The TAIL of the SPL must be acknowledged unless there is a pre-step. -/
def sendSplTail (p : UartProfile) (seq : ℕ) (l : Link) : Bool × Link :=
  let r := sendFrameWithRetry 16 (TailFrame.encode ⟨seq⟩) l
  (r.1 || p.prestepData.isSome,r.2)

def sendSplFrames (p : UartProfile) (head : List Byte) (chunks : List (List Byte)) (l : Link) :
    Bool × Link :=
  match sendFrameWithRetry 16 head l with
  | (true,l₁) =>
    match sendAll (sendFrameWithRetry 32)
        ((chunks.zipIdx 1).map fun c => DataFrame.encode ⟨c.2,c.1⟩) l₁ with
    | (true,l₂) => sendSplTail p (chunks.length+1) l₂
    | r => r
  | r => r

def sendSpl (p : UartProfile) (firmware : List Byte) (splOverride : Option (List Byte)) (l : Link) :
    Option (Bool × Link) :=
  match splImage p firmware splOverride with
  | none => none
  | some (size,data) => (HeadFrame.encode ⟨size,p.splAddress⟩).map fun head =>
    sendSplFrames p head (chunkData data) l

/-- What was written in the SPL stage and in the second one. -/
structure Sent where
  spl : List (List Byte)
  uboot : List (List Byte)
  deriving DecidableEq, Repr

/-- The outer `none` is an exception, the inner one a result without success. -/
def sendFirmware (p : UartProfile) (firmware : List Byte) (splOverride : Option (List Byte))
    (input : List (Option Byte)) : Option (Option Sent) :=
  match sendDdrStep p ⟨[],input⟩ with
  | none => none
  | some (false,_) => some none
  | some (true,l) =>
    let l₁ := rehandshake 0 l.written l.input
    match sendSpl p firmware splOverride l₁ with
    | none => none
    | some (false,_) => some none
    | some (true,l₂) =>
      match sendUboot p.toProfile firmware l₂ with
      | none => none
      | some (false,_) => some none
      | some (true,l₃) =>
        some (some ⟨l₂.written.drop l₁.written.length,l₃.written.drop l₂.written.length⟩)

/-- The payloads of the DATA frames among the writes. -/
def dataPayloads (writes : List (List Byte)) : List Byte :=
  (writes.filterMap fun w => (DataFrame.decode w).toOption.map DataFrame.payload).flatten

end Host

section Rack

/-- `int.to_bytes`, most significant byte first; `none` is an `OverflowError`. -/
def toBytes (k v : ℕ) : Option (List Byte) := if v < 256^k then some (toBe k v) else none

def prefixed (k : ℕ) (data : List Byte) : Option (List Byte) :=
  (toBytes k data.length).map (·++data)

/-- The blob of `RackController.fastboot`. -/
def fastboot (splAddress ddrStepAddress ubootAddress : ℕ) (prestep0 ddrstep0 : List Byte)
    (prestep1 : Option (List Byte)) (spl agent : List Byte) : Option (List Byte) := do
  let a ← toBytes 4 splAddress
  let b ← toBytes 4 ddrStepAddress
  let c ← toBytes 4 ubootAddress
  let s₀ ← prefixed 2 prestep0
  let s ← prefixed 2 ddrstep0
  let s₁ ← prefixed 2 (prestep1.getD [])
  let image ← prefixed 4 spl
  let second ← prefixed 4 agent
  return a++(b++(c++(s₀++(s++(s₁++(image++second))))))

def runRackFastboot (p : UartProfile) (firmware : List Byte) (agentPayload : Option (List Byte)) :
    Option (List Byte) := do
  let splSize ← p.detect (agentPayload.getD firmware)
  let splBytes := zeroLongFfRuns (ljust (firmware.take splSize) splSize)
  fastboot p.splAddress p.ddrStepAddress p.ubootAddress (p.prestepData.getD []) p.ddrStepData
    p.prestep1Data splBytes (agentPayload.getD firmware)

/-- A length-prefixed field, and what comes after it. -/
def takeField (k : ℕ) (bytes : List Byte) : List Byte × List Byte :=
  (bytes.drop k).splitAt (ofBe (bytes.take k))

/-- The SPL and the second stage in a blob. -/
def readBlob (blob : List Byte) : List Byte × List Byte :=
  let steps := (takeField 2 (takeField 2 (takeField 2 (blob.drop 12)).2).2).2
  let (spl,rest) := takeField 4 steps
  (spl,(takeField 4 rest).1)

end Rack

section Blob

lemma toBytes_eq_some {k v : ℕ} {bs : List Byte} (h : toBytes k v = some bs) :
    v < 256^k ∧ bs = toBe k v := by
  rw [toBytes] at h
  split at h
  next hv => exact ⟨hv,(Option.some.inj h).symm⟩
  next => cases h

lemma toBytes_isSome_iff (k v : ℕ) : (toBytes k v).isSome = true ↔ v < 256^k := by
  rw [toBytes]
  split
  next h => exact ⟨fun _ => h,fun _ => rfl⟩
  next h => exact ⟨nofun,fun hv => absurd hv h⟩

lemma prefixed_isSome_iff (k : ℕ) (data : List Byte) :
    (prefixed k data).isSome = true ↔ data.length < 256^k := by
  rw [prefixed,isSome_map,toBytes_isSome_iff]

lemma takeField_prefixed {k : ℕ} {data bs : List Byte} (h : prefixed k data = some bs)
    (rest : List Byte) : takeField k (bs++rest) = (data,rest) := by
  obtain ⟨len,hlen,rfl⟩ := map_eq_some_iff.mp h
  obtain ⟨hlt,rfl⟩ := toBytes_eq_some hlen
  rw [takeField,append_assoc,drop_left' (toBe_length _ _),
    take_left' (toBe_length _ _),ofBe_toBe hlt,splitAt_eq,take_left,drop_left]

/-- What the addresses and the step data of a profile must fit into. -/
structure UartProfile.Packable (p : UartProfile) : Prop where
  splAddress : p.splAddress < 4294967296
  ddrStepAddress : p.ddrStepAddress < 4294967296
  ubootAddress : p.ubootAddress < 4294967296
  prestep0 : (p.prestepData.getD []).length < 65536
  ddrstep0 : p.ddrStepData.length < 65536
  prestep1 : (p.prestep1Data.getD []).length < 65536

lemma readBlob_eq {a b c s₀ s s₁ image second : List Byte}
    {prestep0 ddrstep0 prestep1 spl agent : List Byte}
    (habc : (a++(b++c)).length = 12) (h₀ : prefixed 2 prestep0 = some s₀)
    (h : prefixed 2 ddrstep0 = some s) (h₁ : prefixed 2 prestep1 = some s₁)
    (himage : prefixed 4 spl = some image) (hsecond : prefixed 4 agent = some second) :
    readBlob (a++(b++(c++(s₀++(s++(s₁++(image++second))))))) = (spl,agent) := by
  have hdrop : (a++(b++(c++(s₀++(s++(s₁++(image++second))))))).drop 12 =
      s₀++(s++(s₁++(image++second))) := by
    rw [← append_assoc b,← append_assoc a]
    exact drop_left' habc
  have hlast : takeField 4 second = (agent,[]) := by
    rw [← append_nil second]
    exact takeField_prefixed hsecond []
  simp only [readBlob,hdrop,takeField_prefixed h₀,takeField_prefixed h,takeField_prefixed h₁,
    takeField_prefixed himage,hlast]

lemma fastboot_spec (p : UartProfile) (spl agent : List Byte) (x : List Byte × List Byte) :
    ((fastboot p.splAddress p.ddrStepAddress p.ubootAddress (p.prestepData.getD []) p.ddrStepData
      p.prestep1Data spl agent).map readBlob = some x) ↔
      p.Packable ∧ spl.length < 4294967296 ∧ agent.length < 4294967296 ∧ x = (spl,agent) := by
  have hsome : ∀ {k v : ℕ},v < 256^k → toBytes k v = some (toBe k v) := fun h => if_pos h
  have hfield : ∀ {k : ℕ} {data : List Byte},data.length < 256^k →
      prefixed k data = some (toBe k data.length++data) := by
    intro k data h
    rw [prefixed,hsome h,map_some]
  have hshort : ∀ {k : ℕ} {data bs : List Byte},prefixed k data = some bs →
      data.length < 256^k := by
    intro k data bs h
    rw [← prefixed_isSome_iff,h,isSome_some]
  constructor
  · intro h
    obtain ⟨blob,hblob,rfl⟩ := map_eq_some_iff.mp h
    simp only [fastboot,bind_eq_bind,bind_eq_some_iff,Option.pure_def,
      Option.some.injEq] at hblob
    obtain ⟨a,ha,b,hb,c,hc,s₀,h₀,s,hs,s₁,h₁,image,himage,second,hsecond,rfl⟩ := hblob
    obtain ⟨haddr₁,rfl⟩ := toBytes_eq_some ha
    obtain ⟨haddr₂,rfl⟩ := toBytes_eq_some hb
    obtain ⟨haddr₃,rfl⟩ := toBytes_eq_some hc
    refine ⟨⟨haddr₁,haddr₂,haddr₃,hshort h₀,hshort hs,hshort h₁⟩,hshort himage,hshort hsecond,?_⟩
    exact readBlob_eq (by simp) h₀ hs h₁ himage hsecond
  · rintro ⟨hp,hspl,hagent,rfl⟩
    have hblob := readBlob_eq (a := toBe 4 p.splAddress) (b := toBe 4 p.ddrStepAddress)
      (c := toBe 4 p.ubootAddress) (by simp) (hfield hp.prestep0) (hfield hp.ddrstep0)
      (hfield hp.prestep1) (hfield hspl) (hfield hagent)
    rw [fastboot,hsome hp.splAddress,hsome hp.ddrStepAddress,hsome hp.ubootAddress,
      hfield hp.prestep0,hfield hp.ddrstep0,hfield hp.prestep1,hfield hspl,hfield hagent]
    exact congrArg some hblob

lemma ljust_take_length (firmware : List Byte) (n : ℕ) :
    (zeroLongFfRuns (ljust (firmware.take n) n)).length = n := by
  rw [zeroLongFfRuns_length,ljust,length_append,length_replicate,length_take]
  omega

lemma rack_spec (p : UartProfile) (firmware : List Byte) (agentPayload : Option (List Byte))
    (spl second : List Byte) :
    (runRackFastboot p firmware agentPayload).map readBlob = some (spl,second) ↔
      p.Packable ∧ second.length < 4294967296 ∧ second = agentPayload.getD firmware ∧
        ∃ n,p.detect (agentPayload.getD firmware) = some n ∧ n < 4294967296 ∧
          spl = zeroLongFfRuns (ljust (firmware.take n) n) := by
  rw [runRackFastboot]
  cases hdetect : p.detect (agentPayload.getD firmware) with
  | none => simp
  | some n =>
    rw [bind_eq_bind,bind_some,fastboot_spec,ljust_take_length]
    simp only [Option.some.injEq,Prod.mk.injEq]
    constructor
    · rintro ⟨hp,hn,hagent,rfl,rfl⟩
      exact ⟨hp,hagent,rfl,n,rfl,hn,rfl⟩
    · rintro ⟨hp,hagent,rfl,m,rfl,hn,rfl⟩
      exact ⟨hp,hn,hagent,rfl,rfl⟩

end Blob

section Frames

lemma decode_other {w : List Byte} (h : w.getD 0 0 ≠ dataMagic) :
    (DataFrame.decode w).toOption = none := by
  rw [DataFrame.decode]
  by_cases hlen : w.length < 6
  · rw [if_pos hlen]
    rfl
  · rw [if_neg hlen,if_pos h]
    rfl

lemma dataPayloads_append (xs ys : List (List Byte)) :
    dataPayloads (xs++ys) = dataPayloads xs++dataPayloads ys := by
  rw [dataPayloads,filterMap_append,flatten_append]
  rfl

lemma dataPayloads_other {ws : List (List Byte)} (h : ∀ w ∈ ws,w.getD 0 0 ≠ dataMagic) :
    dataPayloads ws = [] := by
  rw [dataPayloads,filterMap_eq_nil_iff.mpr]
  · rfl
  · intro w hw
    rw [decode_other (h w hw),map_none]

lemma dataPayloads_data (payloads : List (List Byte)) (hne : ∀ p ∈ payloads,p ≠ []) (k : ℕ) :
    dataPayloads ((payloads.zipIdx k).map fun c => DataFrame.encode ⟨c.2,c.1⟩) =
      payloads.flatten := by
  induction payloads generalizing k with
  | nil => rfl
  | cons p payloads ih =>
    rw [forall_mem_cons] at hne
    have hdecode := (DataFrame.decode_encode ⟨k,p⟩ hne.1).1
    have hrest := ih hne.2 (k+1)
    rw [dataPayloads] at hrest ⊢
    rw [zipIdx_cons,map_cons,filterMap_cons,hdecode]
    exact congrArg (p++·) hrest

lemma head_first {h : HeadFrame} {head : List Byte} (hhead : HeadFrame.encode h = some head) :
    head.getD 0 0 ≠ dataMagic := by
  rw [HeadFrame.encode] at hhead
  split at hhead
  · obtain rfl := Option.some.inj hhead
    exact (by decide : (0xFE : Byte) ≠ dataMagic)
  · cases hhead

lemma dataPayloads_framesOf {h : HeadFrame} {head : List Byte}
    (hhead : HeadFrame.encode h = some head) {payloads : List (List Byte)}
    (hne : ∀ p ∈ payloads,p ≠ []) : dataPayloads (framesOf head payloads) = payloads.flatten := by
  have htail : dataPayloads [TailFrame.encode ⟨payloads.length+1⟩] = [] :=
    dataPayloads_other (by
      rw [forall_mem_singleton]
      exact (by decide : (0xED : Byte) ≠ dataMagic))
  have hfirst : dataPayloads [head] = [] :=
    dataPayloads_other (by rw [forall_mem_singleton]; exact head_first hhead)
  rw [framesOf,← singleton_append,dataPayloads_append,dataPayloads_append,htail,hfirst,
    dataPayloads_data payloads hne,nil_append,append_nil]

lemma dataPayloads_start {p : Profile} {ws : List (List Byte)} (h : StartWrites p ws) :
    dataPayloads ws = [] := by
  have hack : ackByte ≠ dataMagic := by decide
  apply dataPayloads_other
  intro w hw
  rw [StartWrites] at h
  split at h
  · obtain ⟨head,_,_,hall⟩ := h
    rw [hall w hw]
    exact hack
  · rcases h with rfl | rfl
    · cases hw
    · rw [mem_singleton.mp hw]
      exact hack

lemma chunkData_flatten (data : List Byte) : (chunkData data).flatten = data := by
  rw [chunkData_eq,handMadePayloads_flatten]

lemma chunkData_ne_nil {data c : List Byte} (h : c ∈ chunkData data) : c ≠ [] := by
  rw [chunkData_eq] at h
  exact (handMadePayloads_size c h).1

end Frames

section Acknowledged
variable (p : UartProfile)

/-- Input with which the DDR steps are acknowledged. -/
def DdrAcked (d : List (Option Byte)) : Prop :=
  ∀ x,∃ written,sendDdrStep p ⟨[],d++x⟩ = some (true,⟨written,x⟩)

/-- Input that the handshake before the SPL takes. -/
def Passes (r : List (Option Byte)) : Prop :=
  ∀ written x,∃ written',rehandshake 0 written (r++x) = ⟨written',x⟩

/-- Input with which the second stage is started. -/
def Started (b : List (Option Byte)) : Prop :=
  ∀ written x,∃ written',startUpload p.toProfile ⟨written,b++x⟩ = some (true,⟨written',x⟩)

def splFrames (firmware : List Byte) (splOverride : Option (List Byte)) : ℕ :=
  ((splImage p firmware splOverride).map fun x => (chunkData x.2).length+2).getD 0

def ubootFrames (firmware : List Byte) : ℕ := (chunkData (zeroLongFfRuns firmware)).length+2

/-- Input with which every frame of `send_firmware` is acknowledged. -/
def Acked (firmware : List Byte) (splOverride : Option (List Byte)) (input : List (Option Byte)) :
    Prop :=
  ∃ d r b rest,DdrAcked p d ∧ Passes r ∧ Started p b ∧
    input = d++(r++(acks (splFrames p firmware splOverride)++
      (b++(acks (ubootFrames firmware)++rest))))

variable {p}

lemma encode_none {h : HeadFrame} (hbad : ¬(h.length < 4294967296 ∧ h.address < 4294967296)) :
    HeadFrame.encode h = none := by
  rw [HeadFrame.encode,packBe32,packBe32]
  by_cases hl : h.length < 4294967296
  · have ha : ¬h.address < 4294967296 := fun ha => hbad ⟨hl,ha⟩
    rw [if_pos hl,if_neg ha]
  · rw [if_neg hl]

lemma sendSpl_acked {firmware data : List Byte} {splOverride : Option (List Byte)} {size : ℕ}
    (himage : splImage p firmware splOverride = some (size,data)) (hsize : size < 4294967296)
    (haddr : p.splAddress < 4294967296) :
    ∃ frames,dataPayloads frames = data ∧ ∀ written rest,
      sendSpl p firmware splOverride ⟨written,acks (splFrames p firmware splOverride)++rest⟩ =
        some (true,⟨written++frames,rest⟩) := by
  obtain ⟨head,hhead⟩ : ∃ head,HeadFrame.encode ⟨size,p.splAddress⟩ = some head :=
    ⟨_,HeadFrame.encode_eq hsize haddr⟩
  have hcount : splFrames p firmware splOverride = (chunkData data).length+2 := by
    rw [splFrames,himage]
    rfl
  refine ⟨framesOf head (chunkData data),?_,fun written rest => ?_⟩
  · rw [dataPayloads_framesOf hhead fun _ => chunkData_ne_nil,chunkData_flatten]
  · obtain ⟨l₁,l₂,hsent₁,hsent₂,hsent₃⟩ := acked_frames 15 31 15 head (chunkData data) written rest
    have hframes : sendSplFrames p head (chunkData data)
        ⟨written,acks ((chunkData data).length+2)++rest⟩ =
          (true,⟨written++framesOf head (chunkData data),rest⟩) := by
      simp only [sendSplFrames,sendSplTail,hsent₁,hsent₂,hsent₃,Bool.true_or]
    rw [sendSpl,himage,hcount]
    dsimp only
    rw [hhead,map_some,hframes]

lemma sendFirmware_acked {firmware data : List Byte} {splOverride : Option (List Byte)} {size : ℕ}
    {input : List (Option Byte)} (hp : p.Packable)
    (himage : splImage p firmware splOverride = some (size,data)) (hsize : size < 4294967296)
    (hfirmware : firmware.length < 4294967296) (h : Acked p firmware splOverride input) :
    ∃ sent,sendFirmware p firmware splOverride input = some (some sent) ∧
      dataPayloads sent.spl = data ∧ dataPayloads sent.uboot = zeroLongFfRuns firmware := by
  obtain ⟨d,r,b,rest,hd,hr,hb,rfl⟩ := h
  obtain ⟨frames,hframes,hspl⟩ := sendSpl_acked himage hsize hp.splAddress
  obtain ⟨written,hddr⟩ := hd (r++(acks (splFrames p firmware splOverride)++
    (b++(acks (ubootFrames firmware)++rest))))
  obtain ⟨written₁,hpass⟩ := hr written (acks (splFrames p firmware splOverride)++
    (b++(acks (ubootFrames firmware)++rest)))
  obtain ⟨written₂,hstart⟩ := hb (written₁++frames) (acks (ubootFrames firmware)++rest)
  obtain ⟨ws,hws,hwritten⟩ := startUpload_written hstart
  rw [← zeroLongFfRuns_length] at hfirmware
  obtain ⟨head,hhead⟩ : ∃ head,
      HeadFrame.encode ⟨(zeroLongFfRuns firmware).length,p.ubootAddress⟩ = some head :=
    ⟨_,HeadFrame.encode_eq hfirmware hp.ubootAddress⟩
  have huboot := sendUboot_acked hhead hstart rfl
  dsimp only at hwritten huboot
  simp only [sendFirmware,hddr,hpass,hspl,huboot]
  refine ⟨_,rfl,?_,?_⟩
  · rw [drop_left]
    exact hframes
  · dsimp only
    rw [hwritten,append_assoc,drop_left,dataPayloads_append,dataPayloads_start hws,
      dataPayloads_framesOf hhead fun _ => chunkData_ne_nil,chunkData_flatten,nil_append]

lemma sendFirmware_image {firmware : List Byte} {splOverride : Option (List Byte)}
    {input : List (Option Byte)} {sent : Sent}
    (h : sendFirmware p firmware splOverride input = some (some sent)) :
    ∃ size data,splImage p firmware splOverride = some (size,data) ∧ size < 4294967296 := by
  have hsent : ∃ l,(sendSpl p firmware splOverride l).isSome := by
    rw [sendFirmware] at h
    split at h
    · cases h
    · cases h
    next l _ =>
      refine ⟨rehandshake 0 l.written l.input,?_⟩
      dsimp only at h
      split at h
      · cases h
      next hspl => rw [hspl]; rfl
      next hspl => rw [hspl]; rfl
  obtain ⟨l,hsome⟩ := hsent
  rw [sendSpl] at hsome
  split at hsome
  · cases hsome
  next size data himage =>
    refine ⟨size,data,himage,?_⟩
    by_contra hsize
    rw [encode_none fun hfit => hsize hfit.1] at hsome
    cases hsome

lemma sendStep_acked {address length : ℕ} (data : List Byte) (haddr : address < 4294967296)
    (hlength : length < 4294967296) (written : List (List Byte)) (x : List (Option Byte)) :
    ∃ written',sendStep address length data ⟨written,acks 3++x⟩ = some (true,⟨written',x⟩) := by
  obtain ⟨head,hhead⟩ : ∃ head,HeadFrame.encode ⟨length,address⟩ = some head :=
    ⟨_,HeadFrame.encode_eq hlength haddr⟩
  have hinput : acks 3++x = some ackByte::some ackByte::some ackByte::x := rfl
  rw [hinput]
  simp only [sendStep,hhead,takesAck_withRetry 15 _ _ _,takesAck_withRetry 31 _ _ _]
  exact ⟨_,rfl⟩

lemma started_exists (hp : p.Packable) : ∃ b,Started p b := by
  cases hstep : p.prestepData with
  | none =>
    refine ⟨[none],fun written x => ⟨written,?_⟩⟩
    simp only [startUpload,hstep]
    rfl
  | some data =>
    obtain ⟨head,hhead⟩ : ∃ head,HeadFrame.encode ⟨64,p.ddrStepAddress⟩ = some head :=
      ⟨_,HeadFrame.encode_eq (show 64 < 4294967296 by decide) hp.ddrStepAddress⟩
    refine ⟨[some ackByte],fun written x => ⟨written++[ackByte::head],?_⟩⟩
    simp only [startUpload,hstep,hhead,map_some]
    rfl

lemma ddrAcked_exists (hp : p.Packable) : ∃ d,DdrAcked p d := by
  have hstep : ∀ data written x,∃ written',
      sendStep p.ddrStepAddress 64 data ⟨written,acks 3++x⟩ =
        some (true,⟨written',x⟩) := fun data =>
    sendStep_acked data hp.ddrStepAddress (by decide)
  -- the three stages one after the other, each with the input it takes
  obtain ⟨d₀,h₀⟩ : ∃ d₀ : List (Option Byte),∀ x,∃ written,
      (match p.prestepData with
        | some data => andThen (startUpload p.toProfile ⟨[],d₀++x⟩)
            (sendStep p.ddrStepAddress 64 data)
        | none => some (true,⟨[],d₀++x⟩)) = some (true,⟨written,x⟩) := by
    obtain ⟨b,hb⟩ := started_exists hp
    cases p.prestepData with
    | none => exact ⟨[],fun x => ⟨[],rfl⟩⟩
    | some data =>
      refine ⟨b++acks 3,fun x => ?_⟩
      obtain ⟨written,hstart⟩ := hb [] (acks 3++x)
      obtain ⟨written',hsent⟩ := hstep data written x
      refine ⟨written',?_⟩
      rw [append_assoc,hstart]
      exact hsent
  obtain ⟨d₁,h₁⟩ : ∃ d₁ : List (Option Byte),∀ written x,∃ written',
      (match p.prestep1Data with
        | some data => sendStep p.ddrStepAddress data.length data ⟨written,d₁++x⟩
        | none => some (true,⟨written,d₁++x⟩)) = some (true,⟨written',x⟩) := by
    have hlength := hp.prestep1
    cases hdata : p.prestep1Data with
    | none => exact ⟨[],fun written x => ⟨written,rfl⟩⟩
    | some data =>
      rw [hdata,getD_some] at hlength
      exact ⟨acks 3,sendStep_acked data hp.ddrStepAddress (by omega)⟩
  refine ⟨d₀++(acks 3++d₁),fun x => ?_⟩
  obtain ⟨written₀,hsent₀⟩ := h₀ (acks 3++(d₁++x))
  obtain ⟨written,hsent⟩ := hstep p.ddrStepData written₀ (d₁++x)
  obtain ⟨written₁,hsent₁⟩ := h₁ written x
  refine ⟨written₁,?_⟩
  rw [sendDdrStep,append_assoc,append_assoc,hsent₀,andThen,hsent,andThen]
  exact hsent₁

lemma acked_exists (hp : p.Packable) (firmware : List Byte) (splOverride : Option (List Byte)) :
    ∃ input,Acked p firmware splOverride input := by
  obtain ⟨d,hd⟩ := ddrAcked_exists hp
  obtain ⟨b,hb⟩ := started_exists hp
  exact ⟨_,d,[none],b,[],hd,fun written x => ⟨written,rfl⟩,hb,rfl⟩

end Acknowledged

section Agreement
variable (p : UartProfile) (firmware : List Byte) (agentPayload : Option (List Byte))

/-- The rack packs what the host sends when every frame is acknowledged. -/
def SameBytes : Prop :=
  ∃ spl second,(runRackFastboot p firmware agentPayload).map readBlob = some (spl,second) ∧
    ∀ input,Acked p (agentPayload.getD firmware) (agentPayload.map fun _ => firmware) input →
      ∃ sent,sendFirmware p (agentPayload.getD firmware)
        (agentPayload.map fun _ => firmware) input =
          some (some sent) ∧
        dataPayloads sent.spl = spl ∧ dataPayloads sent.uboot = second

/-- The sizes the two sides find lead to the same piece of the firmware. -/
def SameSize : Prop :=
  match agentPayload with
  | none => ∃ n,p.detect firmware = some n ∧ n ≤ firmware.length
  | some agent => ∃ n m,p.detect agent = some n ∧ p.detect firmware = some m ∧
      n = min m firmware.length ∧ n < 4294967296

/-- The condition under which both sides send the same. -/
structure Alike : Prop where
  packable : p.Packable
  fits : (agentPayload.getD firmware).length < 4294967296
  noRuns : ¬List.replicate 12 0xFF <:+: agentPayload.getD firmware
  size : SameSize p firmware agentPayload

end Agreement

section Agreement
variable {p : UartProfile} {firmware : List Byte} {agentPayload : Option (List Byte)}

lemma ljust_take_of_le {n : ℕ} (h : n ≤ firmware.length) :
    ljust (firmware.take n) n = firmware.take n := by
  rw [ljust,length_take,Nat.min_eq_left h,Nat.sub_self,replicate_zero,append_nil]

lemma splImage_none : splImage p firmware none =
    (p.detect firmware).map fun n => (n,zeroLongFfRuns (firmware.take n)) := rfl

lemma splImage_override (agent : List Byte) : splImage p agent (some firmware) =
    (p.detect firmware).map fun m => (min m firmware.length,
      zeroLongFfRuns (ljust (firmware.take (min m firmware.length)) (min m firmware.length))) := by
  have hsize : ∀ m,(if firmware.length < m then firmware.length else m) =
      min m firmware.length := by
    intro m
    rw [Nat.min_def]
    split <;> split <;> omega
  simp only [splImage,getD_some,hsize]

lemma sameSize_iff (hfits : (agentPayload.getD firmware).length < 4294967296) :
    SameSize p firmware agentPayload ↔
      ∃ n,p.detect (agentPayload.getD firmware) = some n ∧ n < 4294967296 ∧
        ∃ size,splImage p (agentPayload.getD firmware) (agentPayload.map fun _ => firmware) =
          some (size,zeroLongFfRuns (ljust (firmware.take n) n)) ∧ size < 4294967296 := by
  cases agentPayload with
  | none =>
    rw [getD_none] at hfits ⊢
    rw [map_none,splImage_none,SameSize]
    constructor
    · rintro ⟨n,hn,hle⟩
      refine ⟨n,hn,by omega,n,?_,by omega⟩
      rw [hn,map_some,ljust_take_of_le hle]
    · rintro ⟨n,hn,-,size,himage,-⟩
      rw [hn,map_some,Option.some.injEq,Prod.mk.injEq] at himage
      have hlen := congrArg List.length himage.2
      rw [ljust_take_length,zeroLongFfRuns_length,length_take] at hlen
      exact ⟨n,hn,by omega⟩
  | some agent =>
    rw [getD_some,map_some,splImage_override,SameSize]
    constructor
    · rintro ⟨n,m,hn,hm,rfl,hlt⟩
      refine ⟨_,hn,hlt,_,?_,hlt⟩
      rw [hm,map_some]
    · rintro ⟨n,hn,hlt,size,himage,-⟩
      obtain ⟨m,hm,himage⟩ := map_eq_some_iff.mp himage
      have hlen := congrArg List.length (Prod.mk.inj himage).2
      rw [ljust_take_length,ljust_take_length] at hlen
      exact ⟨n,m,hn,hm,hlen.symm,hlt⟩

lemma SameBytes.alike (h : SameBytes p firmware agentPayload) : Alike p firmware agentPayload := by
  obtain ⟨spl,second,hrack,hhost⟩ := h
  obtain ⟨hp,hfits,hsecond,n,hn,hlt,hspl⟩ := (rack_spec p firmware agentPayload spl second).mp hrack
  rw [hsecond] at hfits
  obtain ⟨input,hinput⟩ := acked_exists hp (agentPayload.getD firmware)
    (agentPayload.map fun _ => firmware)
  obtain ⟨sent,hsent,hsent₁,hsent₂⟩ := hhost input hinput
  obtain ⟨size,data,himage,hsize⟩ := sendFirmware_image hsent
  obtain ⟨sent',hsent',hdata₁,hdata₂⟩ := sendFirmware_acked hp himage hsize hfits hinput
  rw [hsent,Option.some.injEq,Option.some.injEq] at hsent'
  rw [← hsent',hsent₁,hspl] at hdata₁
  rw [← hsent',hsent₂,hsecond] at hdata₂
  refine ⟨hp,hfits,(FfRuns.zeroLongFfRuns_eq_iff _).mp hdata₂.symm,?_⟩
  rw [← hdata₁] at himage
  exact (sameSize_iff hfits).mpr ⟨n,hn,hlt,size,himage,hsize⟩

lemma Alike.sameBytes (h : Alike p firmware agentPayload) : SameBytes p firmware agentPayload := by
  obtain ⟨n,hn,hlt,size,himage,hsize⟩ := (sameSize_iff h.fits).mp h.size
  refine ⟨_,_,(rack_spec p firmware agentPayload _ _).mpr ⟨h.packable,h.fits,rfl,n,hn,hlt,rfl⟩,?_⟩
  intro input hinput
  obtain ⟨sent,hsent,hspl,huboot⟩ := sendFirmware_acked h.packable himage hsize h.fits hinput
  rw [(FfRuns.zeroLongFfRuns_eq_iff _).mpr h.noRuns] at huboot
  exact ⟨sent,hsent,hspl,huboot⟩

end Agreement

/-- Rack and host agree just when the second stage has no run of twelve 0xFF, everything fits
into its field and the sizes they find are the same. -/
theorem rack_and_host_agree_iff (p : UartProfile) (firmware : List Byte)
    (agentPayload : Option (List Byte)) :
    SameBytes p firmware agentPayload ↔ Alike p firmware agentPayload :=
  ⟨SameBytes.alike,Alike.sameBytes⟩

/-- A chip without a pre-step whose SPL window is larger than the image. -/
def wideProfile : UartProfile :=
  ⟨⟨0x81000000,0x04013000,none⟩,0x04010500,8,none,[0],none⟩

/-- The rack fills the SPL up with zeros, the host does not. -/
theorem short_firmware_padded :
    (runRackFastboot wideProfile [1,2,3] none).map readBlob =
      some ([1,2,3,0,0,0,0,0],[1,2,3]) ∧
    ((sendFirmware wideProfile [1,2,3] none
      (acks 3++none::(acks 3++none::acks 3))).map fun r => r.map fun s => dataPayloads s.spl) =
        some (some [1,2,3]) ∧
    ¬SameBytes wideProfile [1,2,3] none := by
  refine ⟨by decide +kernel,by decide +kernel,fun h => ?_⟩
  obtain ⟨n,hn,hle⟩ := h.alike.size
  obtain rfl : 8 = n := Option.some.inj hn
  exact absurd hle (by decide)

end Defib.RackFastboot
