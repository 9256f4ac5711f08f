import Defib.BootUpload
import Defib.SplSize
import Mathlib.Data.List.Destutter

/-!
# The length that is declared for the SPL

`_send_spl` takes the size of the SPL from the compressed payload in the image, from the
profile or from an SPL of its own, and cuts the bytes to be sent on their own. The HEAD frame
has the size; the DATA frames have the bytes. A frame that is not acknowledged is written
again, so that what is on the line is the frames in order with repetitions.
-/
namespace Defib.SplUpload
open List Words BootFrames BootUpload SplSize

/-- The numbers are read with `int(text, 16)`, which takes a sign. -/
structure SplProfile where
  splAddress : ℤ
  splMaxSize : ℤ
  splSramLimit : Option ℤ
  prestepData : Option (List Byte)
  deriving DecidableEq, Repr

/-- `HeadFrame(length, address).encode()`; `none` is a `struct.error`. -/
def encodeHead (length address : ℤ) : Option (List Byte) :=
  if 0 ≤ length ∧ 0 ≤ address then HeadFrame.encode ⟨length.toNat,address.toNat⟩ else none

/-- `data[:n]` -/
def slice (data : List Byte) (n : ℤ) : List Byte :=
  if 0 ≤ n then data.take n.toNat else data.take (data.length-n.natAbs)

/-- `data.ljust(n, b"\0")` -/
def ljust (data : List Byte) (n : ℤ) : List Byte :=
  data++List.replicate (n.toNat-data.length) 0

def splSize (p : SplProfile) (firmware : List Byte) (splOverride : Option (List Byte)) :
    Except IndexError ℤ := do
  let size ← detectSplSize (splOverride.getD firmware) p.splMaxSize p.splSramLimit
  match splOverride with
  | some spl => return if (spl.length : ℤ) < size then (spl.length : ℤ) else size
  | none => return size

def splData (firmware : List Byte) (splOverride : Option (List Byte)) (size : ℤ) : List Byte :=
  zeroLongFfRuns <|
    match splOverride with
    | some spl => ljust (slice spl size) size
    | none => slice firmware size

/-- `_send_spl`; `none` is an exception, which comes before anything is written. -/
def sendSpl (p : SplProfile) (firmware : List Byte) (splOverride : Option (List Byte))
    (l : Link) : Option (Bool × Link) :=
  match splSize p firmware splOverride with
  | .error _ => none
  | .ok size =>
    match encodeHead size p.splAddress with
    | none => none
    | some head =>
      let chunks := chunkData (splData firmware splOverride size)
      match sendFrameWithRetry 16 head l with
      | (true,l₁) =>
        match sendAll (sendFrameWithRetry 32)
            ((chunks.zipIdx 1).map fun c => DataFrame.encode ⟨c.2,c.1⟩) l₁ with
        | (true,l₂) =>
          match sendFrameWithRetry 16 (TailFrame.encode ⟨chunks.length+1⟩) l₂ with
          | (true,l₃) => some (true,l₃)
          | (false,l₃) => some (p.prestepData.isSome,l₃)
        | r => some r
      | r => some r

/-- Some header in the part of the image that is searched. -/
def HasBoundary (firmware : List Byte) : Prop :=
  ∃ i,0x4000 ≤ i ∧ i < 0x4000+scanned firmware ∧ headerAt firmware i = .ok true

def declared (frames : List (List Byte)) : Option ℕ :=
  frames.head?.bind fun f => (HeadFrame.decode f).toOption.map (·.length)

/-- The bytes a frame carries, if it is a DATA frame. -/
def payload (frame : List Byte) : List Byte :=
  match DataFrame.decode frame with
  | .ok d => d.payload
  | .error _ => []

def carried (frames : List (List Byte)) : ℕ := (frames.flatMap payload).length

/-- What was written between two points, without repetitions. -/
def framesBetween (l l' : Link) : List (List Byte) :=
  (l'.written.drop l.written.length).destutter (· ≠ ·)

section Repetitions

/-- The frames in order, each written once or more. -/
inductive Repeats : List (List Byte) → List (List Byte) → Prop
  | nil : Repeats [] []
  | cons (f : List Byte) (k : ℕ) {fs ws : List (List Byte)} :
      Repeats fs ws → Repeats (f::fs) (f::(List.replicate k f++ws))

lemma Repeats.append {fs gs ws vs : List (List Byte)} (h : Repeats fs ws)
    (h' : Repeats gs vs) : Repeats (fs++gs) (ws++vs) := by
  induction h with
  | nil => exact h'
  | cons f k _ ih =>
    rw [cons_append,cons_append,append_assoc]
    exact ih.cons f k

lemma destutter'_replicate (f : List Byte) (k : ℕ) (ws : List (List Byte)) :
    List.destutter' (· ≠ ·) f (List.replicate k f++ws) = List.destutter' (· ≠ ·) f ws := by
  induction k with
  | zero => rfl
  | succ k ih =>
    rw [replicate_succ,cons_append,destutter'_cons_neg _ (not_not.mpr rfl),ih]

lemma Repeats.destutter {fs ws : List (List Byte)} (h : Repeats fs ws)
    (hchain : fs.IsChain (· ≠ ·)) : ws.destutter (· ≠ ·) = fs := by
  induction h with
  | nil => rfl
  | cons f k hrest ih =>
    rw [destutter_cons',destutter'_replicate]
    cases hrest with
    | nil => rfl
    | cons g j hmore =>
      rw [isChain_cons_cons] at hchain
      have hih := ih hchain.2
      rw [destutter_cons'] at hih
      rw [destutter'_cons_pos _ hchain.1,hih]

lemma sendFrameWithRetry_repeats {retries : ℕ} {frame : List Byte} {l l' : Link} {ok : Bool}
    (h : sendFrameWithRetry (retries+1) frame l = (ok,l')) :
    ∃ ws,l'.written = l.written++ws ∧ Repeats [frame] ws := by
  induction retries generalizing l with
  | zero =>
    rw [sendFrameWithRetry] at h
    split at h <;> cases h
    · exact ⟨[frame],rfl,Repeats.nil.cons frame 0⟩
    · exact ⟨[frame],rfl,Repeats.nil.cons frame 0⟩
  | succ retries ih =>
    rw [sendFrameWithRetry] at h
    split at h
    · cases h
      exact ⟨[frame],rfl,Repeats.nil.cons frame 0⟩
    · obtain ⟨ws,hws,hrep⟩ := ih h
      refine ⟨frame::ws,by rw [hws,append_assoc,singleton_append],?_⟩
      cases hrep with
      | cons _ k hnil =>
        cases hnil
        rw [append_nil,← replicate_succ,← append_nil (List.replicate _ _)]
        exact Repeats.nil.cons frame (k+1)

lemma sendAll_repeats {retries : ℕ} {frames : List (List Byte)} {l l' : Link}
    (h : sendAll (sendFrameWithRetry (retries+1)) frames l = (true,l')) :
    ∃ ws,l'.written = l.written++ws ∧ Repeats frames ws := by
  induction frames generalizing l with
  | nil =>
    cases h
    exact ⟨[],(append_nil _).symm,Repeats.nil⟩
  | cons f fs ih =>
    rw [sendAll] at h
    split at h
    next l₁ hsent =>
      obtain ⟨ws₁,hws₁,hrep₁⟩ := sendFrameWithRetry_repeats hsent
      obtain ⟨ws₂,hws₂,hrep₂⟩ := ih h
      exact ⟨ws₁++ws₂,by rw [hws₂,hws₁,append_assoc],hrep₁.append hrep₂⟩
    next => cases h

end Repetitions

section Frames
variable {head : List Byte} {payloads : List (List Byte)} {size address : ℕ}

lemma encode_data_first (d : DataFrame) : d.encode.getD 0 0 = dataMagic := rfl

lemma encode_tail_first (t : TailFrame) : t.encode.getD 0 0 = tailMagic := rfl

lemma encode_head_first {h : HeadFrame} (hhead : h.encode = some head) :
    head.getD 0 0 = 0xFE := by
  rw [HeadFrame.encode] at hhead
  split at hhead
  · cases hhead
    rfl
  · cases hhead

lemma ne_of_first {f g : List Byte} {b c : Byte} (hf : f.getD 0 0 = b) (hg : g.getD 0 0 = c)
    (hne : b ≠ c) : f ≠ g := by
  rintro rfl
  exact hne (hf.symm.trans hg)

lemma encode_data_succ (n : ℕ) (p q : List Byte) :
    DataFrame.encode ⟨n,p⟩ ≠ DataFrame.encode ⟨n+1,q⟩ := by
  intro h
  have hsecond : BitVec.ofNat 8 n = BitVec.ofNat 8 (n+1) := congrArg (·.getD 1 0) h
  have hval := congrArg BitVec.toNat hsecond
  simp only [BitVec.toNat_ofNat] at hval
  omega

lemma datas_isChain (payloads : List (List Byte)) (n : ℕ) (t : TailFrame) :
    ((payloads.zipIdx n).map (fun p => DataFrame.encode ⟨p.2,p.1⟩)++[t.encode]).IsChain
      (· ≠ ·) := by
  induction payloads generalizing n with
  | nil => exact isChain_singleton _
  | cons p ps ih =>
    have hrest := ih (n+1)
    rw [zipIdx_cons,map_cons,cons_append]
    cases ps with
    | nil =>
      refine isChain_cons_cons.mpr ⟨?_,hrest⟩
      exact ne_of_first (encode_data_first _) (encode_tail_first t) (by decide)
    | cons q qs => exact isChain_cons_cons.mpr ⟨encode_data_succ n p q,hrest⟩

lemma framesOf_isChain (hhead : HeadFrame.encode ⟨size,address⟩ = some head) :
    (framesOf head payloads).IsChain (· ≠ ·) := by
  have hfirst := encode_head_first hhead
  have hrest := datas_isChain payloads 1 ⟨payloads.length+1⟩
  rw [framesOf]
  cases payloads with
  | nil =>
    refine isChain_cons_cons.mpr ⟨?_,hrest⟩
    exact ne_of_first hfirst (encode_tail_first _) (by decide)
  | cons p ps =>
    refine isChain_cons_cons.mpr ⟨?_,hrest⟩
    exact ne_of_first hfirst (encode_data_first _) (by decide)

lemma payload_eq_nil {f : List Byte} {b : Byte} (hf : f.getD 0 0 = b) (hb : b ≠ dataMagic) :
    payload f = [] := by
  rw [payload,DataFrame.decode]
  split
  next heq =>
    split at heq
    · cases heq
    · rw [hf,if_pos hb] at heq
      cases heq
  next => rfl

lemma payload_data {d : DataFrame} (hd : d.payload ≠ []) : payload d.encode = d.payload := by
  rw [payload,(DataFrame.decode_encode d hd).1]

lemma flatMap_payload_datas (n : ℕ) (hsize : ∀ p ∈ payloads,p ≠ []) :
    ((payloads.zipIdx n).map (fun p => DataFrame.encode ⟨p.2,p.1⟩)).flatMap payload =
      payloads.flatten := by
  induction payloads generalizing n with
  | nil => rfl
  | cons p ps ih =>
    obtain ⟨hp,hps⟩ := forall_mem_cons.mp hsize
    have hfirst : payload (DataFrame.encode ⟨n,p⟩) = p := payload_data hp
    rw [zipIdx_cons,map_cons,flatMap_cons,hfirst,ih (n+1) hps,
      flatten_cons]

lemma framesOf_declared (hhead : HeadFrame.encode ⟨size,address⟩ = some head) :
    declared (framesOf head payloads) = some size := by
  rw [declared,framesOf,head?_cons,Option.bind_some,(HeadFrame.decode_encode hhead).1]
  rfl

lemma framesOf_carried (hhead : HeadFrame.encode ⟨size,address⟩ = some head)
    (hsize : ∀ p ∈ payloads,p ≠ []) :
    carried (framesOf head payloads) = payloads.flatten.length := by
  have hnone := payload_eq_nil (encode_head_first hhead) (by decide)
  have htail := payload_eq_nil (encode_tail_first ⟨payloads.length+1⟩) (by decide)
  rw [carried,framesOf,flatMap_cons,hnone,nil_append,flatMap_append,
    flatMap_payload_datas 1 hsize,flatMap_singleton,htail,append_nil]

end Frames

section Sizes

lemma encodeHead_eq_some {length address : ℤ} {head : List Byte}
    (h : encodeHead length address = some head) :
    0 ≤ length ∧ HeadFrame.encode ⟨length.toNat,address.toNat⟩ = some head := by
  rw [encodeHead] at h
  split at h
  next hsign => exact ⟨hsign.1,h⟩
  next => cases h

variable {firmware : List Byte} {size : ℤ}

lemma scan_spec {profileMax : ℤ} {sramLimit : Option ℤ} {n i : ℕ}
    (h : scan firmware profileMax sramLimit n i = .ok size) :
    (∃ j,i ≤ j ∧ j < i+n ∧ headerAt firmware j = .ok true ∧ size = capped sramLimit j) ∨
    (size = profileMax ∧ ∀ j,i ≤ j → j < i+n → headerAt firmware j ≠ .ok true) := by
  induction n generalizing i with
  | zero =>
    cases h
    exact .inr ⟨rfl,fun j hi hj => absurd hi (by omega)⟩
  | succ n ih =>
    cases hb : headerAt firmware i with
    | error e =>
      rw [scan_error hb] at h
      cases h
    | ok b =>
      cases b with
      | true =>
        rw [scan_true hb] at h
        cases h
        exact .inl ⟨i,le_rfl,by omega,hb,rfl⟩
      | false =>
        rw [scan_false hb] at h
        rcases ih h with ⟨j,hi,hj,hfound⟩ | ⟨hsize,hnone⟩
        · exact .inl ⟨j,by omega,by omega,hfound⟩
        · refine .inr ⟨hsize,fun j hi hj => ?_⟩
          rcases Nat.eq_or_lt_of_le hi with rfl | hlt
          · rw [hb]
            decide
          · exact hnone j hlt (by omega)

lemma capped_le (sramLimit : Option ℤ) (i : ℕ) : capped sramLimit i ≤ (i : ℤ) := by
  have hdown : ((i-i%0x400 : ℕ) : ℤ) ≤ i := Int.ofNat_le.mpr (Nat.sub_le _ _)
  cases sramLimit with
  | none => exact hdown
  | some limit =>
    rw [capped]
    split
    next h => exact h.le.trans hdown
    next => exact hdown

lemma capped_le_limit (limit : ℤ) (i : ℕ) : capped (some limit) i ≤ limit := by
  rw [capped]
  split
  next => exact le_rfl
  next h => exact not_lt.mp h

lemma scanned_le (firmware : List Byte) : 0x4000+scanned firmware ≤ max 0x4000 firmware.length := by
  rw [scanned,length_drop,length_take]
  omega

lemma detectSplSize_spec {profileMax : ℤ} {sramLimit : Option ℤ}
    (h : detectSplSize firmware profileMax sramLimit = .ok size) :
    (HasBoundary firmware ∧ size ≤ firmware.length ∧ ∀ limit ∈ sramLimit,size ≤ limit) ∨
    (¬ HasBoundary firmware ∧ size = profileMax) := by
  rcases scan_spec h with ⟨i,hmin,hmax,hfound,rfl⟩ | ⟨hsize,hnone⟩
  · refine .inl ⟨⟨i,hmin,hmax,hfound⟩,?_,?_⟩
    · have hlen := scanned_le firmware
      have hle := capped_le sramLimit i
      omega
    · rintro limit rfl
      exact capped_le_limit limit i
  · refine .inr ⟨?_,hsize⟩
    rintro ⟨i,hmin,hmax,hfound⟩
    exact hnone i hmin hmax hfound

lemma splSize_none {p : SplProfile} :
    splSize p firmware none = detectSplSize firmware p.splMaxSize p.splSramLimit := by
  rw [splSize]
  exact bind_pure _

lemma splSize_some {p : SplProfile} {firmware spl : List Byte}
    (h : splSize p firmware (some spl) = .ok size) :
    ∃ n,detectSplSize spl p.splMaxSize p.splSramLimit = .ok n ∧ size = min n spl.length := by
  rw [splSize,Option.getD_some] at h
  cases hn : detectSplSize spl p.splMaxSize p.splSramLimit with
  | error e =>
    rw [hn] at h
    cases h
  | ok n =>
    rw [hn] at h
    cases h
    refine ⟨n,rfl,?_⟩
    split <;> omega

lemma slice_length {data : List Byte} {n : ℤ} (h : 0 ≤ n) :
    (slice data n).length = min n.toNat data.length := by
  rw [slice,if_pos h,length_take]

lemma splData_length_none (h : 0 ≤ size) :
    (splData firmware none size).length = min size.toNat firmware.length := by
  rw [splData,zeroLongFfRuns_length]
  exact slice_length h

lemma splData_length_some {firmware spl : List Byte} (h : 0 ≤ size) :
    (splData firmware (some spl) size).length = size.toNat := by
  rw [splData,zeroLongFfRuns_length,ljust,length_append,length_replicate,slice_length h]
  omega

end Sizes

section Runs
variable {p : SplProfile} {firmware : List Byte} {splOverride : Option (List Byte)} {l l' : Link}

lemma sendSpl_repeats (h : sendSpl p firmware splOverride l = some (true,l')) :
    ∃ size head ws,splSize p firmware splOverride = .ok size ∧
      encodeHead size p.splAddress = some head ∧ l'.written = l.written++ws ∧
      Repeats (framesOf head (chunkData (splData firmware splOverride size))) ws := by
  rw [sendSpl] at h
  split at h
  next => cases h
  next size hsize =>
    split at h
    next => cases h
    next head hhead =>
      dsimp only at h
      split at h
      next l₁ h₁ =>
        split at h
        next l₂ h₂ =>
          obtain ⟨ws₁,hws₁,hrep₁⟩ := sendFrameWithRetry_repeats h₁
          obtain ⟨ws₂,hws₂,hrep₂⟩ := sendAll_repeats h₂
          have htail : ∃ ok,sendFrameWithRetry 16 (TailFrame.encode
              ⟨(chunkData (splData firmware splOverride size)).length+1⟩) l₂ = (ok,l') := by
            split at h
            all_goals
              next l₃ h₃ =>
                rw [(Prod.mk.inj (Option.some.inj h)).2] at h₃
                exact ⟨_,h₃⟩
          obtain ⟨ok,h₃⟩ := htail
          obtain ⟨ws₃,hws₃,hrep₃⟩ := sendFrameWithRetry_repeats h₃
          refine ⟨size,head,ws₁++(ws₂++ws₃),hsize,hhead,?_,?_⟩
          · rw [hws₃,hws₂,hws₁,append_assoc,append_assoc]
          · exact hrep₁.append (hrep₂.append hrep₃)
        next hne => exact absurd (Option.some.inj h) (hne l')
      next hne => exact absurd (Option.some.inj h) (hne l')

lemma sendSpl_frames (h : sendSpl p firmware splOverride l = some (true,l')) :
    ∃ size,splSize p firmware splOverride = .ok size ∧ 0 ≤ size ∧
      declared (framesBetween l l') = some size.toNat ∧
      carried (framesBetween l l') = (splData firmware splOverride size).length := by
  obtain ⟨size,head,ws,hsize,hhead,hws,hrep⟩ := sendSpl_repeats h
  obtain ⟨hpos,hencode⟩ := encodeHead_eq_some hhead
  have hframes : framesBetween l l' =
      framesOf head (chunkData (splData firmware splOverride size)) := by
    rw [framesBetween,hws,drop_left]
    exact hrep.destutter (framesOf_isChain hencode)
  have hpieces : ∀ c ∈ chunkData (splData firmware splOverride size),c ≠ [] := by
    intro c hc
    rw [chunkData_eq] at hc
    exact (handMadePayloads_size c hc).1
  refine ⟨size,hsize,hpos,?_,?_⟩
  · rw [hframes,framesOf_declared hencode]
  · rw [hframes,framesOf_carried hencode hpieces,chunkData_eq,handMadePayloads_flatten]

end Runs

/-- When the SPL is sent, the declared length is the length of what follows just when an SPL
of its own is given, a compressed payload is found in the image, or the image is not shorter
than the size in the profile; a size that was found is never above the limit. -/
theorem spl_length_honest_iff {p : SplProfile} {firmware : List Byte}
    {splOverride : Option (List Byte)} {l l' : Link}
    (h : sendSpl p firmware splOverride l = some (true,l')) :
    (declared (framesBetween l l') = some (carried (framesBetween l l')) ↔
      splOverride.isSome = true ∨ HasBoundary firmware ∨ p.splMaxSize ≤ firmware.length) ∧
    (HasBoundary (splOverride.getD firmware) → ∀ limit ∈ p.splSramLimit,
      ∀ n ∈ declared (framesBetween l l'),(n : ℤ) ≤ limit) := by
  obtain ⟨size,hsize,hpos,hdeclared,hcarried⟩ := sendSpl_frames h
  rw [hdeclared,hcarried,Option.some_inj]
  cases splOverride with
  | some spl =>
    obtain ⟨n,hn,rfl⟩ := splSize_some hsize
    rw [splData_length_some hpos]
    refine ⟨iff_of_true rfl (.inl rfl),?_⟩
    intro hbound limit hlimit m hm
    cases hm
    rcases detectSplSize_spec hn with ⟨-,-,hle⟩ | ⟨hnone,-⟩
    · have := hle limit hlimit
      omega
    · exact absurd hbound hnone
  | none =>
    rw [splSize_none] at hsize
    rw [splData_length_none hpos]
    rcases detectSplSize_spec hsize with ⟨hbound,hlen,hle⟩ | ⟨hnone,rfl⟩
    · refine ⟨iff_of_true (by omega) (.inr (.inl hbound)),?_⟩
      intro _ limit hlimit m hm
      cases hm
      have := hle limit hlimit
      omega
    · refine ⟨?_,fun hbound => absurd hbound hnone⟩
      simp only [Option.isSome_none,Bool.false_eq_true,hnone,false_or]
      omega

/-- A profile of 0x6000 bytes at the start of the SRAM. -/
def wideProfile : SplProfile := ⟨0x04010500,0x6000,none,none⟩

/-- One byte of firmware, and 0x6000 bytes are declared. -/
theorem short_firmware_overdeclared :
    ∃ l',sendSpl wideProfile [0x12] none ⟨[],acks 3⟩ = some (true,l') ∧
      declared (framesBetween ⟨[],acks 3⟩ l') = some 0x6000 ∧
      carried (framesBetween ⟨[],acks 3⟩ l') = 1 := by
  refine ⟨((sendSpl wideProfile [0x12] none ⟨[],acks 3⟩).map (·.2)).getD ⟨[],[]⟩,?_,?_,?_⟩
  all_goals decide +kernel

/-- The same byte as an SPL of its own. -/
theorem override_declared :
    ∃ l',sendSpl wideProfile [] (some [0x12]) ⟨[],acks 3⟩ = some (true,l') ∧
      declared (framesBetween ⟨[],acks 3⟩ l') = some (carried (framesBetween ⟨[],acks 3⟩ l')) := by
  have hrun : sendSpl wideProfile [] (some [0x12]) ⟨[],acks 3⟩ = some (true,
      ((sendSpl wideProfile [] (some [0x12]) ⟨[],acks 3⟩).map (·.2)).getD ⟨[],[]⟩) := by
    decide +kernel
  exact ⟨_,hrun,(spl_length_honest_iff hrun).1.mpr (.inl rfl)⟩

end Defib.SplUpload
