import Defib.Actions
import Defib.BootUpload
import Defib.Splices

/-!
# Boot images for the V500

`wrap_v500_payload` puts a payload in the place of the boot code of a complete image and
patches two length fields in the part that it keeps; `send_firmware` reads the length of the
aux area from the same part again and uploads the key area, the aux area and the image.
-/
namespace Defib.V500Image
open List Actions Words BootFrames BootUpload Splices

def bootLoadAddr : ℕ := 0x41000000
def keyAreaLen : ℕ := 0x2000
def auxAreaLenOff : ℕ := 0x400
def bootCodeLenOff : ℕ := 0x404
def totalBootLenOff : ℕ := 0x408
def bootTailLen : ℕ := 0x200
def bootCodeAlign : ℕ := 0x400

inductive WrapError where
  | donorTooShort
  | auxAreaLength (auxLen : ℕ)
  | linkedElsewhere (runsAt loadAddr : ℕ)
  | structError
  deriving DecidableEq, Repr

/-- `struct.pack_into("<I", image, i, v)` for a place inside the image. -/
def packInto (image : List Byte) (i v : ℕ) : Except WrapError (List Byte) :=
  match packLe32 v with
  | some ys => .ok (splice image i ys)
  | none => .error .structError

/-- The payload and zeros up to a multiple of 1 KiB. -/
def paddedCode (payload : List Byte) : List Byte :=
  payload++List.replicate (-(payload.length : ℤ)%bootCodeAlign).toNat 0

def codePos (donor : List Byte) : ℕ := keyAreaLen+readLe32 donor auxAreaLenOff

/-- The image before its fields are patched. -/
def unpatched (donor payload : List Byte) : List Byte :=
  donor.take (codePos donor)++(paddedCode payload++List.replicate bootTailLen 0)

def packLengths (image : List Byte) (codeLen : ℕ) : Except WrapError (List Byte) := do
  let image ← packInto image bootCodeLenOff codeLen
  packInto image totalBootLenOff (codeLen+bootTailLen)

def wrapV500Payload (donor payload : List Byte) (loadAddr : ℕ) :
    Except WrapError (List Byte) :=
  let auxLen := readLe32 donor auxAreaLenOff
  if donor.length < totalBootLenOff+4 then .error .donorTooShort
  else if auxLen = 0 ∨ auxLen%bootCodeAlign ≠ 0 ∨ donor.length < codePos donor then
    .error (.auxAreaLength auxLen)
  else if bootLoadAddr+codePos donor ≠ loadAddr then
    .error (.linkedElsewhere (bootLoadAddr+codePos donor) loadAddr)
  else packLengths (unpatched donor payload) (paddedCode payload).length

inductive Stage where
  | headArea | auxArea | bootImage | complete
  deriving DecidableEq, Repr

structure RecoveryResult where
  success : Bool
  stagesCompleted : List Stage
  error : Option String
  deriving DecidableEq, Repr

/-- `send_firmware`; `none` is a `struct.error`. -/
def sendFirmware (firmware : List Byte) (l : Link) : Option (RecoveryResult × Link) :=
  match V500.sendDataToBootrom (firmware.take 8192) 0 l with
  | none => none
  | some (false,l₁) => some (⟨false,[],some "Failed to send HEAD area"⟩,l₁)
  | some (true,l₁) =>
    -- four bytes are unpacked from `firmware[1024:1028]`
    if firmware.length < 1028 then none
    else
      let auxLen := readLe32 firmware 1024
      match V500.sendDataToBootrom ((firmware.drop 8192).take auxLen) 8192 l₁ with
      | none => none
      | some (false,l₂) => some (⟨false,[.headArea],some "Failed to send AUX area"⟩,l₂)
      | some (true,l₂) =>
        match V500.sendDataToBootrom firmware bootLoadAddr l₂ with
        | none => none
        | some (false,l₃) =>
          some (⟨false,[.headArea,.auxArea],some "Failed to send boot image"⟩,l₃)
        | some (true,l₃) =>
          some (⟨true,[.headArea,.auxArea,.bootImage,.complete],none⟩,l₃)

/-- The image is the donor up to the boot code but for the two length fields, then the
payload with its padding and the tail, and the fields have their lengths. -/
structure Wraps (donor payload image : List Byte) : Prop where
  kept : ∀ i,i < codePos donor →
    ¬ (0x404 ≤ i ∧ i < 0x40C) → image[i]? = donor[i]?
  code : ∃ pad,pad < 1024 ∧ (payload.length+pad)%1024 = 0 ∧
    image.drop (codePos donor) =
      payload++(List.replicate pad 0++List.replicate 512 0) ∧
    readLe32 image 0x404 = payload.length+pad ∧
    readLe32 image 0x408 = payload.length+pad+512

/-- With every frame acknowledged, the three parts go to their addresses one after the
other. -/
def Uploads (image : List Byte) (auxLen : ℕ) : Prop :=
  ∃ headArea auxArea head aux boot,
    headArea <+: image ∧ headArea.length = 8192 ∧
    headArea++auxArea <+: image ∧ auxArea.length = auxLen ∧
    Upload head headArea 0 ∧ Upload aux auxArea 8192 ∧ Upload boot image bootLoadAddr ∧
    ∀ written rest,
      sendFirmware image ⟨written,acks (head.length+aux.length+boot.length)++rest⟩ =
        some (⟨true,[.headArea,.auxArea,.bootImage,.complete],none⟩,
          ⟨written++(head++(aux++boot)),rest⟩)

section Words
variable {xs ys : List Byte} {i : ℕ}

lemma readLe32_splice (h : i ≤ xs.length) {v : ℕ} (hv : v < 4294967296) :
    readLe32 (splice xs i (writeLe32 v)) i = v := by
  have hlen : (xs.take i).length = i := length_take_of_le h
  have hread := readLe32_append (xs.take i) (writeLe32 v++xs.drop (i+(writeLe32 v).length))
  rw [hlen,readLe32_writeLe32 v hv] at hread
  exact hread

lemma readLe32_congr {p q : List Byte} {k : ℕ} (h : ∀ j,k ≤ j → j < k+4 → p[j]? = q[j]?) :
    readLe32 p k = readLe32 q k := by
  simp only [readLe32,getD_eq_getElem?_getD]
  rw [h k le_rfl (by omega),h (k+1) (by omega) (by omega),h (k+2) (by omega) (by omega),
    h (k+3) (by omega) (by omega)]

lemma readLe32_splice_outside (h : i+ys.length ≤ xs.length) {k : ℕ}
    (hk : k+4 ≤ i ∨ i+ys.length ≤ k) : readLe32 (splice xs i ys) k = readLe32 xs k :=
  readLe32_congr fun j hj hj' => splice_outside h (by omega)

end Words

section Wrap
variable {donor payload image : List Byte} {loadAddr : ℕ}

def patched (donor payload : List Byte) : List Byte :=
  splice (splice (unpatched donor payload) bootCodeLenOff (writeLe32 (paddedCode payload).length))
    totalBootLenOff (writeLe32 ((paddedCode payload).length+bootTailLen))

/-- What `wrap_v500_payload` asks for. -/
structure Accepts (donor payload : List Byte) (loadAddr : ℕ) : Prop where
  donorLength : totalBootLenOff+4 ≤ donor.length
  auxPositive : readLe32 donor auxAreaLenOff ≠ 0
  auxAligned : readLe32 donor auxAreaLenOff%bootCodeAlign = 0
  codeInside : codePos donor ≤ donor.length
  linked : bootLoadAddr+codePos donor = loadAddr
  fits : (paddedCode payload).length+bootTailLen < 4294967296

lemma packInto_of_lt {v : ℕ} (xs : List Byte) (i : ℕ) (h : v < 4294967296) :
    packInto xs i v = .ok (splice xs i (writeLe32 v)) := by
  rw [packInto,packLe32_of_lt h]

lemma packInto_eq_ok {v : ℕ} {xs ys : List Byte} {i : ℕ} (h : packInto xs i v = .ok ys) :
    v < 4294967296 ∧ ys = splice xs i (writeLe32 v) := by
  rw [packInto] at h
  split at h
  next zs hzs =>
    obtain ⟨hv,rfl⟩ := packLe32_eq_some hzs
    exact ⟨hv,(Except.ok.inj h).symm⟩
  next => cases h

lemma packLengths_of_lt {n : ℕ} (xs : List Byte) (h : n+bootTailLen < 4294967296) :
    packLengths xs n = .ok (splice (splice xs bootCodeLenOff (writeLe32 n))
      totalBootLenOff (writeLe32 (n+bootTailLen))) := by
  rw [packLengths,packInto_of_lt _ _ ((Nat.le_add_right _ _).trans_lt h),ok_bind,
    packInto_of_lt _ _ h]

lemma packLengths_eq_ok {n : ℕ} {xs ys : List Byte} (h : packLengths xs n = .ok ys) :
    n+bootTailLen < 4294967296 := by
  rw [packLengths] at h
  obtain ⟨zs,-,hzs⟩ := except_bind_eq_ok h
  exact (packInto_eq_ok hzs).1

lemma wrapV500Payload_of_accepts (h : Accepts donor payload loadAddr) :
    wrapV500Payload donor payload loadAddr = .ok (patched donor payload) := by
  have haux : ¬ (readLe32 donor auxAreaLenOff = 0 ∨ readLe32 donor auxAreaLenOff%bootCodeAlign ≠ 0 ∨
      donor.length < codePos donor) := by
    rintro (hzero | halign | hinside)
    · exact h.auxPositive hzero
    · exact halign h.auxAligned
    · exact absurd h.codeInside (not_le.mpr hinside)
  rw [wrapV500Payload,if_neg (not_lt.mpr h.donorLength),if_neg haux,if_neg (not_not.mpr h.linked),
    packLengths_of_lt _ h.fits,patched]

lemma wrapV500Payload_eq_ok (h : wrapV500Payload donor payload loadAddr = .ok image) :
    Accepts donor payload loadAddr ∧ image = patched donor payload := by
  have haccepts : Accepts donor payload loadAddr := by
    rw [wrapV500Payload] at h
    split at h
    · cases h
    next hlen =>
      split at h
      · cases h
      next haux =>
        split at h
        · cases h
        next hlinked =>
          rw [not_or,not_or] at haux
          exact ⟨not_lt.mp hlen,haux.1,not_not.mp haux.2.1,not_lt.mp haux.2.2,
            not_not.mp hlinked,packLengths_eq_ok h⟩
  rw [wrapV500Payload_of_accepts haccepts] at h
  exact ⟨haccepts,(Except.ok.inj h).symm⟩

lemma paddedCode_length (payload : List Byte) : ∃ pad,pad < 1024 ∧
    (payload.length+pad)%1024 = 0 ∧ paddedCode payload = payload++List.replicate pad 0 := by
  refine ⟨_,?_,?_,rfl⟩
  · rw [bootCodeAlign]
    omega
  · rw [bootCodeAlign]
    omega

lemma unpatched_length (h : Accepts donor payload loadAddr) :
    (unpatched donor payload).length =
      codePos donor+((paddedCode payload).length+bootTailLen) := by
  rw [unpatched,length_append,length_take_of_le h.codeInside,length_append,
    length_replicate]

lemma fields_inside (donor : List Byte) : totalBootLenOff+4 ≤ codePos donor :=
  (show totalBootLenOff+4 ≤ keyAreaLen by decide).trans (Nat.le_add_right _ _)

lemma places (h : Accepts donor payload loadAddr) (v w : ℕ) :
    bootCodeLenOff+(writeLe32 v).length ≤ (unpatched donor payload).length ∧
    totalBootLenOff+(writeLe32 w).length ≤
      (splice (unpatched donor payload) bootCodeLenOff (writeLe32 v)).length := by
  have hin := fields_inside donor
  have hlen := unpatched_length h
  have hfirst : bootCodeLenOff+(writeLe32 v).length ≤ (unpatched donor payload).length := by
    rw [writeLe32_length,bootCodeLenOff]
    rw [totalBootLenOff] at hin
    omega
  refine ⟨hfirst,?_⟩
  rw [splice_length hfirst,writeLe32_length]
  omega

lemma patched_outside (h : Accepts donor payload loadAddr) {i : ℕ}
    (hi : ¬ (0x404 ≤ i ∧ i < 0x40C)) :
    (patched donor payload)[i]? = (unpatched donor payload)[i]? := by
  obtain ⟨hfirst,hsecond⟩ := places h (paddedCode payload).length
    ((paddedCode payload).length+bootTailLen)
  have hout₁ : i < bootCodeLenOff ∨ bootCodeLenOff+4 ≤ i := by
    rw [bootCodeLenOff]
    omega
  have hout₂ : i < totalBootLenOff ∨ totalBootLenOff+4 ≤ i := by
    rw [totalBootLenOff]
    omega
  rw [patched,splice_outside hsecond hout₂,splice_outside hfirst hout₁]

lemma patched_length (h : Accepts donor payload loadAddr) :
    (patched donor payload).length =
      codePos donor+((paddedCode payload).length+bootTailLen) := by
  obtain ⟨hfirst,hsecond⟩ := places h (paddedCode payload).length
    ((paddedCode payload).length+bootTailLen)
  rw [patched,splice_length hsecond,splice_length hfirst,unpatched_length h]

lemma readLe32_patched (h : Accepts donor payload loadAddr) :
    readLe32 (patched donor payload) 0x404 = (paddedCode payload).length ∧
    readLe32 (patched donor payload) 0x408 = (paddedCode payload).length+512 := by
  obtain ⟨hfirst,hsecond⟩ := places h (paddedCode payload).length
    ((paddedCode payload).length+bootTailLen)
  have hfits := h.fits
  constructor
  · rw [patched]
    rw [readLe32_splice_outside hsecond (.inl le_rfl)]
    exact readLe32_splice ((Nat.le_add_right _ _).trans hfirst)
      ((Nat.le_add_right _ _).trans_lt hfits)
  · exact readLe32_splice ((Nat.le_add_right _ _).trans hsecond) hfits

lemma unpatched_getElem? (h : Accepts donor payload loadAddr) {i : ℕ} (hi : i < codePos donor) :
    (unpatched donor payload)[i]? = donor[i]? := by
  rw [unpatched,getElem?_append_left (by rwa [length_take_of_le h.codeInside]),
    getElem?_take_of_lt hi]

lemma drop_patched (h : Accepts donor payload loadAddr) :
    (patched donor payload).drop (codePos donor) =
      paddedCode payload++List.replicate bootTailLen 0 := by
  have hin := fields_inside donor
  rw [totalBootLenOff] at hin
  have hdrop : (patched donor payload).drop (codePos donor) =
      (unpatched donor payload).drop (codePos donor) := by
    apply ext_getElem?
    intro j
    rw [getElem?_drop,getElem?_drop,patched_outside h (by omega)]
  have htake : (donor.take (codePos donor)).length = codePos donor :=
    length_take_of_le h.codeInside
  rw [hdrop,unpatched,drop_left' htake]

lemma wraps_patched (h : Accepts donor payload loadAddr) :
    Wraps donor payload (patched donor payload) := by
  obtain ⟨hcode,htotal⟩ := readLe32_patched h
  obtain ⟨pad,hpad,halign,heq⟩ := paddedCode_length payload
  have hlen : (paddedCode payload).length = payload.length+pad := by
    rw [heq,length_append,length_replicate]
  constructor
  · intro i hi hfield
    rw [patched_outside h hfield,unpatched_getElem? h hi]
  · refine ⟨pad,hpad,halign,?_,?_,?_⟩
    · rw [drop_patched h,heq,append_assoc]
      rfl
    · rw [hcode,hlen]
    · rw [htotal,hlen]

lemma auxLen_patched (h : Accepts donor payload loadAddr) :
    readLe32 (patched donor payload) 1024 = readLe32 donor auxAreaLenOff := by
  have hin := fields_inside donor
  rw [totalBootLenOff] at hin
  refine readLe32_congr fun j hj hj' => ?_
  rw [patched_outside h (by omega),unpatched_getElem? h (by omega)]

end Wrap

section Send
variable {image : List Byte}

lemma upload_length_lt {frames : List (List Byte)} {data : List Byte} {address : ℕ}
    (h : Upload frames data address) : data.length < 4294967296 := by
  obtain ⟨head,_,_,_,_,_,hdecode,_⟩ := h
  rw [HeadFrame.decode] at hdecode
  split at hdecode
  · cases hdecode
  · split at hdecode
    · cases hdecode
    · have hlen := congrArg HeadFrame.length (Except.ok.inj hdecode)
      have hlt := readBe32_lt head 4
      dsimp only at hlen
      omega

lemma sendFirmware_too_long (h : 4294967296 ≤ image.length) {l l' : Link} {r : RecoveryResult}
    (hrun : sendFirmware image l = some (r,l')) : r.success = false := by
  have hnone : ∀ l,V500.sendDataToBootrom image bootLoadAddr l = none := by
    intro l
    rw [V500.sendDataToBootrom,sendDataToBootrom,packBe32,if_neg (not_lt.mpr h)]
  rw [sendFirmware] at hrun
  split at hrun
  · cases hrun
  · cases hrun
    rfl
  · split at hrun
    · cases hrun
    · dsimp only at hrun
      split at hrun
      · cases hrun
      · cases hrun
        rfl
      · rw [hnone] at hrun
        cases hrun

lemma uploads_of_lt (hlen : image.length < 4294967296)
    (haux : 8192+readLe32 image 1024 ≤ image.length) : Uploads image (readLe32 image 1024) := by
  have hlong : ¬ image.length < 1028 := by omega
  have hhead : (image.take 8192).length = 8192 := length_take_of_le (by omega)
  have hpart : ((image.drop 8192).take (readLe32 image 1024)).length = readLe32 image 1024 := by
    rw [length_take,length_drop]
    omega
  have hboth : image.take 8192++(image.drop 8192).take (readLe32 image 1024) =
      image.take (8192+readLe32 image 1024) := take_add.symm
  have hfits₁ : (image.take 8192).length < 4294967296 := by omega
  have hfits₂ : ((image.drop 8192).take (readLe32 image 1024)).length < 4294967296 := by omega
  obtain ⟨head,hup₁,hsend₁⟩ := sendDataToBootrom_upload hfits₁ (show 0 < 4294967296 by decide)
  obtain ⟨aux,hup₂,hsend₂⟩ := sendDataToBootrom_upload hfits₂ (show 8192 < 4294967296 by decide)
  obtain ⟨boot,hup₃,hsend₃⟩ :=
    sendDataToBootrom_upload hlen (show bootLoadAddr < 4294967296 by decide)
  refine ⟨_,_,head,aux,boot,List.take_prefix _ _,hhead,?_,hpart,hup₁,hup₂,hup₃,?_⟩
  · rw [hboth]
    exact take_prefix _ _
  intro written rest
  have hacks : acks (head.length+aux.length+boot.length)++rest =
      acks head.length++(acks aux.length++(acks boot.length++rest)) := by
    simp only [acks,replicate_add,append_assoc]
  rw [hacks,sendFirmware,V500.sendDataToBootrom,hsend₁]
  dsimp only
  rw [if_neg hlong,hsend₂]
  dsimp only
  rw [hsend₃]
  dsimp only
  rw [append_assoc,append_assoc]

end Send

/-- A wrapped image has the parts it should have; it can be uploaded just when its length
fits the HEAD frame. -/
theorem wrapped_image_uploads_iff {donor payload image : List Byte} {loadAddr : ℕ}
    (h : wrapV500Payload donor payload loadAddr = .ok image) :
    Wraps donor payload image ∧
    (Uploads image (readLe32 donor auxAreaLenOff) ↔
      codePos donor+((paddedCode payload).length+bootTailLen) < 4294967296) := by
  obtain ⟨haccepts,rfl⟩ := wrapV500Payload_eq_ok h
  have hlen := patched_length haccepts
  refine ⟨wraps_patched haccepts,?_,?_⟩
  · rintro ⟨_,_,_,_,_,_,_,_,_,_,_,hboot,_⟩
    rw [← hlen]
    exact upload_length_lt hboot
  · intro hfits
    rw [← auxLen_patched haccepts]
    apply uploads_of_lt
    · rwa [hlen]
    · rw [hlen,auxLen_patched haccepts]
      exact Nat.le_add_right _ _

def smallDonor : List Byte := List.replicate 0x400 0++(writeLe32 0x400++List.replicate 0x2000 0)

lemma smallDonor_auxLen : readLe32 smallDonor auxAreaLenOff = 0x400 := by
  have hread := readLe32_append (List.replicate 0x400 0) (writeLe32 0x400++List.replicate 0x2000 0)
  rw [length_replicate,readLe32_writeLe32 _ (by decide)] at hread
  exact hread

lemma smallDonor_length : smallDonor.length = 0x2404 := by
  rw [smallDonor,length_append,length_append,length_replicate,
    length_replicate]
  rfl

lemma codePos_smallDonor : codePos smallDonor = 0x2400 := by
  rw [codePos,smallDonor_auxLen]
  rfl

lemma smallDonor_accepts {payload : List Byte}
    (h : (paddedCode payload).length+bootTailLen < 4294967296) :
    Accepts smallDonor payload 0x41002400 where
  donorLength := by
    rw [smallDonor_length]
    decide
  auxPositive := by
    rw [smallDonor_auxLen]
    decide
  auxAligned := by
    rw [smallDonor_auxLen]
    rfl
  codeInside := by
    rw [smallDonor_length,codePos_smallDonor]
    decide
  linked := by
    rw [codePos_smallDonor]
    rfl
  fits := h

lemma paddedCode_replicate {n : ℕ} (h : n%1024 = 0) :
    (paddedCode (List.replicate n 0)).length = n := by
  obtain ⟨pad,hpad,halign,heq⟩ := paddedCode_length (List.replicate n 0)
  rw [length_replicate] at halign
  rw [heq,length_append,length_replicate,length_replicate]
  omega

lemma paddedCode_lt (payload : List Byte) :
    (paddedCode payload).length < payload.length+1024 := by
  obtain ⟨pad,hpad,-,heq⟩ := paddedCode_length payload
  rw [heq,length_append,length_replicate]
  exact Nat.add_lt_add_left hpad _

/-- Four bytes of payload. -/
theorem small_payload_uploads : ∃ image,
    wrapV500Payload smallDonor [1,2,3,4] 0x41002400 = .ok image ∧ Uploads image 0x400 := by
  have hlen : (paddedCode [1,2,3,4]).length < 1028 := paddedCode_lt [1,2,3,4]
  have hfits : (paddedCode [1,2,3,4]).length+bootTailLen < 1028+bootTailLen :=
    Nat.add_lt_add_right hlen _
  have haccepts : Accepts smallDonor [1,2,3,4] 0x41002400 :=
    smallDonor_accepts (hfits.trans (by decide))
  have hwrap := wrapV500Payload_of_accepts haccepts
  have hup : Uploads (patched smallDonor [1,2,3,4]) (readLe32 smallDonor auxAreaLenOff) := by
    apply (wrapped_image_uploads_iff hwrap).2.mpr
    rw [codePos_smallDonor]
    exact (Nat.add_lt_add_left hfits _).trans (by decide)
  rw [smallDonor_auxLen] at hup
  exact ⟨_,hwrap,hup⟩

/-- A payload of 4 GiB less 1 KiB: its length fits the fields, the length of the image does
not fit the HEAD frame. -/
theorem huge_payload_raises : ∃ image,
    wrapV500Payload smallDonor (List.replicate 4294966272 0) 0x41002400 = .ok image ∧
      ¬ Uploads image 0x400 ∧
      ∀ l l' r,sendFirmware image l = some (r,l') → r.success = false := by
  have hcode : (paddedCode (List.replicate 4294966272 0)).length = 4294966272 :=
    paddedCode_replicate (by decide)
  have haccepts : Accepts smallDonor (List.replicate 4294966272 0) 0x41002400 :=
    smallDonor_accepts (by rw [hcode]; decide)
  have hlen : 4294967296 ≤ (patched smallDonor (List.replicate 4294966272 0)).length := by
    rw [patched_length haccepts,codePos_smallDonor,hcode]
    decide
  refine ⟨_,wrapV500Payload_of_accepts haccepts,?_,
    fun l l' r hrun => sendFirmware_too_long hlen hrun⟩
  rintro ⟨_,_,_,_,_,_,_,_,_,_,_,hboot,_⟩
  exact absurd (upload_length_lt hboot) (not_lt.mpr hlen)

end Defib.V500Image
