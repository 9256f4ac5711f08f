import Defib.Words

/-!
# Frames of the boot ROM protocol

An upload to the boot ROM is a HEAD frame with the length and the target address, DATA
frames with a number and its complement, and a TAIL frame. Every frame ends in a
CRC-16 over what comes before it, most significant byte first.
-/
namespace Defib.BootFrames
open List Words

/-- `CRC_TABLE`, polynomial 0x1021. -/
def crcTable : List ℕ :=
  [0x0000, 0x1021, 0x2042, 0x3063, 0x4084, 0x50A5, 0x60C6, 0x70E7,
   0x8108, 0x9129, 0xA14A, 0xB16B, 0xC18C, 0xD1AD, 0xE1CE, 0xF1EF,
   0x1231, 0x0210, 0x3273, 0x2252, 0x52B5, 0x4294, 0x72F7, 0x62D6,
   0x9339, 0x8318, 0xB37B, 0xA35A, 0xD3BD, 0xC39C, 0xF3FF, 0xE3DE,
   0x2462, 0x3443, 0x0420, 0x1401, 0x64E6, 0x74C7, 0x44A4, 0x5485,
   0xA56A, 0xB54B, 0x8528, 0x9509, 0xE5EE, 0xF5CF, 0xC5AC, 0xD58D,
   0x3653, 0x2672, 0x1611, 0x0630, 0x76D7, 0x66F6, 0x5695, 0x46B4,
   0xB75B, 0xA77A, 0x9719, 0x8738, 0xF7DF, 0xE7FE, 0xD79D, 0xC7BC,
   0x48C4, 0x58E5, 0x6886, 0x78A7, 0x0840, 0x1861, 0x2802, 0x3823,
   0xC9CC, 0xD9ED, 0xE98E, 0xF9AF, 0x8948, 0x9969, 0xA90A, 0xB92B,
   0x5AF5, 0x4AD4, 0x7AB7, 0x6A96, 0x1A71, 0x0A50, 0x3A33, 0x2A12,
   0xDBFD, 0xCBDC, 0xFBBF, 0xEB9E, 0x9B79, 0x8B58, 0xBB3B, 0xAB1A,
   0x6CA6, 0x7C87, 0x4CE4, 0x5CC5, 0x2C22, 0x3C03, 0x0C60, 0x1C41,
   0xEDAE, 0xFD8F, 0xCDEC, 0xDDCD, 0xAD2A, 0xBD0B, 0x8D68, 0x9D49,
   0x7E97, 0x6EB6, 0x5ED5, 0x4EF4, 0x3E13, 0x2E32, 0x1E51, 0x0E70,
   0xFF9F, 0xEFBE, 0xDFDD, 0xCFFC, 0xBF1B, 0xAF3A, 0x9F59, 0x8F78,
   0x9188, 0x81A9, 0xB1CA, 0xA1EB, 0xD10C, 0xC12D, 0xF14E, 0xE16F,
   0x1080, 0x00A1, 0x30C2, 0x20E3, 0x5004, 0x4025, 0x7046, 0x6067,
   0x83B9, 0x9398, 0xA3FB, 0xB3DA, 0xC33D, 0xD31C, 0xE37F, 0xF35E,
   0x02B1, 0x1290, 0x22F3, 0x32D2, 0x4235, 0x5214, 0x6277, 0x7256,
   0xB5EA, 0xA5CB, 0x95A8, 0x8589, 0xF56E, 0xE54F, 0xD52C, 0xC50D,
   0x34E2, 0x24C3, 0x14A0, 0x0481, 0x7466, 0x6447, 0x5424, 0x4405,
   0xA7DB, 0xB7FA, 0x8799, 0x97B8, 0xE75F, 0xF77E, 0xC71D, 0xD73C,
   0x26D3, 0x36F2, 0x0691, 0x16B0, 0x6657, 0x7676, 0x4615, 0x5634,
   0xD94C, 0xC96D, 0xF90E, 0xE92F, 0x99C8, 0x89E9, 0xB98A, 0xA9AB,
   0x5844, 0x4865, 0x7806, 0x6827, 0x18C0, 0x08E1, 0x3882, 0x28A3,
   0xCB7D, 0xDB5C, 0xEB3F, 0xFB1E, 0x8BF9, 0x9BD8, 0xABBB, 0xBB9A,
   0x4A75, 0x5A54, 0x6A37, 0x7A16, 0x0AF1, 0x1AD0, 0x2AB3, 0x3A92,
   0xFD2E, 0xED0F, 0xDD6C, 0xCD4D, 0xBDAA, 0xAD8B, 0x9DE8, 0x8DC9,
   0x7C26, 0x6C07, 0x5C64, 0x4C45, 0x3CA2, 0x2C83, 0x1CE0, 0x0CC1,
   0xEF1F, 0xFF3E, 0xCF5D, 0xDF7C, 0xAF9B, 0xBFBA, 0x8FD9, 0x9FF8,
   0x6E17, 0x7E36, 0x4E55, 0x5E74, 0x2E93, 0x3EB2, 0x0ED1, 0x1EF0]

/-- One round of `calc_crc`; the running value is an integer of any size and is cut to 16
bits at the end. -/
def crcStep (crc : ℕ) (byte : Byte) : ℕ :=
  ((crc <<< 8) ||| byte.toNat) ^^^ crcTable.getD ((crc >>> 8) % 256) 0

def calcCrc (data : List Byte) : ℕ := (data++[0,0]).foldl crcStep 0 % 65536

def appendCrc (data : List Byte) : List Byte :=
  data++[BitVec.ofNat 8 (calcCrc data/256),BitVec.ofNat 8 (calcCrc data)]

def verifyCrc (frame : List Byte) : Bool :=
  if frame.length < 3 then false
  else
    let tail := frame.drop (frame.length-2)
    calcCrc (frame.take (frame.length-2)) = (tail.getD 0 0).toNat*256+(tail.getD 1 0).toNat

/-- `struct.pack(">I", v)` for a value that fits. -/
def writeBe32 (v : ℕ) : List Byte :=
  [BitVec.ofNat 8 (v/16777216),BitVec.ofNat 8 (v/65536),BitVec.ofNat 8 (v/256),BitVec.ofNat 8 v]

def readBe32 (p : List Byte) (i : ℕ) : ℕ :=
  (p.getD i 0).toNat*16777216+(p.getD (i+1) 0).toNat*65536+(p.getD (i+2) 0).toNat*256+
    (p.getD (i+3) 0).toNat

lemma readBe32_lt (p : List Byte) (i : ℕ) : readBe32 p i < 4294967296 := by
  have h₀ := (p.getD i 0).isLt
  have h₁ := (p.getD (i+1) 0).isLt
  have h₂ := (p.getD (i+2) 0).isLt
  have h₃ := (p.getD (i+3) 0).isLt
  unfold readBe32
  omega

/-- `struct.pack(">I", v)`; `none` is the `struct.error`. -/
def packBe32 (v : ℕ) : Option (List Byte) := if v < 4294967296 then some (writeBe32 v) else none

inductive FrameError where
  | short (length : ℕ)
  | magic (found : List Byte)
  | inversion (found expected : Byte)
  deriving DecidableEq, Repr

def headMagic : List Byte := [0xFE,0x00,0xFF,0x01]
def dataMagic : Byte := 0xDA
def tailMagic : Byte := 0xED

structure HeadFrame where
  length : ℕ
  address : ℕ
  deriving DecidableEq, Repr

structure DataFrame where
  seq : ℕ
  payload : List Byte
  deriving DecidableEq, Repr

structure TailFrame where
  seq : ℕ
  deriving DecidableEq, Repr

def HeadFrame.encode (h : HeadFrame) : Option (List Byte) :=
  match packBe32 h.length,packBe32 h.address with
  | some length,some address => some (appendCrc (headMagic++length++address))
  | _,_ => none

def HeadFrame.decode (data : List Byte) : Except FrameError HeadFrame :=
  if data.length < 14 then .error (.short data.length)
  else if data.take 4 ≠ headMagic then .error (.magic (data.take 4))
  else .ok ⟨readBe32 data 4,readBe32 data 8⟩

/-- A magic byte, a number and its complement. -/
def numberedHead (magic : Byte) (seq : ℕ) : List Byte :=
  [magic,BitVec.ofNat 8 seq,~~~BitVec.ofNat 8 seq]

def DataFrame.encode (d : DataFrame) : List Byte :=
  appendCrc (numberedHead dataMagic d.seq++d.payload)

def DataFrame.decode (data : List Byte) : Except FrameError DataFrame :=
  if data.length < 6 then .error (.short data.length)
  else if data.getD 0 0 ≠ dataMagic then .error (.magic (data.take 1))
  else if data.getD 2 0 ≠ ~~~data.getD 1 0 then
    .error (.inversion (data.getD 2 0) (~~~data.getD 1 0))
  else .ok ⟨(data.getD 1 0).toNat,(data.drop 3).take (data.length-5)⟩

def TailFrame.encode (t : TailFrame) : List Byte := appendCrc (numberedHead tailMagic t.seq)

def TailFrame.decode (data : List Byte) : Except FrameError TailFrame :=
  if data.length < 5 then .error (.short data.length)
  else if data.getD 0 0 ≠ tailMagic then .error (.magic (data.take 1))
  else .ok ⟨(data.getD 1 0).toNat⟩

lemma calcCrc_lt (data : List Byte) : calcCrc data < 65536 := Nat.mod_lt _ (by decide)

@[simp] lemma appendCrc_length (data : List Byte) :
    (appendCrc data).length = data.length+2 := by
  rw [appendCrc,length_append]
  rfl

lemma verifyCrc_appendCrc {data : List Byte} (h : data ≠ []) :
    verifyCrc (appendCrc data) = true := by
  have hpos := length_pos_iff.mpr h
  have hcrc := calcCrc_lt data
  have hlong : ¬ data.length+2 < 3 := by omega
  rw [verifyCrc,appendCrc_length,if_neg hlong,Nat.add_sub_cancel]
  simp only [appendCrc,drop_left,take_left,getD_cons_zero,getD_cons_succ,
    BitVec.toNat_ofNat,decide_eq_true_eq]
  omega

lemma be32_digits {v : ℕ} (hv : v < 4294967296) :
    v/16777216%256*16777216+v/65536%256*65536+v/256%256*256+v%256 = v := by
  omega

lemma packBe32_eq_some {v : ℕ} {p : List Byte} (h : packBe32 v = some p) :
    v < 4294967296 ∧ p = writeBe32 v := by
  rw [packBe32] at h
  split at h
  next hv => exact ⟨hv,(Option.some.inj h).symm⟩
  next => cases h

lemma HeadFrame.encode_eq {h : HeadFrame} (hl : h.length < 4294967296)
    (ha : h.address < 4294967296) :
    h.encode = some (appendCrc (headMagic++writeBe32 h.length++writeBe32 h.address)) := by
  rw [HeadFrame.encode,packBe32,packBe32,if_pos hl,if_pos ha]

lemma HeadFrame.decode_encode {h : HeadFrame} {bytes : List Byte}
    (he : h.encode = some bytes) : HeadFrame.decode bytes = .ok h ∧ verifyCrc bytes = true := by
  obtain ⟨length,address⟩ := h
  rw [HeadFrame.encode] at he
  split at he
  next l a hl ha =>
      obtain ⟨hlt,rfl⟩ := packBe32_eq_some hl
      obtain ⟨hat,rfl⟩ := packBe32_eq_some ha
      cases he
      refine ⟨?_,verifyCrc_appendCrc (cons_ne_nil _ _)⟩
      have hlen : (appendCrc (headMagic++writeBe32 length++writeBe32 address)).length = 14 :=
        appendCrc_length _
      rw [HeadFrame.decode,hlen,if_neg (by decide),appendCrc]
      generalize calcCrc (headMagic++writeBe32 length++writeBe32 address) = crc
      simp only [headMagic,writeBe32,readBe32,cons_append,nil_append,take_succ_cons,
        take_zero,getD_cons_succ,getD_cons_zero,BitVec.toNat_ofNat]
      rw [if_neg (by decide)]
      simp only [Nat.reducePow,be32_digits hlt,be32_digits hat]
  next => cases he

lemma DataFrame.decode_encode (d : DataFrame) (hpayload : d.payload ≠ []) :
    DataFrame.decode d.encode = .ok ⟨d.seq%256,d.payload⟩ ∧ verifyCrc d.encode = true := by
  refine ⟨?_,verifyCrc_appendCrc (cons_ne_nil _ _)⟩
  have hpos := length_pos_iff.mpr hpayload
  have hlen : d.encode.length = d.payload.length+5 := by
    rw [DataFrame.encode,appendCrc_length,length_append,numberedHead]
    simp only [length_cons,length_nil]
    omega
  have hlong : ¬ d.payload.length+5 < 6 := by omega
  rw [DataFrame.decode,hlen,if_neg hlong,DataFrame.encode,appendCrc,numberedHead]
  generalize calcCrc _ = crc
  simp

lemma TailFrame.decode_encode (t : TailFrame) :
    TailFrame.decode t.encode = .ok ⟨t.seq%256⟩ ∧ verifyCrc t.encode = true := by
  refine ⟨?_,verifyCrc_appendCrc (cons_ne_nil _ _)⟩
  have hlen : t.encode.length = 5 := appendCrc_length _
  rw [TailFrame.decode,hlen,if_neg (by decide),TailFrame.encode,appendCrc,numberedHead]
  generalize calcCrc _ = crc
  simp

end Defib.BootFrames
