import Mathlib.Data.Nat.Digits.Defs
import Defib.PyText
import Defib.Words

/-!
# Packets of the YMODEM sender

Block 0 carries the name and the size of the file, the blocks after it 1024 bytes each,
the last one filled up with 0x1A. A packet has a marker for its length, its number and
the complement of it, the payload and a CRC-16. The reading side here is what any
receiver does: it checks all of that, and reads the size out of block 0.
-/
namespace Defib.YModemPackets
open List Words PyText

def soh : Byte := 0x01
def stx : Byte := 0x02
def eot : Byte := 0x04
def ackCode : Byte := 0x06
def nakCode : Byte := 0x15
def can : Byte := 0x18
def crcRequest : Byte := 0x43
def cpmEof : Byte := 0x1A

def crcShift (crc : ℕ) : ℕ :=
  if crc &&& 0x8000 ≠ 0 then ((crc <<< 1) ^^^ 0x1021)%65536 else (crc <<< 1)%65536

def crc16Xmodem (data : List Byte) : ℕ :=
  data.foldl (fun crc byte => crcShift^[8] (crc ^^^ (byte.toNat <<< 8))) 0

def ljust (width : ℕ) (fill : Byte) (data : List Byte) : List Byte :=
  data++List.replicate (width-data.length) fill

def packetBytes (marker : Byte) (sequence : ℕ) (payload : List Byte) : List Byte :=
  [marker,BitVec.ofNat 8 (sequence%256),BitVec.ofNat 8 (255-sequence%256)]++(payload++
    [BitVec.ofNat 8 (crc16Xmodem payload/256),BitVec.ofNat 8 (crc16Xmodem payload)])

/-- `none` is a `ValueError`. -/
def makePacket (sequence : ℕ) (payload : List Byte) : Option (List Byte) :=
  if payload.length = 128 then some (packetBytes soh sequence payload)
  else if payload.length = 1024 then some (packetBytes stx sequence payload)
  else none

/-- `str(size).encode("ascii")`. -/
def decimal (size : ℕ) : List Byte :=
  if size = 0 then [48] else ((Nat.digits 10 size).map fun d => BitVec.ofNat 8 (48+d)).reverse

def encodeAscii (text : List Char) : Option (List Byte) :=
  if text.all (fun c => c.toNat < 128) then some (text.map fun c => BitVec.ofNat 8 c.toNat)
  else none

/-- `none` is a `ValueError`. -/
def makeHeader (filename : List Char) (size : ℕ) : Option (List Byte) :=
  match encodeAscii filename with
  | none => none
  | some name =>
    if 0 ∈ name then none
    else if 128 < (name++[0]++decimal size++[0]).length then none
    else makePacket 0 (ljust 128 0 (name++[0]++decimal size++[0]))

def payload (data : List Byte) (i : ℕ) : List Byte :=
  ljust 1024 cpmEof ((data.drop (i*1024)).take 1024)

def payloads (data : List Byte) : List (List Byte) :=
  (List.range ((data.length+1023)/1024)).map (payload data)

section Reading

/-- The number and the payload of a packet that is in order. -/
def parsePacket : List Byte → Option (ℕ × List Byte)
  | marker::seq::inv::rest =>
    let size := if marker = soh then 128 else 1024
    let crc := (rest.getD size 0).toNat*256+(rest.getD (size+1) 0).toNat
    if (marker = soh ∨ marker = stx) ∧ rest.length = size+2 ∧ inv.toNat = 255-seq.toNat ∧
        crc16Xmodem (rest.take size) = crc then some (seq.toNat,rest.take size)
    else none
  | _ => none

def isDigit (b : Byte) : Bool := decide (48 ≤ b.toNat ∧ b.toNat < 58)

/-- The size in block 0, after the name and its NUL. -/
def readSize (header : List Byte) : Option ℕ :=
  let text := ((header.dropWhile (· ≠ 0)).drop 1).takeWhile isDigit
  if text = [] then none else some (text.foldl (fun v b => v*10+(b.toNat-48)) 0)

end Reading

lemma crcShift_lt (crc : ℕ) : crcShift crc < 65536 := by
  rw [crcShift]
  split <;> exact Nat.mod_lt _ (by decide)

lemma crc16Xmodem_lt (data : List Byte) : crc16Xmodem data < 65536 := by
  induction data using List.reverseRecOn with
  | nil => decide
  | append_singleton data b _ =>
    rw [crc16Xmodem,foldl_append]
    exact crcShift_lt _

lemma ljust_length {width : ℕ} {data : List Byte} (h : data.length ≤ width) (fill : Byte) :
    (ljust width fill data).length = width := by
  rw [ljust,length_append,length_replicate]
  omega

lemma parsePacket_bytes {marker : Byte} {size : ℕ} {payload : List Byte}
    (hmarker : marker = soh ∧ size = 128 ∨ marker = stx ∧ size = 1024)
    (hlen : payload.length = size) (sequence : ℕ) :
    parsePacket (packetBytes marker sequence payload) = some (sequence%256,payload) := by
  have hcrc := crc16Xmodem_lt payload
  have hknown : marker = soh ∨ marker = stx := hmarker.imp And.left And.left
  have hsize : (if marker = soh then 128 else 1024) = size := by
    rcases hmarker with ⟨rfl,rfl⟩ | ⟨rfl,rfl⟩
    · rfl
    · rfl
  rw [packetBytes,cons_append,cons_append,cons_append,nil_append,parsePacket]
  rw [hsize]
  subst hlen
  have hlow := getD_append_right payload [BitVec.ofNat 8 (crc16Xmodem payload/256),
    BitVec.ofNat 8 (crc16Xmodem payload)] 0 (payload.length+1) (Nat.le_succ _)
  rw [take_left,getD_append_right _ _ _ _ le_rfl,hlow,Nat.sub_self,
    Nat.add_sub_cancel_left,if_pos]
  · simp only [BitVec.toNat_ofNat,Nat.reducePow,Nat.mod_mod]
  · refine ⟨hknown,by simp,?_,?_⟩
    · simp only [BitVec.toNat_ofNat]
      omega
    · simp only [getD_cons_zero,getD_cons_succ,BitVec.toNat_ofNat]
      omega

lemma parsePacket_makePacket {sequence : ℕ} {payload bytes : List Byte}
    (h : makePacket sequence payload = some bytes) :
    parsePacket bytes = some (sequence%256,payload) := by
  rw [makePacket] at h
  split at h
  · next hlen =>
    rw [← Option.some.inj h]
    exact parsePacket_bytes (.inl ⟨rfl,rfl⟩) hlen sequence
  · split at h
    · next hlen =>
      rw [← Option.some.inj h]
      exact parsePacket_bytes (.inr ⟨rfl,rfl⟩) hlen sequence
    · cases h

section Header

lemma decimal_ne_nil (size : ℕ) : decimal size ≠ [] := by
  rw [decimal]
  split
  · exact cons_ne_nil _ _
  · next h => simpa [Nat.digits_eq_nil_iff_eq_zero] using h

lemma decimal_mem {size : ℕ} {b : Byte} (h : b ∈ decimal size) : isDigit b = true := by
  rw [decimal] at h
  split at h
  · rw [mem_singleton.mp h]
    rfl
  · obtain ⟨d,hd,rfl⟩ := mem_map.mp (mem_reverse.mp h)
    have hlt : d < 10 := Nat.digits_lt_base (by decide) hd
    simp only [isDigit,BitVec.toNat_ofNat,decide_eq_true_eq]
    omega

lemma decimal_value (size : ℕ) :
    (decimal size).foldl (fun v b => v*10+(b.toNat-48)) 0 = size := by
  rw [decimal]
  split
  · next h => exact h.symm
  · rw [foldl_reverse,foldr_map]
    conv_rhs => rw [← Nat.ofDigits_digits 10 size,Nat.ofDigits_eq_foldr]
    apply foldr_ext
    intro d hd v
    have hlt : d < 10 := Nat.digits_lt_base (by decide) hd
    simp only [BitVec.toNat_ofNat,Nat.cast_id]
    omega

lemma readSize_header {name rest : List Byte} (hname : 0 ∉ name) (size : ℕ) :
    readSize (name++0::(decimal size++0::rest)) = some size := by
  have hskip : (name++0::(decimal size++0::rest)).dropWhile (· ≠ 0) =
      0::(decimal size++0::rest) := by
    apply dropWhile_run
    · intro c hc
      rw [decide_eq_true_eq]
      exact fun heq => hname (heq ▸ hc)
    · rfl
  have htext : (decimal size++0::rest).takeWhile isDigit = decimal size :=
    takeWhile_run (fun c hc => decimal_mem hc) rfl rest
  rw [readSize,hskip,drop_succ_cons,drop_zero]
  rw [htext,if_neg (decimal_ne_nil size),decimal_value]

lemma makeHeader_reads {filename : List Char} {size : ℕ} {bytes : List Byte}
    (h : makeHeader filename size = some bytes) :
    ∃ block,parsePacket bytes = some (0,block) ∧ readSize block = some size := by
  rw [makeHeader] at h
  split at h
  · cases h
  · next name _ =>
    split at h
    · cases h
    · next hname =>
      split at h
      · cases h
      · refine ⟨_,parsePacket_makePacket h,?_⟩
        rw [ljust]
        simp only [append_assoc,singleton_append]
        exact readSize_header hname size

end Header

section Payloads
variable {data : List Byte}

lemma payload_length (data : List Byte) (i : ℕ) : (payload data i).length = 1024 := by
  apply ljust_length
  rw [length_take]
  exact Nat.min_le_left _ _

lemma payloads_cons (h : data ≠ []) :
    payloads data = payload data 0::payloads (data.drop 1024) := by
  have hpos := length_pos_iff.mpr h
  have hcount : (data.length+1023)/1024 = ((data.drop 1024).length+1023)/1024+1 := by
    rw [length_drop]
    omega
  rw [payloads,hcount,range_succ_eq_map,map_cons,map_map,payloads]
  rw [cons_inj_right]
  apply map_congr_left
  intro i _
  simp only [Function.comp_apply,payload,drop_drop]
  rw [Nat.succ_mul,Nat.add_comm]

lemma data_isPrefix (data : List Byte) : data <+: (payloads data).flatten := by
  induction hn : data.length using Nat.strong_induction_on generalizing data with
  | _ n ih =>
    cases data with
    | nil => exact nil_prefix
    | cons b bs =>
      have hne := cons_ne_nil b bs
      generalize b::bs = data at hn hne
      have hpos := length_pos_iff.mpr hne
      rw [payloads_cons hne,flatten_cons,payload,Nat.zero_mul,drop_zero,ljust]
      by_cases hfull : 1024 ≤ data.length
      · have hlen : (data.take 1024).length = 1024 := by
          rw [length_take]
          omega
        rw [hlen,Nat.sub_self,replicate_zero,append_nil]
        conv_lhs => rw [← take_append_drop 1024 data]
        rw [prefix_append_right_inj]
        apply ih _ _ _ rfl
        rw [length_drop]
        omega
      · rw [take_of_length_le (by omega),append_assoc]
        exact prefix_append data _

end Payloads

end Defib.YModemPackets
