import Mathlib.Data.List.DropRight
import Defib.Endian
import Defib.PartialMap
import Defib.Utf8
import Defib.Words

/-!
# Capture files

A `.dcap` file is a header of 48 bytes and records of eleven bytes and their data. The
fields of `CaptureFile` are Python integers and `struct.pack` refuses those that do not fit
their field, so `encode` is partial. `decode` stops at a record that is cut off.
-/
namespace Defib.CaptureFormat
open List Option Words Endian PartialMap

inductive Direction where
  | tx
  | rx
  deriving DecidableEq, Repr

def Direction.code : Direction → Byte
  | tx => 0
  | rx => 1

/-- `Direction(value)`. -/
def Direction.ofCode (b : Byte) : Option Direction :=
  if b = 0 then some .tx else if b = 1 then some .rx else none

structure CaptureRecord where
  timestampUs : ℤ
  direction : Direction
  data : List Byte
  deriving DecidableEq, Repr

structure CaptureFile where
  baudrate : ℤ
  chip : Utf8.Text
  flags : ℤ
  records : List CaptureRecord
  deriving DecidableEq, Repr

inductive DecodeError where
  | tooSmall (length : ℕ)
  | magic (found : List Byte)
  | version (found : ℕ)
  | direction (found : Byte)
  deriving DecidableEq, Repr

/-- "DCAP" -/
def dcapMagic : List Byte := [0x44,0x43,0x41,0x50]
def dcapVersion : ℕ := 1
def headerSize : ℕ := 48

/-- `struct.pack` of an unsigned field of `k` bytes; `none` is the `struct.error`. -/
def pack (k : ℕ) (v : ℤ) : Option (List Byte) :=
  if 0 ≤ v ∧ v < 256^k then some (toLe k v.toNat) else none

/-- `bytes[:32].ljust(32, b"\x00")` -/
def chipField (chip : Utf8.Text) : List Byte :=
  let bytes := (Utf8.encode chip).take 32
  bytes++List.replicate (32-bytes.length) 0

def CaptureFile.header (c : CaptureFile) : Option (List Byte) := do
  let baudrate ← pack 4 c.baudrate
  let flags ← pack 2 c.flags
  return dcapMagic++toLe 2 dcapVersion++baudrate++chipField c.chip++flags++toLe 4 0

def CaptureRecord.encode (r : CaptureRecord) : Option (List Byte) := do
  let timestamp ← pack 8 r.timestampUs
  let length ← pack 2 r.data.length
  return timestamp++[r.direction.code]++length++r.data

def CaptureFile.encode (c : CaptureFile) : Option (List Byte) := do
  let header ← c.header
  let records ← c.records.mapM CaptureRecord.encode
  return header++records.flatten

def field (bytes : List Byte) (k n : ℕ) : List Byte := (bytes.drop k).take n

/-- The record loop on what is left of the file; a record takes a byte, so the length is
enough fuel. -/
def decodeRecords : ℕ → List Byte → Except DecodeError (List CaptureRecord)
  | 0,_ => .ok []
  | n+1,rest =>
    let length := ofLe (field rest 9 2)
    if rest.length < 11 then .ok []
    else if rest.length < 11+length then .ok []
    else
      let direction := rest.getD 8 0
      match Direction.ofCode direction with
      | none => .error (.direction direction)
      | some d =>
        (decodeRecords n (rest.drop (11+length))).map
          (⟨ofLe (field rest 0 8),d,field rest 11 length⟩ :: ·)

def decode (data : List Byte) : Except DecodeError CaptureFile :=
  if data.length < headerSize then .error (.tooSmall data.length)
  else if field data 0 4 ≠ dcapMagic then .error (.magic (field data 0 4))
  else if ofLe (field data 4 2) ≠ dcapVersion then .error (.version (ofLe (field data 4 2)))
  else
    (decodeRecords data.length (data.drop headerSize)).map fun records =>
      { baudrate := ofLe (field data 6 4)
        chip := Utf8.decode ((field data 10 32).rdropWhile (· = 0))
        flags := ofLe (field data 42 2)
        records := records }

def CaptureFile.Fits (c : CaptureFile) : Prop :=
  (0 ≤ c.baudrate ∧ c.baudrate < 256^4) ∧ (0 ≤ c.flags ∧ c.flags < 256^2) ∧
    ∀ r ∈ c.records,0 ≤ r.timestampUs ∧ r.timestampUs < 256^8

variable {bytes : List Byte}

section Fields

lemma pack_eq_some {k : ℕ} {v : ℤ} (h : pack k v = some bytes) :
    bytes.length = k ∧ (ofLe bytes : ℤ) = v := by
  rw [pack] at h
  split at h
  · next hv =>
    obtain rfl := Option.some.inj h
    refine ⟨toLe_length k _,?_⟩
    have hfit : v.toNat < 256^k := by
      have hlt := hv.2
      rw [← Int.toNat_of_nonneg hv.1] at hlt
      exact_mod_cast hlt
    rw [ofLe_toLe hfit]
    exact Int.toNat_of_nonneg hv.1
  · cases h

lemma pack_isSome_iff {k : ℕ} {v : ℤ} : (pack k v).isSome = true ↔ 0 ≤ v ∧ v < 256^k := by
  rw [pack]
  split
  · next hv => exact ⟨fun _ => hv,fun _ => rfl⟩
  · next hv => exact ⟨nofun,fun h => absurd h hv⟩

lemma field_append (pre bytes : List Byte) {k n : ℕ} (hk : pre.length = k)
    (hn : bytes.length = n) (rest : List Byte) : field (pre++(bytes++rest)) k n = bytes := by
  subst hk hn
  rw [field,drop_left,take_left]

lemma ofCode_code (d : Direction) : Direction.ofCode d.code = some d := by
  cases d with
  | tx => rfl
  | rx => rfl

end Fields

variable {r : CaptureRecord}

section Records

lemma encode_record (h : r.encode = some bytes) :
    ∃ timestamp length : List Byte,bytes = timestamp++([r.direction.code]++(length++r.data)) ∧
      (timestamp.length = 8 ∧ (ofLe timestamp : ℤ) = r.timestampUs) ∧
      (length.length = 2 ∧ ofLe length = r.data.length) := by
  simp only [CaptureRecord.encode,bind_eq_bind,bind_eq_some_iff] at h
  obtain ⟨timestamp,htimestamp,length,hlength,hbytes⟩ := h
  refine ⟨timestamp,length,?_,pack_eq_some htimestamp,?_⟩
  · rw [← Option.some.inj hbytes]
    simp only [append_assoc]
  · obtain ⟨hlen,hvalue⟩ := pack_eq_some hlength
    exact ⟨hlen,by exact_mod_cast hvalue⟩

lemma encode_record_length (h : r.encode = some bytes) :
    bytes.length = 11+r.data.length := by
  obtain ⟨timestamp,length,rfl,htimestamp,hlength⟩ := encode_record h
  simp only [length_append,length_singleton,htimestamp.1,hlength.1]
  omega

lemma decodeRecords_whole (h : r.encode = some bytes) (n : ℕ) (rest : List Byte) :
    decodeRecords (n+1) (bytes++rest) = (decodeRecords n rest).map (r :: ·) := by
  have hbytes := encode_record_length h
  obtain ⟨timestamp,length,heq,⟨hts,htsv⟩,⟨hlen,hlenv⟩⟩ := encode_record h
  have hsplit : bytes++rest = timestamp++([r.direction.code]++(length++(r.data++rest))) := by
    rw [heq]
    simp only [append_assoc]
  have htimestamp : field (bytes++rest) 0 8 = timestamp := by
    rw [hsplit]
    exact field_append [] _ rfl hts _
  have hdirection : (bytes++rest).getD 8 0 = r.direction.code := by
    rw [hsplit,getD_append_right _ _ _ _ hts.le,hts]
    rfl
  have hlength : field (bytes++rest) 9 2 = length := by
    rw [hsplit,← append_assoc]
    exact field_append _ _ (by simp [hts]) hlen _
  have hdata : field (bytes++rest) 11 r.data.length = r.data := by
    rw [hsplit,← append_assoc,← append_assoc]
    exact field_append _ _ (by simp [hts,hlen]) rfl _
  have hdrop : (bytes++rest).drop (11+r.data.length) = rest := by
    rw [← hbytes,drop_left]
  have hlong : ¬(bytes++rest).length < 11+r.data.length := by
    rw [length_append,hbytes]
    omega
  rw [decodeRecords,hlength,hlenv,if_neg (by omega),if_neg hlong,hdirection,hdrop,htimestamp,hdata,
    htsv]
  dsimp only
  rw [ofCode_code]

lemma decodeRecords_cut (h : r.encode = some bytes)
    (fuel : ℕ) {n : ℕ} (hn : n < bytes.length) : decodeRecords fuel (bytes.take n) = .ok [] := by
  cases fuel with
  | zero => rfl
  | succ fuel =>
    have hbytes := encode_record_length h
    obtain ⟨timestamp,length,heq,⟨hts,_⟩,⟨hlen,hlenv⟩⟩ := encode_record h
    have hcut : (bytes.take n).length = n := length_take_of_le hn.le
    rw [decodeRecords,hcut]
    by_cases hshort : n < 11
    · exact if_pos hshort
    · have hfield : field (bytes.take n) 9 2 = length := by
        have hwhole : field bytes 9 2 = length := by
          rw [heq,← append_assoc]
          exact field_append _ _ (by simp [hts]) hlen _
        rw [field,drop_take,take_take,Nat.min_eq_left (by omega)]
        exact hwhole
      rw [if_neg hshort,hfield,hlenv,if_pos (by omega)]

lemma decodeRecords_take {rs : List CaptureRecord} {bss : List (List Byte)}
    (h : List.Forall₂ (fun r bytes => r.encode = some bytes) rs bss) (fuel n : ℕ)
    (hfuel : (bss.flatten.take n).length ≤ fuel) : ∃ k,
      decodeRecords fuel (bss.flatten.take n) = .ok (rs.take k) ∧
        (bss.flatten.length ≤ n → rs.length ≤ k) := by
  induction h generalizing fuel n with
  | nil =>
    refine ⟨0,?_,fun _ => le_rfl⟩
    rw [flatten_nil,take_nil,take_nil]
    cases fuel with
    | zero => rfl
    | succ fuel => rfl
  | @cons r bytes rs bss hr _ ih =>
    have hpos : 0 < bytes.length := by
      rw [encode_record_length hr]
      omega
    rw [flatten_cons] at hfuel ⊢
    by_cases hn : n < bytes.length
    · rw [take_append_of_le_length hn.le]
      refine ⟨0,decodeRecords_cut hr fuel hn,fun hall => ?_⟩
      rw [length_append] at hall
      omega
    · obtain ⟨m,rfl⟩ := Nat.exists_eq_add_of_le (Nat.le_of_not_lt hn)
      rw [take_length_add_append] at hfuel ⊢
      cases fuel with
      | zero =>
        rw [length_append] at hfuel
        omega
      | succ fuel =>
        obtain ⟨k,hdecode,hall⟩ := ih fuel m (by rw [length_append] at hfuel; omega)
        refine ⟨k+1,?_,fun hlong => ?_⟩
        · rw [decodeRecords_whole hr,hdecode]
          rfl
        · rw [length_append] at hlong
          exact Nat.succ_le_succ (hall (by omega))

end Records

section Header
variable {c : CaptureFile} {header : List Byte}

lemma chipField_length (chip : Utf8.Text) : (chipField chip).length = 32 := by
  simp only [chipField,length_append,length_take,length_replicate]
  omega

lemma encode_header (h : c.header = some header) : ∃ baudrate flags : List Byte,
    header = dcapMagic++(toLe 2 dcapVersion++(baudrate++(chipField c.chip++(flags++toLe 4 0)))) ∧
      (baudrate.length = 4 ∧ (ofLe baudrate : ℤ) = c.baudrate) ∧
      (flags.length = 2 ∧ (ofLe flags : ℤ) = c.flags) := by
  simp only [CaptureFile.header,bind_eq_bind,bind_eq_some_iff] at h
  obtain ⟨baudrate,hbaudrate,flags,hflags,hheader⟩ := h
  refine ⟨baudrate,flags,?_,pack_eq_some hbaudrate,pack_eq_some hflags⟩
  rw [← Option.some.inj hheader]
  simp only [append_assoc]

lemma encodeChar_getLast {ch : Char} (h : ch ≠ Char.ofNat 0) :
    ∃ pre b,Utf8.encodeChar ch = pre++[b] ∧ b ≠ 0 := by
  have hpos : ch.toNat ≠ 0 := by
    intro hzero
    apply h
    rw [← Char.ofNat_toNat ch,hzero]
  have hbyte : ∀ v,v%256 ≠ 0 → BitVec.ofNat 8 v ≠ 0 := by
    intro v hv heq
    apply hv
    have hnat := congrArg BitVec.toNat heq
    rwa [BitVec.toNat_ofNat] at hnat
  rw [Utf8.encodeChar_eq,Utf8.bytesOf]
  split_ifs
  · exact ⟨[],_,rfl,hbyte _ (by omega)⟩
  · exact ⟨[_],_,rfl,hbyte _ (by omega)⟩
  · exact ⟨[_,_],_,rfl,hbyte _ (by omega)⟩
  · exact ⟨[_,_,_],_,rfl,hbyte _ (by omega)⟩

lemma chip_decode {chip : Utf8.Text} (hlen : (Utf8.encode chip).length ≤ 32)
    (hnul : chip.getLast? ≠ some (Char.ofNat 0)) :
    Utf8.decode ((chipField chip).rdropWhile (· = 0)) = chip := by
  have hstrip : ∀ (bytes : List Byte) (n : ℕ),
      (bytes++List.replicate n 0).rdropWhile (· = 0) = bytes.rdropWhile (· = 0) := by
    intro bytes n
    rw [List.rdropWhile,reverse_append,reverse_replicate,dropWhile_append_of_pos]
    · rfl
    · intro b hb
      rw [eq_of_mem_replicate hb]
      rfl
  have hkeep : (Utf8.encode chip).rdropWhile (· = 0) = Utf8.encode chip := by
    rcases eq_nil_or_concat chip with rfl | ⟨s,ch,rfl⟩
    · rfl
    · rw [concat_eq_append,getLast?_concat] at hnul
      obtain ⟨pre,b,heq,hb⟩ := encodeChar_getLast fun h => hnul (congrArg some h)
      have hbytes : Utf8.encode (s.concat ch) = Utf8.encode s++pre++[b] := by
        rw [Utf8.encode,concat_eq_append,flatMap_append,flatMap_singleton,heq,
          append_assoc]
        rfl
      rw [hbytes,rdropWhile_concat_neg _ _ _ (by simpa using hb)]
  rw [chipField,hstrip,take_of_length_le hlen,hkeep,Utf8.decode_encode]

lemma header_length (h : c.header = some header) : header.length = headerSize := by
  obtain ⟨baudrate,flags,rfl,hbaudrate,hflags⟩ := encode_header h
  simp only [length_append,toLe_length,hbaudrate.1,hflags.1,chipField_length]
  rfl

lemma decode_header (h : c.header = some header) (hlen : (Utf8.encode c.chip).length ≤ 32)
    (hnul : c.chip.getLast? ≠ some (Char.ofNat 0)) (rest : List Byte) :
    decode (header++rest) = (decodeRecords (header++rest).length rest).map fun records =>
      {c with records := records} := by
  have hsize := header_length h
  obtain ⟨baudrate,flags,heq,hbaudrate,hflags⟩ := encode_header h
  have hsplit : header++rest = dcapMagic++(toLe 2 dcapVersion++(baudrate++(chipField c.chip++
      (flags++(toLe 4 0++rest))))) := by
    rw [heq]
    simp only [append_assoc]
  have hmagic : field (header++rest) 0 4 = dcapMagic := by
    rw [hsplit]
    exact field_append [] dcapMagic rfl rfl _
  have hversion : field (header++rest) 4 2 = toLe 2 dcapVersion := by
    rw [hsplit]
    exact field_append dcapMagic (toLe 2 dcapVersion) rfl rfl _
  have hbaud : field (header++rest) 6 4 = baudrate := by
    rw [hsplit,← append_assoc]
    exact field_append _ _ rfl hbaudrate.1 _
  have hchip : field (header++rest) 10 32 = chipField c.chip := by
    rw [hsplit,← append_assoc,← append_assoc]
    exact field_append _ _ (by simp [hbaudrate.1,dcapMagic]) (chipField_length _) _
  have hflag : field (header++rest) 42 2 = flags := by
    rw [hsplit,← append_assoc,← append_assoc,← append_assoc]
    exact field_append _ _ (by simp [hbaudrate.1,dcapMagic,chipField_length]) hflags.1 _
  have hlong : ¬(header++rest).length < headerSize := by
    rw [length_append,hsize]
    omega
  have hdrop : (header++rest).drop headerSize = rest := by
    rw [← hsize,drop_left]
  rw [decode,if_neg hlong,hmagic,if_neg (not_not.mpr rfl),hversion,
    if_neg (by rw [ofLe_toLe (by decide)]; exact not_not.mpr rfl),hdrop,hbaud,hchip,hflag,
    chip_decode hlen hnul,hbaudrate.2,hflags.2]

end Header

section Files
variable {c : CaptureFile}

lemma encode_file (h : c.encode = some bytes) : ∃ header bss, c.header = some header ∧
      List.Forall₂ (fun r bs => CaptureRecord.encode r = some bs) c.records bss ∧
      bytes = header++bss.flatten := by
  simp only [CaptureFile.encode,bind_eq_bind,bind_eq_some_iff] at h
  obtain ⟨header,hheader,bss,hrecords,hbytes⟩ := h
  exact ⟨header,bss,hheader,mapM_eq_some_iff.mp hrecords,(Option.some.inj hbytes).symm⟩

lemma header_isSome_iff : c.header.isSome = true ↔
    (0 ≤ c.baudrate ∧ c.baudrate < 256^4) ∧ (0 ≤ c.flags ∧ c.flags < 256^2) := by
  rw [← pack_isSome_iff,← pack_isSome_iff,CaptureFile.header]
  cases pack 4 c.baudrate with
  | none => simp
  | some baudrate => cases pack 2 c.flags with
      | none => simp
      | some flags => simp

lemma record_isSome_iff (hdata : r.data.length ≤ 65535) :
    r.encode.isSome = true ↔ 0 ≤ r.timestampUs ∧ r.timestampUs < 256^8 := by
  have hlength : (pack 2 r.data.length).isSome = true := by
    rw [pack_isSome_iff]
    omega
  obtain ⟨length,hlength⟩ := isSome_iff_exists.mp hlength
  rw [← pack_isSome_iff,CaptureRecord.encode,hlength]
  cases pack 8 r.timestampUs with
  | none => simp
  | some timestamp => simp

lemma encode_isSome_iff (hdata : ∀ r ∈ c.records,r.data.length ≤ 65535) :
    c.encode.isSome = true ↔ c.Fits := by
  have hrecords : (c.records.mapM CaptureRecord.encode).isSome = true ↔
      ∀ r ∈ c.records,0 ≤ r.timestampUs ∧ r.timestampUs < 256^8 := by
    rw [mapM_isSome_iff]
    exact forall₂_congr fun r hr => record_isSome_iff (hdata r hr)
  rw [CaptureFile.Fits,← and_assoc,← header_isSome_iff,← hrecords,CaptureFile.encode]
  cases c.header with
  | none => simp
  | some header => cases c.records.mapM CaptureRecord.encode with
      | none => simp
      | some bss => simp

/-- Exactly the files whose integers fit can be written. They are read back, and of a file
that is cut off after the header the records before the cut. -/
theorem capture_round_trip (c : CaptureFile) (hchip : (Utf8.encode c.chip).length ≤ 32)
    (hnul : c.chip.getLast? ≠ some (Char.ofNat 0))
    (hdata : ∀ r ∈ c.records,r.data.length ≤ 65535) :
    (c.encode.isSome = true ↔ c.Fits) ∧
      ∀ bytes,c.encode = some bytes → decode bytes = .ok c ∧
        ∀ n,headerSize ≤ n → ∃ k,
          decode (bytes.take n) = .ok {c with records := c.records.take k} := by
  refine ⟨encode_isSome_iff hdata,fun bytes hbytes => ?_⟩
  obtain ⟨header,bss,hheader,hrecords,rfl⟩ := encode_file hbytes
  have hsize := header_length hheader
  -- the whole file is a cut at its end
  have hcut : ∀ m,∃ k,decode (header++bss.flatten.take m) =
      .ok {c with records := c.records.take k} ∧
        (bss.flatten.length ≤ m → c.records.length ≤ k) := by
    intro m
    have hfuel : (bss.flatten.take m).length ≤ (header++bss.flatten.take m).length := by
      rw [length_append]
      omega
    obtain ⟨k,hdecode,hall⟩ := decodeRecords_take hrecords _ m hfuel
    refine ⟨k,?_,hall⟩
    rw [decode_header hheader hchip hnul,hdecode]
    rfl
  constructor
  · obtain ⟨k,hdecode,hall⟩ := hcut bss.flatten.length
    rw [take_length,take_of_length_le (hall le_rfl)] at hdecode
    exact hdecode
  · intro n hn
    obtain ⟨k,hdecode,_⟩ := hcut (n-headerSize)
    refine ⟨k,?_⟩
    rw [← hdecode,← hsize,take_append,take_of_length_le (by omega)]

def sample : CaptureFile where
  baudrate := 115200
  chip := ['g','k']
  flags := 1
  records := [⟨7,.tx,[0xAA]⟩,⟨9,.rx,[]⟩]

theorem sample_round_trip : (sample.encode.isSome = true ↔ sample.Fits) ∧
    ∀ bytes,sample.encode = some bytes → decode bytes = .ok sample ∧
      ∀ n,headerSize ≤ n → ∃ k,
        decode (bytes.take n) = .ok {sample with records := sample.records.take k} :=
  capture_round_trip sample (by decide) (by decide) (by decide)

/-- A baud rate of 2^32 has no place in the header. -/
theorem large_baudrate_refused :
    (Utf8.encode {sample with baudrate := 4294967296}.chip).length ≤ 32 ∧
      {sample with baudrate := 4294967296}.chip.getLast? ≠ some (Char.ofNat 0) ∧
      (∀ r ∈ {sample with baudrate := 4294967296}.records,r.data.length ≤ 65535) ∧
      {sample with baudrate := 4294967296}.encode = none := by
  decide

end Files

end Defib.CaptureFormat
