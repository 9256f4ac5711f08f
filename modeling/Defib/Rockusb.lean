import Defib.Actions
import Defib.Endian
import Defib.Spans
import Defib.Words

/-!
# Images over rockusb

A command is a 31-byte wrapper with little-endian fields around a big-endian command block,
then data one way or the other, then a 13-byte status wrapper. The loader decodes the wrapper
and acts on the sectors it names. What varies from transfer to transfer is the tag the host
picks, whether all of the data moves, and the status wrapper that comes back.
-/
namespace Defib.Rockusb
open List Words Endian BlockMemory Spans Actions

def sectorSize : ℕ := 512
def maxSectorsPerTransfer : ℕ := 512
def cswLength : ℕ := 13
def cbwSignature : List Byte := [0x55,0x53,0x42,0x43]
def cswSignature : List Byte := [0x55,0x53,0x42,0x53]

/-- The operation codes that are issued. -/
inductive Opcode where
  | testUnitReady
  | readFlashId
  | eraseNormal
  | readLba
  | writeLba
  | readFlashInfo
  | readChipInfo
  | eraseLba
  | readCapability
  | resetDevice
  deriving DecidableEq, Repr

def Opcode.code : Opcode → ℕ
  | .testUnitReady => 0x00
  | .readFlashId => 0x01
  | .eraseNormal => 0x06
  | .readLba => 0x14
  | .writeLba => 0x15
  | .readFlashInfo => 0x1A
  | .readChipInfo => 0x1B
  | .eraseLba => 0x25
  | .readCapability => 0xAA
  | .resetDevice => 0xFF

/-- The opcodes with an address; also those whose residue means something. -/
def Opcode.addressed (op : Opcode) : Bool := op = .readLba || op = .writeLba || op = .eraseLba

def cdbLength (op : Opcode) : ℕ := if op.addressed then 10 else 6

section Wrappers

/-- `struct.pack` of an unsigned field of `k` bytes; `none` is the `struct.error`. -/
def pack (order : ℕ → ℕ → List Byte) (k v : ℕ) : Option (List Byte) :=
  if v < 256^k then some (order k v) else none

def buildCbw (tag : ℕ) (op : Opcode) (subcode address count transferLength : ℕ)
    (directionIn : Bool) : Option (List Byte) := do
  let transferLength :=
    if transferLength = 0 ∧ count ≠ 0 ∧ ¬(op = .eraseLba ∨ op = .eraseNormal) then
      count*sectorSize
    else transferLength
  let sub ← pack toBe 1 subcode
  let addr ← pack toBe 4 address
  let cnt ← pack toBe 2 count
  let len ← pack toLe 4 transferLength
  let cdb := BitVec.ofNat 8 op.code :: (sub++(addr++([0]++(cnt++List.replicate 7 0))))
  return cbwSignature++(toLe 4 (tag % 2^32)++(len++
    ([if directionIn then 0x80 else 0x00,0x00,BitVec.ofNat 8 (cdbLength op)]++cdb)))

inductive RockError where
  | structError
  | shortStatus (length : ℕ)
  | badSignature
  | tagMismatch (tag expected : ℕ)
  | writeShort (op : Opcode) (written length : ℕ)
  | statusReadFailed (op : Opcode)
  | failed (op : Opcode) (status residue : ℕ)
  | moved (op : Opcode) (residue transferLength : ℕ)
  | returned (op : Opcode) (length readLength : ℕ)
  deriving DecidableEq, Repr

def field (bytes : List Byte) (off n : ℕ) : List Byte := (bytes.drop off).take n

def parseCsw (data : List Byte) (expectedTag : ℕ) : Except RockError (ℕ × ℕ) :=
  if data.length < cswLength then .error (.shortStatus data.length)
  else if data.take 4 ≠ cswSignature then .error .badSignature
  else
    let tag := ofLe (field data 4 4)
    if tag ≠ expectedTag % 2^32 then .error (.tagMismatch tag (expectedTag % 2^32))
    else .ok (ofLe (field data 8 4),ofLe (field data 12 1))

end Wrappers

section Loader

/-- A command as the loader reads it. -/
structure Decoded where
  tag : ℕ
  length : ℕ
  directionIn : Bool
  code : ℕ
  address : ℕ
  count : ℕ
  deriving DecidableEq, Repr

/-- A wrapper with another declared length is ignored. -/
def decodeCbw (bytes : List Byte) : Option Decoded :=
  if bytes.length = 31 ∧ bytes.take 4 = cbwSignature ∧ ofLe (field bytes 14 1) = 10 then
    some ⟨ofLe (field bytes 4 4),ofLe (field bytes 8 4),field bytes 12 1 = [0x80],
      ofBe (field bytes 15 1),ofBe (field bytes 17 4),ofBe (field bytes 22 2)⟩
  else none

/-- The flash, byte by byte. -/
abbrev Disk := ℕ → Byte

/-- What the loader does about a command and the data that follows it: the flash afterwards and
the data it sends. -/
def serve (disk : Disk) (cbw dataOut : List Byte) : Disk × List Byte :=
  match decodeCbw cbw with
  | none => (disk,[])
  | some c =>
    if c.code = Opcode.writeLba.code ∧ c.directionIn = false ∧
        c.length = c.count*sectorSize ∧ dataOut.length = c.length then
      (patch disk (c.address*sectorSize) dataOut,[])
    else if c.code = Opcode.readLba.code ∧ c.directionIn = true ∧
        c.length = c.count*sectorSize then
      (disk,slice disk (c.address*sectorSize) (c.count*sectorSize))
    else (disk,[])

end Loader

section Host

/-- One exchange: the tag the host picks, the bytes of the data phase that do not move, and the
status wrapper, if one can be read. -/
structure Transfer where
  tag : ℕ
  missing : ℕ
  status : Option (List Byte)
  deriving DecidableEq, Repr

abbrev Usb := Act RockError Disk

def checkStatus (op : Opcode) (t : Transfer) (transferLength : ℕ) : Except RockError Unit :=
  match t.status with
  | none => .error (.statusReadFailed op)
  | some csw => do
    let (residue,status) ← parseCsw csw t.tag
    if status ≠ 0 then .error (.failed op status residue)
    else if residue ≠ 0 ∧ op.addressed then .error (.moved op residue transferLength)
    else .ok ()

/-- `command` after the data phase. -/
def conclude (t : Transfer) (op : Opcode) (dataOut payload : List Byte) (readLength : ℕ) :
    Except RockError (List Byte) :=
  let directionIn : Bool := 0 < readLength
  let transferLength := if directionIn then readLength else dataOut.length
  if !directionIn && dataOut ≠ [] && t.missing ≠ 0 then
    .error (.writeShort op (dataOut.length-t.missing) dataOut.length)
  else
    match checkStatus op t transferLength with
    | .error e => .error e
    | .ok _ =>
      if directionIn && payload.length ≠ readLength then
        .error (.returned op payload.length readLength)
      else .ok payload

def command (t : Transfer) (op : Opcode) (address count : ℕ) (dataOut : List Byte)
    (readLength : ℕ) : Usb (List Byte) := do
  let directionIn : Bool := 0 < readLength
  let transferLength := if directionIn then readLength else dataOut.length
  match buildCbw t.tag op 0 address count transferLength directionIn with
  | none => throw .structError
  | some cbw =>
    let disk ← get
    let (after,dataIn) := serve disk cbw (dataOut.take (dataOut.length-t.missing))
    set after
    let payload := (dataIn.take (dataIn.length-t.missing)).take readLength
    ExceptT.mk (pure (conclude t op dataOut payload readLength))

def splitLbaTransfers (start total maxSectors : ℕ) : List (ℕ × ℕ) :=
  spans (fun _ => maxSectors) start total

def padded (data : List Byte) : List Byte :=
  if data.length % sectorSize ≠ 0 then
    data++List.replicate (sectorSize-data.length % sectorSize) 0
  else data

/-- The exchanges of the transfers are given in order. -/
def writeLoop (start : ℕ) (data : List Byte) : (ℕ → Transfer) → List (ℕ × ℕ) → Usb Unit
  | _,[] => return ()
  | ts,(lba,count)::rest => do
    let offset := (lba-start)*sectorSize
    let _ ← command (ts 0) .writeLba lba count ((data.drop offset).take (count*sectorSize)) 0
    writeLoop start data (fun k => ts (k+1)) rest

def writeImage (ts : ℕ → Transfer) (start : ℕ) (data : List Byte) : Usb Unit :=
  let data := padded data
  let total := data.length/sectorSize
  writeLoop start data ts (splitLbaTransfers start total maxSectorsPerTransfer)

def readLoop : (ℕ → Transfer) → List (ℕ × ℕ) → Usb (List Byte)
  | _,[] => return []
  | ts,(lba,count)::rest => do
    let part ← command (ts 0) .readLba lba count [] (count*sectorSize)
    let more ← readLoop (fun k => ts (k+1)) rest
    return part++more

def readImage (ts : ℕ → Transfer) (start sectors : ℕ) : Usb (List Byte) :=
  readLoop ts (splitLbaTransfers start sectors maxSectorsPerTransfer)

end Host

variable {t : Transfer} {op : Opcode}

section Framing

lemma decodeCbw_buildCbw (hop : op = .readLba ∨ op = .writeLba)
    (tag : ℕ) {address count : ℕ} (haddress : address < 256^4) (hcount : 0 < count)
    (hmax : count ≤ 512) (directionIn : Bool) :
    ∃ cbw,buildCbw tag op 0 address count (count*sectorSize) directionIn = some cbw ∧
      decodeCbw cbw =
        some ⟨tag % 2^32,count*sectorSize,directionIn,op.code,address,count⟩ := by
  have htag : tag % 2^32 < 256^4 := Nat.mod_lt _ (by decide)
  have hcount2 : count < 256^2 := by omega
  have hlength : count*sectorSize < 256^4 := by rw [sectorSize]; omega
  have hgiven : ¬(count*sectorSize = 0 ∧ count ≠ 0 ∧ ¬(op = .eraseLba ∨ op = .eraseNormal)) := by
    rw [sectorSize]
    omega
  have hsub : pack toBe 1 0 = some [0] := rfl
  have haddr : pack toBe 4 address = some (toBe 4 address) := if_pos haddress
  have hcnt : pack toBe 2 count = some (toBe 2 count) := if_pos hcount2
  have hlen : pack toLe 4 (count*sectorSize) = some (toLe 4 (count*sectorSize)) := if_pos hlength
  rw [buildCbw]
  simp only [if_neg hgiven,hsub,haddr,hcnt,hlen]
  refine ⟨_,rfl,?_⟩
  have hfields : ∀ cbw,cbw = cbwSignature++(toLe 4 (tag % 2^32)++(toLe 4 (count*sectorSize)++
      ([if directionIn then 0x80 else 0x00,0x00,BitVec.ofNat 8 (cdbLength op)]++
        BitVec.ofNat 8 op.code :: ([0]++(toBe 4 address++([0]++(toBe 2 count++
          List.replicate 7 0))))))) →
      decodeCbw cbw = some ⟨ofLe (toLe 4 (tag % 2^32)),ofLe (toLe 4 (count*sectorSize)),directionIn,
        op.code,ofBe (toBe 4 address),ofBe (toBe 2 count)⟩ := by
    rintro cbw rfl
    rcases hop with rfl | rfl <;> cases directionIn <;> rfl
  rw [hfields _ rfl,ofLe_toLe htag,ofLe_toLe hlength,ofBe_toBe haddress,ofBe_toBe hcount2]

/-- The status wrapper of a command that went well. -/
def okStatus (tag : ℕ) : List Byte := cswSignature++(toLe 4 (tag % 2^32)++[0,0,0,0,0])

/-- An exchange in which all data moves and the status says so. -/
def Transfer.Good (t : Transfer) : Prop := t.missing = 0 ∧ t.status = some (okStatus t.tag)

/-- A status wrapper that is short, has another tag, a failure status or a residue. -/
def Transfer.BadStatus (t : Transfer) : Prop :=
  ∃ csw,t.status = some csw ∧ (csw.length < cswLength ∨ ofLe (field csw 4 4) ≠ t.tag % 2^32 ∨
    ofLe (field csw 12 1) ≠ 0 ∨ ofLe (field csw 8 4) ≠ 0)

lemma parseCsw_okStatus (tag : ℕ) : parseCsw (okStatus tag) tag = .ok (0,0) := by
  have htag : tag % 2^32 < 256^4 := Nat.mod_lt _ (by decide)
  have hfield : ofLe (field (okStatus tag) 4 4) = tag % 2^32 := ofLe_toLe htag
  have hlength : ¬(okStatus tag).length < cswLength := by
    rw [okStatus,length_append,length_append,toLe_length]
    decide
  have hsignature : ¬(okStatus tag).take 4 ≠ cswSignature := not_not.mpr rfl
  rw [parseCsw,if_neg hlength,if_neg hsignature]
  simp only [hfield,ne_eq,not_true,if_false]
  rfl

lemma checkStatus_good (h : t.Good) (op : Opcode) (n : ℕ) :
    checkStatus op t n = .ok () := by
  rw [checkStatus,h.2]
  simp only [parseCsw_okStatus]
  rfl

lemma not_badStatus (hop : op.addressed = true) {n : ℕ}
    (h : checkStatus op t n = .ok ()) : ¬t.BadStatus := by
  rintro ⟨csw,hcsw,hbad⟩
  rw [checkStatus,hcsw] at h
  dsimp only at h
  rw [parseCsw] at h
  by_cases hshort : csw.length < cswLength
  · rw [if_pos hshort] at h
    cases h
  rw [if_neg hshort] at h
  by_cases hsig : csw.take 4 ≠ cswSignature
  · rw [if_pos hsig] at h
    cases h
  rw [if_neg hsig] at h
  by_cases htag : ofLe (field csw 4 4) ≠ t.tag % 2^32
  · simp only [if_pos htag] at h
    cases h
  simp only [if_neg htag] at h
  change (if _ then _ else if _ then _ else _) = _ at h
  by_cases hstatus : ofLe (field csw 12 1) ≠ 0
  · rw [if_pos hstatus] at h
    cases h
  rw [if_neg hstatus] at h
  by_cases hresidue : ofLe (field csw 8 4) ≠ 0
  · rw [if_pos ⟨hresidue,hop⟩] at h
    cases h
  · tauto

end Framing

variable {disk disk' : Disk}

section Commands

lemma conclude_good (ht : t.Good) (op : Opcode) (dataOut payload : List Byte) :
    conclude t op dataOut payload payload.length = .ok payload := by
  rw [conclude]
  simp only [ht.1,checkStatus_good ht,ne_eq,not_true,decide_false,Bool.and_false,
    Bool.false_eq_true,if_false]

lemma conclude_ok {dataOut payload out : List Byte} {n : ℕ}
    (h : conclude t op dataOut payload n = .ok out) : ∃ k,checkStatus op t k = .ok () := by
  rw [conclude] at h
  generalize (if decide (0 < n) = true then n else dataOut.length) = k at h
  refine ⟨k,?_⟩
  cases hcheck : checkStatus op t k with
  | ok _ => rfl
  | error e =>
    rw [hcheck] at h
    split_ifs at h

lemma command_run {address count readLength : ℕ}
    {dataOut cbw : List Byte} (hcbw : buildCbw t.tag op 0 address count
      (if 0 < readLength then readLength else dataOut.length) (decide (0 < readLength)) = some cbw)
    {disk after : Disk} {dataIn : List Byte}
    (hserve : serve disk cbw (dataOut.take (dataOut.length-t.missing)) = (after,dataIn)) :
    command t op address count dataOut readLength disk =
      (conclude t op dataOut ((dataIn.take (dataIn.length-t.missing)).take readLength) readLength,
        after) := by
  have hget : (get : Usb Disk) disk = (.ok disk,disk) := rfl
  rw [command]
  simp only [decide_eq_true_eq,hcbw]
  rw [bind_ok hget,hserve]
  rfl

lemma command_write (ht : t.Good) {lba count : ℕ} (hlba : lba < 256^4)
    (hcount : 0 < count) (hmax : count ≤ 512) {data : List Byte}
    (hdata : data.length = count*sectorSize) (disk : Disk) :
    command t .writeLba lba count data 0 disk = (.ok [],patch disk (lba*sectorSize) data) := by
  obtain ⟨cbw,hcbw,hdecode⟩ := decodeCbw_buildCbw (.inr rfl) t.tag hlba hcount hmax false
  have hserve : serve disk cbw (data.take (data.length-t.missing)) =
      (patch disk (lba*sectorSize) data,[]) := by
    rw [ht.1,Nat.sub_zero,take_length,serve,hdecode]
    simp [hdata]
  have hbuild : buildCbw t.tag .writeLba 0 lba count (if 0 < 0 then 0 else data.length)
      (decide (0 < 0)) = some cbw := by
    rw [if_neg (Nat.lt_irrefl 0),decide_eq_false (Nat.lt_irrefl 0),hdata,hcbw]
  rw [command_run hbuild hserve,take_zero]
  exact congrArg (Prod.mk · _) (conclude_good ht .writeLba data [])

lemma command_read (ht : t.Good) {lba count : ℕ} (hlba : lba < 256^4)
    (hcount : 0 < count) (hmax : count ≤ 512) (disk : Disk) :
    command t .readLba lba count [] (count*sectorSize) disk =
      (.ok (slice disk (lba*sectorSize) (count*sectorSize)),disk) := by
  obtain ⟨cbw,hcbw,hdecode⟩ := decodeCbw_buildCbw (.inl rfl) t.tag hlba hcount hmax true
  have hpos : 0 < count*sectorSize := Nat.mul_pos hcount (by decide)
  have hserve : serve disk cbw (([] : List Byte).take (([] : List Byte).length-t.missing)) =
      (disk,slice disk (lba*sectorSize) (count*sectorSize)) := by
    rw [take_nil,serve,hdecode]
    simp [Opcode.code]
  have hbuild : buildCbw t.tag .readLba 0 lba count
      (if 0 < count*sectorSize then count*sectorSize else ([] : List Byte).length)
      (decide (0 < count*sectorSize)) = some cbw := by
    rw [if_pos hpos,decide_eq_true hpos,hcbw]
  have hgood := conclude_good ht .readLba [] (slice disk (lba*sectorSize) (count*sectorSize))
  rw [slice_length] at hgood
  rw [command_run hbuild hserve,ht.1,Nat.sub_zero,take_length,
    take_of_length_le (slice_length _ _ _).le,hgood]

lemma command_ok_status (hop : op.addressed = true)
    {address count readLength : ℕ} {dataOut out : List Byte}
    (h : command t op address count dataOut readLength disk = (.ok out,disk')) : ¬t.BadStatus := by
  cases hcbw : buildCbw t.tag op 0 address count
      (if 0 < readLength then readLength else dataOut.length) (decide (0 < readLength)) with
  | none =>
    rw [command] at h
    simp only [decide_eq_true_eq,hcbw] at h
    cases h
  | some cbw =>
    rw [command_run hcbw rfl] at h
    obtain ⟨k,hcheck⟩ := conclude_ok (congrArg Prod.fst h)
    exact not_badStatus hop hcheck

end Commands

section Images

lemma padded_length (data : List Byte) :
    (padded data).length = (data.length+511)/512*sectorSize := by
  rw [padded]
  split_ifs with h
  · rw [length_append,length_replicate]
    simp only [sectorSize] at h ⊢
    omega
  · simp only [sectorSize] at h ⊢
    omega

lemma writeLoop_ok (start : ℕ) (data : List Byte) (a n : ℕ) (ts : ℕ → Transfer)
    (hstart : start ≤ a) (hrange : a+n ≤ 256^4) (hdata : data.length = (a-start+n)*sectorSize)
    (hgood : ∀ k < (spans (fun _ => 512) a n).length,(ts k).Good) (disk : Disk) :
    writeLoop start data ts (spans (fun _ => 512) a n) disk =
      (.ok (),patch disk (a*sectorSize) (data.drop ((a-start)*sectorSize))) := by
  induction a, n using spans_induction (l := fun _ => 512) (fun _ => by decide)
    generalizing ts disk with
  | done a =>
    rw [Nat.add_zero] at hdata
    rw [drop_eq_nil_of_le hdata.le,patch_nil]
    rfl
  | piece a n hn ih =>
    have hspans := spans_pos (l := fun _ => 512) (fun _ => by decide) a n hn
    generalize hc : min 512 n = c at hspans ih
    rw [hspans,length_cons] at hgood
    have hoffset : (a+c-start)*sectorSize = (a-start)*sectorSize+c*sectorSize := by
      simp only [sectorSize]
      omega
    have hpart : ((data.drop ((a-start)*sectorSize)).take (c*sectorSize)).length =
      c*sectorSize := by
      rw [length_take,length_drop,hdata]
      simp only [sectorSize]
      omega
    have hleft : a-start+n = a+c-start+(n-c) := by omega
    have hwrite := command_write (hgood 0 (Nat.succ_pos _)) (show a < 256^4 by omega)
      (show 0 < c by omega) (show c ≤ 512 by omega) hpart disk
    have hloop := ih (fun k => ts (k+1)) (by omega) (by omega) (by rw [hdata,hleft])
      (fun k hk => hgood (k+1) (Nat.succ_lt_succ hk))
      (patch disk (a*sectorSize) ((data.drop ((a-start)*sectorSize)).take (c*sectorSize)))
    have hjoin := patch_append disk (a*sectorSize)
      ((data.drop ((a-start)*sectorSize)).take (c*sectorSize))
      ((data.drop ((a-start)*sectorSize)).drop (c*sectorSize))
    rw [hpart,take_append_drop,← Nat.add_mul,drop_drop,← hoffset] at hjoin
    rw [hspans,writeLoop,bind_ok hwrite,hloop,hjoin]

lemma readLoop_ok (a n : ℕ) (ts : ℕ → Transfer) (hrange : a+n ≤ 256^4)
    (hgood : ∀ k < (spans (fun _ => 512) a n).length,(ts k).Good) (disk : Disk) :
    readLoop ts (spans (fun _ => 512) a n) disk =
      (.ok (slice disk (a*sectorSize) (n*sectorSize)),disk) := by
  induction a, n using spans_induction (l := fun _ => 512) (fun _ => by decide)
    generalizing ts with
  | done a =>
    rw [Nat.zero_mul,slice_zero]
    rfl
  | piece a n hn ih =>
    have hspans := spans_pos (l := fun _ => 512) (fun _ => by decide) a n hn
    generalize hc : min 512 n = c at hspans ih
    rw [hspans,length_cons] at hgood
    have hread := command_read (hgood 0 (Nat.succ_pos _)) (show a < 256^4 by omega)
      (show 0 < c by omega) (show c ≤ 512 by omega) disk
    have hloop := ih (fun k => ts (k+1)) (by omega)
      (fun k hk => hgood (k+1) (Nat.succ_lt_succ hk))
    have hjoin := slice_add disk (a*sectorSize) (c*sectorSize) ((n-c)*sectorSize)
    rw [← Nat.add_mul,← Nat.add_mul,Nat.add_sub_cancel' (show c ≤ n by omega)] at hjoin
    rw [hspans,readLoop,bind_ok hread,bind_ok hloop,hjoin]
    rfl

lemma writeLoop_status {start : ℕ} {data : List Byte} {ts : ℕ → Transfer} {parts : List (ℕ × ℕ)}
    (h : writeLoop start data ts parts disk = (.ok (),disk')) :
    ∀ k < parts.length,¬(ts k).BadStatus := by
  induction parts generalizing ts disk with
  | nil => exact fun k hk => absurd hk (Nat.not_lt_zero k)
  | cons part parts ih =>
    obtain ⟨lba,count⟩ := part
    rw [writeLoop] at h
    obtain ⟨out,middle,hcommand,hrest⟩ := bind_eq_ok h
    intro k hk
    cases k with
    | zero => exact command_ok_status rfl hcommand
    | succ k => exact ih hrest k (Nat.lt_of_succ_lt_succ hk)

lemma readLoop_status {ts : ℕ → Transfer} {parts : List (ℕ × ℕ)} {out : List Byte}
    (h : readLoop ts parts disk = (.ok out,disk')) :
    ∀ k < parts.length,¬(ts k).BadStatus := by
  induction parts generalizing ts disk disk' out with
  | nil => exact fun k hk => absurd hk (Nat.not_lt_zero k)
  | cons part parts ih =>
    obtain ⟨lba,count⟩ := part
    rw [readLoop] at h
    obtain ⟨first,middle,hcommand,hrest⟩ := bind_eq_ok h
    obtain ⟨more,last,hloop,_⟩ := bind_eq_ok hrest
    intro k hk
    cases k with
    | zero => exact command_ok_status rfl hcommand
    | succ k => exact ih hloop k (Nat.lt_of_succ_lt_succ hk)

def sectorsOf (image : List Byte) : ℕ := (image.length+511)/512

/-- Number of transfers for so many sectors. -/
def transfersOf (start sectors : ℕ) : ℕ :=
  (splitLbaTransfers start sectors maxSectorsPerTransfer).length

/-- The image, filled up to whole sectors with zeros. -/
theorem padded_eq (image : List Byte) :
    padded image = image++List.replicate (sectorsOf image*512-image.length) 0 := by
  rw [padded,sectorsOf]
  split_ifs with h
  · rw [sectorSize] at h ⊢
    congr 2
    omega
  · rw [sectorSize] at h
    rw [show (image.length+511)/512*512-image.length = 0 by omega,replicate_zero,
      append_nil]

/-- An image is written to its sectors and read back, with zeros up to the end of its last
sector; a bad status makes the call raise. -/
theorem image_written_and_read (start : ℕ) (image : List Byte)
    (hrange : start+sectorsOf image ≤ 2^32) (ts us : ℕ → Transfer) (disk : Disk) :
    ((∀ k < transfersOf start (sectorsOf image),(ts k).Good) →
      writeImage ts start image disk = (.ok (),patch disk (start*sectorSize)
        (image++List.replicate (sectorsOf image*512-image.length) 0))) ∧
    ((∀ k < transfersOf start (sectorsOf image),(us k).Good) →
      readImage us start (sectorsOf image) (patch disk (start*sectorSize)
          (image++List.replicate (sectorsOf image*512-image.length) 0)) =
        (.ok (image++List.replicate (sectorsOf image*512-image.length) 0),
          patch disk (start*sectorSize)
            (image++List.replicate (sectorsOf image*512-image.length) 0))) ∧
    ((∃ k < transfersOf start (sectorsOf image),(ts k).BadStatus) →
      ∃ e d,writeImage ts start image disk = (.error e,d)) ∧
    ((∃ k < transfersOf start (sectorsOf image),(us k).BadStatus) →
      ∃ e d,readImage us start (sectorsOf image) disk = (.error e,d)) := by
  rw [← padded_eq]
  have hlen := padded_length image
  have htotal : (padded image).length/sectorSize = sectorsOf image := by
    rw [hlen,Nat.mul_div_cancel _ (by decide)]
    rfl
  refine ⟨?_,?_,?_,?_⟩
  · intro hgood
    have hloop := writeLoop_ok start (padded image) start (sectorsOf image) ts le_rfl hrange
      (by rw [Nat.sub_self,Nat.zero_add]; exact hlen) hgood disk
    rw [Nat.sub_self,Nat.zero_mul,drop_zero] at hloop
    rw [writeImage,htotal]
    exact hloop
  · intro hgood
    have hloop := readLoop_ok start (sectorsOf image) us hrange hgood
      (patch disk (start*sectorSize) (padded image))
    have hslice := slice_patch_self disk (start*sectorSize) (padded image)
    rw [hlen] at hslice
    exact hloop.trans (by rw [sectorsOf,hslice])
  · rintro ⟨k,hk,hbad⟩
    cases hrun : writeImage ts start image disk with
    | mk r d =>
      cases r with
      | error e => exact ⟨e,d,rfl⟩
      | ok _ =>
        rw [writeImage,htotal] at hrun
        exact absurd hbad (writeLoop_status hrun k hk)
  · rintro ⟨k,hk,hbad⟩
    cases hrun : readImage us start (sectorsOf image) disk with
    | mk r d =>
      cases r with
      | error e => exact ⟨e,d,rfl⟩
      | ok out => exact absurd hbad (readLoop_status hrun k hk)

def goodTransfer : Transfer := ⟨7,0,some (okStatus 7)⟩

/-- Two transfers up to the last sector, which has one byte of the image. -/
theorem last_sector_written_and_read :
    transfersOf (2^32-513) 513 = 2 ∧
    writeImage (fun _ => goodTransfer) (2^32-513) (List.replicate 262145 1) (fun _ => 0) =
        (.ok (),patch (fun _ => 0) ((2^32-513)*sectorSize)
          (List.replicate 262145 1++List.replicate 511 0)) := by
  have hsectors : sectorsOf (List.replicate 262145 1) = 513 := by
    rw [sectorsOf,length_replicate]
  have hmain := (image_written_and_read (2^32-513) (List.replicate 262145 1)
    (by rw [hsectors]; decide)
    (fun _ => goodTransfer) (fun _ => goodTransfer) (fun _ => 0)).1 fun _ _ => ⟨rfl,rfl⟩
  rw [hsectors,length_replicate] at hmain
  refine ⟨?_,hmain⟩
  simp [transfersOf,splitLbaTransfers,maxSectorsPerTransfer,spans_pos]

end Images

end Defib.Rockusb
