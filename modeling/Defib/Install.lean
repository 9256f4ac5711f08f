import Defib.ConsoleDump
import Defib.Crc32
import Defib.UbootReplies

/-!
# Installation on a NOR board

`run_install` for a NOR request, as a program in dialogue with U-Boot: the stage plan and
the checks on the options, the layout for the size that is detected or given, and the
flash, environment and reset stages. The phases before the dialogue (archive, power,
boot loader in RAM, TFTP server) are inputs: what they leave behind. A reply is a
transport failure or a text; in download mode a text comes with a status. A failing
program is an installation that ends with an error.
-/
namespace Defib.Install
open Words PyText Regex UbootReplies Dialogue

/-! ### The plan -/

inductive Stage
  | uboot
  | kernel
  | rootfs
  | rootfsData
  | env
  | reset
  deriving DecidableEq, Repr

def installStageOrder : List (String × Stage) :=
  [("uboot",.uboot),("kernel",.kernel),("rootfs",.rootfs),("rootfs-data",.rootfsData),
    ("env",.env),("reset",.reset)]

inductive StageError
  | together
  | unknown (names : List (List Char))
  | resetConflict
  | empty
  deriving DecidableEq, Repr

def stageNames (given : List (List Char)) : List (List Char) :=
  (given.filter fun s => stripText s ≠ []).map fun s => lower (stripText s)

def resolveInstallStages (selected skipped : List (List Char)) (finalReset : Bool) :
    Except StageError (List Stage) :=
  let selectedSet := stageNames selected
  let skippedSet := stageNames skipped
  let unknown := (selectedSet++skippedSet).filter fun n =>
    !installStageOrder.any fun s => s.1.toList = n
  if selectedSet ≠ [] ∧ skippedSet ≠ [] then .error .together
  else if unknown ≠ [] then .error (.unknown unknown)
  else if selectedSet ≠ [] ∧ finalReset = false ∧ "reset".toList ∈ selectedSet then
    .error .resetConflict
  else
    let active := installStageOrder.filter fun s =>
      if selectedSet ≠ [] then s.1.toList ∈ selectedSet
      else s.1.toList ∉ skippedSet ∧ (s.2 = .reset → finalReset = true)
    if active = [] then .error .empty else .ok (active.map (·.2))

/-- Offset and size. -/
abbrev Span := ℕ × ℕ

structure Layout where
  boot : Span
  env : Span
  kernel : Span
  rootfs : Span
  deriving DecidableEq, Repr

def nor8mLayout : Layout :=
  ⟨(0x000000,0x40000),(0x040000,0x10000),(0x050000,0x200000),(0x250000,0x500000)⟩
def nor16mLayout : Layout :=
  ⟨(0x000000,0x40000),(0x040000,0x10000),(0x050000,0x300000),(0x350000,0xA00000)⟩
def nor32mLayout : Layout :=
  ⟨(0x000000,0x40000),(0x040000,0x10000),(0x050000,0x300000),(0x350000,0x1800000)⟩

def standardNorBootArea : ℕ × ℕ := (0x40000,0x10000)

def mib (n : ℕ) : ℕ := n*1024*1024

def norLayout (norMb : ℕ) (bootArea : ℕ × ℕ) : Layout :=
  if bootArea ≠ standardNorBootArea then
    let firmware := bootArea.1+bootArea.2
    ⟨(0,bootArea.1),(bootArea.1,bootArea.2),(firmware,0),(firmware,mib norMb-firmware)⟩
  else if 32 ≤ norMb then nor32mLayout
  else if 16 ≤ norMb then nor16mLayout
  else nor8mLayout

/-- `int.from_bytes`, most significant byte first. -/
def bigEndian (bs : List Byte) : ℕ := bs.foldl (fun v b => v*256+b.toNat) 0

def roundToBlock (n : ℕ) : ℕ := (n+0x10000-1)/0x10000*0x10000

/-- `split_image_end`; `none` is a `ValueError`. -/
def splitImageEnd (image : List Byte) : Option ℕ :=
  let data := bigEndian ((image.drop 12).take 4)
  let squash := roundToBlock (64+data)
  let used := bigEndian ((image.drop (squash+40)).take 8).reverse
  if image.take 4 ≠ [0x27,0x05,0x19,0x56] then none
  else if data = 0 then none
  else if image.length < squash+48 ∨ (image.drop squash).take 4 ≠ [0x68,0x73,0x71,0x73] then none
  else if used = 0 ∨ image.length < squash+used then none
  else if squash+roundToBlock used < image.length then none
  else some (squash+roundToBlock used)

/-- The payloads of an archive. In a split package the image is carried as the rootfs, and
it has been checked. -/
structure FirmwareBundle where
  kernel : List Byte
  rootfs : List Byte
  split : Bool
  imageEnd : ℕ
  split_checked : split = true → splitImageEnd rootfs = some imageEnd

/-- What is looked up for the chip. -/
structure Chip where
  bootArea : ℕ × ℕ
  supportsNorSplit : Bool
  stock : Bool
  ramAddr : ℕ

structure InstallRequest where
  chip : Chip
  firmware : FirmwareBundle
  uboot : List Byte
  deviceIp : List Char
  norSize : ℕ
  wipeEnv : Bool
  wipeRootfsData : Bool
  finalReset : Bool
  stages : List (List Char)
  skipStages : List (List Char)

/-- What the phases before the dialogue leave behind: the address kept from a stock
environment has been checked there. -/
structure Surroundings where
  downloadMode : Bool
  vendorChainloaded : Bool
  preservedEth : Option (List Char)
  preserved_valid : ∀ v ∈ preservedEth,isMac v = true
  serverIp : List Char
  random : List Byte

structure Job where
  request : InstallRequest
  around : Surroundings

/-- `pad_to_size`; `none` is a `ValueError`. -/
def padToSize (data : List Byte) (size : ℕ) : Option (List Byte) :=
  if size < data.length then none else some (data++List.replicate (size-data.length) 0xFF)

/-- The options that are refused before the dialogue. -/
def refused (j : Job) (stages : List Stage) : Bool :=
  let q := j.request
  let selected := stageNames q.stages
  let skipped := stageNames q.skipStages
  (q.wipeRootfsData && selected ≠ [] && "rootfs-data".toList ∉ selected) ||
  (q.wipeRootfsData && "rootfs-data".toList ∈ skipped) ||
  (q.chip.stock && .env ∈ stages && !q.wipeEnv) ||
  (!q.firmware.split && q.chip.bootArea ≠ standardNorBootArea) ||
  (q.firmware.split && (!q.chip.supportsNorSplit || q.chip.stock ||
    (q.wipeRootfsData && .rootfs ∉ stages))) ||
  (j.around.vendorChainloaded && .uboot ∉ stages && (q.wipeRootfsData ||
    stages.any (· ∈ [Stage.kernel,.rootfs,.rootfsData,.env]))) ||
  (q.chip.stock && j.around.downloadMode)

/-! ### The dialogue -/

inductive Payload
  | uboot
  | kernel
  | rootfs
  deriving DecidableEq, Repr

inductive Command
  | setenv (key value : List Char)
  | printenv (key : List Char)
  | sfProbe
  | sfLock
  | sfRead (addr off size : ℕ)
  /-- `sf read` and `crc32` on one line. -/
  | sfReadCrc (addr off size : ℕ)
  | crc32 (addr size : ℕ)
  | crc32Store (addr size store : ℕ)
  | compareWord (a b : ℕ)
  /-- With the address, or relying on `loadaddr`. -/
  | tftpboot (addr : Option ℕ) (name : List Char)
  | tftp (addr : Option ℕ) (name : List Char)
  | sfErase (off size : ℕ)
  | sfWrite (addr off size : ℕ)
  | envDefault
  | saveenv
  | reset
  /-- Ctrl-C until the shell is there. -/
  | interrupt
  deriving DecidableEq

/-- A command with the payload it is sent for and the NOR size in use. -/
structure Query where
  payload : Option Payload
  norMb : ℕ
  cmd : Command
  deriving DecidableEq

inductive Reply
  | error (text : List Char)
  | answer (ok : Bool) (text : List Char)
  deriving DecidableEq

def Reply.text : Reply → List Char
  | .error text => text
  | .answer _ text => text

abbrev Session := Program Query Reply

section
variable (j : Job) (p : Option Payload) (norMb : ℕ)

def stock : Bool := j.request.chip.stock
def split : Bool := j.request.firmware.split
def ramAddr : ℕ := j.request.chip.ramAddr

/-- `_cmd_result`, in download mode and in the shell. -/
def cmdResult (allowFailure : Bool) (c : Command) : Session (Bool × List Char) := do
  match ← ask ⟨p,norMb,c⟩ with
  | .error text => if allowFailure then pure (false,text) else .fail
  | .answer ok text =>
    if j.around.downloadMode then
      if !ok && !allowFailure then .fail else pure (ok,text)
    else if allowFailure || !has "unknown command" (lower text) then pure (true,text)
    else
      match ← ask ⟨p,norMb,c⟩ with
      | .error _ => .fail
      | .answer _ text => pure (true,text)

def cmd (c : Command) : Session (List Char) := do
  let r ← cmdResult j p norMb false c
  pure r.2

/-- A flash command whose reply must not report an error. -/
def flashCmd (c : Command) : Session (List Char) := do
  let text ← cmd j p norMb c
  if (flashCommandError text).isSome then .fail else pure text

def setEnvVerified (key value : List Char) : ℕ → Session Unit
  | 0 => .fail
  | attempts+1 => do
    let text ← cmd j p norMb (.setenv key value)
    if (flashCommandError text).isSome then setEnvVerified key value attempts
    else do
      let text ← cmd j p norMb (.printenv key)
      if parsePrintenv text key = some value then pure ()
      else setEnvVerified key value attempts

def optionalPrintenv (key : List Char) : Session (List Char) := do
  let r ← cmdResult j p norMb true (.printenv key)
  if r.1 then pure r.2
  else if contains (lower key) (lower r.2) && has "not defined" (lower r.2) then pure r.2
  else .fail

def readEnv (key : List Char) : Session (Option (List Char)) := do
  let text ← optionalPrintenv j p norMb key
  pure (parsePrintenv text key)

def unlockNor : Session Unit := do
  let r ← cmdResult j p norMb true .sfLock
  if !r.1 then
    if j.around.downloadMode && sfLockUnsupported r.2 then pure () else .fail
  else if sfLockUnsupported r.2 then pure ()
  else if (flashCommandError r.2).isSome then .fail
  else pure ()

def resetCommand : Session Unit :=
  if j.around.downloadMode then do
    let _ ← cmdResult j p norMb true .reset
    pure ()
  else do
    match ← ask ⟨p,norMb,.reset⟩ with
    | .error _ => .fail
    | .answer _ _ => pure ()

/-- `_wait_for_openipc_shell_after_reset`. -/
def waitForShell : Session Unit := do
  match ← ask ⟨p,norMb,.interrupt⟩ with
  | .answer true _ => pure ()
  | _ => .fail

/-! ### One payload -/

/-- The transfer, with the older name of the command as a fallback. -/
def fetch (name : List Char) : Session (Bool × List Char) := do
  let addr := if stock j then none else some (ramAddr j)
  let r ← cmdResult j p norMb true (.tftpboot addr name)
  if reportsUnknownCommand r.2 "tftpboot" then cmdResult j p norMb true (.tftp addr name)
  else pure r

/-- `run_uboot_tftp`; `none` is its `RuntimeError`. -/
def tftpToRam (name : List Char) : Session (Option (List Char)) := do
  let r ← fetch j p norMb name
  if r.1 && (has "done" (lower r.2) || has "bytes transferred" (lower r.2)) then pure (some r.2)
  else pure none

def crcOf (data : List Byte) : ℕ := (Crc32.crc32 0 data).toNat

/-- One transfer and the check of the copy in RAM. -/
def stageInRam (name : List Char) (data : List Byte) : Session Bool := do
  match ← tftpToRam j p norMb name with
  | none => pure false
  | some text =>
    if (transferredSize text).any (· ≠ data.length) then pure false
    else do
      let r ← cmdResult j p norMb true (.crc32 (ramAddr j) data.length)
      pure (r.1 && parseCrc32 r.2 = some (crcOf data))

def verifyTftpRam (name : List Char) (data : List Byte) : Session Unit := do
  if ← stageInRam j p norMb name data then pure ()
  else if ← stageInRam j p norMb name data then pure ()
  else .fail

def writeAndVerify (data : List Byte) (off : ℕ) : Session Unit := do
  let _ ← flashCmd j p norMb (.sfWrite (ramAddr j) off data.length)
  let _ ← flashCmd j p norMb (.sfRead (ramAddr j) off data.length)
  let text ← cmd j p norMb (.crc32 (ramAddr j) data.length)
  if parseCrc32 text = some (crcOf data) then pure () else .fail

def tftpAndFlash (name : List Char) (data : List Byte) (off eraseSize : ℕ) : Session Unit := do
  verifyTftpRam j p norMb name data
  let _ ← flashCmd j p norMb (.sfErase off eraseSize)
  writeAndVerify j p norMb data off

end

section
variable (j : Job) (stages : List Stage)

def needsTftp : Bool :=
  stages.any (· ∈ if split j then [Stage.uboot,.rootfs] else [Stage.uboot,.kernel,.rootfs])

def erasedRegionCrc (size : ℕ) : ℕ := crcOf (List.replicate size 0xFF)

/-- The erase of a region without a payload, with the check that it reads back erased. -/
def eraseVerified (norMb : ℕ) (span : Span) : Session Unit := do
  let _ ← flashCmd j none norMb (.sfErase span.1 span.2)
  let text ← flashCmd j none norMb (.sfReadCrc (ramAddr j) span.1 span.2)
  if parseCrc32 text = some (erasedRegionCrc span.2) then pure () else .fail

/-! ### Size and layout -/

/-- The first size whose last bytes can be read. -/
def probeSizes : List ℕ → Session (Option ℕ)
  | [] => pure none
  | candidate::rest => do
    let r ← cmdResult j none 0 true (.sfRead (ramAddr j) (mib candidate-16) 0x10)
    if r.1 && (j.around.downloadMode || sfReadSucceeded r.2) then pure (some candidate)
    else probeSizes rest

/-- `select_nor_size_mb`; `none` is a `ValueError`. -/
def selectNorSizeMb (override : ℕ) (detected : Option ℕ) (requireDetection : Bool) : Option ℕ :=
  if override ≠ 0 then some override
  else
    match detected with
    | some n => some n
    | none => if requireDetection then none else some 8

def probeFlash : Session (ℕ × ℕ) := do
  let text ← flashCmd j none 0 .sfProbe
  let detected ← match detectNorSizeMb text with
    | some n => pure (some n)
    | none => probeSizes j [32,16,8]
  match selectNorSizeMb j.request.norSize detected (stock j) with
  | none => .fail
  | some norMb => pure (norMb,eraseBlock text)

def layoutFor (norMb : ℕ) : Layout := norLayout norMb j.request.chip.bootArea

/-- The payloads have to fit their slots; a split image leaves room for settings. -/
def fits (norMb block : ℕ) : Bool :=
  if split j then
    (layoutFor j norMb).kernel.1+j.request.firmware.imageEnd+block ≤ mib norMb
  else
    j.request.firmware.kernel.length ≤ (layoutFor j norMb).kernel.2 ∧
      j.request.firmware.rootfs.length ≤ (layoutFor j norMb).rootfs.2

def rootfsSpan (norMb : ℕ) : Span :=
  if split j then
    ((layoutFor j norMb).kernel.1,mib norMb-(layoutFor j norMb).kernel.1)
  else (layoutFor j norMb).rootfs

/-! ### The stages -/

def ipaddr : List Char := "ipaddr".toList
def serverip : List Char := "serverip".toList
def loadaddr : List Char := "loadaddr".toList
def ethaddr : List Char := "ethaddr".toList
def totalmem : List Char := "totalmem".toList
def mtdparts : List Char := "mtdparts".toList

/-- The runtime settings of the one registered stock board. -/
def transientEnv : List (List Char × List Char) := [("phyaddru".toList,['3'])]

def setupNetwork (norMb : ℕ) : Session Unit :=
  if needsTftp j stages then
    if stock j then do
      setEnvVerified j none norMb ipaddr j.request.deviceIp 3
      setEnvVerified j none norMb serverip j.around.serverIp 3
      setEnvVerified j none norMb loadaddr (ConsoleDump.hexWord (ramAddr j)) 3
    else do
      let _ ← cmd j none norMb (.setenv ipaddr j.request.deviceIp)
      let _ ← cmd j none norMb (.setenv serverip j.around.serverIp)
      pure ()
  else pure ()

/-- The boot partition, with the environment behind it when that is to be wiped too. -/
def ubootFlashSize : ℕ :=
  let area := j.request.chip.bootArea
  if j.request.wipeEnv && .env ∈ stages && !stock j then area.1+area.2 else area.1

/-- Runs a part of the installation under a condition. -/
def when (c : Bool) (part : Session Unit) : Session Unit := if c then part else pure ()

def flashPayloads (norMb : ℕ) (ubootData : List Byte) : Session Unit := do
  when (.uboot ∈ stages)
    (tftpAndFlash j (some .uboot) norMb ['u'] ubootData 0 (ubootFlashSize j stages))
  when (.kernel ∈ stages && !split j)
    (tftpAndFlash j (some .kernel) norMb ['k'] j.request.firmware.kernel
      (layoutFor j norMb).kernel.1 (layoutFor j norMb).kernel.2)
  when (.rootfs ∈ stages)
    (tftpAndFlash j (some .rootfs) norMb ['r'] j.request.firmware.rootfs
      (rootfsSpan j norMb).1 (rootfsSpan j norMb).2)

/-- The rest of the chip behind the rootfs slot. -/
def dataSpan (norMb : ℕ) : Span :=
  let off := (rootfsSpan j norMb).1+(rootfsSpan j norMb).2
  (off,mib norMb-off)

def erasesRootfsData : Bool :=
  !split j && (j.request.wipeRootfsData || (.rootfsData ∈ stages && stock j))

def eraseRootfsData (norMb block : ℕ) : Session Unit :=
  if (dataSpan j norMb).2 = 0 ∨ ¬ (block ∣ (dataSpan j norMb).1 ∧ block ∣ (dataSpan j norMb).2) then
    .fail
  else eraseVerified j norMb (dataSpan j norMb)

/-- The environment of a stock board is erased and U-Boot restarted; the MAC address is kept. -/
def clearEnvironment (norMb block : ℕ) : Session (List Char) := do
  let current ← readEnv j none norMb ethaddr
  match selectInstallEthaddr current j.around.preservedEth none with
  | none => .fail
  | some eth =>
    let span := (layoutFor j norMb).env
    if ¬ (block ∣ span.1 ∧ block ∣ span.2) then .fail
    else do
      eraseVerified j norMb span
      resetCommand j none norMb
      waitForShell none norMb
      let _ ← flashCmd j none norMb .sfProbe
      unlockNor j none norMb
      pure eth

def norMtdparts (norMb : ℕ) : List Char :=
  if 32 ≤ norMb then
    "hi_sfc:256k(boot),64k(env),3072k(kernel),24576k(rootfs),-(rootfs_data)".toList
  else if 16 ≤ norMb then
    "hi_sfc:256k(boot),64k(env),3072k(kernel),10240k(rootfs),-(rootfs_data)".toList
  else "hi_sfc:256k(boot),64k(env),2048k(kernel),5120k(rootfs),-(rootfs_data)".toList

/-- The defaults of a U-Boot that finds the layout itself; the result is the MAC address it
had before. -/
def loadDefaults (norMb : ℕ) : Session (Option (List Char)) := do
  let eth ← readEnv j none norMb ethaddr
  let mem ← readEnv j none norMb totalmem
  let _ ← flashCmd j none norMb .envDefault
  match mem with
  | none => pure eth
  | some [] => pure eth
  | some v => do
    let _ ← cmd j none norMb (.setenv totalmem v)
    pure eth

/-- The boot settings; the result is a MAC address to carry over. -/
def bootSettings (norMb : ℕ) : Session (Option (List Char)) :=
  if j.request.chip.supportsNorSplit && !stock j then
    if .uboot ∈ stages then loadDefaults j norMb else pure none
  else if stock j then do
    setEnvVerified j none norMb mtdparts (norMtdparts norMb) 3
    pure none
  else do
    let _ ← cmd j none norMb (.setenv mtdparts (norMtdparts norMb))
    let _ ← cmd j none norMb (.setenv "bootcmd".toList "$\x7bbootcmdnor\x7d".toList)
    pure none

def verifySpiEnvironment (norMb : ℕ) (span : Span) : Session Unit :=
  if span.2 ≤ 4 then .fail
  else do
    let _ ← flashCmd j none norMb .sfProbe
    let _ ← flashCmd j none norMb (.sfRead (ramAddr j) span.1 span.2)
    let text ← cmd j none norMb (.crc32Store (ramAddr j+4) (span.2-4) (ramAddr j+span.2))
    if (parseCrc32 text).isNone then .fail
    else do
      let text ← flashCmd j none norMb (.compareWord (ramAddr j) (ramAddr j+span.2))
      if wordSame text then pure () else .fail

/-- The saved environment of a stock board is read back. -/
def verifySaved (norMb : ℕ) (eth : List Char) : Session Unit := do
  verifySpiEnvironment j norMb (layoutFor j norMb).env
  let saved ← readEnv j none norMb ethaddr
  if saved.map lower ≠ some (lower eth) then .fail
  else do
    let saved ← readEnv j none norMb mtdparts
    if saved = some (norMtdparts norMb) then pure () else .fail

/-- The MAC address is set unless it is there already. -/
def setEthaddr (norMb : ℕ) (current : Option (List Char)) (eth : List Char) : Session Unit :=
  if current.map lower = some (lower eth) then pure ()
  else if stock j then setEnvVerified j none norMb ethaddr eth 3
  else do
    let _ ← cmd j none norMb (.setenv ethaddr eth)
    pure ()

/-- The env stage behind the erase of a stock environment; `kept` is the address from there. -/
def saveEnvironment (norMb : ℕ) (kept : Option (List Char)) : Session Unit := do
  let carried ← bootSettings j stages norMb
  let current ← readEnv j none norMb ethaddr
  let rescue := if stock j then none else some (locallyAdministeredMac j.around.random)
  match selectInstallEthaddr current (kept.or carried) rescue with
  | none => .fail
  | some eth => do
    setEthaddr j norMb current eth
    let _ ← flashCmd j none norMb .saveenv
    when (stock j) (verifySaved j norMb eth)

def envStage (norMb block : ℕ) : Session Unit :=
  if .env ∈ stages then
    if stock j then do
      let eth ← clearEnvironment j norMb block
      saveEnvironment j stages norMb (some eth)
    else saveEnvironment j stages norMb j.around.preservedEth
  else pure ()

/-- What comes after the size and the layout are known. -/
def installOn (ubootData : List Byte) (norMb block : ℕ) : Session Unit := do
  when (j.request.wipeRootfsData || stages.any (· ≠ .reset)) (unlockNor j none norMb)
  setupNetwork j stages norMb
  flashPayloads j stages norMb ubootData
  when (erasesRootfsData j stages) (eraseRootfsData j norMb block)
  envStage j stages norMb block
  when (.reset ∈ stages) (resetCommand j none norMb)

/-- The settings of a stock board are applied before the flash is probed. -/
def applyStockEnv : Session Unit := do
  match j.around.preservedEth with
  | none => pure ()
  | some eth => setEnvVerified j none 0 ethaddr eth 3
  when (needsTftp j stages && stock j)
    (transientEnv.foldlM (fun _ kv => setEnvVerified j none 0 kv.1 kv.2 3) ())

def installStages (ubootData : List Byte) : Session Unit := do
  applyStockEnv j stages
  let probed ← probeFlash j
  if fits j probed.1 probed.2 then installOn j stages ubootData probed.1 probed.2 else .fail

end

/-- `run_install` for a NOR request. -/
def runInstall (j : Job) : Session Unit :=
  match resolveInstallStages j.request.stages j.request.skipStages j.request.finalReset with
  | .error _ => .fail
  | .ok stages =>
    match padToSize j.request.uboot j.request.chip.bootArea.1 with
    | none => .fail
    | some ubootData => if refused j stages then .fail else installStages j stages ubootData

end Defib.Install
