import Defib.NandCall
import Defib.Boards
import Defib.Actions

/-!
# Where the NAND study commands can write

`handle_nand` on the register level of the flash controller. Reads of controller
registers, of its I/O buffer and of memory give arbitrary values, so that a statement
about every state is one about every behaviour of controller and chip. Only the
configuration register remembers: it may force some of its bits, but a value read from it
can be written back. What the agent does is kept as a list of effects: its stores, the
commands it starts and the page transfers it hands to the controller.
-/
namespace Defib.NandStudy
open List Words AgentMachine NandCall Boards Actions

/-! ### The controller -/

/-- The registers of the controller that the commands use. -/
inductive Reg
  | cfg
  | int
  | intClr
  | cmd
  | addrH
  | addrL
  | opCfg
  | dataNum
  | op
  | dmaSaddrD0
  | dmaSaddrOob
  | opCtrl
  | eccErrNum0Buf0
  | other (off : ℕ)
  deriving DecidableEq

def Reg.ofOffset (off : ℕ) : Reg :=
  match off with
  | 0x00 => .cfg
  | 0x18 => .int
  | 0x20 => .intClr
  | 0x24 => .cmd
  | 0x28 => .addrH
  | 0x2C => .addrL
  | 0x30 => .opCfg
  | 0x38 => .dataNum
  | 0x3C => .op
  | 0x4C => .dmaSaddrD0
  | 0x5C => .dmaSaddrOob
  | 0x68 => .opCtrl
  | 0xC0 => .eccErrNum0Buf0
  | off => .other off

inductive Effect
  /-- A byte stored to memory. -/
  | store (addr : ℕ) (v : Byte)
  /-- A byte stored to the controller's I/O buffer. -/
  | window (i : ℕ) (v : Byte)
  /-- A command to the chip. -/
  | command (cmd addr : ℕ)
  /-- A page and its spare bytes transferred to memory. -/
  | dmaRead (page d0 oob : ℕ)
  | dmaWrite (page d0 oob : ℕ)

/-- What the configuration register makes of a value written to it. In normal mode its lowest
bit cannot be cleared. -/
structure ConfigRegister where
  latch : ℕ → ℕ
  latch_latch : ∀ v,latch (latch v) = latch v

structure Bus (c : ConfigRegister) where
  cfg : {v : ℕ // c.latch v = v}
  /-- The last value written to each register. -/
  written : Reg → ℕ
  answers : ℕ → ℕ
  /-- The number of answers used up. -/
  used : ℕ
  effects : List Effect

variable {c : ConfigRegister}

abbrev Agent (c : ConfigRegister) (A : Type) := Act Empty (Bus c) A

def answered : Agent c ℕ := fun b => (.ok (b.answers b.used),{b with used := b.used+1})

def readReg (r : Reg) : Agent c ℕ :=
  if r = .cfg then fun b => (.ok b.cfg.1,b) else do return u32 (← answered)

/-- A byte of the I/O buffer or of memory. -/
def readByte : Agent c Byte := do return BitVec.ofNat 8 (← answered)

/-- The page that block and page number in the address registers stand for. -/
def dmaPage (addrH addrL : ℕ) : ℕ :=
  (addrH%256*1024+addrL/4194304%1024)*64+addrL/65536%64

def started (written : Reg → ℕ) (r : Reg) (v : ℕ) : List Effect :=
  match r with
  | .op => if v.testBit 0 then [.command (written .cmd) (written .addrL)] else []
  | .opCtrl =>
    let page := dmaPage (written .addrH) (written .addrL)
    if v.testBit 0 then
      if v.testBit 1 then [.dmaWrite page (written .dmaSaddrD0) (written .dmaSaddrOob)]
      else [.dmaRead page (written .dmaSaddrD0) (written .dmaSaddrOob)]
    else []
  | _ => []

def writeReg (r : Reg) (v : ℕ) : Agent c Unit := fun b =>
  (.ok (),{b with
    cfg := if r = .cfg then ⟨c.latch v,c.latch_latch v⟩ else b.cfg
    written := Function.update b.written r v
    effects := b.effects++started b.written r v})

def writeRegs (ws : List (Reg × ℕ)) : Agent c Unit := ws.forM fun w => writeReg w.1 w.2

def does (e : Effect) : Agent c Unit := fun b => (.ok (),{b with effects := b.effects++[e]})

/-! ### Register operations -/

/-- The polls of `fmc_wait_ready`; `true` if it gave up. -/
def pollReady : ℕ → Agent c Bool
  | 0 => do
    let _ ← readReg .op
    return true
  | timeout+1 => do
    if (← readReg .op).testBit 0 then pollReady timeout else return false

def fmcWaitReady : Agent c Bool := pollReady 400000

def opCfg (addrNum : ℕ) : ℕ := 0x2000+addrNum*16

def opCommand : ℕ := 0x80+0x01
def opAddress : ℕ := 0x80+0x40+0x01
def opReadData : ℕ := 0x80+0x40+0x04+0x01
def opWriteData : ℕ := 0x80+0x40+0x20+0x01

def cmdWriteEnable : ℕ := 0x06
def cmdGetFeatures : ℕ := 0x0F
def cmdSetFeature : ℕ := 0x1F
def cmdPageRead : ℕ := 0x13
def cmdReadCache : ℕ := 0x03
def cmdProgramLoad : ℕ := 0x02
def cmdProgramRand : ℕ := 0x84
def cmdProgramExec : ℕ := 0x10
def cmdBlockErase : ℕ := 0xD8

def featureStatus : ℕ := 0xC0

def nandGetFeature (addr : ℕ) : Agent c Byte := do
  writeRegs [(.intClr,0xFF),(.cmd,cmdGetFeatures),(.addrL,addr),(.opCfg,opCfg 1),(.dataNum,1),
    (.op,opReadData)]
  let _ ← fmcWaitReady
  readByte

def nandSetFeature (addr : ℕ) (val : Byte) : Agent c Unit := do
  does (.window 0 val)
  writeRegs [(.intClr,0xFF),(.cmd,cmdSetFeature),(.addrL,addr),(.opCfg,opCfg 1),(.dataNum,1),
    (.op,opWriteData)]
  let _ ← fmcWaitReady

def nandWriteEnable : Agent c Unit := do
  writeRegs [(.intClr,0xFF),(.cmd,cmdWriteEnable),(.opCfg,opCfg 0),(.op,opCommand)]
  let _ ← fmcWaitReady

/-- The polls of `nand_wait_oip`. -/
def pollOip : ℕ → Agent c Byte
  | 0 => return 0xFF
  | n+1 => do
    let status ← nandGetFeature featureStatus
    if status.getLsbD 0 then pollOip n else return status

def nandWaitOip : Agent c Byte := pollOip 10000000

def rowCommand (cmd row : ℕ) : Agent c Bool := do
  writeRegs [(.intClr,0xFF),(.cmd,cmd),(.addrL,row),(.opCfg,opCfg 3),(.op,opAddress)]
  fmcWaitReady

/-- `true` if the chip reports `E_FAIL`. -/
def nandEraseBlock (row : ℕ) : Agent c Bool := do
  nandWriteEnable
  let _ ← rowCommand cmdBlockErase row
  return (← nandWaitOip).getLsbD 2

/-- The loop of `nand_program_page` from `off` on. -/
def programLoad (column len off : ℕ) : Agent c Unit :=
  if _h : off < len then do
    let chunk := min 256 (len-off)
    (List.range chunk).forM fun i => do does (.window i (← readByte))
    writeRegs [(.intClr,0xFF),(.cmd,if off = 0 then cmdProgramLoad else cmdProgramRand),
      (.addrL,column+off),(.opCfg,opCfg 2),(.dataNum,chunk),(.op,opWriteData)]
    let _ ← fmcWaitReady
    programLoad column len (off+chunk)
  else return ()
termination_by len-off

/-- `true` if the chip reports `P_FAIL`. -/
def nandProgramPage (row column len : ℕ) : Agent c Bool := do
  nandWriteEnable
  programLoad column len 0
  let _ ← rowCommand cmdProgramExec row
  return (← nandWaitOip).getLsbD 3

/-- The loop of `nand_read` from `off` on; `true` if an operation stalled. -/
def readCache (column buf len : ℕ) (stalled : Bool) (off : ℕ) : Agent c Bool :=
  if _h : off < len then do
    let chunk := min 255 (len-off)
    writeRegs [(.intClr,0xFF),(.cmd,cmdReadCache),(.addrL,column+off),(.dataNum,chunk+1),
      (.opCfg,opCfg 2),(.op,opReadData)]
    let late ← fmcWaitReady
    (List.range chunk).forM fun i => do does (.store (buf+off+i) (← readByte))
    readCache column buf len (stalled || late) (off+chunk)
  else return stalled
termination_by len-off

def nandRead (row column buf len : ℕ) : Agent c Byte := do
  let stalled ← rowCommand cmdPageRead row
  let status ← nandWaitOip
  let stalled ← readCache column buf len stalled 0
  return if stalled then 0xFF else status

/-! ### Page operations -/

structure Geometry where
  pageSize : ℕ
  oobSize : ℕ
  pagesPerBlock : ℕ
  blocks : ℕ
  deriving DecidableEq

namespace Geometry

def stride (g : Geometry) : ℕ := g.pageSize+g.oobSize

def pages (g : Geometry) : ℕ := g.pagesPerBlock*g.blocks

end Geometry

structure Xfer where
  fmcCfg : ℕ
  mode : Byte
  opcode : Byte
  iftype : Byte
  dummy : Byte

structure Rec where
  eccErr : ℕ
  ondie : Byte
  fmcInt : Byte
  flags : Byte

def recTimeout : Byte := 1
def recFail : Byte := 2

def recFinish (eccErr : ℕ) (status irq : Byte) (timedOut : Bool) : Rec :=
  ⟨eccErr,status,irq,if timedOut || status = 0xFF then recTimeout else 0⟩

/-- `FMC_INT`, of which the low byte is kept. -/
def readInt : Agent c Byte := do return BitVec.ofNat 8 (← readReg .int)

def nandRegRaw : Agent c Unit := do writeReg .cfg ((← readReg .cfg)&&&0xFFFFFF1F)

/-- The polls of `fmc_wait_dma_done`; `true` if it gave up. -/
def pollDma : ℕ → Agent c Bool
  | 0 => return true
  | n+1 => do
    if (← readReg .int).testBit 0 then return false else pollDma n

def fmcWaitDmaDone : Agent c Bool := pollDma 4000000

def nandDmaSetAddr (g : Geometry) (page : ℕ) : List (Reg × ℕ) :=
  let block := page/g.pagesPerBlock
  let inBlock := page%g.pagesPerBlock
  [(.addrH,(block>>>10)&&&0xFF),(.addrL,((block&&&0x3FF)<<<22)|||((inBlock&&&0x3F)<<<16))]

def setConfig (x : Xfer) : Agent c Unit :=
  if x.fmcCfg ≠ 0 then writeReg .cfg x.fmcCfg else return ()

/-- The transfer of one page by the controller. -/
def dmaTransfer (g : Geometry) (page addr opCfgValue opCtrlValue : ℕ) : Agent c Bool := do
  writeRegs ([(.intClr,0xFF),(.opCfg,opCfgValue)]++nandDmaSetAddr g page++
    [(.dmaSaddrD0,u32 addr),(.dmaSaddrOob,u32 (u32 addr+g.pageSize)),(.opCtrl,opCtrlValue)])
  fmcWaitDmaDone

def pageReadRec (g : Geometry) (page : ℕ) (x : Xfer) (dst : ℕ) : Agent c Rec :=
  if x.mode = 0 then do
    nandRegRaw
    let status ← nandRead page 0 dst g.stride
    return recFinish 0 status (← readInt) false
  else do
    let _ ← nandWaitOip
    let timedOut ← dmaTransfer g page dst
      (((x.iftype.toNat&&&7)<<<7)|||(x.dummy.toNat&&&0xF)) ((x.opcode.toNat<<<16)|||1)
    let irq ← readInt
    let eccErr ← readReg .eccErrNum0Buf0
    return recFinish eccErr (← nandGetFeature featureStatus) irq timedOut

/-- The record, and whether the operation failed. -/
def nandPageRead (g : Geometry) (page : ℕ) (x : Xfer) (dst : ℕ) : Agent c (Bool × Rec) := do
  setConfig x
  let r ← pageReadRec g page x dst
  return (r.flags &&& recTimeout ≠ 0,r)

/-- The end of `nand_page_program`. -/
def programResult (irq : Byte) : Agent c (Bool × Rec) := do
  let status ← nandWaitOip
  let r := recFinish 0 status irq false
  let r := if status ≠ 0xFF ∧ status.getLsbD 3 then {r with flags := r.flags|||recFail} else r
  return (r.flags ≠ 0,r)

def nandPageProgram (g : Geometry) (page : ℕ) (x : Xfer) (src : ℕ) : Agent c (Bool × Rec) := do
  setConfig x
  if x.mode = 0 then do
    nandRegRaw
    let _ ← nandProgramPage page 0 g.stride
    programResult (← readInt)
  else do
    let _ ← nandWaitOip
    nandWriteEnable
    let timedOut ← dmaTransfer g page src ((x.iftype.toNat&&&7)<<<7) ((x.opcode.toNat<<<8)|||2|||1)
    let irq ← readInt
    if timedOut then return (true,recFinish 0 (← nandGetFeature featureStatus) irq true)
    else programResult irq

def nandBlockErase (page : ℕ) : Agent c (Bool × Rec) := do
  let failed ← nandEraseBlock page
  let irq ← readInt
  let r := recFinish 0 (← nandGetFeature featureStatus) irq false
  return (failed,if failed then {r with flags := r.flags|||recFail} else r)

/-! ### The request -/

def nandDmaBuf (soc : Soc) : ℕ := soc.config.ramBase+0x00E00000
def nandDmaBufSize : ℕ := 0x00100000
def nandStatBuf (soc : Soc) : ℕ := soc.config.ramBase+0x02000000
def nandStatBufSize : ℕ := 0x00080000

def Rec.bytes (r : Rec) : List Byte := writeLe32 r.eccErr++[r.ondie,r.fmcInt,r.flags,0]

def nandPutRec (p : ℕ) (r : Rec) : Agent c Unit :=
  r.bytes.zipIdx.forM fun v => does (.store (p+v.2) v.1)

def nandParseXfer (p : List Byte) : Xfer :=
  ⟨readLe32 p 0,p.getD 4 0,p.getD 5 0,p.getD 6 0,p.getD 7 0⟩

/-- The loop over the pages: `n` are left after `done`. -/
def readPages (soc : Soc) (g : Geometry) (x : Xfer) (start : ℕ) (store : Bool) :
    ℕ → ℕ → Agent c ℕ
  | 0,done => return done
  | n+1,done => do
    let dst := nandDmaBuf soc+(if store then done*g.stride else 0)
    let (failed,r) ← nandPageRead g (start+done) x dst
    nandPutRec (nandStatBuf soc+done*8) r
    if failed then return done+1 else readPages soc g x start store n (done+1)

def readPagesOp (soc : Soc) (g : Geometry) (op : Byte) (arg : List Byte) : Agent c Frame :=
  let start := readLe32 arg 0
  let count := readLe32 arg 4
  let store := decide (arg.getD 16 0 ≠ 0)
  if arg.length < 17 then return nandReply op nandStBadarg []
  else if count = 0 ∨ g.pages ≤ start ∨ g.pages-start < count ∨ nandStatBufSize/8 < count ∨
      (store ∧ nandDmaBufSize/g.stride < count) then return nandReply op nandStBadarg []
  else do
    let done ← readPages soc g (nandParseXfer (arg.drop 8)) start store count 0
    return nandReply op (ioStatus (done = count)) (writeLe32 done)

def programPageOp (soc : Soc) (g : Geometry) (op : Byte) (arg : List Byte) : Agent c Frame :=
  let page := readLe32 arg 0
  let srcOff := readLe32 arg 12
  if arg.length < 16 then return nandReply op nandStBadarg []
  else if g.pages ≤ page ∨ nandDmaBufSize-g.stride < srcOff then
    return nandReply op nandStBadarg []
  else do
    let (failed,r) ← nandPageProgram g page (nandParseXfer (arg.drop 4)) (nandDmaBuf soc+srcOff)
    return nandReply op (ioStatus (!failed)) r.bytes

def eraseBlockOp (g : Geometry) (op : Byte) (arg : List Byte) : Agent c Frame :=
  let page := readLe32 arg 0
  if arg.length < 4 then return nandReply op nandStBadarg []
  else if g.pages ≤ page then return nandReply op nandStBadarg []
  else do
    let (failed,r) ← nandBlockErase page
    return nandReply op (ioStatus (!failed)) r.bytes

def nandStudyOp (soc : Soc) (g : Geometry) (op : Byte) (arg : List Byte) : Agent c Frame :=
  if op = nandOpFeatureGet then
    if arg.length < 1 then return nandReply op nandStBadarg []
    else do return nandReply op nandStOk [← nandGetFeature (arg.getD 0 0).toNat]
  else if op = nandOpFeatureSet then
    if arg.length < 2 then return nandReply op nandStBadarg []
    else do
      nandSetFeature (arg.getD 0 0).toNat (arg.getD 1 0)
      return nandReply op nandStOk [← nandGetFeature (arg.getD 0 0).toNat]
  else if op = nandOpReadPages then readPagesOp soc g op arg
  else if op = nandOpProgramPage then programPageOp soc g op arg
  else if op = nandOpEraseBlock then eraseBlockOp g op arg
  else return nandReply op nandStBadarg []

def fmcRegOp (op : Byte) (arg : List Byte) : Agent c Frame :=
  let off := (arg.getD 1 0).toNat+(arg.getD 2 0).toNat*256
  if arg.length < 7 then return nandReply op nandStBadarg []
  else if 0x1000 ≤ off ∨ off%4 ≠ 0 then return nandReply op nandStBadarg []
  else do
    if arg.getD 0 0 ≠ 0 then writeReg (.ofOffset off) (readLe32 arg 3)
    return nandReply op nandStOk (writeLe32 (← readReg (.ofOffset off)))

def handleNand (soc : Soc) (g : Geometry) : List Byte → Agent c Frame
  | [] => return ack ackCrcError
  | op::arg =>
    if op = nandOpFmcReg then fmcRegOp op arg
    else if op = nandOpInfo then do
      let cfg ← readReg .cfg
      return nandReply op (if g.pageSize ≠ 0 then nandStOk else nandStNotNand)
        (writeLe16 g.pageSize++writeLe16 g.oobSize++writeLe16 g.pagesPerBlock++
          writeLe16 g.blocks++writeLe32 (nandDmaBuf soc)++writeLe32 nandDmaBufSize++
          writeLe32 (nandStatBuf soc)++writeLe32 nandStatBufSize++writeLe32 cfg)
    else if g.pageSize = 0 then return nandReply op nandStNotNand []
    else do
      let savedCfg ← readReg .cfg
      let frame ← nandStudyOp soc g op arg
      writeReg .cfg savedCfg
      return frame

/-- `nand_ids`, by manufacturer and device, with the spare bytes of a page. -/
def nandIds : List ((Byte × Byte) × ℕ) :=
  [((0xC2,0x12),64),((0xEF,0xAA),64),((0xC8,0x91),128),((0xC8,0x81),128)]

/-- The geometry `flash_init` notes for a chip of the table. -/
def nandGeom (id : (Byte × Byte) × ℕ) : Geometry := ⟨2048,id.2,131072/2048,128*1024*1024/131072⟩

/-! ### Confinement -/

/-- `n` bytes from `a` on lie in a buffer. -/
def Inside (base size a n : ℕ) : Prop := base ≤ a ∧ a+n ≤ base+size

/-- Stores and transfers to memory stay in the study buffers, stores to the controller in its
I/O buffer, and every row is a page of the chip. -/
def Confined (soc : Soc) (g : Geometry) : Effect → Prop
  | .store a _ => Inside (nandDmaBuf soc) nandDmaBufSize a 1 ∨
      Inside (nandStatBuf soc) nandStatBufSize a 1
  | .window i _ => i < 256
  | .command cmd addr =>
    cmd ∈ [cmdPageRead,cmdProgramExec,cmdBlockErase] → addr < g.pages
  | .dmaRead page d0 oob => page < g.pages ∧
      Inside (nandDmaBuf soc) nandDmaBufSize d0 g.pageSize ∧
      Inside (nandDmaBuf soc) nandDmaBufSize oob g.oobSize
  | .dmaWrite page _ _ => page < g.pages

/-- The effects between two states meet `P`. -/
def Adds (P : Effect → Prop) (b b' : Bus c) : Prop :=
  ∃ es,b'.effects = b.effects++es ∧ ∀ e ∈ es,P e

section Rules
variable {P : Effect → Prop} {A B : Type}

lemma adds_refl (b : Bus c) : Adds P b b := ⟨[],(append_nil _).symm,nofun⟩

lemma adds_trans (b b' b'' : Bus c) (h : Adds P b b') (h' : Adds P b' b'') : Adds P b b'' := by
  obtain ⟨es,hes,hP⟩ := h
  obtain ⟨es',hes',hP'⟩ := h'
  refine ⟨es++es',?_,forall_mem_append.mpr ⟨hP,hP'⟩⟩
  rw [hes',hes,append_assoc]

lemma leads_bind {x : Agent c A} {f : A → Agent c B} (hx : Leads (Adds P) x)
    (hf : ∀ a,Leads (Adds P) (f a)) : Leads (Adds P) (x >>= f) := Leads.bind adds_trans hx hf

lemma leads_pure (a : A) : Leads (Adds P) (pure a : Agent c A) := Leads.pure adds_refl a

lemma leads_forM {X : Type} {xs : List X} {f : X → Agent c PUnit}
    (hf : ∀ x ∈ xs,Leads (Adds P) (f x)) : Leads (Adds P) (xs.forM f : Agent c PUnit) :=
  Leads.forM adds_refl adds_trans hf

lemma leads_answered : Leads (Adds P) (answered : Agent c ℕ) := fun b => adds_refl b

lemma leads_readReg (r : Reg) : Leads (Adds P) (readReg r : Agent c ℕ) := by
  rw [readReg]
  split_ifs
  · exact fun b => adds_refl b
  · exact leads_bind leads_answered fun _ => leads_pure _

lemma leads_readByte : Leads (Adds P) (readByte : Agent c Byte) :=
  leads_bind leads_answered fun _ => leads_pure _

lemma leads_does {e : Effect} (h : P e) : Leads (Adds P) (does e : Agent c Unit) := fun _ =>
  ⟨[e],rfl,forall_mem_singleton.mpr h⟩

/-- What a sequence of register writes starts. -/
def startedBy : (Reg → ℕ) → List (Reg × ℕ) → List Effect
  | _,[] => []
  | written,(r,v)::ws => started written r v++startedBy (Function.update written r v) ws

lemma leads_writeRegs {ws : List (Reg × ℕ)} (h : ∀ written,∀ e ∈ startedBy written ws,P e) :
    Leads (Adds P) (writeRegs ws : Agent c Unit) := by
  have heffects : ∀ b : Bus c,(writeRegs ws b).2.effects = b.effects++startedBy b.written ws := by
    clear h
    induction ws with
    | nil => exact fun b => (append_nil _).symm
    | cons w ws ih =>
      intro b
      have hrest := ih ((writeReg w.1 w.2 : Agent c Unit) b).2
      rw [startedBy,← append_assoc]
      exact hrest
  exact fun b => ⟨startedBy b.written ws,heffects b,h b.written⟩

lemma leads_writeReg_cfg (v : ℕ) : Leads (Adds P) (writeReg .cfg v : Agent c Unit) := fun _ =>
  ⟨[],rfl,nofun⟩

lemma leads_fmcWaitReady : Leads (Adds P) (fmcWaitReady : Agent c Bool) := by
  have hpoll : ∀ n,Leads (Adds P) (pollReady n : Agent c Bool) := by
    intro n
    induction n with
    | zero => exact leads_bind (leads_readReg _) fun _ => leads_pure _
    | succ n ih =>
      refine leads_bind (leads_readReg _) fun v => ?_
      split
      · exact ih
      · exact leads_pure _
  exact hpoll _

lemma leads_fmcWaitDmaDone : Leads (Adds P) (fmcWaitDmaDone : Agent c Bool) := by
  have hpoll : ∀ n,Leads (Adds P) (pollDma n : Agent c Bool) := by
    intro n
    induction n with
    | zero => exact leads_pure _
    | succ n ih =>
      refine leads_bind (leads_readReg _) fun v => ?_
      split
      · exact leads_pure _
      · exact ih
  exact hpoll _

lemma leads_rowCommand {cmd row : ℕ} (h : P (.command cmd row)) :
    Leads (Adds P) (rowCommand cmd row : Agent c Bool) := by
  refine leads_bind (leads_writeRegs fun written => ?_) fun _ => leads_fmcWaitReady
  exact forall_mem_singleton.mpr h

end Rules

section Operations
variable {soc : Soc} {g : Geometry}

/-- Stores to the I/O buffer are allowed, and commands that name no row. -/
class Harmless (P : Effect → Prop) : Prop where
  command : ∀ cmd addr,cmd ∉ [cmdPageRead,cmdProgramExec,cmdBlockErase] → P (.command cmd addr)
  window : ∀ i v,i < 256 → P (.window i v)

instance : Harmless (Confined soc g) := ⟨fun _ _ h hmem => absurd hmem h,fun _ _ h => h⟩

section
variable {P : Effect → Prop} [Harmless P]

lemma leads_nandGetFeature (addr : ℕ) :
    Leads (Adds P) (nandGetFeature addr : Agent c Byte) := by
  refine leads_bind (leads_writeRegs fun written => ?_) fun _ =>
    leads_bind leads_fmcWaitReady fun _ => leads_readByte
  exact forall_mem_singleton.mpr (Harmless.command cmdGetFeatures addr (by decide))

lemma leads_nandSetFeature (addr : ℕ) (val : Byte) :
    Leads (Adds P) (nandSetFeature addr val : Agent c Unit) := by
  refine leads_bind (leads_does (Harmless.window 0 val (by decide))) fun _ =>
    leads_bind (leads_writeRegs fun written => ?_) fun _ =>
      leads_bind leads_fmcWaitReady fun _ => leads_pure _
  exact forall_mem_singleton.mpr (Harmless.command cmdSetFeature addr (by decide))

lemma leads_nandWriteEnable :
    Leads (Adds P) (nandWriteEnable : Agent c Unit) := by
  refine leads_bind (leads_writeRegs fun written => ?_) fun _ =>
    leads_bind leads_fmcWaitReady fun _ => leads_pure _
  exact forall_mem_singleton.mpr (Harmless.command cmdWriteEnable _ (by decide))

lemma leads_nandWaitOip : Leads (Adds P) (nandWaitOip : Agent c Byte) := by
  have hpoll : ∀ n,Leads (Adds P) (pollOip n : Agent c Byte) := by
    intro n
    induction n with
    | zero => exact leads_pure _
    | succ n ih =>
      refine leads_bind (leads_nandGetFeature _) fun status => ?_
      split
      · exact ih
      · exact leads_pure _
  exact hpoll _

lemma leads_programLoad (column len off : ℕ) :
    Leads (Adds P) (programLoad column len off : Agent c Unit) := by
  induction hn : len-off using Nat.strong_induction_on generalizing off with
  | h n ih =>
    rw [programLoad]
    by_cases hlt : off < len
    · rw [dif_pos hlt]
      refine leads_bind (leads_forM fun i hi => ?_) fun _ =>
        leads_bind (leads_writeRegs fun written => ?_) fun _ =>
          leads_bind leads_fmcWaitReady fun _ => ih _ ?_ _ rfl
      · refine leads_bind leads_readByte fun v => leads_does (Harmless.window i v ?_)
        exact Nat.lt_of_lt_of_le (mem_range.mp hi) (Nat.min_le_left _ _)
      · refine forall_mem_singleton.mpr
          (Harmless.command (if off = 0 then cmdProgramLoad else cmdProgramRand) _ ?_)
        split_ifs <;> decide
      · omega
    · rw [dif_neg hlt]
      exact leads_pure _

lemma leads_nandEraseBlock {row : ℕ} (h : P (.command cmdBlockErase row)) :
    Leads (Adds P) (nandEraseBlock row : Agent c Bool) :=
  leads_bind leads_nandWriteEnable fun _ => leads_bind (leads_rowCommand h) fun _ =>
    leads_bind leads_nandWaitOip fun _ => leads_pure _

lemma leads_nandProgramPage {row : ℕ} (h : P (.command cmdProgramExec row)) (column len : ℕ) :
    Leads (Adds P) (nandProgramPage row column len : Agent c Bool) :=
  leads_bind leads_nandWriteEnable fun _ => leads_bind (leads_programLoad column len 0) fun _ =>
    leads_bind (leads_rowCommand h) fun _ => leads_bind leads_nandWaitOip fun _ => leads_pure _

end

/-- The cells of the chip that an effect may change. -/
def Effect.cells : Effect → Set ℕ
  | .command cmd row =>
    {x | cmd = cmdBlockErase ∧ x/131072 = row/64%1024 ∨ cmd = cmdProgramExec ∧ x/2048 = row%65536}
  | .dmaWrite page _ _ => {x | x/2048 = page%65536}
  | _ => ∅

instance (S : Set ℕ) : Harmless fun e => e.cells ⊆ S where
  command cmd addr h := by
    rintro x (⟨rfl,-⟩ | ⟨rfl,-⟩)
    · exact absurd (by decide) h
    · exact absurd (by decide) h
  window _ _ _ := Set.empty_subset S

/-- What the register level starts for a row and what `NandChip` does with it change cells of
one block, or of one page. -/
theorem levels_change_same_cells (row column : ℕ) (data : List Byte) (n : FlashDevice.NandChip)
    (b : Bus c) :
    (Adds (fun e => e.cells ⊆ {x | x/131072 = row/64%1024}) b (nandEraseBlock row b).2 ∧
      ∀ x,x/131072 ≠ row/64%1024 → (n.nandEraseBlock row).2.mem x = n.mem x) ∧
    (Adds (fun e => e.cells ⊆ {x | x/2048 = row%65536}) b
        (nandProgramPage row column data.length b).2 ∧
      ∀ x,x/2048 ≠ row%65536 → (n.nandProgramPage row column data).2.mem x = n.mem x) := by
  refine ⟨⟨leads_nandEraseBlock ?_ b,fun x hx => ?_⟩,leads_nandProgramPage ?_ column _ b,
    fun x hx => ?_⟩
  · rintro x (⟨-,hx⟩ | ⟨hcmd,-⟩)
    · exact hx
    · cases hcmd
  · rw [FlashDevice.NandChip.nandEraseBlock]
    split
    · exact BlockMemory.fillBlock_other _ _ (by rw [FlashDevice.NandChip.cell]; omega)
    · exact if_neg hx
  · rintro x (⟨hcmd,-⟩ | ⟨-,hx⟩)
    · cases hcmd
    · exact hx
  · rw [FlashDevice.NandChip.nandProgramPage]
    split <;> exact if_neg hx

lemma leads_readCache (column : ℕ) {buf len : ℕ}
    (h : Inside (nandDmaBuf soc) nandDmaBufSize buf len) (stalled : Bool) (off : ℕ) :
    Leads (Adds (Confined soc g)) (readCache column buf len stalled off : Agent c Bool) := by
  induction hn : len-off using Nat.strong_induction_on generalizing stalled off with
  | h n ih =>
    rw [readCache]
    split_ifs with hlt
    · refine leads_bind (leads_writeRegs fun written => ?_) fun _ =>
        leads_bind leads_fmcWaitReady fun late =>
          leads_bind (leads_forM fun i hi => ?_) fun _ => ih _ ?_ _ _ rfl
      · exact forall_mem_singleton.mpr (Harmless.command cmdReadCache _ (by decide))
      · refine leads_bind leads_readByte fun v => leads_does (.inl ?_)
        have hi' := mem_range.mp hi
        obtain ⟨hlow,hhigh⟩ := h
        constructor <;> omega
      · omega
    · exact leads_pure _

lemma leads_nandRead {row buf len : ℕ} (hrow : row < g.pages) (column : ℕ)
    (h : Inside (nandDmaBuf soc) nandDmaBufSize buf len) :
    Leads (Adds (Confined soc g)) (nandRead row column buf len : Agent c Byte) :=
  leads_bind (leads_rowCommand fun _ => hrow) fun _ => leads_bind leads_nandWaitOip fun _ =>
    leads_bind (leads_readCache column h _ 0) fun _ => leads_pure _

lemma leads_setConfig (x : Xfer) :
    Leads (Adds (Confined soc g)) (setConfig x : Agent c Unit) := by
  rw [setConfig]
  split_ifs
  · exact leads_writeReg_cfg _
  · exact leads_pure _

lemma leads_nandRegRaw : Leads (Adds (Confined soc g)) (nandRegRaw : Agent c Unit) :=
  leads_bind (leads_readReg _) fun _ => leads_writeReg_cfg _

lemma leads_readInt : Leads (Adds (Confined soc g)) (readInt : Agent c Byte) :=
  leads_bind (leads_readReg _) fun _ => leads_pure _

variable {page : ℕ}

lemma dmaPage_set (h : page < 65536) :
    dmaPage (((page/64)>>>10)&&&0xFF) ((((page/64)&&&0x3FF)<<<22)|||(((page%64)&&&0x3F)<<<16)) =
      page := by
  have hblock : (page/64)&&&0x3FF = page/64 := by
    rw [show (0x3FF : ℕ) = 2^10-1 from rfl,Nat.and_two_pow_sub_one_eq_mod]
    omega
  have hin : (page%64)&&&0x3F = page%64 := by
    rw [show (0x3F : ℕ) = 2^6-1 from rfl,Nat.and_two_pow_sub_one_eq_mod]
    omega
  have hhigh : ((page/64)>>>10)&&&0xFF = 0 := by
    rw [Nat.shiftRight_eq_div_pow,show page/64/2^10 = 0 by omega,Nat.zero_and]
  have hlow : (page/64)<<<22|||(page%64)<<<16 = page/64*4194304+page%64*65536 := by
    have hlt : (page%64)<<<16 < 2^22 := by
      rw [Nat.shiftLeft_eq]
      omega
    rw [← Nat.shiftLeft_add_eq_or_of_lt hlt,Nat.shiftLeft_eq,Nat.shiftLeft_eq]
  rw [hblock,hin,hhigh,hlow,dmaPage]
  omega

/-- What the proofs use of a geometry in the table. -/
structure Known (g : Geometry) : Prop where
  pageSize : g.pageSize = 2048
  oobSize : g.oobSize ≤ 128
  pagesPerBlock : g.pagesPerBlock = 64
  blocks : g.blocks = 1024

lemma known_nandGeom {id : (Byte × Byte) × ℕ} (h : id ∈ nandIds) : Known (nandGeom id) := by
  have hoob : ∀ i ∈ nandIds,i.2 ≤ 128 := by decide
  exact ⟨rfl,hoob id h,rfl,rfl⟩

lemma Known.pages {g : Geometry} (hg : Known g) : g.pages = 65536 := by
  rw [Geometry.pages,hg.pagesPerBlock,hg.blocks]

lemma ramBase_le (soc : Soc) : soc.config.ramBase ≤ 0x80000000 := by
  cases soc <;> decide

lemma startedBy_dmaTransfer (hg : Known g) (hpage : page < g.pages)
    (written : Reg → ℕ) (addr oc v : ℕ) : startedBy written
      ([(.intClr,0xFF),(.opCfg,oc)]++nandDmaSetAddr g page++
        [(.dmaSaddrD0,u32 addr),(.dmaSaddrOob,u32 (u32 addr+g.pageSize)),(.opCtrl,v)]) =
      if v.testBit 0 then
        if v.testBit 1 then [.dmaWrite page (u32 addr) (u32 (u32 addr+g.pageSize))]
        else [.dmaRead page (u32 addr) (u32 (u32 addr+g.pageSize))]
      else [] := by
  have hset : dmaPage (((page/g.pagesPerBlock)>>>10)&&&0xFF)
      ((((page/g.pagesPerBlock)&&&0x3FF)<<<22)|||(((page%g.pagesPerBlock)&&&0x3F)<<<16)) =
        page := by
    rw [hg.pagesPerBlock]
    exact dmaPage_set (hg.pages ▸ hpage)
  conv_rhs => rw [← hset]
  exact append_nil _

lemma leads_dmaRead (hg : Known g) {page dst : ℕ} (hpage : page < g.pages)
    (h : Inside (nandDmaBuf soc) nandDmaBufSize dst g.stride) (oc opcode : ℕ) :
    Leads (Adds (Confined soc g))
      (dmaTransfer g page dst oc ((opcode<<<16)|||1) : Agent c Bool) := by
  refine leads_bind (leads_writeRegs fun written => ?_) fun _ => leads_fmcWaitDmaDone
  have hready : ((opcode<<<16)|||1).testBit 0 = true := by simp
  have hread : ((opcode<<<16)|||1).testBit 1 = false := by
    simp [show Nat.testBit 1 1 = false from rfl]
  have hram := ramBase_le soc
  obtain ⟨hlow,hhigh⟩ := h
  rw [startedBy_dmaTransfer hg hpage,hready,hread]
  have hsize := hg.pageSize
  simp only [Geometry.stride,nandDmaBuf,nandDmaBufSize] at hlow hhigh
  rw [u32_of_lt (n := dst) (by omega),u32_of_lt (by omega)]
  refine forall_mem_singleton.mpr ⟨hpage,⟨?_,?_⟩,⟨?_,?_⟩⟩ <;>
    simp only [nandDmaBuf,nandDmaBufSize] <;> omega

lemma leads_dmaWrite (hg : Known g) (hpage : page < g.pages) (src oc opcode : ℕ) :
    Leads (Adds (Confined soc g))
      (dmaTransfer g page src oc ((opcode<<<8)|||2|||1) : Agent c Bool) := by
  refine leads_bind (leads_writeRegs fun written => ?_) fun _ => leads_fmcWaitDmaDone
  have hready : ((opcode<<<8)|||2|||1).testBit 0 = true := by simp
  have hwrite : ((opcode<<<8)|||2|||1).testBit 1 = true := by
    simp [Nat.testBit_or,show Nat.testBit 2 1 = true from rfl]
  rw [startedBy_dmaTransfer hg hpage,hready,hwrite]
  exact forall_mem_singleton.mpr hpage

lemma leads_nandPageRead (hg : Known g) {page dst : ℕ} (hpage : page < g.pages) (x : Xfer)
    (h : Inside (nandDmaBuf soc) nandDmaBufSize dst g.stride) :
    Leads (Adds (Confined soc g)) (nandPageRead g page x dst : Agent c (Bool × Rec)) := by
  refine leads_bind (leads_setConfig x) fun _ => leads_bind ?_ fun _ => leads_pure _
  rw [pageReadRec]
  split_ifs
  · exact leads_bind leads_nandRegRaw fun _ => leads_bind (leads_nandRead hpage 0 h) fun _ =>
      leads_bind leads_readInt fun _ => leads_pure _
  · exact leads_bind leads_nandWaitOip fun _ => leads_bind (leads_dmaRead hg hpage h _ _) fun _ =>
      leads_bind leads_readInt fun _ => leads_bind (leads_readReg _) fun _ =>
        leads_bind (leads_nandGetFeature _) fun _ => leads_pure _

lemma leads_programResult (irq : Byte) :
    Leads (Adds (Confined soc g)) (programResult irq : Agent c (Bool × Rec)) :=
  leads_bind leads_nandWaitOip fun _ => leads_pure _

lemma leads_nandPageProgram (hg : Known g) (hpage : page < g.pages) (x : Xfer)
    (src : ℕ) :
    Leads (Adds (Confined soc g)) (nandPageProgram g page x src : Agent c (Bool × Rec)) := by
  refine leads_bind (leads_setConfig x) fun _ => ?_
  split_ifs
  · exact leads_bind leads_nandRegRaw fun _ =>
      leads_bind (leads_nandProgramPage (fun _ => hpage) 0 _) fun _ =>
        leads_bind leads_readInt fun _ => leads_programResult _
  · refine leads_bind leads_nandWaitOip fun _ => leads_bind leads_nandWriteEnable fun _ =>
      leads_bind (leads_dmaWrite hg hpage _ _ _) fun timedOut =>
        leads_bind leads_readInt fun _ => ?_
    split_ifs
    · exact leads_bind (leads_nandGetFeature _) fun _ => leads_pure _
    · exact leads_programResult _

lemma leads_nandBlockErase (hpage : page < g.pages) :
    Leads (Adds (Confined soc g)) (nandBlockErase page : Agent c (Bool × Rec)) :=
  leads_bind (leads_nandEraseBlock fun _ => hpage) fun _ =>
    leads_bind leads_readInt fun _ => leads_bind (leads_nandGetFeature _) fun _ => leads_pure _

lemma leads_nandPutRec {p : ℕ} (h : Inside (nandStatBuf soc) nandStatBufSize p 8) (r : Rec) :
    Leads (Adds (Confined soc g)) (nandPutRec p r : Agent c Unit) := by
  refine leads_forM fun v hv => leads_does (.inr ?_)
  have hlt : v.2 < 8 := (mem_zipIdx hv).2.1
  obtain ⟨hlow,hhigh⟩ := h
  constructor <;> omega

lemma leads_readPages (hg : Known g) (x : Xfer) {start count : ℕ} {store : Bool}
    (hpages : start+count ≤ g.pages) (hstat : count ≤ nandStatBufSize/8)
    (hdma : store = true → count ≤ nandDmaBufSize/g.stride) (n done : ℕ) (hn : done+n = count) :
    Leads (Adds (Confined soc g)) (readPages soc g x start store n done : Agent c ℕ) := by
  have hstride : g.stride ≤ 2176 ∧ 0 < g.stride := by
    have hsize := hg.pageSize
    have hoob := hg.oobSize
    rw [Geometry.stride]
    omega
  induction n generalizing done with
  | zero => exact leads_pure _
  | succ n ih =>
    have hdst : Inside (nandDmaBuf soc) nandDmaBufSize
        (nandDmaBuf soc+(if store then done*g.stride else 0)) g.stride := by
      constructor
      · exact Nat.le_add_right _ _
      · cases store with
        | false =>
          simp only [nandDmaBufSize]
          exact Nat.add_le_add_left (by omega) _
        | true =>
          have hroom : (done+1)*g.stride ≤ nandDmaBufSize :=
            (Nat.le_div_iff_mul_le hstride.2).mp (by have := hdma rfl; omega)
          rw [Nat.add_mul,Nat.one_mul] at hroom
          simp only [if_true]
          omega
    have hrec : Inside (nandStatBuf soc) nandStatBufSize (nandStatBuf soc+done*8) 8 := by
      simp only [nandStatBufSize] at hstat ⊢
      constructor <;> omega
    refine leads_bind (leads_nandPageRead hg (by omega) x hdst) fun r =>
      leads_bind (leads_nandPutRec hrec r.2) fun _ => ?_
    split_ifs
    · exact leads_pure _
    · exact ih (done+1) (by omega)

lemma leads_readPagesOp (hg : Known g) (op : Byte) (arg : List Byte) :
    Leads (Adds (Confined soc g)) (readPagesOp soc g op arg : Agent c Frame) := by
  unfold readPagesOp
  dsimp only
  by_cases hlen : arg.length < 17
  · rw [if_pos hlen]
    exact leads_pure _
  rw [if_neg hlen]
  split
  next => exact leads_pure _
  next hbad =>
    simp only [not_or] at hbad
    obtain ⟨_,hstart,hcount,hstat,hdma⟩ := hbad
    refine leads_bind (leads_readPages hg _ ?_ (Nat.not_lt.mp hstat) (fun hs => ?_) _ 0
      (Nat.zero_add _)) fun _ => leads_pure _
    · generalize readLe32 arg 4 = count at *
      omega
    · exact Nat.not_lt.mp fun hlt => hdma ⟨hs,hlt⟩

lemma leads_programPageOp (hg : Known g) (op : Byte) (arg : List Byte) :
    Leads (Adds (Confined soc g)) (programPageOp soc g op arg : Agent c Frame) := by
  unfold programPageOp
  dsimp only
  split
  next => exact leads_pure _
  next =>
    split
    next => exact leads_pure _
    next hbad =>
      refine leads_bind (leads_nandPageProgram hg ?_ _ _) fun _ => leads_pure _
      exact Nat.not_le.mp fun hle => hbad (.inl hle)

lemma leads_eraseBlockOp (op : Byte) (arg : List Byte) :
    Leads (Adds (Confined soc g)) (eraseBlockOp g op arg : Agent c Frame) := by
  unfold eraseBlockOp
  dsimp only
  split
  next => exact leads_pure _
  next =>
    split
    next => exact leads_pure _
    next hbad => exact leads_bind (leads_nandBlockErase (Nat.not_le.mp hbad)) fun _ => leads_pure _

lemma leads_nandStudyOp (hg : Known g) (op : Byte) (arg : List Byte) :
    Leads (Adds (Confined soc g)) (nandStudyOp soc g op arg : Agent c Frame) := by
  rw [nandStudyOp]
  split
  next =>
    split
    next => exact leads_pure _
    next => exact leads_bind (leads_nandGetFeature _) fun _ => leads_pure _
  next =>
    split
    next =>
      split
      next => exact leads_pure _
      next =>
        exact leads_bind (leads_nandSetFeature _ _) fun _ =>
          leads_bind (leads_nandGetFeature _) fun _ => leads_pure _
    next =>
      split
      next => exact leads_readPagesOp hg op arg
      next =>
        split
        next => exact leads_programPageOp hg op arg
        next =>
          split
          next => exact leads_eraseBlockOp op arg
          next => exact leads_pure _

end Operations

lemma restored (x : Agent c Frame) {P : Effect → Prop} (hx : Leads (Adds P) x) (b : Bus c) :
    Adds P b ((do
        let savedCfg ← readReg .cfg
        let frame ← x
        writeReg .cfg savedCfg
        return frame : Agent c Frame) b).2 ∧
      ((do
        let savedCfg ← readReg .cfg
        let frame ← x
        writeReg .cfg savedCfg
        return frame : Agent c Frame) b).2.cfg = b.cfg := by
  cases h : x b with
  | mk r b' =>
    cases r with
    | error e => exact e.elim
    | ok frame =>
      have hread : (readReg .cfg : Agent c ℕ) b = (.ok b.cfg.1,b) := rfl
      have hwrite : (writeReg .cfg b.cfg.1 : Agent c Unit) b' =
          (.ok (),((writeReg .cfg b.cfg.1 : Agent c Unit) b').2) := rfl
      rw [bind_ok hread,bind_ok h,bind_ok hwrite]
      have hadds : Adds P b b' := by
        have hb := hx b
        rw [h] at hb
        exact hb
      exact ⟨adds_trans b b' _ hadds (leads_writeReg_cfg _ b'),Subtype.ext b.cfg.2⟩

/-- Every request but the one on raw registers writes within the two buffers, addresses the
pages of the chip only, and leaves the configuration register as it was. -/
theorem nand_request_confined (soc : Soc) {id : (Byte × Byte) × ℕ} (hid : id ∈ nandIds)
    (b : Bus c) (data : List Byte) (hop : data.head? ≠ some nandOpFmcReg) :
    Adds (Confined soc (nandGeom id)) b (handleNand soc (nandGeom id) data b).2 ∧
      (handleNand soc (nandGeom id) data b).2.cfg = b.cfg := by
  cases data with
  | nil => exact ⟨adds_refl b,rfl⟩
  | cons op arg =>
    rw [handleNand,if_neg fun h => hop (congrArg some h)]
    split
    next => exact ⟨adds_refl b,rfl⟩
    next =>
      rw [if_neg (show ¬(nandGeom id).pageSize = 0 by intro h; cases h)]
      exact restored _ (leads_nandStudyOp (known_nandGeom hid) op arg) b

/-- A controller that is ready; the third value read from it reports the end of a transfer. -/
def readyBus : Bus ⟨fun v => v|||1,fun v => by rw [Nat.or_assoc,Nat.or_self]⟩ where
  cfg := ⟨0x1821,by decide⟩
  written := fun _ => 0
  answers := fun i => if i = 2 then 1 else 0
  used := 0
  effects := []

/-- Reading the last page of a chip into the buffer, by a transfer with its own configuration. -/
def readLastPage : List Byte :=
  nandOpReadPages::(writeLe32 65535++writeLe32 1++writeLe32 0x1823++[1,0x13,0,0,1])

def Effect.isMemory : Effect → Bool
  | .store _ _ => true
  | .dmaRead _ _ _ => true
  | _ => false

theorem readLastPage_confined : ((0xC2,0x12),64) ∈ nandIds ∧
    readLastPage.head? ≠ some nandOpFmcReg ∧
    (handleNand .hi3516ev300 (nandGeom ((0xC2,0x12),64)) readLastPage readyBus).2.effects.countP
      Effect.isMemory = 9 ∧
    Adds (Confined .hi3516ev300 (nandGeom ((0xC2,0x12),64))) readyBus
      (handleNand .hi3516ev300 (nandGeom ((0xC2,0x12),64)) readLastPage readyBus).2 ∧
    (handleNand .hi3516ev300 (nandGeom ((0xC2,0x12),64)) readLastPage readyBus).2.cfg =
      readyBus.cfg :=
  ⟨by decide,by decide,by decide +kernel,
    nand_request_confined .hi3516ev300 (by decide) readyBus readLastPage (by decide)⟩

end Defib.NandStudy
