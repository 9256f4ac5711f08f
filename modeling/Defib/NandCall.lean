import Defib.AgentMachine
import Mathlib.Data.List.Induction

/-!
# Requests to the NAND study commands

`NandStudy._call` sends one `CMD_NAND` request and waits for its answer among the
packets that arrive. An answer names the operation and nothing else. Packets left over
from an earlier exchange are skipped: data packets and the acknowledgement after them,
READY packets, and answers to other operations. An acknowledgement with no data packet
before it counts as the answer of an agent that does not know `CMD_NAND`.
-/
namespace Defib.NandCall
open List Words AgentMachine

def nandOpInfo : Byte := 0x00
def nandOpFeatureGet : Byte := 0x01
def nandOpFeatureSet : Byte := 0x02
def nandOpReadPages : Byte := 0x03
def nandOpProgramPage : Byte := 0x04
def nandOpEraseBlock : Byte := 0x05
def nandOpFmcReg : Byte := 0x06

def nandStOk : Byte := 0x00
def nandStBadarg : Byte := 0x01
def nandStNotNand : Byte := 0x02
def nandStIo : Byte := 0x03

/-- The geometry the agent found, where its buffers are, and what the controller returns
for each operation. -/
structure NandDevice where
  pageSize : ℕ
  oobSize : ℕ
  pagesPerBlock : ℕ
  blocks : ℕ
  dmaBuf : ℕ
  dmaBufSize : ℕ
  statBuf : ℕ
  statBufSize : ℕ
  /-- A controller register after the optional write. -/
  fmcReg : (off : ℕ) → (write : Option ℕ) → ℕ
  featureGet : (addr : Byte) → (write : Option Byte) → Byte
  /-- How many pages were read before one failed, all of them included. -/
  readPages : (start count : ℕ) → (xfer : List Byte) → (store : Bool) → ℕ
  /-- Whether the operation succeeded, and its record. -/
  programPage : (page : ℕ) → (xfer : List Byte) → (srcOff : ℕ) → Bool × List Byte
  eraseBlock : (page : ℕ) → Bool × List Byte

/-- `nand_reply`; no payload of the handler is longer than its buffer. -/
def nandReply (op status : Byte) (payload : List Byte) : Frame :=
  ⟨rspNand,op::status::payload⟩

def ioStatus (ok : Bool) : Byte := if ok then nandStOk else nandStIo

section Agent
variable (d : NandDevice)

def stride : ℕ := d.pageSize+d.oobSize

def pages : ℕ := d.pagesPerBlock*d.blocks

def nandStudyOp (op : Byte) (arg : List Byte) : Frame :=
  let badarg := nandReply op nandStBadarg []
  if op = nandOpFeatureGet then
    if arg.length < 1 then badarg
    else nandReply op nandStOk [d.featureGet (arg.getD 0 0) none]
  else if op = nandOpFeatureSet then
    if arg.length < 2 then badarg
    else nandReply op nandStOk [d.featureGet (arg.getD 0 0) (some (arg.getD 1 0))]
  else if op = nandOpReadPages then
    let start := readLe32 arg 0
    let count := readLe32 arg 4
    let store := decide (arg.getD 16 0 ≠ 0)
    if arg.length < 17 then badarg
    else if count = 0 ∨ pages d ≤ start ∨ pages d-start < count ∨ d.statBufSize/8 < count ∨
        (store ∧ d.dmaBufSize/stride d < count) then badarg
    else
      let done := d.readPages start count ((arg.drop 8).take 8) store
      nandReply op (ioStatus (done = count)) (writeLe32 done)
  else if op = nandOpProgramPage then
    let page := readLe32 arg 0
    let srcOff := readLe32 arg 12
    if arg.length < 16 then badarg
    else if pages d ≤ page ∨ d.dmaBufSize-stride d < srcOff then badarg
    else
      let r := d.programPage page ((arg.drop 4).take 8) srcOff
      nandReply op (ioStatus r.1) r.2
  else if op = nandOpEraseBlock then
    let page := readLe32 arg 0
    if arg.length < 4 then badarg
    else if pages d ≤ page then badarg
    else
      let r := d.eraseBlock page
      nandReply op (ioStatus r.1) r.2
  else badarg

def handleNand : List Byte → Frame
  | [] => ack ackCrcError
  | op::arg =>
    if op = nandOpFmcReg then
      let off := (arg.getD 1 0).toNat+(arg.getD 2 0).toNat*256
      if arg.length < 7 then nandReply op nandStBadarg []
      else if 0x1000 ≤ off ∨ off%4 ≠ 0 then nandReply op nandStBadarg []
      else nandReply op nandStOk (writeLe32 (d.fmcReg off
        (if arg.getD 0 0 ≠ 0 then some (readLe32 arg 3) else none)))
    else if op = nandOpInfo then
      nandReply op (if d.pageSize ≠ 0 then nandStOk else nandStNotNand)
        (writeLe16 d.pageSize++writeLe16 d.oobSize++writeLe16 d.pagesPerBlock++
          writeLe16 d.blocks++writeLe32 d.dmaBuf++writeLe32 d.dmaBufSize++
          writeLe32 d.statBuf++writeLe32 d.statBufSize++writeLe32 (d.fmcReg 0 none))
    else if d.pageSize = 0 then nandReply op nandStNotNand []
    else nandStudyOp d op arg

end Agent

/-- The answer to `CMD_NAND`; a build without it answers as to any unknown command. -/
def answer : Option NandDevice → List Byte → Frame
  | none,_ => ack ackCrcError
  | some d,data => handleNand d data

inductive NandError where
  | noAnswer (op : Byte)
  | notAnswered (op cmd : Byte) (length : ℕ)
  | badArgument (op : Byte)
  | notNand
  | unknownStatus (op status : Byte)
  deriving DecidableEq, Repr

inductive CallEnd where
  /-- The data after the status, which goes to `last_status`. -/
  | returned (lastStatus : Byte) (data : List Byte)
  | raised (e : NandError)
  deriving DecidableEq, Repr

/-- `cmd == RSP_NAND and len(data) >= 2 and data[0] == op`. -/
def Answers (op : Byte) (f : Frame) : Prop :=
  f.cmd = rspNand ∧ 2 ≤ f.payload.length ∧ f.payload.head? = some op

instance (op : Byte) (f : Frame) : Decidable (Answers op f) :=
  inferInstanceAs (Decidable (_ ∧ _ ∧ _))

/-- The loop of `_call`: the packet it stops at and those after it. -/
def waitAnswer (op : Byte) : Bool → List Frame → Option (Frame × List Frame)
  | _,[] => none
  | inStaleStream,f::fs =>
    if f.cmd = rspReady then waitAnswer op inStaleStream fs
    else if Answers op f then some (f,fs)
    else if f.cmd = rspData then waitAnswer op true fs
    else if f.cmd = rspAck ∧ inStaleStream = false then some (f,fs)
    else waitAnswer op false fs

/-- What `_call` makes of the packet it stopped at. -/
def judge (op : Byte) (f : Frame) : CallEnd :=
  if ¬ Answers op f then .raised (.notAnswered op f.cmd f.payload.length)
  else
    let status := f.payload.getD 1 0
    if status = nandStBadarg then .raised (.badArgument op)
    else if status = nandStNotNand then .raised .notNand
    else if status ≠ nandStOk ∧ status ≠ nandStIo then .raised (.unknownStatus op status)
    else .returned status (f.payload.drop 2)

/-- `_call` over a link on which `arriving` follows the request: how it ends, and what it
has left unread. -/
def call (op : Byte) (args : List Byte) (arriving : List Byte → List Frame) :
    CallEnd × List Frame :=
  match waitAnswer op false (arriving (op::args)) with
  | none => (.raised (.noAnswer op),[])
  | some (f,rest) => (judge op f,rest)

/-- READY packets aside, the last packet is a data packet. -/
def EndsInData (fs : List Frame) : Prop :=
  ∃ f,(fs.filter (·.cmd ≠ rspReady)).getLast? = some f ∧ f.cmd = rspData

/-- No packet in flight is an answer to this operation, every acknowledgement in flight
ends a data stream, and an agent that only acknowledges is not taken for the end of one. -/
structure Passes (op : Byte) (inFlight : List Frame) (own : Frame) : Prop where
  noAnswer : ∀ f ∈ inFlight,¬ Answers op f
  acksEndData : ∀ before f after,inFlight = before++f::after → f.cmd = rspAck → EndsInData before
  ownAck : own.cmd = rspAck → ¬ EndsInData inFlight

section Waiting
variable {op : Byte}

/-- `in_stale_stream` after the packets of a list have been skipped. -/
def staleAfter (stale : Bool) (fs : List Frame) : Bool :=
  fs.foldl (fun stale f => if f.cmd = rspReady then stale else decide (f.cmd = rspData)) stale

/-- The loop skips every packet of the list. -/
def Skipped (op : Byte) : Bool → List Frame → Prop
  | _,[] => True
  | stale,f::fs =>
    ¬ Answers op f ∧ (f.cmd = rspAck → stale = true) ∧ Skipped op (staleAfter stale [f]) fs

lemma Answers.cmd_ne_ready {f : Frame} (h : Answers op f) : f.cmd ≠ rspReady := by
  rw [h.1]
  decide

lemma waitAnswer_skip {stale : Bool} {f : Frame} {fs : List Frame} (ha : ¬ Answers op f)
    (hack : f.cmd = rspAck → stale = true) :
    waitAnswer op stale (f::fs) = waitAnswer op (staleAfter stale [f]) fs := by
  rw [waitAnswer,staleAfter,foldl_cons,foldl_nil]
  by_cases hready : f.cmd = rspReady
  · rw [if_pos hready,if_pos hready]
  rw [if_neg hready,if_neg hready,if_neg ha]
  by_cases hdata : f.cmd = rspData
  · rw [if_pos hdata,decide_eq_true hdata]
  · have hstop : ¬ (f.cmd = rspAck ∧ stale = false) := by
      rintro ⟨h,hs⟩
      rw [hack h] at hs
      cases hs
    rw [if_neg hdata,if_neg hstop,decide_eq_false hdata]

lemma waitAnswer_stop {stale : Bool} {f : Frame} {fs : List Frame}
    (h : Answers op f ∨ f.cmd = rspAck ∧ stale = false) :
    waitAnswer op stale (f::fs) = some (f,fs) := by
  rw [waitAnswer]
  rcases h with h | h
  · rw [if_neg h.cmd_ne_ready,if_pos h]
  · have hready : f.cmd ≠ rspReady := by
      rw [h.1]
      decide
    have hdata : f.cmd ≠ rspData := by
      rw [h.1]
      decide
    have hans : ¬ Answers op f := by
      intro ha
      rw [Answers,h.1] at ha
      exact absurd ha.1 (by decide)
    rw [if_neg hready,if_neg hans,if_neg hdata,if_pos h]

lemma waitAnswer_inFlight (own : Frame) (stale : Bool) (fs : List Frame) :
    (Skipped op stale fs ∧
      waitAnswer op stale (fs++[own]) = waitAnswer op (staleAfter stale fs) [own]) ∨
    (¬ Skipped op stale fs ∧ ∃ f rest,waitAnswer op stale (fs++[own]) = some (f,rest++[own])) := by
  induction fs generalizing stale with
  | nil => exact .inl ⟨trivial,rfl⟩
  | cons f fs ih =>
    by_cases hstop : Answers op f ∨ f.cmd = rspAck ∧ stale = false
    · refine .inr ⟨?_,f,fs,waitAnswer_stop hstop⟩
      rintro ⟨ha,hack,-⟩
      rcases hstop with h | ⟨h,hs⟩
      · exact ha h
      · rw [hack h] at hs
        cases hs
    · obtain ⟨ha,hack⟩ := not_or.mp hstop
      have hack' : f.cmd = rspAck → stale = true := by
        intro h
        rw [← Bool.not_eq_false]
        intro hs
        exact hack ⟨h,hs⟩
      rw [cons_append,waitAnswer_skip ha hack']
      rcases ih (staleAfter stale [f]) with ⟨hskip,heq⟩ | ⟨hskip,hrest⟩
      · exact .inl ⟨⟨ha,hack',hskip⟩,heq⟩
      · exact .inr ⟨fun h => hskip h.2.2,hrest⟩

lemma staleAfter_append_singleton (stale : Bool) (fs : List Frame) (f : Frame) :
    staleAfter stale (fs++[f]) =
      if f.cmd = rspReady then staleAfter stale fs else decide (f.cmd = rspData) := by
  rw [staleAfter,foldl_append]
  rfl

lemma staleAfter_iff (fs : List Frame) : staleAfter false fs = true ↔ EndsInData fs := by
  induction fs using List.reverseRecOn with
  | nil => simp [staleAfter,EndsInData]
  | append_singleton fs f ih =>
    rw [staleAfter_append_singleton,EndsInData,filter_append]
    by_cases h : f.cmd = rspReady
    · rw [if_pos h,ih,EndsInData]
      simp [h]
    · rw [if_neg h,decide_eq_true_eq]
      simp [h]

lemma skipped_iff (stale : Bool) (fs : List Frame) : Skipped op stale fs ↔
    (∀ f ∈ fs,¬ Answers op f) ∧
      ∀ before f after,fs = before++f::after → f.cmd = rspAck → staleAfter stale before = true := by
  induction fs generalizing stale with
  | nil => simp [Skipped]
  | cons f fs ih =>
    rw [Skipped,ih,forall_mem_cons]
    constructor
    · rintro ⟨ha,hack,hans,hacks⟩
      refine ⟨⟨ha,hans⟩,?_⟩
      intro before g after heq hg
      cases before with
      | nil =>
        cases heq
        exact hack hg
      | cons b before =>
        cases heq
        exact hacks before g after rfl hg
    · rintro ⟨⟨ha,hans⟩,hacks⟩
      refine ⟨ha,hacks [] f fs rfl,hans,?_⟩
      intro before g after heq hg
      exact hacks (f::before) g after (congrArg _ heq) hg

end Waiting

lemma answers_nandReply (op status : Byte) (payload : List Byte) :
    Answers op (nandReply op status payload) :=
  ⟨rfl,Nat.le_add_left 2 _,rfl⟩

lemma nandStudyOp_answers (d : NandDevice) (op : Byte) (arg : List Byte) :
    Answers op (nandStudyOp d op arg) := by
  dsimp only [nandStudyOp]
  repeat' split
  all_goals exact answers_nandReply op _ _

lemma answer_form (agent : Option NandDevice) (op : Byte) (args : List Byte) :
    Answers op (answer agent (op::args)) ∨ answer agent (op::args) = ack ackCrcError := by
  cases agent with
  | none => exact .inr rfl
  | some d =>
    left
    dsimp only [answer,handleNand]
    repeat' split
    all_goals first
      | exact answers_nandReply op _ _
      | exact nandStudyOp_answers d op args

/-- A call ends as its own answer says if and only if nothing in flight looks like an
answer. -/
theorem call_own_answer_iff (agent : Option NandDevice) (op : Byte) (args : List Byte)
    (inFlight : List Frame) :
    call op args (fun request => inFlight++[answer agent request]) =
      (judge op (answer agent (op::args)),[]) ↔
    Passes op inFlight (answer agent (op::args)) := by
  have hpasses : Passes op inFlight (answer agent (op::args)) ↔
      Skipped op false inFlight ∧
        ((answer agent (op::args)).cmd = rspAck → ¬ staleAfter false inFlight = true) := by
    rw [skipped_iff]
    simp only [staleAfter_iff]
    exact ⟨fun h => ⟨⟨h.noAnswer,h.acksEndData⟩,h.ownAck⟩,fun h => ⟨h.1.1,h.1.2,h.2⟩⟩
  rw [hpasses,call]
  generalize hown : answer agent (op::args) = own
  have hform := answer_form agent op args
  rw [hown] at hform
  rcases waitAnswer_inFlight own false inFlight with ⟨hskip,heq⟩ | ⟨hskip,f,rest,heq⟩
  · rw [heq,and_iff_right hskip]
    rcases hform with hans | rfl
    · have hcmd : own.cmd ≠ rspAck := by
        rw [hans.1]
        decide
      rw [waitAnswer_stop (.inl hans)]
      exact iff_of_true rfl (fun h => absurd h hcmd)
    · cases hstale : staleAfter false inFlight with
      | true =>
        have hans : ¬ Answers op (ack ackCrcError) := fun h => absurd h.1 (by decide)
        rw [waitAnswer_skip hans (fun _ => rfl)]
        refine iff_of_false ?_ (fun h => h rfl rfl)
        intro h
        have hend := congrArg Prod.fst h
        rw [judge,if_pos hans] at hend
        cases hend
      | false =>
        rw [waitAnswer_stop (.inr ⟨rfl,rfl⟩)]
        exact iff_of_true rfl (fun _ h => Bool.noConfusion h)
  · rw [heq]
    refine iff_of_false ?_ (fun h => hskip h.1)
    intro h
    have hrest := congrArg Prod.snd h
    exact append_ne_nil_of_right_ne_nil rest (cons_ne_nil own []) hrest

/-- A chip of one block whose feature registers hold their own addresses. -/
def smallDevice : NandDevice where
  pageSize := 2048
  oobSize := 64
  pagesPerBlock := 64
  blocks := 1
  dmaBuf := 0x40E00000
  dmaBufSize := 0x100000
  statBuf := 0x42000000
  statBufSize := 0x80000
  fmcReg _ _ := 0
  featureGet addr _ := addr
  readPages _ count _ _ := count
  programPage _ _ _ := (true,List.replicate 8 0)
  eraseBlock _ := (true,List.replicate 8 0)

/-- A read of feature 0xB0 after a late answer for feature 0xA0. -/
def lateCall : CallEnd × List Frame :=
  call nandOpFeatureGet [0xB0] fun request =>
    [answer smallDevice [nandOpFeatureGet,0xA0]]++[answer smallDevice request]

/-- The late answer is returned as the value of feature 0xB0. -/
theorem late_answer_taken :
    lateCall.1 = .returned nandStOk [0xA0] ∧
    lateCall ≠ (judge nandOpFeatureGet (answer smallDevice [nandOpFeatureGet,0xB0]),[]) := by
  decide

end Defib.NandCall
