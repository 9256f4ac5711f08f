import Defib.Runs
import Mathlib.Data.Nat.Basic

/-!
# The line rate on both sides

The agent changes its rate on `CMD_SET_BAUD` and goes back to 115200 by itself
after sixty receive timeouts in a row at another rate. The client switches its own
side after the acknowledgement, checks the new rate with `CMD_INFO` and from then
on caches it in `_current_baud`. A rate whose divisor the UART cannot be given is
acknowledged and not taken; the client then finds its check unanswered and goes back.
A frame is heard if and only if both sides run at the same rate. The agent's timeouts
fall anywhere between the client's actions.
-/
namespace Defib.BaudLink
open Runs

def fallbackBaud : ℕ := 115200
def defaultFastBaud : ℕ := 921600

/-- What the command loop of the agent keeps about its line. -/
structure AgentUart where
  baud : ℕ
  atDefaultBaud : Bool
  idleCount : ℕ
  baudIdle : ℕ
  deriving DecidableEq, Repr

section Agent
variable (fits : ℕ → Bool)

/-- `uart_set_baud`; `fits` are the rates with a divisor that can be programmed. -/
def AgentUart.uartSetBaud (a : AgentUart) (baud : ℕ) : AgentUart :=
  if fits baud then {a with baud := baud} else a

/-- `proto_recv` timed out in the command loop. -/
def AgentUart.timeout (a : AgentUart) : AgentUart :=
  let a := if 4 ≤ a.idleCount+1 then {a with idleCount := 0} else
    {a with idleCount := a.idleCount+1}
  if a.atDefaultBaud then a
  else if 60 ≤ a.baudIdle+1 then
    {a.uartSetBaud fits fallbackBaud with atDefaultBaud := true, baudIdle := 0}
  else {a with baudIdle := a.baudIdle+1}

def AgentUart.command (a : AgentUart) : AgentUart := {a with idleCount := 0, baudIdle := 0}

def baudAccepted (baud : ℕ) : Bool := 9600 ≤ baud && baud ≤ 3000000

/-- `handle_set_baud` for an accepted rate. -/
def AgentUart.setBaud (a : AgentUart) (baud : ℕ) : AgentUart :=
  {a.command.uartSetBaud fits baud with atDefaultBaud := decide (baud = fallbackBaud)}

end Agent

/-- Where the client is between two of its actions. `sends` tells whether the call it is
in still has its own command to send after the switch. -/
inductive Pc where
  | idle
  | acknowledged (target : ℕ) (sends : Bool)
  | verifying (target : ℕ) (sends : Bool)
  | ready
  deriving DecidableEq, Repr

structure Client where
  currentBaud : ℕ
  portBaud : ℕ
  pc : Pc
  /-- The last switch of the rate has returned `True`. -/
  switched : Bool
  deriving DecidableEq, Repr

structure Link where
  agent : AgentUart
  client : Client
  deriving DecidableEq, Repr

inductive Label where
  | agentTimeout
  | setBaud (baud : ℕ)
  | switchBaud (baud : ℕ)
  | restoreBaud
  /-- `read_memory`, `write_memory`, `write_flash` with their `fast` and size. -/
  | transfer (fast : Bool) (size : ℕ)
  | scanFlash
  /-- A call that sends a command and never switches. -/
  | command
  /-- The next action of the call in progress. -/
  | proceed
  deriving DecidableEq, Repr

def start : Link :=
  ⟨⟨fallbackBaud,true,0,0⟩,⟨fallbackBaud,fallbackBaud,.idle,false⟩⟩

section Run
variable (fits : ℕ → Bool)

namespace Link

def heard (s : Link) : Bool := s.agent.baud = s.client.portBaud

def after (sends : Bool) : Pc := if sends then .ready else .idle

/-- `set_baud` up to the agent's answer. Without an answer it raises, and so does the call. -/
def setBaud (s : Link) (baud : ℕ) (sends : Bool) : Link :=
  if 4294967296 ≤ baud then {s with client := {s.client with pc := .idle, switched := false}}
  else if s.heard then
    if baudAccepted baud then
      ⟨s.agent.setBaud fits baud,{s.client with pc := .acknowledged baud sends, switched := false}⟩
    else ⟨s.agent.command,{s.client with pc := after sends, switched := false}⟩
  else {s with client := {s.client with pc := .idle, switched := false}}

/-- `_switch_baud`: nothing is sent when the cached rate is the wanted one. -/
def switchBaud (s : Link) (target : ℕ) (sends : Bool) : Link :=
  if s.client.currentBaud = target then
    {s with client := {s.client with pc := after sends, switched := true}}
  else s.setBaud fits target sends

def command (s : Link) : Link :=
  ⟨if s.heard then s.agent.command else s.agent,{s.client with pc := .idle}⟩

def proceed (s : Link) : Link :=
  match s.client.pc with
  | .idle => s
  | .acknowledged target sends =>
    {s with client := {s.client with portBaud := target, pc := .verifying target sends}}
  | .verifying target sends =>
    if s.heard then
      ⟨s.agent.command,{s.client with
        currentBaud := target, pc := after sends, switched := true}⟩
    else {s with client := {s.client with
        portBaud := s.client.currentBaud, pc := after sends, switched := false}}
  | .ready => s.command

end Link

/-- The client runs one call at a time: a call label outside `idle` does nothing. -/
def step (s : Link) : Label → Link
  | .agentTimeout => {s with agent := s.agent.timeout fits}
  | .proceed => s.proceed
  | l => if s.client.pc ≠ .idle then s else
      match l with
      | .setBaud baud => s.setBaud fits baud false
      | .switchBaud baud => s.switchBaud fits baud false
      | .restoreBaud =>
        if s.client.currentBaud ≠ fallbackBaud then s.setBaud fits fallbackBaud false else s
      | .transfer fast size =>
        if fast ∧ 4096 < size then s.switchBaud fits defaultFastBaud true
        else {s with client := {s.client with pc := .ready}}
      | .scanFlash => s.switchBaud fits defaultFastBaud true
      | _ => s.command

end Run

def sends (s : Link) (l : Label) : Bool :=
  match s.client.pc,l with
  | .idle,.setBaud baud => baud < 4294967296
  | .idle,.switchBaud baud => s.client.currentBaud ≠ baud && baud < 4294967296
  | .idle,.restoreBaud => s.client.currentBaud ≠ fallbackBaud
  | .idle,.transfer fast size => fast && 4096 < size && s.client.currentBaud ≠ defaultFastBaud
  | .idle,.scanFlash => s.client.currentBaud ≠ defaultFastBaud
  | .idle,.command => true
  | .verifying _ _,.proceed => true
  | .ready,.proceed => true
  | _,_ => false

/-- A command sent after a successful switch goes out at the agent's rate. -/
def Agreed (s : Link) (l : Label) : Prop :=
  sends s l = true → s.client.switched = true → s.agent.baud = s.client.currentBaud

/-- The agent does not fall back in this step, or it is at 115200 anyway. -/
def KeepsRate (s : Link) (l : Label) : Prop :=
  l = .agentTimeout →
    s.agent.atDefaultBaud = true ∨ s.agent.baudIdle+1 < 60 ∨ s.agent.baud = fallbackBaud

instance (s : Link) (l : Label) : Decidable (Agreed s l) := inferInstanceAs (Decidable (_ → _))

instance (s : Link) (l : Label) : Decidable (KeepsRate s l) := inferInstanceAs (Decidable (_ → _))

/-! ### The rates over a run -/

def Level (s : Link) : Prop :=
  s.agent.baud = s.client.portBaud ∧ s.client.portBaud = s.client.currentBaud

/-- The agent has taken the new rate or is still at the old one. -/
def Answers (s : Link) (target : ℕ) : Prop :=
  s.agent.baud = target ∨ s.agent.baud = s.client.currentBaud

/-- Between calls both sides run at the cached rate; during a switch the agent has taken the
new rate or not, and the client's port follows. -/
def Synced (s : Link) : Prop :=
  match s.client.pc with
  | .idle => Level s
  | .ready => Level s
  | .acknowledged target _ => Answers s target ∧ s.client.portBaud = s.client.currentBaud ∧
      s.client.switched = false
  | .verifying target _ => Answers s target ∧ s.client.portBaud = target ∧
      s.client.switched = false

section Synced
variable {fits : ℕ → Bool} {s : Link}

lemma synced_after {sends : Bool} (hpc : s.client.pc = Link.after sends)
    (h : Level s) : Synced s := by
  cases sends <;> simp only [Link.after,Bool.false_eq_true,if_false,if_true] at hpc <;>
    simpa only [Synced,hpc] using h

lemma uartSetBaud_baud (a : AgentUart) (baud : ℕ) :
    (a.uartSetBaud fits baud).baud = baud ∨ (a.uartSetBaud fits baud).baud = a.baud := by
  unfold AgentUart.uartSetBaud
  split_ifs
  · exact .inl rfl
  · exact .inr rfl

lemma setBaud_synced (h : Level s) (baud : ℕ) (sends : Bool) :
    Synced (s.setBaud fits baud sends) := by
  unfold Link.setBaud
  split_ifs with hbig hheard hacc
  · exact h
  · exact ⟨(uartSetBaud_baud _ baud).imp id fun hkept => hkept.trans (h.1.trans h.2),h.2,rfl⟩
  · exact synced_after rfl h
  · exact h

lemma switchBaud_synced (h : Level s) (target : ℕ) (sends : Bool) :
    Synced (s.switchBaud fits target sends) := by
  unfold Link.switchBaud
  split_ifs with hsame
  · exact synced_after rfl h
  · exact setBaud_synced h target sends

lemma command_synced (h : Level s) : Synced s.command := by
  unfold Link.command
  split_ifs with hheard
  · exact h
  · exact h

lemma proceed_synced (h : Synced s) : Synced s.proceed := by
  unfold Link.proceed
  cases hpc : s.client.pc with
  | idle => exact h
  | acknowledged target sends =>
    simp only [Synced,hpc] at h
    exact ⟨h.1,rfl,h.2.2⟩
  | verifying target sends =>
    simp only [Synced,hpc] at h
    cases hheard : s.heard with
    | true => exact synced_after rfl ⟨of_decide_eq_true hheard,h.2.1⟩
    | false =>
      -- the check goes unanswered only if the agent has kept the old rate
      have hkept : s.agent.baud = s.client.currentBaud := h.1.resolve_left fun htaken =>
        of_decide_eq_false hheard (htaken.trans h.2.1.symm)
      exact synced_after rfl ⟨hkept,rfl⟩
  | ready =>
    simp only [Synced,hpc] at h
    exact command_synced h

lemma timeout_baud (h : KeepsRate s .agentTimeout) :
    (s.agent.timeout fits).baud = s.agent.baud := by
  rcases h rfl with hd | hi | hb
  · simp only [AgentUart.timeout,apply_ite AgentUart.atDefaultBaud,hd,ite_self,if_true]
    split_ifs <;> rfl
  · have hi' : ¬60 ≤ s.agent.baudIdle+1 := by omega
    simp only [AgentUart.timeout,apply_ite AgentUart.baudIdle,ite_self,if_neg hi']
    split_ifs <;> rfl
  · simp only [AgentUart.timeout,AgentUart.uartSetBaud]
    split_ifs <;> simp only [hb]

lemma timeout_synced (h : Synced s) (hk : KeepsRate s .agentTimeout) :
    Synced {s with agent := s.agent.timeout fits} := by
  have hb : (s.agent.timeout fits).baud = s.agent.baud := timeout_baud hk
  cases hpc : s.client.pc <;> simp only [Synced,Level,Answers,hpc,hb] at h ⊢ <;> exact h

lemma step_synced (l : Label) (h : Synced s) (hk : KeepsRate s l) :
    Synced (step fits s l) := by
  by_cases hpc : s.client.pc = .idle
  · have hl : Level s := by simpa only [Synced,hpc] using h
    cases l with
    | agentTimeout => exact timeout_synced h hk
    | proceed => exact proceed_synced h
    | setBaud baud =>
      simp only [step,hpc,ne_eq,not_true_eq_false,if_false]
      exact setBaud_synced hl baud false
    | switchBaud baud =>
      simp only [step,hpc,ne_eq,not_true_eq_false,if_false]
      exact switchBaud_synced hl baud false
    | restoreBaud =>
      simp only [step,hpc,ne_eq,not_true_eq_false,if_false]
      split_ifs
      · exact h
      · exact setBaud_synced hl fallbackBaud false
    | transfer fast size =>
      simp only [step,hpc,ne_eq,not_true_eq_false,if_false]
      split_ifs
      · exact switchBaud_synced hl defaultFastBaud true
      · exact hl
    | scanFlash =>
      simp only [step,hpc,ne_eq,not_true_eq_false,if_false]
      exact switchBaud_synced hl defaultFastBaud true
    | command =>
      simp only [step,hpc,ne_eq,not_true_eq_false,if_false]
      exact command_synced hl
  · cases l with
    | agentTimeout => exact timeout_synced h hk
    | proceed => exact proceed_synced h
    | _ =>
      simp only [step,if_pos hpc]
      exact h

lemma agreed_of_synced (l : Label) (h : Synced s) : Agreed s l := by
  intro hsend hswitched
  cases hpc : s.client.pc with
  | idle =>
    simp only [Synced,hpc] at h
    exact h.1.trans h.2
  | ready =>
    simp only [Synced,hpc] at h
    exact h.1.trans h.2
  | acknowledged target sends =>
    simp only [Synced,hpc,hswitched] at h
    exact absurd h.2.2 (by decide)
  | verifying target sends =>
    simp only [Synced,hpc,hswitched] at h
    exact absurd h.2.2 (by decide)

lemma start_synced : Synced start := ⟨rfl,rfl⟩

end Synced

/-- In a run in which the agent never falls back, commands go out at the agent's rate. -/
theorem rates_agree_while_kept (fits : ℕ → Bool) (ls : List Label)
    (h : Along (step fits) KeepsRate start ls) : Along (step fits) Agreed start ls :=
  Along.of_invariant (fun _ l hs hk => step_synced l hs hk) (fun _ l hs _ => agreed_of_synced l hs)
    start_synced h

/-- The rates of a UART with a clock of 24 MHz. -/
def upTo1500000 (baud : ℕ) : Bool := baud ≤ 1500000

/-- 3000000 is acknowledged and not taken; the switch to 921600 is. -/
theorem fast_read_after_short_gap :
    Along (step upTo1500000) Agreed start ([.setBaud 3000000,.proceed,.proceed,
      .setBaud defaultFastBaud,.proceed,.proceed]++
      List.replicate 59 .agentTimeout++[.transfer true 8192,.proceed]) :=
  rates_agree_while_kept upTo1500000 _ (by decide +kernel)

/-- Sixty timeouts after the switch the agent is back at 115200; the next fast read trusts
the cached rate. -/
theorem fast_read_after_long_gap_unheard :
    ¬Along (step upTo1500000) Agreed start ([.setBaud defaultFastBaud,.proceed,.proceed]++
      List.replicate 60 .agentTimeout++[.transfer true 8192,.proceed]) := by
  decide +kernel

end Defib.BaudLink
