import Defib.BaudLink
import Mathlib.Algebra.Order.Round
import Mathlib.Data.Rat.Floor
import Mathlib.Tactic.FieldSimp
import Mathlib.Tactic.Ring

/-!
# The divisor of the agent's UART

The agent never computes a rate from the clock of its UART while it can avoid it. It
takes the divisor the boot ROM left behind for 115200 and scales it: a PL011 divides
its clock by `IBRD*64+FBRD`, so the divisor for another rate is the captured one
times 115200 over that rate, rounded. A rate whose integer divisor leaves 1..65535
is given up and the old divisor stays. After a self-update the new image starts in
`uart_init`, which captures whatever divisor it finds.
-/
namespace Defib.UartDivisor
open Runs BaudLink

def uartBaud : ℕ := 115200

/-- The registers and variables of the agent that have to do with its rate. -/
structure Uart where
  ibrd : ℕ
  fbrd : ℕ
  bootromBrd64 : ℕ
  atDefaultBaud : Bool
  idleCount : ℕ
  baudIdle : ℕ
  deriving DecidableEq, Repr

def Uart.brd64 (u : Uart) : ℕ := u.ibrd*64+u.fbrd

/-- Divisor and fraction from the compile-time `UART_CLOCK`. -/
def clockDivisor (uartClock baud : ℕ) : ℕ × ℕ :=
  (uartClock/(16*baud),(uartClock%(16*baud)*64+16*baud/2)/(16*baud))

/-- `uart_init` of every target of the Makefile: the divisors found are kept. -/
def Uart.init (uartClock : ℕ) (u : Uart) : Uart :=
  if u.ibrd = 0 ∧ u.fbrd = 0 then
    let (divisor,frac) := clockDivisor uartClock uartBaud
    {u with ibrd := divisor, fbrd := frac%64, bootromBrd64 := divisor*64+frac%64}
  else {u with bootromBrd64 := u.ibrd*64+u.fbrd%64}

def newBrd64 (base baud : ℕ) : ℕ := (base*uartBaud+baud/2)/baud

def Uart.setBaud (uartClock : ℕ) (u : Uart) (baud : ℕ) : Uart :=
  let (divisor,frac) :=
    if u.bootromBrd64 ≠ 0 ∧ baud ≠ 0 then
      (newBrd64 u.bootromBrd64 baud/64,newBrd64 u.bootromBrd64 baud%64)
    else clockDivisor uartClock baud
  if divisor < 1 ∨ 0xFFFF < divisor then u
  else {u with ibrd := divisor, fbrd := frac%64}

def Uart.command (u : Uart) : Uart := {u with idleCount := 0, baudIdle := 0}

/-- `handle_set_baud`. The flag follows the request, whatever became of the divisor. -/
def Uart.handleSetBaud (uartClock : ℕ) (u : Uart) (baud : ℕ) : Uart :=
  if baudAccepted baud then
    {u.command.setBaud uartClock baud with atDefaultBaud := decide (baud = uartBaud)}
  else u.command

/-- This timeout is the one that reverts the rate. -/
def Uart.reverts (u : Uart) : Bool := !u.atDefaultBaud && 60 ≤ u.baudIdle+1

/-- Every fourth timeout in a row repeats the READY packet. -/
def Uart.countIdle (u : Uart) : Uart :=
  {u with idleCount := if 4 ≤ u.idleCount+1 then 0 else u.idleCount+1}

/-- `proto_recv` timed out in the command loop. -/
def Uart.timeout (uartClock : ℕ) (u : Uart) : Uart :=
  if u.atDefaultBaud then u.countIdle
  else if 60 ≤ u.baudIdle+1 then
    {u.countIdle.setBaud uartClock uartBaud with atDefaultBaud := true, baudIdle := 0}
  else {u.countIdle with baudIdle := u.baudIdle+1}

/-- `main` up to its command loop. -/
def Uart.main (uartClock : ℕ) (u : Uart) : Uart :=
  {u.init uartClock with atDefaultBaud := true, idleCount := 0, baudIdle := 0}

/-- The divisor registers as the boot ROM leaves them. -/
structure BootDivisor where
  ibrd : ℕ
  fbrd : ℕ
  ibrd_pos : 1 ≤ ibrd
  ibrd_le : ibrd ≤ 0xFFFF
  fbrd_lt : fbrd < 64

def BootDivisor.brd64 (boot : BootDivisor) : ℕ := boot.ibrd*64+boot.fbrd

inductive Label where
  | setBaud (baud : ℕ)
  | timeout
  /-- Any command that leaves the rate alone. -/
  | command
  /-- A `CMD_SELFUPDATE` that ends in the jump to the new image. -/
  | restart
  deriving DecidableEq, Repr

/-- The integer divisor of the rate is one the PL011 can be given. -/
def fits (base baud : ℕ) : Bool :=
  1 ≤ newBrd64 base baud/64 && newBrd64 base baud/64 ≤ 0xFFFF

/-- The agent with the rate asked for last, which no variable of the agent holds. -/
structure Watched where
  uart : Uart
  rate : ℕ
  deriving DecidableEq, Repr

section Run
variable (uartClock : ℕ) (boot : BootDivisor)

def start : Watched :=
  ⟨({ibrd := boot.ibrd, fbrd := boot.fbrd, bootromBrd64 := 0, atDefaultBaud := true,
     idleCount := 0, baudIdle := 0} : Uart).main uartClock,uartBaud⟩

def step (s : Watched) : Label → Watched
  | .setBaud baud => ⟨s.uart.handleSetBaud uartClock baud,
      if baudAccepted baud && fits boot.brd64 baud then baud else s.rate⟩
  | .timeout => ⟨s.uart.timeout uartClock,if s.uart.reverts then uartBaud else s.rate⟩
  | .command => ⟨s.uart.command,s.rate⟩
  | .restart => ⟨s.uart.main uartClock,s.rate⟩

end Run

/-- The divisor is the one of the rate asked for last, and the flag tells whether it is
the boot ROM's. -/
def Right (base : ℕ) (s : Watched) : Prop :=
  (s.uart.brd64 : ℤ) = round ((base*uartBaud : ℚ)/s.rate) ∧
    (s.uart.atDefaultBaud = true ↔ s.uart.brd64 = base)

/-- The rate is so far from 115200 that its divisor is rounded to another one. -/
def Apart (base baud : ℕ) : Prop :=
  baud ≤ 2*base*(uartBaud-baud) ∨ baud < 2*base*(baud-uartBaud)

/-- A restart finds the boot ROM's divisor. A request for another rate than 115200 leads
away from it, or cannot be met while the agent is away from it. -/
def Keeps (base : ℕ) (s : Watched) : Label → Prop
  | .setBaud baud => baudAccepted baud → baud ≠ uartBaud →
      if fits base baud then Apart base baud else s.uart.brd64 ≠ base
  | .restart => s.uart.brd64 = base
  | _ => True

lemma newBrd64_eq_round (base baud : ℕ) :
    (newBrd64 base baud : ℤ) = round ((base*uartBaud : ℚ)/baud) := by
  rcases Nat.eq_zero_or_pos baud with rfl | hb
  · simp [newBrd64]
  have hdouble : newBrd64 base baud = (2*(base*uartBaud)+baud)/(2*baud) := by
    have hhalf : (base*uartBaud+baud/2) = (2*(base*uartBaud)+baud)/2 := by omega
    rw [newBrd64,hhalf,Nat.div_div_eq_div_mul]
  have hsum : (base*uartBaud : ℚ)/baud+1/2 =
      ((2*(base*uartBaud)+baud : ℕ) : ℚ)/((2*baud : ℕ) : ℚ) := by
    have hne : (baud : ℚ) ≠ 0 := by exact_mod_cast hb.ne'
    push_cast
    field_simp
  rw [round_eq,hsum,Rat.floor_natCast_div_natCast,hdouble,Int.natCast_div]

lemma newBrd64_uartBaud (base : ℕ) : newBrd64 base uartBaud = base := by
  simp only [newBrd64,uartBaud]
  omega

lemma newBrd64_eq_iff {base baud : ℕ} (hb : 0 < baud) :
    newBrd64 base baud = base ↔ ¬ Apart base baud := by
  rw [newBrd64,Nat.div_eq_iff hb,Apart]
  -- the difference of the two products decides, so only the side of 115200 matters
  rcases Nat.le_total baud uartBaud with h | h
  · obtain ⟨d,hd⟩ := Nat.exists_eq_add_of_le h
    have hzero : baud-(baud+d) = 0 := by omega
    rw [hd,Nat.mul_add,Nat.add_sub_cancel_left,Nat.mul_assoc 2 base d,hzero]
    omega
  · obtain ⟨d,rfl⟩ := Nat.exists_eq_add_of_le h
    have hzero : uartBaud-(uartBaud+d) = 0 := by omega
    rw [Nat.mul_add,Nat.add_sub_cancel_left,Nat.mul_assoc 2 base d,hzero]
    omega

lemma BootDivisor.fits_uartBaud (boot : BootDivisor) : fits boot.brd64 uartBaud = true := by
  have h := boot.ibrd_pos
  have h' := boot.ibrd_le
  have h'' := boot.fbrd_lt
  simp only [fits,newBrd64_uartBaud,BootDivisor.brd64,Bool.and_eq_true,decide_eq_true_eq]
  omega

variable {s : Watched}

lemma right_iff {base : ℕ} : Right base s ↔ s.uart.brd64 = newBrd64 base s.rate ∧
      (s.uart.atDefaultBaud = true ↔ s.uart.brd64 = base) := by
  rw [Right,← newBrd64_eq_round,Nat.cast_inj]

variable {baud : ℕ}

section Steps
variable {uartClock : ℕ} {boot : BootDivisor} {u : Uart} {s : Watched}

/-- The registers of the divisor between two steps. -/
structure Sound (base : ℕ) (u : Uart) : Prop where
  captured : u.bootromBrd64 = base
  ibrd_pos : 1 ≤ u.ibrd
  fbrd_lt : u.fbrd < 64

lemma BootDivisor.brd64_pos (boot : BootDivisor) : boot.brd64 ≠ 0 := by
  have h := boot.ibrd_pos
  simp only [BootDivisor.brd64]
  omega

lemma setBaud_of_fits (hu : Sound boot.brd64 u) (hb : baud ≠ 0)
    (hf : fits boot.brd64 baud = true) :
    u.setBaud uartClock baud = {u with
      ibrd := newBrd64 boot.brd64 baud/64, fbrd := newBrd64 boot.brd64 baud%64} := by
  simp only [fits,Bool.and_eq_true,decide_eq_true_eq] at hf
  have hin : ¬ (newBrd64 boot.brd64 baud/64 < 1 ∨ 0xFFFF < newBrd64 boot.brd64 baud/64) := by
    omega
  simp only [Uart.setBaud,hu.captured,boot.brd64_pos,hb,ne_eq,not_false_eq_true,and_self,
    if_true,if_neg hin,Nat.mod_mod]

lemma setBaud_of_not_fits (hu : Sound boot.brd64 u) (hb : baud ≠ 0)
    (hf : fits boot.brd64 baud = false) : u.setBaud uartClock baud = u := by
  simp only [fits,Bool.and_eq_false_iff,decide_eq_false_iff_not] at hf
  have hout : newBrd64 boot.brd64 baud/64 < 1 ∨ 0xFFFF < newBrd64 boot.brd64 baud/64 := by
    omega
  simp only [Uart.setBaud,hu.captured,boot.brd64_pos,hb,ne_eq,not_false_eq_true,and_self,
    if_true,if_pos hout]

lemma brd64_setBaud_of_fits (hu : Sound boot.brd64 u) (hb : baud ≠ 0)
    (hf : fits boot.brd64 baud = true) :
    (u.setBaud uartClock baud).brd64 = newBrd64 boot.brd64 baud := by
  rw [setBaud_of_fits hu hb hf,Uart.brd64]
  exact Nat.div_add_mod' _ _

lemma Sound.setBaud (hu : Sound boot.brd64 u) (hb : baud ≠ 0) :
    Sound boot.brd64 (u.setBaud uartClock baud) := by
  cases hf : fits boot.brd64 baud with
  | true =>
    rw [setBaud_of_fits hu hb hf]
    simp only [fits,Bool.and_eq_true,decide_eq_true_eq] at hf
    exact ⟨hu.captured,hf.1,Nat.mod_lt _ (by decide)⟩
  | false => rwa [setBaud_of_not_fits hu hb hf]

lemma Sound.command (hu : Sound boot.brd64 u) : Sound boot.brd64 u.command :=
  ⟨hu.captured,hu.ibrd_pos,hu.fbrd_lt⟩

lemma baudAccepted_ne_zero (h : baudAccepted baud = true) : baud ≠ 0 := by
  simp only [baudAccepted,Bool.and_eq_true,decide_eq_true_eq] at h
  omega

lemma Sound.handleSetBaud (hu : Sound boot.brd64 u) (baud : ℕ) :
    Sound boot.brd64 (u.handleSetBaud uartClock baud) := by
  rw [Uart.handleSetBaud]
  split
  next h =>
      have hs : Sound boot.brd64 (u.command.setBaud uartClock baud) :=
        hu.command.setBaud (baudAccepted_ne_zero h)
      exact ⟨hs.captured,hs.ibrd_pos,hs.fbrd_lt⟩
  next => exact hu.command

lemma brd64_handleSetBaud (hu : Sound boot.brd64 u)
    (ha : baudAccepted baud = true) : (u.handleSetBaud uartClock baud).brd64 =
      if fits boot.brd64 baud then newBrd64 boot.brd64 baud else u.brd64 := by
  have hb : baud ≠ 0 := baudAccepted_ne_zero ha
  rw [Uart.handleSetBaud,if_pos ha]
  change (u.command.setBaud uartClock baud).brd64 = _
  cases hf : fits boot.brd64 baud with
  | true => exact brd64_setBaud_of_fits hu.command hb hf
  | false =>
    rw [setBaud_of_not_fits hu.command hb hf]
    rfl

lemma atDefaultBaud_handleSetBaud (ha : baudAccepted baud = true) :
    (u.handleSetBaud uartClock baud).atDefaultBaud = decide (baud = uartBaud) := by
  rw [Uart.handleSetBaud,if_pos ha]

lemma right_handleSetBaud_iff (hu : Sound boot.brd64 s.uart) (hr : Right boot.brd64 s)
    (baud : ℕ) : Right boot.brd64 (step uartClock boot s (.setBaud baud)) ↔
      Keeps boot.brd64 s (.setBaud baud) := by
  rw [right_iff] at hr ⊢
  cases ha : baudAccepted baud with
  | false =>
    simp only [step,Keeps,Uart.handleSetBaud,ha,Bool.false_and,Bool.false_eq_true,if_false,
      false_imp_iff,iff_true]
    exact hr
  | true =>
    have hb : 0 < baud := Nat.pos_of_ne_zero (baudAccepted_ne_zero ha)
    simp only [step,Keeps,brd64_handleSetBaud hu ha,atDefaultBaud_handleSetBaud ha,ha,
      Bool.true_and,forall_const,decide_eq_true_eq]
    cases hf : fits boot.brd64 baud with
    | true =>
      simp only [if_true,true_and,newBrd64_eq_iff hb]
      constructor
      · intro h hne
        by_contra hclose
        exact hne (h.mpr hclose)
      · intro h
        constructor
        · intro heq
          rw [← newBrd64_eq_iff hb,heq,newBrd64_uartBaud]
        · intro hclose
          by_contra hne
          exact hclose (h hne)
    | false =>
      have hne : baud ≠ uartBaud := by
        intro heq
        rw [heq,boot.fits_uartBaud] at hf
        cases hf
      simp only [hne,Bool.false_eq_true,if_false,false_iff,ne_eq,not_false_eq_true,
        forall_const]
      exact and_iff_right hr.1

lemma Sound.countIdle (hu : Sound boot.brd64 u) : Sound boot.brd64 u.countIdle :=
  ⟨hu.captured,hu.ibrd_pos,hu.fbrd_lt⟩

lemma timeout_of_reverts (h : u.reverts = true) : u.timeout uartClock =
    {u.countIdle.setBaud uartClock uartBaud with atDefaultBaud := true, baudIdle := 0} := by
  simp only [Uart.reverts,Bool.and_eq_true,Bool.not_eq_true',decide_eq_true_eq] at h
  rw [Uart.timeout,h.1,if_neg (by decide),if_pos h.2]

lemma timeout_of_not_reverts (uartClock : ℕ) (h : u.reverts = false) :
    ∃ n, u.timeout uartClock = {u.countIdle with baudIdle := n} := by
  rw [Uart.timeout]
  split
  next => exact ⟨u.baudIdle,rfl⟩
  next ha =>
      have hn : ¬ 60 ≤ u.baudIdle+1 := by
        intro hn
        simp [Uart.reverts,ha,hn] at h
      exact ⟨u.baudIdle+1,if_neg hn⟩

lemma Sound.timeout (hu : Sound boot.brd64 u) : Sound boot.brd64 (u.timeout uartClock) := by
  cases h : u.reverts with
  | true =>
    have hs : Sound boot.brd64 (u.countIdle.setBaud uartClock uartBaud) :=
      hu.countIdle.setBaud (by decide)
    rw [timeout_of_reverts h]
    exact ⟨hs.captured,hs.ibrd_pos,hs.fbrd_lt⟩
  | false =>
    obtain ⟨n,hn⟩ := timeout_of_not_reverts uartClock h
    rw [hn]
    exact ⟨hu.captured,hu.ibrd_pos,hu.fbrd_lt⟩

lemma brd64_timeout (hu : Sound boot.brd64 u) : (u.timeout uartClock).brd64 =
    if u.reverts then boot.brd64 else u.brd64 := by
  cases h : u.reverts with
  | true =>
    rw [timeout_of_reverts h]
    change (u.countIdle.setBaud uartClock uartBaud).brd64 = _
    rw [brd64_setBaud_of_fits hu.countIdle (by decide) boot.fits_uartBaud,newBrd64_uartBaud]
    rfl
  | false =>
    obtain ⟨n,hn⟩ := timeout_of_not_reverts uartClock h
    rw [hn]
    rfl

lemma right_timeout (hu : Sound boot.brd64 s.uart) (hr : Right boot.brd64 s) :
    Right boot.brd64 (step uartClock boot s .timeout) := by
  rw [right_iff] at hr ⊢
  simp only [step,brd64_timeout hu]
  cases h : s.uart.reverts with
  | true =>
    simp only [if_true,newBrd64_uartBaud,timeout_of_reverts h,true_and]
  | false =>
    obtain ⟨n,hn⟩ := timeout_of_not_reverts uartClock h
    rw [hn]
    exact hr

lemma main_eq (hi : 1 ≤ u.ibrd) (hf : u.fbrd < 64) : u.main uartClock =
    {u with bootromBrd64 := u.brd64, atDefaultBaud := true, idleCount := 0, baudIdle := 0} := by
  have hne : ¬ (u.ibrd = 0 ∧ u.fbrd = 0) := by omega
  simp only [Uart.main,Uart.init,if_neg hne,Uart.brd64,Nat.mod_eq_of_lt hf]

lemma right_restart_iff (hu : Sound boot.brd64 s.uart) (hr : Right boot.brd64 s) :
    Right boot.brd64 (step uartClock boot s .restart) ↔ Keeps boot.brd64 s .restart := by
  rw [right_iff] at hr ⊢
  simp only [step,Keeps,main_eq hu.ibrd_pos hu.fbrd_lt,true_iff]
  exact and_iff_right hr.1

lemma Sound.main (hu : Sound boot.brd64 u) (h : u.brd64 = boot.brd64) :
    Sound boot.brd64 (u.main uartClock) := by
  rw [main_eq hu.ibrd_pos hu.fbrd_lt]
  exact ⟨h,hu.ibrd_pos,hu.fbrd_lt⟩

end Steps

section Runs
variable (uartClock : ℕ) (boot : BootDivisor)

lemma right_step_iff (l : Label) (hu : Sound boot.brd64 s.uart) (hr : Right boot.brd64 s) :
    Right boot.brd64 (step uartClock boot s l) ↔ Keeps boot.brd64 s l := by
  cases l with
  | setBaud baud => exact right_handleSetBaud_iff hu hr baud
  | timeout => exact iff_of_true (right_timeout hu hr) trivial
  | command => exact iff_of_true hr trivial
  | restart => exact right_restart_iff hu hr

lemma sound_step (l : Label) (hu : Sound boot.brd64 s.uart)
    (hk : l = .restart → s.uart.brd64 = boot.brd64) :
    Sound boot.brd64 (step uartClock boot s l).uart := by
  cases l with
  | setBaud baud => exact hu.handleSetBaud baud
  | timeout => exact hu.timeout
  | command => exact hu.command
  | restart => exact hu.main (hk rfl)

lemma start_sound : Sound boot.brd64 (start uartClock boot).uart := by
  rw [start,main_eq boot.ibrd_pos boot.fbrd_lt]
  exact ⟨rfl,boot.ibrd_pos,boot.fbrd_lt⟩

lemma start_right : Right boot.brd64 (start uartClock boot) := by
  rw [right_iff,start,main_eq boot.ibrd_pos boot.fbrd_lt,newBrd64_uartBaud]
  exact ⟨rfl,iff_of_true rfl rfl⟩

def Followed (s : Watched) : Prop := Sound boot.brd64 s.uart ∧ Right boot.brd64 s

lemma start_followed : Followed boot (start uartClock boot) :=
  ⟨start_sound uartClock boot,start_right uartClock boot⟩

/-- The divisor follows the requests along exactly those runs that restart at the boot
ROM's divisor only and ask for no rate that leaves the divisor there. -/
theorem divisor_right_iff (ls : List Label) :
    (Right boot.brd64 (start uartClock boot) ∧
      Along (step uartClock boot) (fun s l => Right boot.brd64 (step uartClock boot s l))
        (start uartClock boot) ls) ↔
    Along (step uartClock boot) (Keeps boot.brd64) (start uartClock boot) ls := by
  rw [and_iff_right (start_right uartClock boot)]
  refine Along.iff_of_invariant ?_ ?_ (start_followed uartClock boot)
  · intro s l hs hk
    refine ⟨sound_step uartClock boot l hs.1 ?_,(right_step_iff uartClock boot l hs.1 hs.2).mpr hk⟩
    rintro rfl
    exact hk
  · intro s l hs
    exact right_step_iff uartClock boot l hs.1 hs.2

end Runs

/-- The divisor 13 + 1/64 that the comment in the driver gives for 115200. -/
def usualBoot : BootDivisor := ⟨13,1,by decide,by decide,by decide⟩

/-- A self-update at 921600 takes the divisor of that rate for the one of 115200. -/
theorem restart_at_fast_rate :
    ¬ Right usualBoot.brd64
      (([.setBaud 921600,.restart] : List Label).foldl (step 24000000 usualBoot)
        (start 24000000 usualBoot)) := by
  intro h
  have hflag := h.2
  revert hflag
  decide

section Refinement
variable (uartClock : ℕ) (boot : BootDivisor)

def Watched.line (s : Watched) : AgentUart :=
  ⟨s.rate,s.uart.atDefaultBaud,s.uart.idleCount,s.uart.baudIdle⟩

lemma idleCount_setBaud (u : Uart) (baud : ℕ) :
    (u.setBaud uartClock baud).idleCount = u.idleCount := by
  rw [Uart.setBaud]
  split
  split
  · rfl
  · rfl

lemma line_timeout (s : Watched) :
    (step uartClock boot s .timeout).line = s.line.timeout (fits boot.brd64) := by
  have hfits : fits boot.brd64 fallbackBaud = true := boot.fits_uartBaud
  simp only [step,Watched.line,Uart.timeout,Uart.reverts,AgentUart.timeout,AgentUart.uartSetBaud,
    hfits]
  by_cases ha : s.uart.atDefaultBaud = true <;> by_cases hi : 4 ≤ s.uart.idleCount+1 <;>
    by_cases hn : 60 ≤ s.uart.baudIdle+1 <;>
      simp [ha,hi,hn,Uart.countIdle,idleCount_setBaud,uartBaud,fallbackBaud]

lemma line_setBaud (hu : Sound boot.brd64 s.uart) (ha : baudAccepted baud = true) :
    (step uartClock boot s (.setBaud baud)).line = s.line.setBaud (fits boot.brd64) baud := by
  have hb : baud ≠ 0 := baudAccepted_ne_zero ha
  simp only [step,Watched.line,Uart.handleSetBaud,AgentUart.setBaud,AgentUart.uartSetBaud,ha,
    if_true,Bool.true_and]
  cases hf : fits boot.brd64 baud with
  | true => rw [setBaud_of_fits hu.command hb hf]; rfl
  | false => rw [setBaud_of_not_fits hu.command hb hf]; rfl

/-- The line after a step of the agent that is not a restart. -/
def lineStep (base : ℕ) (a : AgentUart) : Label → AgentUart
  | .setBaud baud => if baudAccepted baud then a.setBaud (fits base) baud else a.command
  | .timeout => a.timeout (fits base)
  | _ => a.command

lemma line_step {l : Label} (hu : Sound boot.brd64 s.uart) (hl : l ≠ .restart) :
    (step uartClock boot s l).line = lineStep boot.brd64 s.line l := by
  cases l with
  | setBaud baud =>
    cases ha : baudAccepted baud with
    | true => rw [line_setBaud uartClock boot hu ha,lineStep,if_pos ha]
    | false =>
      simp only [step,Watched.line,Uart.handleSetBaud,lineStep,ha,Bool.false_and,
        Bool.false_eq_true,if_false]
      rfl
  | timeout => exact line_timeout uartClock boot s
  | command => rfl
  | restart => exact (hl rfl).elim

lemma divisor_step {l : Label} (hu : Sound boot.brd64 s.uart)
    (hd : s.uart.brd64 = newBrd64 boot.brd64 s.rate) (hl : l ≠ .restart) :
    (step uartClock boot s l).uart.brd64 =
      newBrd64 boot.brd64 (step uartClock boot s l).rate := by
  cases l with
  | setBaud baud =>
    cases ha : baudAccepted baud with
    | true =>
      simp only [step,brd64_handleSetBaud hu ha,ha,Bool.true_and]
      split_ifs
      · rfl
      · exact hd
    | false =>
      simp only [step,Uart.handleSetBaud,ha,Bool.false_and,Bool.false_eq_true,if_false]
      exact hd
  | timeout =>
    simp only [step,brd64_timeout hu]
    split_ifs
    · exact (newBrd64_uartBaud _).symm
    · exact hd
  | command => exact hd
  | restart => exact (hl rfl).elim

lemma run_line (ls : List Label) (h : .restart ∉ ls)
    (hu : Sound boot.brd64 s.uart) (hd : s.uart.brd64 = newBrd64 boot.brd64 s.rate) :
    let t := ls.foldl (step uartClock boot) s
    t.line = ls.foldl (lineStep boot.brd64) s.line ∧ t.uart.brd64 = newBrd64 boot.brd64 t.rate := by
  induction ls generalizing s with
  | nil => exact ⟨rfl,hd⟩
  | cons l ls ih =>
    rw [List.mem_cons,not_or] at h
    have hl : l ≠ .restart := Ne.symm h.1
    rw [List.foldl_cons,List.foldl_cons,← line_step uartClock boot hu hl]
    exact ih h.2 (sound_step uartClock boot l hu fun he => (hl he).elim)
      (divisor_step uartClock boot hu hd hl)

/-- Without restarts, the agent is on the line what the model of the line says, and its divisor
is that of the rate there. -/
theorem agent_follows_line (ls : List Label) (h : .restart ∉ ls) :
    let s := ls.foldl (step uartClock boot) (start uartClock boot)
    let a := ls.foldl (lineStep boot.brd64) ⟨fallbackBaud,true,0,0⟩
    s.line = a ∧ (s.uart.brd64 : ℤ) = round ((boot.brd64*uartBaud : ℚ)/a.baud) := by
  have hstart : (start uartClock boot).line = ⟨fallbackBaud,true,0,0⟩ := rfl
  obtain ⟨hline,hdivisor⟩ := run_line uartClock boot ls h (start_sound uartClock boot)
    (right_iff.mp (start_right uartClock boot)).1
  rw [hstart] at hline
  refine ⟨hline,?_⟩
  rw [← hline,hdivisor,newBrd64_eq_round]
  rfl

end Refinement

/-- 3000000 needs a divisor below 1 and is not taken. -/
theorem fast_rate_on_line :
    (([.setBaud 921600,.setBaud 3000000,.timeout] : List Label).foldl (step 24000000 usualBoot)
      (start 24000000 usualBoot)).line = ⟨921600,false,1,1⟩ :=
  (agent_follows_line 24000000 usualBoot _ (by decide)).1

end Defib.UartDivisor
