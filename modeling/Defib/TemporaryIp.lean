import Defib.Actions

/-!
# A temporary address

`temporary_ip` adds an address to an interface and takes it away again. The commands are
atomic: they take effect when they exit with 0, and one that was started runs to its end also
when nobody waits for it any more. A task can be cancelled once, at any of the points where it
waits; that is a number of waits to go.
-/
namespace Defib.TemporaryIp
open Actions

inductive Exn where
  | cancelled
  | unsupportedPlatform
  | commandMissing
  | addFailed
  | neverUsable
  | body
  deriving DecidableEq, Repr

/-- `except Exception` does not catch a cancellation. -/
def Exn.isException : Exn → Bool
  | cancelled => false
  | _ => true

inductive Platform where
  | linux | darwin | win32 | other
  deriving DecidableEq, Repr

inductive AddCommand where
  | missing
  | exits (zero : Bool)
  deriving DecidableEq, Repr

/-- The host: whether it has the address, and the waits to go until the task is cancelled. -/
structure Host where
  hasAddress : Bool
  cancelIn : Option ℕ
  deriving DecidableEq, Repr

/-- What the surroundings do: whether the address can be bound at the start, after a failed
command and at each poll up to the deadline, how the command ends and how the body does. -/
structure Env where
  platform : Platform
  bindableAtStart : Bool
  add : AddCommand
  bindableAfterFailure : Bool
  polls : List Bool
  bodyRaises : Bool
  deriving DecidableEq, Repr

def await : Act Exn Host Unit := fun s =>
  match s.cancelIn with
  | none => (.ok (),s)
  | some 0 => (.error .cancelled,{s with cancelIn := none})
  | some (n+1) => (.ok (),{s with cancelIn := some n})

/-- `_run_command` with the add command: whether it exited with 0. -/
def runAdd (add : AddCommand) : Act Exn Host Bool :=
  match add with
  | .missing => throw .commandMissing
  | .exits zero => do
    modify fun s => {s with hasAddress := s.hasAddress || zero}
    await
    return zero

/-- `remove_ip`; the delete command does not fail. -/
def removeIp : Act Exn Host Unit := do
  modify fun s => {s with hasAddress := false}
  await

def undoAdd : Act Exn Host Unit :=
  attempt removeIp fun e => if e.isException then return () else throw e

/-- `_wait_until_bindable`; the deadline has passed at the last poll. -/
def waitUntilBindable : List Bool → Act Exn Host Bool
  | [] => return false
  | [b] => return b
  | b::bs => if b then return true else do
      await
      waitUntilBindable bs

/-- `_interface_name_advice`: only Windows has to be asked. -/
def interfaceNameAdvice (p : Platform) : Act Exn Host Unit :=
  if p = .win32 then await else return ()

/-- `add_ip` from where the address is its own. -/
def settle (e : Env) : Act Exn Host Bool := do
  let ready ← attempt (waitUntilBindable e.polls) fun err => do
    undoAdd
    throw err
  if ready then return true
  else
    undoAdd
    throw .neverUsable

def addIp (e : Env) : Act Exn Host Bool :=
  if e.bindableAtStart then return false
  else if e.platform = .other then throw .unsupportedPlatform
  else do
    let zero ← runAdd e.add
    if zero then settle e
    else if e.bindableAfterFailure then return false
    else
      interfaceNameAdvice e.platform
      throw .addFailed

def body (e : Env) : Act Exn Host Unit := do
  await
  if e.bodyRaises then throw .body else return ()

/-- `temporary_ip` around its body. -/
def temporaryIp (e : Env) : Act Exn Host Unit := do
  let added ← addIp e
  ensure (body e) (if added then removeIp else return ())

section
variable {e : Env} {s : Host}

def Keeps (s s' : Host) : Prop := s'.hasAddress = s.hasAddress

lemma Keeps.refl (s : Host) : Keeps s s := rfl

lemma Keeps.trans (s t u : Host) (h : Keeps s t) (h' : Keeps t u) : Keeps s u := Eq.trans h' h

lemma await_keeps : Leads Keeps await := by
  intro s
  rw [await]
  split <;> rfl

lemma body_keeps (e : Env) : Leads Keeps (body e) := by
  refine Leads.bind Keeps.trans await_keeps fun _ => ?_
  split
  · exact Leads.throw Keeps.refl _
  · exact Leads.pure Keeps.refl _

lemma interfaceNameAdvice_keeps (p : Platform) : Leads Keeps (interfaceNameAdvice p) := by
  rw [interfaceNameAdvice]
  split
  · exact await_keeps
  · exact Leads.pure Keeps.refl _

lemma removeIp_clears (s : Host) : (removeIp s).2.hasAddress = false :=
  await_keeps {s with hasAddress := false}

lemma undoAdd_clears (s : Host) : (undoAdd s).2.hasAddress = false := by
  have hremoved := removeIp_clears s
  rw [undoAdd]
  cases h : removeIp s with
  | mk r t =>
    rw [h] at hremoved
    cases r with
    | ok a =>
      rw [attempt_ok h]
      exact hremoved
    | error err =>
      rw [attempt_error h]
      split
      · exact hremoved
      · exact hremoved

lemma undo_throw_clears (err : Exn) (s : Host) :
    ∃ err' t,(undoAdd >>= fun _ => throw err : Act Exn Host Bool) s = (.error err',t) ∧
      t.hasAddress = false := by
  have hundone := undoAdd_clears s
  cases h : undoAdd s with
  | mk r t =>
    rw [h] at hundone
    cases r with
    | ok a => exact ⟨err,t,bind_ok h,hundone⟩
    | error err' => exact ⟨err',t,bind_error h,hundone⟩

lemma settle_spec (e : Env) (s : Host) :
    (∃ t,settle e s = (.ok true,t)) ∨
    (∃ err t,settle e s = (.error err,t) ∧ t.hasAddress = false) := by
  cases h : attempt (waitUntilBindable e.polls) (fun err => do undoAdd; throw err) s with
  | mk r t =>
    cases r with
    | ok ready =>
      cases ready with
      | true => exact .inl ⟨t,bind_ok h⟩
      | false =>
        obtain ⟨err,u,hundo,hgone⟩ := undo_throw_clears .neverUsable t
        exact .inr ⟨err,u,(bind_ok h).trans hundo,hgone⟩
    | error err =>
      refine .inr ⟨err,t,bind_error h,?_⟩
      cases hwait : waitUntilBindable e.polls s with
      | mk r' t' =>
        cases r' with
        | ok ready =>
          rw [attempt_ok hwait] at h
          cases h
        | error err' =>
          obtain ⟨err'',u,hundo,hgone⟩ := undo_throw_clears err' t'
          rw [attempt_error hwait,hundo] at h
          cases h
          exact hgone

lemma temporaryIp_of_addIp {added : Bool} {t : Host} (h : addIp e s = (.ok added,t)) :
    (temporaryIp e s).2.hasAddress = if added then false else t.hasAddress := by
  have hrun : (temporaryIp e s).2 =
      ((if added then removeIp else return () : Act Exn Host Unit) (body e t).2).2 := by
    rw [temporaryIp,bind_ok h,ensure_state]
  rw [hrun]
  cases added with
  | true => exact removeIp_clears _
  | false => exact body_keeps e t

lemma temporaryIp_of_error {err : Exn} {t : Host} (h : addIp e s = (.error err,t)) :
    (temporaryIp e s).2 = t := by
  rw [temporaryIp,bind_error h]

lemma runAdd_exits (zero : Bool) (s : Host) :
    runAdd (.exits zero) s = (if s.cancelIn = some 0 then .error .cancelled else .ok zero,
      ⟨s.hasAddress || zero,if s.cancelIn = some 0 then none else s.cancelIn.map (·-1)⟩) := by
  obtain ⟨has,cancelIn⟩ := s
  cases cancelIn with
  | none => rfl
  | some n =>
    cases n with
    | zero => rfl
    | succ n => rfl

lemma addIp_eq (hstart : e.bindableAtStart = false) (hplatform : e.platform ≠ .other) :
    addIp e = (runAdd e.add >>= fun zero => if zero then settle e
      else if e.bindableAfterFailure then return false
      else interfaceNameAdvice e.platform >>= fun _ => throw .addFailed) := by
  rw [addIp,if_neg (by rw [hstart]; decide),if_neg hplatform]

lemma failed_keeps (h : addIp e = (runAdd (.exits false) >>= fun zero => if zero then settle e
      else if e.bindableAfterFailure then return false
      else interfaceNameAdvice e.platform >>= fun _ => throw .addFailed)) :
    (temporaryIp e s).2.hasAddress = s.hasAddress := by
  have hrun := runAdd_exits false s
  rw [Bool.or_false] at hrun
  generalize hcancel : (if s.cancelIn = some 0 then none else s.cancelIn.map (·-1)) =
    cancelIn at hrun
  by_cases hzero : s.cancelIn = some 0
  · rw [if_pos hzero] at hrun
    rw [temporaryIp_of_error (h ▸ bind_error hrun)]
  · rw [if_neg hzero] at hrun
    cases hafter : e.bindableAfterFailure with
    | true =>
      have hadd : addIp e s = (.ok false,⟨s.hasAddress,cancelIn⟩) := by
        rw [h,bind_ok hrun,hafter]
        rfl
      exact temporaryIp_of_addIp hadd
    | false =>
      have hkept := interfaceNameAdvice_keeps e.platform ⟨s.hasAddress,cancelIn⟩
      have hadd : addIp e s = (interfaceNameAdvice e.platform >>= fun _ => throw .addFailed)
          ⟨s.hasAddress,cancelIn⟩ := by
        rw [h,bind_ok hrun,hafter]
        rfl
      cases hadvice : interfaceNameAdvice e.platform ⟨s.hasAddress,cancelIn⟩ with
      | mk r t =>
        rw [hadvice] at hkept
        cases r with
        | ok a => rw [temporaryIp_of_error (hadd.trans (bind_ok hadvice)),hkept]
        | error err => rw [temporaryIp_of_error (hadd.trans (bind_error hadvice)),hkept]

lemma settled_gone {t : Host} (h : addIp e s = settle e t) :
    (temporaryIp e s).2.hasAddress = false := by
  rcases settle_spec e t with ⟨u,hu⟩ | ⟨err,u,hu,hgone⟩
  · exact temporaryIp_of_addIp (h.trans hu)
  · rw [temporaryIp_of_error (h.trans hu),hgone]

end

/-- When everything has ended, the host has the address as before just when it was not added,
or the task was cancelled in the wait for the command and the host had the address, or it was
not and the host had not. -/
theorem temporary_ip_restores_iff (e : Env) (s : Host) :
    (temporaryIp e s).2.hasAddress = s.hasAddress ↔
      ¬ (e.bindableAtStart = false ∧ e.platform ≠ .other ∧ e.add = .exits true) ∨
      (s.hasAddress = true ↔ s.cancelIn = some 0) := by
  by_cases hstart : e.bindableAtStart = false
  swap
  · have hadd : addIp e s = (.ok false,s) := by
      rw [addIp,if_pos (Bool.not_eq_false _ ▸ hstart)]
      rfl
    exact iff_of_true (temporaryIp_of_addIp hadd) (.inl fun h => hstart h.1)
  by_cases hplatform : e.platform = .other
  · have hadd : addIp e s = (.error .unsupportedPlatform,s) := by
      rw [addIp,if_neg (by rw [hstart]; decide),if_pos hplatform]
      rfl
    refine iff_of_true ?_ (.inl fun h => h.2.1 hplatform)
    rw [temporaryIp_of_error hadd]
  have hadd := addIp_eq hstart hplatform
  cases hcommand : e.add with
  | missing =>
    rw [hcommand] at hadd
    have herror : addIp e s = (.error .commandMissing,s) := by
      rw [hadd]
      rfl
    refine iff_of_true ?_ (.inl fun h => nomatch h.2.2)
    rw [temporaryIp_of_error herror]
  | exits zero =>
    rw [hcommand] at hadd
    cases zero with
    | false => exact iff_of_true (failed_keeps hadd) (.inl fun h => nomatch h.2.2)
    | true =>
      have hrun := runAdd_exits true s
      rw [Bool.or_true] at hrun
      by_cases hzero : s.cancelIn = some 0
      · rw [if_pos hzero,if_pos hzero] at hrun
        rw [temporaryIp_of_error (hadd ▸ bind_error hrun)]
        constructor
        · intro hhad
          exact .inr ⟨fun _ => hzero,fun _ => hhad.symm⟩
        · rintro (hno | hhad)
          · exact absurd ⟨hstart,hplatform,rfl⟩ hno
          · exact (hhad.mpr hzero).symm
      · rw [if_neg hzero,if_neg hzero] at hrun
        have hsettle : addIp e s = settle e ⟨true,s.cancelIn.map (·-1)⟩ := by
          rw [hadd,bind_ok hrun]
          rfl
        rw [settled_gone hsettle]
        constructor
        · intro hhad
          exact .inr ⟨fun htrue => (nomatch hhad.trans htrue),fun hc => absurd hc hzero⟩
        · rintro (hno | hhad)
          · exact absurd ⟨hstart,hplatform,rfl⟩ hno
          · exact (Bool.eq_false_iff.mpr fun htrue => hzero (hhad.mp htrue)).symm

/-- A host without the address whose command succeeds. -/
def plainEnv : Env := ⟨.linux,false,.exits true,false,[true],false⟩

/-- Cancelled in the wait for the add command: the address stays behind. -/
theorem cancelled_add_leaves_address :
    (temporaryIp plainEnv ⟨false,some 0⟩).1 = .error .cancelled ∧
    (temporaryIp plainEnv ⟨false,some 0⟩).2.hasAddress = true := ⟨rfl,rfl⟩

end Defib.TemporaryIp
