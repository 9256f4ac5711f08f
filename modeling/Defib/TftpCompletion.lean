import Defib.TftpInvariant

/-!
# The completion signal of the TFTP server

A server with a done file sets its event when a transfer of that file is over. The request
is resolved by its name, by the last part of its path or by its letters regardless of case;
the end of a transfer compares the name as it was requested.
-/
namespace Defib.TftpCompletion
open List Words TftpServer TftpInvariant

/-- The entry of the files map that `_resolve_file` answers with. -/
def resolveEntry (c : Config) (filename : List Byte) : Option (List Byte × List Byte) :=
  (c.files.find? fun f => f.1 = filename).or <|
    (c.files.find? fun f => f.1 = basename filename).or <|
      c.files.find? fun f => lower f.1 = lower filename || lower f.1 = lower (basename filename)

lemma lookup_eq_find (files : List (List Byte × List Byte)) (name : List Byte) :
    files.lookup name = (files.find? fun f => f.1 = name).map (·.2) := by
  induction files with
  | nil => rfl
  | cons f files ih =>
    obtain ⟨key,data⟩ := f
    rw [lookup_cons,List.find?_cons]
    by_cases hkey : key = name
    · simp [hkey]
    · simp [hkey,beq_false_of_ne (Ne.symm hkey),ih]

lemma resolveFile_eq (c : Config) (filename : List Byte) :
    c.resolveFile filename = ((resolveEntry c filename).map (·.2)).or c.defaultData := by
  rw [Config.resolveFile,resolveEntry,lookup_eq_find,lookup_eq_find,Option.map_or,Option.map_or,
    Option.or_assoc,Option.or_assoc]

variable {A : Type} [DecidableEq A]

def Requests (ev : Event A) (name : List Byte) : Prop :=
  ∃ addr d r,ev = .datagram addr d ∧ Server.unpackBe16 d 0 = 1 ∧ parseRrq d = some r ∧
    r.filename = name

/-- The names of the transfers are those from before or the name of a request. -/
def Named (s : Server A) (ev : Event A) (s' : Server A) : Prop :=
  ∀ a t',s'.transfers.lookup a = some t' →
    (∃ b t,s.transfers.lookup b = some t ∧ t.filename = t'.filename) ∨ Requests ev t'.filename

/-- What one event does to the names and to the signal. -/
inductive Effect (c : Config) (s : Server A) (ev : Event A) (s' : Server A) : Prop
  | keeps (files : s'.filesComplete = s.filesComplete) (done : s'.done = s.done)
      (named : Named s ev s')
  | completes (a : A) (t : Transfer A) (live : s.transfers.lookup a = some t)
      (files : s'.filesComplete = s.filesComplete++[t.filename])
      (done : ∀ f,c.doneFile = some f → s'.done = (s.done || decide (t.filename = f)))
      (named : Named s ev s')

section Steps
variable {c : Config} {s s' : Server A} {ev : Event A}

lemma Named.of_eq (h : s'.transfers = s.transfers) : Named s ev s' := by
  intro a t ht
  rw [h] at ht
  exact .inl ⟨a,t,ht,rfl⟩

lemma Named.of_erase {a : A} (h : s'.transfers = s.transfers.erase a) : Named s ev s' := by
  intro b t ht
  rw [h] at ht
  by_cases hb : b = a
  · rw [hb,AList.lookup_erase] at ht
    cases ht
  · rw [AList.lookup_erase_ne hb] at ht
    exact .inl ⟨b,t,ht,rfl⟩

lemma Named.of_insert {a : A} {t : Transfer A} (h : s'.transfers = s.transfers.insert a t)
    (ht : (∃ b u,s.transfers.lookup b = some u ∧ u.filename = t.filename) ∨
      Requests ev t.filename) : Named s ev s' := by
  intro b u hu
  rw [h] at hu
  by_cases hb : b = a
  · rw [hb,AList.lookup_insert] at hu
    cases hu
    exact ht
  · rw [AList.lookup_insert_ne hb] at hu
    exact .inl ⟨b,u,hu,rfl⟩

/-- What a packet is sent for: a live transfer, or one that the event asks for. -/
def Known (s : Server A) (ev : Event A) (t : Transfer A) : Prop :=
  (∃ b u,s.transfers.lookup b = some u ∧ u.filename = t.filename) ∨ Requests ev t.filename

lemma sendTracked_effect {s₀ : Server A} {t : Transfer A} (p : Packet)
    (htransfers : s₀.transfers = s.transfers) (hfiles : s₀.filesComplete = s.filesComplete)
    (hdone : s₀.done = s.done) (ht : Known s ev t) : Effect c s ev (s₀.sendTracked t p).1 := by
  have hinsert : (s₀.sendTracked t p).1.transfers = s.transfers.insert t.addr
      {t with lastPacket := some p, timer := some s₀.nextHandle} := by
    rw [← htransfers]
    rfl
  exact .keeps hfiles hdone (Named.of_insert hinsert ht)

lemma sendDataBlock_effect {s₀ : Server A} {t : Transfer A} {sent : List (Sent A)}
    (h : s₀.sendDataBlock t = some (s',sent)) (htransfers : s₀.transfers = s.transfers)
    (hfiles : s₀.filesComplete = s.filesComplete) (hdone : s₀.done = s.done)
    (ht : Known s ev t) : Effect c s ev s' := by
  rw [Server.sendDataBlock] at h
  split at h
  · rw [← (Prod.mk.inj (Option.some.inj h)).1]
    exact sendTracked_effect _ htransfers hfiles hdone ht
  · cases h

lemma handleRrq_effect {addr : A} {d : List Byte} {sent : List (Sent A)}
    (hop : Server.unpackBe16 d 0 = 1) (h : s.handleRrq c addr d = some (s',sent)) :
    Effect c s (.datagram addr d) s' := by
  rw [Server.handleRrq] at h
  split at h
  next =>
    cases h
    exact .keeps rfl rfl (Named.of_eq rfl)
  next r hr =>
    have hknown : ∀ file,Known s (.datagram addr d) (Server.newTransfer c s addr r file) :=
      fun file => .inr ⟨addr,d,r,rfl,hop,hr,rfl⟩
    split at h
    · cases h
      exact .keeps rfl rfl (Named.of_eq rfl)
    split at h
    · cases h
      exact .keeps rfl rfl (Named.of_eq rfl)
    next file _ =>
      dsimp only at h
      generalize hearlier : (s.transfers.lookup addr).elim
        {s with requests := s.requests+1} {s with requests := s.requests+1}.cancelTimer = s₀ at h
      -- at most the timer of an earlier transfer is gone
      have hsame : s₀.transfers = s.transfers ∧ s₀.filesComplete = s.filesComplete ∧
          s₀.done = s.done := by
        rw [← hearlier]
        cases s.transfers.lookup addr with
        | none => exact ⟨rfl,rfl,rfl⟩
        | some t => exact ⟨rfl,rfl,rfl⟩
      split at h
      · rw [← (Prod.mk.inj (Option.some.inj h)).1]
        exact sendTracked_effect _ hsame.1 hsame.2.1 hsame.2.2 (hknown file)
      · exact sendDataBlock_effect h hsame.1 hsame.2.1 hsame.2.2 (hknown file)

lemma handleAck_effect {addr : A} {d : List Byte} {sent : List (Sent A)}
    (h : s.handleAck c addr d = some (s',sent)) : Effect c s (.datagram addr d) s' := by
  rw [Server.handleAck] at h
  split at h
  · cases h
    exact .keeps rfl rfl (Named.of_eq rfl)
  split at h
  · cases h
    exact .keeps rfl rfl (Named.of_eq rfl)
  next t hlive =>
    have hknown : ∀ u : Transfer A,u.filename = t.filename → Known s (.datagram addr d) u :=
      fun u hu => .inl ⟨addr,t,hlive,hu.symm⟩
    dsimp only at h
    split at h
    · exact sendDataBlock_effect h rfl rfl rfl (hknown _ rfl)
    split at h
    · split at h
      · cases h
        refine .completes addr t hlive rfl ?_ (Named.of_erase rfl)
        intro f hf
        rw [Server.finish,hf]
        rfl
      · exact sendDataBlock_effect h rfl rfl rfl (hknown _ rfl)
    · cases h
      exact .keeps rfl rfl (Named.of_eq rfl)

lemma handleError_effect (addr : A) : Effect c s ev (s.handleError addr) := by
  rw [Server.handleError]
  split
  · exact .keeps rfl rfl (Named.of_eq rfl)
  · exact .keeps rfl rfl (Named.of_erase rfl)

lemma retransmit_effect (m : Timer A) : Effect c s ev (s.retransmit c m).1 := by
  rw [Server.retransmit]
  split
  · exact .keeps rfl rfl (Named.of_eq rfl)
  next t hlive =>
    split
    · exact .keeps rfl rfl (Named.of_eq rfl)
    dsimp only
    split
    · exact .keeps rfl rfl (Named.of_erase rfl)
    · exact .keeps rfl rfl (Named.of_insert rfl (.inl ⟨m.addr,t,hlive,rfl⟩))

lemma react_effect {sent : List (Sent A)} (h : s.react c ev = some (s',sent)) :
    Effect c s ev s' := by
  cases ev with
  | datagram addr d =>
    rw [Server.react,Server.datagramReceived] at h
    split at h
    · cases h
      exact .keeps rfl rfl (Named.of_eq rfl)
    dsimp only at h
    split at h
    next hop => exact handleRrq_effect hop h
    next =>
      split at h
      · exact handleAck_effect h
      split at h
      · cases h
        exact handleError_effect addr
      · cases h
        exact .keeps rfl rfl (Named.of_eq rfl)
  | timer n =>
    rw [Server.react] at h
    split at h
    · cases h
      exact .keeps rfl rfl (Named.of_eq rfl)
    · rw [← (Prod.mk.inj (Option.some.inj h)).1]
      exact retransmit_effect _

end Steps

def served (c : Config) (evs : List (Event A)) : World A := evs.foldl (step c) World.start

lemma served_append (c : Config) (evs : List (Event A)) (ev : Event A) :
    served c (evs++[ev]) = step c (served c evs) ev := by
  rw [served,foldl_append]
  rfl

lemma step_effect (c : Config) (w : World A) (ev : Event A) :
    (step c w ev).server = w.server ∨ Effect c w.server ev (step c w ev).server := by
  rw [step]
  split
  next => exact .inl rfl
  next h => exact .inr (react_effect h)

lemma served_requested (c : Config) (evs : List (Event A)) :
    ∀ a t,(served c evs).server.transfers.lookup a = some t →
      ∃ req ∈ evs,Requests req t.filename := by
  induction evs using List.reverseRecOn with
  | nil =>
    intro a t ht
    cases ht
  | append_singleton evs ev ih =>
    intro a t ht
    rw [served_append] at ht
    have hfrom : Named (served c evs).server ev (step c (served c evs) ev).server := by
      rcases step_effect c (served c evs) ev with heq | heffect
      · exact Named.of_eq (by rw [heq])
      · cases heffect with
        | keeps _ _ named => exact named
        | completes _ _ _ _ _ named => exact named
    rcases hfrom a t ht with ⟨b,u,hu,hname⟩ | hreq
    · obtain ⟨req,hmem,hreq⟩ := ih b u hu
      exact ⟨req,mem_append_left _ hmem,hname ▸ hreq⟩
    · exact ⟨ev,mem_append_right _ (mem_singleton_self ev),hreq⟩

/-- In every run: when a transfer is over that was requested under a name which resolves to
the done file, the event is set just when the name is spelled as the done file, unless it was
set before. -/
theorem completion_signal_iff {c : Config} {f : List Byte} (hdone : c.doneFile = some f)
    {evs : List (Event A)} {ev : Event A} {name data : List Byte}
    (hentry : resolveEntry c name = some (f,data))
    (hover : (served c (evs++[ev])).server.filesComplete =
      (served c evs).server.filesComplete++[name]) :
    (∃ req ∈ evs,Requests req name) ∧ c.resolveFile name = some data ∧
    ((served c (evs++[ev])).server.done = true ↔
      name = f ∨ (served c evs).server.done = true) := by
  have hfile : c.resolveFile name = some data := by
    rw [resolveFile_eq,hentry]
    rfl
  rw [served_append] at hover ⊢
  have hgrown : (step c (served c evs) ev).server.filesComplete ≠
      (served c evs).server.filesComplete := by
    rw [hover]
    simp
  rcases step_effect c (served c evs) ev with heq | heffect
  · rw [heq] at hgrown
    exact absurd rfl hgrown
  cases heffect with
  | keeps files _ _ => exact absurd files hgrown
  | completes a t live files done _ =>
    have hname : t.filename = name := by
      rw [hover] at files
      exact (singleton_inj.mp (append_cancel_left files)).symm
    refine ⟨?_,hfile,?_⟩
    · rw [← hname]
      exact served_requested c evs a t live
    · rw [done f hdone,hname,Bool.or_eq_true,decide_eq_true_iff,or_comm]

/-- One file, and the event is to be set when it was fetched. -/
def oneFile : Config :=
  ⟨[(ascii "fw.bin",[1,2,3])],none,maxBlocksizeLimit,10,1,some (ascii "fw.bin"),
    maxBlocksizeLimit_bounds⟩

def rrq (name : List Byte) : List Byte := [0,1]++name++[0]++ascii "octet"++[0]

/-- The request and the acknowledgement of its only block. -/
def fetch (name : List Byte) : List (Event ℕ) :=
  [.datagram 7 (rrq name)]++[.datagram 7 [0,4,0,1]]

theorem exact_name_signals :
    (served oneFile (fetch (ascii "fw.bin"))).server.done = true := by
  have hentry : resolveEntry oneFile (ascii "fw.bin") = some (ascii "fw.bin",[1,2,3]) := by
    decide +kernel
  have hover : (served oneFile (fetch (ascii "fw.bin"))).server.filesComplete =
      (served oneFile [.datagram 7 (rrq (ascii "fw.bin"))]).server.filesComplete++
        [ascii "fw.bin"] := by
    decide +kernel
  exact (completion_signal_iff rfl hentry hover).2.2.mpr (.inl rfl)

/-- The file fetched under a path: it was served and the transfer is over, without a signal. -/
theorem path_name_keeps_silent :
    resolveEntry oneFile (ascii "boot/fw.bin") = some (ascii "fw.bin",[1,2,3]) ∧
    (served oneFile (fetch (ascii "boot/fw.bin"))).server.filesComplete =
      [ascii "boot/fw.bin"] ∧
    (served oneFile (fetch (ascii "boot/fw.bin"))).server.done = false := by
  decide +kernel

end Defib.TftpCompletion
