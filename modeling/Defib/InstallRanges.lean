import Defib.Install

/-!
# Which flash an installation touches

Every erase and write of a run lies in the partitions of the selected stages, a payload
is erased for only after U-Boot has reported its checksum in RAM, and a run succeeds only
when every payload reads back with its checksum. A command line may hold several
commands; the texts that are copied into `setenv` lines, two addresses and the memory
size that U-Boot reports, must therefore not hold a separator.
-/
namespace Defib.InstallRanges
open List Words PyText UbootReplies Dialogue Dialogue.Program Install

abbrev Log := List (Query × Reply)

/-! ### Commands in a line -/

/-- What ends a command inside a line, or the line. -/
def separator (c : Char) : Bool := c ∈ [';','&','|','\r','\n']

def isPlain (s : List Char) : Bool := s.all fun c => !separator c

/-- The commands that follow the first one. -/
def injected (value : List Char) : List (List Char) := (value.splitOnP separator).tail

def hexNumber (w : List Char) : ℕ :=
  (removePrefix ['0','x'] w).foldl (fun v c => v*16+hexDigit c) 0

/-- The flash that a command given as text erases or writes. -/
def textRange (piece : List Char) : Option Span :=
  match (piece.splitOn ' ').filter (· ≠ []) with
  | [sf,verb,a,b] =>
    if sf = ['s','f'] ∧ verb = "erase".toList then some (hexNumber a,hexNumber b) else none
  | [sf,verb,_,a,b] =>
    if sf = ['s','f'] ∧ verb = "write".toList then some (hexNumber a,hexNumber b) else none
  | _ => none

/-- The flash that a line erases or writes. -/
def ranges : Command → List Span
  | .sfErase off size => [(off,size)]
  | .sfWrite _ off size => [(off,size)]
  | .setenv _ value => (injected value).filterMap textRange
  | _ => []

variable {key value : List Char}

lemma ranges_setenv (h : isPlain value = true) :
    ranges (.setenv key value) = [] := by
  have hsingle : value.splitOnP separator = [value] := by
    apply splitOnP_eq_singleton
    intro c hc
    have hplain := all_eq_true.mp h c hc
    simpa using hplain
  rw [ranges,injected,hsingle]
  rfl

/-! ### The partitions of the selected stages -/

def inSpan (span : Span) (a : ℕ) : Prop := span.1 ≤ a ∧ a < span.1+span.2

instance (span : Span) (a : ℕ) : Decidable (inSpan span a) :=
  inferInstanceAs (Decidable (span.1 ≤ a ∧ a < span.1+span.2))

section
variable (j : Job)

def stagesOf : List Stage :=
  match resolveInstallStages j.request.stages j.request.skipStages j.request.finalReset with
  | .ok stages => stages
  | .error _ => []

/-- The addresses that the selected stages may touch on a chip of that size. -/
def Allowed (norMb a : ℕ) : Prop :=
  let l := layoutFor j norMb
  let stages := stagesOf j
  (Stage.uboot ∈ stages ∧ inSpan l.boot a) ∨
  (Stage.uboot ∈ stages ∧ j.request.wipeEnv = true ∧ Stage.env ∈ stages ∧ stock j = false ∧
    inSpan l.env a) ∨
  (Stage.kernel ∈ stages ∧ split j = false ∧ inSpan l.kernel a) ∨
  (Stage.rootfs ∈ stages ∧ split j = false ∧ inSpan l.rootfs a) ∨
  (Stage.rootfs ∈ stages ∧ split j = true ∧ l.env.1+l.env.2 ≤ a ∧ a < mib norMb) ∨
  ((j.request.wipeRootfsData = true ∨ (stock j = true ∧ Stage.rootfsData ∈ stages)) ∧
    l.rootfs.1+l.rootfs.2 ≤ a ∧ a < mib norMb) ∨
  (stock j = true ∧ Stage.env ∈ stages ∧ inSpan l.env a)

def Within (q : Query) : Prop :=
  ∀ span ∈ ranges q.cmd,∀ a,inSpan span a → Allowed j q.norMb a

def dataOf : Payload → List Byte
  | .uboot => (padToSize j.request.uboot j.request.chip.bootArea.1).getD []
  | .kernel => j.request.firmware.kernel
  | .rootfs => j.request.firmware.rootfs

def Selected : Payload → Prop
  | .uboot => Stage.uboot ∈ stagesOf j
  | .kernel => Stage.kernel ∈ stagesOf j ∧ split j = false
  | .rootfs => Stage.rootfs ∈ stagesOf j

/-- A checksum command for a payload, answered with the checksum of the payload. -/
def ReportsCrc (p : Payload) (x : Query × Reply) : Prop :=
  x.1.payload = some p ∧ x.1.cmd = .crc32 (ramAddr j) (dataOf j p).length ∧
    parseCrc32 x.2.text = some (crcOf (dataOf j p))

def ErasesFor (p : Payload) (q : Query) : Prop :=
  q.payload = some p ∧ ∃ off size,q.cmd = .sfErase off size

/-- Before each erase for a payload its checksum in RAM was reported. -/
def ErasesStaged (log : Log) : Prop :=
  ∀ l₁ x l₂ p,log = l₁++x::l₂ → ErasesFor p x.1 → ∃ y ∈ l₁,ReportsCrc j p y

/-- The payload was written, read back and found to have its checksum. -/
def ReadBack (p : Payload) (log : Log) : Prop :=
  ∃ off w r c,[w,r,c].Sublist log ∧
    w.1.cmd = .sfWrite (ramAddr j) off (dataOf j p).length ∧
    r.1.cmd = .sfRead (ramAddr j) off (dataOf j p).length ∧ ReportsCrc j p c

/-- The memory size that U-Boot reports is plain text. -/
def plainMemory (q : Query) (r : Reply) : Bool :=
  q.cmd ≠ .printenv totalmem || (parsePrintenv r.text totalmem).all isPlain

def Answers (q : Query) (r : Reply) : Prop := plainMemory q r = true

/-- No erase for a payload, and no flash outside the plan. -/
def Harmless (q : Query) : Prop := Within j q ∧ ∀ p,¬ ErasesFor p q

def Kept (log : Log) : Prop := (∀ x ∈ log,Within j x.1) ∧ ErasesStaged j log

end

/-! ### Logs -/

section
variable {j : Job}

lemma ErasesStaged.append {l l' : Log} (h : ErasesStaged j l)
    (h' : ∀ x ∈ l',∀ p,ErasesFor p x.1 → ∃ y ∈ l,ReportsCrc j p y) : ErasesStaged j (l++l') := by
  intro l₁ x l₂ p heq herase
  rcases append_eq_append_iff.mp heq with ⟨as,hl₁,hl'⟩ | ⟨bs,hl,hbs⟩
  · -- the erase is in the second part
    have hx : x ∈ l' := by
      rw [hl']
      exact mem_append_right as mem_cons_self
    obtain ⟨y,hy,hrep⟩ := h' x hx p herase
    refine ⟨y,?_,hrep⟩
    rw [hl₁]
    exact mem_append_left as hy
  · cases bs with
    | nil =>
      have hx : x ∈ l' := by
        rw [nil_append] at hbs
        rw [← hbs]
        exact mem_cons_self
      obtain ⟨y,hy,hrep⟩ := h' x hx p herase
      rw [append_nil] at hl
      exact ⟨y,hl ▸ hy,hrep⟩
    | cons b bs =>
      obtain ⟨rfl,_⟩ := cons_eq_cons.mp hbs
      exact h l₁ x bs p hl herase

lemma Kept.harmless {l l' : Log} (h : Kept j l) (h' : ∀ x ∈ l',Harmless j x.1) :
    Kept j (l++l') := by
  refine ⟨forall_mem_append.mpr ⟨h.1,fun x hx => (h' x hx).1⟩,h.2.append ?_⟩
  intro x hx p herase
  exact absurd herase ((h' x hx).2 p)

lemma ReadBack.append_left {p : Payload} {l : Log} (h : ReadBack j p l) (l' : Log) :
    ReadBack j p (l++l') := by
  obtain ⟨off,w,r,c,hsub,hrest⟩ := h
  exact ⟨off,w,r,c,hsub.trans (sublist_append_left l l'),hrest⟩

lemma ReadBack.append_right {p : Payload} {l' : Log} (h : ReadBack j p l') (l : Log) :
    ReadBack j p (l++l') := by
  obtain ⟨off,w,r,c,hsub,hrest⟩ := h
  exact ⟨off,w,r,c,hsub.trans (sublist_append_right l l'),hrest⟩

end

/-! ### Single commands -/

section
variable {A B : Type} {j : Job} {p : Option Payload} {norMb : ℕ}

lemma harmless_quiet {q : Query} (h : ranges q.cmd = []) : Harmless j q := by
  refine ⟨fun span hspan => ?_,?_⟩
  · rw [h] at hspan
    cases hspan
  · rintro p ⟨_,off,size,hcmd⟩
    rw [hcmd] at h
    cases h

/-- Only harmless commands, whatever the replies. -/
def Silent (j : Job) (s : Session A) : Prop := Safe Answers (Harmless j) (fun _ _ => True) s

lemma Silent.of_safe {Q : A → Log → Prop} {s : Session A}
    (h : Safe Answers (Harmless j) Q s) : Silent j s := h.mono fun _ _ _ => trivial

lemma Silent.bind {s : Session A} {f : A → Session B} (hs : Silent j s)
    (hf : ∀ a,Silent j (f a)) : Silent j (s >>= f) := Safe.bind hs fun a _ _ => hf a

lemma Silent.when {c : Bool} {part : Session Unit} (h : c = true → Silent j part) :
    Silent j (when c part) := by
  rw [Install.when]
  split
  · next hc => exact h hc
  · trivial

def Told (q : Query) (text : List Char) (l : Log) : Prop :=
  ∃ r,(q,r) ∈ l ∧ Answers q r ∧ r.text = text

variable {P : Query → Prop} {c : Command}

lemma cmdResult_safe (allowFailure : Bool) (hc : P ⟨p,norMb,c⟩) :
    Safe Answers P (fun a l => Told ⟨p,norMb,c⟩ a.2 l) (cmdResult j p norMb allowFailure c) := by
  refine Safe.ask_bind hc fun r hr => ?_
  have htold : Told ⟨p,norMb,c⟩ r.text [(⟨p,norMb,c⟩,r)] := ⟨r,mem_cons_self,hr,rfl⟩
  cases r with
  | error text =>
    dsimp only
    split
    · exact htold
    · trivial
  | answer ok text =>
    dsimp only
    split
    · split
      · trivial
      · exact htold
    · split
      · exact htold
      · refine Safe.ask_bind hc fun r hr => ?_
        cases r with
        | error text => trivial
        | answer ok text =>
          exact ⟨_,mem_cons_of_mem _ mem_cons_self,hr,rfl⟩

lemma cmd_safe (hc : P ⟨p,norMb,c⟩) :
    Safe Answers P (fun text l => Told ⟨p,norMb,c⟩ text l) (cmd j p norMb c) := by
  refine (cmdResult_safe false hc).bind fun a l h => ?_
  show Told _ a.2 (l++[])
  rwa [append_nil]

lemma flashCmd_safe (hc : P ⟨p,norMb,c⟩) :
    Safe Answers P (fun text l => Told ⟨p,norMb,c⟩ text l) (flashCmd j p norMb c) := by
  refine (cmd_safe hc).bind fun text l h => ?_
  split
  · trivial
  · show Told _ text (l++[])
    rwa [append_nil]

lemma cmdResult_silent {allowFailure : Bool} (h : Harmless j ⟨p,norMb,c⟩) :
    Silent j (cmdResult j p norMb allowFailure c) := .of_safe (cmdResult_safe allowFailure h)

lemma cmd_silent (h : Harmless j ⟨p,norMb,c⟩) : Silent j (cmd j p norMb c) :=
  .of_safe (cmd_safe h)

lemma flashCmd_silent (h : Harmless j ⟨p,norMb,c⟩) : Silent j (flashCmd j p norMb c) :=
  .of_safe (flashCmd_safe h)

lemma setEnvVerified_silent (h : isPlain value = true) (attempts : ℕ) :
    Silent j (setEnvVerified j p norMb key value attempts) := by
  induction attempts with
  | zero => trivial
  | succ attempts ih =>
    refine (cmd_silent (harmless_quiet (ranges_setenv h))).bind fun text => ?_
    split
    · exact ih
    · refine (cmd_silent (harmless_quiet rfl)).bind fun text => ?_
      split
      · trivial
      · exact ih

lemma setenv_silent (h : isPlain value = true) :
    Silent j (cmd j p norMb (.setenv key value)) := cmd_silent (harmless_quiet (ranges_setenv h))

lemma readEnv_safe (key : List Char) :
    Safe Answers (Harmless j)
      (fun v l => ∃ text,v = parsePrintenv text key ∧ Told ⟨p,norMb,.printenv key⟩ text l)
      (readEnv j p norMb key) := by
  have hasked : Safe Answers (Harmless j) (fun text l => Told ⟨p,norMb,.printenv key⟩ text l)
      (optionalPrintenv j p norMb key) := by
    refine (cmdResult_safe true (harmless_quiet rfl)).bind fun a l h => ?_
    have htold : Told ⟨p,norMb,.printenv key⟩ a.2 (l++[]) := by rwa [append_nil]
    split
    · exact htold
    · split
      · exact htold
      · trivial
  refine hasked.bind fun text l h => ?_
  refine ⟨text,rfl,?_⟩
  rwa [append_nil]

lemma readEnv_silent (key : List Char) : Silent j (readEnv j p norMb key) :=
  .of_safe (readEnv_safe key)

lemma readEnv_totalmem : Safe Answers (Harmless j) (fun v _ => ∀ t ∈ v,isPlain t = true)
    (readEnv j p norMb totalmem) := by
  refine (readEnv_safe totalmem).mono ?_
  rintro v l ⟨text,rfl,r,_,hr,rfl⟩ t ht
  simp only [Answers,plainMemory,ne_eq,not_true_eq_false,decide_false,Bool.false_or] at hr
  rw [Option.mem_def.mp ht] at hr
  exact hr

lemma unlockNor_silent : Silent j (unlockNor j p norMb) := by
  refine (cmdResult_silent (harmless_quiet rfl)).bind fun r => ?_
  split
  · split
    · trivial
    · trivial
  · split
    · trivial
    · split
      · trivial
      · trivial

lemma resetCommand_silent : Silent j (resetCommand j p norMb) := by
  rw [resetCommand]
  split
  · exact (cmdResult_silent (harmless_quiet rfl)).bind fun _ => trivial
  · refine Safe.ask_bind (harmless_quiet rfl) fun r _ => ?_
    cases r with
    | error text => trivial
    | answer ok text => trivial

lemma waitForShell_silent : Silent j (waitForShell p norMb) := by
  refine Safe.ask_bind (harmless_quiet rfl) fun r _ => ?_
  cases r with
  | error text => trivial
  | answer ok text =>
    cases ok with
    | false => trivial
    | true => trivial

end

/-! ### One payload -/

section
variable {j : Job} {p : Payload} {norMb : ℕ}

lemma fetch_silent (name : List Char) : Silent j (fetch j (some p) norMb name) := by
  refine (cmdResult_silent (harmless_quiet rfl)).bind fun r => ?_
  split
  · exact cmdResult_silent (harmless_quiet rfl)
  · trivial

lemma tftpToRam_silent (name : List Char) : Silent j (tftpToRam j (some p) norMb name) := by
  refine (fetch_silent name).bind fun r => ?_
  split
  · trivial
  · trivial

lemma stageInRam_safe (name : List Char) : Safe Answers (Harmless j)
    (fun ok l => ok = true → ∃ y ∈ l,ReportsCrc j p y)
    (stageInRam j (some p) norMb name (dataOf j p)) := by
  refine Safe.bind (tftpToRam_silent name) fun text l _ => ?_
  cases text with
  | none => exact fun h => by cases h
  | some text =>
    dsimp only
    split
    · exact fun h => by cases h
    · refine (cmdResult_safe true (harmless_quiet rfl)).bind fun r l' h => ?_
      obtain ⟨reply,hmem,_,htext⟩ := h
      intro hok
      rw [Bool.and_eq_true,decide_eq_true_eq] at hok
      refine ⟨_,mem_append_right l (mem_append_left [] hmem),rfl,rfl,?_⟩
      rw [htext]
      exact hok.2

lemma verifyTftpRam_safe (name : List Char) : Safe Answers (Harmless j)
    (fun _ l => ∃ y ∈ l,ReportsCrc j p y)
    (verifyTftpRam j (some p) norMb name (dataOf j p)) := by
  refine (stageInRam_safe name).bind fun ok l h => ?_
  split
  · next hok =>
    obtain ⟨y,hy,hrep⟩ := h hok
    exact ⟨y,mem_append_left [] hy,hrep⟩
  · refine (stageInRam_safe name).bind fun ok l' h' => ?_
    split
    · next hok =>
      obtain ⟨y,hy,hrep⟩ := h' hok
      exact ⟨y,mem_append_right l (mem_append_left [] hy),hrep⟩
    · trivial

lemma writeAndVerify_safe {off : ℕ}
    (hwrite : ∀ a,inSpan (off,(dataOf j p).length) a → Allowed j norMb a) :
    Safe Answers (Harmless j) (fun _ l => ReadBack j p l)
      (writeAndVerify j (some p) norMb (dataOf j p) off) := by
  have hharmless : Harmless j ⟨some p,norMb,.sfWrite (ramAddr j) off (dataOf j p).length⟩ := by
    refine ⟨?_,fun p' h => ?_⟩
    · intro span hspan
      rw [mem_singleton.mp hspan]
      exact hwrite
    · obtain ⟨_,off',size,hcmd⟩ := h
      cases hcmd
  refine (flashCmd_safe hharmless).bind fun _ l h => ?_
  refine (flashCmd_safe (harmless_quiet rfl)).bind fun _ l' h' => ?_
  refine (cmd_safe (harmless_quiet rfl)).bind fun text l'' h'' => ?_
  obtain ⟨rw,hw,_⟩ := h
  obtain ⟨rr,hr,_⟩ := h'
  obtain ⟨rc,hc,_,htext⟩ := h''
  split
  · next hcrc =>
    refine ⟨off,(⟨some p,norMb,.sfWrite (ramAddr j) off _⟩,rw),(⟨some p,norMb,.sfRead _ off _⟩,rr),
      (⟨some p,norMb,.crc32 _ _⟩,rc),?_,rfl,rfl,rfl,rfl,?_⟩
    · have hw' := singleton_sublist.mpr hw
      have hr' := singleton_sublist.mpr hr
      have hc' := singleton_sublist.mpr (mem_append_left [] hc)
      exact hw'.append (hr'.append hc')
    · rw [htext]
      exact hcrc
  · trivial

lemma erase_keeps {off size : ℕ} {l : Log} (hl : Kept j l) (hstaged : ∃ y ∈ l,ReportsCrc j p y)
    (herase : ∀ a,inSpan (off,size) a → Allowed j norMb a) :
    Keeps Answers (fun l' => Kept j (l++l')) (fun _ l' => Kept j (l++l'))
      (flashCmd j (some p) norMb (.sfErase off size)) := by
  have hkept : ∀ l' : Log,(∀ x ∈ l',x.1 = ⟨some p,norMb,.sfErase off size⟩) → Kept j (l++l') := by
    intro l' hl'
    refine ⟨forall_mem_append.mpr ⟨hl.1,fun x hx => ?_⟩,hl.2.append ?_⟩
    · rw [hl' x hx]
      intro span hspan
      rw [mem_singleton.mp hspan]
      exact herase
    · intro x hx p' h
      rw [hl' x hx] at h
      cases h.1
      exact hstaged
  have hsafe : Safe Answers (· = ⟨some p,norMb,.sfErase off size⟩)
      (fun text l => Told ⟨some p,norMb,.sfErase off size⟩ text l)
      (flashCmd j (some p) norMb (.sfErase off size)) := flashCmd_safe rfl
  exact (hsafe.keeps hkept).mono (fun _ h => h) fun _ _ h => h.1

/-- A step of the installation from any dialogue so far. -/
def Stays {A : Type} (j : Job) (Q : A → Log → Prop) (s : Session A) : Prop :=
  ∀ l,Kept j l → Keeps Answers (fun l' => Kept j (l++l')) (fun a l' => Kept j (l++l') ∧ Q a l') s

lemma Stays.of_safe {A : Type} {Q : A → Log → Prop} {s : Session A}
    (h : Safe Answers (Harmless j) Q s) : Stays j Q s :=
  fun _ hl => h.keeps fun _ hl' => hl.harmless hl'

lemma Stays.mono {A : Type} {Q Q' : A → Log → Prop} {s : Session A} (h : Stays j Q s)
    (hQ : ∀ a l,Q a l → Q' a l) : Stays j Q' s :=
  fun l hl => (h l hl).mono (fun _ h => h) fun a l' h => ⟨h.1,hQ a l' h.2⟩

lemma Stays.bind {A B : Type} {Q' : A → Log → Prop} {Q : B → Log → Prop} {s : Session A}
    {f : A → Session B} (hs : Stays j Q' s)
    (hf : ∀ a l,Q' a l → Stays j (fun b l' => Q b (l++l')) (f a)) : Stays j Q (s >>= f) := by
  intro l hl
  refine (hs l hl).bind fun a l' h => ?_
  refine (hf a l' h.2 (l++l') h.1).mono ?_ ?_
  · intro l'' h''
    rwa [append_assoc] at h''
  · intro b l'' h''
    rwa [append_assoc] at h''

lemma tftpAndFlash_stays {off size : ℕ} (name : List Char)
    (herase : ∀ a,inSpan (off,size) a → Allowed j norMb a)
    (hwrite : ∀ a,inSpan (off,(dataOf j p).length) a → Allowed j norMb a) :
    Stays j (fun _ l => ReadBack j p l)
      (tftpAndFlash j (some p) norMb name (dataOf j p) off size) := by
  intro l hl
  refine (Stays.of_safe (verifyTftpRam_safe name) l hl).bind fun _ l₁ h₁ => ?_
  have hstaged : ∃ y ∈ l++l₁,ReportsCrc j p y := by
    obtain ⟨y,hy,hrep⟩ := h₁.2
    exact ⟨y,mem_append_right l hy,hrep⟩
  have hrest : Keeps Answers (fun l' => Kept j (l++l₁++l'))
      (fun _ l' => Kept j (l++l₁++l') ∧ ReadBack j p l')
      (flashCmd j (some p) norMb (.sfErase off size) >>= fun _ =>
        writeAndVerify j (some p) norMb (dataOf j p) off) := by
    refine (erase_keeps h₁.1 hstaged herase).bind fun _ l₂ h₂ => ?_
    refine (Stays.of_safe (writeAndVerify_safe hwrite) _ h₂).mono ?_ ?_
    · intro l' h
      rwa [append_assoc] at h
    · rintro _ l' ⟨hkept,hread⟩
      rw [append_assoc] at hkept
      exact ⟨hkept,hread.append_right l₂⟩
  refine hrest.mono ?_ ?_
  · intro l' h
    rwa [append_assoc] at h
  · rintro _ l' ⟨hkept,hread⟩
    rw [append_assoc] at hkept
    exact ⟨hkept,hread.append_right l₁⟩

end

/-! ### Layouts -/

section
variable {j : Job} {norMb : ℕ}

lemma layout_boot (norMb : ℕ) (area : ℕ × ℕ) :
    (norLayout norMb area).boot = (0,area.1) ∧ (norLayout norMb area).env = (area.1,area.2) ∧
      (norLayout norMb area).kernel.1 = area.1+area.2 := by
  rw [norLayout]
  split
  · exact ⟨rfl,rfl,rfl⟩
  · next h =>
    rw [not_not.mp h]
    split
    · exact ⟨rfl,rfl,rfl⟩
    · split
      · exact ⟨rfl,rfl,rfl⟩
      · exact ⟨rfl,rfl,rfl⟩

lemma padToSize_length {data padded : List Byte} {size : ℕ}
    (h : padToSize data size = some padded) : padded.length = size := by
  rw [padToSize] at h
  split at h
  · cases h
  · rw [← Option.some.inj h,length_append,length_replicate]
    omega

lemma splitImageEnd_le {image : List Byte} {e : ℕ} (h : splitImageEnd image = some e) :
    image.length ≤ e := by
  rw [splitImageEnd] at h
  split_ifs at h
  cases h
  omega

lemma rootfs_fits {block : ℕ} (h : fits j norMb block = true) :
    j.request.firmware.rootfs.length ≤ (rootfsSpan j norMb).2 := by
  rw [fits] at h
  rw [rootfsSpan]
  split
  · next hsplit =>
    rw [if_pos hsplit,decide_eq_true_eq] at h
    have hend := splitImageEnd_le (j.request.firmware.split_checked hsplit)
    dsimp only
    omega
  · next hsplit =>
    rw [if_neg hsplit,decide_eq_true_eq] at h
    exact h.2

lemma kernel_fits {block : ℕ} (h : fits j norMb block = true) (hsplit : split j = false) :
    j.request.firmware.kernel.length ≤ (layoutFor j norMb).kernel.2 := by
  rw [fits,hsplit,if_neg Bool.false_ne_true,decide_eq_true_eq] at h
  exact h.1

lemma allowed_rootfs (hstage : Stage.rootfs ∈ stagesOf j) {a : ℕ}
    (h : inSpan (rootfsSpan j norMb) a) : Allowed j norMb a := by
  obtain ⟨_,henv,hkernel⟩ := layout_boot norMb j.request.chip.bootArea
  rw [rootfsSpan] at h
  split at h
  · next hsplit =>
    refine .inr (.inr (.inr (.inr (.inl ⟨hstage,hsplit,?_⟩))))
    unfold inSpan layoutFor at *
    rw [hkernel] at h
    rw [henv]
    dsimp only at h ⊢
    omega
  · next hsplit =>
    have hnot : split j = false := Bool.eq_false_iff.mpr hsplit
    exact .inr (.inr (.inr (.inl ⟨hstage,hnot,h⟩)))

lemma allowed_boot (hstage : Stage.uboot ∈ stagesOf j) {a : ℕ}
    (h : inSpan (0,ubootFlashSize j (stagesOf j)) a) : Allowed j norMb a := by
  obtain ⟨hboot,henv,_⟩ := layout_boot norMb j.request.chip.bootArea
  by_cases hin : a < j.request.chip.bootArea.1
  · refine .inl ⟨hstage,?_⟩
    rw [layoutFor,hboot]
    exact ⟨Nat.zero_le a,by rwa [Nat.zero_add]⟩
  · -- behind the boot partition only with the environment
    unfold inSpan at h
    rw [ubootFlashSize] at h
    split at h
    · next hwipe =>
      rw [Bool.and_eq_true,Bool.and_eq_true,decide_eq_true_eq,Bool.not_eq_true'] at hwipe
      refine .inr (.inl ⟨hstage,hwipe.1.1,hwipe.1.2,hwipe.2,?_⟩)
      rw [layoutFor,henv]
      exact ⟨by omega,by omega⟩
    · omega

end

/-! ### Plain texts -/

section

lemma plain_of_forall {s : List Char} (h : ∀ c ∈ s,c = ':' ∨ isHex c = true) :
    isPlain s = true := by
  apply all_eq_true.mpr
  intro c hc
  rw [Bool.not_eq_true',separator,decide_eq_false_iff_not]
  intro hmem
  rcases h c hc with rfl | hhex
  · exact absurd hmem (by decide)
  · simp only [mem_cons,not_mem_nil,or_false] at hmem
    rcases hmem with rfl | rfl | rfl | rfl | rfl <;> exact absurd hhex (by decide)

lemma isMac_plain {v : List Char} (h : isMac v = true) : isPlain v = true := by
  rw [isMac,Bool.and_eq_true] at h
  apply plain_of_forall
  intro c hc
  obtain ⟨i,hi,rfl⟩ := mem_iff_getElem.mp hc
  have hci := all_eq_true.mp h.2 (v[i],i) (mk_mem_zipIdx_iff_getElem?.mpr
    (getElem?_eq_getElem hi))
  dsimp only at hci
  split at hci
  · exact .inl (of_decide_eq_true hci)
  · exact .inr hci

lemma not_unset_plain {v : Option (List Char)} (h : isUnsetOrDefaultEthaddr v = false)
    {eth : List Char} (he : eth ∈ v.map fun v => lower (stripText v)) : isPlain eth = true := by
  cases v with
  | none => cases h
  | some v =>
    cases he
    rw [isUnsetOrDefaultEthaddr,Bool.or_eq_false_iff,Bool.not_eq_false'] at h
    exact isMac_plain h.1

lemma selectInstallEthaddr_plain {current preserved rescue : Option (List Char)}
    (hrescue : ∀ v ∈ rescue,isPlain v = true) {eth : List Char}
    (h : selectInstallEthaddr current preserved rescue = some eth) : isPlain eth = true := by
  rw [selectInstallEthaddr] at h
  split at h
  · next hp => exact not_unset_plain ((Bool.not_eq_true' _).mp hp) h
  · split at h
    · next hc => exact not_unset_plain ((Bool.not_eq_true' _).mp hc) h
    · exact hrescue eth h

lemma locallyAdministeredMac_plain (raw : List Byte) :
    isPlain (locallyAdministeredMac raw) = true := by
  apply plain_of_forall
  intro c hc
  rcases mem_intercalate hc with rfl | ⟨w,hw,hcw⟩
  · exact .inl rfl
  · obtain ⟨b,_,rfl⟩ := mem_map.mp hw
    have hb := MdDisplay.byte_lt b
    rcases mem_pair.mp hcw with rfl | rfl
    · exact .inr (MdDisplay.digitChar_spec _ (by omega)).1
    · exact .inr (MdDisplay.digitChar_spec _ (by omega)).1

lemma hexWord_plain (n : ℕ) : isPlain (ConsoleDump.hexWord n) = true := by
  have hdigits : isPlain (ConsoleDump.hexText n) = true := by
    apply plain_of_forall
    intro c hc
    obtain ⟨v,hv,rfl⟩ := ConsoleDump.hexText_mem hc
    exact .inr (MdDisplay.digitChar_spec v hv).1
  rw [ConsoleDump.hexWord,isPlain,all_cons,all_cons]
  exact hdigits

lemma norMtdparts_plain (norMb : ℕ) : isPlain (norMtdparts norMb) = true := by
  rw [norMtdparts]
  split
  · decide +kernel
  · split
    · decide +kernel
    · decide +kernel

end

/-! ### The stages -/

section
variable {j : Job} {norMb block : ℕ}

lemma setupNetwork_silent (stages : List Stage) (hdevice : isPlain j.request.deviceIp = true)
    (hserver : isPlain j.around.serverIp = true) : Silent j (setupNetwork j stages norMb) := by
  rw [setupNetwork]
  split
  · split
    · refine (setEnvVerified_silent hdevice 3).bind fun _ => ?_
      refine (setEnvVerified_silent hserver 3).bind fun _ => ?_
      exact setEnvVerified_silent (hexWord_plain _) 3
    · refine (setenv_silent hdevice).bind fun _ => ?_
      exact (setenv_silent hserver).bind fun _ => trivial
  · trivial

lemma applyStockEnv_silent (stages : List Stage) : Silent j (applyStockEnv j stages) := by
  have htransient : Silent j (when (needsTftp j stages && stock j)
      (transientEnv.foldlM (fun _ kv => setEnvVerified j none 0 kv.1 kv.2 3) ())) := by
    apply Silent.when
    intro _
    exact (setEnvVerified_silent (by decide) 3).bind fun _ => trivial
  rw [applyStockEnv]
  split
  · exact htransient
  · next eth heth =>
    have hplain := isMac_plain (j.around.preserved_valid eth heth)
    exact (setEnvVerified_silent hplain 3).bind fun _ => htransient

lemma probeSizes_silent (sizes : List ℕ) : Silent j (probeSizes j sizes) := by
  induction sizes with
  | nil => trivial
  | cons candidate rest ih =>
    refine (cmdResult_silent (harmless_quiet rfl)).bind fun r => ?_
    split
    · trivial
    · exact ih

lemma probeFlash_silent : Silent j (probeFlash j) := by
  refine (flashCmd_silent (harmless_quiet rfl)).bind fun text => ?_
  dsimp only
  split
  · rw [pure_bind]
    split
    · trivial
    · trivial
  · refine (probeSizes_silent _).bind fun detected => ?_
    split
    · trivial
    · trivial

lemma eraseVerified_silent {span : Span} (h : ∀ a,inSpan span a → Allowed j norMb a) :
    Silent j (eraseVerified j norMb span) := by
  have hharmless : Harmless j ⟨none,norMb,.sfErase span.1 span.2⟩ := by
    refine ⟨?_,fun p hp => ?_⟩
    · intro span' hspan
      rw [mem_singleton.mp hspan]
      exact h
    · cases hp.1
  refine (flashCmd_silent hharmless).bind fun _ => ?_
  refine (flashCmd_silent (harmless_quiet rfl)).bind fun text => ?_
  split
  · trivial
  · trivial

lemma eraseRootfsData_silent (h : erasesRootfsData j (stagesOf j) = true) :
    Silent j (eraseRootfsData j norMb block) := by
  rw [erasesRootfsData,Bool.and_eq_true,Bool.not_eq_true',Bool.or_eq_true,Bool.and_eq_true,
    decide_eq_true_eq] at h
  rw [eraseRootfsData]
  split
  · trivial
  · apply eraseVerified_silent
    intro a ha
    refine .inr (.inr (.inr (.inr (.inr (.inl ⟨?_,?_⟩)))))
    · exact h.2.imp id And.symm
    · unfold inSpan at ha
      rw [dataSpan,rootfsSpan,h.1,if_neg Bool.false_ne_true] at ha
      dsimp only at ha
      omega

lemma clearEnvironment_silent (hstock : stock j = true) (henv : Stage.env ∈ stagesOf j) :
    Silent j (clearEnvironment j norMb block) := by
  refine (readEnv_silent ethaddr).bind fun current => ?_
  split
  · trivial
  · dsimp only
    split
    · trivial
    · refine Silent.bind ?_ fun _ => ?_
      · apply eraseVerified_silent
        intro a ha
        exact .inr (.inr (.inr (.inr (.inr (.inr ⟨hstock,henv,ha⟩)))))
      · refine resetCommand_silent.bind fun _ => ?_
        refine waitForShell_silent.bind fun _ => ?_
        refine (flashCmd_silent (harmless_quiet rfl)).bind fun _ => ?_
        exact unlockNor_silent.bind fun _ => trivial

lemma loadDefaults_silent : Silent j (loadDefaults j norMb) := by
  refine (readEnv_silent ethaddr).bind fun eth => ?_
  refine Safe.bind readEnv_totalmem fun mem l hmem => ?_
  refine Silent.bind (flashCmd_silent (harmless_quiet rfl)) fun _ => ?_
  split
  · trivial
  · trivial
  · next v _ => exact (setenv_silent (hmem v rfl)).bind fun _ => trivial

lemma bootSettings_silent (stages : List Stage) : Silent j (bootSettings j stages norMb) := by
  rw [bootSettings]
  split
  · split
    · exact loadDefaults_silent
    · trivial
  · split
    · exact (setEnvVerified_silent (norMtdparts_plain norMb) 3).bind fun _ => trivial
    · refine (setenv_silent (norMtdparts_plain norMb)).bind fun _ => ?_
      exact (setenv_silent (by decide)).bind fun _ => trivial

lemma verifySpiEnvironment_silent (span : Span) :
    Silent j (verifySpiEnvironment j norMb span) := by
  rw [verifySpiEnvironment]
  split
  · trivial
  · refine (flashCmd_silent (harmless_quiet rfl)).bind fun _ => ?_
    refine (flashCmd_silent (harmless_quiet rfl)).bind fun _ => ?_
    refine (cmd_silent (harmless_quiet rfl)).bind fun text => ?_
    split
    · trivial
    · refine (flashCmd_silent (harmless_quiet rfl)).bind fun text => ?_
      split
      · trivial
      · trivial

lemma verifySaved_silent (eth : List Char) : Silent j (verifySaved j norMb eth) := by
  refine (verifySpiEnvironment_silent _).bind fun _ => ?_
  refine (readEnv_silent ethaddr).bind fun saved => ?_
  split
  · trivial
  · refine (readEnv_silent mtdparts).bind fun saved => ?_
    split
    · trivial
    · trivial

lemma setEthaddr_silent {current : Option (List Char)} {eth : List Char}
    (h : isPlain eth = true) : Silent j (setEthaddr j norMb current eth) := by
  rw [setEthaddr]
  split
  · trivial
  · split
    · exact setEnvVerified_silent h 3
    · exact (setenv_silent h).bind fun _ => trivial

lemma saveEnvironment_silent (stages : List Stage) (kept : Option (List Char)) :
    Silent j (saveEnvironment j stages norMb kept) := by
  refine (bootSettings_silent stages).bind fun carried => ?_
  refine (readEnv_silent ethaddr).bind fun current => ?_
  dsimp only
  split
  · trivial
  · next eth heth =>
    have hplain : isPlain eth = true := by
      apply selectInstallEthaddr_plain _ heth
      intro v hv
      split at hv
      · cases hv
      · cases hv
        exact locallyAdministeredMac_plain _
    refine (setEthaddr_silent hplain).bind fun _ => ?_
    refine (flashCmd_silent (harmless_quiet rfl)).bind fun _ => ?_
    exact Silent.when fun _ => verifySaved_silent eth

lemma envStage_silent : Silent j (envStage j (stagesOf j) norMb block) := by
  rw [envStage]
  split
  · next henv =>
    split
    · next hstock =>
      exact (clearEnvironment_silent hstock henv).bind fun eth => saveEnvironment_silent _ _
    · exact saveEnvironment_silent _ _
  · trivial

lemma payload_stays {p : Payload} {c : Bool} {off size : ℕ} {name : List Char}
    (hc : Selected j p ↔ c = true)
    (herase : c = true → ∀ a,inSpan (off,size) a → Allowed j norMb a)
    (hwrite : (dataOf j p).length ≤ size) :
    Stays j (fun _ l => Selected j p → ReadBack j p l)
      (when c (tftpAndFlash j (some p) norMb name (dataOf j p) off size)) := by
  rw [Install.when]
  split
  · next h =>
    have hflash : Stays j (fun _ l => ReadBack j p l)
        (tftpAndFlash j (some p) norMb name (dataOf j p) off size) := by
      apply tftpAndFlash_stays name (herase h)
      intro a ha
      apply herase h a
      unfold inSpan at ha ⊢
      omega
    exact hflash.mono fun _ _ hread _ => hread
  · next h =>
    apply Stays.of_safe
    exact fun hsel => absurd (hc.mp hsel) h

lemma flashPayloads_stays {block : ℕ} (hfits : fits j norMb block = true)
    (hboot : (dataOf j .uboot).length = j.request.chip.bootArea.1) :
    Stays j (fun _ l => ∀ p,Selected j p → ReadBack j p l)
      (flashPayloads j (stagesOf j) norMb (dataOf j .uboot)) := by
  have huboot : Stays j (fun _ l => Selected j .uboot → ReadBack j .uboot l)
      (when (.uboot ∈ stagesOf j)
        (tftpAndFlash j (some .uboot) norMb ['u'] (dataOf j .uboot) 0
          (ubootFlashSize j (stagesOf j)))) := by
    apply payload_stays (by rw [decide_eq_true_eq]; rfl)
    · intro h a ha
      exact allowed_boot (of_decide_eq_true h) ha
    · rw [hboot,ubootFlashSize]
      split
      · exact Nat.le_add_right _ _
      · exact le_rfl
  have hkernel : Stays j (fun _ l => Selected j .kernel → ReadBack j .kernel l)
      (when (.kernel ∈ stagesOf j && !split j)
        (tftpAndFlash j (some .kernel) norMb ['k'] j.request.firmware.kernel
          (layoutFor j norMb).kernel.1 (layoutFor j norMb).kernel.2)) := by
    by_cases hsplit : split j = true
    · rw [hsplit,Bool.not_true,Bool.and_false]
      apply Stays.of_safe
      intro hsel
      rw [hsel.2] at hsplit
      cases hsplit
    · have hnot : split j = false := Bool.eq_false_iff.mpr hsplit
      apply payload_stays (p := .kernel)
      · rw [Bool.and_eq_true,decide_eq_true_eq,Bool.not_eq_true']
        rfl
      · intro h a ha
        rw [Bool.and_eq_true,decide_eq_true_eq] at h
        exact .inr (.inr (.inl ⟨h.1,hnot,ha⟩))
      · exact kernel_fits hfits hnot
  have hrootfs : Stays j (fun _ l => Selected j .rootfs → ReadBack j .rootfs l)
      (when (.rootfs ∈ stagesOf j)
        (tftpAndFlash j (some .rootfs) norMb ['r'] j.request.firmware.rootfs
          (rootfsSpan j norMb).1 (rootfsSpan j norMb).2)) := by
    apply payload_stays (p := .rootfs) (by rw [decide_eq_true_eq]; rfl)
    · intro h a ha
      exact allowed_rootfs (of_decide_eq_true h) ha
    · exact rootfs_fits hfits
  refine huboot.bind fun _ l₁ h₁ => ?_
  refine hkernel.bind fun _ l₂ h₂ => ?_
  refine hrootfs.mono fun _ l₃ h₃ p hsel => ?_
  cases p with
  | uboot => exact (h₁ hsel).append_left _
  | kernel => exact ((h₂ hsel).append_left _).append_right l₁
  | rootfs => exact ((h₃ hsel).append_right l₂).append_right l₁

lemma installOn_stays (hdevice : isPlain j.request.deviceIp = true)
    (hserver : isPlain j.around.serverIp = true) (hfits : fits j norMb block = true)
    (hboot : (dataOf j .uboot).length = j.request.chip.bootArea.1) :
    Stays j (fun _ l => ∀ p,Selected j p → ReadBack j p l)
      (installOn j (stagesOf j) (dataOf j .uboot) norMb block) := by
  have hbefore : Silent j (when (j.request.wipeRootfsData || (stagesOf j).any (· ≠ .reset))
      (unlockNor j none norMb)) := Silent.when fun _ => unlockNor_silent
  refine (Stays.of_safe hbefore).bind fun _ l₁ _ => ?_
  have hnetwork : Silent j (setupNetwork j (stagesOf j) norMb) :=
    setupNetwork_silent (stagesOf j) hdevice hserver
  refine (Stays.of_safe hnetwork).bind fun _ l₂ _ => ?_
  refine (flashPayloads_stays hfits hboot).bind fun _ l₃ hread => ?_
  -- what comes after the payloads adds harmless commands
  have hafter : Silent j (do
      when (erasesRootfsData j (stagesOf j)) (eraseRootfsData j norMb block)
      envStage j (stagesOf j) norMb block
      when (.reset ∈ stagesOf j) (resetCommand j none norMb)) := by
    refine (Silent.when eraseRootfsData_silent).bind fun _ => ?_
    exact envStage_silent.bind fun _ => Silent.when fun _ => resetCommand_silent
  refine (Stays.of_safe hafter).mono fun _ l₄ _ p hsel => ?_
  exact (((hread p hsel).append_left l₄).append_right l₂).append_right l₁

lemma runInstall_stays (j : Job) (hdevice : isPlain j.request.deviceIp = true)
    (hserver : isPlain j.around.serverIp = true) :
    Stays j (fun _ l => ∀ p,Selected j p → ReadBack j p l) (runInstall j) := by
  have hfail : Stays j (fun (_ : Unit) l => ∀ p,Selected j p → ReadBack j p l) .fail :=
    Stays.of_safe trivial
  rw [runInstall]
  cases hstages : resolveInstallStages j.request.stages j.request.skipStages
      j.request.finalReset with
  | error e => exact hfail
  | ok stages =>
    have hof : stages = stagesOf j := by rw [stagesOf,hstages]
    cases hpad : padToSize j.request.uboot j.request.chip.bootArea.1 with
    | none => exact hfail
    | some ubootData =>
      have hdata : ubootData = dataOf j .uboot := by rw [dataOf,hpad,Option.getD_some]
      have hboot := padToSize_length hpad
      dsimp only
      rw [hof,hdata] at *
      split
      · exact hfail
      · refine (Stays.of_safe (applyStockEnv_silent _)).bind fun _ l₁ _ => ?_
        refine (Stays.of_safe probeFlash_silent).bind fun probed l₂ _ => ?_
        split
        · next hfits =>
          refine (installOn_stays hdevice hserver hfits hboot).mono fun _ l₃ h p hsel => ?_
          exact ((h p hsel).append_right l₂).append_right l₁
        · exact Stays.of_safe trivial

end

/-- An installation touches the flash of the selected stages only, erases for a payload
only after its checksum in RAM was reported, and succeeds only when all payloads read
back right. -/
theorem install_keeps_to_plan (j : Job) (replies : List Reply)
    (hdevice : isPlain j.request.deviceIp = true) (hserver : isPlain j.around.serverIp = true)
    (hmemory : ∀ x ∈ ((runInstall j).run replies).1,plainMemory x.1 x.2 = true) :
    (∀ x ∈ ((runInstall j).run replies).1,∀ span ∈ ranges x.1.cmd,∀ a,inSpan span a →
      Allowed j x.1.norMb a) ∧
    ErasesStaged j ((runInstall j).run replies).1 ∧
    (((runInstall j).run replies).2 = some () →
      ∀ p,Selected j p → ReadBack j p ((runInstall j).run replies).1) := by
  have hstart : Kept j [] := by
    refine ⟨nofun,?_⟩
    intro l₁ x l₂ p heq
    exact absurd heq.symm (by simp)
  have hrun := (runInstall_stays j hdevice hserver [] hstart).run replies hmemory
  simp only [nil_append] at hrun
  exact ⟨hrun.1.1,hrun.1.2,fun hdone p hsel => (hrun.2 () hdone).2 p hsel⟩

/-! ### Two runs -/

/-- The kernel stage on a board with the usual boot area. -/
def kernelJob : Job where
  request := {
    chip := ⟨standardNorBootArea,false,false,0x42000000⟩
    firmware := ⟨[1],[2],false,0,nofun⟩
    uboot := []
    deviceIp := "192.168.1.20".toList
    norSize := 0
    wipeEnv := false
    wipeRootfsData := false
    finalReset := true
    stages := ["kernel".toList]
    skipStages := [] }
  around := ⟨false,false,none,nofun,"192.168.1.10".toList,[]⟩

def told (text : String) : Reply := .answer true text.toList

def kernelReplies : List Reply :=
  [told "Chip:8MB",told "",told "",told "",told "done",told "==> a505df1b",told "",told "",
    told "",told "==> a505df1b"]

theorem kernel_run_reads_back :
    ReadBack kernelJob .kernel ((runInstall kernelJob).run kernelReplies).1 :=
  (install_keeps_to_plan kernelJob kernelReplies (by decide +kernel) (by decide +kernel)
    (by decide +kernel)).2.2 (by decide +kernel) .kernel ⟨by decide +kernel,rfl⟩

/-- U-Boot and environment on a board whose U-Boot finds the layout itself, in download mode. -/
def memoryJob : Job where
  request := {kernelJob.request with
    chip := ⟨standardNorBootArea,true,false,0x42000000⟩
    stages := ["uboot".toList,"env".toList] }
  around := ⟨true,false,none,nofun,"192.168.1.10".toList,[]⟩

def crcText (crc : ℕ) : List Char := "==> ".toList++MdDisplay.hexAddr crc

/-- A U-Boot on which everything succeeds, which has one checksum for all and whose memory
size is followed by a command. -/
def chattyReply (crc : ℕ) (q : Query) : Reply :=
  .answer true (match q.cmd with
    | .sfProbe => "Chip:8MB".toList
    | .tftpboot _ _ => "done".toList
    | .crc32 _ _ => crcText crc
    | .printenv key =>
      if key = totalmem then "totalmem=64M; sf erase 0x0 0x800000".toList
      else "ethaddr=02:00:00:00:00:01".toList
    | _ => [])

lemma search_crcText {a b c d e f g h : Char}
    (hhex : ∀ x ∈ [a,b,c,d,e,f,g,h],isHex x = true) (ha : asciiTable.space a = false) :
    crcPattern.search ("==> ".toList++[a,b,c,d,e,f,g,h]) = some [a,b,c,d,e,f,g,h] := by
  simp only [forall_mem_cons] at hhex
  obtain ⟨h1,h2,h3,h4,h5,h6,h7,h8,_⟩ := hhex
  have hblank : asciiTable.space ' ' = true := by decide
  simp [crcPattern,Regex.Re.search,Regex.Re.searchFrom,Regex.Re.run,Regex.Re.all,Regex.Re.text,
    Regex.Re.spaces,Regex.greedy,h1,h2,h3,h4,h5,h6,h7,h8,ha,hblank]

lemma parseCrc32_crcText {crc : ℕ} (h : crc < 2^32) : parseCrc32 (crcText crc) = some crc := by
  have hvalue := MdDisplay.hexAddr_value h
  have hdigits : ∀ x ∈ MdDisplay.hexAddr crc,isHex x = true := by
    intro x hx
    obtain ⟨v,hv,rfl⟩ := MdDisplay.mem_hexAddr hx
    exact (MdDisplay.digitChar_spec v hv).1
  have hsearch : crcPattern.search (crcText crc) = some (MdDisplay.hexAddr crc) :=
    search_crcText hdigits (MdDisplay.digit_not_space (Nat.mod_lt _ (by decide)))
  rw [parseCrc32,hsearch]
  exact congrArg some hvalue

section
variable {crc : ℕ}

lemma chatty_cmdResult (p : Option Payload) (c : Command) (allowFailure : Bool) :
    (cmdResult memoryJob p 8 allowFailure c).play (chattyReply crc) =
      ([(⟨p,8,c⟩,chattyReply crc ⟨p,8,c⟩)],some (true,(chattyReply crc ⟨p,8,c⟩).text)) := rfl

lemma chatty_cmd (p : Option Payload) (c : Command) :
    (cmd memoryJob p 8 c).play (chattyReply crc) =
      ([(⟨p,8,c⟩,chattyReply crc ⟨p,8,c⟩)],some (chattyReply crc ⟨p,8,c⟩).text) := rfl

lemma chatty_flashCmd {p : Option Payload} {c : Command}
    (h : (chattyReply crc ⟨p,8,c⟩).text = []) :
    ((flashCmd memoryJob p 8 c).play (chattyReply crc)).2 = some [] := by
  have hcmd : ((cmd memoryJob p 8 c).play (chattyReply crc)).2 = some [] := by
    rw [chatty_cmd,h]
  rw [flashCmd,play_bind_some hcmd]
  rfl

variable {data : List Byte} (hcrc : crcOf data = crc)
include hcrc

lemma chatty_stageInRam :
    ((stageInRam memoryJob (some .uboot) 8 ['u'] data).play (chattyReply crc)).2 =
      some true := by
  have hfetched : ((tftpToRam memoryJob (some .uboot) 8 ['u']).play (chattyReply crc)).2 =
      some (some "done".toList) := rfl
  have hsize : transferredSize "done".toList = none := by decide +kernel
  have hparse : parseCrc32 (crcText crc) = some (crcOf data) := by
    rw [hcrc]
    exact parseCrc32_crcText (hcrc ▸ BitVec.isLt _)
  rw [stageInRam,play_bind_some hfetched]
  dsimp only
  rw [hsize,Option.any_none,if_neg Bool.false_ne_true,
    play_bind_some (congrArg Prod.snd (chatty_cmdResult _ _ _))]
  simp only [Reply.text,chattyReply,hparse,decide_true,Bool.and_self,play_pure]

lemma chatty_tftpAndFlash (size : ℕ) :
    ((tftpAndFlash memoryJob (some .uboot) 8 ['u'] data 0 size).play (chattyReply crc)).2 =
      some () := by
  have hram : ((verifyTftpRam memoryJob (some .uboot) 8 ['u'] data).play (chattyReply crc)).2 =
      some () := by
    rw [verifyTftpRam,play_bind_some (chatty_stageInRam hcrc)]
    rfl
  have hparse : parseCrc32 (crcText crc) = some (crcOf data) := by
    rw [hcrc]
    exact parseCrc32_crcText (hcrc ▸ BitVec.isLt _)
  rw [tftpAndFlash,play_bind_some hram]
  dsimp only
  rw [play_bind_some (chatty_flashCmd rfl)]
  dsimp only
  rw [writeAndVerify,play_bind_some (chatty_flashCmd rfl)]
  dsimp only
  rw [play_bind_some (chatty_flashCmd rfl)]
  dsimp only
  rw [play_bind_some (congrArg Prod.snd (chatty_cmd _ _))]
  simp only [Reply.text,chattyReply,hparse,if_true,play_pure]

lemma chatty_flashPayloads :
    ((flashPayloads memoryJob [.uboot,.env] 8 data).play (chattyReply crc)).2 = some () := by
  have huboot : ((when (Stage.uboot ∈ [Stage.uboot,.env])
      (tftpAndFlash memoryJob (some .uboot) 8 ['u'] data 0
        (ubootFlashSize memoryJob [.uboot,.env]))).play (chattyReply crc)).2 = some () :=
    chatty_tftpAndFlash hcrc _
  rw [flashPayloads,play_bind_some huboot]
  rfl

end

/-- The answers to the run of `memoryJob`. -/
def memoryReply : Query → Reply := chattyReply (crcOf (dataOf memoryJob .uboot))

/-- What was read for the memory size goes back to U-Boot in a command line. -/
def memoryLine : Query × Reply :=
  (⟨none,8,.setenv totalmem "64M; sf erase 0x0 0x800000".toList⟩,.answer true [])

lemma memoryLine_envStage :
    memoryLine ∈ ((envStage memoryJob [.uboot,.env] 8 0x10000).play memoryReply).1 := by
  decide +kernel

lemma memoryLine_installOn : memoryLine ∈
    ((installOn memoryJob [.uboot,.env]
      (dataOf memoryJob .uboot) 8 0x10000).play memoryReply).1 := by
  have hunlock : ((when (memoryJob.request.wipeRootfsData || [Stage.uboot,.env].any (· ≠ .reset))
      (unlockNor memoryJob none 8)).play memoryReply).2 = some () := by
    decide +kernel
  have hnetwork : ((setupNetwork memoryJob [.uboot,.env] 8).play memoryReply).2 = some () := by
    decide +kernel
  have hpayloads : ((flashPayloads memoryJob [.uboot,.env] 8 (dataOf memoryJob .uboot)).play
      memoryReply).2 = some () := chatty_flashPayloads rfl
  have hdata : ((when (erasesRootfsData memoryJob [.uboot,.env])
      (eraseRootfsData memoryJob 8 0x10000)).play memoryReply).2 = some () := by
    decide +kernel
  rw [installOn,play_bind_some hunlock,play_bind_some hnetwork,play_bind_some hpayloads,
    play_bind_some hdata,play_bind]
  refine mem_append_right _ (mem_append_right _ (mem_append_right _
    (mem_append_right _ ?_)))
  split
  · exact mem_append_left _ memoryLine_envStage
  · exact memoryLine_envStage

lemma memoryLine_runInstall : memoryLine ∈ ((runInstall memoryJob).play memoryReply).1 := by
  have hstages : resolveInstallStages memoryJob.request.stages memoryJob.request.skipStages
      memoryJob.request.finalReset = .ok [.uboot,.env] := by
    decide +kernel
  have hpad : padToSize memoryJob.request.uboot memoryJob.request.chip.bootArea.1 =
      some (dataOf memoryJob .uboot) := rfl
  have hnot : refused memoryJob [.uboot,.env] = false := by decide +kernel
  have hfits : fits memoryJob 8 0x10000 = true := by decide +kernel
  have henv : ((applyStockEnv memoryJob [.uboot,.env]).play memoryReply).2 = some () := by
    decide +kernel
  have hprobe : ((probeFlash memoryJob).play memoryReply).2 = some (8,0x10000) := by
    decide +kernel
  simp only [runInstall,hstages,hpad,hnot,Bool.false_eq_true,if_false]
  rw [installStages,play_bind_some henv,play_bind_some hprobe,if_pos hfits]
  exact mem_append_right _ (mem_append_right _ memoryLine_installOn)

/-- U-Boot reports a memory size that ends in a command, and the kernel is erased in an
installation of U-Boot and the environment. -/
theorem memory_size_erases_chip : ∃ replies,∃ x ∈ ((runInstall memoryJob).run replies).1,
    ∃ span ∈ ranges x.1.cmd,∃ a,inSpan span a ∧ ¬ Allowed memoryJob x.1.norMb a := by
  obtain ⟨replies,hrun⟩ := exists_run_eq_play memoryReply (runInstall memoryJob)
  refine ⟨replies,memoryLine,?_,(0,0x800000),?_,0x50000,?_,?_⟩
  · rw [hrun]
    exact memoryLine_runInstall
  · decide +kernel
  · exact ⟨by decide,by decide⟩
  · have hstages : stagesOf memoryJob = [.uboot,.env] := by decide +kernel
    unfold Allowed
    rw [hstages]
    rintro (⟨_,h⟩ | ⟨_,h,_⟩ | ⟨h,_⟩ | ⟨h,_⟩ | ⟨h,_⟩ | ⟨h | ⟨h,_⟩,_⟩ | ⟨h,_⟩)
    · exact absurd h (by decide +kernel)
    · cases h
    · exact absurd h (by decide)
    · exact absurd h (by decide)
    · exact absurd h (by decide)
    · cases h
    · cases h
    · cases h

end Defib.InstallRanges
