import Defib.BootFrames
import Defib.PartialMap
import Defib.PyText

/-!
# Commands in download mode

U-Boot's download mode takes a command in two acknowledged frames and answers with the output
of the command and one of two markers. The client looks for the markers in all it has read so
far, for the one of success first. Both start with the only `[` they have, so that they cannot
overlap: the first marker of the output is known as soon as any marker is complete.
-/
namespace Defib.DownloadCommand
open List Option Words BootFrames PyText PartialMap

def xhead : Byte := 0xAB
def xcmd : Byte := 0xCD
def ackCode : Byte := 0xAA

inductive Verdict where
  | ok
  | error
  deriving DecidableEq, Repr

def marker : Verdict → List Char
  | .ok => ['[','E','O','T',']','(','O','K',')']
  | .error => ['[','E','O','T',']','(','E','R','R','O','R',')']

/-- `cmd.encode("ascii")`; `none` is the `UnicodeEncodeError`. -/
def encodeAscii (cmd : List Char) : Option (List Byte) :=
  cmd.mapM fun c => if c.toNat < 128 then some (BitVec.ofNat 8 c.toNat) else none

/-- `buf.decode("ascii", errors="replace")` -/
def decodeAscii (buf : List Byte) : List Char :=
  buf.map fun b => Char.ofNat (if b.toNat < 128 then b.toNat else 0xFFFD)

def headFrame (cmdBytes : List Byte) : List Byte :=
  let length := 1+cmdBytes.length+2-3
  appendCrc [xhead,BitVec.ofNat 8 (length >>> 8),BitVec.ofNat 8 length]

def cmdFrame (cmdBytes : List Byte) : List Byte := appendCrc (xcmd::cmdBytes)

structure Outcome where
  written : List (List Byte)
  success : Bool
  output : List Char
  deriving DecidableEq, Repr

/-- The attempts to have the head acknowledged, on the answers to the reads of one byte; `none`
is a timeout. -/
def sendHead (head : List Byte) : (attempts : ℕ) → (answers : List (Option Byte)) →
    Bool × List (List Byte) × List (Option Byte)
  | 0,answers => (false,[],answers)
  | n+1,[] =>
    let r := sendHead head n []
    (r.1,head::r.2.1,r.2.2)
  | n+1,a::answers =>
    if a = some ackCode then (true,[head],answers)
    else
      let r := sendHead head n answers
      (r.1,head::r.2.1,r.2.2)

/-- `text[:text.index(needle)]` -/
def before (needle : List Char) : List Char → List Char
  | [] => []
  | c::cs => if needle.isPrefixOf (c::cs) then [] else c::before needle cs

def awaitResult (buf : List Byte) : List (Option (List Byte)) → Bool × List Char
  | [] => (false,decodeAscii buf)
  | none::reads => awaitResult buf reads
  | some data::reads =>
    let buf := buf++data
    let text := decodeAscii buf
    if contains (marker .ok) text then (true,before (marker .ok) text)
    else if contains (marker .error) text then (false,before (marker .error) text)
    else awaitResult buf reads

/-- `send_command`, on the answers to the two frames and the reads after them. -/
def sendCommand (cmd : List Char) (answers : List (Option Byte))
    (reads : List (Option (List Byte))) : Option Outcome := do
  let cmdBytes ← encodeAscii cmd
  match sendHead (headFrame cmdBytes) 3 answers with
  | (false,written,_) => return ⟨written,false,[]⟩
  | (true,written,answers) =>
    let written := written++[cmdFrame cmdBytes]
    if answers.head? = some (some ackCode) then
      let r := awaitResult [] reads
      return ⟨written,r.1,r.2⟩
    else return ⟨written,false,[]⟩

/-! ### The first marker -/

def markerAt (s : List Char) : Option Verdict :=
  if (marker .ok).isPrefixOf s then some .ok
  else if (marker .error).isPrefixOf s then some .error
  else none

def firstMarker : List Char → Option Verdict
  | [] => none
  | c::cs => (markerAt (c::cs)).orElse fun _ => firstMarker cs

variable {v : Verdict} {s : List Char}

lemma markerAt_eq_some_iff :
    markerAt s = some v ↔ marker v <+: s := by
  have hapart : ¬(marker .ok <+: s ∧ marker .error <+: s) := by
    intro ⟨hok,herror⟩
    have hboth := prefix_of_prefix_length_le hok herror (by decide)
    exact absurd hboth (by decide)
  rw [markerAt]
  simp only [List.isPrefixOf_iff_prefix]
  cases v with
  | ok => split_ifs <;> simp_all
  | error => split_ifs <;> simp_all

lemma marker_of_firstMarker (h : firstMarker s = some v) :
    marker v <:+: s := by
  induction s with
  | nil => cases h
  | cons c cs ih =>
    rw [firstMarker] at h
    cases hat : markerAt (c::cs) with
    | some w =>
      rw [hat] at h
      obtain rfl := Option.some.inj h
      exact (markerAt_eq_some_iff.mp hat).isInfix
    | none =>
      rw [hat] at h
      exact (ih h).trans (suffix_cons c cs).isInfix

lemma firstMarker_eq_none_iff :
    firstMarker s = none ↔ ∀ v,¬marker v <:+: s := by
  constructor
  · intro hnone v hv
    induction s with
    | nil => cases v <;> exact absurd (infix_nil.mp hv) (by decide)
    | cons c cs ih =>
      rw [firstMarker] at hnone
      cases hat : markerAt (c::cs) with
      | some w => rw [hat] at hnone; cases hnone
      | none =>
        rw [hat] at hnone
        rcases infix_cons_iff.mp hv with hprefix | htail
        · rw [markerAt_eq_some_iff.mpr hprefix] at hat
          cases hat
        · exact ih hnone htail
  · intro hnot
    cases hfirst : firstMarker s with
    | none => rfl
    | some v => exact absurd (marker_of_firstMarker hfirst) (hnot v)

lemma marker_head (v : Verdict) : '[' ∈ marker v := by
  cases v <;> decide

lemma marker_tail (v : Verdict) : '[' ∉ (marker v).tail := by
  cases v <;> decide

lemma firstMarker_append (h : firstMarker s = some v)
    (t : List Char) : firstMarker (s++t) = some v := by
  induction s with
  | nil => cases h
  | cons c cs ih =>
    rw [firstMarker] at h
    rw [cons_append,firstMarker]
    cases hat : markerAt (c::cs) with
    | some w =>
      rw [hat] at h
      have hlong := (markerAt_eq_some_iff.mp hat).trans (prefix_append (c::cs) t)
      rw [cons_append] at hlong
      rw [markerAt_eq_some_iff.mpr hlong]
      exact h
    | none =>
      rw [hat] at h
      have hbracket : '[' ∈ cs := (marker_of_firstMarker h).subset (marker_head v)
      have hstill : markerAt (c::(cs++t)) = none := by
        by_contra hsome
        obtain ⟨w,hw⟩ := ne_none_iff_exists'.mp hsome
        -- a marker completed by `t` would have the text so far as a beginning, `[` included
        rcases prefix_or_prefix_of_prefix (markerAt_eq_some_iff.mp hw)
            (prefix_append (c::cs) t) with hshort | hlong
        · rw [markerAt_eq_some_iff.mpr hshort] at hat
          cases hat
        · obtain ⟨r,hr⟩ := hlong
          apply marker_tail w
          rw [← hr]
          exact mem_append_left r hbracket
      rw [hstill]
      exact ih h

/-! ### Verdicts -/

/-- The output of the device, as far as it is read. -/
def outputBytes (reads : List (Option (List Byte))) : List Byte := (reads.map (·.getD [])).flatten

/-- The read that completes the first marker, which is that of an error, completes a marker of
success as well. -/
def OkBehindError (buf : List Byte) (reads : List (Option (List Byte))) : Prop :=
  ∃ earlier data later,reads = earlier++some data::later ∧
    firstMarker (decodeAscii (buf++outputBytes earlier)) = none ∧
    firstMarker (decodeAscii (buf++outputBytes earlier++data)) = some .error ∧
    marker .ok <:+: decodeAscii (buf++outputBytes earlier++data)

lemma decodeAscii_append (a b : List Byte) :
    decodeAscii (a++b) = decodeAscii a++decodeAscii b := map_append

variable {buf : List Byte}

lemma firstMarker_more (h : firstMarker (decodeAscii buf) = some v)
    (more : List Byte) : firstMarker (decodeAscii (buf++more)) = some v := by
  rw [decodeAscii_append]
  exact firstMarker_append h _

@[simp] lemma outputBytes_nil : outputBytes [] = [] := rfl

@[simp] lemma outputBytes_cons (r : Option (List Byte)) (reads : List (Option (List Byte))) :
    outputBytes (r::reads) = r.getD []++outputBytes reads := rfl

lemma not_okBehindError_nil (buf : List Byte) : ¬OkBehindError buf [] := by
  rintro ⟨earlier,data,later,hreads,_⟩
  cases earlier <;> cases hreads

lemma okBehindError_cons {r : Option (List Byte)} {reads : List (Option (List Byte))} :
    OkBehindError buf (r::reads) ↔
      (∃ data,r = some data ∧ firstMarker (decodeAscii buf) = none ∧
        firstMarker (decodeAscii (buf++data)) = some .error ∧
        marker .ok <:+: decodeAscii (buf++data)) ∨ OkBehindError (buf++r.getD []) reads := by
  constructor
  · rintro ⟨earlier,data,later,hreads,hfirst⟩
    cases earlier with
    | nil =>
      obtain ⟨rfl,rfl⟩ := List.cons.inj hreads
      rw [outputBytes_nil,append_nil] at hfirst
      exact .inl ⟨data,rfl,hfirst⟩
    | cons r' earlier =>
      obtain ⟨rfl,rfl⟩ := List.cons.inj hreads
      rw [outputBytes_cons,← append_assoc] at hfirst
      exact .inr ⟨earlier,data,later,rfl,hfirst⟩
  · rintro (⟨data,rfl,hfirst⟩ | ⟨earlier,data,later,rfl,hfirst⟩)
    · refine ⟨[],data,reads,rfl,?_⟩
      rwa [outputBytes_nil,append_nil]
    · refine ⟨r::earlier,data,later,rfl,?_⟩
      rwa [outputBytes_cons,← append_assoc]

lemma okBehindError_none {reads : List (Option (List Byte))} :
    OkBehindError buf (none::reads) ↔ OkBehindError buf reads := by
  rw [okBehindError_cons,getD_none,append_nil]
  refine or_iff_right ?_
  rintro ⟨data,hdata,_⟩
  cases hdata

lemma okBehindError_unmarked {buf data : List Byte} {reads : List (Option (List Byte))}
    (hdata : firstMarker (decodeAscii (buf++data)) = none) :
    OkBehindError buf (some data::reads) ↔ OkBehindError (buf++data) reads := by
  rw [okBehindError_cons,getD_some]
  refine or_iff_right ?_
  rintro ⟨_,⟨⟩,_,herror,_⟩
  rw [hdata] at herror
  cases herror

lemma okBehindError_marked {buf data : List Byte} {reads : List (Option (List Byte))}
    (hbuf : firstMarker (decodeAscii buf) = none)
    (hdata : firstMarker (decodeAscii (buf++data)) = some v) :
    OkBehindError buf (some data::reads) ↔
      v = .error ∧ marker .ok <:+: decodeAscii (buf++data) := by
  rw [okBehindError_cons,getD_some]
  constructor
  · rintro (⟨_,⟨⟩,_,herror,hok⟩ | ⟨earlier,_,_,_,hnone,_⟩)
    · exact ⟨Option.some.inj (hdata.symm.trans herror),hok⟩
    · rw [firstMarker_more hdata] at hnone
      cases hnone
  · rintro ⟨rfl,hok⟩
    exact .inl ⟨data,rfl,hbuf,hdata,hok⟩

lemma awaitResult_iff (reads : List (Option (List Byte)))
    (hbuf : firstMarker (decodeAscii buf) = none) :
    (((awaitResult buf reads).1 = true ↔
      firstMarker (decodeAscii (buf++outputBytes reads)) = some .ok) ↔
        ¬OkBehindError buf reads) := by
  induction reads generalizing buf with
  | nil =>
    rw [outputBytes_nil,append_nil,hbuf]
    simp [awaitResult,not_okBehindError_nil]
  | cons r reads ih =>
    cases r with
    | none =>
      rw [okBehindError_none]
      exact ih hbuf
    | some data =>
      rw [outputBytes_cons,getD_some,← append_assoc,awaitResult]
      cases hdata : firstMarker (decodeAscii (buf++data)) with
      | none =>
        have hnot := firstMarker_eq_none_iff.mp hdata
        rw [okBehindError_unmarked hdata,if_neg (by rw [contains_iff]; exact hnot .ok),
          if_neg (by rw [contains_iff]; exact hnot .error)]
        exact ih hdata
      | some v =>
        rw [okBehindError_marked hbuf hdata,firstMarker_more hdata]
        have hmarker := marker_of_firstMarker hdata
        by_cases hok : marker .ok <:+: decodeAscii (buf++data)
        · rw [if_pos (contains_iff.mpr hok)]
          cases v <;> simp [hok]
        · rw [if_neg (by rwa [contains_iff])]
          cases v with
          | ok => exact absurd hmarker hok
          | error => rw [if_pos (contains_iff.mpr hmarker)]; simp [hok]

/-- Answers with which both frames are acknowledged. -/
def Acknowledged (answers : List (Option Byte)) : Prop :=
  ∃ refused rest,refused.length ≤ 2 ∧ some ackCode ∉ refused ∧
    answers = refused++some ackCode::some ackCode::rest

lemma sendHead_acknowledged (head : List Byte) {refused : List (Option Byte)} {n : ℕ}
    (hlen : refused.length ≤ n) (hnot : some ackCode ∉ refused) (rest : List (Option Byte)) :
    sendHead head (n+1) (refused++some ackCode::rest) =
      (true,List.replicate (refused.length+1) head,rest) := by
  induction refused generalizing n with
  | nil => rw [nil_append,sendHead,if_pos rfl]; rfl
  | cons a refused ih =>
    obtain ⟨n,rfl⟩ : ∃ m,n = m+1 := ⟨n-1,by rw [length_cons] at hlen; omega⟩
    rw [mem_cons,not_or] at hnot
    rw [length_cons] at hlen
    rw [cons_append,sendHead,if_neg (Ne.symm hnot.1),ih (by omega) hnot.2]
    rfl

lemma sendCommand_acknowledged {cmd : List Char} {answers : List (Option Byte)}
    (hcmd : ∀ c ∈ cmd,c.toNat < 128) (hack : Acknowledged answers)
    (reads : List (Option (List Byte))) :
    ∃ written,sendCommand cmd answers reads =
      some ⟨written,(awaitResult [] reads).1,(awaitResult [] reads).2⟩ := by
  obtain ⟨refused,rest,hlen,hnot,rfl⟩ := hack
  have hencode : (encodeAscii cmd).isSome = true := by
    refine mapM_isSome_iff.mpr fun c hc => ?_
    rw [if_pos (hcmd c hc)]
    rfl
  obtain ⟨cmdBytes,hbytes⟩ := isSome_iff_exists.mp hencode
  rw [sendCommand,hbytes]
  simp only [bind_eq_bind,bind_some,sendHead_acknowledged _ hlen hnot]
  exact ⟨_,if_pos rfl⟩

/-- An acknowledged command succeeds exactly when the first marker of the output is that of
success, unless a marker of success is read together with that of an error before it. -/
theorem verdict_iff_not_okBehindError {cmd : List Char} {answers : List (Option Byte)}
    (hcmd : ∀ c ∈ cmd,c.toNat < 128) (hack : Acknowledged answers)
    (reads : List (Option (List Byte))) :
    ∃ out,sendCommand cmd answers reads = some out ∧
      ((out.success = true ↔ firstMarker (decodeAscii (outputBytes reads)) = some .ok) ↔
        ¬OkBehindError [] reads) := by
  obtain ⟨written,hsend⟩ := sendCommand_acknowledged hcmd hack reads
  exact ⟨_,hsend,awaitResult_iff reads rfl⟩

/-- "[EOT](ERROR)" and a line feed -/
def errorLine : List Byte := [0x5B,0x45,0x4F,0x54,0x5D,0x28,0x45,0x52,0x52,0x4F,0x52,0x29,0x0A]

/-- "[EOT](OK)" and a line feed -/
def okLine : List Byte := [0x5B,0x45,0x4F,0x54,0x5D,0x28,0x4F,0x4B,0x29,0x0A]

/-- "reset", refused once, with an output in two reads. -/
theorem verdict_of_reset :
    ∃ out,sendCommand ['r','e','s','e','t'] [none,some 0xAA,some 0xAA]
      [some errorLine,some okLine] =
      some out ∧
      ((out.success = true ↔
          firstMarker (decodeAscii (outputBytes [some errorLine,some okLine])) = some .ok) ↔
        ¬OkBehindError [] [some errorLine,some okLine]) :=
  verdict_iff_not_okBehindError (forall_mem_of_all (by decide))
    ⟨[none],[],by decide,by decide,rfl⟩ _

/-- The same output counts as a success when it is read at once. -/
theorem error_line_read_as_success :
    (sendCommand ['r','e','s','e','t'] [some 0xAA,some 0xAA] [some (errorLine++okLine)]).map
        Outcome.success = some true ∧
      (sendCommand ['r','e','s','e','t'] [some 0xAA,some 0xAA] [some errorLine,some okLine]).map
        Outcome.success = some false ∧
      firstMarker (decodeAscii (errorLine++okLine)) = some .error := by
  decide +kernel

end Defib.DownloadCommand
