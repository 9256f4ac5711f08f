import Defib.VerifyRepair

/-!
# A dump checked with `crc32`

The device answers a `crc32` with the checksum of its RAM copy or not at all; displays are
arbitrary texts. A dump that returns has then left the RAM copy and nothing else in the
file, exactly when no display ran past the end of the flash and the dump was not resumed in
a file that is longer than the flash.
-/
namespace Defib.VerifiedDump
open List Words PyText MdOutput MdDisplay Dialogue Dialogue.Program Routines DumpFlash VerifyRepair

lemma writeAt_length {file : List Byte} {off : ℕ} (h : off ≤ file.length)
    (data : List Byte) : (writeAt file off data).length = max file.length (off+data.length) := by
  rw [writeAt_eq_place h,place]
  simp only [length_append,length_take,length_drop]
  omega

section
variable (T : CharTable) {D : Type} [DecidableEq D] (crc : List Byte → D)
  (ram : List Byte) (ramAddr : ℕ)

/-- A display of the dump loop does not run past the end of the flash. -/
def Fits (size : ℕ) : Query × Reply D → Prop
  | (.md .dump addr _,.text s) => addr-ramAddr+(parseMdOutput T s).length ≤ size
  | _ => True

/-- An existing file is not resumed if it is longer than the flash. -/
def ResumesWithin (size : ℕ) (existing : Option (List Byte)) : Prop :=
  ∀ file,existing = some file → 0 < file.length/chunkSize*chunkSize →
    file.length/chunkSize*chunkSize < size → file.length ≤ size

variable {T crc ram ramAddr}

/-! ### The loop over chunks -/

lemma readChunk_fits {hasCrc32 : Bool} {size offset : ℕ} (h : offset < size)
    (G : Query → Reply D → Prop) : Safe G (fun _ => True)
      (fun d l => 0 < d.length ∧ ((∀ x ∈ l,Fits T ramAddr size x) ↔ offset+d.length ≤ size))
      (readChunk T crc hasCrc32 (ramAddr+offset) (min chunkSize (size-offset)) maxRetries) := by
  have hpos : 0 < min chunkSize (size-offset) := Nat.lt_min.mpr ⟨by decide,by omega⟩
  apply readChunk_safe
  · intro d hd
    exact ⟨by omega,fun _ => by omega,fun _ => nofun⟩
  · intro q r d l hpass hq
    have hfit : Fits T ramAddr size (q,r) := by
      unfold Passed at hpass
      unfold Fits
      split at hpass
      · obtain ⟨rfl,hnil | hlen⟩ := hpass
        · simp only [hnil,length_nil]
          omega
        · simp only [hlen]
          omega
      · split
        · next heq => cases heq; simp_all
        · trivial
    rw [forall_mem_cons,hq.2]
    exact ⟨hq.1,fun h' => h'.2,fun h' => ⟨hfit,h'⟩⟩
  · intro s _ hs
    refine ⟨length_pos_iff.mpr hs,?_⟩
    rw [forall_mem_singleton,Fits,Nat.add_sub_cancel_left]

lemma dumpLoop_done {hasCrc32 : Bool} {size offset : ℕ} (h : size ≤ offset) (fuel : ℕ)
    (file : List Byte) :
    dumpLoop T crc hasCrc32 size ramAddr fuel offset file = pure (offset,file) := by
  cases fuel with
  | zero => rw [dumpLoop,if_neg (by omega)]
  | succ fuel => rw [dumpLoop,if_neg (by omega)]

/-- What the loop leaves of a file of length `len`. -/
structure Dumped (T : CharTable) (ramAddr size len : ℕ) (r : ℕ × List Byte)
    (l : List (Query × Reply D)) : Prop where
  within : (∀ x ∈ l,Fits T ramAddr size x) → r.1 = size ∧ r.2.length = max size len
  beyond : ¬(∀ x ∈ l,Fits T ramAddr size x) → size < r.1 ∧ size < r.2.length

omit [DecidableEq D] in
lemma Dumped.stop {size : ℕ} {file : List Byte} (h : size ≤ file.length) :
    Dumped (D := D) T ramAddr size file.length (size,file) [] :=
  ⟨fun _ => ⟨rfl,(Nat.max_eq_right h).symm⟩,fun hn => absurd nofun hn⟩

lemma dumpLoop_safe {hasCrc32 : Bool} {size : ℕ} (G : Query → Reply D → Prop) (fuel : ℕ)
    {offset : ℕ} {file : List Byte} (hoff : offset ≤ size) (hfile : offset ≤ file.length)
    (hfuel : size-offset ≤ fuel) :
    Safe G (fun _ => True) (Dumped T ramAddr size file.length)
      (dumpLoop T crc hasCrc32 size ramAddr fuel offset file) := by
  -- past the end the loop stops, so only a chunk that fits is followed by another round
  induction fuel generalizing offset file with
  | zero =>
    obtain rfl : offset = size := by omega
    rw [dumpLoop_done (Nat.le_refl _)]
    exact Safe.pure (Dumped.stop hfile)
  | succ fuel ih =>
    by_cases hlt : offset < size
    · rw [dumpLoop,if_pos hlt]
      refine (readChunk_fits hlt G).bind fun d l hd => ?_
      have hlen := writeAt_length hfile d
      by_cases hfit : offset+d.length ≤ size
      · refine (ih hfit (by omega) (by omega)).mono fun r l' hr => ?_
        have hall : (∀ x ∈ l++l',Fits T ramAddr size x) ↔ ∀ x ∈ l',Fits T ramAddr size x := by
          rw [forall_mem_append]
          exact and_iff_right (hd.2.mpr hfit)
        constructor
        · intro h
          obtain ⟨hr1,hr2⟩ := hr.within (hall.mp h)
          exact ⟨hr1,by omega⟩
        · exact fun h => hr.beyond (mt hall.mpr h)
      · rw [dumpLoop_done (by omega)]
        refine Safe.pure ⟨fun h => absurd (hd.2.mp ?_) hfit,fun _ => ⟨by omega,?_⟩⟩
        · rwa [append_nil] at h
        · show size < (writeAt file offset d).length
          omega
    · obtain rfl : offset = size := by omega
      rw [dumpLoop_done (Nat.le_refl _)]
      exact Safe.pure (Dumped.stop hfile)

/-! ### The whole dump -/

lemma resume_spec (size : ℕ) (existing : Option (List Byte)) :
    (resume true size existing).1 ≤ size ∧
      (resume true size existing).1 ≤ (resume true size existing).2.length ∧
      (ResumesWithin size existing ↔ (resume true size existing).2.length ≤ size) := by
  cases existing with
  | none => exact ⟨Nat.zero_le _,Nat.le_refl _,fun _ => Nat.zero_le _,fun _ => nofun⟩
  | some file =>
    have hround := Nat.div_mul_le_self file.length chunkSize
    have hiff : ResumesWithin size (some file) ↔ (0 < file.length/chunkSize*chunkSize →
        file.length/chunkSize*chunkSize < size → file.length ≤ size) :=
      ⟨fun h => h file rfl,fun h f hf => Option.some.inj hf ▸ h⟩
    rw [hiff,resume]
    split_ifs with hpart hfull
    · exact ⟨hpart.2.le,hround,fun h => h hpart.1 hpart.2,fun h _ _ => h⟩
    · exact ⟨Nat.le_refl _,hfull.1.ge,fun _ => hfull.1.le,fun h _ _ => h⟩
    · exact ⟨Nat.zero_le _,Nat.le_refl _,fun _ => Nat.zero_le _,
        fun _ h0 h1 => absurd ⟨h0,h1⟩ hpart⟩

omit [DecidableEq D] in
lemma fits_of_noDump {size : ℕ} {x : Query × Reply D} (h : NoDump x.1) :
    Fits T ramAddr size x := by
  unfold Fits
  split
  · exact absurd h id
  · trivial

lemma finish_safe (hcrc : Function.Injective crc) {size len : ℕ} (hsize : ram.length = size)
    {r : ℕ × List Byte} {l : List (Query × Reply D)} (hr : Dumped T ramAddr size len r l) :
    Safe (Honest T crc ram ramAddr) (fun _ => True)
      (fun r' l' => (r'.2.take size = ram ∧ r'.2.length = size) ↔
        (∀ x ∈ l++l',Fits T ramAddr size x) ∧ len ≤ size)
      (if true = true ∧ r.1 = size then do
          match ← verifyAndRepair T crc blockSize chunkSize maxRetries size ramAddr
            (.load r.2 size) with
          | (some _,s) => pure (r.1,s.file)
          | (none,_) => .fail
        else pure r) := by
  by_cases hall : ∀ x ∈ l,Fits T ramAddr size x
  · obtain ⟨hoff,hlen⟩ := hr.within hall
    subst hsize
    rw [if_pos ⟨rfl,hoff⟩]
    have hload : Sound r.2.length chunkSize (r.2.take ram.length) ram (.load r.2 ram.length) :=
      sound_load (by omega)
    have hverify : Ends (Honest T crc ram ramAddr) NoDump _ _ _ :=
      verifyAndRepair_ends hcrc maxRetries (by decide : chunkSize ∣ blockSize) hload rfl
    refine (Safe.logged hverify fun _ _ => trivial).bind fun x l' hx => ?_
    obtain ⟨outcome,s⟩ := x
    obtain ⟨⟨hsound,hvalue⟩,hlog⟩ := hx
    cases outcome with
    | none => trivial
    | some k =>
      have hkept : s.file.length = r.2.length := hsound.length_file
      have hquiet : ∀ x ∈ l'++[],Fits T ramAddr ram.length x := by
        rw [append_nil]
        exact fun x hx => fits_of_noDump (hlog x hx)
      refine Safe.pure ⟨?_,?_⟩
      · intro h
        have hexact : s.file.length = ram.length := h.2
        exact ⟨forall_mem_append.mpr ⟨hall,hquiet⟩,by omega⟩
      · intro h
        refine ⟨hsound.take_eq.trans (hvalue k rfl).1,?_⟩
        show s.file.length = ram.length
        omega
  · obtain ⟨hoff,hlen⟩ := hr.beyond hall
    rw [if_neg (fun h => hoff.ne' h.2)]
    refine Safe.pure ⟨fun h => absurd h.2 hlen.ne',fun h => absurd ?_ hall⟩
    rw [← append_nil l]
    exact h.1

lemma dumpFlash_safe (hcrc : Function.Injective crc) {size : ℕ} (hsize : ram.length = size)
    (existing : Option (List Byte)) :
    Safe (Honest T crc ram ramAddr) (fun _ => True)
      (fun r l => (r.2.take size = ram ∧ r.2.length = size) ↔
        (∀ x ∈ l,Fits T ramAddr size x) ∧ ResumesWithin size existing)
      (dumpFlash T crc size ramAddr existing) := by
  refine Safe.ask_bind trivial fun check _ => ?_
  cases check with
  | raised => trivial
  | digest d => trivial
  | text c =>
    show Safe _ _ _ (if _ then _ else _)
    split_ifs
    · trivial
    refine Safe.ask_bind trivial fun probe hprobe => ?_
    cases probe with
    | raised => trivial
    | digest d => trivial
    | text s =>
      have hfound : detectCrc32 T s = true := hprobe
      show Safe _ _ _ (dumpLoop _ _ (detectCrc32 T s) _ _ _ _ _ >>= _)
      rw [hfound]
      obtain ⟨hoff,hfile,hwithin⟩ := resume_spec size existing
      refine (dumpLoop_safe _ _ hoff hfile (Nat.le_refl _)).bind fun r l hr => ?_
      refine (finish_safe hcrc hsize hr).mono fun r' l' h => ?_
      rw [h,hwithin,forall_mem_cons,forall_mem_cons]
      exact and_congr_left fun _ => ⟨fun hall => ⟨trivial,trivial,hall⟩,fun hall => hall.2.2⟩

variable (T crc ram ramAddr)

/-- For every dialogue with an honest `crc32`: a dump that returns has left the RAM copy, and only
it, in the file exactly if no display of the loop ran past the end of the flash and no longer
file was resumed. -/
theorem verified_dump_iff (hcrc : Function.Injective crc) (existing : Option (List Byte))
    (replies : List (Reply D)) (r : ℕ × List Byte)
    (hhonest : ∀ x ∈ ((dumpFlash T crc ram.length ramAddr existing).run replies).1,
      Honest T crc ram ramAddr x.1 x.2)
    (hr : ((dumpFlash T crc ram.length ramAddr existing).run replies).2 = some r) :
    (r.2.take ram.length = ram ∧ r.2.length = ram.length) ↔
      (∀ x ∈ ((dumpFlash T crc ram.length ramAddr existing).run replies).1,
        Fits T ramAddr ram.length x) ∧ ResumesWithin ram.length existing :=
  ((dumpFlash_safe hcrc rfl existing).run replies hhonest).2 r hr

end

/-! ### One line with a wrong address -/

def checkText : List Char := shown [mdLine 0x82000000 (smallRam.take 16)]

def probeText : List Char := shown ["CRC32 for 00000000 ... ffffffff ==> 00000000".toList]

def intactText : List Char :=
  shown [mdLine 0x82000000 (smallRam.take 16),mdLine 0x82000010 (smallRam.drop 16)]

/-- The second address has one wrong digit. -/
def garbledText : List Char :=
  shown [mdLine 0x82000000 (smallRam.take 16),mdLine 0x82000110 (smallRam.drop 16)]

/-- The dump of a flash of 32 bytes into a new file; a checksum is the data itself. -/
def smallDump : Console (List Byte) (ℕ × List Byte) :=
  dumpFlash asciiTable id smallRam.length 0x82000000 none

lemma smallDump_intact : smallDump.run [.text checkText,.text probeText,.text intactText,
      .digest (some smallRam),.digest (some smallRam)] =
    ([(.md .check 0x82000000 16,.text checkText),(.crcProbe,.text probeText),
      (.md .dump 0x82000000 32,.text intactText),(.crc 0x82000000 32,.digest (some smallRam)),
      (.crc 0x82000000 32,.digest (some smallRam))],some (32,smallRam)) := by
  decide +kernel

lemma smallDump_garbled :
    smallDump.run [.text checkText,.text probeText,.text garbledText] =
      ([(.md .check 0x82000000 16,.text checkText),(.crcProbe,.text probeText),
        (.md .dump 0x82000000 32,.text garbledText)],
        some (288,smallRam.take 16++List.replicate 256 0++smallRam.drop 16)) := by
  decide +kernel

lemma probeText_finds : detectCrc32 asciiTable probeText = true := by
  decide +kernel

/-- An intact dialogue. -/
theorem smallDump_fits : ∃ replies : List (Reply (List Byte)),
    (smallDump.run replies).2 = some (32,smallRam) ∧
      ∀ x ∈ (smallDump.run replies).1,Fits asciiTable 0x82000000 smallRam.length x := by
  refine ⟨_,congrArg Prod.snd smallDump_intact,?_⟩
  refine ((verified_dump_iff asciiTable id smallRam 0x82000000 Function.injective_id none _
    (32,smallRam) ?_ (congrArg Prod.snd smallDump_intact)).mp (by decide)).1
  have hlog := congrArg Prod.fst smallDump_intact
  intro x hx
  rw [show dumpFlash asciiTable id smallRam.length 0x82000000 none = smallDump from rfl,hlog] at hx
  simp only [mem_cons,not_mem_nil,or_false] at hx
  have hcrc : ∀ off,0x82000000 = 0x82000000+off → off+32 ≤ smallRam.length →
      smallRam = id ((smallRam.drop off).take 32) := by
    intro off hoff _
    obtain rfl : off = 0 := by omega
    decide
  rcases hx with rfl | rfl | rfl | rfl | rfl
  · trivial
  · exact probeText_finds
  · trivial
  · exact hcrc
  · exact hcrc

/-- One wrong digit: the display looks longer than asked, is taken unchecked, ends the loop past
the end of the flash, and the dump returns without verification. -/
theorem smallDump_overruns : ∃ replies : List (Reply (List Byte)),∃ r,
    (∀ x ∈ (smallDump.run replies).1,Honest asciiTable id smallRam 0x82000000 x.1 x.2) ∧
      (smallDump.run replies).2 = some r ∧
      ¬(r.2.take smallRam.length = smallRam ∧ r.2.length = smallRam.length) := by
  refine ⟨_,_,?_,congrArg Prod.snd smallDump_garbled,by decide⟩
  rw [smallDump_garbled]
  intro x hx
  simp only [mem_cons,not_mem_nil,or_false] at hx
  rcases hx with rfl | rfl | rfl
  · trivial
  · exact probeText_finds
  · trivial

end Defib.VerifiedDump
