import Defib.MdDisplay
import Defib.DumpFlash

/-!
# Verification and repair of a dump

`verify_and_repair` for every block and chunk size and every number of retries, with the file
as the state that an exception leaves behind. The console answers a `crc32` with the checksum
of its RAM copy or not at all; displays are arbitrary texts, and any answer may be an
exception. A chunk is written only when its checksum is the one of the RAM copy, so whatever
the end, every chunk of the file is the old one or the one in RAM.
-/
namespace Defib.VerifyRepair
open List
open Words PyText MdOutput MdDisplay Dialogue Dialogue.Program Routines Routines.Routine DumpFlash

/-! ## Files and their chunks -/

lemma place_length {buf data : List Byte} {off : ℕ} (h : off+data.length ≤ buf.length) :
    (place buf off data).length = buf.length := by
  simp only [place,length_append,length_take,length_drop]
  omega

lemma place_take {buf data : List Byte} {off n : ℕ} (h : off+data.length ≤ n)
    (hn : n ≤ buf.length) : (place buf off data).take n = place (buf.take n) off data := by
  have hhead : (buf.take off++data).length = off+data.length := by
    rw [length_append,length_take]
    omega
  rw [place,place,take_append,take_of_length_le (by omega),hhead,take_take,
    Nat.min_eq_left (by omega),drop_take]

lemma writeAt_eq_place {file : List Byte} {off : ℕ} (h : off ≤ file.length)
    (data : List Byte) : writeAt file off data = place file off data := by
  rw [writeAt,place,Nat.sub_eq_zero_of_le h,replicate_zero,append_nil]

lemma mem_starts {lo hi step x : ℕ} (h : x ∈ starts lo hi step) : lo ≤ x ∧ x < hi := by
  obtain ⟨i,hi',rfl⟩ := mem_map.mp h
  have hlt := (Nat.lt_div_iff_mul_lt (Nat.pos_of_ne_zero fun hz => by simp [hz] at hi')).mp
    (mem_range.mp hi')
  omega

def chunkAt (chunk : ℕ) (file : List Byte) (i : ℕ) : List Byte := (file.drop (i*chunk)).take chunk

def changed (chunk : ℕ) (before after : List Byte) : ℕ :=
  (List.range before.length).countP fun i => chunkAt chunk after i ≠ chunkAt chunk before i

section
variable {chunk i j off : ℕ} {file data : List Byte}

lemma getElem?_chunkAt :
    (chunkAt chunk file i)[j]? = if j < chunk then file[i*chunk+j]? else none := by
  rw [chunkAt,getElem?_take,getElem?_drop]

lemma getElem?_place (h : off+data.length ≤ file.length) :
    (place file off data)[j]? =
      if off ≤ j ∧ j < off+data.length then data[j-off]? else file[j]? := by
  have hhead : (file.take off).length = off := by
    rw [length_take]
    omega
  have hfront : (file.take off++data).length = off+data.length := by
    rw [length_append,hhead]
  rw [place]
  split_ifs with hin
  · rw [getElem?_append_left (by omega),getElem?_append_right (by omega),hhead]
  · by_cases hlow : j < off
    · rw [getElem?_append_left (by omega),getElem?_append_left (by omega),
        getElem?_take_of_lt hlow]
    · rw [getElem?_append_right (by omega),hfront,getElem?_drop]
      congr 1
      omega

lemma chunkAt_length : (chunkAt chunk file i).length = min chunk (file.length-i*chunk) := by
  rw [chunkAt,length_take,length_drop]

lemma chunkAt_place_self (hlen : data.length = min chunk (file.length-i*chunk))
    (hi : i*chunk ≤ file.length) : chunkAt chunk (place file (i*chunk) data) i = data := by
  have hfit : i*chunk+data.length ≤ file.length := by omega
  apply ext_getElem?
  intro j
  rw [getElem?_chunkAt,getElem?_place hfit,Nat.add_sub_cancel_left]
  split_ifs with hj hin
  · rfl
  · rw [getElem?_eq_none (by omega),getElem?_eq_none (by omega)]
  · rw [getElem?_eq_none (by omega)]

lemma chunkAt_place_other {k : ℕ} (hlen : data.length = min chunk (file.length-i*chunk))
    (hi : i*chunk ≤ file.length) (hk : k ≠ i) :
    chunkAt chunk (place file (i*chunk) data) k = chunkAt chunk file k := by
  have hfit : i*chunk+data.length ≤ file.length := by omega
  apply ext_getElem?
  intro j
  rw [getElem?_chunkAt,getElem?_chunkAt,getElem?_place hfit]
  by_cases hj : j < chunk
  · have hout : ¬(i*chunk ≤ k*chunk+j ∧ k*chunk+j < i*chunk+data.length) := by
      rcases Nat.lt_or_gt_of_ne hk with hlt | hgt
      · have hmul := Nat.mul_le_mul_right chunk hlt
        rw [Nat.succ_mul] at hmul
        omega
      · have hmul := Nat.mul_le_mul_right chunk hgt
        rw [Nat.succ_mul] at hmul
        omega
    rw [if_neg hout]
  · rw [if_neg hj,if_neg hj]

lemma getElem?_of_chunkAt_eq {file' : List Byte} (hchunk : 0 < chunk)
    (h : chunkAt chunk file (j/chunk) = chunkAt chunk file' (j/chunk)) : file[j]? = file'[j]? := by
  have hbyte := congrArg (fun l : List Byte => l[j%chunk]?) h
  have hj : j/chunk*chunk+j%chunk = j := Nat.div_add_mod' j chunk
  simp only [getElem?_chunkAt,if_pos (Nat.mod_lt j hchunk),hj] at hbyte
  exact hbyte

end

/-! ## Answers -/

def NoDump : Query → Prop
  | .md .dump _ _ => False
  | _ => True

section
variable {T : CharTable} {D : Type} [DecidableEq D] {crc : List Byte → D}
  {ram before : List Byte} {ramAddr chunk len : ℕ}

variable (T crc ram ramAddr) in
/-- The device has `crc32`, and an answer that arrives is the checksum of the RAM copy. -/
def Honest : Query → Reply D → Prop
  | .crcProbe,.text s => detectCrc32 T s = true
  | .crc addr n,.digest (some d) => ∀ off,addr = ramAddr+off → off+n ≤ ram.length →
      d = crc ((ram.drop off).take n)
  | _,_ => True

omit [DecidableEq D] in
lemma deviceCrc_safe {off n : ℕ} (h : off+n ≤ ram.length) (tries : ℕ) :
    Safe (Honest T crc ram ramAddr) NoDump (fun d _ => d = crc ((ram.drop off).take n))
      (deviceCrc (ramAddr+off) n tries) := by
  induction tries with
  | zero => trivial
  | succ tries ih =>
    refine Safe.ask_bind trivial fun r hr => ?_
    cases r with
    | raised => trivial
    | text s => trivial
    | digest d =>
      cases d with
      | none => exact ih
      | some d => exact Safe.pure (hr off rfl h)

lemma reread_safe (want : D) (addr n tries : ℕ) :
    Safe (Honest T crc ram ramAddr) NoDump (fun got _ => got.length = n ∧ crc got = want)
      (reread T crc want addr n tries) := by
  induction tries with
  | zero => trivial
  | succ tries ih =>
    refine Safe.ask_bind trivial fun r _ => ?_
    cases r with
    | raised => trivial
    | digest d => trivial
    | text s =>
      show Safe _ _ _ (if _ then _ else _)
      split_ifs with hgot
      · exact Safe.pure hgot
      · exact ih

/-! ## What every end leaves -/

/-- The copy is the beginning of the file, whose length does not change; the chunks counted as
rewritten hold what is in RAM, all others what the copy held before. -/
structure Sound (len chunk : ℕ) (before ram : List Byte) (s : Repair) : Prop where
  take_eq : s.file.take ram.length = s.data
  length_file : s.file.length = len
  length_data : s.data.length = ram.length
  chunks : ∃ done : List ℕ,done.length = s.fixed ∧
    ∀ i,i ∈ done ∧ chunkAt chunk s.data i = chunkAt chunk ram i ∨
      i ∉ done ∧ chunkAt chunk s.data i = chunkAt chunk before i
  untouched : chunk = 0 → s.data = before

lemma sound_load {file : List Byte} (h : ram.length ≤ file.length) :
    Sound file.length chunk (file.take ram.length) ram (Repair.load file ram.length) :=
  ⟨rfl,rfl,by rw [Repair.load,length_take,Nat.min_eq_left h],
    ⟨[],rfl,fun _ => .inr ⟨not_mem_nil,rfl⟩⟩,fun _ => rfl⟩

variable {s : Repair}

lemma Sound.file_eq (h : Sound len chunk before ram s) (hlen : len = ram.length) :
    s.file = s.data := by
  rw [← h.take_eq,take_of_length_le]
  rw [h.length_file,hlen]

lemma Sound.write (h : Sound len chunk before ram s) (hchunk : 0 < chunk) {i : ℕ}
    (hi : i*chunk < ram.length) :
    Sound len chunk before ram ⟨writeAt s.file (i*chunk) (chunkAt chunk ram i),
      place s.data (i*chunk) (chunkAt chunk ram i),s.fixed+1⟩ := by
  have hdata := h.length_data
  have hle : i*chunk ≤ s.data.length := by omega
  have hlen : (chunkAt chunk ram i).length = min chunk (s.data.length-i*chunk) := by
    rw [chunkAt_length,hdata]
  have hfit : i*chunk+(chunkAt chunk ram i).length ≤ ram.length := by omega
  have hfile : ram.length ≤ s.file.length := by
    rw [← h.take_eq,length_take] at hdata
    omega
  obtain ⟨done,hcount,hdone⟩ := h.chunks
  rw [writeAt_eq_place (by omega)]
  refine ⟨?_,?_,?_,⟨i::done,by rw [length_cons,hcount],?_⟩,?_⟩
  · rw [place_take hfit hfile,h.take_eq]
  · rw [place_length (by omega),h.length_file]
  · rw [place_length (by omega),hdata]
  · intro k
    by_cases hk : k = i
    · left
      rw [hk]
      exact ⟨mem_cons_self,chunkAt_place_self hlen hle⟩
    · rw [chunkAt_place_other hlen hle hk,mem_cons]
      rcases hdone k with ⟨hin,hsame⟩ | ⟨hout,hsame⟩
      · exact .inl ⟨.inr hin,hsame⟩
      · exact .inr ⟨fun hmem => hmem.elim hk hout,hsame⟩
  · intro hzero
    omega

lemma Sound.changed_le (h : Sound len chunk before ram s) :
    changed chunk before s.data ≤ s.fixed := by
  obtain ⟨done,hcount,hdone⟩ := h.chunks
  rw [changed,countP_eq_length_filter,← hcount]
  refine (List.Nodup.subperm (List.nodup_range.filter _) ?_).length_le
  intro i hi
  have hdiff := of_decide_eq_true (mem_filter.mp hi).2
  rcases hdone i with ⟨hin,_⟩ | ⟨_,hsame⟩
  · exact hin
  · exact absurd hsame hdiff

lemma Sound.chunk_eq (h : Sound len chunk before ram s) (i : ℕ) :
    chunkAt chunk s.data i = chunkAt chunk before i ∨
      chunkAt chunk s.data i = chunkAt chunk ram i := by
  obtain ⟨done,_,hdone⟩ := h.chunks
  rcases hdone i with ⟨_,hsame⟩ | ⟨_,hsame⟩
  · exact .inr hsame
  · exact .inl hsame

lemma Sound.byte_eq (h : Sound len chunk before ram s) {j : ℕ}
    (hj : chunkAt chunk before (j/chunk) = chunkAt chunk ram (j/chunk)) :
    s.data[j]? = before[j]? := by
  rcases Nat.eq_zero_or_pos chunk with hzero | hchunk
  · rw [h.untouched hzero]
  · apply getElem?_of_chunkAt_eq hchunk
    rcases h.chunk_eq (j/chunk) with hsame | hsame
    · exact hsame
    · exact hsame.trans hj.symm

lemma starts_dvd {lo hi step x : ℕ} (h : x ∈ starts lo hi step) : ∃ i,x = lo+i*step := by
  obtain ⟨i,-,rfl⟩ := mem_map.mp h
  exact ⟨i,rfl⟩

omit [DecidableEq D] in
lemma rangeOf_ends {G : Query → Reply D → Prop} {P : Query → Prop} {I : Repair → Prop} (hs : I s)
    (lo hi step : ℕ) :
    Ends G P I (fun offs _ => 0 < step ∧ offs = starts lo hi step) (rangeOf lo hi step s) := by
  unfold rangeOf
  split_ifs with hzero
  · exact Ends.raise hs
  · exact Ends.pure hs ⟨Nat.pos_of_ne_zero hzero,rfl⟩

lemma repairChunk_ends (hcrc : Function.Injective crc) (maxRetries : ℕ) {bend i : ℕ}
    (hs : Sound len chunk before ram s) (hchunk : 0 < chunk) (hi : i*chunk < bend)
    (hbend : bend ≤ ram.length)
    (hn : min chunk (bend-i*chunk) = min chunk (ram.length-i*chunk)) :
    Ends (Honest T crc ram ramAddr) NoDump (Sound len chunk before ram) (fun _ _ => True)
      (repairChunk T crc chunk maxRetries ramAddr bend (i*chunk) s) := by
  have hfit : i*chunk+min chunk (bend-i*chunk) ≤ ram.length := by omega
  have hslice : (ram.drop (i*chunk)).take (min chunk (bend-i*chunk)) = chunkAt chunk ram i := by
    rw [hn,chunkAt,take_eq_take_iff,length_drop]
    omega
  unfold repairChunk
  refine (Ends.perform hs (deviceCrc_safe hfit 3)).bind ?_
  intro want s' hs' hwant
  rw [current_bind]
  split_ifs with hsame
  · exact Ends.pure hs' trivial
  · refine (Ends.perform hs' (reread_safe want _ _ _)).bind ?_
    intro got s'' hs'' hgot
    have hcopy : got = chunkAt chunk ram i := by
      apply hcrc
      rw [hgot.1.2,hwant.1,hslice]
    apply Ends.update
    rw [hcopy]
    exact hs''.write hchunk (hi.trans_le hbend)

lemma repairBlock_ends (hcrc : Function.Injective crc) (maxRetries : ℕ) {block boff : ℕ}
    (hs : Sound len chunk before ram s) (hblock : chunk ∣ block) (hboff : chunk ∣ boff)
    (hin : boff < ram.length) :
    Ends (Honest T crc ram ramAddr) NoDump (Sound len chunk before ram) (fun _ _ => True)
      (repairBlock T crc block chunk maxRetries ram.length ramAddr boff s) := by
  have hfit : boff+(min (boff+block) ram.length-boff) ≤ ram.length := by omega
  unfold repairBlock
  refine (Ends.perform hs (deviceCrc_safe hfit 3)).bind ?_
  intro device s' hs' _
  rw [current_bind]
  split_ifs with hsame
  · exact Ends.pure hs' trivial
  · refine (rangeOf_ends hs' boff _ chunk).bind ?_
    intro offs s'' hs'' hoffs
    rw [hoffs.2]
    refine Ends.forM ?_ hs''
    intro off hoff t ht
    -- chunks start at multiples of the chunk size, and only the end of the file cuts one
    obtain ⟨hlow,hhigh⟩ := mem_starts hoff
    obtain ⟨j,rfl⟩ := starts_dvd hoff
    obtain ⟨b,rfl⟩ := hboff
    have hindex : chunk*b+j*chunk = (b+j)*chunk := by ring
    have hrest : chunk ∣ chunk*b+block-(b+j)*chunk :=
      Nat.dvd_sub (Nat.dvd_add (Dvd.intro _ rfl) hblock) (Dvd.intro_left _ rfl)
    rw [hindex] at hhigh ⊢
    have hwhole : chunk ≤ chunk*b+block-(b+j)*chunk := Nat.le_of_dvd (by omega) hrest
    exact repairChunk_ends hcrc maxRetries ht hoffs.1 hhigh (Nat.min_le_right _ _) (by omega)

lemma repairBlocks_ends (hcrc : Function.Injective crc) (maxRetries : ℕ) {block : ℕ}
    (hblock : chunk ∣ block) (hs : Sound len chunk before ram s) :
    Ends (Honest T crc ram ramAddr) NoDump (Sound len chunk before ram) (fun _ _ => True)
      (((starts 0 ram.length block).forM
        (repairBlock T crc block chunk maxRetries ram.length ramAddr) : Repairing D PUnit) s) := by
  refine Ends.forM ?_ hs
  intro boff hboff t ht
  obtain ⟨b,hb⟩ := starts_dvd hboff
  refine repairBlock_ends hcrc maxRetries ht hblock ?_ (mem_starts hboff).2
  rw [hb,Nat.zero_add]
  exact hblock.mul_left b

lemma verifyAndRepair_ends (hcrc : Function.Injective crc) (maxRetries : ℕ) {block : ℕ}
    (hblock : chunk ∣ block) (hs : Sound len chunk before ram s) (hfixed : s.fixed = 0) :
    Ends (Honest T crc ram ramAddr) NoDump (Sound len chunk before ram)
      (fun k s' => s'.data = ram ∧ changed chunk before s'.data ≤ k)
      (verifyAndRepair T crc block chunk maxRetries ram.length ramAddr s) := by
  have hwhole : 0+ram.length ≤ ram.length := by omega
  have hram : (ram.drop 0).take ram.length = ram := take_length
  have hmatch {t : Repair} {d : D} (hcopy : d = crc ((ram.drop 0).take ram.length))
      (hsame : d = crc t.data) : t.data = ram := by
    rw [hram] at hcopy
    exact hcrc (hsame.symm.trans hcopy)
  unfold verifyAndRepair
  rw [current_bind]
  split_ifs with hlen
  · exact Ends.raise hs
  · refine (Ends.perform hs (deviceCrc_safe hwhole 3)).bind ?_
    rintro whole t - ⟨hcopy,rfl⟩
    split_ifs with hsame
    · exact Ends.pure hs ⟨hmatch hcopy hsame,hfixed ▸ hs.changed_le⟩
    · refine (rangeOf_ends hs 0 ram.length block).bind ?_
      intro boffs s' hs' hboffs
      rw [hboffs.2]
      refine (repairBlocks_ends hcrc maxRetries hblock hs').bind ?_
      intro _ s'' hs'' _
      refine (Ends.perform hs'' (deviceCrc_safe hwhole 3)).bind ?_
      rintro again u - ⟨hagain,rfl⟩
      rw [current_bind]
      split_ifs with hdiffers
      · exact Ends.raise hs''
      · exact Ends.pure hs'' ⟨hmatch hagain (not_not.mp hdiffers),hs''.changed_le⟩

variable (T crc)

/-- Every end of `verify_and_repair` on a file as long as the RAM copy: having returned `k`,
the file is the RAM copy and differs from the old one in at most `k` chunks; having raised,
every chunk is the old one or the one in RAM, and bytes of chunks that did not differ are as
before. -/
theorem verify_and_repair_sound (hcrc : Function.Injective crc) (ram file : List Byte)
    (hfile : file.length = ram.length) {block chunk : ℕ} (hblock : chunk ∣ block)
    (maxRetries ramAddr : ℕ) (replies : List (Reply D)) {outcome : Option ℕ} {s : Repair}
    (hhonest : ∀ x ∈ ((verifyAndRepair T crc block chunk maxRetries ram.length ramAddr
      (.load file ram.length)).run replies).1,Honest T crc ram ramAddr x.1 x.2)
    (hrun : ((verifyAndRepair T crc block chunk maxRetries ram.length ramAddr
      (.load file ram.length)).run replies).2 = some (outcome,s)) :
    (∀ k,outcome = some k → s.file = ram ∧ changed chunk file s.file ≤ k) ∧
      (outcome = none →
        (∀ i,chunkAt chunk s.file i = chunkAt chunk file i ∨
          chunkAt chunk s.file i = chunkAt chunk ram i) ∧
        ∀ j,chunkAt chunk file (j/chunk) = chunkAt chunk ram (j/chunk) →
          s.file[j]? = file[j]?) := by
  have hstart : Sound file.length chunk (file.take ram.length) ram (.load file ram.length) :=
    sound_load hfile.ge
  rw [take_of_length_le hfile.le] at hstart
  obtain ⟨hsound,hvalue⟩ := (Safe.run (verifyAndRepair_ends hcrc maxRetries hblock hstart rfl)
    replies hhonest).2 _ hrun
  rw [hsound.file_eq hfile]
  exact ⟨hvalue,fun _ => ⟨hsound.chunk_eq,fun _ hj => hsound.byte_eq hj⟩⟩

end

/-! ## One damaged chunk -/

def smallRam : List Byte := (List.range 32).map (BitVec.ofNat 8 ·)

def shown (lines : List (List Char)) : List Char := withEol ['\r','\n'] lines++['#',' ']

/-- The second half is not what is in RAM. -/
def damaged : List Byte := smallRam.take 16++List.replicate 16 0

/-- One `crc32` stays without an answer and one display comes in short. -/
def repairReplies : List (Reply (List Byte)) :=
  [.digest none,.digest (some smallRam),.digest (some smallRam),.digest (some (smallRam.take 16)),
    .digest (some (smallRam.drop 16)),.text (shown [mdLine 0x82000010 (smallRam.take 3)]),
    .text (shown [mdLine 0x82000010 (smallRam.drop 16)]),.digest (some smallRam)]

def smallRepair : Program Query (Reply (List Byte)) (Option ℕ × Repair) :=
  verifyAndRepair asciiTable id 32 16 5 smallRam.length 0x82000000 (.load damaged smallRam.length)

lemma smallRepair_run : smallRepair.run repairReplies =
    ([(.crc 0x82000000 32,.digest none),(.crc 0x82000000 32,.digest (some smallRam)),
      (.crc 0x82000000 32,.digest (some smallRam)),
      (.crc 0x82000000 16,.digest (some (smallRam.take 16))),
      (.crc 0x82000010 16,.digest (some (smallRam.drop 16))),
      (.md .repair 0x82000010 16,.text (shown [mdLine 0x82000010 (smallRam.take 3)])),
      (.md .repair 0x82000010 16,.text (shown [mdLine 0x82000010 (smallRam.drop 16)])),
      (.crc 0x82000000 32,.digest (some smallRam))],some (some 1,⟨smallRam,smallRam,1⟩)) := by
  decide +kernel

lemma smallRepair_honest : ∀ x ∈ (smallRepair.run repairReplies).1,
    Honest asciiTable id smallRam 0x82000000 x.1 x.2 := by
  rw [smallRepair_run]
  have hcrc (at' n : ℕ) (d : List Byte) (h : d = (smallRam.drop at').take n) :
      Honest asciiTable id smallRam 0x82000000 (.crc (0x82000000+at') n) (.digest (some d)) := by
    intro off hoff _
    obtain rfl : off = at' := by omega
    exact h
  simp only [forall_mem_cons]
  exact ⟨trivial,hcrc 0 32 _ (by decide),hcrc 0 32 _ (by decide),hcrc 0 16 _ (by decide),
    hcrc 16 16 _ (by decide),trivial,trivial,hcrc 0 32 _ (by decide),nofun⟩

theorem smallRepair_sound :
    ∃ s,(smallRepair.run repairReplies).2 = some (some 1,s) ∧ s.file = smallRam ∧
      changed 16 damaged s.file ≤ 1 := by
  have hrun := congrArg Prod.snd smallRepair_run
  exact ⟨_,hrun,(verify_and_repair_sound asciiTable id Function.injective_id smallRam damaged rfl
    (by decide) 5 0x82000000 repairReplies smallRepair_honest hrun).1 1 rfl⟩

end Defib.VerifyRepair
