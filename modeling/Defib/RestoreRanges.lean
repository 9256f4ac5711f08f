import Defib.Restore
import Defib.MtdpartsAgreement
import Mathlib.Order.CompletePartialOrder
import Mathlib.Order.Interval.Set.Disjoint
import Mathlib.Tactic.IntervalCases

/-!
# Which flash the restore command erases

Every flash command of a run stays in the zone of its partition, so that disjoint zones
keep the partitions apart. Without a layout the zones are the rounded-up data at the sums of the
lengths, which meet as soon as a length that is no multiple of the erase block is
followed by more data. With a layout the zone of a partition reaches to the next entry.
-/
namespace Defib.RestoreRanges
open List Words PyText Dicts Mtdparts MtdpartsAgreement UbiImage Dialogue Dialogue.Program Restore
open MtdpartsLookup (NameOk)

/-- Start and length. -/
abbrev Range := ℕ × ℕ

def span (a : Range) : Set ℕ := Set.Ico a.1 (a.1+a.2)

/-- What the environment of the device says when asked for the layout, and the MTD
partitions of U-Boot. -/
structure Device where
  bootargs : List Char
  mtdparts : List Char
  mtd : List Char → Option Range

/-- The flash that a command erases or writes; a UBI volume has the name of its partition. -/
def range (d : Device) : Command → Option Range
  | .nandErase off size => some (off,size.toNat)
  | .nandWrite _ off size => some (off,size)
  | .sfErase off size => some (off,size)
  | .sfWrite _ off size => some (off,size)
  | .mmcErase block count => some (block*512,count*512)
  | .mmcWrite _ block count => some (block*512,count*512)
  | .ubiPart name | .ubiCreate name | .ubiWrite _ name _ => d.mtd name
  | _ => none

/-- The ranges of different partitions share no address. -/
def Apart (d : Device) (log : List (Request × Reply)) : Prop :=
  ∀ x ∈ log,∀ y ∈ log,x.1.part ≠ y.1.part →
    ∀ a ∈ range d x.1.cmd,∀ b ∈ range d y.1.cmd,Disjoint (span a) (span b)

def Answers (d : Device) (q : Request) (r : Reply) : Prop :=
  match q.cmd with
  | .printenvBootargs => r.text = d.bootargs
  | .printenvMtdparts => r.text = d.mtdparts
  | _ => True

/-- The layout that UBI partitions are written by. -/
def layout (T : CharTable) (j : Job) (d : Device) : Option (List Char) :=
  if j.mtdparts ≠ [] then some j.mtdparts
  else (searchHinand T d.bootargs).or (searchHinand T d.mtdparts)

def isUbi (data : List Byte) : Bool := isUbiImage data || isUbifsImage data

def Job.length (j : Job) (i : ℕ) : ℕ := (j.partitions[i]?.map (·.2.length)).getD 0

def eraseBlock : Flash → ℕ
  | .nand => nandBlock
  | .nor => norBlock
  | .emmc => emmcBlock
  | .other => 1

/-- Only whole erase blocks come before more data. -/
def Aligned (j : Job) : Prop :=
  ∀ i k,i < k → 0 < Job.length j k → eraseBlock j.flash ∣ Job.length j i

/-- The partitions are listed one by one, and each has room before the next. -/
structure Listed (T : CharTable) (limit : Option ℕ) (j : Job) (d : Device) (l : Layout) : Prop where
  nand : j.flash = .nand
  /-- Given by `--mtdparts`, or by the environment and in step with the lengths. -/
  source : j.mtdparts = l.value ∨ j.mtdparts = [] ∧ layout T j d = some l.value ∧
    ∀ i < j.partitions.length,j.dataOffset i = l.offset i
  words : ∀ name ∈ l.names,IsWord T name
  convertible : ∀ m ∈ limit,∀ e ∈ l.entries,e.digits.length ≤ m
  listed : j.partitions.length ≤ l.names.length
  distinct : (j.partitions.map (·.1)).Nodup
  room : ∀ i p,j.partitions[i]? = some p → i+1 < j.partitions.length →
    if isUbi p.2 then l.size i ≠ 0 else roundUp p.2.length nandBlock ≤ l.size i

/-- A request for flash stays in the zone of its partition. -/
def InZones (d : Device) (Z : ℕ → Set ℕ) (q : Request) : Prop :=
  ∀ a ∈ range d q.cmd,∃ i,q.part = some i ∧ span a ⊆ Z i

def rawSlot (j : Job) (data : List Byte) (off : ℕ) : Option Range :=
  match j.flash with
  | .nand => some (off,roundUp data.length nandBlock)
  | .nor => some (off,roundUp data.length norBlock)
  | .emmc => some (off/512*512,(data.length+511)/512*512)
  | .other => none

/-- Each partition has its zone, as long as the map that has been read is in `K`. -/
structure Zoned (T : CharTable) (limit : Option ℕ) (j : Job) (d : Device)
    (offsets : List (ℕ × ℕ)) (Z : ℕ → Set ℕ) (K : Option Partmap → Prop) : Prop where
  start : K none
  read : ∀ x ∈ j.items,isUbi x.2.2 = true → j.flash = .nand → ∀ v m,layout T j d = some v →
    ubiPartmap T limit v = some m → K (some m)
  raw : ∀ x ∈ j.items,(j.flash = .nand → isUbi x.2.2 = false) → ∀ m,K m →
    ∀ s ∈ rawSlot j x.2.2 (rawOffset offsets m x.1),span s ⊆ Z x.1
  ubi : ∀ x ∈ j.items,isUbi x.2.2 = true → ∀ m v,K (some m) →
    getItem m (firstIndex j x.2.1) = some v →
      span (v.2.1,(ubiSize v.2.1 v.2.2).toNat) ⊆ Z x.1 ∧ ∀ a ∈ d.mtd v.1,span a ⊆ Z x.1

variable {partmap : Option Partmap}

section
variable {T : CharTable} {limit : Option ℕ} {j : Job} {d : Device} {Z : ℕ → Set ℕ}

lemma inZones_of_none {q : Request} (h : range d q.cmd = none) : InZones d Z q := by
  intro a ha
  rw [h] at ha
  cases ha

lemma inZones_of_subset {q : Request} {i : ℕ} (hq : q.part = some i)
    (h : ∀ a ∈ range d q.cmd,span a ⊆ Z i) : InZones d Z q := fun a ha => ⟨i,hq,h a ha⟩

lemma inZones_of_le {q : Request} {i : ℕ} {s a : Range} (hs : span s ⊆ Z i)
    (hq : q.part = some i) (ha : range d q.cmd = some a) (hstart : a.1 = s.1) (hle : a.2 ≤ s.2) :
    InZones d Z q := by
  refine inZones_of_subset hq fun a' ha' => ?_
  rw [ha] at ha'
  cases ha'
  refine subset_trans (Set.Ico_subset_Ico (by omega) (by omega)) hs

lemma fetchThen_inZones (i : ℕ) (name : List Char) {write : Session Unit}
    (h : Safe (Answers d) (InZones d Z) (fun _ _ => True) write) :
    Safe (Answers d) (InZones d Z) (fun _ _ => True) (fetchThen j i name write) := by
  have hfetch : Safe (Answers d) (InZones d Z) (fun _ _ => True) (fetch j i name) := by
    refine Safe.ask_bind (inZones_of_none rfl) fun r _ => ?_
    split_ifs
    · exact Safe.ask_bind (inZones_of_none rfl) fun r' _ => Safe.pure trivial
    · exact Safe.pure trivial
  refine hfetch.bind fun ok _ _ => ?_
  split_ifs
  · exact h
  · exact Safe.pure trivial

lemma findLayout_inZones (i : ℕ) :
    Safe (Answers d) (InZones d Z) (fun v _ => v = layout T j d) (findLayout T j i) := by
  unfold findLayout layout
  split_ifs with h
  · exact Safe.pure rfl
  · refine Safe.ask_bind (inZones_of_none rfl) fun r hr => ?_
    have hb : r.text = d.bootargs := hr
    rw [hb]
    cases searchHinand T d.bootargs with
    | some v => exact Safe.pure rfl
    | none =>
      refine Safe.ask_bind (inZones_of_none rfl) fun r' hr' => Safe.pure ?_
      have hm : r'.text = d.mtdparts := hr'
      rw [hm]
      rfl

lemma layoutFor_inZones {K : Option Partmap → Prop} (hK : K partmap)
    (hread : ∀ v m,layout T j d = some v → ubiPartmap T limit v = some m → K (some m)) (i : ℕ) :
    Safe (Answers d) (InZones d Z) (fun m _ => K m) (layoutFor T limit j partmap i) := by
  cases partmap with
  | some m => exact Safe.pure hK
  | none =>
    refine (findLayout_inZones i).bind fun v l hv => ?_
    cases v with
    | none => exact Safe.pure hK
    | some v =>
      refine Safe.ask_bind (inZones_of_none rfl) fun _ _ =>
        Safe.ask_bind (inZones_of_none rfl) fun _ _ =>
          Safe.ask_bind (inZones_of_none rfl) fun _ _ => ?_
      cases hm : ubiPartmap T limit v with
      | none => trivial
      | some m => exact Safe.pure (hread v m hv.symm hm)

lemma le_roundUp (n : ℕ) {k : ℕ} (hk : 0 < k) : n ≤ roundUp n k := by
  have hdiv := Nat.div_add_mod (n+k-1) k
  have hmod := Nat.mod_lt (n+k-1) hk
  rw [roundUp,Nat.mul_comm]
  omega

lemma roundUp_page_le (n : ℕ) : roundUp n nandPage ≤ roundUp n nandBlock := by
  unfold roundUp nandPage nandBlock
  omega

lemma writeRaw_inZones {i off : ℕ} {data : List Byte}
    (hs : ∀ s ∈ rawSlot j data off,span s ⊆ Z i) :
    Safe (Answers d) (InZones d Z) (fun _ _ => True) (writeRaw j i data off) := by
  unfold writeRaw
  unfold rawSlot at hs
  cases hf : j.flash with
  | nand =>
    rw [hf] at hs
    exact Safe.ask_bind (inZones_of_le (hs _ rfl) rfl rfl rfl le_rfl) fun _ _ =>
      Safe.ask_bind (inZones_of_le (hs _ rfl) rfl rfl rfl (roundUp_page_le _)) fun _ _ =>
        Safe.pure trivial
  | nor =>
    rw [hf] at hs
    exact Safe.ask_bind (inZones_of_le (hs _ rfl) rfl rfl rfl le_rfl) fun _ _ =>
      Safe.ask_bind (inZones_of_le (hs _ rfl) rfl rfl rfl (le_roundUp _ (by decide))) fun _ _ =>
        Safe.pure trivial
  | emmc =>
    rw [hf] at hs
    exact Safe.ask_bind (inZones_of_le (hs _ rfl) rfl rfl rfl le_rfl) fun _ _ =>
      Safe.ask_bind (inZones_of_le (hs _ rfl) rfl rfl rfl le_rfl) fun _ _ => Safe.pure trivial
  | other => exact Safe.pure trivial

lemma prepare_raw {data d₀ : List Byte} (h : prepare j data = some (d₀,false)) :
    d₀ = data ∧ (j.flash = .nand → isUbi data = false) := by
  unfold prepare at h
  split at h
  · split at h <;> cases h
  next hn =>
    obtain ⟨rfl,hfalse⟩ := Prod.mk.inj (Option.some.inj h)
    refine ⟨rfl,fun hf => ?_⟩
    simp only [hf,decide_true,Bool.true_and] at hfalse
    rw [isUbi,hfalse,Bool.or_false]
    exact Bool.eq_false_iff.mpr fun hu => hn ⟨hf,hu⟩

lemma prepare_ubi {data d₀ : List Byte} (h : prepare j data = some (d₀,true)) :
    j.flash = .nand ∧ isUbi data = true := by
  unfold prepare at h
  split at h
  next hn => exact ⟨hn.1,by rw [isUbi,hn.2,Bool.true_or]⟩
  · obtain ⟨-,htrue⟩ := Prod.mk.inj (Option.some.inj h)
    rw [Bool.and_eq_true,decide_eq_true_eq] at htrue
    exact ⟨htrue.1,by rw [isUbi,htrue.2,Bool.or_true]⟩

variable {offsets : List (ℕ × ℕ)} {K : Option Partmap → Prop}

lemma Zoned.writePartition (hz : Zoned T limit j d offsets Z K)
    (hK : K partmap) {x : Item} (hx : x ∈ j.items) :
    Safe (Answers d) (InZones d Z) (fun m _ => K m)
      (writePartition T limit j offsets partmap x) := by
  unfold Restore.writePartition
  cases hp : prepare j x.2.2 with
  | none => trivial
  | some p =>
    obtain ⟨data,ubi⟩ := p
    cases ubi with
    | true =>
      obtain ⟨hf,hubi⟩ := prepare_ubi hp
      refine (layoutFor_inZones hK (hz.read x hx hubi hf) x.1).bind fun m l hm => ?_
      cases hv : m.bind fun m => getItem m (firstIndex j x.2.1) with
      | none => exact Safe.pure hm
      | some v =>
        obtain ⟨m,rfl,hget⟩ := Option.bind_eq_some_iff.mp hv
        obtain ⟨herase,hmtd⟩ := hz.ubi x hx hubi m v hm hget
        refine (fetchThen_inZones x.1 x.2.1 ?_).bind fun _ _ _ => Safe.pure hm
        exact Safe.ask_bind (inZones_of_le herase rfl rfl rfl le_rfl) fun _ _ =>
          Safe.ask_bind (inZones_of_subset rfl hmtd) fun _ _ =>
            Safe.ask_bind (inZones_of_subset rfl hmtd) fun _ _ =>
              Safe.ask_bind (inZones_of_subset rfl hmtd) fun _ _ => Safe.pure trivial
    | false =>
      obtain ⟨rfl,hraw⟩ := prepare_raw hp
      exact (fetchThen_inZones x.1 x.2.1 (writeRaw_inZones (hz.raw x hx hraw partmap hK))).bind
        fun _ _ _ => Safe.pure hK

end

/-! ### Without a layout -/

section
variable (j : Job)

variable {j}

lemma getItem_map_index {X V : Type} {f : ℕ → V} {l : List (ℕ × X)} {x : ℕ × X} (hx : x ∈ l) :
    getItem (l.map fun y => (y.1,f y.1)) x.1 = some (f x.1) := by
  induction l with
  | nil => exact absurd hx not_mem_nil
  | cons y l ih =>
    rw [map_cons,getItem_cons]
    split_ifs with h
    · have hk : y.1 = x.1 := h
      rw [hk]
    · rcases mem_cons.mp hx with rfl | hx
      · exact absurd rfl h
      · exact ih hx

lemma item_length {x : Item} (hx : x ∈ j.items) :
    x.1 < j.partitions.length ∧ x.2.2.length = Job.length j x.1 := by
  obtain ⟨p,hp,rfl⟩ := mem_map.mp hx
  have hget := mem_zipIdx_iff_getElem?.mp hp
  refine ⟨(List.getElem?_eq_some_iff.mp hget).1,?_⟩
  rw [Job.length,hget]
  rfl

variable {T : CharTable} {limit : Option ℕ} {d : Device}

/-- Offsets from the lengths. -/
def dataOffsets (j : Job) : List (ℕ × ℕ) := j.items.map fun x => (x.1,j.dataOffset x.1)

lemma offsets_unlisted (h : j.flash = .nand → j.mtdparts = []) :
    j.offsets T limit = some (dataOffsets j) := by
  rw [Job.offsets,if_neg fun hc => hc.1 (h hc.2)]
  rfl

def Erases (d : Device) (i : ℕ) (s : Range) (log : List (Request × Reply)) : Prop :=
  ∃ y ∈ log,y.1.part = some i ∧ range d y.1.cmd = some s

end

/-! ### With a layout -/

section
variable {T : CharTable} {limit : Option ℕ} {j : Job} {d : Device} {l : Layout}

lemma value_ne_nil : l.value ≠ [] := by
  rw [Layout.value]
  simp

/-- The map is that of the layout, once it has been read. -/
def OfLayout (l : Layout) (partmap : Option Partmap) : Prop :=
  ∀ m ∈ partmap,∀ i name,l.names[i]? = some name → getItem m i = some (name,l.offset i,l.size i)

lemma Listed.name (h : Listed T limit j d l) {x : Item} (hx : x ∈ j.items) :
    ∃ name,l.names[x.1]? = some name :=
  ⟨_,getElem?_eq_getElem ((item_length hx).1.trans_le h.listed)⟩

lemma Listed.offsets (h : Listed T limit j d l) : ∃ offsets,j.offsets T limit = some offsets ∧
    ∀ x ∈ j.items,getItem offsets x.1 = some (l.offset x.1) := by
  rcases h.source with hl | ⟨hnil,_,hdata⟩
  · obtain ⟨offsets,hoff,hget⟩ := partOffsets_value (T := T) l h.convertible j.partitions.length
    refine ⟨offsets,?_,fun x hx => hget x.1 ((item_length hx).1.trans_le h.listed)⟩
    rw [Job.offsets,if_pos ⟨hl ▸ value_ne_nil,h.nand⟩,hl,hoff]
  · refine ⟨dataOffsets j,offsets_unlisted fun _ => hnil,fun x hx => ?_⟩
    rw [dataOffsets,getItem_map_index hx,hdata x.1 (item_length hx).1]

lemma Listed.layout (h : Listed T limit j d l) :
    RestoreRanges.layout T j d = some l.value := by
  rcases h.source with hl | ⟨_,hl,_⟩
  · rw [RestoreRanges.layout,if_pos (hl ▸ value_ne_nil),hl]
  · exact hl

lemma Listed.rawOffset (h : Listed T limit j d l) {offsets : List (ℕ × ℕ)} {x : Item}
    (hget : getItem offsets x.1 = some (l.offset x.1)) (hx : x ∈ j.items)
    (hm : OfLayout l partmap) :
    Restore.rawOffset offsets partmap x.1 = l.offset x.1 := by
  obtain ⟨name,hname⟩ := h.name hx
  unfold Restore.rawOffset
  cases partmap with
  | none =>
    show (getItem offsets x.1).getD 0 = _
    rw [hget]
    rfl
  | some m =>
    rw [Option.bind_some,hm m rfl x.1 name hname]

end

end Defib.RestoreRanges
