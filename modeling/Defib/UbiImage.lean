import Mathlib.Order.Bounds.Basic
import Defib.Words
import Defib.Dicts

/-!
# UBIFS out of a raw UBI image

`extractUbifs` walks the physical blocks of an image in order and keeps, for each
logical block of the volume, the data of the last physical block that holds it. A
UBI reader takes the copy with the highest sequence number. The two agree exactly
when the physically last copy holds the data of a newest one.
-/
namespace Defib.UbiImage
open List Words Dicts

def ubiEcMagic : List Byte := [0x55,0x42,0x49,0x23]
def ubifsMagic : List Byte := [0x31,0x18,0x10,0x06]
def vidMagic : List Byte := [0x55,0x42,0x49,0x21]
def ecHdrSize : ℕ := 64
def vidHdrSize : ℕ := 64

def isUbiImage (data : List Byte) : Bool := 4 ≤ data.length && data.take 4 = ubiEcMagic

def isUbifsImage (data : List Byte) : Bool := 4 ≤ data.length && data.take 4 = ubifsMagic

def readBe (n : ℕ) (data : List Byte) (off : ℕ) : ℕ :=
  ((data.drop off).take n).foldl (fun v b => v*256+b.toNat) 0

inductive UbiError
  | notUbi
  | zeroDivision
  | structError
  | noLebs (volId : ℕ)
  | notUbifs (got : List Byte)
  deriving DecidableEq

/-- What a physical block says it holds: `vid[6]`, `vid[11]` and the bytes after the headers. -/
structure Copy where
  lnum : ℕ
  sqnum : ℕ
  data : List Byte
  deriving DecidableEq

/-- One round of the loop over physical blocks; `none` is a `continue`. -/
def readPeb (ubiData : List Byte) (pebSize volId pebIdx : ℕ) : Except UbiError (Option Copy) :=
  let pebOff := pebIdx*pebSize
  if (ubiData.drop pebOff).take 4 ≠ ubiEcMagic then .ok none
  else if ubiData.length < pebOff+ecHdrSize then .error .structError
  else
    let vidOff := pebOff+readBe 4 ubiData (pebOff+16)
    let dataOff := readBe 4 ubiData (pebOff+20)
    if ubiData.length < vidOff+vidHdrSize then .ok none
    else if (ubiData.drop vidOff).take 4 ≠ vidMagic then .ok none
    else if readBe 4 ubiData (vidOff+8) ≠ volId then .ok none
    else .ok (some ⟨readBe 4 ubiData (vidOff+12),readBe 8 ubiData (vidOff+40),
      (ubiData.drop (pebOff+dataOff)).take (pebSize-dataOff)⟩)

def collectLebs (ubiData : List Byte) (pebSize volId : ℕ) :
    Except UbiError (List (ℕ × List Byte)) :=
  (List.range (ubiData.length/pebSize)).foldlM (fun lebs i => do
    match ← readPeb ubiData pebSize volId i with
    | none => pure lebs
    | some c => pure (setItem c.lnum c.data lebs)) []

def maxLeb (lebs : List (ℕ × List Byte)) : ℕ := (lebs.map (·.1)).foldr max 0

def erased (size : ℕ) : List Byte := List.replicate size 0xff

def assemble (lebs : List (ℕ × List Byte)) (size : ℕ) : List Byte :=
  (List.range (maxLeb lebs+1)).flatMap fun i => (getItem lebs i).getD (erased size)

/-- The trimming loop. A size of zero compares the whole result with nothing and stops. -/
def trimTail (size : ℕ) : ℕ → List Byte → List Byte
  | 0,result => result
  | fuel+1,result =>
    if size < result.length ∧ 0 < size ∧ result.drop (result.length-size) = erased size then
      trimTail size fuel (result.take (result.length-size))
    else result

def extractUbifs (ubiData : List Byte) (pebSize volId : ℕ) : Except UbiError (List Byte) :=
  if isUbiImage ubiData = false then .error .notUbi
  else if pebSize = 0 then .error .zeroDivision
  else do
    match ← collectLebs ubiData pebSize volId with
    | [] => .error (.noLebs volId)
    | first::rest =>
      let size := first.2.length
      let result := assemble (first::rest) size
      let ubifs := trimTail size result.length result
      if isUbifsImage ubifs then .ok ubifs else .error (.notUbifs (ubifs.take 4))

/-! ### Images and their live data -/

/-- A raw image: headers fit their blocks and every block has the same data offset, which
leaves room for the magic of a UBIFS node. -/
structure RawImage where
  bytes : List Byte
  pebSize : ℕ
  dataOff : ℕ
  magic : isUbiImage bytes = true
  header_fits : ecHdrSize ≤ pebSize
  uniform : ∀ i < bytes.length/pebSize,(bytes.drop (i*pebSize)).take 4 = ubiEcMagic →
    readBe 4 bytes (i*pebSize+20) = dataOff
  leb_room : dataOff+4 ≤ pebSize

def RawImage.lebSize (u : RawImage) : ℕ := u.pebSize-u.dataOff

/-- The copies of blocks of a volume, in physical order. -/
def RawImage.copies (u : RawImage) (volId : ℕ) : List Copy :=
  (List.range (u.bytes.length/u.pebSize)).filterMap fun i =>
    match readPeb u.bytes u.pebSize volId i with
    | .ok c => c
    | .error _ => none

/-- No copy of the same block has a higher sequence number. -/
def Newest (cs : List Copy) (c : Copy) : Prop :=
  c ∈ cs ∧ ∀ c' ∈ cs,c'.lnum = c.lnum → c'.sqnum ≤ c.sqnum

/-- `d` is what the volume holds in block `n`. -/
def Live (cs : List Copy) (size n : ℕ) (d : List Byte) : Prop :=
  (∃ c,Newest cs c ∧ c.lnum = n ∧ c.data = d) ∨ ((∀ c ∈ cs,c.lnum ≠ n) ∧ d = erased size)

/-- The extraction returns the live blocks up to the highest one, in order and without the
erased blocks at the end. -/
def ExtractsLive (u : RawImage) (volId : ℕ) : Prop :=
  ∃ top k,∃ pick : ℕ → List Byte,
    IsGreatest {n | ∃ c ∈ u.copies volId,c.lnum = n} top ∧
    (∀ n ≤ top,Live (u.copies volId) u.lebSize n (pick n)) ∧
    extractUbifs u.bytes u.pebSize volId = .ok ((List.range (k+1)).flatMap pick) ∧
    k ≤ top ∧ (k = 0 ∨ pick k ≠ erased u.lebSize) ∧
    ∀ i,k < i → i ≤ top → pick i = erased u.lebSize

/-- The copy of block `n` that comes last. -/
def lastCopy (cs : List Copy) (n : ℕ) : Option Copy := cs.reverse.find? (·.lnum = n)

/-- The last copy of every block holds the data of a newest one. -/
def LastIsNewest (cs : List Copy) : Prop :=
  ∀ n c,lastCopy cs n = some c → ∃ c',Newest cs c' ∧ c'.lnum = n ∧ c'.data = c.data

/-- The last copy of block zero begins a UBIFS image. -/
def LastIsUbifs (cs : List Copy) : Prop := ∃ c,lastCopy cs 0 = some c ∧ isUbifsImage c.data = true

/-! ### Rows of equal blocks -/

section
variable {α : Type*} {size : ℕ}

lemma blocks_length {f : ℕ → List α} {k : ℕ} (hf : ∀ i < k,(f i).length = size) :
    ((List.range k).flatMap f).length = k*size := by
  induction k with
  | zero => simp
  | succ k ih =>
    rw [range_succ,flatMap_append,length_append,
      ih fun i hi => hf i (Nat.lt_succ_of_lt hi),flatMap_singleton,hf k (Nat.lt_succ_self k),
      Nat.succ_mul]

lemma blocks_inj {f g : ℕ → List α} {k : ℕ} (hf : ∀ i < k,(f i).length = size)
    (hg : ∀ i < k,(g i).length = size) (h : (List.range k).flatMap f = (List.range k).flatMap g) :
    ∀ i < k,f i = g i := by
  induction k with
  | zero => exact fun i hi => absurd hi (Nat.not_lt_zero i)
  | succ k ih =>
    rw [range_succ,flatMap_append,flatMap_append,flatMap_singleton,
      flatMap_singleton] at h
    have hf' : ∀ i < k,(f i).length = size := fun i hi => hf i (Nat.lt_succ_of_lt hi)
    have hg' : ∀ i < k,(g i).length = size := fun i hi => hg i (Nat.lt_succ_of_lt hi)
    obtain ⟨hinit,hlast⟩ := append_inj h (by rw [blocks_length hf',blocks_length hg'])
    intro i hi
    rcases Nat.lt_succ_iff_lt_or_eq.mp hi with hi | rfl
    · exact ih hf' hg' hinit i hi
    · exact hlast

end

lemma trimTail_blocks {size : ℕ} (hpos : 0 < size) {f : ℕ → List Byte} (n fuel : ℕ)
    (hfuel : n ≤ fuel) (hf : ∀ i ≤ n,(f i).length = size) : ∃ k ≤ n,
      trimTail size fuel ((List.range (n+1)).flatMap f) = (List.range (k+1)).flatMap f ∧
      (k = 0 ∨ f k ≠ erased size) ∧ ∀ i,k < i → i ≤ n → f i = erased size := by
  induction n generalizing fuel with
  | zero =>
    refine ⟨0,le_rfl,?_,.inl rfl,fun i h0 hi => absurd h0 (by omega)⟩
    have hlen : ((List.range (0+1)).flatMap f).length = size := by
      rw [blocks_length fun i hi => hf i (by omega)]
      omega
    cases fuel with
    | zero => rfl
    | succ fuel => rw [trimTail,if_neg fun h => absurd h.1 (by omega)]
  | succ n ih =>
    obtain ⟨fuel,rfl⟩ := Nat.exists_eq_succ_of_ne_zero (show fuel ≠ 0 by omega)
    have hlast := hf (n+1) le_rfl
    have hinit : ((List.range (n+1)).flatMap f).length = (n+1)*size :=
      blocks_length fun i hi => hf i (by omega)
    have hsplit : (List.range (n+1+1)).flatMap f = (List.range (n+1)).flatMap f++f (n+1) := by
      rw [range_succ,flatMap_append,flatMap_singleton]
    have hcut : ((List.range (n+1)).flatMap f++f (n+1)).length-size =
        ((List.range (n+1)).flatMap f).length := by
      rw [length_append,hlast,Nat.add_sub_cancel]
    have hlt : size < ((List.range (n+1)).flatMap f++f (n+1)).length := by
      have : 0 < (n+1)*size := Nat.mul_pos (Nat.succ_pos n) hpos
      rw [length_append,hlast,hinit]
      omega
    rw [hsplit,trimTail,hcut,drop_left,take_left]
    by_cases he : f (n+1) = erased size
    · rw [if_pos ⟨hlt,hpos,he⟩]
      obtain ⟨k,hk,htrim,hkeep,hdrop⟩ := ih fuel (by omega) fun i hi => hf i (by omega)
      refine ⟨k,by omega,htrim,hkeep,fun i hki hi => ?_⟩
      rcases Nat.lt_or_ge n i with hni | hin
      · rw [show i = n+1 by omega]
        exact he
      · exact hdrop i hki hin
    · rw [if_neg fun h => he h.2.2]
      exact ⟨n+1,le_rfl,hsplit.symm,.inr he,fun i h1 h2 => absurd h1 (by omega)⟩

/-! ### What the loop collects -/

lemma maxLeb_isGreatest {lebs : List (ℕ × List Byte)} (h : lebs ≠ []) :
    IsGreatest {n | ∃ p ∈ lebs,p.1 = n} (maxLeb lebs) := by
  induction lebs with
  | nil => exact absurd rfl h
  | cons p lebs ih =>
    have hmax : maxLeb (p::lebs) = max p.1 (maxLeb lebs) := rfl
    rw [hmax]
    by_cases hnil : lebs = []
    · subst hnil
      refine ⟨⟨p,mem_cons_self,(Nat.max_eq_left (Nat.zero_le _)).symm⟩,?_⟩
      rintro n ⟨q,hq,rfl⟩
      rw [mem_singleton.mp hq]
      exact Nat.le_max_left _ _
    · obtain ⟨⟨q,hq,hqm⟩,hub⟩ := ih hnil
      constructor
      · rcases Nat.le_total p.1 (maxLeb lebs) with hle | hle
        · exact ⟨q,mem_cons_of_mem p hq,by rw [hqm,Nat.max_eq_right hle]⟩
        · exact ⟨p,mem_cons_self,(Nat.max_eq_left hle).symm⟩
      · rintro n ⟨r,hr,rfl⟩
        rcases mem_cons.mp hr with rfl | hr
        · exact Nat.le_max_left _ _
        · exact (hub ⟨r,hr,rfl⟩).trans (Nat.le_max_right _ _)

section
variable (u : RawImage) (volId : ℕ)

def RawImage.stored : List (ℕ × List Byte) := (u.copies volId).map fun c => (c.lnum,c.data)

variable {u volId}

lemma pebSize_pos : 0 < u.pebSize := Nat.lt_of_lt_of_le (by decide) u.header_fits

lemma peb_fits {i : ℕ} (hi : i < u.bytes.length/u.pebSize) :
    i*u.pebSize+u.pebSize ≤ u.bytes.length := by
  rw [← Nat.succ_mul]
  exact (Nat.le_div_iff_mul_le pebSize_pos).mp hi

variable (volId) in
lemma readPeb_spec {i : ℕ} (hi : i < u.bytes.length/u.pebSize) :
    readPeb u.bytes u.pebSize volId i = .ok none ∨
      ∃ c,readPeb u.bytes u.pebSize volId i = .ok (some c) ∧ c.data.length = u.lebSize := by
  have hfits := peb_fits hi
  have hhead := u.header_fits
  unfold readPeb
  simp only
  by_cases hec : (u.bytes.drop (i*u.pebSize)).take 4 = ubiEcMagic
  · rw [if_neg (not_not_intro hec),if_neg (by omega),u.uniform i hi hec]
    split_ifs
    · exact .inl rfl
    · exact .inl rfl
    · exact .inl rfl
    · refine .inr ⟨_,rfl,?_⟩
      have hroom := u.leb_room
      rw [length_take,length_drop,RawImage.lebSize]
      omega
  · rw [if_pos hec]
    exact .inl rfl

lemma copies_length {c : Copy} (hc : c ∈ u.copies volId) : c.data.length = u.lebSize := by
  obtain ⟨i,hi,hic⟩ := mem_filterMap.mp hc
  rcases readPeb_spec volId (mem_range.mp hi) with h | ⟨c',h,hlen⟩
  · rw [h] at hic
    cases hic
  · rw [h] at hic
    cases hic
    exact hlen

variable (u volId) in
lemma collectLebs_eq :
    collectLebs u.bytes u.pebSize volId = .ok (fill [] (u.stored volId)) := by
  -- the loop over any blocks of the image, from any dictionary
  have hloop : ∀ (is : List ℕ) (lebs : List (ℕ × List Byte)),
      (∀ i ∈ is,i < u.bytes.length/u.pebSize) →
      is.foldlM (fun lebs i => do
        match ← readPeb u.bytes u.pebSize volId i with
        | none => pure lebs
        | some c => pure (setItem c.lnum c.data lebs)) lebs =
      (.ok (fill lebs ((is.filterMap fun i =>
        match readPeb u.bytes u.pebSize volId i with
        | .ok c => c
        | .error _ => none).map fun c => (c.lnum,c.data))) :
          Except UbiError (List (ℕ × List Byte))) := by
    intro is
    induction is with
    | nil => exact fun lebs _ => rfl
    | cons i is ih =>
      intro lebs his
      rw [forall_mem_cons] at his
      rw [foldlM_cons]
      rcases readPeb_spec volId his.1 with h | ⟨c,h,_⟩
      · simp only [h,filterMap_cons]
        exact ih lebs his.2
      · simp only [h,filterMap_cons]
        exact ih _ his.2
  exact hloop _ [] fun i hi => mem_range.mp hi

lemma getItem_stored (cs : List Copy) (n : ℕ) :
    getItem (fill [] (cs.map fun c => (c.lnum,c.data))) n = (lastCopy cs n).map (·.data) := by
  rw [getItem_fill,getItem_nil,Option.or_none,← map_reverse,lastCopy,getItem,find?_map,
    Option.map_map]
  rfl

lemma lastCopy_mem {cs : List Copy} {n : ℕ} {c : Copy} (h : lastCopy cs n = some c) :
    c ∈ cs ∧ c.lnum = n := by
  have hn := find?_some h
  exact ⟨mem_reverse.mp (mem_of_find?_eq_some h),of_decide_eq_true hn⟩

lemma lastCopy_eq_none_iff {cs : List Copy} {n : ℕ} :
    lastCopy cs n = none ↔ ∀ c ∈ cs,c.lnum ≠ n := by
  simp [lastCopy]

def lastData (cs : List Copy) (size n : ℕ) : List Byte :=
  ((lastCopy cs n).map (·.data)).getD (erased size)

lemma lastData_of_some {cs : List Copy} {n : ℕ} {c : Copy} (h : lastCopy cs n = some c)
    (size : ℕ) : lastData cs size n = c.data := by
  rw [lastData,h]
  rfl

variable (u volId) in
lemma lastData_length (n : ℕ) :
    (lastData (u.copies volId) u.lebSize n).length = u.lebSize := by
  rw [lastData]
  cases h : lastCopy (u.copies volId) n with
  | none => exact length_replicate
  | some c => exact copies_length (lastCopy_mem h).1

lemma stored_ne_nil (h : u.copies volId ≠ []) : fill [] (u.stored volId) ≠ [] :=
  fill_ne_nil (.inr fun hnil => h (map_eq_nil_iff.mp hnil))

lemma mem_stored_iff (n : ℕ) :
    (∃ p ∈ fill [] (u.stored volId),p.1 = n) ↔ ∃ c ∈ u.copies volId,c.lnum = n := by
  rw [← getItem_isSome_iff,RawImage.stored,getItem_stored,Option.isSome_map,
    Option.isSome_iff_ne_none,ne_eq,lastCopy_eq_none_iff]
  push Not
  rfl

lemma stored_isGreatest (h : u.copies volId ≠ []) :
    IsGreatest {n | ∃ c ∈ u.copies volId,c.lnum = n} (maxLeb (fill [] (u.stored volId))) := by
  obtain ⟨hmem,hub⟩ := maxLeb_isGreatest (stored_ne_nil h)
  exact ⟨(mem_stored_iff _).mp hmem,fun n hn => hub ((mem_stored_iff n).mpr hn)⟩

lemma isUbifsImage_blocks {f : ℕ → List Byte} (h : 4 ≤ (f 0).length) (k : ℕ) :
    isUbifsImage ((List.range (k+1)).flatMap f) = isUbifsImage (f 0) := by
  have hcons : (List.range (k+1)).flatMap f =
      f 0++((List.range k).map Nat.succ).flatMap f := by
    rw [range_succ_eq_map,flatMap_cons]
  rw [hcons,isUbifsImage,isUbifsImage,take_append_of_le_length h,length_append]
  simp only [h,Nat.le_add_right_of_le h]

lemma isUbifsImage_erased (size : ℕ) : isUbifsImage (erased size) = false := by
  rw [Bool.eq_false_iff]
  intro h
  have htake : (erased size).take 4 = ubifsMagic := of_decide_eq_true (Bool.and_eq_true_iff.mp h).2
  have hmem : (0x31 : Byte) ∈ (erased size).take 4 := by
    rw [htake]
    decide
  exact absurd (eq_of_mem_replicate (mem_of_mem_take hmem)) (by decide)

lemma extractUbifs_spec (h : u.copies volId ≠ []) : ∃ top k,
    IsGreatest {n | ∃ c ∈ u.copies volId,c.lnum = n} top ∧ k ≤ top ∧
    (k = 0 ∨ lastData (u.copies volId) u.lebSize k ≠ erased u.lebSize) ∧
    (∀ i,k < i → i ≤ top → lastData (u.copies volId) u.lebSize i = erased u.lebSize) ∧
    ∃ e,extractUbifs u.bytes u.pebSize volId =
      if isUbifsImage (lastData (u.copies volId) u.lebSize 0) then
        .ok ((List.range (k+1)).flatMap (lastData (u.copies volId) u.lebSize))
      else .error e := by
  have hroom := u.leb_room
  have hsize : 4 ≤ u.lebSize := by
    rw [RawImage.lebSize]
    omega
  have hcollect := collectLebs_eq u volId
  have hgreat := stored_isGreatest h
  cases hfill : fill [] (u.stored volId) with
  | nil => exact absurd hfill (stored_ne_nil h)
  | cons first rest =>
    rw [hfill] at hcollect hgreat
    -- every stored block has the same size, so the first gives the size of all
    have hfirst : first.2.length = u.lebSize := by
      have hmem : first ∈ fill [] (u.stored volId) := hfill ▸ mem_cons_self
      rcases mem_fill hmem with h' | h'
      · exact absurd h' not_mem_nil
      · obtain ⟨c,hc,rfl⟩ := mem_map.mp h'
        exact copies_length hc
    have hrow : assemble (first::rest) u.lebSize =
        (List.range (maxLeb (first::rest)+1)).flatMap (lastData (u.copies volId) u.lebSize) := by
      rw [assemble,← hfill]
      exact flatMap_congr fun i _ => by rw [RawImage.stored,getItem_stored,lastData]
    have hlen : maxLeb (first::rest) ≤ (assemble (first::rest) u.lebSize).length := by
      rw [hrow,blocks_length fun i _ => lastData_length u volId i]
      exact Nat.le_of_lt (Nat.lt_of_lt_of_le (Nat.lt_succ_self _)
        (Nat.le_mul_of_pos_right _ (by omega)))
    obtain ⟨k,hk,htrim,hkeep,hdrop⟩ := trimTail_blocks (by omega : 0 < u.lebSize)
      (maxLeb (first::rest)) _ hlen fun i _ => lastData_length u volId i
    rw [← hrow] at htrim
    refine ⟨_,k,hgreat,hk,hkeep,hdrop,.notUbifs
      (((List.range (k+1)).flatMap (lastData (u.copies volId) u.lebSize)).take 4),?_⟩
    rw [extractUbifs,if_neg (by rw [u.magic]; decide),if_neg pebSize_pos.ne',hcollect]
    simp only [bind,Except.bind,hfirst,htrim]
    rw [isUbifsImage_blocks (by rw [lastData_length]; exact hsize)]

lemma copies_ne_nil_of_isGreatest {top : ℕ}
    (h : IsGreatest {n | ∃ c ∈ u.copies volId,c.lnum = n} top) : u.copies volId ≠ [] := by
  obtain ⟨c,hc,_⟩ := h.1
  exact ne_nil_of_mem hc

lemma live_length {n : ℕ} {d : List Byte} (h : Live (u.copies volId) u.lebSize n d) :
    d.length = u.lebSize := by
  rcases h with ⟨c,hc,_,rfl⟩ | ⟨_,rfl⟩
  · exact copies_length hc.1
  · exact length_replicate

lemma lastData_of_extractsLive (h : ExtractsLive u volId) :
    isUbifsImage (lastData (u.copies volId) u.lebSize 0) = true ∧
      ∀ c ∈ u.copies volId,Live (u.copies volId) u.lebSize c.lnum
        (lastData (u.copies volId) u.lebSize c.lnum) := by
  obtain ⟨top,k,pick,htop,hlive,hrun,hk,hkeep,hdrop⟩ := h
  obtain ⟨top',k',htop',hk',hkeep',hdrop',e,hrun'⟩ :=
    extractUbifs_spec (copies_ne_nil_of_isGreatest htop)
  obtain rfl := htop.unique htop'
  have hpos : 0 < u.lebSize := by
    have hroom := u.leb_room
    rw [RawImage.lebSize]
    omega
  rw [hrun'] at hrun
  split_ifs at hrun with hmagic
  refine ⟨hmagic,?_⟩
  have hrow := Except.ok.inj hrun
  have hpick : ∀ i < k+1,(pick i).length = u.lebSize := fun i hi =>
    live_length (hlive i (by omega))
  have hkk : k' = k := by
    have hlen := congrArg List.length hrow
    rw [blocks_length fun i _ => lastData_length u volId i,blocks_length hpick] at hlen
    exact Nat.succ.inj (Nat.eq_of_mul_eq_mul_right hpos hlen)
  subst hkk
  have hsame := blocks_inj (fun i _ => lastData_length u volId i) hpick hrow
  intro c hc
  have hle : c.lnum ≤ top := htop.2 ⟨c,hc,rfl⟩
  rcases Nat.lt_or_ge k' c.lnum with hgt | hle'
  · rw [hdrop' c.lnum hgt hle,← hdrop c.lnum hgt hle]
    exact hlive c.lnum hle
  · rw [hsame c.lnum (by omega)]
    exact hlive c.lnum hle

end

/-- The extraction is live exactly when the last copies are. -/
theorem extracts_live_iff (u : RawImage) (volId : ℕ) :
    ExtractsLive u volId ↔ LastIsNewest (u.copies volId) ∧ LastIsUbifs (u.copies volId) := by
  constructor
  · intro h
    obtain ⟨hmagic,hlive⟩ := lastData_of_extractsLive h
    constructor
    · intro n c hc
      obtain ⟨hmem,rfl⟩ := lastCopy_mem hc
      have hl := hlive c hmem
      rw [lastData_of_some hc] at hl
      exact hl.resolve_right fun habs => habs.1 c hmem rfl
    · cases h0 : lastCopy (u.copies volId) 0 with
      | none =>
        rw [lastData,h0,Option.map_none,Option.getD_none,isUbifsImage_erased] at hmagic
        cases hmagic
      | some c =>
        rw [lastData_of_some h0] at hmagic
        exact ⟨c,h0,hmagic⟩
  · rintro ⟨hnew,c,hc,hmagic⟩
    obtain ⟨top,k,htop,hk,hkeep,hdrop,e,hrun⟩ :=
      extractUbifs_spec (ne_nil_of_mem (lastCopy_mem hc).1)
    rw [lastData_of_some hc,if_pos hmagic] at hrun
    refine ⟨top,k,lastData (u.copies volId) u.lebSize,htop,?_,hrun,hk,hkeep,hdrop⟩
    intro n _
    cases hn : lastCopy (u.copies volId) n with
    | none =>
      refine .inr ⟨lastCopy_eq_none_iff.mp hn,?_⟩
      rw [lastData,hn]
      rfl
    | some c =>
      rw [lastData_of_some hn]
      exact .inl (hnew n c hn)

/-- A physical block of 136 bytes with an eight-byte logical block of volume zero. -/
def physicalBlock (lnum sqnum : Byte) (data : List Byte) : List Byte :=
  ubiEcMagic++[1,0,0,0]++List.replicate 8 0++[0,0,0,64]++[0,0,0,128]++List.replicate 40 0++
  vidMagic++[1,1,0,0]++[0,0,0,0]++[0,0,0,lnum]++List.replicate 24 0++[0,0,0,0,0,0,0,sqnum]++
  List.replicate 16 0++data

/-- Two copies of block zero, the newer one first. -/
def newerFirst : RawImage where
  bytes := physicalBlock 0 2 (ubifsMagic++[2,2,2,2])++physicalBlock 0 1 (ubifsMagic++[1,1,1,1])
  pebSize := 136
  dataOff := 128
  magic := by decide +kernel
  header_fits := by decide
  uniform := by decide +kernel
  leb_room := by decide

lemma newerFirst_copies : newerFirst.copies 0 =
    [⟨0,2,ubifsMagic++[2,2,2,2]⟩,⟨0,1,ubifsMagic++[1,1,1,1]⟩] := by
  decide +kernel

theorem newer_first_extracts_stale : ¬ExtractsLive newerFirst 0 := by
  intro h
  obtain ⟨_,hlive⟩ := lastData_of_extractsLive h
  rw [newerFirst_copies] at hlive
  rcases hlive ⟨0,2,ubifsMagic++[2,2,2,2]⟩ mem_cons_self with ⟨c,⟨hc,hnewest⟩,h0,hdata⟩ | ⟨hnone,_⟩
  · -- the newest copy has sequence number two, the extracted one does not
    have hsq := hnewest ⟨0,2,ubifsMagic++[2,2,2,2]⟩ mem_cons_self h0.symm
    rcases mem_cons.mp hc with rfl | hc
    · revert hdata
      decide
    · rw [mem_singleton.mp hc] at hsq
      revert hsq
      decide
  · exact hnone _ mem_cons_self rfl

end Defib.UbiImage
