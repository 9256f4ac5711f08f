import Defib.Actions
import Defib.Spans
import Defib.Words

/-!
# The write loader of a Novatek mask ROM

The ROM takes every 16 bytes of its UART as a command, those of a loader that is being sent
included: it stores them, and runs them as well if they look like a command. `defuse_loader`
therefore blanks such groups, and `send_loader` writes their words back one at a time. The ROM
is a state machine over bytes; the host writes to it and looks for the echo of each command.
-/
namespace Defib.Novatek
open List Words BlockMemory Spans Actions

def opWrloader : ℕ := 0x02
def opAddrWrite : ℕ := 0x03
def opWaitDone : ℕ := 0x82
def cdbSize : ℕ := 16
def cdbStatus : ℕ := 13
def cdbEcho : ℕ := 13
def romChunk : ℕ := 0x10000
def writePiece : ℕ := 0x1000

/-- The version word of a die, and the SRAM its ROM loads to. -/
def dieSram (word : ℕ) : Option ℕ :=
  if word = 0x70210000 then some 0xF07C0000
  else if word = 0x81200000 then some 0xFE080000
  else if word = 0x55210000 then some 0xF07C0000
  else none

section Commands

def halfword (cdb : List Byte) (i : ℕ) : ℕ := readLe32 cdb (2*i) % 65536

/-- The words of a command with their indices sum to 0; `none` is a `struct.error`. -/
def buildCdb (op addr size : ℕ) : Option (List Byte) := do
  let a ← packLe32 addr
  let s ← packLe32 size
  let cdb := [0xC0,BitVec.ofNat 8 op]++a++s++[0,0,0,0]
  let total := ((List.range 8).map fun i => halfword (cdb++[0,0]) i+i).sum
  return cdb++writeLe16 ((65536-total % 65536) % 65536)

def romTakesAsCommand (chunk : List Byte) : Bool :=
  let word := readLe32 chunk 0
  let half := word % 65536
  word = 0x81C0 || word = 0x01C0 || word = 0x82C0 ||
    half = 0x83C0 || half = 0x03C0 || half = 0x02C0

end Commands

section Loader

def padded (loader : List Byte) : List Byte :=
  loader++List.replicate ((loader.length+15)/16*16-loader.length) 0

def group (image : List Byte) (off : ℕ) : List Byte := (image.drop off).take cdbSize

/-- The words that are written back over a group. -/
def groupPatches (off : ℕ) (g : List Byte) : List (ℕ × ℕ) :=
  [0,4,8,12].map fun i => (off+i,readLe32 g i)

/-- An iteration reads and blanks its own 16 bytes only. -/
def defuseGroup (g : List Byte) : List Byte :=
  if romTakesAsCommand g then List.replicate cdbSize 0 else g

def defuseLoader (loader : List Byte) : List Byte × List (ℕ × ℕ) :=
  let image := padded loader
  let offs := (pieces cdbSize image.length).map Prod.fst
  (offs.flatMap fun off => defuseGroup (group image off),
    offs.flatMap fun off =>
      if romTakesAsCommand (group image off) then groupPatches off (group image off) else [])

end Loader

section Rom

structure Rom where
  die : ℕ
  mem : ℕ → Byte
  /-- where the next bytes of a loader go, and how many are left -/
  loading : Option (ℕ × ℕ)
  /-- bytes of a group that is not complete -/
  part : List Byte
  /-- bytes sent to the host that it has not taken out of its buffer -/
  out : List Byte

/-- The answer to a command: the command again, with status 0. -/
def echo (g : List Byte) : List Byte := g.take cdbStatus++[0]++g.drop (cdbStatus+1)

def Rom.run (r : Rom) (g : List Byte) : Rom :=
  let word := readLe32 g 0
  let half := word % 65536
  let data := if word = 0x81C0 then writeLe32 r.die else []
  let out := r.out++(echo g++data)
  if half = 0x02C0 then {r with loading := some (readLe32 g 2,readLe32 g 6),out}
  else if half = 0x03C0 then
    {r with mem := patch r.mem (readLe32 g 2) (writeLe32 (readLe32 g 6)),out}
  else {r with out}

/-- The 16 bytes of a loader are stored and, if they match, run. -/
def Rom.group (r : Rom) (g : List Byte) : Rom :=
  match r.loading with
  | none => if romTakesAsCommand g then r.run g else r
  | some (addr,left) =>
    let loading := if left ≤ cdbSize then none else some (addr+cdbSize,left-cdbSize)
    let stored := {r with mem := patch r.mem addr g,loading}
    if romTakesAsCommand g then stored.run g else stored

def Rom.byte (r : Rom) (b : Byte) : Rom :=
  let part := r.part++[b]
  if part.length = cdbSize then Rom.group {r with part := []} part else {r with part}

def Rom.feed (r : Rom) (bytes : List Byte) : Rom := bytes.foldl Rom.byte r

end Rom

section Host

inductive NovatekError where
  | tooShort
  | tooLong (length : ℕ)
  | linkedElsewhere (base : ℕ) (want : Option ℕ)
  | structError
  | noAnswer (op : ℕ)
  | refused (op : ℕ) (status : Byte)
  deriving DecidableEq, Repr

abbrev Upload := Act NovatekError Rom

def writes (cdb data : List Byte) : List (List Byte) :=
  (cdb++data.take writePiece) ::
    (spans (fun _ => writePiece) writePiece (data.length-writePiece)).map fun s =>
      (data.drop s.1).take s.2

def find (needle hay : List Byte) : Option ℕ := hay.tails.findIdx? needle.isPrefixOf

def command (op addr size : ℕ) (data : List Byte) (reply : ℕ) : Upload (List Byte) := do
  match buildCdb op addr size with
  | none => throw .structError
  | some cdb =>
    modify fun r => (writes cdb data).foldl Rom.feed r
    let r ← get
    match find (cdb.take cdbEcho) r.out with
    | none => throw (.noAnswer op)
    | some start =>
      if r.out.length < start+cdbSize+reply then throw (.noAnswer op)
      else
        let status := r.out.getD (start+cdbStatus) 0
        let out := (r.out.drop (start+cdbSize)).take reply
        set {r with out := r.out.drop (start+cdbSize+reply)}
        if status ≠ 0 then throw (.refused op status)
        return out

def writeBack (base : ℕ) : List (ℕ × ℕ) → Upload Unit
  | [] => return ()
  | p::ps => do
    let _ ← command opAddrWrite (base+p.1) p.2 [] 0
    writeBack base ps

def sendLoader (chipWord : ℕ) (loader : List Byte) : Upload Unit := do
  if loader.length < 8 then throw .tooShort
  else if romChunk < loader.length then throw (.tooLong loader.length)
  else
    let base := readLe32 loader 4
    if some base ≠ dieSram chipWord then throw (.linkedElsewhere base (dieSram chipWord))
    else
      let (image,patches) := defuseLoader loader
      let _ ← command opWrloader base image.length image 0
      writeBack base patches
      let _ ← command opWaitDone 0 0 [] 0

end Host

variable {image : List Byte} {g : List Byte}

section Groups

lemma spans_group {n : ℕ} (hn : 16 ∣ n) (hpos : 0 < n) (a : ℕ) :
    spans (fun _ => cdbSize) a n = (a,16)::spans (fun _ => cdbSize) (a+16) (n-16) := by
  have hle : 16 ≤ n := Nat.le_of_dvd hpos hn
  rw [spans_pos (fun _ => by decide) a n hpos]
  simp only [cdbSize,Nat.min_eq_left hle]

lemma groups_induction {P : (a n : ℕ) → 16 ∣ n → Prop} (done : ∀ a h,P a 0 h)
    (step : ∀ a n hn h,P (a+16) n hn → P a (n+16) h) (a n : ℕ) (hn : 16 ∣ n) : P a n hn := by
  obtain ⟨k,rfl⟩ := hn
  induction k generalizing a with
  | zero => exact done a _
  | succ k ih => exact step a (16*k) (Nat.dvd_mul_right 16 k) _ (ih (a+16))

lemma group_length {a n : ℕ} (h : a+(n+16) = image.length) :
    (group image a).length = 16 := by
  rw [group,length_take,length_drop]
  simp only [cdbSize]
  omega

lemma group_append_zero {xs : List Byte} (h : xs.length = 16) (ys : List Byte) :
    group (xs++ys) 0 = xs :=
  take_left' h

lemma group_append_succ {xs : List Byte} (h : xs.length = 16) (ys : List Byte) (k : ℕ) :
    group (xs++ys) (16*(k+1)) = group ys (16*k) := by
  rw [group,Nat.mul_succ,Nat.add_comm,← drop_drop,drop_left' h,← group]

lemma defuseGroup_length (h : g.length = 16) : (defuseGroup g).length = 16 := by
  rw [defuseGroup]
  split_ifs
  · exact length_replicate
  · exact h

lemma defuseGroup_safe (g : List Byte) : romTakesAsCommand (defuseGroup g) = false := by
  rw [defuseGroup]
  split_ifs with h
  · decide
  · exact Bool.eq_false_iff.mpr h

/-- The image and the patches from offset `a` on. -/
def imageFrom (image : List Byte) (a n : ℕ) : List Byte :=
  (spans (fun _ => cdbSize) a n).flatMap fun s => defuseGroup (group image s.1)

def patchesFrom (image : List Byte) (a n : ℕ) : List (ℕ × ℕ) :=
  (spans (fun _ => cdbSize) a n).flatMap fun s =>
    if romTakesAsCommand (group image s.1) then groupPatches s.1 (group image s.1) else []

lemma defuseLoader_eq (loader : List Byte) :
    defuseLoader loader = (imageFrom (padded loader) 0 (padded loader).length,
      patchesFrom (padded loader) 0 (padded loader).length) := by
  rw [defuseLoader,pieces,flatMap_map,flatMap_map]
  rfl

lemma imageFrom_step (image : List Byte) (a : ℕ) {n : ℕ} (hn : 16 ∣ n) :
    imageFrom image a (n+16) = defuseGroup (group image a)++imageFrom image (a+16) n := by
  rw [imageFrom,spans_group (Nat.dvd_add_self_right.mpr hn) (Nat.succ_pos _),flatMap_cons,
    Nat.add_sub_cancel]
  rfl

lemma patchesFrom_step (image : List Byte) (a : ℕ) {n : ℕ} (hn : 16 ∣ n) :
    patchesFrom image a (n+16) =
      (if romTakesAsCommand (group image a) then groupPatches a (group image a) else [])++
        patchesFrom image (a+16) n := by
  rw [patchesFrom,spans_group (Nat.dvd_add_self_right.mpr hn) (Nat.succ_pos _),flatMap_cons,
    Nat.add_sub_cancel]
  rfl

lemma imageFrom_length (image : List Byte) (a n : ℕ) (hn : 16 ∣ n) (h : a+n = image.length) :
    (imageFrom image a n).length = n := by
  induction a, n, hn using groups_induction with
  | done a _ => rfl
  | step a n hn _ ih =>
    rw [imageFrom_step image a hn,length_append,defuseGroup_length (group_length h),
      ih (by omega),Nat.add_comm]

lemma imageFrom_safe (image : List Byte) (a n : ℕ) (hn : 16 ∣ n) (h : a+n = image.length)
    (k : ℕ) (hk : 16*k < n) : romTakesAsCommand (group (imageFrom image a n) (16*k)) = false := by
  induction a, n, hn using groups_induction generalizing k with
  | done a _ => exact absurd hk (Nat.not_lt_zero _)
  | step a n hn _ ih =>
    have hlen := defuseGroup_length (group_length h)
    rw [imageFrom_step image a hn]
    cases k with
    | zero =>
      rw [Nat.mul_zero,group_append_zero hlen]
      exact defuseGroup_safe _
    | succ k =>
      rw [group_append_succ hlen]
      exact ih (by omega) k (by omega)

end Groups

section Memory

/-- The effect of the patches on the memory. -/
def applyPatches (base : ℕ) (m : ℕ → Byte) (ps : List (ℕ × ℕ)) : ℕ → Byte :=
  ps.foldl (fun m p => patch m (base+p.1) (writeLe32 p.2)) m

lemma applyPatches_append (base : ℕ) (m : ℕ → Byte) (ps qs : List (ℕ × ℕ)) :
    applyPatches base m (ps++qs) = applyPatches base (applyPatches base m ps) qs :=
  foldl_append

lemma applyPatches_group (base off : ℕ) (m : ℕ → Byte) (hg : g.length = 16) :
    applyPatches base m (groupPatches off g) = patch m (base+off) g := by
  have hword : ∀ i,i+4 ≤ 16 → writeLe32 (readLe32 g i) = (g.drop i).take 4 :=
    fun i hi => writeLe32_readLe32 (by omega)
  have hlen : ∀ i,i+4 ≤ 16 → ((g.drop i).take 4).length = 4 := by
    intro i hi
    rw [length_take,length_drop]
    omega
  have hjoin : ∀ i,i+4 ≤ 16 → ∀ m' : ℕ → Byte,m' = patch m (base+off) (g.take i) →
      patch m' (base+(off+i)) ((g.drop i).take 4) = patch m (base+off) (g.take (i+4)) := by
    intro i hi m' hm
    have htake : (g.take i).length = i := by rw [length_take]; omega
    have happend := patch_append m (base+off) (g.take i) ((g.drop i).take 4)
    rw [htake,Nat.add_assoc] at happend
    rw [hm,happend,take_add]
  have hall : g.take 16 = g := take_of_length_le hg.le
  simp only [applyPatches,groupPatches,map_cons,map_nil,foldl_cons,foldl_nil]
  rw [hword 0 (by decide),hword 4 (by decide),hword 8 (by decide),hword 12 (by decide),
    hjoin 0 (by decide) m (by rw [take_zero,patch_nil]),hjoin 4 (by decide) _ rfl,
    hjoin 8 (by decide) _ rfl,hjoin 12 (by decide) _ rfl,hall]

lemma applyPatches_image (base : ℕ) (image : List Byte) (a n : ℕ) (hn : 16 ∣ n)
    (h : a+n = image.length) (m : ℕ → Byte) :
    applyPatches base (patch m (base+a) (imageFrom image a n)) (patchesFrom image a n) =
      patch m (base+a) (image.drop a) := by
  induction a, n, hn using groups_induction generalizing m with
  | done a _ =>
    rw [drop_eq_nil_of_le (by omega)]
    rfl
  | step a n hn _ ih =>
    have hg := group_length h
    have hd := defuseGroup_length hg
    have hsplit : image.drop a = group image a++image.drop (a+16) := by
      rw [group,← drop_drop]
      exact (take_append_drop 16 _).symm
    have himage := patch_append m (base+a) (defuseGroup (group image a)) (imageFrom image (a+16) n)
    have hwhole := patch_append m (base+a) (group image a) (image.drop (a+16))
    rw [hd,Nat.add_assoc] at himage
    rw [hg,Nat.add_assoc] at hwhole
    rw [imageFrom_step image a hn,patchesFrom_step image a hn,applyPatches_append,← himage,
      hsplit,← hwhole,← ih (by omega)]
    congr 1
    by_cases hcmd : romTakesAsCommand (group image a) = true
    · -- the blank group is overwritten before the patches behind it
      rw [if_pos hcmd,applyPatches_group base a _ hg]
      rw [← patch_comm _ _ _ (by omega),patch_patch_same m (base+a) (hd.trans hg.symm)]
    · rw [if_neg hcmd,defuseGroup,if_neg hcmd]
      rfl

end Memory

variable {r : Rom}

section Feeding

lemma feed_append (r : Rom) (xs ys : List Byte) : r.feed (xs++ys) = (r.feed xs).feed ys :=
  foldl_append

lemma feed_pieces (r : Rom) (pieces : List (List Byte)) :
    pieces.foldl Rom.feed r = r.feed pieces.flatten := by
  induction pieces generalizing r with
  | nil => rfl
  | cons p ps ih => rw [foldl_cons,ih,flatten_cons,feed_append]

lemma feed_rest (r : Rom) (g : List Byte) (hne : g ≠ []) (h : r.part.length+g.length = 16) :
    r.feed g = Rom.group {r with part := []} (r.part++g) := by
  induction g generalizing r with
  | nil => exact absurd rfl hne
  | cons b g ih =>
    have hstep : r.feed (b::g) = (r.byte b).feed g := rfl
    rw [length_cons] at h
    cases g with
    | nil =>
      have hfull : (r.part++[b]).length = cdbSize := by
        rw [length_append]
        exact h
      rw [hstep,Rom.byte]
      simp only [if_pos hfull]
      rfl
    | cons c g =>
      rw [length_cons] at h
      have hpart : (r.part++[b]).length ≠ cdbSize := by
        rw [length_append,length_singleton,cdbSize]
        omega
      have hbyte : r.byte b = {r with part := r.part++[b]} := if_neg hpart
      rw [hstep,hbyte,ih _ (cons_ne_nil _ _) (by simp; omega)]
      simp only [append_assoc,singleton_append]

lemma feed_group (hr : r.part = []) (hg : g.length = 16) :
    r.feed g = r.group g := by
  have hne : g ≠ [] := by
    rintro rfl
    cases hg
  have hpart : ({r with part := []} : Rom) = r := by rw [← hr]
  rw [feed_rest r g hne (by rw [hr,hg]; rfl),hpart,hr,nil_append]

lemma group_stored {addr left : ℕ} (hload : r.loading = some (addr,left))
    (hg : romTakesAsCommand g = false) :
    r.group g = {r with
      mem := patch r.mem addr g,
      loading := if left ≤ cdbSize then none else some (addr+cdbSize,left-cdbSize)} := by
  rw [Rom.group,hload]
  simp only [hg,Bool.false_eq_true,if_false]

lemma feed_image (k : ℕ) (hr : r.part = []) {addr : ℕ}
    (hload : r.loading = some (addr,16*(k+1))) (hlen : image.length = 16*(k+1))
    (hsafe : ∀ i,16*i < image.length → romTakesAsCommand (group image (16*i)) = false) :
    r.feed image = {r with mem := patch r.mem addr image,loading := none} := by
  induction k generalizing r addr image with
  | zero =>
    have hfirst : group image 0 = image := take_of_length_le hlen.le
    have hcmd := hsafe 0 (by omega)
    rw [Nat.mul_zero,hfirst] at hcmd
    rw [feed_group hr hlen,group_stored hload hcmd,if_pos (by decide)]
  | succ k ih =>
    have htake : (image.take 16).length = 16 := by rw [length_take]; omega
    have hsplit := take_append_drop 16 image
    have hcmd := hsafe 0 (by omega)
    rw [Nat.mul_zero,← hsplit,group_append_zero htake] at hcmd
    have hrest : ∀ i,16*i < (image.drop 16).length →
        romTakesAsCommand (group (image.drop 16) (16*i)) = false := by
      intro i hi
      rw [length_drop] at hi
      have h := hsafe (i+1) (by omega)
      rwa [← hsplit,group_append_succ htake] at h
    have hmore : ¬16*(k+1+1) ≤ cdbSize := by rw [cdbSize]; omega
    have hleft : 16*(k+1+1)-cdbSize = 16*(k+1) := by rw [cdbSize]; omega
    have hfirst := group_stored hload hcmd
    rw [if_neg hmore,hleft] at hfirst
    have hjoin := patch_append r.mem addr (image.take 16) (image.drop 16)
    rw [htake,hsplit] at hjoin
    have hnext := ih
      (r := ⟨r.die,patch r.mem addr (image.take 16),some (addr+16,16*(k+1)),r.part,r.out⟩)
      hr rfl (by rw [length_drop]; omega) hrest
    nth_rewrite 1 [← hsplit]
    rw [feed_append,feed_group hr htake,hfirst]
    simp only [hjoin] at hnext
    exact hnext

end Feeding

section Commanding

/-- A command of the host as the ROM reads it. -/
structure IsCdb (op addr size : ℕ) (cdb : List Byte) : Prop where
  length : cdb.length = 16
  half : readLe32 cdb 0 % 65536 = 0xC0+256*op
  addr : readLe32 cdb 2 = addr
  size : readLe32 cdb 6 = size

lemma buildCdb_eq (op : ℕ) {addr size : ℕ} (hop : op < 256) (haddr : addr < 4294967296)
    (hsize : size < 4294967296) :
    ∃ cdb,buildCdb op addr size = some cdb ∧ IsCdb op addr size cdb := by
  rw [buildCdb,packLe32_of_lt haddr,packLe32_of_lt hsize]
  refine ⟨_,rfl,?_⟩
  generalize (65536-_ % 65536) % 65536 = sum
  have hlayout : [0xC0,BitVec.ofNat 8 op]++writeLe32 addr++writeLe32 size++
      [0,0,0,0]++writeLe16 sum =
      [0xC0,BitVec.ofNat 8 op]++(writeLe32 addr++(writeLe32 size++([0,0,0,0]++writeLe16 sum))) := by
    simp only [append_assoc]
  have hbyte : (BitVec.ofNat 8 op).toNat = op := by
    rw [BitVec.toNat_ofNat,Nat.mod_eq_of_lt hop]
  have hset : BitVec.toNat (0xC0 : Byte) = 0xC0 := rfl
  refine ⟨by simp,?_,?_,?_⟩
  · simp only [readLe32,writeLe32,cons_append,getD_cons_zero,getD_cons_succ,
      nil_append,hbyte,hset]
    omega
  · rw [hlayout]
    exact (readLe32_append [0xC0,BitVec.ofNat 8 op] _).trans (readLe32_writeLe32 addr haddr _)
  · rw [hlayout,← append_assoc]
    exact (readLe32_append ([0xC0,BitVec.ofNat 8 op]++writeLe32 addr) _).trans
      (readLe32_writeLe32 size hsize _)

lemma writes_flatten (cdb data : List Byte) : (writes cdb data).flatten = cdb++data := by
  rw [writes,flatten_cons,append_assoc,← flatMap_def]
  congr 1
  by_cases hlen : writePiece ≤ data.length
  · rw [spans_flatMap_list (fun _ => by decide) data writePiece _ (by omega),take_append_drop]
  · rw [Nat.sub_eq_zero_of_le (by omega),spans_zero,flatMap_nil,append_nil,
      take_of_length_le (by omega)]

lemma find_echo (cdb : List Byte) : find (cdb.take cdbEcho) (echo cdb) = some 0 := by
  have hstarts : (cdb.take cdbEcho).isPrefixOf (echo cdb) = true := by
    rw [List.isPrefixOf_iff_prefix,echo,append_assoc]
    exact prefix_append _ _
  have htails : ∃ rest,(echo cdb).tails = echo cdb::rest := by
    cases echo cdb with
    | nil => exact ⟨[],rfl⟩
    | cons b bs => exact ⟨bs.tails,tails_cons b bs⟩
  obtain ⟨rest,htails⟩ := htails
  rw [find,htails,findIdx?_cons,hstarts]
  rfl

variable {cdb : List Byte}

lemma echo_length (h : cdb.length = 16) : (echo cdb).length = 16 := by
  simp [echo,h,cdbStatus]

lemma echo_status (h : cdb.length = 16) :
    (echo cdb).getD (0+cdbStatus) 0 = 0 := by
  have htake : (cdb.take cdbStatus).length = 13 := by simp [h,cdbStatus]
  rw [echo,append_assoc,getD_append_right _ _ _ _ (by rw [htake]; decide),htake]
  rfl

lemma command_ok {op addr size : ℕ} {cdb data : List Byte} (hcdb : buildCdb op addr size = some cdb)
    (hlen : cdb.length = 16) {r r' : Rom} (hfeed : r.feed (cdb++data) = r')
    (hout : r'.out = echo cdb) :
    command op addr size data 0 r = (.ok [],{r' with out := []}) := by
  have hwrite : (writes cdb data).foldl Rom.feed r = r' := by
    rw [feed_pieces,writes_flatten,hfeed]
  have hmodify : (modify fun r => (writes cdb data).foldl Rom.feed r : Upload PUnit) r =
      (.ok ⟨⟩,r') := by
    rw [← hwrite]
    rfl
  have hget : (get : Upload Rom) r' = (.ok r',r') := rfl
  rw [command,hcdb]
  dsimp only
  rw [bind_ok hmodify,bind_ok hget,hout,find_echo]
  have hshort : ¬(echo cdb).length < 0+cdbSize+0 := by rw [echo_length hlen]; decide
  have hdrop : (echo cdb).drop (0+cdbSize+0) = [] :=
    drop_eq_nil_of_le (echo_length hlen).le
  simp only [if_neg hshort,hdrop,echo_status hlen,take_zero]
  rfl

/-- The ROM between two commands, when the host has taken all that it sent. -/
structure Rom.Idle (r : Rom) : Prop where
  loading : r.loading = none
  part : r.part = []
  out : r.out = []

lemma Rom.Idle.eq (hr : r.Idle) : (⟨r.die,r.mem,none,[],[]⟩ : Rom) = r := by
  obtain ⟨die,mem,loading,part,out⟩ := r
  obtain ⟨h₁,h₂,h₃⟩ := hr
  dsimp only at h₁ h₂ h₃
  subst h₁ h₂ h₃
  rfl

lemma feed_cdb (hr : r.Idle) (hlen : cdb.length = 16)
    (hcmd : romTakesAsCommand cdb = true) : r.feed cdb = r.run cdb := by
  rw [feed_group hr.part hlen,Rom.group,hr.loading]
  exact if_pos hcmd

lemma run_wrloader (hr : r.Idle) {addr size : ℕ} (h : IsCdb opWrloader addr size cdb) :
    romTakesAsCommand cdb = true ∧
      r.run cdb = ⟨r.die,r.mem,some (addr,size),[],echo cdb⟩ := by
  have hhalf : readLe32 cdb 0 % 65536 = 0x02C0 := h.half
  have hword : readLe32 cdb 0 ≠ 0x81C0 := by omega
  refine ⟨by simp [romTakesAsCommand,hhalf],?_⟩
  rw [Rom.run]
  simp only [if_neg hword,if_pos hhalf,h.addr,h.size,hr.out,hr.part,nil_append,append_nil]

lemma run_addrWrite (hr : r.Idle) {addr size : ℕ} (h : IsCdb opAddrWrite addr size cdb) :
    romTakesAsCommand cdb = true ∧
      r.run cdb = ⟨r.die,patch r.mem addr (writeLe32 size),none,[],echo cdb⟩ := by
  have hhalf : readLe32 cdb 0 % 65536 = 0x03C0 := h.half
  have hword : readLe32 cdb 0 ≠ 0x81C0 := by omega
  have hload : readLe32 cdb 0 % 65536 ≠ 0x02C0 := by omega
  refine ⟨by simp [romTakesAsCommand,hhalf],?_⟩
  rw [Rom.run]
  simp only [if_neg hword,if_neg hload,if_pos hhalf,h.addr,h.size,hr.out,hr.part,hr.loading,
    nil_append,append_nil]

lemma writeBack_ok (base : ℕ) (ps : List (ℕ × ℕ))
    (hps : ∀ p ∈ ps,base+p.1 < 4294967296 ∧ p.2 < 4294967296) (hr : r.Idle) :
    writeBack base ps r = (.ok (),{r with mem := applyPatches base r.mem ps}) := by
  induction ps generalizing r with
  | nil => rfl
  | cons p ps ih =>
    rw [forall_mem_cons] at hps
    obtain ⟨cdb,hcdb,his⟩ := buildCdb_eq opAddrWrite (by decide) hps.1.1 hps.1.2
    obtain ⟨hcmd,hrun⟩ := run_addrWrite hr his
    have hfeed : r.feed (cdb++[]) =
        ⟨r.die,patch r.mem (base+p.1) (writeLe32 p.2),none,[],echo cdb⟩ := by
      rw [append_nil,feed_cdb hr his.length hcmd,hrun]
    have hcommand := command_ok hcdb his.length hfeed rfl
    rw [writeBack,bind_ok hcommand,ih hps.2 ⟨rfl,rfl,rfl⟩]
    simp only [hr.loading,hr.part,hr.out]
    rfl

lemma waitDone_ok (hr : r.Idle) : command opWaitDone 0 0 [] 0 r = (.ok [],r) := by
  obtain ⟨cdb,hcdb,hlen,hcmd,hword⟩ : ∃ cdb,buildCdb opWaitDone 0 0 = some cdb ∧ cdb.length = 16 ∧
      romTakesAsCommand cdb = true ∧ readLe32 cdb 0 = 0x82C0 := by
    refine ⟨_,rfl,?_,?_,?_⟩ <;> decide
  have hfeed : r.feed (cdb++[]) = ⟨r.die,r.mem,none,[],echo cdb⟩ := by
    rw [append_nil,feed_cdb hr hlen hcmd,Rom.run,hword]
    simp [hr.loading,hr.part,hr.out]
  rw [command_ok hcdb hlen hfeed rfl]
  exact congrArg _ hr.eq

end Commanding

section Upload

lemma padded_length (loader : List Byte) :
    (padded loader).length = (loader.length+15)/16*16 := by
  rw [padded,length_append,length_replicate]
  omega

lemma padded_dvd (loader : List Byte) : 16 ∣ (padded loader).length := by
  rw [padded_length]
  exact Nat.dvd_mul_left 16 _

lemma mem_patchesFrom (a n : ℕ) (hn : 16 ∣ n) (h : a+n = image.length)
    {p : ℕ × ℕ} (hp : p ∈ patchesFrom image a n) :
    p.1 < image.length ∧ p.2 < 4294967296 := by
  induction a, n, hn using groups_induction with
  | done a _ => cases hp
  | step a n hn _ ih =>
    rw [patchesFrom_step image a hn,mem_append] at hp
    rcases hp with hp | hp
    · split_ifs at hp
      · obtain ⟨i,hi,rfl⟩ := mem_map.mp hp
        have hlt : i ≤ 12 := by
          simp only [mem_cons,not_mem_nil,or_false] at hi
          omega
        exact ⟨by dsimp only; omega,readLe32_lt _ _⟩
      · cases hp
    · exact ih (by omega) hp

lemma dieSram_le {die base : ℕ} (h : dieSram die = some base) : base ≤ 0xFE080000 := by
  rw [dieSram] at h
  split_ifs at h <;> cases h <;> decide

lemma wrloader_ok (hr : r.Idle) {base : ℕ} (hbase : base < 4294967296)
    {k : ℕ} (hlen : image.length = 16*(k+1)) (hmax : image.length ≤ 65536)
    (hsafe : ∀ i,16*i < image.length → romTakesAsCommand (group image (16*i)) = false) :
    command opWrloader base image.length image 0 r =
      (.ok [],{r with mem := patch r.mem base image}) := by
  obtain ⟨cdb,hcdb,his⟩ := buildCdb_eq opWrloader (by decide) hbase
    (show image.length < 4294967296 by omega)
  obtain ⟨hcmd,hrun⟩ := run_wrloader hr his
  have hload : (⟨r.die,r.mem,some (base,image.length),[],echo cdb⟩ : Rom).loading =
      some (base,16*(k+1)) := by rw [hlen]
  have hfeed : r.feed (cdb++image) = ⟨r.die,patch r.mem base image,none,[],echo cdb⟩ := by
    rw [feed_append,feed_cdb hr his.length hcmd,hrun,feed_image k rfl hload hlen hsafe]
  rw [command_ok hcdb his.length hfeed rfl,hr.loading,hr.part,hr.out]

/-- The loader arrives: nothing in the payload is run, and after the patches the SRAM holds the
loader padded to whole groups. -/
theorem loader_uploaded {die base : ℕ} (hdie : dieSram die = some base) {loader : List Byte}
    (hmin : 8 ≤ loader.length) (hmax : loader.length ≤ 65536) (hbase : readLe32 loader 4 = base)
    {r : Rom} (hr : r.Idle) :
    (∀ off,16 ∣ off → off < (defuseLoader loader).1.length →
      romTakesAsCommand (group (defuseLoader loader).1 off) = false) ∧
    16 ∣ (defuseLoader loader).1.length ∧ (defuseLoader loader).1.length ≤ 65536 ∧
    sendLoader die loader r = (.ok (),{r with
      mem := patch r.mem base
        (loader++List.replicate ((loader.length+15)/16*16-loader.length) 0)}) := by
  change _ ∧ _ ∧ _ ∧ _ = (_,{r with mem := patch r.mem base (padded loader)})
  have hdvd := padded_dvd loader
  have hpad := padded_length loader
  have hlen := imageFrom_length (padded loader) 0 _ hdvd (Nat.zero_add _)
  have hsafe : ∀ i,16*i < (imageFrom (padded loader) 0 (padded loader).length).length →
      romTakesAsCommand (group (imageFrom (padded loader) 0 (padded loader).length) (16*i)) =
        false := by
    intro i hi
    rw [hlen] at hi
    exact imageFrom_safe (padded loader) 0 _ hdvd (Nat.zero_add _) i hi
  have hle : (padded loader).length ≤ 65536 := by omega
  have hbound := dieSram_le hdie
  rw [defuseLoader_eq]
  refine ⟨?_,?_,?_,?_⟩
  · rintro off ⟨i,rfl⟩ hoff
    exact hsafe i hoff
  · rw [hlen]
    exact hdvd
  · rw [hlen]
    exact hle
  · have himage := applyPatches_image base (padded loader) 0 _ hdvd (Nat.zero_add _) r.mem
    rw [Nat.add_zero,drop_zero] at himage
    obtain ⟨k,hk⟩ : ∃ k,(padded loader).length = 16*(k+1) := by
      obtain ⟨j,hj⟩ := hdvd
      exact ⟨j-1,by omega⟩
    have hsend := wrloader_ok hr (show base < 4294967296 by omega) (hlen.trans hk)
      (hlen.le.trans hle) hsafe
    have hback := writeBack_ok base (patchesFrom (padded loader) 0 (padded loader).length)
      (by
        intro p hp
        have hbounds := mem_patchesFrom 0 _ hdvd (Nat.zero_add _) hp
        omega)
      (r := {r with mem := patch r.mem base (imageFrom (padded loader) 0 (padded loader).length)})
      ⟨hr.loading,hr.part,hr.out⟩
    rw [himage] at hback
    rw [sendLoader,if_neg (by omega),if_neg (by rw [romChunk]; omega),hbase,hdie,
      if_neg (not_not.mpr rfl),defuseLoader_eq]
    dsimp only
    have hwait := waitDone_ok (r := {r with mem := patch r.mem base (padded loader)})
      ⟨hr.loading,hr.part,hr.out⟩
    rw [bind_ok hsend,bind_ok hback,bind_ok hwait]
    rfl

/-- A loader whose header reads as a WRLOADER command. -/
def smallLoader : List Byte := [0xC0,0x02,0,0,0,0,0x7C,0xF0]

def blankRom : Rom := ⟨0x70210000,fun _ => 0,none,[],[]⟩

theorem smallLoader_uploaded :
    (∀ off,16 ∣ off → off < (defuseLoader smallLoader).1.length →
      romTakesAsCommand (group (defuseLoader smallLoader).1 off) = false) ∧
    16 ∣ (defuseLoader smallLoader).1.length ∧ (defuseLoader smallLoader).1.length ≤ 65536 ∧
    sendLoader 0x70210000 smallLoader blankRom =
      (.ok (),{blankRom with
        mem := patch blankRom.mem 0xF07C0000 (smallLoader++List.replicate 8 0)}) :=
  loader_uploaded rfl (by decide) (by decide) (by decide) ⟨rfl,rfl,rfl⟩

end Upload

end Defib.Novatek
