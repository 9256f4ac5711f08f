import Defib.Endian
import Defib.Words
import Mathlib.Tactic.IntervalCases

/-!
# Where the SPL ends

The SPL of a firmware image ends at its compressed payload. `_detect_spl_size` of the host and
`detectSplSize` of the web page look for the first LZMA or gzip header from 0x4000 on, round
its position down to 1 KiB and cap it. They differ where the end of the file cuts a header off:
an index past the end raises in Python and is `undefined` in JavaScript, and a slice past the
end is short. Sizes are of any type of numbers.
-/
namespace Defib.SplSize
open List Endian Words

inductive IndexError where
  | outOfRange
  deriving DecidableEq, Repr

def index (firmware : List Byte) (i : ℕ) : Except IndexError Byte :=
  match firmware[i]? with
  | some b => .ok b
  | none => .error .outOfRange

/-- `VALID_LZMA_DICT`: 64 KiB to 16 MiB. -/
def validLzmaDict (ds : ℕ) : Bool := (List.range' 16 9).any fun n => ds = 2^n

/-- The number of positions that are scanned: the length of `firmware[0x4000:0x10000]`. -/
def scanned (firmware : List Byte) : ℕ := ((firmware.take 0x10000).drop 0x4000).length

section
variable {S : Type} [NatCast S] [LT S] [DecidableLT S]

/-- A position rounded down to 1 KiB, and not above the limit. -/
def capped (sramLimit : Option S) (i : ℕ) : S :=
  let detected : S := ((i-i%0x400 : ℕ) : S)
  match sramLimit with
  | some limit => if limit < detected then limit else detected
  | none => detected

/-- Whether the host finds a header at `i`. -/
def headerAt (firmware : List Byte) (i : ℕ) : Except IndexError Bool := do
  let b ← index firmware i
  if b = 0x5D then return validLzmaDict (ofLe ((firmware.drop (i+1)).take 4))
  else if b = 0x1F then
    let c ← index firmware (i+1)
    if c = 0x8B then
      let d ← index firmware (i+2)
      return d = 0x08
    else return false
  else return false

def scan (firmware : List Byte) (profileMax : S) (sramLimit : Option S) :
    (n i : ℕ) → Except IndexError S
  | 0,_ => return profileMax
  | n+1,i => do
    if ← headerAt firmware i then return capped sramLimit i
    else scan firmware profileMax sramLimit n (i+1)

def detectSplSize (firmware : List Byte) (profileMax : S) (sramLimit : Option S) :
    Except IndexError S :=
  scan firmware profileMax sramLimit (scanned firmware) 0x4000

namespace Web

def validLzmaDict (ds : ℕ) : Bool := 0x10000 ≤ ds && ds ≤ 0x1000000 && (ds &&& (ds-1)) = 0

/-- Bytes past the end are only compared here. -/
def headerAt (firmware : List Byte) (i : ℕ) : Bool :=
  if firmware[i]? = some 0x5D ∧ i+4 < firmware.length then
    let byte := fun k => (firmware.getD (i+k) 0).toNat
    validLzmaDict (byte 1 ||| (byte 2 <<< 8) ||| (byte 3 <<< 16) ||| (byte 4 <<< 24))
  else firmware[i]? = some 0x1F && firmware[i+1]? = some 0x8B && firmware[i+2]? = some 0x08

def scan (firmware : List Byte) (profileMax : S) (sramLimit : Option S) : (n i : ℕ) → S
  | 0,_ => profileMax
  | n+1,i =>
    if headerAt firmware i then capped sramLimit i
    else scan firmware profileMax sramLimit n (i+1)

def detectSplSize (firmware : List Byte) (profileMax : S) (sramLimit : Option S) : S :=
  scan firmware profileMax sramLimit (scanned firmware) 0x4000

end Web

end

variable {firmware : List Byte} {i : ℕ}

section Headers

lemma web_validLzmaDict (ds : ℕ) : Web.validLzmaDict ds = validLzmaDict ds := by
  rw [Bool.eq_iff_iff]
  simp only [Web.validLzmaDict,validLzmaDict,Bool.and_eq_true,decide_eq_true_eq,any_eq_true,
    mem_range'_1]
  constructor
  · rintro ⟨⟨hmin,hmax⟩,hand⟩
    obtain ⟨n,rfl⟩ := (Nat.and_sub_one_eq_zero_iff_isPowerOfTwo (by omega)).mp hand
    refine ⟨n,⟨?_,?_⟩,rfl⟩
    · exact (Nat.pow_le_pow_iff_right (show 1 < 2 by decide)).mp (show 2^16 ≤ 2^n from hmin)
    · have h := (Nat.pow_le_pow_iff_right (show 1 < 2 by decide)).mp (show 2^n ≤ 2^24 from hmax)
      omega
  · rintro ⟨n,⟨hmin,hmax⟩,rfl⟩
    refine ⟨⟨?_,?_⟩,(Nat.and_sub_one_eq_zero_iff_isPowerOfTwo (Nat.two_pow_pos n).ne').mpr ⟨n,rfl⟩⟩
    · exact Nat.pow_le_pow_right (show 0 < 2 by decide) (show 16 ≤ n from hmin)
    · exact Nat.pow_le_pow_right (show 0 < 2 by decide) (show n ≤ 24 by omega)

lemma validLzmaDict_three {a b c : Byte} (h : validLzmaDict (ofLe [a,b,c]) = true) :
    a = 0 ∧ b = 0 ∧ ∃ k < 8,c.toNat = 2^k := by
  obtain ⟨n,hn,hvalue⟩ := any_eq_true.mp h
  rw [mem_range'_1] at hn
  have ha := a.isLt
  have hb := b.isLt
  have hc := c.isLt
  have hsum : a.toNat+256*(b.toNat+256*c.toNat) = 2^n := of_decide_eq_true hvalue
  obtain ⟨k,rfl⟩ := Nat.exists_eq_add_of_le hn.1
  rw [Nat.pow_add] at hsum
  have hpow : c.toNat = 2^k ∧ a.toNat = 0 ∧ b.toNat = 0 := by omega
  refine ⟨BitVec.eq_of_toNat_eq hpow.2.1,BitVec.eq_of_toNat_eq hpow.2.2,k,?_,hpow.1⟩
  by_contra hk
  have h256 : 2^8 ≤ 2^k := Nat.pow_le_pow_right (by decide) (by omega)
  omega

lemma validLzmaDict_ge {ds : ℕ} (h : validLzmaDict ds = true) : 65536 ≤ ds := by
  obtain ⟨n,hn,hvalue⟩ := any_eq_true.mp h
  rw [mem_range'_1] at hn
  rw [of_decide_eq_true hvalue]
  exact Nat.pow_le_pow_right (show 0 < 2 by decide) (show 16 ≤ n from hn.1)

/-- A gzip header of which the end of the file leaves one or two bytes. -/
def CutGzip (firmware : List Byte) (i : ℕ) : Prop :=
  firmware[i]? = some 0x1F ∧
    (i+1 = firmware.length ∨ firmware[i+1]? = some 0x8B ∧ i+2 = firmware.length)

/-- An LZMA header that lacks its last byte, and whose other three bytes of dictionary size are
a size all the same: the file ends in 5D 00 00 and a power of two. -/
def CutLzma (firmware : List Byte) (i : ℕ) : Prop :=
  firmware[i]? = some 0x5D ∧ i+4 = firmware.length ∧
    validLzmaDict (ofLe (firmware.drop (i+1))) = true

lemma index_some {b : Byte} (h : firmware[i]? = some b) :
    index firmware i = .ok b := by
  rw [index,h]

lemma index_none (h : firmware.length ≤ i) :
    index firmware i = .error .outOfRange := by
  rw [index,getElem?_eq_none h]

lemma headerAt_plain {b : Byte} (h : firmware[i]? = some b) (h₁ : b ≠ 0x5D) (h₂ : b ≠ 0x1F) :
    headerAt firmware i = .ok false ∧ Web.headerAt firmware i = false := by
  have hlzma : ¬(firmware[i]? = some 0x5D ∧ i+4 < firmware.length) :=
    fun hc => h₁ (Option.some.inj (h.symm.trans hc.1))
  have hgzip : ¬firmware[i]? = some 0x1F := fun hc => h₂ (Option.some.inj (h.symm.trans hc))
  constructor
  · rw [headerAt,index_some h]
    simp only [bind,Except.bind,if_neg h₁,if_neg h₂]
    rfl
  · rw [Web.headerAt,if_neg hlzma,decide_eq_false hgzip]
    rfl

lemma headerAt_lzma (h : firmware[i]? = some 0x5D) :
    headerAt firmware i = .ok (validLzmaDict (ofLe ((firmware.drop (i+1)).take 4))) := by
  rw [headerAt,index_some h]
  rfl

lemma web_headerAt_lzma (h : firmware[i]? = some 0x5D) (hlen : i+4 < firmware.length) :
    Web.headerAt firmware i = validLzmaDict (ofLe ((firmware.drop (i+1)).take 4)) := by
  obtain ⟨a,b,c,d,rest,hdrop⟩ : ∃ a b c d rest,firmware.drop (i+1) = a::b::c::d::rest := by
    have hsize : 4 ≤ (firmware.drop (i+1)).length := by rw [length_drop]; omega
    match hd : firmware.drop (i+1),hsize with
    | a::b::c::d::rest,_ => exact ⟨a,b,c,d,rest,rfl⟩
  have hbyte : ∀ k,firmware.getD (i+(k+1)) 0 = (a::b::c::d::rest).getD k 0 := by
    intro k
    rw [← hdrop,getD_eq_getElem?_getD,getD_eq_getElem?_getD,getElem?_drop]
    congr 2
    omega
  rw [Web.headerAt,if_pos ⟨h,hlen⟩,hdrop]
  simp only [hbyte 0,hbyte 1,hbyte 2,hbyte 3,getD_cons_zero,getD_cons_succ,or_bytes,
    web_validLzmaDict,take_succ_cons,take_zero]

lemma web_headerAt_short (h : firmware[i]? = some 0x5D)
    (hlen : firmware.length ≤ i+4) : Web.headerAt firmware i = false := by
  have hnot : ¬(firmware[i]? = some 0x5D ∧ i+4 < firmware.length) := fun hc => by omega
  have hgzip : (some 0x5D : Option Byte) ≠ some 0x1F := by decide
  rw [Web.headerAt,if_neg hnot,h,decide_eq_false hgzip]
  rfl

lemma short_slice (hlen : firmware.length < i+4) :
    validLzmaDict (ofLe ((firmware.drop (i+1)).take 4)) = false := by
  have hsize : ((firmware.drop (i+1)).take 4).length ≤ 2 := by
    rw [length_take,length_drop]
    omega
  have hlt : ofLe ((firmware.drop (i+1)).take 4) < 65536 :=
    (ofLe_lt _).trans_le (Nat.pow_le_pow_right (by decide) hsize)
  rw [Bool.eq_false_iff]
  intro h
  have hge := validLzmaDict_ge h
  omega

lemma web_headerAt_gzip (h : firmware[i]? = some 0x1F) :
    Web.headerAt firmware i = (firmware[i+1]? = some 0x8B && firmware[i+2]? = some 0x08) := by
  have hlzma : (some 0x1F : Option Byte) ≠ some 0x5D := by decide
  have hnot : ¬(firmware[i]? = some 0x5D ∧ i+4 < firmware.length) := by
    rw [h]
    exact fun hc => hlzma hc.1
  rw [Web.headerAt,if_neg hnot,h,decide_eq_true rfl,Bool.true_and]

lemma headerAt_gzip {d : Byte} (hb : firmware[i]? = some 0x1F)
    (hc : firmware[i+1]? = some 0x8B) (hd : firmware[i+2]? = some d) :
    headerAt firmware i = .ok (d = 0x08) := by
  rw [headerAt,index_some hb,index_some hc,index_some hd]
  rfl

lemma headerAt_not_gzip {c : Byte} (hb : firmware[i]? = some 0x1F)
    (hc : firmware[i+1]? = some c) (hne : c ≠ 0x8B) : headerAt firmware i = .ok false := by
  rw [headerAt,index_some hb,index_some hc]
  change (if c = 0x8B then _ else _) = _
  exact if_neg hne

lemma headerAt_cutGzip (h : CutGzip firmware i) :
    headerAt firmware i = .error .outOfRange := by
  obtain ⟨hb,hend⟩ := h
  rw [headerAt,index_some hb]
  obtain hend | ⟨hc,hend⟩ := hend
  · rw [index_none (i := i+1) (by omega)]
    rfl
  · rw [index_some hc,index_none (i := i+2) (by omega)]
    rfl

lemma headerAt_cutLzma (h : CutLzma firmware i) :
    headerAt firmware i = .ok true ∧ Web.headerAt firmware i = false := by
  obtain ⟨hb,hend,hvalid⟩ := h
  have htake : (firmware.drop (i+1)).take 4 = firmware.drop (i+1) := by
    rw [take_of_length_le]
    rw [length_drop]
    omega
  refine ⟨?_,web_headerAt_short hb hend.ge⟩
  rw [headerAt_lzma hb,htake,hvalid]

lemma headerAt_eq (hi : i < firmware.length)
    (hgzip : ¬CutGzip firmware i) (hlzma : ¬CutLzma firmware i) :
    headerAt firmware i = .ok (Web.headerAt firmware i) := by
  have hb := getElem?_eq_getElem hi
  by_cases h₁ : firmware[i] = 0x5D
  · rw [h₁] at hb
    rw [headerAt_lzma hb]
    by_cases hlen : i+4 < firmware.length
    · rw [web_headerAt_lzma hb hlen]
    · rw [web_headerAt_short hb (Nat.le_of_not_lt hlen)]
      by_cases hshort : firmware.length < i+4
      · rw [short_slice hshort]
      · have hend : i+4 = firmware.length := by omega
        have htake : (firmware.drop (i+1)).take 4 = firmware.drop (i+1) := by
          rw [take_of_length_le]
          rw [length_drop]
          omega
        rw [htake,Bool.eq_false_iff.mpr fun hvalid => hlzma ⟨hb,hend,hvalid⟩]
  by_cases h₂ : firmware[i] = 0x1F
  · rw [h₂] at hb
    have hnext : i+1 < firmware.length := by
      by_contra hend
      exact hgzip ⟨hb,.inl (by omega)⟩
    have hc := getElem?_eq_getElem hnext
    rw [web_headerAt_gzip hb]
    by_cases h₃ : firmware[i+1] = 0x8B
    · rw [h₃] at hc
      have hlast : i+2 < firmware.length := by
        by_contra hend
        exact hgzip ⟨hb,.inr ⟨hc,by omega⟩⟩
      have hd := getElem?_eq_getElem hlast
      rw [headerAt_gzip hb hc hd,hc,hd,decide_eq_true rfl,Bool.true_and]
      simp only [Option.some_inj]
    · have hnot : ¬firmware[i+1]? = some 0x8B := by
        rw [hc]
        exact fun heq => h₃ (Option.some.inj heq)
      rw [headerAt_not_gzip hb hc h₃,decide_eq_false hnot,Bool.false_and]
  · obtain ⟨hhost,hweb⟩ := headerAt_plain hb h₁ h₂
    rw [hhost,hweb]

lemma plain_after_cutLzma {i j : ℕ} (h : CutLzma firmware i) (hij : i < j)
    (hj : j < firmware.length) :
    ∃ b,firmware[j]? = some b ∧ b ≠ 0x5D ∧ b ≠ 0x1F := by
  obtain ⟨_,hend,hvalid⟩ := h
  obtain ⟨a,b,c,hdrop⟩ : ∃ a b c,firmware.drop (i+1) = [a,b,c] := by
    have hsize : (firmware.drop (i+1)).length = 3 := by rw [length_drop]; omega
    exact length_eq_three.mp hsize
  rw [hdrop] at hvalid
  obtain ⟨rfl,rfl,k,hk,hc⟩ := validLzmaDict_three hvalid
  have hbyte : firmware[j]? = [0,0,c][j-(i+1)]? := by
    rw [← hdrop,getElem?_drop]
    congr 1
    omega
  have hlast : c ≠ 0x5D ∧ c ≠ 0x1F := by
    constructor
    · rintro rfl
      interval_cases k <;> cases hc
    · rintro rfl
      interval_cases k <;> cases hc
  have hcases : j-(i+1) = 0 ∨ j-(i+1) = 1 ∨ j-(i+1) = 2 := by omega
  obtain h0 | h1 | h2 := hcases
  · exact ⟨0,by rw [hbyte,h0]; rfl,by decide,by decide⟩
  · exact ⟨0,by rw [hbyte,h1]; rfl,by decide,by decide⟩
  · exact ⟨c,by rw [hbyte,h2]; rfl,hlast⟩

end Headers

section Scans
variable {S : Type} [NatCast S] [LT S] [DecidableLT S]

lemma scan_true (h : headerAt firmware i = .ok true)
    (profileMax : S) (sramLimit : Option S) (n : ℕ) :
    scan firmware profileMax sramLimit (n+1) i = .ok (capped sramLimit i) := by
  rw [scan,h]
  rfl

lemma scan_false (h : headerAt firmware i = .ok false)
    (profileMax : S) (sramLimit : Option S) (n : ℕ) :
    scan firmware profileMax sramLimit (n+1) i = scan firmware profileMax sramLimit n (i+1) := by
  rw [scan,h]
  rfl

lemma scan_error {e : IndexError}
    (h : headerAt firmware i = .error e) (profileMax : S) (sramLimit : Option S) (n : ℕ) :
    scan firmware profileMax sramLimit (n+1) i = .error e := by
  rw [scan,h]
  rfl

lemma web_scan_succ (firmware : List Byte) (profileMax : S) (sramLimit : Option S) (n i : ℕ) :
    Web.scan firmware profileMax sramLimit (n+1) i =
      if Web.headerAt firmware i then capped sramLimit i
      else Web.scan firmware profileMax sramLimit n (i+1) := rfl

lemma web_scan_none (profileMax : S) (sramLimit : Option S) (n i : ℕ)
    (h : ∀ j,i ≤ j → j < i+n → Web.headerAt firmware j = false) :
    Web.scan firmware profileMax sramLimit n i = profileMax := by
  induction n generalizing i with
  | zero => rfl
  | succ n ih =>
    rw [web_scan_succ,h i le_rfl (by omega),if_neg Bool.false_ne_true]
    exact ih (i+1) fun j hj hlt => h j (by omega) (by omega)

/-- What the end of the file may cut off at `i` without a difference: something behind a whole
header, or an LZMA header that leads to the size of the profile. -/
def Harmless (firmware : List Byte) (profileMax : S) (sramLimit : Option S) (a i : ℕ) : Prop :=
  (∃ j,a ≤ j ∧ j < i ∧ Web.headerAt firmware j = true) ∨
    CutLzma firmware i ∧ capped sramLimit i = profileMax

lemma plain_not_cut {b : Byte} (h : firmware[i]? = some b)
    (h₁ : b ≠ 0x5D) (h₂ : b ≠ 0x1F) : ¬CutGzip firmware i ∧ ¬CutLzma firmware i :=
  ⟨fun hc => h₂ (Option.some.inj (h.symm.trans hc.1)),
    fun hc => h₁ (Option.some.inj (h.symm.trans hc.1))⟩

lemma scan_eq_iff (firmware : List Byte) (profileMax : S) (sramLimit : Option S) (n a : ℕ)
    (hlen : a+n ≤ firmware.length) :
    scan firmware profileMax sramLimit n a = .ok (Web.scan firmware profileMax sramLimit n a) ↔
      ∀ i,a ≤ i → i < a+n → CutGzip firmware i ∨ CutLzma firmware i →
        Harmless firmware profileMax sramLimit a i := by
  induction n generalizing a with
  | zero =>
    refine ⟨fun _ i hi hlt => ?_,fun _ => rfl⟩
    omega
  | succ n ih =>
    have hnone : ¬∃ j,a ≤ j ∧ j < a ∧ Web.headerAt firmware j = true := by
      rintro ⟨j,hj,hlt,_⟩
      omega
    by_cases hgzip : CutGzip firmware a
    · -- the host raises
      rw [scan_error (headerAt_cutGzip hgzip)]
      refine ⟨fun h => (by cases h),fun h => ?_⟩
      obtain hbefore | ⟨hlzma,_⟩ := h a le_rfl (by omega) (.inl hgzip)
      · exact absurd hbefore hnone
      · have hbyte : (0x1F : Byte) = 0x5D := Option.some.inj (hgzip.1.symm.trans hlzma.1)
        exact absurd hbyte (by decide)
    by_cases hlzma : CutLzma firmware a
    · -- the host stops here, the page goes on to the end
      have hafter := fun j hij hj => plain_after_cutLzma (j := j) hlzma hij hj
      have hweb : Web.scan firmware profileMax sramLimit (n+1) a = profileMax := by
        apply web_scan_none
        intro j hj hlt
        rcases Nat.eq_or_lt_of_le hj with rfl | hj
        · exact (headerAt_cutLzma hlzma).2
        · obtain ⟨b,hb,h₁,h₂⟩ := hafter j hj (by omega)
          exact (headerAt_plain hb h₁ h₂).2
      rw [scan_true (headerAt_cutLzma hlzma).1,hweb]
      constructor
      · intro h i hi hlt hcut
        rcases Nat.eq_or_lt_of_le hi with rfl | hi
        · exact .inr ⟨hlzma,Except.ok.inj h⟩
        · obtain ⟨b,hb,h₁,h₂⟩ := hafter i hi (by omega)
          obtain ⟨hnot₁,hnot₂⟩ := plain_not_cut hb h₁ h₂
          exact absurd hcut (not_or.mpr ⟨hnot₁,hnot₂⟩)
      · intro h
        obtain hbefore | ⟨_,hsize⟩ := h a le_rfl (by omega) (.inr hlzma)
        · exact absurd hbefore hnone
        · rw [hsize]
    have hhost := headerAt_eq (show a < firmware.length by omega) hgzip hlzma
    cases hheader : Web.headerAt firmware a with
    | true =>
      rw [hheader] at hhost
      rw [scan_true hhost,web_scan_succ,hheader,if_pos rfl]
      refine ⟨fun _ i hi _ hcut => ?_,fun _ => rfl⟩
      have hne : a ≠ i := by
        rintro rfl
        exact hcut.elim hgzip hlzma
      exact .inl ⟨a,le_rfl,by omega,hheader⟩
    | false =>
      rw [hheader] at hhost
      rw [scan_false hhost,web_scan_succ,hheader,if_neg Bool.false_ne_true,
        ih (a+1) (by omega)]
      constructor
      · intro h i hi hlt hcut
        have hne : a ≠ i := by
          rintro rfl
          exact hcut.elim hgzip hlzma
        obtain ⟨j,hj,hji,hfound⟩ | hsize := h i (by omega) (by omega) hcut
        · exact .inl ⟨j,by omega,hji,hfound⟩
        · exact .inr hsize
      · intro h i hi hlt hcut
        obtain ⟨j,hj,hji,hfound⟩ | hsize := h i (by omega) (by omega) hcut
        · have hne : a ≠ j := by
            rintro rfl
            rw [hheader] at hfound
            cases hfound
          exact .inl ⟨j,by omega,hji,hfound⟩
        · exact .inr hsize

lemma scanned_eq (firmware : List Byte) :
    scanned firmware = min firmware.length 0x10000-0x4000 := by
  rw [scanned,length_drop,length_take,Nat.min_comm]

lemma lt_length_of_cut (h : CutGzip firmware i ∨ CutLzma firmware i) : i < firmware.length := by
  rcases h with h | h
  · exact (List.getElem?_eq_some_iff.mp h.1).choose
  · exact (List.getElem?_eq_some_iff.mp h.1).choose

/-- Both give the same size, and the host does not raise, just when every header that the end of
the file cuts off in the scanned range is harmless. -/
theorem spl_size_agrees_iff (firmware : List Byte) (profileMax : S) (sramLimit : Option S) :
    detectSplSize firmware profileMax sramLimit =
        .ok (Web.detectSplSize firmware profileMax sramLimit) ↔
      ∀ i,0x4000 ≤ i → i < 0x10000 → CutGzip firmware i ∨ CutLzma firmware i →
        Harmless firmware profileMax sramLimit 0x4000 i := by
  have hscanned := scanned_eq firmware
  rw [detectSplSize,Web.detectSplSize]
  by_cases hlen : 0x4000 ≤ firmware.length
  · rw [scan_eq_iff _ _ _ _ _ (by omega)]
    refine forall₂_congr fun i hi => ?_
    constructor
    · intro h hlt hcut
      have hend := lt_length_of_cut hcut
      exact h (by omega) hcut
    · intro h hlt hcut
      exact h (by omega) hcut
  · have hzero : scanned firmware = 0 := by omega
    rw [hzero]
    refine ⟨fun _ i hi _ hcut => ?_,fun _ => rfl⟩
    have hend := lt_length_of_cut hcut
    omega

end Scans

/-- An image that ends in the first byte of a gzip header. -/
def endsInGzip : List Byte := List.replicate 0x4000 0++[0x1F]

/-- An image that ends in an LZMA header without its last byte. -/
def endsInLzma : List Byte := List.replicate 0x4000 0++[0x5D,0,0,1]

lemma getElem?_tail (xs : List Byte) (k : ℕ) :
    (List.replicate 0x4000 (0 : Byte)++xs)[0x4000+k]? = xs[k]? := by
  rw [getElem?_append_right (by rw [length_replicate]; omega),length_replicate,
    Nat.add_sub_cancel_left]

lemma scanned_tail {xs : List Byte} (h : xs.length ≤ 0xC000) :
    scanned (List.replicate 0x4000 (0 : Byte)++xs) = xs.length := by
  rw [scanned_eq,length_append,length_replicate]
  omega

theorem cut_header_differs :
    detectSplSize endsInGzip 0x6000 none = .error .outOfRange ∧
      Web.detectSplSize endsInGzip 0x6000 none = 0x6000 ∧
      detectSplSize endsInLzma 0x6000 none = .ok 0x4000 ∧
      Web.detectSplSize endsInLzma 0x6000 none = 0x6000 := by
  have hgzip : CutGzip endsInGzip 0x4000 :=
    ⟨getElem?_tail [0x1F] 0,.inl (by rw [endsInGzip,length_append,length_replicate]; rfl)⟩
  have hlzma : CutLzma endsInLzma 0x4000 := by
    refine ⟨getElem?_tail [0x5D,0,0,1] 0,?_,?_⟩
    · rw [endsInLzma,length_append,length_replicate]
      rfl
    · rw [endsInLzma,drop_append,drop_eq_nil_of_le (by rw [length_replicate]; omega),
        length_replicate]
      decide
  refine ⟨?_,?_,?_,?_⟩
  · rw [detectSplSize,endsInGzip,scanned_tail (by decide)]
    exact scan_error (headerAt_cutGzip hgzip) _ _ 0
  · have hnext : endsInGzip[0x4000+1]? = none := getElem?_tail [0x1F] 1
    have hweb : Web.headerAt endsInGzip 0x4000 = false := by
      rw [web_headerAt_gzip hgzip.1,hnext]
      rfl
    rw [Web.detectSplSize,endsInGzip,scanned_tail (by decide)]
    exact if_neg (Bool.eq_false_iff.mp hweb)
  · rw [detectSplSize,endsInLzma,scanned_tail (by decide)]
    exact scan_true (headerAt_cutLzma hlzma).1 _ _ 3
  · rw [Web.detectSplSize,endsInLzma,scanned_tail (by decide)]
    apply web_scan_none
    intro j hj hlt
    rcases Nat.eq_or_lt_of_le hj with rfl | hj
    · exact (headerAt_cutLzma hlzma).2
    · obtain ⟨b,hb,h₁,h₂⟩ := plain_after_cutLzma hlzma hj (by rw [← hlzma.2.1]; exact hlt)
      exact (headerAt_plain hb h₁ h₂).2

end Defib.SplSize
