import Defib.BootUpload
import Defib.MaximalRuns

/-!
# Zeroing long runs of 0xFF

`_zero_long_ff_runs` goes through the buffer it changes and remembers where the current run
started; a run that reaches the end is treated after the loop. What it changes lies before the
index it reads, so that it computes what the recursion on the input does, and that sets to zero
exactly the maximal runs that are long enough.
-/
namespace Defib.FfRuns
open List Words MaximalRuns
open BootUpload (ffRun zeroRuns zeroRuns_length)

/-- `for j in range(a, b): out[j] = 0` -/
def zeroFill (out : List Byte) (a b : ℕ) : List Byte :=
  (List.range' a (b-a)).foldl (fun out j => out.set j 0) out

structure Scan where
  out : List Byte
  /-- `none` is the -1 of the source. -/
  runStart : Option ℕ
  deriving DecidableEq, Repr

section Loop
variable (threshold : ℕ)

/-- A run that ends before `i` is zeroed if it is long. -/
def endRun (out : List Byte) (runStart : Option ℕ) (i : ℕ) : List Byte :=
  match runStart with
  | some a => if threshold ≤ i-a then zeroFill out a i else out
  | none => out

def step (s : Scan) (i : ℕ) : Scan :=
  if s.out.getD i 0 = 0xFF then
    if s.runStart.isNone then { s with runStart := some i } else s
  else ⟨endRun threshold s.out s.runStart i,none⟩

def zeroLongFfRuns (firmware : List Byte) : List Byte :=
  if firmware.tails.any (fun t => t.take threshold = List.replicate threshold 0xFF) then
    let s := (List.range firmware.length).foldl (step threshold) ⟨firmware,none⟩
    endRun threshold s.out s.runStart s.out.length
  else firmware

end Loop

/-! ### The loop and the recursion -/

lemma zeroFill_append (pre run post : List Byte) :
    zeroFill (pre++(run++post)) pre.length (pre.length+run.length) =
      pre++(List.replicate run.length 0++post) := by
  rw [zeroFill,Nat.add_sub_cancel_left]
  induction run generalizing pre with
  | nil => rfl
  | cons b run ih =>
    rw [length_cons,range'_succ,foldl_cons,cons_append,
      set_append_right _ _ le_rfl,Nat.sub_self,set_cons_zero]
    have hnext := ih (pre++[0])
    rw [length_append,length_singleton,append_assoc,singleton_append] at hnext
    rw [hnext,append_assoc,replicate_succ]
    rfl

variable {threshold : ℕ}

/-- Where a run of `r` bytes has started, if there is one. -/
def startOf (pre : List Byte) (r : ℕ) : Option ℕ := if r = 0 then none else some pre.length

lemma endRun_append (pre post : List Byte) (r : ℕ) :
    endRun threshold (pre++(List.replicate r 0xFF++post)) (startOf pre r) (pre.length+r) =
      pre++(ffRun threshold r++post) := by
  rw [startOf,ffRun]
  split_ifs with hzero hlong hlong
  · rw [hzero]; rfl
  · rw [hzero]; rfl
  · have hfill := zeroFill_append pre (List.replicate r 0xFF) post
    rw [length_replicate] at hfill
    rw [endRun,if_pos (by omega),hfill]
  · rw [endRun,if_neg (by omega)]

lemma step_ff (pre rest : List Byte) (r : ℕ) :
    step threshold ⟨pre++(List.replicate r 0xFF++0xFF::rest),startOf pre r⟩ (pre.length+r) =
      ⟨pre++(List.replicate (r+1) 0xFF++rest),startOf pre (r+1)⟩ := by
  have hread : (pre++(List.replicate r 0xFF++0xFF::rest)).getD (pre.length+r) 0 =
      (0xFF : Byte) := by
    rw [getD_append_right _ _ _ _ (by omega),getD_append_right _ _ _ _ (by simp)]
    simp
  have hmove : List.replicate r (0xFF : Byte)++0xFF::rest = List.replicate (r+1) 0xFF++rest := by
    rw [replicate_succ',append_assoc,singleton_append]
  rw [step,if_pos hread,hmove,startOf,startOf,if_neg (Nat.succ_ne_zero r)]
  split_ifs with hzero hnone hnone
  · subst hzero
    rfl
  · exact absurd rfl hnone
  · cases hnone
  · rfl

lemma step_other (pre rest : List Byte) (r : ℕ) {b : Byte} (hb : b ≠ 0xFF) :
    step threshold ⟨pre++(List.replicate r 0xFF++b::rest),startOf pre r⟩ (pre.length+r) =
      ⟨(pre++ffRun threshold r++[b])++rest,none⟩ := by
  have hread : (pre++(List.replicate r 0xFF++b::rest)).getD (pre.length+r) 0 = b := by
    rw [getD_append_right _ _ _ _ (by omega),getD_append_right _ _ _ _ (by simp)]
    simp
  rw [step,hread,if_neg hb,endRun_append]
  simp only [append_assoc,singleton_append]

lemma loop_eq_zeroRuns (rest pre : List Byte) (r : ℕ) {s : Scan}
    (hs : (List.range' (pre.length+r) rest.length).foldl (step threshold)
      ⟨pre++(List.replicate r 0xFF++rest),startOf pre r⟩ = s) :
    endRun threshold s.out s.runStart s.out.length = pre++zeroRuns threshold r rest := by
  induction rest generalizing pre r with
  | nil =>
    subst hs
    have hlen : (pre++(List.replicate r (0xFF : Byte)++[])).length = pre.length+r := by simp
    show endRun threshold _ _ (List.length _) = _
    rw [length_nil,range'_zero,foldl_nil,hlen,endRun_append,append_nil,zeroRuns]
  | cons b rest ih =>
    rw [length_cons,range'_succ,foldl_cons] at hs
    rw [zeroRuns]
    split
    next hb =>
      subst hb
      rw [step_ff] at hs
      exact ih pre (r+1) hs
    next hb =>
      rw [step_other pre rest r hb] at hs
      have hlen : (pre++ffRun threshold r++[b]).length = pre.length+r+1 := by
        simp only [length_append,length_singleton,ffRun,length_replicate]
      have hrest := ih (pre++ffRun threshold r++[b]) 0 (by rw [hlen]; exact hs)
      rw [hrest]
      simp only [append_assoc,singleton_append]

lemma zeroLongFfRuns_eq (firmware : List Byte) :
    zeroLongFfRuns threshold firmware =
      if firmware.tails.any (fun t => t.take threshold = List.replicate threshold 0xFF) then
        zeroRuns threshold 0 firmware
      else firmware := by
  rw [zeroLongFfRuns]
  split_ifs
  · rw [range_eq_range']
    exact loop_eq_zeroRuns firmware [] 0 rfl
  · rfl

lemma zeroLongFfRuns_twelve (firmware : List Byte) :
    zeroLongFfRuns 12 firmware = BootUpload.zeroLongFfRuns firmware :=
  zeroLongFfRuns_eq firmware

/-! ### The runs that are zeroed -/

/-- Position `i` lies in a maximal run of at least `t` bytes. -/
def InLongRun (t : ℕ) (firmware : List Byte) (i : ℕ) : Prop :=
  ∃ a b,MaximalRun firmware 0xFF a b ∧ t ≤ b-a ∧ a ≤ i ∧ i < b

/-- What position `i` holds when exactly the long runs are zeroed. -/
def Zeroed (t : ℕ) (firmware : List Byte) (i : ℕ) (x : Option Byte) : Prop :=
  (InLongRun t firmware i ∧ x = some 0) ∨ (¬InLongRun t firmware i ∧ x = firmware[i]?)

section Zeroed
variable {t a b i : ℕ} {firmware : List Byte}

lemma zeroed_of_run (h : MaximalRun firmware 0xFF a b) (ha : a ≤ i) (hb : i < b) :
    Zeroed t firmware i (some (if t ≤ b-a then 0 else 0xFF)) := by
  split_ifs with hlong
  · exact .inl ⟨⟨a,b,h,hlong,ha,hb⟩,rfl⟩
  · refine .inr ⟨?_,(h.filled i ha hb).symm⟩
    rintro ⟨c,d,hrun,hlen,hc,hd⟩
    have hcover := h.covers ha hb hrun.filled hc hd
    omega

lemma zeroed_of_ne (h : firmware[i]? ≠ some 0xFF) : Zeroed t firmware i firmware[i]? := by
  refine .inr ⟨?_,rfl⟩
  rintro ⟨a,b,hrun,_,ha,hb⟩
  exact h (hrun.filled i ha hb)

end Zeroed

section Recursion
variable {firmware pre rest : List Byte} {r : ℕ}

lemma getElem?_behind (hfirmware : firmware = pre++(List.replicate r 0xFF++rest)) :
    firmware[pre.length+r]? = rest.head? := by
  rw [hfirmware,getElem?_append_right (by omega),getElem?_append_right (by simp)]
  simp [head?_eq_getElem?]

lemma closed_run (hfirmware : firmware = pre++(List.replicate r 0xFF++rest))
    (hstart : ∀ j,j+1 = pre.length → firmware[j]? ≠ some 0xFF) (hrest : rest.head? ≠ some 0xFF) :
    MaximalRun firmware 0xFF pre.length (pre.length+r) := by
  refine ⟨?_,hstart,?_⟩
  · intro j hj hjr
    rw [hfirmware,getElem?_append_right hj,getElem?_append_left (by simp; omega),
      getElem?_replicate,if_pos (by omega)]
  · rwa [getElem?_behind hfirmware]

lemma zeroed_ffRun (hrun : MaximalRun firmware 0xFF pre.length (pre.length+r)) {k : ℕ}
    (hk : k < r) : Zeroed threshold firmware (pre.length+k) (ffRun threshold r)[k]? := by
  have hzeroed := zeroed_of_run (t := threshold) hrun (Nat.le_add_right _ k) (by omega)
  rw [Nat.add_sub_cancel_left] at hzeroed
  rwa [ffRun,getElem?_replicate,if_pos hk]

end Recursion

lemma zeroRuns_zeroed {firmware pre : List Byte} {r : ℕ} (rest : List Byte)
    (hfirmware : firmware = pre++(List.replicate r 0xFF++rest))
    (hstart : ∀ j,j+1 = pre.length → firmware[j]? ≠ some 0xFF) {k : ℕ} (hk : k < r+rest.length) :
    Zeroed threshold firmware (pre.length+k) (zeroRuns threshold r rest)[k]? := by
  induction rest generalizing pre r k with
  | nil =>
    rw [zeroRuns]
    exact zeroed_ffRun (closed_run hfirmware hstart (by simp)) hk
  | cons b rest ih =>
    rw [length_cons] at hk
    rw [zeroRuns]
    split
    next hb =>
      subst hb
      refine ih ?_ hstart (by omega)
      rw [hfirmware,replicate_succ',append_assoc,singleton_append]
    next hb =>
      have hhead : (b::rest).head? ≠ some 0xFF := fun h => hb (Option.some.inj h)
      have hbehind := getElem?_behind hfirmware
      have hrunLen : (ffRun threshold r).length = r := length_replicate
      rcases Nat.lt_trichotomy k r with hlt | rfl | hgt
      · rw [getElem?_append_left (by omega)]
        exact zeroed_ffRun (closed_run hfirmware hstart hhead) hlt
      · rw [getElem?_append_right (by omega),hrunLen,Nat.sub_self,getElem?_cons_zero]
        have hself := zeroed_of_ne (t := threshold) (hbehind ▸ hhead)
        rwa [hbehind] at hself
      · -- behind `b` a new run may start
        have hlen : (pre++(List.replicate r 0xFF++[b])).length = pre.length+r+1 := by
          simp only [length_append,length_replicate,length_singleton]
          omega
        have hsplit : firmware =
            (pre++(List.replicate r 0xFF++[b]))++(List.replicate 0 0xFF++rest) := by
          rw [hfirmware]
          simp
        have hstart' : ∀ j,j+1 = (pre++(List.replicate r 0xFF++[b])).length →
            firmware[j]? ≠ some 0xFF := by
          intro j hj
          obtain rfl : j = pre.length+r := by omega
          rw [hbehind]
          exact hhead
        have hrest := ih hsplit hstart' (show k-r-1 < 0+rest.length by omega)
        rw [getElem?_append_right (by omega),hrunLen,
          show k-r = k-r-1+1 by omega,getElem?_cons_succ]
        rwa [hlen,show pre.length+r+1+(k-r-1) = pre.length+k by omega] at hrest

lemma infix_of_long_run {t i : ℕ} {firmware : List Byte} (h : InLongRun t firmware i) :
    List.replicate t 0xFF <:+: firmware := by
  obtain ⟨a,b,hrun,hlen,_,_⟩ := h
  exact replicate_infix_iff.mpr ⟨a,fun j hj hjt => hrun.filled j hj (by omega)⟩

lemma inLongRun_of_filled {t a : ℕ} {firmware : List Byte} (ht : 1 ≤ t)
    (h : Filled firmware 0xFF a (a+t)) : InLongRun t firmware a := by
  obtain ⟨c,d,hc,hd,hrun⟩ := exists_maximalRun h
  exact ⟨c,d,hrun,by omega,hc,by omega⟩

lemma zeroLongFfRuns_zeroed (firmware : List Byte) (t i : ℕ) :
    Zeroed t firmware i (zeroLongFfRuns t firmware)[i]? := by
  rw [zeroLongFfRuns_eq]
  split_ifs with hrun
  · by_cases hi : i < firmware.length
    · have hsplit : firmware = []++(List.replicate 0 0xFF++firmware) := rfl
      have hzeroed : Zeroed t firmware (0+i) (zeroRuns t 0 firmware)[i]? :=
        zeroRuns_zeroed firmware hsplit nofun (by omega)
      rwa [Nat.zero_add] at hzeroed
    · rw [getElem?_eq_none (by rw [zeroRuns_length]; omega),
        ← getElem?_eq_none (Nat.le_of_not_lt hi)]
      exact zeroed_of_ne (by rw [getElem?_eq_none (Nat.le_of_not_lt hi)]; exact nofun)
  · exact .inr ⟨fun hlong => hrun (tails_any_iff.mpr (infix_of_long_run hlong)),rfl⟩

lemma zeroLongFfRuns_length (firmware : List Byte) (t : ℕ) :
    (zeroLongFfRuns t firmware).length = firmware.length := by
  rw [zeroLongFfRuns_eq]
  split_ifs
  · rw [zeroRuns_length,Nat.zero_add]
  · rfl

lemma zeroLongFfRuns_eq_iff (firmware : List Byte) :
    BootUpload.zeroLongFfRuns firmware = firmware ↔ ¬List.replicate 12 0xFF <:+: firmware := by
  rw [← zeroLongFfRuns_twelve]
  constructor
  · intro hsame hrun
    obtain ⟨a,hfilled⟩ := replicate_infix_iff.mp hrun
    rcases zeroLongFfRuns_zeroed firmware 12 a with ⟨_,hzero⟩ | ⟨hnot,_⟩
    · rw [hsame,hfilled a le_rfl (by omega)] at hzero
      exact absurd (Option.some.inj hzero) (by decide)
    · exact hnot (inLongRun_of_filled (by decide) hfilled)
  · intro hnot
    rw [zeroLongFfRuns_eq,if_neg fun h => hnot (tails_any_iff.mp h)]

/-- The result is as long as the image, has no run of `t` bytes left, and differs from the image
exactly on the maximal runs of at least `t` bytes, where it is zero. -/
theorem long_ff_runs_zeroed (firmware : List Byte) {t : ℕ} (ht : 1 ≤ t) :
    (zeroLongFfRuns t firmware).length = firmware.length ∧
    ¬List.replicate t 0xFF <:+: zeroLongFfRuns t firmware ∧
    (∀ i,(zeroLongFfRuns t firmware)[i]? ≠ firmware[i]? ↔ InLongRun t firmware i) ∧
    ∀ i,InLongRun t firmware i → (zeroLongFfRuns t firmware)[i]? = some 0 := by
  have hzeroed := zeroLongFfRuns_zeroed firmware t
  refine ⟨zeroLongFfRuns_length firmware t,?_,?_,?_⟩
  · intro hleft
    obtain ⟨a,hfilled⟩ := replicate_infix_iff.mp hleft
    -- what is left of 0xFF was there before, in a run that is not long
    have hkept : ∀ j,a ≤ j → j < a+t → ¬InLongRun t firmware j ∧ firmware[j]? = some 0xFF := by
      intro j hj hjt
      have hj' := hfilled j hj hjt
      rcases hzeroed j with ⟨_,hzero⟩ | ⟨hnot,hsame⟩
      · rw [hj'] at hzero
        exact absurd (Option.some.inj hzero) (by decide)
      · exact ⟨hnot,by rw [← hsame,hj']⟩
    have hlong : InLongRun t firmware a :=
      inLongRun_of_filled ht fun j hj hjt => (hkept j hj hjt).2
    exact (hkept a le_rfl (by omega)).1 hlong
  · intro i
    rcases hzeroed i with ⟨hlong,hzero⟩ | ⟨hnot,hsame⟩
    · refine ⟨fun _ => hlong,fun _ => ?_⟩
      obtain ⟨a,b,hrun,_,ha,hb⟩ := hlong
      rw [hzero,hrun.filled i ha hb]
      decide
    · exact ⟨fun h => absurd hsame h,fun h => absurd h hnot⟩
  · intro i hlong
    rcases hzeroed i with ⟨_,hzero⟩ | ⟨hnot,_⟩
    · exact hzero
    · exact absurd hlong hnot

/-- A run of three is zeroed for a threshold of two, a run of one stays. -/
theorem three_zeroed_one_kept :
    (zeroLongFfRuns 2 [0xFF,1,0xFF,0xFF,0xFF]).length = 5 ∧
    ¬List.replicate 2 0xFF <:+: zeroLongFfRuns 2 [0xFF,1,0xFF,0xFF,0xFF] ∧
    (∀ i,(zeroLongFfRuns 2 [0xFF,1,0xFF,0xFF,0xFF])[i]? ≠ [0xFF,1,0xFF,0xFF,0xFF][i]? ↔
      InLongRun 2 [0xFF,1,0xFF,0xFF,0xFF] i) ∧
    ∀ i,InLongRun 2 [0xFF,1,0xFF,0xFF,0xFF] i →
      (zeroLongFfRuns 2 [0xFF,1,0xFF,0xFF,0xFF])[i]? = some 0 :=
  long_ff_runs_zeroed [0xFF,1,0xFF,0xFF,0xFF] (by decide)

end Defib.FfRuns
