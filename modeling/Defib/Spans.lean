import Mathlib.Algebra.GroupWithZero.Nat
import Defib.BlockMemory

/-!
# Ranges walked in bounded pieces

`spans l a n` lists the pieces `(start, length)` taken by a loop that covers
`n` cells from `a` on and takes `min (l start) remaining` cells each time.
A constant `l` is a loop with a fixed maximal piece; `l a = B - a % B` stops
at every multiple of `B`. As long as every limit is positive the pieces are
adjacent, never empty, and their blocks concatenate to the whole block.
-/
namespace Defib.Spans
open List BlockMemory

/-- The loop with explicit fuel; every iteration covers at least one cell. -/
def spansFrom (l : ℕ → ℕ) : (fuel a n : ℕ) → List (ℕ × ℕ)
  | 0,_,_ => []
  | fuel+1,a,n =>
    if n = 0 then [] else
      let c := min (l a) n
      (a,c) :: spansFrom l fuel (a+c) (n-c)

def spans (l : ℕ → ℕ) (a n : ℕ) : List (ℕ × ℕ) := spansFrom l n a n

@[simp] lemma spans_zero (l : ℕ → ℕ) (a : ℕ) : spans l a 0 = [] := rfl

/-- Pieces of at most `k` cells of a buffer, as offsets into it. -/
def pieces (k n : ℕ) : List (ℕ × ℕ) := spans (fun _ => k) 0 n

section
variable {l : ℕ → ℕ} (hlim : ∀ a, 0 < l a)
include hlim

lemma spansFrom_fuel (fuel extra a n : ℕ) (h : n ≤ fuel) :
    spansFrom l (fuel+extra) a n = spansFrom l fuel a n := by
  induction fuel generalizing a n with
  | zero =>
    obtain rfl : n = 0 := by omega
    cases extra <;> simp [spansFrom]
  | succ fuel ih =>
    rw [Nat.add_right_comm]
    simp only [spansFrom]
    split_ifs with hn
    · rfl
    · have hc := hlim a
      rw [ih (a+min (l a) n) (n-min (l a) n) (by omega)]

lemma spans_pos (a n : ℕ) (hn : 0 < n) :
    spans l a n =
      (a,min (l a) n) :: spans l (a+min (l a) n) (n-min (l a) n) := by
  obtain ⟨k,rfl⟩ := Nat.exists_eq_add_of_lt hn
  have hc := hlim a
  have hk : 0+k+1-min (l a) (0+k+1) ≤ 0+k := by omega
  obtain ⟨e,he⟩ := Nat.exists_eq_add_of_le hk
  have hf := spansFrom_fuel hlim (0+k+1-min (l a) (0+k+1)) e
    (a+min (l a) (0+k+1)) (0+k+1-min (l a) (0+k+1)) le_rfl
  rw [← he] at hf
  simp only [spans,← hf]
  simp [spansFrom]

/-- The induction a bounded walk follows: nothing left, or one piece and the rest. -/
theorem spans_induction {P : ℕ → ℕ → Prop} (done : ∀ a, P a 0)
    (piece : ∀ a n, 0 < n →
      P (a+min (l a) n) (n-min (l a) n) → P a n) (a n : ℕ) : P a n := by
  induction n using Nat.strong_induction_on generalizing a with
  | _ n ih =>
    rcases Nat.eq_zero_or_pos n with rfl | hn
    · exact done a
    · have hc := hlim a
      exact piece a n hn (ih _ (by omega) _)

lemma spans_flatMap_slice {α : Type*} (m : ℕ → α) (a n : ℕ) :
    (spans l a n).flatMap (fun s => slice m s.1 s.2) = slice m a n := by
  induction a, n using spans_induction hlim with
  | done a => rfl
  | piece a n hn ih =>
    rw [spans_pos hlim a n hn,flatMap_cons,ih,← slice_add]
    congr 1
    omega

/-- Writing a buffer piece by piece writes the whole buffer. -/
theorem spans_foldl_patch {α : Type*} (xs : List α) (base : ℕ) (m : ℕ → α) (a n : ℕ)
    (h : a+n = xs.length) :
    (spans l a n).foldl (fun m s => patch m (base+s.1) ((xs.drop s.1).take s.2)) m =
      patch m (base+a) (xs.drop a) := by
  induction a, n using spans_induction hlim generalizing m with
  | done a => simp [drop_eq_nil_of_le (show xs.length ≤ a by omega)]
  | piece a n hn ih =>
    rw [spans_pos hlim a n hn,foldl_cons,ih _ (by omega)]
    generalize hc : min (l a) n = c
    have hlen : ((xs.drop a).take c).length = c := by simp; omega
    have hsplit : (xs.drop a).take c++xs.drop (a+c) = xs.drop a := by
      rw [← drop_drop,take_append_drop]
    have hjoin := patch_append m (base+a) ((xs.drop a).take c) (xs.drop (a+c))
    rwa [hlen,hsplit,Nat.add_assoc] at hjoin

/-- Every piece is nonempty, within its limit, and inside the walked range. -/
theorem mem_spans {a n : ℕ} {s : ℕ × ℕ} (h : s ∈ spans l a n) :
    a ≤ s.1 ∧ 0 < s.2 ∧ s.2 ≤ l s.1 ∧ s.1+s.2 ≤ a+n := by
  induction a, n using spans_induction hlim with
  | done a => simp at h
  | piece a n hn ih =>
    rw [spans_pos hlim a n hn] at h
    have hc := hlim a
    rcases mem_cons.mp h with rfl | h
    · exact ⟨le_rfl,by dsimp only; omega,Nat.min_le_left _ _,by dsimp only; omega⟩
    · have hs := ih h
      exact ⟨by omega,hs.2.1,hs.2.2.1,by omega⟩

lemma exists_mem_spans {a n x : ℕ} (h : a ≤ x) (hx : x < a+n) :
    ∃ s ∈ spans l a n, s.1 ≤ x ∧ x < s.1+s.2 := by
  induction a, n using spans_induction hlim with
  | done a => omega
  | piece a n hn ih =>
    rw [spans_pos hlim a n hn]
    by_cases hc : x < a+min (l a) n
    · exact ⟨_,mem_cons_self,h,hc⟩
    · obtain ⟨s,hs,hb⟩ := ih (by omega) (by omega)
      exact ⟨s,mem_cons_of_mem _ hs,hb⟩

lemma spans_flatMap_list {α : Type*} (xs : List α) (a n : ℕ) (h : a+n = xs.length) :
    (spans l a n).flatMap (fun s => (xs.drop s.1).take s.2) = xs.drop a := by
  induction a, n using spans_induction hlim with
  | done a => simp [drop_eq_nil_of_le (show xs.length ≤ a by omega)]
  | piece a n hn ih =>
    rw [spans_pos hlim a n hn,flatMap_cons,ih (by omega),← drop_drop,
      take_append_drop]

lemma spans_sum (a n : ℕ) : ((spans l a n).map Prod.snd).sum = n := by
  induction a, n using spans_induction hlim with
  | done a => rfl
  | piece a n hn ih =>
    rw [spans_pos hlim a n hn,map_cons,sum_cons,ih]
    omega

end

lemma pieces_length_bounds {k : ℕ} (hk : 0 < k) (n : ℕ) :
    n ≤ (pieces k n).length*k ∧ (pieces k n).length*k < n+k := by
  have hgen : ∀ a n, n ≤ (spans (fun _ => k) a n).length*k ∧
      (spans (fun _ => k) a n).length*k < n+k := by
    intro a n
    induction a, n using spans_induction (l := fun _ => k) (fun _ => hk) with
    | done a => simpa using hk
    | piece a n hn ih =>
      rw [spans_pos (fun _ => hk) a n hn,length_cons,Nat.add_one_mul]
      rcases Nat.lt_or_ge n k with hlt | hge
      · rw [Nat.min_eq_right hlt.le,Nat.sub_self]
        simpa using ⟨hlt.le,hn⟩
      · rw [Nat.min_eq_left hge] at ih ⊢
        omega
  exact hgen 0 n

lemma pieces_length {k : ℕ} (hk : 0 < k) (n : ℕ) : (pieces k n).length = (n+k-1)/k := by
  have hbounds := pieces_length_bounds hk n
  rw [eq_comm,Nat.div_eq_iff hk]
  omega

lemma pieces_eq_range {k : ℕ} (hk : 0 < k) (n : ℕ) :
    pieces k n = (List.range ((n+k-1)/k)).map fun j => (j*k,min k (n-j*k)) := by
  have hgen : ∀ a n, spans (fun _ => k) a n =
      (List.range ((n+k-1)/k)).map fun j => (a+j*k,min k (n-j*k)) := by
    intro a n
    induction a, n using spans_induction (l := fun _ => k) (fun _ => hk) with
    | done a =>
      rw [spans_zero,Nat.div_eq_of_lt (by omega)]
      rfl
    | piece a n hn ih =>
      have hcount : (n+k-1)/k = (n-min k n+k-1)/k+1 := by
        rcases Nat.lt_or_ge n k with hlt | hge
        · rw [Nat.min_eq_right hlt.le,Nat.div_eq_of_lt (show n-n+k-1 < k by omega)]
          exact Nat.div_eq_of_lt_le (by omega) (by omega)
        · rw [Nat.min_eq_left hge,← Nat.add_div_right _ hk]
          congr 1
          omega
      rw [spans_pos (fun _ => hk) a n hn,ih,hcount,range_succ_eq_map,map_cons,
        map_map]
      congr 1
      · rw [Nat.zero_mul,Nat.add_zero,Nat.sub_zero]
      · apply map_congr_left
        intro j hj
        have hge : k ≤ n := by
          by_contra hlt
          have hnone : n-min k n+k-1 < k := by omega
          rw [Nat.div_eq_of_lt hnone] at hj
          exact absurd (mem_range.mp hj) (Nat.not_lt_zero j)
        simp only [Function.comp_apply,Nat.min_eq_left hge,Nat.succ_mul,Prod.mk.injEq]
        omega
  have hall := hgen 0 n
  simpa only [pieces,Nat.zero_add] using hall

lemma pieces_flatMap_slice {α : Type*} {k : ℕ} (hk : 0 < k) (g : ℕ → α) (base n : ℕ) :
    (pieces k n).flatMap (fun s => slice g (base+s.1) s.2) = slice g base n := by
  have h := spans_flatMap_slice (l := fun _ => k) (fun _ => hk) (fun x => g (base+x)) 0 n
  simpa only [pieces,slice,Nat.add_assoc,Nat.zero_add] using h

/-- Pieces of a buffer start at multiples of the piece size. -/
theorem mem_pieces {k n : ℕ} (hk : 0 < k) {s : ℕ × ℕ} (h : s ∈ pieces k n) :
    s.1%k = 0 ∧ 0 < s.2 ∧ s.2 ≤ k ∧ s.1+s.2 ≤ n ∧ (s.2 = k ∨ s.1+s.2 = n) := by
  have hgen : ∀ a n, a%k = 0 → s ∈ spans (fun _ => k) a n →
      s.1%k = 0 ∧ (s.2 = k ∨ s.1+s.2 = a+n) := by
    intro a n
    induction a, n using spans_induction (l := fun _ => k) (fun _ => hk) with
    | done a => intro _ hs; simp at hs
    | piece a n hn ih =>
      intro ha hs
      rw [spans_pos (fun _ => hk) a n hn] at hs
      rcases mem_cons.mp hs with rfl | hs
      · exact ⟨ha,by dsimp only; omega⟩
      · rcases Nat.lt_or_ge n k with hlt | hge
        · rw [show n-min k n = 0 by omega] at hs
          simp at hs
        · rw [Nat.min_eq_left hge] at ih hs
          have hnext := ih (by rw [Nat.add_mod_right]; exact ha) hs
          exact ⟨hnext.1,by omega⟩
  have hin := mem_spans (fun _ => hk) h
  have hstart := hgen 0 n (Nat.zero_mod k) h
  exact ⟨hstart.1,hin.2.1,hin.2.2.1,by omega,by omega⟩

/-! ### A list cut into slices -/

section Slices
variable {α : Type*} {k : ℕ}

/-- `xs[i : i+k] for i in range(0, len(xs), k)`. -/
def slices (k : ℕ) (xs : List α) : List (List α) :=
  (List.range ((xs.length+k-1)/k)).map fun i => (xs.drop (i*k)).take k

lemma range_slices_flatten (xs : List α) (m : ℕ) :
    ((List.range m).map fun i => (xs.drop (i*k)).take k).flatten = xs.take (m*k) := by
  induction m with
  | zero => rw [Nat.zero_mul,take_zero]; rfl
  | succ m ih =>
    rw [range_succ,map_append,flatten_append,ih,Nat.succ_mul,take_add]
    simp only [map_cons,map_nil,flatten_cons,flatten_nil,append_nil]

lemma slices_eq_pieces (hk : 0 < k) (xs : List α) :
    slices k xs = (pieces k xs.length).map fun s => (xs.drop s.1).take s.2 := by
  rw [slices,pieces_eq_range hk,map_map]
  apply map_congr_left
  intro i _
  simp only [Function.comp_apply]
  rw [take_eq_take_iff,length_drop]
  omega

lemma slices_flatten (hk : 0 < k) (xs : List α) : (slices k xs).flatten = xs := by
  rw [slices,range_slices_flatten]
  apply take_of_length_le
  have hbounds := pieces_length_bounds hk xs.length
  rw [pieces_length hk] at hbounds
  exact hbounds.1

lemma mem_slices_length {xs c : List α} (h : c ∈ slices k xs) : c.length ≤ k := by
  obtain ⟨i,_,rfl⟩ := mem_map.mp h
  exact length_take_le _ _

/-- Slices end at multiples of `k` and at the end of the list. -/
theorem slices_cut {xs : List α} {pre : List (List α)} (h : pre <+: slices k xs) :
    pre.flatten.length = xs.length ∨ k ∣ pre.flatten.length := by
  obtain ⟨post,hpost⟩ := h
  have hpre : pre = (slices k xs).take pre.length := by
    rw [← hpost,take_left]
  have hall : (List.range ((xs.length+k-1)/k)).take pre.length =
      List.range (min pre.length ((xs.length+k-1)/k)) := take_range
  rw [hpre,slices,← map_take,hall,range_slices_flatten,length_take]
  rcases Nat.le_total (min pre.length ((xs.length+k-1)/k)*k) xs.length with hle | hle
  · rw [Nat.min_eq_left hle]
    exact .inr (Nat.dvd_mul_left _ _)
  · exact .inl (Nat.min_eq_right hle)

lemma slices_last (hk : 0 < k) {xs : List α} (hxs : xs ≠ []) :
    ∃ init last,slices k xs = init++[last] ∧ last.length = (xs.length-1)%k+1 := by
  have hpos := length_pos_iff.mpr hxs
  have hcount : (xs.length+k-1)/k = (xs.length-1)/k+1 := by
    rw [← Nat.add_div_right _ hk]
    congr 1
    omega
  refine ⟨(List.range ((xs.length-1)/k)).map fun i => (xs.drop (i*k)).take k,
    (xs.drop ((xs.length-1)/k*k)).take k,?_,?_⟩
  · rw [slices,hcount,range_succ,map_append,map_singleton]
  · have hdiv := Nat.div_add_mod' (xs.length-1) k
    have hmod := Nat.mod_lt (xs.length-1) hk
    rw [length_take,length_drop]
    omega

end Slices

end Defib.Spans
