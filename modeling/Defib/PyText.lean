import Mathlib.Data.List.Infix
import Mathlib.Data.List.TakeWhile

/-!
# Text in the manner of Python strings

Character classes beyond ASCII come from a table of the Unicode version in use; what
it says of the ASCII characters is fixed. Over it: `strip`, `partition`, `removeprefix`,
runs of a class as a regular expression takes them, and `int`.
-/
namespace Defib.PyText
open List

/-- The classes of characters that `\d`, `\w` and `strip` use. -/
structure CharTable where
  decimal : Char → Option ℕ
  word : Char → Bool
  space : Char → Bool
  decimal_ascii : ∀ c : Char,c.toNat < 128 →
    decimal c = if c.isDigit then some (c.toNat-48) else none
  word_ascii : ∀ c : Char,c.toNat < 128 → word c = (c.isAlphanum || c = '_')
  space_ascii : ∀ c : Char,c.toNat < 128 →
    space c = (c = ' ' || (9 ≤ c.toNat && c.toNat ≤ 13) || (28 ≤ c.toNat && c.toNat ≤ 31))

/-- The table that knows ASCII only. -/
def asciiTable : CharTable where
  decimal c := if c.toNat < 128 ∧ c.isDigit then some (c.toNat-48) else none
  word c := c.toNat < 128 && (c.isAlphanum || c = '_')
  space c := c.toNat < 128 &&
    (c = ' ' || (9 ≤ c.toNat && c.toNat ≤ 13) || (28 ≤ c.toNat && c.toNat ≤ 31))
  decimal_ascii c h := by simp [h]
  word_ascii c h := by simp [h]
  space_ascii c h := by simp [h]

def isHex (c : Char) : Bool :=
  ('0' ≤ c && c ≤ '9') || ('a' ≤ c && c ≤ 'f') || ('A' ≤ c && c ≤ 'F')

def hexDigit (c : Char) : ℕ :=
  if '0' ≤ c && c ≤ '9' then c.toNat-48
  else if 'a' ≤ c && c ≤ 'f' then c.toNat-87 else c.toNat-55

def contains (needle s : List Char) : Bool := s.tails.any needle.isPrefixOf

variable {c : Char}

lemma isHex_of_isDigit (h : c.isDigit = true) : isHex c = true := by
  simp only [Char.isDigit,Bool.and_eq_true,decide_eq_true_eq] at h
  have hdigit : '0' ≤ c ∧ c ≤ '9' := h
  simp [isHex,hdigit]

variable (T : CharTable)

def CharTable.digit (c : Char) : Bool := (T.decimal c).isSome

def lstrip (s : List Char) : List Char := s.dropWhile T.space

def strip (s : List Char) : List Char := ((lstrip T s).reverse.dropWhile T.space).reverse

/-- Stripping the characters of a class from both ends. -/
def stripBy (p : Char → Bool) (s : List Char) : List Char :=
  ((s.dropWhile p).reverse.dropWhile p).reverse

def removePrefix (p s : List Char) : List Char := if p.isPrefixOf s then s.drop p.length else s

/-- The text before and after the first `sep`, if there is one. -/
def partition (sep : Char) (s : List Char) : Option (List Char × List Char) :=
  if sep ∈ s then some (s.takeWhile (· ≠ sep),(s.dropWhile (· ≠ sep)).tail) else none

/-- `int` of a run of decimal digits. -/
def decimalValue (ds : List Char) : ℕ := ds.foldl (fun v c => v*10+(T.decimal c).getD 0) 0

section
variable {T}

lemma decimal_of_isDigit (h : c.isDigit = true) :
    T.decimal c = some (c.toNat-48) := by
  have hlt : c.toNat < 128 := by
    simp only [Char.isDigit,Bool.and_eq_true,decide_eq_true_eq] at h
    have : c.toNat ≤ 57 := h.2
    omega
  rw [T.decimal_ascii c hlt,if_pos h]

lemma digit_ascii (h : c.isDigit = true) : T.digit c = true := by
  rw [CharTable.digit,decimal_of_isDigit h]
  rfl

lemma not_digit_ascii (hlt : c.toNat < 128) (h : c.isDigit = false) :
    T.digit c = false := by
  rw [CharTable.digit,T.decimal_ascii c hlt,h]
  rfl

lemma not_space_of_isDigit (h : c.isDigit = true) : T.space c = false := by
  simp only [Char.isDigit,Bool.and_eq_true,decide_eq_true_eq] at h
  have h48 : 48 ≤ c.toNat := h.1
  have h57 : c.toNat ≤ 57 := h.2
  rw [T.space_ascii c (by omega)]
  have hne : c ≠ ' ' := by
    rintro rfl
    exact absurd h48 (by decide)
  simp only [hne,decide_false,Bool.false_or,Bool.or_eq_false_iff,Bool.and_eq_false_iff,
    decide_eq_false_iff_not]
  omega

lemma isDigit_ne {c d : Char} (hc : c.isDigit = true) (hd : d.isDigit = false) : c ≠ d := by
  rintro rfl
  rw [hc] at hd
  cases hd

lemma not_space_graphic (h : 32 < c.toNat ∧ c.toNat < 128) : T.space c = false := by
  have hc : c ≠ ' ' := by
    rintro rfl
    exact absurd h.1 (by decide)
  rw [T.space_ascii c h.2]
  simp only [hc,decide_false,Bool.false_or,Bool.or_eq_false_iff,Bool.and_eq_false_iff,
    decide_eq_false_iff_not]
  omega

/-- A fact about every element of a list, by evaluation. -/
theorem forall_mem_of_all {α : Type*} {p : α → Prop} [DecidablePred p] {w : List α}
    (h : w.all (fun c => decide (p c)) = true) : ∀ c ∈ w,p c :=
  fun c hc => of_decide_eq_true (all_eq_true.mp h c hc)

/-- A run of a class stops at the first character outside it. -/
theorem takeWhile_run {α : Type*} {p : α → Bool} {w : List α} {a : α} (hw : ∀ c ∈ w,p c = true)
    (ha : p a = false) (r : List α) : (w++a::r).takeWhile p = w := by
  rw [takeWhile_append_of_pos hw,takeWhile_cons_of_neg (by rw [ha]; decide),
    append_nil]

lemma dropWhile_run {α : Type*} {p : α → Bool} {w : List α} {a : α} (hw : ∀ c ∈ w,p c = true)
    (ha : p a = false) (r : List α) : (w++a::r).dropWhile p = a::r := by
  rw [dropWhile_append_of_pos hw,dropWhile_cons_of_neg (by rw [ha]; decide)]

variable {sep : Char}

lemma partition_eq {a : List Char} (ha : sep ∉ a) (b : List Char) :
    partition sep (a++sep::b) = some (a,b) := by
  have hall : ∀ c ∈ a,decide (c ≠ sep) = true := fun c hc =>
    decide_eq_true (fun h => ha (h ▸ hc))
  rw [partition,if_pos (mem_append_right a mem_cons_self),takeWhile_run hall (by simp),
    dropWhile_run hall (by simp)]
  rfl

lemma splitOn_of_not_mem {s : List Char} (h : sep ∉ s) : s.splitOn sep = [s] := by
  have hsplit := splitOn_intercalate sep
    (fun l (hl : l ∈ [s]) => by rw [mem_singleton.mp hl]; exact h) (cons_ne_nil _ _)
  rwa [intercalate_singleton] at hsplit

lemma mem_intercalate {sep c : Char} {ps : List (List Char)} (h : c ∈ [sep].intercalate ps) :
    c = sep ∨ ∃ p ∈ ps,c ∈ p := by
  induction ps with
  | nil => exact absurd h not_mem_nil
  | cons p ps ih =>
    cases ps with
    | nil =>
      rw [intercalate_singleton] at h
      exact .inr ⟨p,mem_cons_self,h⟩
    | cons q qs =>
      rw [intercalate_cons_cons,append_assoc] at h
      rcases mem_append.mp h with h | h
      · exact .inr ⟨p,mem_cons_self,h⟩
      rcases mem_append.mp h with h | h
      · exact .inl (mem_singleton.mp h)
      · exact (ih h).imp id fun ⟨r,hr,hc⟩ => ⟨r,mem_cons_of_mem p hr,hc⟩

lemma infix_intercalate {p : List Char} {ps : List (List Char)} (h : p ∈ ps) :
    p <:+: [sep].intercalate ps := by
  induction ps with
  | nil => exact absurd h not_mem_nil
  | cons q ps ih =>
    cases ps with
    | nil =>
      rw [mem_singleton.mp h,intercalate_singleton]
    | cons r rs =>
      rw [intercalate_cons_cons]
      rcases mem_cons.mp h with rfl | h
      · rw [append_assoc]
        exact (prefix_append _ _).isInfix
      · exact (ih h).trans (suffix_append _ _).isInfix

lemma infix_of_mem_splitOn {s l : List Char} (h : l ∈ s.splitOn sep) : l <:+: s := by
  have hjoin : [sep].intercalate (s.splitOn sep) = s := intercalate_splitOn sep
  conv_rhs => rw [← hjoin]
  exact infix_intercalate h

lemma intercalate_getLast? (sep : Char) {P : Char → Prop} {ps : List (List Char)} (hne : ps ≠ [])
    (h : ∀ p ∈ ps,∃ b,p.getLast? = some b ∧ P b) :
    ∃ b,([sep].intercalate ps).getLast? = some b ∧ P b := by
  induction ps with
  | nil => exact absurd rfl hne
  | cons p ps ih =>
    cases ps with
    | nil =>
      rw [intercalate_singleton]
      exact h p mem_cons_self
    | cons q qs =>
      obtain ⟨b,hb,hP⟩ :=
        ih (cons_ne_nil q qs) fun r hr => h r (mem_cons_of_mem p hr)
      refine ⟨b,?_,hP⟩
      rw [intercalate_cons_cons,getLast?_append,hb]
      rfl

/-- What stands before the first separator can be exchanged. -/
theorem intercalate_head (sep : Char) (b : List Char) (ps : List (List Char)) :
    ∃ t,∀ a,[sep].intercalate ((a++b)::ps) = a++(b++t) := by
  cases ps with
  | nil => exact ⟨[],fun a => by rw [intercalate_singleton,append_nil]⟩
  | cons q qs =>
    refine ⟨sep::[sep].intercalate (q::qs),fun a => ?_⟩
    rw [intercalate_cons_cons,append_assoc,append_assoc]
    rfl

/-- A text whose last character is no space is stripped in its first part only. -/
theorem strip_append_cons {a r : List Char} {c b : Char} (hc : T.space c = false)
    (he : (c::r).getLast? = some b) (hb : T.space b = false) :
    strip T (a++c::r) = a.dropWhile T.space++c::r := by
  have hl : lstrip T (a++c::r) = a.dropWhile T.space++c::r := by
    have hkeep : (c::r).dropWhile T.space = c::r :=
      dropWhile_cons_of_neg (by rw [hc]; decide)
    rw [lstrip,dropWhile_append,hkeep]
    split_ifs with h
    · rw [List.isEmpty_iff.mp h]
      rfl
    · rfl
  obtain ⟨t,ht⟩ : ∃ t,(a.dropWhile T.space++c::r).reverse = b::t := by
    refine head?_eq_some_iff.mp ?_
    rw [head?_reverse,getLast?_append,he]
    rfl
  rw [strip,hl,ht,dropWhile_cons_of_neg (by rw [hb]; decide),← ht,reverse_reverse]

/-- Stripping takes away blanks at the end and does not reach behind the last graphic
character. -/
theorem stripBy_append_trim {p : Char → Bool} {s : List Char} {a b : Char} {m : List Char}
    (hs : s = a::m) (he : s.getLast? = some b) (ha : p a = false) (hb : p b = false)
    (tail : List Char) : ∃ t blanks,stripBy p (s++tail) = s++t ∧ tail = t++blanks ∧
      ∀ c ∈ blanks,p c = true := by
  have hl : (s++tail).dropWhile p = s++tail := by
    rw [hs,cons_append,dropWhile_cons_of_neg (by rw [ha]; decide)]
  obtain ⟨r,hr⟩ : ∃ r,s.reverse = b::r :=
    head?_eq_some_iff.mp (by rw [head?_reverse,he])
  have hkeep : s.reverse.dropWhile p = s.reverse := by
    rw [hr,dropWhile_cons_of_neg (by rw [hb]; decide)]
  refine ⟨(tail.reverse.dropWhile p).reverse,(tail.reverse.takeWhile p).reverse,?_,?_,?_⟩
  · rw [stripBy,hl,reverse_append,dropWhile_append,hkeep]
    split_ifs with hall
    · rw [List.isEmpty_iff.mp hall,reverse_reverse,reverse_nil,append_nil]
    · rw [reverse_append,reverse_reverse]
  · rw [← reverse_append,takeWhile_append_dropWhile,reverse_reverse]
  · intro c hc
    exact all_eq_true.mp all_takeWhile c (mem_reverse.mp hc)

lemma infix_stripBy (p : Char → Bool) (s : List Char) : stripBy p s <:+: s := by
  have hright : stripBy p s <+: s.dropWhile p := by
    rw [stripBy,← reverse_suffix,reverse_reverse]
    exact dropWhile_suffix p
  exact hright.isInfix.trans (dropWhile_suffix p).isInfix

/-- A beginning without `sep` lies before the first `sep`. -/
theorem isPrefix_before {p a r : List Char} (hp : sep ∉ p) (h : p <+: a++sep::r) :
    p <+: a := by
  refine prefix_of_prefix_length_le h (prefix_append a _) ?_
  by_contra hlt
  have heq := prefix_iff_eq_take.mp h
  have hmem : sep ∈ (a++sep::r).take p.length := by
    refine mem_take_iff_getElem.mpr ⟨a.length,?_,?_⟩
    · rw [length_append,length_cons]
      omega
    · rw [getElem_append_right (Nat.le_refl _)]
      simp
  exact hp (heq ▸ hmem)

/-- Removing a prefix without `sep` happens before the first `sep`. -/
theorem removePrefix_append_cons {p a : List Char} (hp : sep ∉ p) (r : List Char) :
    ∃ a',removePrefix p (a++sep::r) = a'++sep::r ∧ (a = p++a' ∨ a = a') := by
  rw [removePrefix]
  split_ifs with h
  · have ha : p <+: a := isPrefix_before hp (List.isPrefixOf_iff_prefix.mp h)
    refine ⟨a.drop p.length,drop_append_of_le_length ha.length_le,.inl ?_⟩
    exact (prefix_iff_eq_append.mp ha).symm
  · exact ⟨a,rfl,.inr rfl⟩

lemma strip_eq_self {a b : Char} {m s : List Char} (hs : s = a::m) (he : s.getLast? = some b)
    (ha : T.space a = false) (hb : T.space b = false) : strip T s = s := by
  subst hs
  exact strip_append_cons (a := []) ha he hb

/-! ### Searching -/

lemma contains_iff {needle s : List Char} : contains needle s = true ↔ needle <:+: s := by
  rw [contains,any_eq_true,infix_iff_prefix_suffix]
  refine exists_congr fun t => ?_
  rw [mem_tails,List.isPrefixOf_iff_prefix,and_comm]

/-- Text without the first character of what is looked for adds no occurrence in front. -/
theorem infix_append_left {n : Char} {ns a s : List Char} (ha : n ∉ a) :
    n::ns <:+: a++s ↔ n::ns <:+: s := by
  induction a with
  | nil => rfl
  | cons c a ih =>
    rw [mem_cons,not_or] at ha
    rw [cons_append,infix_cons_iff,ih ha.2,or_iff_right]
    exact fun h => ha.1 (cons_prefix_cons.mp h).1

/-- What reaches the first `n` of a text reaches it there. -/
theorem append_eq_mark {n : Char} {x a b r : List Char} (hx : n ∉ x) (hb : n ∈ b)
    (h : b++r = x++n::a) : ∃ c,b = x++n::c ∧ a = c++r := by
  rcases append_eq_append_iff.mp h with ⟨c,hc,-⟩ | ⟨c,hc,hr⟩
  · exact absurd (hc ▸ mem_append_left c hb) hx
  · cases c with
    | nil =>
      rw [append_nil] at hc
      exact absurd (hc ▸ hb) hx
    | cons m c =>
      obtain ⟨rfl,ha⟩ := List.cons.inj hr
      exact ⟨c,hc,ha⟩

lemma infix_append_right {n : Char} {ns b s : List Char} (hb : n ∉ b) :
    ns++[n] <:+: s++b ↔ ns++[n] <:+: s := by
  have hrev : ∀ t,ns++[n] <:+: t ↔ n::ns.reverse <:+: t.reverse := by
    intro t
    rw [← reverse_infix,reverse_append]
    rfl
  rw [hrev,hrev,reverse_append,infix_append_left fun h => hb (mem_reverse.mp h)]

/-- Stripping loses no occurrence of a text that has no space at its ends. -/
theorem infix_strip {n m : Char} {ns s : List Char} (hn : T.space n = false)
    (hm : T.space m = false) : n::(ns++[m]) <:+: strip T s ↔ n::(ns++[m]) <:+: s := by
  have hrun : ∀ {c : Char} {r : List Char},T.space c = false → c ∉ r.takeWhile T.space := by
    intro c r hc hmem
    rw [mem_takeWhile_imp hmem] at hc
    cases hc
  have hright : n::(ns++[m]) <:+: strip T s ↔ n::(ns++[m]) <:+: lstrip T s := by
    have hsplit : lstrip T s =
        strip T s++((lstrip T s).reverse.takeWhile T.space).reverse := by
      rw [strip,← reverse_append,takeWhile_append_dropWhile,reverse_reverse]
    conv_rhs => rw [hsplit]
    rw [← cons_append,infix_append_right fun h => hrun hm (mem_reverse.mp h)]
  have hleft : n::(ns++[m]) <:+: lstrip T s ↔ n::(ns++[m]) <:+: s := by
    have hsplit : s = s.takeWhile T.space++lstrip T s := takeWhile_append_dropWhile.symm
    conv_rhs => rw [hsplit]
    rw [infix_append_left (hrun hn)]
  exact hright.trans hleft

end

end Defib.PyText
