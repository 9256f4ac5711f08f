import Defib.MtdpartsLookup

/-!
# Do the layout parsers agree?

Over every layout of one device with decimal sizes and distinct names, the three
parsers give each partition the sum of the sizes before it, provided that every name is
a word and no size has more digits than the interpreter converts: `ubiPartmap` drops an entry
whose name `\w+` does not match.
-/
namespace Defib.MtdpartsAgreement
open List Option PyText Dicts Mtdparts MtdpartsLookup

inductive Suffix
  | bytes
  | k
  | K
  | m
  | M
  deriving DecidableEq

def Suffix.text : Suffix → List Char
  | .bytes => []
  | .k => ['k']
  | .K => ['K']
  | .m => ['m']
  | .M => ['M']

def Suffix.factor : Suffix → ℕ
  | .bytes => 1
  | .k | .K => 1024
  | .m | .M => 1024*1024

/-- `<decimal size>(<name>)`. -/
structure Entry where
  digits : List Char
  suffix : Suffix
  name : List Char
  digits_ne : digits ≠ []
  digits_ascii : ∀ c ∈ digits,c.isDigit = true
  no_leading_zero : 1 < digits.length → digits.head? ≠ some '0'
  name_ok : NameOk name

def Entry.size (e : Entry) : ℕ :=
  e.digits.foldl (fun v c => v*10+(c.toNat-48)) 0*e.suffix.factor

def Entry.text (e : Entry) : List Char := e.digits++e.suffix.text++bracketed e.name

def fillText (name : List Char) : List Char := '-'::bracketed name

/-- The layout of one device. -/
structure Layout where
  device : List Char
  entries : List Entry
  fill : Option (List Char)
  device_ok : ':' ∉ device ∧ ';' ∉ device
  fill_ok : ∀ name ∈ fill.toList,NameOk name
  distinct : (entries.map (·.name)++fill.toList).Nodup
  nonempty : entries.map (·.name)++fill.toList ≠ []

namespace Layout

variable (l : Layout)

def names : List (List Char) := l.entries.map (·.name)++l.fill.toList

def parts : List (List Char) := l.entries.map (·.text)++l.fill.toList.map fillText

def value : List Char := l.device++ ':'::[','].intercalate l.parts

/-- The sum of the sizes before partition `i`. -/
def offset (i : ℕ) : ℕ := ((l.entries.take i).map (·.size)).sum

end Layout

/-- The size of a listed partition; the rest of the chip has none. -/
def Layout.size (l : Layout) (i : ℕ) : ℕ := (l.entries[i]?.map (·.size)).getD 0

/-- Every parser gives every partition its offset. -/
def Agree (T : CharTable) (limit : Option ℕ) (l : Layout) : Prop :=
  ∀ i name,l.names[i]? = some name →
    mtdpartsPartitionOffset T limit l.value name false = some (some (l.offset i)) ∧
    (∀ n,∃ offsets,partOffsets T limit l.value n = some offsets ∧
      getItem offsets i = some (l.offset i)) ∧
    ∃ m,ubiPartmap T limit l.value = some m ∧
      ∃ size,getItem m i = some (name,l.offset i,size)

/-- What `\w+` matches as a whole. -/
def IsWord (T : CharTable) (name : List Char) : Prop := name ≠ [] ∧ ∀ c ∈ name,T.word c = true

instance (T : CharTable) (name : List Char) : Decidable (IsWord T name) :=
  @instDecidableAnd _ _ inferInstance (List.decidableBAll _ name)

variable {T : CharTable} {limit : Option ℕ}

/-! ### Layouts as values -/

namespace Entry

variable (e : Entry)

def number : Number where
  digits := .decimal e.digits e.digits_ne e.digits_ascii
  unit := e.suffix.text.head?
  unit_ok := by cases e.suffix <;> simp [Suffix.text]

def part : Part where
  size := some e.number
  offset := none
  name := e.name
  flags := []
  name_ok := e.name_ok
  flags_ok := by decide

end Entry

def fillPart (name : List Char) (h : NameOk name) : Part where
  size := none
  offset := none
  name := name
  flags := []
  name_ok := h
  flags_ok := by decide

variable {name : List Char}

lemma number_text (e : Entry) : e.number.text = e.digits++e.suffix.text := by
  obtain ⟨_,s,_,_,_,_,_⟩ := e
  cases s <;> rfl

lemma number_value (e : Entry) : e.number.value = e.size := by
  obtain ⟨_,s,_,_,_,_,_⟩ := e
  cases s <;> rfl

lemma part_text (e : Entry) : e.part.text = e.text := by
  show e.number.text++([]++(bracketed e.name++[])) = e.text
  rw [number_text,nil_append,append_nil,Entry.text]

lemma fillPart_text (h : NameOk name) : (fillPart name h).text = fillText name :=
  congrArg (List.cons '-') (append_nil _)

namespace Layout

variable (l : Layout)

def partList : List Part := l.entries.map Entry.part++l.fill.toList.pmap fillPart l.fill_ok

lemma partList_text : l.partList.map Part.text = l.parts := by
  simp [partList,parts,List.map_pmap,part_text,fillPart_text]

lemma fill_last {p : Part} (h : p ∈ l.partList.dropLast) : p.size ≠ none := by
  obtain ⟨_,entries,fill,_,hfill,_,_⟩ := l
  have hmem : p ∈ entries.map Entry.part := by
    cases fill with
    | none => exact mem_of_mem_dropLast (append_nil (entries.map Entry.part) ▸ h)
    | some n => simpa [partList] using h
  obtain ⟨e,_,rfl⟩ := mem_map.mp hmem
  nofun

def toDevice : MtdpartsLookup.Device where
  id := l.device
  parts := l.partList
  id_ok := l.device_ok
  nonempty := by simpa [partList] using l.nonempty
  fill_last := fun _ => l.fill_last

def toValue : Value := ⟨false,[l.toDevice],cons_ne_nil _ _⟩

lemma toValue_text : l.toValue.text = l.value := by
  rw [value,← partList_text]
  simp [toValue,Value.text,Device.text,toDevice]

end Layout

lemma entry_free (e : Entry) {c : Char} (hc : c ∈ e.text) : c ≠ ',' ∧ c ≠ ';' :=
  part_free e.part (part_text e ▸ hc)

lemma fillText_free (h : NameOk name) {c : Char} (hc : c ∈ fillText name) :
    c ≠ ',' ∧ c ≠ ';' :=
  part_free (fillPart name h) (fillPart_text h ▸ hc)

lemma strip_entry (e : Entry) : strip T e.text = e.text := by
  rw [← part_text,strip_part]

lemma strip_fillText (name : List Char) : strip T (fillText name) = fillText name :=
  strip_eq_self rfl (bracketed_getLast ['-'] name)
    (not_space_graphic (by decide))
    (not_space_graphic (by decide))

lemma splitOn_parts (l : Layout) : ([','].intercalate l.parts).splitOn ',' = l.parts := by
  rw [← l.partList_text]
  exact splitOn_device l.toDevice

lemma partition_value (l : Layout) :
    partition ':' l.value = some (l.device,[','].intercalate l.parts) :=
  partition_eq l.device_ok.1 _

/-! ### One entry -/

section
variable (e : Entry)

lemma suffix_head (s : Suffix) (name : List Char) : ∃ c r,s.text++bracketed name = c::r ∧
    T.digit c = false ∧ c ≠ 'x' ∧ c ≠ 'X' := by
  cases s <;> exact ⟨_,_,rfl,not_digit_ascii (by decide) (by decide),by decide,by decide⟩

/-- What `int` makes of the size; `none` is a `ValueError`. -/
def Entry.converted (limit : Option ℕ) (e : Entry) : Option ℕ :=
  if limit.any (· < e.digits.length) then none else some e.size

lemma converted_eq_some {n : ℕ} : e.converted limit = some n ↔
    (∀ m ∈ limit,e.digits.length ≤ m) ∧ e.size = n := by
  rw [Entry.converted]
  cases limit with
  | none => simp
  | some m => simp

lemma leadingSize_entry : leadingSize T limit e.text = some (e.converted limit) := by
  obtain ⟨c,r,hcr,hdigit,_⟩ := suffix_head (T := T) e.suffix e.name
  obtain ⟨htake,hdrop⟩ := digits_run e.digits_ascii hdigit r
  rw [leadingSize,Entry.text,append_assoc,hcr,htake,hdrop,← hcr,
    decimalValue_digits e.digits_ascii,Entry.converted,Entry.size]
  simp only [e.digits_ne,if_false]
  split_ifs
  · rfl
  · cases e.suffix <;> rfl

lemma matchName_eq (h : NameOk name) :
    matchName T (name++[')']) = if IsWord T name then some name else none := by
  have hend : T.word ')' = false := by rw [T.word_ascii _ (by decide)]; decide
  rw [matchName]
  split_ifs with hm hw hw
  · rw [takeWhile_run hw.2 hend]
  · -- the run stops at the bracket only if all of the name is in it
    refine absurd ⟨?_,?_⟩ hw
    · rintro rfl
      refine hm.1 ?_
      rw [nil_append,takeWhile_cons_of_neg (by rw [hend]; decide)]
    · have hall : ∀ (n : List Char),(∀ c ∈ n,c ≠ ')') →
          ((n++[')']).dropWhile T.word).head? = some ')' → ∀ c ∈ n,T.word c = true := by
        intro n
        induction n with
        | nil => exact fun _ _ c hc => absurd hc not_mem_nil
        | cons d n ih =>
          intro hn hhead
          rw [forall_mem_cons] at hn ⊢
          by_cases hd : T.word d = true
          · rw [cons_append,dropWhile_cons_of_pos hd] at hhead
            exact ⟨hd,ih hn.2 hhead⟩
          · rw [cons_append,dropWhile_cons_of_neg hd,head?_cons] at hhead
            exact absurd (Option.some.inj hhead) hn.1
      exact hall name (fun c hc => (h c hc).2.1) hm.2
  · refine absurd ⟨?_,?_⟩ hm
    · rw [takeWhile_run hw.2 hend]
      exact hw.1
    · rw [dropWhile_run hw.2 hend]
      rfl
  · rfl

lemma matchSized_entry : matchSized T limit e.text =
    if IsWord T e.name then some (e.converted limit,e.name) else none := by
  obtain ⟨c,r,hcr,hdigit,_⟩ := suffix_head (T := T) e.suffix e.name
  have hdrop : e.text.dropWhile T.digit = e.suffix.text++bracketed e.name := by
    rw [Entry.text,append_assoc,hcr,(digits_run e.digits_ascii hdigit r).2]
  rw [matchSized,leadingSize_entry,hdrop]
  have hrest : matchName T (e.name++[')']) = if IsWord T e.name then some e.name else none :=
    matchName_eq e.name_ok
  by_cases hw : IsWord T e.name
  · rw [if_pos hw] at hrest ⊢
    cases e.suffix <;> simp [Suffix.text,bracketed,hrest]
  · rw [if_neg hw] at hrest ⊢
    cases e.suffix <;> simp [Suffix.text,bracketed,hrest]

lemma isFill_entry : isFill e.text = false := by
  cases hd : e.digits with
  | nil => exact absurd hd e.digits_ne
  | cons d ds =>
    have hminus : d ≠ '-' :=
      isDigit_ne (e.digits_ascii d (hd ▸ mem_cons_self)) (by decide)
    rw [Entry.text,hd,isFill]
    simp [List.isPrefixOf,hminus.symm]

lemma matchFill_fillText (h : NameOk name) :
    matchFill T (fillText name) = if IsWord T name then some name else none :=
  matchName_eq h

lemma matchSized_fillText (name : List Char) : matchSized T limit (fillText name) = none := by
  have hdigit : T.digit '-' = false := not_digit_ascii (by decide) (by decide)
  have htake : (fillText name).takeWhile T.digit = [] :=
    takeWhile_cons_of_neg (by rw [hdigit]; decide)
  rw [matchSized,leadingSize,htake]
  rfl

end

/-! ### The three loops -/

/-- No size has more digits than can be converted. -/
def Convertible (limit : Option ℕ) (es : List Entry) : Prop :=
  ∀ m ∈ limit,∀ e ∈ es,e.digits.length ≤ m

lemma Convertible.cons {e : Entry} {es : List Entry} :
    Convertible limit (e::es) ↔ e.converted limit = some e.size ∧ Convertible limit es := by
  simp only [Convertible,forall_mem_cons,converted_eq_some,and_true]
  exact forall₂_and

lemma number_convertible {e : Entry} (h : ∀ m ∈ limit,e.digits.length ≤ m) :
    MtdpartsLookup.Convertible T limit e.number.text := by
  refine .inr ?_
  rw [digitsOf_number]
  refine ⟨h,fun hzero c hc => ?_⟩
  replace hzero : e.digits.head?.bind T.decimal = some 0 := hzero
  replace hc : c ∈ e.digits := hc
  obtain ⟨d,ds,hd⟩ := exists_cons_of_ne_nil e.digits_ne
  have hdigit := e.digits_ascii d (hd ▸ mem_cons_self)
  rw [hd,head?_cons,bind_some] at hzero
  cases ds with
  | nil =>
    rw [hd,mem_singleton] at hc
    rw [hc,hzero]
    rfl
  | cons d' ds' =>
    rw [decimal_of_isDigit hdigit,Option.some.injEq] at hzero
    simp only [Char.isDigit,Bool.and_eq_true,decide_eq_true_eq] at hdigit
    have h48 : 48 ≤ d.toNat := hdigit.1
    have heq : d.toNat = '0'.toNat := show d.toNat = 48 by omega
    refine absurd ?_ (e.no_leading_zero (by rw [hd]; simp))
    rw [hd,head?_cons,Char.toNat_inj.mp heq]

lemma starts_lookup {fill : Option (List Char)} (hfill : ∀ n ∈ fill.toList,NameOk n)
    (es : List Entry) (prev i : ℕ) (hnodup : (es.map (·.name)++fill.toList).Nodup)
    (hi : (es.map (·.name)++fill.toList)[i]? = some name) :
    (starts prev (es.map Entry.part++fill.toList.pmap fillPart hfill)).lookup name =
      some (prev+((es.take i).map (·.size)).sum) := by
  induction es generalizing prev i with
  | nil =>
    cases fill with
    | none => simp at hi
    | some n =>
      cases i with
      | zero =>
        obtain rfl : n = name := by simpa using hi
        simp [starts,fillPart]
      | succ i => simp at hi
  | cons e es ih =>
    rw [map_cons,cons_append] at hi
    rw [map_cons,cons_append,nodup_cons] at hnodup
    rw [map_cons,cons_append,starts,lookup_cons]
    cases i with
    | zero =>
      obtain rfl : e.name = name := by simpa using hi
      simp [Entry.part]
    | succ i =>
      have hrest : (es.map (·.name)++fill.toList)[i]? = some name := by simpa using hi
      have hne : (name == e.part.name) = false :=
        beq_false_of_ne (ne_of_mem_of_not_mem (mem_of_getElem? hrest) hnodup.1)
      simp only [hne]
      rw [ih _ i hnodup.2 hrest,take_succ_cons,map_cons,sum_cons,← Nat.add_assoc,← number_value]
      rfl

lemma partitionOffset_value (l : Layout) (hconv : Convertible limit l.entries) {i : ℕ}
    (hi : l.names[i]? = some name) :
    mtdpartsPartitionOffset T limit l.value name false = some (some (l.offset i)) := by
  rw [← l.toValue_text,lookup_eq]
  · show some ((table false [l.toDevice]).lookup name) = _
    rw [table,filter_cons_of_pos rfl,filter_nil,flatMap_singleton]
    exact congrArg some ((starts_lookup l.fill_ok l.entries 0 i l.distinct hi).trans
      (by rw [Nat.zero_add,Layout.offset]))
  · intro d hd p hp n hn
    rw [mem_singleton.mp hd] at hp
    rcases mem_append.mp hp with hp | hp
    · obtain ⟨e,he,rfl⟩ := mem_map.mp hp
      rw [mem_singleton.mp hn]
      exact number_convertible fun m hm => hconv m hm e he
    · obtain ⟨_,_,rfl⟩ := mem_pmap.mp hp
      cases hn

lemma offsetsFrom_getItem (fill : Option (List Char)) (es : List Entry) (i cur : ℕ)
    (hconv : Convertible limit es) :
    ∃ r,offsetsFrom T limit i cur (es.map (·.text)++fill.toList.map fillText) = some r ∧
      ∀ j < es.length+fill.toList.length,
        getItem r.1 (i+j) = some (cur+((es.take j).map (·.size)).sum) := by
  induction es generalizing i cur with
  | nil =>
    cases fill with
    | none => exact ⟨_,rfl,fun j hj => absurd hj (by simp)⟩
    | some n =>
      have hf : isFill (fillText n) = true := rfl
      refine ⟨([(i,cur)],cur),?_,fun j hj => ?_⟩
      · show offsetsFrom T limit i cur [fillText n] = _
        simp only [offsetsFrom,strip_fillText,hf,if_true]
      · obtain rfl : j = 0 := by simpa using hj
        simp [getItem_cons]
  | cons e es ih =>
    rw [Convertible.cons] at hconv
    obtain ⟨r,hr,hget⟩ := ih (i+1) (cur+e.size) hconv.2
    refine ⟨((i,cur)::r.1,r.2),?_,fun j hj => ?_⟩
    · simp only [map_cons,cons_append,offsetsFrom,strip_entry,isFill_entry,
        Bool.false_eq_true,if_false,leadingSize_entry,getD_some,hconv.1,
        bind_eq_bind,bind_some,hr]
    rw [getItem_cons]
    cases j with
    | zero => simp
    | succ j =>
      rw [if_neg (by omega),show i+(j+1) = i+1+j by omega,
        hget j (by simpa [Nat.succ_add] using hj)]
      simp only [take_succ_cons,map_cons,sum_cons,Nat.add_assoc]

lemma convertible_of_offsetsFrom {ps : List (List Char)} {es : List Entry} {i cur : ℕ}
    {r : List (ℕ × ℕ) × ℕ} (h : offsetsFrom T limit i cur (es.map (·.text)++ps) = some r) :
    Convertible limit es := by
  induction es generalizing i cur r with
  | nil => exact fun _ _ => nofun
  | cons e es ih =>
    simp only [map_cons,cons_append,offsetsFrom,strip_entry,isFill_entry,
      Bool.false_eq_true,if_false,leadingSize_entry,getD_some,bind_eq_bind,
      bind_eq_some_iff] at h
    obtain ⟨size,hsize,q,hq,-⟩ := h
    rw [Convertible.cons]
    refine ⟨?_,ih hq⟩
    rw [hsize,(converted_eq_some e).mp hsize |>.2]

lemma partmapFrom_cases {i cur : ℕ} {p : List Char} {ps : List (List Char)}
    {m : List (ℕ × (List Char × ℕ × ℕ))} (h : partmapFrom T limit i cur (p::ps) = some m) :
    ∃ cur' rest,partmapFrom T limit (i+1) cur' ps = some rest ∧
      ((∃ v,m = (i,v)::rest) ∨ m = rest ∧ matchFill T (strip T p) = none ∧
        matchSized T limit (strip T p) = none) := by
  rw [partmapFrom] at h
  split at h
  · obtain ⟨rest,hrest,rfl⟩ := map_eq_some_iff.mp h
    exact ⟨_,rest,hrest,.inl ⟨_,rfl⟩⟩
  next hfill =>
    split at h
    · obtain ⟨size,-,h⟩ := bind_eq_some_iff.mp h
      obtain ⟨rest,hrest,rfl⟩ := map_eq_some_iff.mp h
      exact ⟨_,rest,hrest,.inl ⟨_,rfl⟩⟩
    next hsized => exact ⟨_,m,h,.inr ⟨rfl,hfill,hsized⟩⟩

lemma partmapFrom_getItem_lt {i cur j : ℕ} {ps : List (List Char)}
    {m : List (ℕ × (List Char × ℕ × ℕ))} (h : partmapFrom T limit i cur ps = some m) (hj : j < i) :
    getItem m j = none := by
  induction ps generalizing i cur m with
  | nil => rw [← Option.some.inj h]; rfl
  | cons p ps ih =>
    obtain ⟨cur',rest,hrest,⟨v,rfl⟩ | ⟨rfl,-⟩⟩ := partmapFrom_cases h
    · rw [getItem_cons,if_neg (by omega)]
      exact ih hrest (by omega)
    · exact ih hrest (by omega)

lemma partmapFrom_missing {p : List Char} (hfill : matchFill T (strip T p) = none)
    (hsized : matchSized T limit (strip T p) = none) {ps : List (List Char)} {i cur j : ℕ}
    {m : List (ℕ × (List Char × ℕ × ℕ))} (h : partmapFrom T limit i cur ps = some m)
    (hj : ps[j]? = some p) : getItem m (i+j) = none := by
  induction ps generalizing i cur j m with
  | nil => simp at hj
  | cons q ps ih =>
    cases j with
    | zero =>
      obtain rfl : q = p := by simpa using hj
      rw [partmapFrom,hfill] at h
      simp only [hsized] at h
      exact partmapFrom_getItem_lt h (Nat.lt_succ_self i)
    | succ j =>
      have hrest : ps[j]? = some p := by simpa using hj
      rw [show i+(j+1) = i+1+j by omega]
      obtain ⟨cur',rest,hm,⟨v,rfl⟩ | ⟨rfl,-⟩⟩ := partmapFrom_cases h
      · rw [getItem_cons,if_neg (by omega)]
        exact ih hm hrest
      · exact ih hm hrest

lemma partmapFrom_getItem {fill : Option (List Char)} (hfill : ∀ n ∈ fill.toList,NameOk n)
    (es : List Entry) (i cur : ℕ) (hword : ∀ n ∈ es.map (·.name)++fill.toList,IsWord T n)
    (hconv : Convertible limit es) :
    ∃ m,partmapFrom T limit i cur (es.map (·.text)++fill.toList.map fillText) = some m ∧
      ∀ j name,(es.map (·.name)++fill.toList)[j]? = some name → getItem m (i+j) =
        some (name,cur+((es.take j).map (·.size)).sum,(es[j]?.map (·.size)).getD 0) := by
  induction es generalizing i cur with
  | nil =>
    cases fill with
    | none => exact ⟨[],rfl,fun j name hj => by simp at hj⟩
    | some n =>
      refine ⟨[(i,n,cur,0)],?_,fun j name hj => ?_⟩
      · show partmapFrom T limit i cur [fillText n] = _
        simp only [partmapFrom,strip_fillText,matchFill_fillText (hfill n mem_cons_self),
          if_pos (hword n mem_cons_self),map_some]
      · obtain ⟨rfl,rfl⟩ : j = 0 ∧ n = name := by
          cases j with
          | zero => exact ⟨rfl,by simpa using hj⟩
          | succ j => simp at hj
        simp [getItem_cons]
  | cons e es ih =>
    rw [map_cons,cons_append,forall_mem_cons] at hword
    rw [Convertible.cons] at hconv
    have hfillNone : matchFill T e.text = none := by
      rw [matchFill,isFill_entry]
      rfl
    obtain ⟨m,hm,hget⟩ := ih (i+1) (cur+e.size) hword.2 hconv.2
    refine ⟨(i,e.name,cur,e.size)::m,?_,fun j name hj => ?_⟩
    · simp only [map_cons,cons_append,partmapFrom,strip_entry,hfillNone,
        matchSized_entry,if_pos hword.1,hconv.1,bind_eq_bind,bind_some,hm,
        map_some]
    rw [getItem_cons]
    cases j with
    | zero =>
      obtain rfl : e.name = name := by simpa using hj
      simp
    | succ j =>
      rw [if_neg (by omega),show i+(j+1) = i+1+j by omega,hget j name (by simpa using hj)]
      simp only [take_succ_cons,map_cons,sum_cons,Nat.add_assoc,
        getElem?_cons_succ]

/-! ### Agreement -/

def Layout.pairs (l : Layout) : List (List Char × List Char) :=
  l.entries.map (fun e => (e.name,e.text))++l.fill.toList.map fun n => (n,fillText n)

lemma pairs_names (l : Layout) : l.names = l.pairs.map (·.1) := by
  simp [Layout.names,Layout.pairs,Function.comp_def]

lemma pairs_parts (l : Layout) : l.parts = l.pairs.map (·.2) := by
  simp [Layout.parts,Layout.pairs,Function.comp_def]

lemma ubiPartmap_value (l : Layout) :
    ubiPartmap T limit l.value = partmapFrom T limit 0 0 l.parts := by
  rw [ubiPartmap,partition_value,bind_some,splitOn_parts]

lemma ubiPartmap_missing (l : Layout) {i : ℕ} (hi : l.names[i]? = some name)
    (hword : ¬IsWord T name) {m : List (ℕ × (List Char × ℕ × ℕ))}
    (hm : ubiPartmap T limit l.value = some m) : getItem m i = none := by
  rw [pairs_names,getElem?_map] at hi
  obtain ⟨pr,hpr,rfl⟩ := map_eq_some_iff.mp hi
  have hpart : l.parts[i]? = some pr.2 := by rw [pairs_parts,getElem?_map,hpr]; rfl
  have hnone : matchFill T (strip T pr.2) = none ∧ matchSized T limit (strip T pr.2) = none := by
    rcases mem_append.mp (mem_of_getElem? hpr) with h | h
    · obtain ⟨e,_,rfl⟩ := mem_map.mp h
      rw [strip_entry,matchFill,isFill_entry,matchSized_entry]
      exact ⟨rfl,if_neg hword⟩
    · obtain ⟨n,hn,rfl⟩ := mem_map.mp h
      rw [strip_fillText,matchFill_fillText (l.fill_ok n hn),matchSized_fillText]
      exact ⟨if_neg hword,rfl⟩
  rw [ubiPartmap_value] at hm
  have hget := partmapFrom_missing hnone.1 hnone.2 hm hpart
  rwa [Nat.zero_add] at hget

section
variable (l : Layout) (hconv : Convertible limit l.entries)
include hconv

lemma partOffsets_value (n : ℕ) : ∃ offsets,partOffsets T limit l.value n = some offsets ∧
    ∀ i < l.names.length,getItem offsets i = some (l.offset i) := by
  obtain ⟨r,hr,hget⟩ := offsetsFrom_getItem (T := T) l.fill l.entries 0 0 hconv
  have hparts : offsetsFrom T limit 0 0 ((partString l.value).splitOn ',') = some r := by
    rw [partString,partition_value]
    exact (congrArg _ (splitOn_parts l)).trans hr
  refine ⟨_,by rw [partOffsets,hparts,map_some],fun i hi => ?_⟩
  have hi' := hget i (by simpa [Layout.names] using hi)
  rw [Nat.zero_add,Nat.zero_add] at hi'
  rw [getItem_append,hi']
  rfl

lemma ubiPartmap_listed (hword : ∀ name ∈ l.names,IsWord T name) :
    ∃ m,ubiPartmap T limit l.value = some m ∧
      ∀ i name,l.names[i]? = some name → getItem m i = some (name,l.offset i,l.size i) := by
  obtain ⟨m,hm,hget⟩ := partmapFrom_getItem l.fill_ok l.entries 0 0 hword hconv
  refine ⟨m,(ubiPartmap_value l).trans hm,fun i name hi => ?_⟩
  have hi' := hget i name hi
  rwa [Nat.zero_add,Nat.zero_add] at hi'

end

/-- The parsers agree exactly on the layouts whose names are words and whose sizes are short
enough to be converted. -/
theorem parsers_agree_iff (T : CharTable) (limit : Option ℕ) (l : Layout) :
    Agree T limit l ↔ (∀ name ∈ l.names,IsWord T name) ∧
      ∀ m ∈ limit,∀ e ∈ l.entries,e.digits.length ≤ m := by
  constructor
  · intro h
    constructor
    · intro name hname
      obtain ⟨i,hi⟩ := mem_iff_getElem?.mp hname
      obtain ⟨_,_,m,hm,size,hget⟩ := h i name hi
      by_contra hword
      rw [ubiPartmap_missing l hi hword hm] at hget
      cases hget
    · obtain ⟨name,hname⟩ := exists_mem_of_ne_nil _ l.nonempty
      obtain ⟨i,hi⟩ := mem_iff_getElem?.mp hname
      obtain ⟨_,hoffsets,_⟩ := h i name hi
      obtain ⟨offsets,hparts,-⟩ := hoffsets 0
      rw [partOffsets,partString,partition_value] at hparts
      simp only [splitOn_parts] at hparts
      obtain ⟨r,hr,-⟩ := map_eq_some_iff.mp hparts
      exact convertible_of_offsetsFrom hr
  · rintro ⟨hword,hconv⟩ i name hi
    obtain ⟨m,hm,hget⟩ := ubiPartmap_listed l hconv hword
    refine ⟨partitionOffset_value l hconv hi,fun n => ?_,m,hm,_,hget i name hi⟩
    obtain ⟨offsets,hoffsets,hall⟩ := partOffsets_value (T := T) l hconv n
    exact ⟨offsets,hoffsets,hall i (List.getElem?_eq_some_iff.mp hi).1⟩

def bootEntry : Entry where
  digits := ['1']
  suffix := .M
  name := "boot".toList
  digits_ne := by decide +kernel
  digits_ascii := by simp
  no_leading_zero := by decide +kernel
  name_ok := by simp [NameOk]

/-- `hinand:1M(boot),3M(kernel-a),-(rootfs)`. -/
def hyphenLayout : Layout where
  device := "hinand".toList
  entries := [bootEntry,
    { digits := ['3'], suffix := .M, name := "kernel-a".toList, digits_ne := by decide +kernel
      digits_ascii := by simp, no_leading_zero := by decide +kernel, name_ok := by simp [NameOk] }]
  fill := some "rootfs".toList
  device_ok := by decide +kernel
  fill_ok := by simp [NameOk]
  distinct := by decide +kernel
  nonempty := by decide

/-- The restore command reads offset 1 MiB for `rootfs` from it, the installer 4 MiB. -/
theorem hyphenLayout_disagrees :
    ¬Agree asciiTable (some 4300) hyphenLayout ∧
      mtdpartsPartitionOffset asciiTable (some 4300) hyphenLayout.value "rootfs".toList false =
        some (some 0x400000) ∧
      (ubiPartmap asciiTable (some 4300) hyphenLayout.value).map (getItem · 2) =
        some (some ("rootfs".toList,0x100000,0)) := by
  refine ⟨fun h => ?_,by decide +kernel,by decide +kernel⟩
  have hi : hyphenLayout.names[1]? = some "kernel-a".toList := by decide +kernel
  have hword : ¬IsWord asciiTable "kernel-a".toList :=
    fun hw => absurd (hw.2 '-' (by simp)) (by decide)
  obtain ⟨_,_,m,hm,size,hget⟩ := h 1 _ hi
  rw [ubiPartmap_missing hyphenLayout hi hword hm] at hget
  cases hget

end Defib.MtdpartsAgreement
