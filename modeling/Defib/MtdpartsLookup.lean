import Mathlib.Algebra.GroupWithZero.Nat
import Defib.Mtdparts

/-!
# What the installer's layout lookup answers

A layout value is a list of devices with their partitions, and `Value.lookup` says where
a partition starts in it. `mtdparts_partition_offset` answers that, and `None` on texts
which are no layout, unless a number it reads is one that `int(text, 0)` refuses: a
decimal with a leading zero, or with more digits than the interpreter converts.
-/
namespace Defib.MtdpartsLookup
open List Option PyText Mtdparts

/-! ### Layout values -/

inductive Digits
  | decimal (ds : List Char) (nonempty : ds ≠ []) (ascii : ∀ c ∈ ds,c.isDigit = true)
  | hex (x : Char) (ds : List Char) (isX : x = 'x' ∨ x = 'X') (nonempty : ds ≠ [])
      (ascii : ∀ c ∈ ds,isHex c = true)

def Digits.text : Digits → List Char
  | .decimal ds _ _ => ds
  | .hex x ds _ _ _ => '0'::x::ds

def Digits.value : Digits → ℕ
  | .decimal ds _ _ => ds.foldl (fun v c => v*10+(c.toNat-48)) 0
  | .hex _ ds _ _ _ => ds.foldl (fun v c => v*16+hexDigit c) 0

/-- Digits and a unit. -/
structure Number where
  digits : Digits
  unit : Option Char
  unit_ok : ∀ c ∈ unit,c ∈ "kKmMgG".toList

def Number.text (n : Number) : List Char := n.digits.text++n.unit.toList

def Number.value (n : Number) : ℕ := n.digits.value*(n.unit.bind Mtdparts.unit).getD 1

def NameOk (name : List Char) : Prop := ∀ c ∈ name,c ≠ ',' ∧ c ≠ ')' ∧ c ≠ ';'

def bracketed (name : List Char) : List Char := '('::(name++[')'])

/-- `<size>[@<offset>](<name>)[ro][lk]`; no size is `-`, the rest of the device. -/
structure Part where
  size : Option Number
  offset : Option Number
  name : List Char
  flags : List Char
  name_ok : NameOk name
  flags_ok : flags ∈ ["".toList,"ro".toList,"lk".toList,"rolk".toList]

namespace Part

variable (p : Part)

def lead : List Char := p.size.elim ['-'] Number.text

def at' : List Char := p.offset.elim [] fun o => '@'::o.text

def text : List Char := p.lead++(p.at'++(bracketed p.name++p.flags))

end Part

structure Device where
  id : List Char
  parts : List Part
  id_ok : ':' ∉ id ∧ ';' ∉ id
  nonempty : parts ≠ []
  fill_last : ∀ p ∈ parts.dropLast,p.size ≠ none

def Device.text (d : Device) : List Char := d.id++ ':'::[','].intercalate (d.parts.map Part.text)

structure Value where
  prefixed : Bool
  devices : List Device
  nonempty : devices ≠ []

def Value.text (v : Value) : List Char :=
  (if v.prefixed then "mtdparts=".toList else [])++[';'].intercalate (v.devices.map Device.text)

/-- The partitions with their starts: the explicit offset, or the end of the one before. -/
def starts : ℕ → List Part → List (List Char × ℕ)
  | _,[] => []
  | prev,p::ps =>
    let start := (p.offset.map Number.value).getD prev
    (p.name,start)::starts (start+(p.size.map Number.value).getD 0) ps

def considered (nandOnly : Bool) (d : Device) : Bool :=
  !nandOnly || contains "nand".toList d.id

/-- The partitions of the devices that are looked at. -/
def table (nandOnly : Bool) (ds : List Device) : List (List Char × ℕ) :=
  (ds.filter (considered nandOnly)).flatMap fun d => starts 0 d.parts

def Value.lookup (v : Value) (name : List Char) (nandOnly : Bool) : Option ℕ :=
  (table nandOnly v.devices).lookup name

/-! ### The numbers that are read -/

variable (T : CharTable) (limit : Option ℕ) (name : List Char) (nandOnly : Bool)

def digitsOf (text : List Char) : List Char :=
  if (text.getLast?.bind unit).isSome then text.dropLast else text

/-- What `int(text, 0)` takes of the texts the expression matches. -/
def Convertible (text : List Char) : Prop :=
  ((digitsOf text).head? = some '0' ∧
    ((digitsOf text)[1]? = some 'x' ∨ (digitsOf text)[1]? = some 'X')) ∨
  ((∀ n ∈ limit,(digitsOf text).length ≤ n) ∧
    ((digitsOf text).head?.bind T.decimal = some 0 →
      ∀ c ∈ digitsOf text,(T.decimal c).getD 0 = 0))

/-- The parts of a device up to the one looked for, to `-` or to one that is no part. -/
def partsRead : List (List Char) → List PartMatch
  | [] => []
  | part::parts =>
    match mtdpartRe T (strip T part) with
    | none => []
    | some p =>
      if p.name = name ∨ p.size = ['-'] then [p] else p::partsRead parts

/-- The number texts of a part; the size counts only for the parts after it. -/
def numbers (p : PartMatch) : List (List Char) :=
  p.offset.toList++(if p.name = name ∨ p.size = ['-'] then [] else [p.size])

def devicesRead : List (List Char) → List (List PartMatch)
  | [] => []
  | device::devices =>
    match partition ':' device with
    | none => devicesRead devices
    | some (mtdId,parts) =>
      if nandOnly && !contains "nand".toList (strip T mtdId) then devicesRead devices
      else
        let ps := partsRead T name (parts.splitOn ',')
        ps::(if ps.any (·.name = name) then [] else devicesRead devices)

/-- Every number text read on the way to the partition. -/
def numbersRead (mtdparts : List Char) : List (List Char) :=
  (devicesRead T name nandOnly
    ((removePrefix "mtdparts=".toList (strip T mtdparts)).splitOn ';')).flatMap
      fun ps => ps.flatMap (numbers name)

/-- The lookup returns, and on a layout value it returns what the value says. -/
def Contract (mtdparts : List Char) : Prop :=
  ∃ r,mtdpartsPartitionOffset T limit mtdparts name nandOnly = some r ∧
    ∀ v : Value,v.text = mtdparts → r = v.lookup name nandOnly

variable {T limit name nandOnly}

/-! ### When the lookup returns -/

lemma decimalValue_eq_zero (ds : List Char) :
    decimalValue T ds = 0 ↔ ∀ c ∈ ds,(T.decimal c).getD 0 = 0 := by
  have hfold : ∀ (ds : List Char) (v : ℕ),
      ds.foldl (fun v c => v*10+(T.decimal c).getD 0) v = 0 ↔
        v = 0 ∧ ∀ c ∈ ds,(T.decimal c).getD 0 = 0 := by
    intro ds
    induction ds with
    | nil => simp
    | cons d ds ih =>
      intro v
      rw [foldl_cons,ih,forall_mem_cons,← and_assoc]
      refine and_congr_left fun _ => ?_
      omega
  rw [decimalValue,hfold]
  exact and_iff_right rfl

lemma intLiteral_isSome (text : List Char) : (intLiteral T limit text).isSome = true ↔
    ((text.head? = some '0' ∧ (text[1]? = some 'x' ∨ text[1]? = some 'X')) ∨
      ((∀ n ∈ limit,text.length ≤ n) ∧
        (text.head?.bind T.decimal = some 0 → ∀ c ∈ text,(T.decimal c).getD 0 = 0))) := by
  have hlimit : limit.any (· < text.length) = true ↔ ¬∀ n ∈ limit,text.length ≤ n := by
    cases limit <;> simp
  rw [← decimalValue_eq_zero,intLiteral]
  by_cases hhex : text.head? = some '0' ∧ (text[1]? = some 'x' ∨ text[1]? = some 'X')
  · rw [if_pos hhex]
    exact iff_of_true rfl (.inl hhex)
  rw [if_neg hhex,or_iff_right hhex]
  by_cases hlen : limit.any (· < text.length) = true
  · rw [if_pos hlen]
    exact iff_of_false (by simp) fun h => hlimit.mp hlen h.1
  rw [if_neg hlen,and_iff_right (not_not.mp fun h => hlen (hlimit.mpr h))]
  by_cases hzero : text.head?.bind T.decimal = some 0 ∧ decimalValue T text ≠ 0
  · rw [if_pos hzero]
    exact iff_of_false (by simp) fun h => hzero.2 (h hzero.1)
  · rw [if_neg hzero]
    exact iff_of_true rfl fun h => not_not.mp fun hne => hzero ⟨h,hne⟩

lemma mtdSize_isSome (text : List Char) :
    (mtdSize T limit text).isSome = true ↔ Convertible T limit text := by
  rw [Convertible,← intLiteral_isSome,mtdSize,digitsOf]
  cases text.getLast?.bind unit with
  | none => rfl
  | some m => rw [isSome_map]; rfl

def startOf (T : CharTable) (limit : Option ℕ) (prev : ℕ) (p : PartMatch) : Option ℕ :=
  match p.offset with
  | some o => mtdSize T limit o
  | none => some prev

lemma startOf_isSome (prev : ℕ) (p : PartMatch) :
    (startOf T limit prev p).isSome = true ↔ ∀ t ∈ p.offset.toList,Convertible T limit t := by
  rw [startOf]
  cases p.offset with
  | none => simp
  | some o => simp [mtdSize_isSome]

lemma deviceOffset_cons {part : List Char} {p : PartMatch} (prev : ℕ) (parts : List (List Char))
    (h : mtdpartRe T (strip T part) = some p) :
    deviceOffset T limit name prev (part::parts) =
      (startOf T limit prev p).bind fun start =>
        if p.name = name then some (some start)
        else if p.size = ['-'] then some none
        else (mtdSize T limit p.size).bind fun size =>
          deviceOffset T limit name (start+size) parts := by
  rw [deviceOffset,h]
  obtain ⟨size,offset,_⟩ := p
  cases offset <;> rfl

/-- One device: the loop returns if the numbers it reads convert, and then it has found the
partition if it was among the parts read. -/
theorem deviceOffset_spec (prev : ℕ) (parts : List (List Char)) :
    ((deviceOffset T limit name prev parts).isSome = true ↔
      ∀ t ∈ (partsRead T name parts).flatMap (numbers name),Convertible T limit t) ∧
    ∀ r,deviceOffset T limit name prev parts = some r →
      r.isSome = (partsRead T name parts).any (·.name = name) := by
  induction parts generalizing prev with
  | nil => exact ⟨by simp [deviceOffset,partsRead],by simp [deviceOffset,partsRead]⟩
  | cons part parts ih =>
    cases hp : mtdpartRe T (strip T part) with
    | none =>
      have hnone : deviceOffset T limit name prev (part::parts) = some none := by
        rw [deviceOffset,hp]
      have hread : partsRead T name (part::parts) = [] := by rw [partsRead,hp]
      rw [hnone,hread]
      exact ⟨by simp,by simp⟩
    | some p =>
      have hread : partsRead T name (part::parts) =
          if p.name = name ∨ p.size = ['-'] then [p] else p::partsRead T name parts := by
        rw [partsRead,hp]
      rw [deviceOffset_cons prev parts hp,hread]
      have hstart : (startOf T limit prev p).isSome = true ↔
          ∀ t ∈ p.offset.toList,Convertible T limit t := startOf_isSome prev p
      by_cases hlast : p.name = name ∨ p.size = ['-']
      · have hnumbers : numbers name p = p.offset.toList := by
          rw [numbers,if_pos hlast,append_nil]
        rw [if_pos hlast,flatMap_cons,flatMap_nil,append_nil,hnumbers,← hstart]
        cases startOf T limit prev p with
        | none => exact ⟨by simp,by simp⟩
        | some start =>
          by_cases hname : p.name = name
          · simp [hname]
          · simp [hname,hlast.resolve_left hname]
      · have hnumbers : numbers name p = p.offset.toList++[p.size] := by
          rw [numbers,if_neg hlast]
        rw [not_or] at hlast
        rw [if_neg (not_or.mpr hlast),flatMap_cons,hnumbers,forall_mem_append,
          forall_mem_append,forall_mem_singleton,← hstart,← mtdSize_isSome]
        cases startOf T limit prev p with
        | none => exact ⟨by simp,by simp⟩
        | some start =>
          rw [bind_some,if_neg hlast.1,if_neg hlast.2]
          cases mtdSize T limit p.size with
          | none => exact ⟨by simp,by simp⟩
          | some size =>
            obtain ⟨hsome,hfound⟩ := ih (start+size)
            rw [bind_some,hsome]
            refine ⟨by simp,fun r hr => ?_⟩
            rw [hfound r hr,any_cons,decide_eq_false hlast.1,Bool.false_or]

def overDevices (T : CharTable) (limit : Option ℕ) (name : List Char) (nandOnly : Bool)
    (devices : List (List Char)) : Option (Option ℕ) :=
  devices.foldr (fun device rest =>
    match partition ':' device with
    | none => rest
    | some (mtdId,parts) =>
      if nandOnly && !contains "nand".toList (strip T mtdId) then rest
      else match deviceOffset T limit name 0 (parts.splitOn ',') with
        | some none => rest
        | found => found) (some none)

lemma overDevices_isSome (devices : List (List Char)) :
    (overDevices T limit name nandOnly devices).isSome = true ↔
      ∀ t ∈ (devicesRead T name nandOnly devices).flatMap fun ps => ps.flatMap (numbers name),
        Convertible T limit t := by
  induction devices with
  | nil => exact iff_of_true rfl nofun
  | cons device devices ih =>
    rw [overDevices,foldr_cons,devicesRead]
    cases hpart : partition ':' device with
    | none => exact ih
    | some r =>
      obtain ⟨mtdId,parts⟩ := r
      dsimp only
      by_cases hskip : (nandOnly && !contains "nand".toList (strip T mtdId)) = true
      · rw [if_pos hskip,if_pos hskip]
        exact ih
      rw [if_neg hskip,if_neg hskip,flatMap_cons,forall_mem_append]
      obtain ⟨hsome,hfound⟩ := @deviceOffset_spec T limit name 0 (parts.splitOn ',')
      rw [← hsome]
      cases hoff : deviceOffset T limit name 0 (parts.splitOn ',') with
      | none => exact iff_of_false (by simp) fun h => absurd h.1 (by simp)
      | some r =>
        have hany := hfound r hoff
        rw [← hany]
        cases r with
        | none => exact ih.trans (and_iff_right rfl).symm
        | some off => exact iff_of_true rfl ⟨rfl,nofun⟩

/-! ### What a value's text parses to -/

section Digits
variable {ds : List Char} (hds : ∀ c ∈ ds,c.isDigit = true)
include hds

lemma digits_run {a : Char} (ha : T.digit a = false) (r : List Char) :
    (ds++a::r).takeWhile T.digit = ds ∧ (ds++a::r).dropWhile T.digit = a::r :=
  ⟨takeWhile_run (fun c hc => digit_ascii (hds c hc)) ha r,
    dropWhile_run (fun c hc => digit_ascii (hds c hc)) ha r⟩

lemma decimalValue_digits : decimalValue T ds = ds.foldl (fun v c => v*10+(c.toNat-48)) 0 := by
  have hfold : ∀ (ds : List Char) (v : ℕ),(∀ c ∈ ds,c.isDigit = true) →
      ds.foldl (fun v c => v*10+(T.decimal c).getD 0) v =
        ds.foldl (fun v c => v*10+(c.toNat-48)) v := by
    intro ds
    induction ds with
    | nil => exact fun v _ => rfl
    | cons d ds ih =>
      intro v hds
      rw [forall_mem_cons] at hds
      rw [foldl_cons,foldl_cons,decimal_of_isDigit hds.1,getD_some]
      exact ih _ hds.2
  exact hfold ds 0 hds

lemma digits_not_hex (hne : ds ≠ []) (r : List Char)
    (hr : r.head? ≠ some 'x' ∧ r.head? ≠ some 'X') :
    ¬((ds++r)[1]? = some 'x' ∨ (ds++r)[1]? = some 'X') := by
  cases ds with
  | nil => exact absurd rfl hne
  | cons d ds =>
    cases ds with
    | nil =>
      rw [head?_eq_getElem?] at hr
      simpa using hr
    | cons d' ds' =>
      have hdigit := hds d' (by simp)
      have hx : d' ≠ 'x' := isDigit_ne hdigit (by decide)
      have hX : d' ≠ 'X' := isDigit_ne hdigit (by decide)
      simp [hx,hX]

end Digits

lemma unit_hex {c : Char} (h : isHex c = true) : unit c = none := by
  have hne : ∀ d : Char,isHex d = false → c ≠ d := by
    rintro d hd rfl
    rw [h] at hd
    cases hd
  rw [unit,if_neg,if_neg,if_neg]
  · exact fun hg => hg.elim (hne _ (by decide)) (hne _ (by decide))
  · exact fun hm => hm.elim (hne _ (by decide)) (hne _ (by decide))
  · exact fun hk => hk.elim (hne _ (by decide)) fun hk =>
      hk.elim (hne _ (by decide)) (hne _ (by decide))

lemma unit_digit {c : Char} (h : c.isDigit = true) : unit c = none :=
  unit_hex (isHex_of_isDigit h)

lemma follow_spec {c : Char} (hc : c ∈ "kKmMgG@(".toList) :
    T.digit c = false ∧ isHex c = false ∧ c ≠ 'x' ∧ c ≠ 'X' := by
  have hascii : ∀ c ∈ "kKmMgG@(".toList,
      c.toNat < 128 ∧ c.isDigit = false ∧ isHex c = false ∧ c ≠ 'x' ∧ c ≠ 'X' :=
    forall_mem_of_all (by decide)
  obtain ⟨hlt,hdigit,hrest⟩ := hascii c hc
  exact ⟨not_digit_ascii hlt hdigit,hrest⟩

lemma matchNumber_digits (d : Digits) {c : Char} (hc : c ∈ "kKmMgG@(".toList) (r : List Char) :
    matchNumber T (d.text++c::r) = some (d.text,c::r) := by
  obtain ⟨hdigit,hhex,hx,hX⟩ := follow_spec (T := T) hc
  cases d with
  | decimal ds hne hds =>
    have hnot := digits_not_hex hds hne (c::r) ⟨by simpa using hx,by simpa using hX⟩
    rw [Digits.text,matchNumber,if_neg fun h => hnot h.2.1,(digits_run hds hdigit r).1,
      (digits_run hds hdigit r).2]
    simp only [hne,if_false]
  | hex x ds hx hne hds =>
    have hall : ∀ c ∈ ds,isHex c = true := hds
    have htake : (ds++c::r).takeWhile isHex = ds := takeWhile_run hall hhex r
    have hdrop : (ds++c::r).dropWhile isHex = c::r := dropWhile_run hall hhex r
    show matchNumber T ('0'::x::(ds++c::r)) = some ('0'::x::ds,c::r)
    rw [matchNumber,if_pos]
    · simp only [drop_succ_cons,drop_zero,take_succ_cons,take_zero,htake,
        hdrop,cons_append,nil_append]
    · refine ⟨rfl,?_,?_⟩
      · exact hx.imp (congrArg some) (congrArg some)
      · rw [drop_succ_cons,drop_succ_cons,drop_zero,htake]
        exact hne

lemma unit_spec : ∀ c ∈ "kKmMgG".toList,
    c ∈ "kKmMgG@(".toList ∧ (unit c).isSome = true ∧ c ≠ ',' ∧ c ≠ ';' :=
  forall_mem_of_all (by decide)

lemma matchSize_number (n : Number) {c : Char} (hc : c ∈ "@(".toList) (r : List Char) :
    matchSize T (n.text++c::r) = some (n.text,c::r) := by
  obtain ⟨digits,u,hu⟩ := n
  cases u with
  | none =>
    have hlast : ∀ c ∈ "@(".toList,c ∈ "kKmMgG@(".toList ∧ unit c = none :=
      forall_mem_of_all (by decide)
    rw [Number.text,toList_none,append_nil,matchSize,
      matchNumber_digits digits (hlast c hc).1 r]
    simp only [map_some,(hlast c hc).2,isSome_none,Bool.false_eq_true,if_false]
  | some u =>
    obtain ⟨hfollow,hsome,-⟩ := unit_spec u (hu u rfl)
    show matchSize T ((digits.text++[u])++c::r) = some (digits.text++[u],c::r)
    rw [append_assoc,singleton_append,matchSize,
      matchNumber_digits digits hfollow (c::r)]
    simp only [map_some,hsome,if_true]

lemma number_head (n : Number) : ∃ d t,n.text = d::t ∧ d.isDigit = true := by
  obtain ⟨digits,u,hu⟩ := n
  cases digits with
  | decimal ds hne hds =>
    cases ds with
    | nil => exact absurd rfl hne
    | cons d ds => exact ⟨d,_,rfl,hds d mem_cons_self⟩
  | hex x ds hx hne hds => exact ⟨'0',_,rfl,by decide⟩

lemma digits_unit (d : Digits) : d.text.getLast?.bind unit = none := by
  cases d with
  | decimal ds hne hds =>
    obtain ⟨c,hc⟩ := ne_none_iff_exists'.mp (mt getLast?_eq_none_iff.mp hne)
    rw [Digits.text,hc]
    exact unit_digit (hds c (mem_of_getLast? hc))
  | hex x ds hx hne hds =>
    obtain ⟨c,hc⟩ := ne_none_iff_exists'.mp (mt getLast?_eq_none_iff.mp hne)
    rw [Digits.text,getLast?_cons,getLast?_cons,hc]
    exact unit_hex (hds c (mem_of_getLast? hc))

lemma intLiteral_value {d : Digits} {v : ℕ} (h : intLiteral T limit d.text = some v) :
    v = d.value := by
  cases d with
  | decimal ds hne hds =>
    have hnot := digits_not_hex hds hne [] ⟨nofun,nofun⟩
    rw [append_nil] at hnot
    rw [Digits.text,intLiteral,if_neg fun h => hnot h.2] at h
    split_ifs at h
    rw [← Option.some.inj h,decimalValue_digits hds,Digits.value]
  | hex x ds hx hne hds =>
    rw [Digits.text,intLiteral,if_pos ⟨rfl,hx.imp (congrArg some) (congrArg some)⟩] at h
    exact (Option.some.inj h).symm

lemma digitsOf_number (n : Number) : digitsOf n.text = n.digits.text := by
  obtain ⟨digits,u,hu⟩ := n
  cases u with
  | none =>
    rw [Number.text,toList_none,append_nil,digitsOf,digits_unit]
    rfl
  | some u =>
    rw [Number.text,toList_some,digitsOf,getLast?_concat,bind_some,
      if_pos (unit_spec u (hu u rfl)).2.1,dropLast_concat]

lemma mtdSize_value {n : Number} {v : ℕ} (h : mtdSize T limit n.text = some v) :
    v = n.value := by
  obtain ⟨digits,u,hu⟩ := n
  cases u with
  | none =>
    rw [Number.text,toList_none,append_nil,mtdSize,digits_unit] at h
    rw [intLiteral_value h]
    exact (Nat.mul_one _).symm
  | some u =>
    obtain ⟨m,hm⟩ := isSome_iff_exists.mp (unit_spec u (hu u rfl)).2.1
    rw [Number.text,toList_some,mtdSize,getLast?_concat,bind_some,hm,
      dropLast_concat] at h
    obtain ⟨w,hw,rfl⟩ := map_eq_some_iff.mp h
    rw [intLiteral_value hw,Number.value,bind_some,hm,getD_some]

lemma matchLead_part (p : Part) {c : Char} (hc : c ∈ "@(".toList) (r : List Char) :
    matchLead T (p.lead++c::r) = some (p.lead,c::r) := by
  rw [Part.lead]
  cases p.size with
  | none => rfl
  | some n =>
    obtain ⟨d,t,hd,hdigit⟩ := number_head n
    rw [elim_some,matchLead,if_neg,matchSize_number n hc r]
    rw [hd]
    simpa using isDigit_ne hdigit (show '-'.isDigit = false by decide)

lemma matchAt_part (p : Part) (r : List Char) :
    matchAt T (p.at'++ '('::r) = (p.offset.map Number.text,'('::r) := by
  rw [Part.at']
  cases p.offset with
  | none => rfl
  | some n =>
    rw [elim_some,cons_append,matchAt,head?_cons,if_pos rfl,tail_cons,
      matchSize_number n (by decide) r]
    rfl

lemma matchBracket_part (p : Part) : matchBracket (bracketed p.name++p.flags) = some p.name := by
  have hname : (p.name++ ')'::p.flags).takeWhile (· ≠ ')') = p.name :=
    takeWhile_run (fun c hc => decide_eq_true (p.name_ok c hc).2.1) (by simp) p.flags
  have htext : bracketed p.name++p.flags = '('::(p.name++ ')'::p.flags) := by
    rw [bracketed,cons_append,append_assoc]
    rfl
  rw [htext,matchBracket,tail_cons,if_pos ⟨rfl,by simp⟩,hname]

lemma mtdpartRe_part (p : Part) :
    mtdpartRe T p.text = some ⟨p.lead,p.offset.map Number.text,p.name⟩ := by
  have hlead : matchLead T p.text = some (p.lead,p.at'++(bracketed p.name++p.flags)) := by
    rw [Part.text]
    cases ho : p.offset with
    | none =>
      rw [Part.at',ho]
      exact matchLead_part p (by decide) _
    | some n =>
      rw [Part.at',ho]
      exact matchLead_part p (by decide) _
  have hat : matchAt T (p.at'++(bracketed p.name++p.flags)) =
      (p.offset.map Number.text,bracketed p.name++p.flags) := matchAt_part p _
  simp only [mtdpartRe,hlead,hat,matchBracket_part,bind_eq_bind,bind_some]

/-! ### Splitting a value again -/

lemma number_free (n : Number) {c : Char} (hc : c ∈ n.text) : c ≠ ',' ∧ c ≠ ';' := by
  obtain ⟨digits,u,hu⟩ := n
  have hhex : ∀ {c : Char},isHex c = true → c ≠ ',' ∧ c ≠ ';' := by
    intro c h
    constructor <;>
    · rintro rfl
      exact absurd h (by decide)
  rcases mem_append.mp hc with hc | hc
  · cases digits with
    | decimal ds hne hds => exact hhex (isHex_of_isDigit (hds c hc))
    | hex x ds hx hne hds =>
      rcases mem_cons.mp hc with rfl | hc
      · decide
      rcases mem_cons.mp hc with rfl | hc
      · rcases hx with rfl | rfl <;> decide
      · exact hhex (hds c hc)
  · exact (unit_spec c (hu c (mem_toList.mp hc))).2.2

lemma bracketed_free {name : List Char} (h : NameOk name) {c : Char} (hc : c ∈ bracketed name) :
    c ≠ ',' ∧ c ≠ ';' := by
  rcases mem_cons.mp hc with rfl | hc
  · decide
  rcases mem_append.mp hc with hc | hc
  · exact ⟨(h c hc).1,(h c hc).2.2⟩
  · rw [mem_singleton.mp hc]
    decide

lemma part_free (p : Part) {c : Char} (hc : c ∈ p.text) : c ≠ ',' ∧ c ≠ ';' := by
  rw [Part.text,Part.lead,Part.at'] at hc
  rcases mem_append.mp hc with hc | hc
  · cases hs : p.size with
    | none =>
      rw [hs,elim_none,mem_singleton] at hc
      subst hc
      decide
    | some n => exact number_free n (by rw [hs] at hc; exact hc)
  rcases mem_append.mp hc with hc | hc
  · cases ho : p.offset with
    | none =>
      rw [ho] at hc
      exact absurd hc not_mem_nil
    | some n =>
      rw [ho,elim_some] at hc
      rcases mem_cons.mp hc with rfl | hc
      · decide
      · exact number_free n hc
  rcases mem_append.mp hc with hc | hc
  · exact bracketed_free p.name_ok hc
  · have hflags : ∀ f ∈ ["".toList,"ro".toList,"lk".toList,"rolk".toList],
        ∀ c ∈ f,c ≠ ',' ∧ c ≠ ';' := by simp
    exact hflags _ p.flags_ok c hc

lemma bracketed_getLast (s name : List Char) : (s++bracketed name).getLast? = some ')' := by
  rw [bracketed,getLast?_append_of_ne_nil _ (cons_ne_nil _ _),← cons_append,
    getLast?_concat]

lemma part_getLast (p : Part) : ∃ b,p.text.getLast? = some b ∧ T.space b = false := by
  have hflags : ∀ f ∈ ["".toList,"ro".toList,"lk".toList,"rolk".toList],
      f = [] ∨ f.getLast? = some 'o' ∨ f.getLast? = some 'k' := by decide
  rw [Part.text,← append_assoc,← append_assoc]
  rcases hflags _ p.flags_ok with hf | hf | hf
  · refine ⟨')',?_,not_space_graphic (by decide)⟩
    rw [hf,append_nil]
    exact bracketed_getLast _ _
  · refine ⟨'o',?_,not_space_graphic (by decide)⟩
    rw [getLast?_append,hf]
    rfl
  · refine ⟨'k',?_,not_space_graphic (by decide)⟩
    rw [getLast?_append,hf]
    rfl

lemma strip_part (p : Part) : strip T p.text = p.text := by
  obtain ⟨b,hb,hspace⟩ := part_getLast (T := T) p
  obtain ⟨a,m,hlead,ha⟩ : ∃ a m,p.lead = a::m ∧ T.space a = false := by
    rw [Part.lead]
    cases p.size with
    | none => exact ⟨'-',[],rfl,not_space_graphic (by decide)⟩
    | some n =>
      obtain ⟨d,t,hd,hdigit⟩ := number_head n
      exact ⟨d,t,hd,not_space_of_isDigit hdigit⟩
  refine strip_eq_self (m := m++(p.at'++(bracketed p.name++p.flags))) ?_ hb ha hspace
  rw [Part.text,hlead,cons_append]

lemma lead_eq_minus (p : Part) : p.lead = ['-'] ↔ p.size = none := by
  rw [Part.lead]
  cases p.size with
  | none => exact iff_of_true rfl rfl
  | some n =>
    obtain ⟨d,t,hd,hdigit⟩ := number_head n
    refine iff_of_false (fun h => ?_) nofun
    rw [elim_some,hd] at h
    exact isDigit_ne hdigit (show '-'.isDigit = false by decide) (List.cons.inj h).1

lemma deviceOffset_value (ps : List Part) (hfill : ∀ p ∈ ps.dropLast,p.size ≠ none) (prev : ℕ)
    {r : Option ℕ} (h : deviceOffset T limit name prev (ps.map Part.text) = some r) :
    r = (starts prev ps).lookup name := by
  induction ps generalizing prev with
  | nil => exact (Option.some.inj h).symm
  | cons p ps ih =>
    have hre : mtdpartRe T (strip T p.text) =
        some ⟨p.lead,p.offset.map Number.text,p.name⟩ := by
      rw [strip_part,mtdpartRe_part]
    rw [map_cons,deviceOffset_cons prev _ hre] at h
    obtain ⟨start,hstart,h⟩ := bind_eq_some_iff.mp h
    have hstart' : start = (p.offset.map Number.value).getD prev := by
      rw [startOf] at hstart
      cases ho : p.offset with
      | none =>
        rw [ho] at hstart
        exact (Option.some.inj hstart).symm
      | some n =>
        rw [ho] at hstart
        exact mtdSize_value hstart
    rw [starts,← hstart',lookup_cons]
    by_cases hname : p.name = name
    · rw [if_pos hname] at h
      simp only [hname,beq_self_eq_true]
      exact (Option.some.inj h).symm
    have hbeq : (name == p.name) = false := beq_false_of_ne (Ne.symm hname)
    rw [if_neg hname] at h
    simp only [hbeq]
    cases hsize : p.size with
    | none =>
      -- only the last part may take the rest of the device
      have hnil : ps = [] := by
        by_contra hne
        refine hfill p ?_ hsize
        rw [dropLast_cons_of_ne_nil hne]
        exact mem_cons_self
      rw [if_pos ((lead_eq_minus p).mpr hsize)] at h
      rw [hnil]
      exact (Option.some.inj h).symm
    | some n =>
      have hlead : p.lead = n.text := by rw [Part.lead,hsize,elim_some]
      rw [if_neg fun hm => absurd ((lead_eq_minus p).mp hm) (by rw [hsize]; nofun),hlead] at h
      obtain ⟨size,hval,h⟩ := bind_eq_some_iff.mp h
      rw [mtdSize_value hval] at h
      refine ih (fun q hq => hfill q ?_) _ h
      cases ps with
      | nil => exact absurd hq not_mem_nil
      | cons q' qs => exact mem_cons_of_mem p hq

lemma splitOn_device (d : Device) :
    ([','].intercalate (d.parts.map Part.text)).splitOn ',' = d.parts.map Part.text := by
  refine splitOn_intercalate ',' (fun t ht hc => ?_) (mt map_eq_nil_iff.mp d.nonempty)
  obtain ⟨p,_,rfl⟩ := mem_map.mp ht
  exact (part_free p hc).1 rfl

lemma device_free (d : Device) : ';' ∉ d.text := by
  intro hc
  rcases mem_append.mp hc with hc | hc
  · exact d.id_ok.2 hc
  rcases mem_cons.mp hc with hc | hc
  · cases hc
  rcases mem_intercalate hc with hc | ⟨t,ht,hc⟩
  · cases hc
  · obtain ⟨p,_,rfl⟩ := mem_map.mp ht
    exact (part_free p hc).2 rfl

lemma device_getLast (a : List Char) (d : Device) :
    ∃ b,(a++ ':'::[','].intercalate (d.parts.map Part.text)).getLast? = some b ∧
      T.space b = false := by
  obtain ⟨b,hb,hspace⟩ := intercalate_getLast? ',' (P := fun b => T.space b = false)
    (mt map_eq_nil_iff.mp d.nonempty) fun t ht => by
      obtain ⟨p,_,rfl⟩ := mem_map.mp ht
      exact part_getLast p
  refine ⟨b,?_,hspace⟩
  rw [getLast?_append,getLast?_cons,hb]
  rfl

lemma contains_strip (s : List Char) :
    contains "nand".toList (strip T s) = contains "nand".toList s := by
  have hn : T.space 'n' = false := not_space_graphic (by decide)
  have hd : T.space 'd' = false := not_space_graphic (by decide)
  rw [Bool.eq_iff_iff,contains_iff,contains_iff]
  exact @infix_strip T 'n' 'd' ['a','n'] s hn hd

lemma contains_append_left {a : List Char} (ha : 'n' ∉ a) (s : List Char) :
    contains "nand".toList (a++s) = contains "nand".toList s := by
  rw [Bool.eq_iff_iff,contains_iff,contains_iff]
  exact infix_append_left ha

lemma overDevices_value (ds : List Device) {r : Option ℕ}
    (h : overDevices T limit name nandOnly (ds.map Device.text) = some r) :
    r = (table nandOnly ds).lookup name := by
  induction ds generalizing r with
  | nil => exact (Option.some.inj h).symm
  | cons d ds ih =>
    have hskip : (nandOnly && !contains "nand".toList (strip T d.id)) = !considered nandOnly d := by
      rw [contains_strip,considered,Bool.not_or,Bool.not_not]
    rw [overDevices,map_cons,foldr_cons,Device.text,partition_eq d.id_ok.1] at h
    dsimp only at h
    rw [hskip,splitOn_device] at h
    rw [table]
    cases hcons : considered nandOnly d with
    | false =>
      rw [filter_cons_of_neg (by rw [hcons]; decide)]
      rw [hcons] at h
      exact ih h
    | true =>
      rw [filter_cons_of_pos hcons,flatMap_cons,lookup_append]
      rw [hcons] at h
      cases hoff : deviceOffset T limit name 0 (d.parts.map Part.text) with
      | none =>
        rw [hoff] at h
        cases h
      | some found =>
        rw [hoff] at h
        rw [← deviceOffset_value d.parts d.fill_last 0 hoff]
        cases found with
        | none => exact ih h
        | some off => exact (Option.some.inj h).symm

/-- Stripping and removing the prefix take a front without `n` off what stands before the
first colon. -/
theorem front_removed {a r : List Char} {b : Char} (hb : (':'::r).getLast? = some b)
    (hspace : T.space b = false) : ∃ gone a',a = gone++a' ∧ 'n' ∉ gone ∧
      removePrefix "mtdparts=".toList (strip T (a++ ':'::r)) = a'++ ':'::r := by
  have hn : T.space 'n' = false := not_space_graphic (by decide)
  have hrun : 'n' ∉ a.takeWhile T.space := by
    intro hmem
    rw [mem_takeWhile_imp hmem] at hn
    cases hn
  have hsplit : a = a.takeWhile T.space++a.dropWhile T.space :=
    takeWhile_append_dropWhile.symm
  rw [strip_append_cons (not_space_graphic (by decide)) hb hspace]
  obtain ⟨a',heq,hcut⟩ := removePrefix_append_cons (p := "mtdparts=".toList)
    (a := a.dropWhile T.space) (show ':' ∉ _ by decide) r
  rcases hcut with hcut | hcut
  · refine ⟨a.takeWhile T.space++"mtdparts=".toList,a',?_,?_,heq⟩
    · rw [append_assoc,← hcut]
      exact hsplit
    · rw [mem_append,not_or]
      exact ⟨hrun,by decide⟩
  · exact ⟨a.takeWhile T.space,a',hcut ▸ hsplit,hrun,heq⟩

/-- The prefix and the spaces around a value touch nothing but the name of its first device,
and nothing in there that tells a NAND device. -/
theorem value_devices (v : Value) : ∃ ds : List Device,
    (removePrefix "mtdparts=".toList (strip T v.text)).splitOn ';' = ds.map Device.text ∧
      ds.map Device.parts = v.devices.map Device.parts ∧
      table nandOnly ds = table nandOnly v.devices := by
  obtain ⟨pre,devices,hne⟩ := v
  cases devices with
  | nil => exact absurd rfl hne
  | cons d ds =>
    obtain ⟨front,hfront,hpre⟩ : ∃ front : List Char,
        (if pre then "mtdparts=".toList else []) = front ∧
          'n' ∉ front ∧ ':' ∉ front ∧ ';' ∉ front := by
      cases pre <;> exact ⟨_,rfl,by decide⟩
    obtain ⟨t,ht⟩ := intercalate_head ';' (':'::[','].intercalate (d.parts.map Part.text))
      (ds.map Device.text)
    have htext : Value.text ⟨pre,d::ds,hne⟩ =
        (front++d.id)++ ':'::([','].intercalate (d.parts.map Part.text)++t) := by
      rw [Value.text,hfront,map_cons,Device.text,ht,append_assoc]
      rfl
    obtain ⟨b,hb,hspace⟩ : ∃ b,(':'::([','].intercalate (d.parts.map Part.text)++t)).getLast? =
        some b ∧ T.space b = false := by
      have hall := intercalate_getLast? ';' (P := fun b => T.space b = false)
        (cons_ne_nil ([]++ ':'::[','].intercalate (d.parts.map Part.text))
          (ds.map Device.text)) fun p hp => by
        rcases mem_cons.mp hp with rfl | hp
        · exact device_getLast [] d
        · obtain ⟨e,_,rfl⟩ := mem_map.mp hp
          exact device_getLast e.id e
      rw [ht []] at hall
      exact hall
    obtain ⟨gone,a',hsplit,hgone,heq⟩ := front_removed (a := front++d.id) hb hspace
    have hsub : ∀ c ∈ a',c ∈ front ∨ c ∈ d.id := fun c hc =>
      mem_append.mp (hsplit ▸ mem_append_right gone hc)
    have hid : ':' ∉ a' ∧ ';' ∉ a' :=
      ⟨fun hc => (hsub _ hc).elim hpre.2.1 d.id_ok.1,
        fun hc => (hsub _ hc).elim hpre.2.2 d.id_ok.2⟩
    have hnand : contains "nand".toList a' = contains "nand".toList d.id := by
      rw [← contains_append_left hgone,← hsplit,contains_append_left hpre.1]
    have hconsidered : considered nandOnly ⟨a',d.parts,hid,d.nonempty,d.fill_last⟩ =
        considered nandOnly d := by
      rw [considered,considered,hnand]
    refine ⟨⟨a',d.parts,hid,d.nonempty,d.fill_last⟩::ds,?_,rfl,?_⟩
    · rw [htext,heq]
      have hjoin := (ht a').symm
      rw [cons_append] at hjoin
      rw [hjoin]
      refine splitOn_intercalate ';' (fun p hp => ?_) (cons_ne_nil _ _)
      rcases mem_cons.mp hp with rfl | hp
      · exact device_free ⟨a',d.parts,hid,d.nonempty,d.fill_last⟩
      · obtain ⟨e,_,rfl⟩ := mem_map.mp hp
        exact device_free e
    · rw [table,table,filter_cons,filter_cons,hconsidered]
      split <;> rfl

/-! ### Values whose numbers convert -/

def Part.numbers (p : Part) : List Number := p.offset.toList++p.size.toList

lemma numbers_part {p : Part} {t : List Char}
    (h : t ∈ numbers name ⟨p.lead,p.offset.map Number.text,p.name⟩) :
    ∃ n ∈ p.numbers,t = n.text := by
  rcases mem_append.mp h with h | h
  · obtain ⟨n,hn,rfl⟩ := map_eq_some_iff.mp (mem_toList.mp h)
    exact ⟨n,mem_append_left _ (mem_toList.mpr hn),rfl⟩
  · split_ifs at h with hlast
    · cases h
    · rw [not_or,lead_eq_minus] at hlast
      obtain ⟨n,hn⟩ := ne_none_iff_exists'.mp hlast.2
      refine ⟨n,mem_append_right _ (mem_toList.mpr hn),?_⟩
      rw [mem_singleton.mp h,Part.lead,hn,elim_some]

lemma partsRead_numbers {ps : List Part} {t : List Char}
    (h : t ∈ (partsRead T name (ps.map Part.text)).flatMap (numbers name)) :
    ∃ p ∈ ps,∃ n ∈ p.numbers,t = n.text := by
  induction ps with
  | nil => cases h
  | cons p ps ih =>
    rw [map_cons,partsRead,strip_part,mtdpartRe_part] at h
    dsimp only at h
    split_ifs at h
    · rw [flatMap_singleton] at h
      exact ⟨p,mem_cons_self,numbers_part h⟩
    · rw [flatMap_cons] at h
      rcases mem_append.mp h with h | h
      · exact ⟨p,mem_cons_self,numbers_part h⟩
      · obtain ⟨q,hq,hn⟩ := ih h
        exact ⟨q,mem_cons_of_mem p hq,hn⟩

lemma devicesRead_numbers {ds : List Device} {t : List Char}
    (h : t ∈ (devicesRead T name nandOnly (ds.map Device.text)).flatMap
      fun ps => ps.flatMap (numbers name)) :
    ∃ ps ∈ ds.map Device.parts,∃ p ∈ ps,∃ n ∈ p.numbers,t = n.text := by
  induction ds with
  | nil => cases h
  | cons d ds ih =>
    rw [map_cons,devicesRead,Device.text,partition_eq d.id_ok.1] at h
    dsimp only at h
    split at h
    · obtain ⟨ps,hps,hn⟩ := ih h
      exact ⟨ps,mem_cons_of_mem _ hps,hn⟩
    rw [splitOn_device,flatMap_cons] at h
    rcases mem_append.mp h with h | h
    · exact ⟨d.parts,mem_cons_self,partsRead_numbers h⟩
    split at h
    · cases h
    · obtain ⟨ps,hps,hn⟩ := ih h
      exact ⟨ps,mem_cons_of_mem _ hps,hn⟩

lemma lookup_isSome (mtdparts : List Char) :
    (mtdpartsPartitionOffset T limit mtdparts name nandOnly).isSome = true ↔
      ∀ t ∈ numbersRead T name nandOnly mtdparts,Convertible T limit t :=
  overDevices_isSome _

lemma lookup_value {v : Value} {r : Option ℕ}
    (h : mtdpartsPartitionOffset T limit v.text name nandOnly = some r) :
    r = v.lookup name nandOnly := by
  obtain ⟨ds,htexts,-,htable⟩ := @value_devices T nandOnly v
  have hover : overDevices T limit name nandOnly (ds.map Device.text) = some r := by
    rw [← htexts]
    exact h
  rw [overDevices_value ds hover,htable,Value.lookup]

lemma lookup_eq {v : Value} (h : ∀ d ∈ v.devices,∀ p ∈ d.parts,∀ n ∈ p.numbers,
    Convertible T limit n.text) :
    mtdpartsPartitionOffset T limit v.text name nandOnly = some (v.lookup name nandOnly) := by
  have hread : ∀ t ∈ numbersRead T name nandOnly v.text,Convertible T limit t := by
    intro t ht
    obtain ⟨ds,htexts,hparts,-⟩ := @value_devices T nandOnly v
    rw [numbersRead,htexts] at ht
    obtain ⟨ps,hps,p,hp,n,hn,rfl⟩ := devicesRead_numbers ht
    rw [hparts] at hps
    obtain ⟨d,hd,rfl⟩ := mem_map.mp hps
    exact h d hd p hp n hn
  obtain ⟨r,hr⟩ := isSome_iff_exists.mp ((lookup_isSome _).mpr hread)
  rw [hr,lookup_value hr]

/-- The lookup keeps its contract if and only if every number it reads converts. -/
theorem partition_lookup_iff (mtdparts : List Char) : Contract T limit name nandOnly mtdparts ↔
    ∀ t ∈ numbersRead T name nandOnly mtdparts,Convertible T limit t := by
  rw [← lookup_isSome,isSome_iff_exists]
  refine exists_congr fun r => and_iff_left_of_imp fun hr v hv => ?_
  rw [← hv] at hr
  exact lookup_value hr

/-- A size with a leading zero raises before the partition after it is reached. -/
theorem leading_zero_raises : ¬Contract asciiTable (some 4300) "b".toList false
    "d:010k(a),1k(b)".toList := by
  rintro ⟨r,hr,_⟩
  have hraise : mtdpartsPartitionOffset asciiTable (some 4300) "d:010k(a),1k(b)".toList
      "b".toList false = none := by decide +kernel
  rw [hraise] at hr
  cases hr

end Defib.MtdpartsLookup
