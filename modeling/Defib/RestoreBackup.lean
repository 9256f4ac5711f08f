import Defib.MtdpartsAgreement
import Defib.Utf8
import Defib.Endian

/-!
# Reading an ipctool backup

A backup is a YAML header that lists the partitions, a NUL byte, and the contents, each
after its length. The restore command counts the contents by themselves and makes a layout
from the names and sizes that one expression finds in the header. The layout has an entry
for each partition as long as every name is a word: the expression passes over any other,
and all later entries then move down by one.
-/
namespace Defib.RestoreBackup
open List Option PyText Mtdparts MtdpartsAgreement Endian
open MtdpartsLookup (NameOk bracketed)

abbrev Byte := BitVec 8

variable (T : CharTable)

def expect (p s : List Char) : Option (List Char) :=
  if p.isPrefixOf s then some (s.drop p.length) else none

/-- `name: (\w+)\n\s+size: (0x[0-9a-fA-F]+)` at the beginning of a text: the name, the digits
of the size, and what follows. -/
def matchItem (s : List Char) : Option ((List Char × List Char) × List Char) := do
  let s ← expect "name: ".toList s
  let w := s.takeWhile T.word
  let s ← expect ['\n'] (s.dropWhile T.word)
  let ws := s.takeWhile T.space
  let s ← expect "size: 0x".toList (s.dropWhile T.space)
  let ds := s.takeWhile isHex
  if w = [] ∨ ws = [] ∨ ds = [] then none else some ((w,ds),s.dropWhile isHex)

/-- The search goes on behind a match, here by passing over `k` characters. -/
def findFrom : ℕ → List Char → List (List Char × List Char)
  | _,[] => []
  | k+1,_::s => findFrom k s
  | 0,c::s =>
    match matchItem T (c::s) with
    | some (groups,r) => groups::findFrom (s.length-r.length) s
    | none => findFrom 0 s

def findall (s : List Char) : List (List Char × List Char) := findFrom T 0 s

/-- `int(size_hex, 16)`. -/
def hexValue (ds : List Char) : ℕ := ds.foldl (fun v c => v*16+hexDigit c) 0

def mtdDef (p : List Char × List Char) : List Char :=
  let sz := hexValue p.2
  if sz%(1024*1024) = 0 then Nat.toDigits 10 (sz/(1024*1024))++"M(".toList++p.1++[')']
  else Nat.toDigits 10 (sz/1024)++"k(".toList++p.1++[')']

/-- `type: (nand|nor)`: is it NAND? -/
def flashType : List Char → Option Bool
  | [] => none
  | c::s =>
    if "type: nand".toList.isPrefixOf (c::s) then some true
    else if "type: nor".toList.isPrefixOf (c::s) then some false
    else flashType s

def nandName (yamlText : List Char) : List Char :=
  if flashType yamlText = some true then "hinand".toList else "hi_sfc".toList

/-- The layout made from the header; empty if no partition is found. -/
def backupMtdparts (yamlText : List Char) : List Char :=
  let yamlParts := findall T yamlText
  match yamlParts.getLast? with
  | none => []
  | some last =>
    nandName yamlText++ ':'::[','].intercalate
      ((yamlParts.map mtdDef).dropLast++["-(".toList++last.1++[')']])

def blocksFrom (blockNum : ℕ) (raw : List Byte) : List (List Char × List Byte) :=
  if _h : raw.length < 4 then []
  else
    let blockLen := ofLe (raw.take 4)
    if (raw.drop 4).length < blockLen then []
    else ("mtd".toList++Nat.toDigits 10 blockNum,(raw.drop 4).take blockLen)::
      blocksFrom (blockNum+1) ((raw.drop 4).drop blockLen)
termination_by raw.length
decreasing_by
  rw [length_drop,length_drop]
  omega

structure Parsed where
  partitions : List (List Char × List Byte)
  mtdparts : List Char

/-- The dump as one file, with the layout of the command line; `none` is the `ValueError` of
a header without its NUL. -/
def parseDump (mtdpartsArg : List Char) (raw : List Byte) : Option Parsed :=
  if raw.take 4 = Utf8.encode "---\n".toList then
    if (0 : Byte) ∈ raw then
      let nullPos := raw.idxOf 0
      let yamlText := Utf8.decode (raw.take nullPos)
      some ⟨blocksFrom 0 (raw.drop (nullPos+1)),
        if mtdpartsArg = [] then backupMtdparts T yamlText else mtdpartsArg⟩
    else none
  else some ⟨[("flash".toList,raw)],mtdpartsArg⟩

/-- Index and start of each entry of a layout, as the restore command reads them. A layout made
from a backup has no size with more than seven digits, so that no limit on them matters. -/
def entryStarts (mtdparts : List Char) : List (ℕ × ℕ) :=
  if mtdparts = [] then []
  else ((offsetsFrom T none 0 0 ((partString mtdparts).splitOn ',')).map (·.1)).getD []

/-! ### Backups -/

/-- A text that begins with a name and a size. -/
def Listing (s : List Char) : Prop :=
  ∃ name ws d r,s = "name: ".toList++(name++ '\n'::(ws++("size: 0x".toList++d::r))) ∧
    '\n' ∉ name ∧ ws ≠ [] ∧ (∀ c ∈ ws,T.space c = true) ∧ isHex d = true

/-- Text of the header that lists no partition. -/
def Quiet (t : List Char) : Prop := '\x00' ∉ t ∧ ∀ s,s <:+ t → ¬Listing T s

/-- A partition in the header, with the text up to the next one. -/
structure Item where
  name : List Char
  indent : ℕ
  digits : List Char
  after : List Char
  one_line : '\n' ∉ name
  digits_ne : digits ≠ []
  digits_hex : ∀ c ∈ digits,isHex c = true
  digits_end : ∀ c ∈ after.head?,isHex c = false
  quiet : Quiet T after
  kib : 1024 ∣ hexValue digits
  small : hexValue digits < 2^32

namespace Item

variable {T} (i : Item T)

def title : List Char := "name: ".toList++i.name

def body : List Char := '\n'::(List.replicate (i.indent+1) ' '++("size: 0x".toList++i.digits))

def text : List Char := i.title++(i.body++i.after)

def size : ℕ := hexValue i.digits

end Item

structure Backup where
  before : List Char
  items : List (Item T)
  blocks : List (List Byte)
  quiet : Quiet T before
  lengths : blocks.map List.length = items.map Item.size

namespace Backup

variable {T} (b : Backup T)

def header : List Char := "---\n".toList++(b.before++b.items.flatMap Item.text)

def raw : List Byte :=
  Utf8.encode b.header++0::b.blocks.flatMap fun block => toLe 4 block.length++block

/-- The partitions have the listed contents, and entry `i` of the layout starts where the
first `i` partitions end. -/
def Aligned : Prop :=
  ∃ r,parseDump T [] b.raw = some r ∧ r.partitions.map (·.2) = b.blocks ∧
    entryStarts T r.mtdparts =
      (List.range b.items.length).map fun i => (i,((b.items.take i).map Item.size).sum)

end Backup

/-- The expression finds a word behind the last `name: ` of the line. -/
def Recognised (name : List Char) : Prop :=
  ∃ a w,"name: ".toList++name = a++("name: ".toList++w) ∧ IsWord T w

variable {T}

/-! ### Matching one item -/

lemma expect_eq_some {p s r : List Char} : expect p s = some r ↔ s = p++r := by
  rw [expect]
  split_ifs with h
  · have heq := prefix_iff_eq_append.mp (List.isPrefixOf_iff_prefix.mp h)
    rw [Option.some.injEq]
    constructor
    · rintro rfl
      exact heq.symm
    · intro hs
      rw [hs,drop_left]
  · refine iff_of_false nofun fun hs => h ?_
    rw [hs]
    exact isPrefixOf_iff_prefix.mpr (prefix_append p r)

lemma matchItem_inv {s r w ds : List Char} (h : matchItem T s = some ((w,ds),r)) :
    ∃ ws,s = "name: ".toList++(w++ '\n'::(ws++("size: 0x".toList++(ds++r)))) ∧ IsWord T w ∧
      ws ≠ [] ∧ (∀ c ∈ ws,T.space c = true) ∧ ds ≠ [] ∧ ∀ c ∈ ds,isHex c = true := by
  rw [matchItem] at h
  obtain ⟨s₁,h₁,h⟩ := bind_eq_some_iff.mp h
  obtain ⟨s₂,h₂,h⟩ := bind_eq_some_iff.mp h
  obtain ⟨s₃,h₃,h⟩ := bind_eq_some_iff.mp h
  rw [expect_eq_some] at h₁ h₂ h₃
  dsimp only at h
  split_ifs at h with hne
  rw [not_or,not_or] at hne
  obtain ⟨⟨rfl,rfl⟩,rfl⟩ : (s₁.takeWhile T.word = w ∧ s₃.takeWhile isHex = ds) ∧
      s₃.dropWhile isHex = r := by simpa using h
  refine ⟨s₂.takeWhile T.space,?_,⟨hne.1,fun c hc => mem_takeWhile_imp hc⟩,hne.2.1,
    fun c hc => mem_takeWhile_imp hc,hne.2.2,fun c hc => mem_takeWhile_imp hc⟩
  have hs₁ : s₁ = s₁.takeWhile T.word++ '\n'::s₂ := by
    have hsplit := takeWhile_append_dropWhile (p := T.word) (l := s₁)
    rw [h₂] at hsplit
    exact hsplit.symm
  have hs₂ : s₂ = s₂.takeWhile T.space++("size: 0x".toList++s₃) := by
    rw [← h₃,takeWhile_append_dropWhile]
  rw [h₁,takeWhile_append_dropWhile,← hs₂,← hs₁]

lemma not_word_newline : T.word '\n' = false := by rw [T.word_ascii _ (by decide)]; decide

lemma matchItem_item {w ds r : List Char} (hw : IsWord T w) (n : ℕ) (hne : ds ≠ [])
    (hds : ∀ c ∈ ds,isHex c = true) (hr : ∀ c ∈ r.head?,isHex c = false) :
    matchItem T ("name: ".toList++(w++ '\n'::(List.replicate (n+1) ' '++
      ("size: 0x".toList++(ds++r))))) = some ((w,ds),r) := by
  have hspace : ∀ c ∈ List.replicate (n+1) ' ',T.space c = true := by
    intro c hc
    rw [eq_of_mem_replicate hc,T.space_ascii _ (by decide)]
    decide
  have hsize : T.space 's' = false := not_space_graphic (by decide)
  have hdrop : (ds++r).takeWhile isHex = ds ∧ (ds++r).dropWhile isHex = r := by
    cases r with
    | nil =>
      rw [append_nil]
      exact ⟨takeWhile_eq_self_iff.mpr hds,dropWhile_eq_nil_iff.mpr hds⟩
    | cons c r => exact ⟨takeWhile_run hds (hr c rfl) r,dropWhile_run hds (hr c rfl) r⟩
  have hline : ∀ t,expect ['\n'] ('\n'::t) = some t := fun t => expect_eq_some.mpr rfl
  have hlabel : expect "size: 0x".toList ('s'::("ize: 0x".toList++(ds++r))) = some (ds++r) :=
    expect_eq_some.mpr rfl
  rw [show "size: 0x".toList++(ds++r) = 's'::("ize: 0x".toList++(ds++r)) from rfl,matchItem,
    expect_eq_some.mpr rfl]
  simp only [bind_eq_bind,bind_some,takeWhile_run hw.2 not_word_newline,
    dropWhile_run hw.2 not_word_newline,hline,takeWhile_run hspace hsize,
    dropWhile_run hspace hsize,hlabel,hdrop.1,hdrop.2]
  rw [if_neg]
  rintro (h | h | h)
  · exact hw.1 h
  · cases h
  · exact hne h

lemma matchItem_head {c : Char} {s : List Char} (hc : c ≠ 'n') : matchItem T (c::s) = none := by
  cases h : matchItem T (c::s) with
  | none => rfl
  | some m =>
    obtain ⟨⟨w,ds⟩,r⟩ := m
    obtain ⟨ws,hs,_⟩ := matchItem_inv h
    exact absurd (List.cons.inj hs).1 hc

/-! ### Searching the header -/

lemma findFrom_eq_drop (k : ℕ) (s : List Char) : findFrom T k s = findall T (s.drop k) := by
  induction s generalizing k with
  | nil =>
    rw [drop_nil]
    cases k <;> rfl
  | cons c s ih =>
    cases k with
    | zero => rfl
    | succ k => exact ih k

lemma findall_none {c : Char} {s : List Char} (h : matchItem T (c::s) = none) :
    findall T (c::s) = findall T s := by
  rw [findall,findFrom,h]
  rfl

lemma findall_some {s r : List Char} {groups : List Char × List Char}
    (h : matchItem T s = some (groups,r)) : findall T s = groups::findall T r := by
  cases s with
  | nil => cases h
  | cons c s =>
    have hsuffix : r <:+ s := by
      obtain ⟨w,ds⟩ := groups
      obtain ⟨ws,hs,_⟩ := matchItem_inv h
      have hlong : r <:+ c::s := by
        refine ⟨"name: ".toList++(w++ '\n'::(ws++("size: 0x".toList++ds))),?_⟩
        rw [hs]
        simp only [append_assoc,cons_append]
      refine (suffix_cons_iff.mp hlong).resolve_left fun hr => ?_
      have hlen := congrArg List.length hs
      rw [← hr] at hlen
      simp only [length_append,length_cons] at hlen
      omega
    rw [findall,findFrom,h]
    dsimp only
    rw [findFrom_eq_drop,← suffix_iff_eq_drop.mp hsuffix]

lemma findall_skip {a : List Char} (ha : 'n' ∉ a) (s : List Char) :
    findall T (a++s) = findall T s := by
  induction a with
  | nil => rfl
  | cons c a ih =>
    rw [mem_cons,not_or] at ha
    rw [cons_append,findall_none (matchItem_head (Ne.symm ha.1)),ih ha.2]

lemma findall_line {s : List Char} (hs : '\n' ∉ s) : findall T s = [] := by
  induction s with
  | nil => rfl
  | cons c s ih =>
    have hnone : matchItem T (c::s) = none := by
      cases h : matchItem T (c::s) with
      | none => rfl
      | some m =>
        obtain ⟨⟨w,ds⟩,r⟩ := m
        obtain ⟨ws,heq,_⟩ := matchItem_inv h
        refine absurd ?_ hs
        rw [heq]
        simp
    rw [findall_none hnone,ih fun h => hs (mem_cons_of_mem c h)]

/-- What may follow text of the header: nothing, or the next item. -/
def Next (rest : List Char) : Prop := rest = [] ∨ ∃ z,rest = "name: ".toList++z

lemma Next.mem_of_append {a b rest : List Char} (h : Next rest) (ha : a ≠ [])
    (heq : rest = a++b) : 'n' ∈ a := by
  cases a with
  | nil => exact absurd rfl ha
  | cons c a =>
    rcases h with h | ⟨z,h⟩
    · rw [h] at heq
      cases heq
    · rw [h] at heq
      exact (List.cons.inj heq).1 ▸ mem_cons_self

lemma append_cases {s rest a b : List Char} (h : s++rest = a++b) :
    (∃ c,s = a++c ∧ c++rest = b) ∨ ∃ c,c ≠ [] ∧ a = s++c ∧ rest = c++b := by
  rcases append_eq_append_iff.mp h with ⟨c,ha,hrest⟩ | ⟨c,hs,hb⟩
  · by_cases hc : c = []
    · subst hc
      refine .inl ⟨[],?_,hrest⟩
      rw [ha,append_nil,append_nil]
    · exact .inr ⟨c,hc,ha,hrest⟩
  · exact .inl ⟨c,hs,hb.symm⟩

lemma listing_of_match {s rest : List Char} (hs : s ≠ []) (hrest : Next rest)
    {m : (List Char × List Char) × List Char} (h : matchItem T (s++rest) = some m) :
    Listing T s := by
  obtain ⟨⟨w,ds⟩,r⟩ := m
  obtain ⟨ws,heq,hw,hws,hspace,hds,hhex⟩ := matchItem_inv h
  obtain ⟨d,ds',rfl⟩ := exists_cons_of_ne_nil hds
  -- the next item cannot begin within `name: `
  obtain ⟨s₁,rfl,h₁⟩ : ∃ c,s = "name: ".toList++c ∧
      c++rest = w++ '\n'::(ws++("size: 0x".toList++(d::ds'++r))) := by
    refine (append_cases heq).resolve_right ?_
    rintro ⟨c,hc,hlabel,hrest'⟩
    obtain ⟨x,s',rfl⟩ := exists_cons_of_ne_nil hs
    have hmem : 'n' ∈ s'++c := mem_append_right s' (hrest.mem_of_append hc hrest')
    have htail : "ame: ".toList = s'++c := (List.cons.inj hlabel).2
    rw [← htail] at hmem
    exact absurd hmem (by decide)
  -- nor within the word, which has no colon
  obtain ⟨s₂,rfl,h₂⟩ : ∃ c,s₁ = w++c ∧
      c++rest = '\n'::(ws++("size: 0x".toList++(d::ds'++r))) := by
    refine (append_cases h₁).resolve_right ?_
    rintro ⟨c,hc,hword,hrest'⟩
    rcases hrest with hnil | ⟨z,hz⟩
    · rw [hnil] at hrest'
      exact hc (append_eq_nil_iff.mp hrest'.symm).1
    · have hcolon : T.word ':' = false := by rw [T.word_ascii _ (by decide)]; decide
      have hname : ∀ c ∈ "name".toList,T.word c = true := by
        intro c hc
        have hword : ∀ c ∈ "name".toList,c.toNat < 128 ∧ (c.isAlphanum || c = '_') = true :=
          forall_mem_of_all (by decide)
        rw [T.word_ascii c (hword c hc).1]
        exact (hword c hc).2
      have hcall : ∀ x ∈ c,T.word x = true := fun x hx =>
        hw.2 x (hword ▸ mem_append_right _ hx)
      have hleft : rest.dropWhile T.word = ':'::(' '::z) := by
        rw [hz]
        exact dropWhile_run hname hcolon (' '::z)
      rw [hrest',dropWhile_run hcall not_word_newline] at hleft
      exact absurd (List.cons.inj hleft).1 (by decide)
  -- nor between the word and the first digit
  obtain ⟨s₃,rfl,_⟩ : ∃ c,s₂ = ('\n'::(ws++("size: 0x".toList++[d])))++c ∧ c++rest = ds'++r := by
    have hcut : s₂++rest = ('\n'::(ws++("size: 0x".toList++[d])))++(ds'++r) := by
      rw [h₂]
      simp only [cons_append,append_assoc,nil_append]
    refine (append_cases hcut).resolve_right ?_
    rintro ⟨c,hc,hmid,hrest'⟩
    have hmem : 'n' ∈ '\n'::(ws++("size: 0x".toList++[d])) :=
      hmid ▸ mem_append_right _ (hrest.mem_of_append hc hrest')
    rcases mem_cons.mp hmem with hmem | hmem
    · cases hmem
    rcases mem_append.mp hmem with hmem | hmem
    · have hn : T.space 'n' = false := not_space_graphic (by decide)
      rw [hspace _ hmem] at hn
      cases hn
    rcases mem_append.mp hmem with hmem | hmem
    · exact absurd hmem (by decide)
    · have hd := hhex d mem_cons_self
      rw [← mem_singleton.mp hmem] at hd
      exact absurd hd (by decide)
  refine ⟨w,ws,d,s₃,?_,fun hc => ?_,hws,hspace,hhex d mem_cons_self⟩
  · simp only [cons_append,append_assoc,nil_append]
  · have hword := hw.2 _ hc
    rw [not_word_newline] at hword
    cases hword

lemma findall_quiet {t rest : List Char} (ht : ∀ s,s <:+ t → ¬Listing T s) (hrest : Next rest) :
    findall T (t++rest) = findall T rest := by
  induction t with
  | nil => rfl
  | cons c t ih =>
    have hnone : matchItem T (c::(t++rest)) = none := by
      cases h : matchItem T (c::(t++rest)) with
      | none => rfl
      | some m =>
        exact absurd (listing_of_match (s := c::t) (cons_ne_nil c t) hrest h)
          (ht _ (suffix_refl _))
    rw [cons_append,findall_none hnone]
    exact ih fun s hs => ht s (hs.trans (suffix_cons c t))

/-- The word that the expression finds in a line. -/
def heading (T : CharTable) : List Char → Option (List Char)
  | [] => none
  | c::s =>
    match expect "name: ".toList (c::s) with
    | some w => if IsWord T w then some w else heading T s
    | none => heading T s

lemma heading_isSome (s : List Char) :
    (heading T s).isSome = true ↔ ∃ a w,s = a++("name: ".toList++w) ∧ IsWord T w := by
  have hcons : ∀ (c : Char) (s : List Char),
      (∃ a w,c::s = a++("name: ".toList++w) ∧ IsWord T w) ↔
        (∃ w,expect "name: ".toList (c::s) = some w ∧ IsWord T w) ∨
          ∃ a w,s = a++("name: ".toList++w) ∧ IsWord T w := by
    intro c s
    constructor
    · rintro ⟨a,w,heq,hw⟩
      cases a with
      | nil => exact .inl ⟨w,expect_eq_some.mpr heq,hw⟩
      | cons x a => exact .inr ⟨a,w,(List.cons.inj heq).2,hw⟩
    · rintro (⟨w,hexpect,hw⟩ | ⟨a,w,heq,hw⟩)
      · have heq := expect_eq_some.mp hexpect
        exact ⟨[],w,heq,hw⟩
      · exact ⟨c::a,w,by rw [heq]; rfl,hw⟩
  induction s with
  | nil =>
    refine iff_of_false (by simp [heading]) ?_
    rintro ⟨a,w,heq,_⟩
    cases a <;> cases heq
  | cons c s ih =>
    refine Iff.trans ?_ ((hcons c s).trans (or_congr_right ih.symm)).symm
    rw [heading]
    cases hexpect : expect "name: ".toList (c::s) with
    | none => simp
    | some w =>
      by_cases hw : IsWord T w
      · simp [hw]
      · simp [hw]

lemma heading_word {s w : List Char} (h : heading T s = some w) : IsWord T w := by
  induction s with
  | nil => cases h
  | cons c s ih =>
    rw [heading] at h
    split at h
    · split_ifs at h with hw
      · exact Option.some.inj h ▸ hw
      · exact ih h
    · exact ih h

section
variable (i : Item T)

lemma matchItem_line {s r : List Char} (hs : '\n' ∉ s) (hr : ∀ c ∈ r.head?,isHex c = false) :
    matchItem T (s++(i.body++r)) = ((expect "name: ".toList s).bind fun w =>
      if IsWord T w then some ((w,i.digits),r) else none) := by
  have hbody : i.body++r = '\n'::(List.replicate (i.indent+1) ' '++
      ("size: 0x".toList++(i.digits++r))) := by
    rw [Item.body]
    simp only [cons_append,append_assoc]
  rw [hbody]
  cases hexpect : expect "name: ".toList s with
  | none =>
    cases h : matchItem T (s++ '\n'::(List.replicate (i.indent+1) ' '++
      ("size: 0x".toList++(i.digits++r)))) with
    | none => rfl
    | some m =>
      obtain ⟨⟨w,ds⟩,r'⟩ := m
      obtain ⟨ws,heq,_⟩ := matchItem_inv h
      have hpre := isPrefix_before (show '\n' ∉ "name: ".toList by decide) ⟨_,heq.symm⟩
      obtain ⟨w',hw'⟩ := hpre
      rw [expect_eq_some.mpr hw'.symm] at hexpect
      cases hexpect
  | some w =>
    obtain rfl := expect_eq_some.mp hexpect
    rw [bind_some]
    split_ifs with hw
    · rw [append_assoc]
      exact matchItem_item hw i.indent i.digits_ne i.digits_hex hr
    · cases h : matchItem T ("name: ".toList++w++ '\n'::(List.replicate (i.indent+1) ' '++
        ("size: 0x".toList++(i.digits++r)))) with
      | none => rfl
      | some m =>
        obtain ⟨⟨w',ds⟩,r'⟩ := m
        obtain ⟨ws,heq,hw',_⟩ := matchItem_inv h
        rw [append_assoc] at heq
        have hline := append_cancel_left heq
        have hnl : '\n' ∉ w := fun hc => hs (mem_append_right _ hc)
        have hnl' : '\n' ∉ w' := by
          intro hc
          have hword := hw'.2 _ hc
          rw [not_word_newline] at hword
          cases hword
        have hpair := partition_eq hnl (List.replicate (i.indent+1) ' '++
          ("size: 0x".toList++(i.digits++r)))
        rw [hline,partition_eq hnl'] at hpair
        have hww : w' = w := (Prod.mk.inj (Option.some.inj hpair)).1
        exact absurd (hww ▸ hw') hw

lemma body_free {c : Char} (hc : isHex c = false ∧ c ∉ "\n size: 0x".toList) : c ∉ i.body := by
  intro hmem
  rcases mem_cons.mp hmem with rfl | hmem
  · exact hc.2 mem_cons_self
  rcases mem_append.mp hmem with hmem | hmem
  · rw [eq_of_mem_replicate hmem] at hc
    exact hc.2 (by decide)
  rcases mem_append.mp hmem with hmem | hmem
  · exact hc.2 (mem_cons_of_mem _ (mem_cons_of_mem _ hmem))
  · rw [i.digits_hex _ hmem] at hc
    cases hc.1

lemma findall_item {s r : List Char} (hs : '\n' ∉ s) (hr : ∀ c ∈ r.head?,isHex c = false) :
    findall T (s++(i.body++r)) =
      ((heading T s).map fun w => (w,i.digits)).toList++findall T r := by
  induction s with
  | nil => exact findall_skip (body_free i (by decide)) r
  | cons c s ih =>
    have hmatch : matchItem T (c::(s++(i.body++r))) =
        ((expect "name: ".toList (c::s)).bind fun w =>
          if IsWord T w then some ((w,i.digits),r) else none) := matchItem_line i hs hr
    have hrest := ih fun h => hs (mem_cons_of_mem c h)
    rw [heading]
    cases hexpect : expect "name: ".toList (c::s) with
    | none =>
      rw [hexpect] at hmatch
      rw [cons_append,findall_none hmatch,hrest]
    | some w =>
      rw [hexpect,bind_some] at hmatch
      by_cases hw : IsWord T w
      · rw [if_pos hw] at hmatch
        rw [cons_append,findall_some hmatch]
        simp only [hw,if_true,map_some,toList_some,singleton_append]
      · rw [if_neg hw] at hmatch
        rw [cons_append,findall_none hmatch,hrest]
        simp only [hw,if_false]

end

/-- The partitions the expression finds among some items. -/
def found (items : List (Item T)) : List (List Char × List Char) :=
  items.flatMap fun i => ((heading T i.title).map fun w => (w,i.digits)).toList

variable {z : List Char}

lemma next_items (items : List (Item T)) (hz : Next z) :
    Next (items.flatMap Item.text++z) := by
  cases items with
  | nil => exact hz
  | cons i items =>
    refine .inr ⟨i.name++(i.body++i.after++(items.flatMap Item.text++z)),?_⟩
    have htitle : i.title = "name: ".toList++i.name := rfl
    -- otherwise the text is evaluated whenever the two sides are compared
    generalize "name: ".toList = p at htitle ⊢
    simp only [flatMap_cons,Item.text,htitle,append_assoc]

lemma findall_items (items : List (Item T)) (hz : Next z) :
    findall T (items.flatMap Item.text++z) = found items++findall T z := by
  induction items with
  | nil => rfl
  | cons i items ih =>
    have hnext := next_items items hz
    have htitle : '\n' ∉ i.title := by
      intro hmem
      rcases mem_append.mp hmem with hmem | hmem
      · exact absurd hmem (by decide)
      · exact i.one_line hmem
    have hend : ∀ c ∈ (i.after++(items.flatMap Item.text++z)).head?,isHex c = false := by
      cases hafter : i.after with
      | nil =>
        rcases hnext with hnext | ⟨z',hnext⟩
        · rw [hnext]
          nofun
        · rw [hnext]
          rintro c ⟨⟩
          decide
      | cons x xs =>
        intro c hc
        exact i.digits_end c (by rw [hafter]; exact hc)
    rw [flatMap_cons,Item.text,append_assoc,append_assoc,append_assoc,
      findall_item i htitle hend,findall_quiet i.quiet.2 hnext,ih,found,found,flatMap_cons,
      append_assoc]

lemma found_spec {items : List (Item T)} {p : List Char × List Char} (hp : p ∈ found items) :
    IsWord T p.1 ∧ 1024 ∣ hexValue p.2 := by
  obtain ⟨i,_,hp⟩ := mem_flatMap.mp hp
  obtain ⟨w,hw,rfl⟩ := map_eq_some_iff.mp (mem_toList.mp hp)
  exact ⟨heading_word hw,i.kib⟩

lemma found_length_le (items : List (Item T)) : (found items).length ≤ items.length := by
  induction items with
  | nil => exact Nat.le_refl 0
  | cons i items ih =>
    rw [found,flatMap_cons,length_append,length_cons,Nat.add_comm]
    exact Nat.add_le_add ih length_toList_le

lemma found_sizes {items : List (Item T)}
    (h : ∀ i ∈ items,(heading T i.title).isSome = true) :
    (found items).map (fun p => hexValue p.2) = items.map Item.size := by
  induction items with
  | nil => rfl
  | cons i items ih =>
    rw [forall_mem_cons] at h
    obtain ⟨w,hw⟩ := isSome_iff_exists.mp h.1
    rw [found,flatMap_cons,hw,map_append,map_cons,← ih h.2]
    rfl

lemma found_length_lt {items : List (Item T)} {i : Item T} (hi : i ∈ items)
    (h : heading T i.title = none) : (found items).length < items.length := by
  obtain ⟨l₁,l₂,rfl⟩ := append_of_mem hi
  have h₁ := found_length_le l₁
  have h₂ := found_length_le l₂
  have hsplit : found (l₁++i::l₂) = found l₁++found l₂ := by
    rw [found,flatMap_append,flatMap_cons,h]
    rfl
  rw [hsplit,length_append,length_append,length_cons]
  omega

/-! ### The layout -/

lemma toDigits_head {n : ℕ} (h : 0 < n) : (Nat.toDigits 10 n).head? ≠ some '0' := by
  induction n using Nat.strong_induction_on with
  | h n ih =>
    by_cases hlt : n < 10
    · rw [Nat.toDigits_of_lt_base hlt]
      have hdigit : ∀ n < 10,0 < n → ¬[Nat.digitChar n].head? = some '0' := by decide
      exact hdigit n hlt h
    · have hdiv : 0 < n/10 := Nat.div_pos (Nat.not_lt.mp hlt) (by decide)
      rw [Nat.toDigits_of_base_le (by decide) (Nat.not_lt.mp hlt),head?_append]
      have hrec := ih (n/10) (Nat.div_lt_self h (by decide)) hdiv
      cases hd : (Nat.toDigits 10 (n/10)).head? with
      | none => exact absurd (head?_eq_none_iff.mp hd) Nat.toDigits_ne_nil
      | some d =>
        rw [hd] at hrec
        exact hrec

lemma toDigits_value (n : ℕ) :
    (Nat.toDigits 10 n).foldl (fun v c => v*10+(c.toNat-48)) 0 = n := by
  have h := Nat.ofDigitChars_toDigits (b := 10) (n := n) (by decide) (by decide)
  simp only [Nat.ofDigitChars,Nat.mul_comm 10] at h
  exact h

lemma nameOk_word {w : List Char} (hw : IsWord T w) : NameOk w := by
  intro c hc
  have hword := hw.2 c hc
  refine ⟨?_,?_,?_⟩ <;>
  · rintro rfl
    rw [T.word_ascii _ (by decide)] at hword
    exact absurd hword (by decide)

lemma exists_entry {w : List Char} (hw : IsWord T w) (n : ℕ) (s : Suffix) :
    ∃ e : Entry,e.text = Nat.toDigits 10 n++s.text++bracketed w ∧ e.size = n*s.factor := by
  refine ⟨⟨Nat.toDigits 10 n,s,w,Nat.toDigits_ne_nil,
    fun c hc => Nat.isDigit_of_mem_toDigits (by decide) (by decide) hc,fun hlen => ?_,
    nameOk_word hw⟩,rfl,?_⟩
  · refine toDigits_head (Nat.pos_of_ne_zero fun h0 => ?_)
    rw [h0] at hlen
    exact absurd hlen (by decide)
  · rw [Entry.size,toDigits_value]

lemma mtdDef_entry {p : List Char × List Char} (hw : IsWord T p.1) (hk : 1024 ∣ hexValue p.2) :
    ∃ e : Entry,e.text = mtdDef p ∧ e.size = hexValue p.2 := by
  rw [mtdDef]
  split_ifs with hM
  · obtain ⟨e,htext,hsize⟩ := exists_entry hw (hexValue p.2/(1024*1024)) .M
    refine ⟨e,?_,?_⟩
    · rw [htext]
      simp [Suffix.text,bracketed]
    · rw [hsize]
      exact Nat.div_mul_cancel (Nat.dvd_of_mod_eq_zero hM)
  · obtain ⟨e,htext,hsize⟩ := exists_entry hw (hexValue p.2/1024) .k
    refine ⟨e,?_,?_⟩
    · rw [htext]
      simp [Suffix.text,bracketed]
    · rw [hsize]
      exact Nat.div_mul_cancel hk

lemma mtdDefs_entries {ps : List (List Char × List Char)}
    (h : ∀ p ∈ ps,IsWord T p.1 ∧ 1024 ∣ hexValue p.2) : ∃ es : List Entry,
      es.map Entry.text = ps.map mtdDef ∧ es.map Entry.size = ps.map fun p => hexValue p.2 := by
  induction ps with
  | nil => exact ⟨[],rfl,rfl⟩
  | cons p ps ih =>
    rw [forall_mem_cons] at h
    obtain ⟨e,htext,hsize⟩ := mtdDef_entry h.1.1 h.1.2
    obtain ⟨es,htexts,hsizes⟩ := ih h.2
    exact ⟨e::es,by rw [map_cons,htext,htexts]; rfl,by rw [map_cons,hsize,hsizes]; rfl⟩

lemma offsetsFrom_entries (es : List Entry) (name : List Char) (i cur : ℕ) :
    (offsetsFrom T none i cur (es.map Entry.text++[fillText name])).map (·.1) =
      some ((List.range (es.length+1)).map
        fun k => (i+k,cur+((es.take k).map Entry.size).sum)) := by
  induction es generalizing i cur with
  | nil =>
    have hfill : isFill (fillText name) = true := rfl
    simp [offsetsFrom,strip_fillText,hfill]
  | cons e es ih =>
    obtain ⟨r,hr,hstarts⟩ := map_eq_some_iff.mp (ih (i+1) (cur+e.size))
    have hconv : e.converted none = some e.size := rfl
    rw [map_cons,cons_append,offsetsFrom,strip_entry,isFill_entry,leadingSize_entry,hconv]
    simp only [Bool.false_eq_true,if_false,getD_some,bind_eq_bind,bind_some,hr,
      map_some,hstarts]
    rw [length_cons,range_succ_eq_map (n := es.length+1),map_cons,List.map_map]
    refine congrArg some (congrArg₂ _ (by simp) (map_congr_left fun k _ => ?_))
    simp only [Function.comp_apply,take_succ_cons,map_cons,sum_cons]
    rw [Nat.succ_eq_add_one,Nat.add_assoc,Nat.add_assoc,Nat.add_comm 1 k]

lemma entryStarts_backup {text : List Char}
    (h : ∀ p ∈ findall T text,IsWord T p.1 ∧ 1024 ∣ hexValue p.2) :
    entryStarts T (backupMtdparts T text) = (List.range (findall T text).length).map fun i =>
      (i,(((findall T text).map fun p => hexValue p.2).take i).sum) := by
  rw [backupMtdparts]
  rcases eq_nil_or_concat (findall T text) with hnil | ⟨init,last,heq⟩
  · rw [hnil]
    rfl
  rw [concat_eq_append] at heq
  rw [heq] at h ⊢
  rw [forall_mem_append] at h
  obtain ⟨es,htexts,hsizes⟩ := mtdDefs_entries h.1
  have hfill : "-(".toList++last.1++[')'] = fillText last.1 := by
    simp [fillText,bracketed]
  have hlast : NameOk last.1 := nameOk_word (h.2 last mem_cons_self).1
  rw [getLast?_concat,map_append,map_cons,map_nil,dropLast_concat]
  dsimp only
  rw [← htexts,hfill]
  have hname : ':' ∉ nandName text := by
    rw [nandName]
    split_ifs <;> decide
  have hsplit : ([','].intercalate (es.map Entry.text++[fillText last.1])).splitOn ',' =
      es.map Entry.text++[fillText last.1] := by
    refine splitOn_intercalate ',' (fun t ht hc => ?_) (by simp)
    rcases mem_append.mp ht with ht | ht
    · obtain ⟨e,_,rfl⟩ := mem_map.mp ht
      exact (entry_free e hc).1 rfl
    · rw [mem_singleton.mp ht] at hc
      exact (fillText_free hlast hc).1 rfl
  rw [entryStarts,if_neg (by simp),partString,partition_eq hname]
  dsimp only
  have hlen : es.length = init.length := by
    rw [← length_map (f := Entry.size),hsizes,length_map]
  rw [hsplit,offsetsFrom_entries,getD_some,length_append,length_singleton,hlen]
  refine map_congr_left fun k hk => ?_
  rw [Nat.zero_add,Nat.zero_add,map_take,hsizes,map_append,
    take_append_of_le_length]
  rw [length_map]
  exact Nat.lt_succ_iff.mp (mem_range.mp hk)

/-! ### The contents -/

lemma blocksFrom_blocks (k : ℕ) {bs : List (List Byte)} (h : ∀ b ∈ bs,b.length < 2^32) :
    (blocksFrom k (bs.flatMap fun b => toLe 4 b.length++b)).map (·.2) = bs := by
  induction bs generalizing k with
  | nil =>
    rw [blocksFrom]
    rfl
  | cons b bs ih =>
    rw [forall_mem_cons] at h
    have hlen : ofLe (toLe 4 b.length) = b.length := ofLe_toLe h.1
    have htake : (toLe 4 b.length++(b++bs.flatMap fun b => toLe 4 b.length++b)).take 4 =
        toLe 4 b.length := take_left' (toLe_length 4 _)
    have hdrop : (toLe 4 b.length++(b++bs.flatMap fun b => toLe 4 b.length++b)).drop 4 =
        b++bs.flatMap fun b => toLe 4 b.length++b := drop_left' (toLe_length 4 _)
    rw [flatMap_cons,append_assoc,blocksFrom,dif_neg,htake,hdrop,hlen]
    · dsimp only
      rw [if_neg (by rw [length_append]; omega),map_cons,take_left,drop_left,
        ih (k+1) h.2]
    · rw [length_append,toLe_length]
      omega

lemma parseDump_header {front : List Char} (hfront : '\x00' ∉ "---\n".toList++front)
    (z : List Byte) : parseDump T [] (Utf8.encode ("---\n".toList++front)++0::z) =
      some ⟨blocksFrom 0 z,backupMtdparts T ("---\n".toList++front)⟩ := by
  have hzero := Utf8.zero_not_mem_encode hfront
  have hidx : (Utf8.encode ("---\n".toList++front)++0::z).idxOf 0 =
      (Utf8.encode ("---\n".toList++front)).length := by
    rw [idxOf_append_of_notMem hzero,idxOf_cons_self,Nat.add_zero]
  have hhead : (Utf8.encode ("---\n".toList++front)++0::z).take 4 =
      Utf8.encode "---\n".toList := by
    rw [Utf8.encode_append,append_assoc]
    exact take_left' (by decide)
  rw [parseDump,if_pos hhead,if_pos (mem_append_right _ mem_cons_self)]
  dsimp only
  rw [hidx,take_left,Utf8.decode_encode,if_pos rfl,drop_length_add_append]
  rfl

lemma text_nul {i : Item T} (hname : '\x00' ∉ i.name) : '\x00' ∉ i.text := by
  intro hmem
  rcases mem_append.mp hmem with hmem | hmem
  · rcases mem_append.mp hmem with hmem | hmem
    · exact absurd hmem (by decide)
    · exact hname hmem
  rcases mem_append.mp hmem with hmem | hmem
  · exact body_free i (by decide) hmem
  · exact i.quiet.1 hmem

/-! ### Alignment -/

section
variable (b : Backup T)

lemma front_nul {items : List (Item T)} (h : ∀ i ∈ items,'\x00' ∉ i.name) (hz : '\x00' ∉ z) :
    '\x00' ∉ "---\n".toList++(b.before++(items.flatMap Item.text++z)) := by
  intro hmem
  rcases mem_append.mp hmem with hmem | hmem
  · exact absurd hmem (by decide)
  rcases mem_append.mp hmem with hmem | hmem
  · exact b.quiet.1 hmem
  rcases mem_append.mp hmem with hmem | hmem
  · obtain ⟨i,hi,hmem⟩ := mem_flatMap.mp hmem
    exact text_nul (h i hi) hmem
  · exact hz hmem

lemma findall_front (items : List (Item T)) (hz : Next z) :
    findall T ("---\n".toList++(b.before++(items.flatMap Item.text++z))) =
      found items++findall T z := by
  rw [findall_skip (by decide),findall_quiet b.quiet.2 (next_items items hz),
    findall_items items hz]

lemma exists_first {α : Type*} {P : α → Prop} {l : List α} (h : ∃ x ∈ l,P x) :
    ∃ pre x post,l = pre++x::post ∧ (∀ y ∈ pre,¬P y) ∧ P x := by
  induction l with
  | nil =>
    obtain ⟨x,hx,_⟩ := h
    exact absurd hx not_mem_nil
  | cons y l ih =>
    by_cases hy : P y
    · exact ⟨[],y,l,rfl,nofun,hy⟩
    · obtain ⟨x,hx,hP⟩ := h
      have hmem : x ∈ l := (mem_cons.mp hx).resolve_left fun h => hy (h ▸ hP)
      obtain ⟨pre,z,post,rfl,hpre,hz⟩ := ih ⟨x,hmem,hP⟩
      exact ⟨y::pre,z,post,rfl,forall_mem_cons.mpr ⟨hy,hpre⟩,hz⟩

lemma not_aligned_of_nul {i : Item T} (hi : i ∈ b.items) (hnul : '\x00' ∈ i.name) :
    ¬b.Aligned := by
  obtain ⟨pre,j,post,hitems,hpre,hj⟩ := exists_first (P := fun d : Item T => '\x00' ∈ d.name)
    ⟨i,hi,hnul⟩
  obtain ⟨a,c,hname,ha⟩ := eq_append_cons_of_mem hj
  -- the header ends within the name of `j`
  have hnext : Next ("name: ".toList++a) := .inr ⟨a,rfl⟩
  have hfront : '\x00' ∉ "---\n".toList++(b.before++
      (pre.flatMap Item.text++("name: ".toList++a))) := by
    refine front_nul b hpre fun hmem => ?_
    rcases mem_append.mp hmem with hmem | hmem
    · exact absurd hmem (by decide)
    · exact ha hmem
  have hline : findall T ("name: ".toList++a) = [] := by
    refine findall_line fun hmem => ?_
    rcases mem_append.mp hmem with hmem | hmem
    · exact absurd hmem (by decide)
    · exact j.one_line (hname ▸ mem_append_left _ hmem)
  have hfound := findall_front b pre hnext
  rw [hline,append_nil] at hfound
  have hheader : b.header = "---\n".toList++(b.before++
      (pre.flatMap Item.text++("name: ".toList++a)))++
      '\x00'::(c++(j.body++j.after)++post.flatMap Item.text) := by
    have htitle : j.title = "name: ".toList++j.name := rfl
    have htext : b.header = "---\n".toList++(b.before++b.items.flatMap Item.text) := rfl
    generalize "name: ".toList = p at htitle ⊢
    generalize "---\n".toList = q at htext ⊢
    rw [htext,hitems,flatMap_append,flatMap_cons,Item.text,htitle,hname]
    simp only [append_assoc,cons_append]
  have hraw : b.raw =
      Utf8.encode ("---\n".toList++(b.before++(pre.flatMap Item.text++("name: ".toList++a))))++
        0::(Utf8.encode (c++(j.body++j.after)++post.flatMap Item.text)++
          0::b.blocks.flatMap fun block => toLe 4 block.length++block) := by
    rw [Backup.raw,hheader,Utf8.encode_append,Utf8.encode_cons,append_assoc,append_assoc]
    rfl
  rintro ⟨r,hr,_,hstarts⟩
  rw [hraw,parseDump_header hfront,Option.some.injEq] at hr
  rw [← hr,entryStarts_backup (by rw [hfound]; exact fun p hp => found_spec hp),hfound] at hstarts
  have hlen := congrArg List.length hstarts
  have hle := found_length_le pre
  rw [length_map,length_map,length_range,length_range,hitems,
    length_append,length_cons] at hlen
  omega

/-- Contents and layout are aligned if and only if no name has a NUL in it and the
expression finds a word in each. -/
theorem backup_aligned_iff :
    b.Aligned ↔ ∀ i ∈ b.items,'\x00' ∉ i.name ∧ Recognised T i.name := by
  by_cases hnul : ∀ i ∈ b.items,'\x00' ∉ i.name
  · have hheader := front_nul b hnul (z := []) nofun
    have hfound := findall_front b b.items (z := []) (.inl rfl)
    rw [append_nil] at hheader hfound
    rw [show findall T [] = [] from rfl,append_nil] at hfound
    have hparse := parseDump_header (T := T) hheader
      (b.blocks.flatMap fun block => toLe 4 block.length++block)
    have hspec : ∀ p ∈ findall T ("---\n".toList++(b.before++b.items.flatMap Item.text)),
        IsWord T p.1 ∧ 1024 ∣ hexValue p.2 := by
      rw [hfound]
      exact fun p hp => found_spec hp
    have hstarts := entryStarts_backup hspec
    rw [hfound] at hstarts
    have hheading : ∀ i ∈ b.items,('\x00' ∉ i.name ∧ Recognised T i.name ↔
        (heading T i.title).isSome = true) := fun i hi =>
      (and_iff_right (hnul i hi)).trans (heading_isSome i.title).symm
    constructor
    · rintro ⟨r,hr,_,hr'⟩ i hi
      refine (hheading i hi).mpr ?_
      by_contra hnone
      rw [Backup.raw,Backup.header,hparse,Option.some.injEq] at hr
      rw [← hr,hstarts] at hr'
      have hlen := congrArg List.length hr'
      rw [length_map,length_map,length_range,length_range] at hlen
      have hlt := found_length_lt hi (by simpa using hnone)
      omega
    · intro h
      refine ⟨_,hparse,blocksFrom_blocks 0 fun block hblock => ?_,?_⟩
      · have hmem : block.length ∈ b.items.map Item.size :=
          b.lengths ▸ mem_map_of_mem hblock
        obtain ⟨i,_,hi⟩ := mem_map.mp hmem
        rw [← hi]
        exact i.small
      · have hsizes := found_sizes fun i hi => (hheading i hi).mp (h i hi)
        have hlen : (found b.items).length = b.items.length := by
          rw [← length_map (f := fun p => hexValue p.2),hsizes,length_map]
        rw [hstarts,hsizes,hlen]
        simp only [map_take]
  · push Not at hnul
    obtain ⟨i,hi,hmem⟩ := hnul
    exact iff_of_false (not_aligned_of_nul b hi hmem) fun h => (h i hi).1 hmem

end

lemma quiet_of_not_mem {t : List Char} (hnul : '\x00' ∉ t) (hn : 'n' ∉ t) : Quiet T t := by
  refine ⟨hnul,fun s hs => ?_⟩
  rintro ⟨name,ws,d,r,rfl,_⟩
  exact hn (hs.subset mem_cons_self)

def kibItem (name : List Char) (h : '\n' ∉ name) : Item asciiTable where
  name := name
  indent := 7
  digits := "400".toList
  after := ['\n']
  one_line := h
  digits_ne := by decide
  digits_hex := forall_mem_of_all (by decide)
  digits_end := by
    intro c hc
    rw [← Option.some.inj hc]
    decide
  quiet := quiet_of_not_mem (by decide) (by decide)
  kib := by decide
  small := by decide

/-- Two partitions, the first with a hyphen in its name. -/
def hyphenated : Backup asciiTable where
  before := []
  items := [kibItem "u-boot".toList (by decide),kibItem "env".toList (by decide)]
  blocks := [List.replicate 1024 0,List.replicate 1024 0]
  quiet := quiet_of_not_mem (by decide) (by decide)
  lengths := by
    simp only [map_cons,map_nil,length_replicate]
    rfl

/-- The first partition is missing from the layout, and the second stands in its place. -/
theorem hyphenated_not_aligned : ¬hyphenated.Aligned := by
  rintro ⟨r,hr,_,hstarts⟩
  have hheader : '\x00' ∉ "---\n".toList++
      (hyphenated.before++hyphenated.items.flatMap Item.text) := by decide
  rw [Backup.raw,Backup.header,parseDump_header hheader,Option.some.injEq] at hr
  have hlayout : entryStarts asciiTable (backupMtdparts asciiTable ("---\n".toList++
      (hyphenated.before++hyphenated.items.flatMap Item.text))) = [(0,0)] := by decide +kernel
  rw [← hr,hlayout] at hstarts
  cases congrArg List.length hstarts

end Defib.RestoreBackup
