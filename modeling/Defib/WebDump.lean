import Defib.Runs
import Defib.ConsoleDump
import Defib.WebDisplay

/-!
# The flash dump of the web page

The page sends one command after another and collects each answer from the read buffer,
until a `#` has come in or the time of the command is up; whatever has been collected by
then is the answer. Three things happen in any order: characters the console has sent
reach the read buffer, the loop that shows the console takes the read buffer, and the read
of the current command looks at it. The console itself loses nothing: every command is
echoed, answered and followed by the prompt.
-/
namespace Defib.WebDump
open List Words BlockMemory PyText MdOutput MdDisplay WebDisplay Runs
open ConsoleDump (hexText hexWord mdWord Quiet hexWord_quiet words_quiet)

/-- A console, what it says to a probe and to a read, and the memory it displays. -/
structure Console where
  eol : List Char
  prompt : List Char
  probed : List Char
  loaded : List Char
  mem : ℕ → Byte
  isEol : IsEol eol
  marked : '#' ∈ prompt

/-- How far the dump has come; the answers to `md.b` are kept besides. -/
inductive Phase where
  | probing
  | reading (flashSize : ℕ)
  | dumping (flashSize offset : ℕ) (allData : List Byte) (texts : List (List Char))
  | saved (flashSize : ℕ) (file : List Byte) (texts : List (List Char))
  | failed

def Phase.busy : Phase → Bool
  | .saved _ _ _ => false
  | .failed => false
  | _ => true

/-- `pending` has been sent by the console and not arrived; `buf` is the answer so far. -/
structure State where
  phase : Phase
  pending : List Char
  readBuffer : List Char
  buf : List Char

inductive Event where
  | arrive (n : ℕ)
  | poll
  | check (late expired : Bool)

def chunkSize : ℕ := 0x10000

def remaining (flashSize offset : ℕ) : ℕ := min chunkSize (flashSize-offset)

def probeText : List Char := ['s','f',' ','p','r','o','b','e',' ','0']

def readWord : List Char := ['s','f',' ','r','e','a','d',' ']

def readText (flashSize : ℕ) : List Char :=
  readWord++(hexWord base++ ' ' :: (hexWord 0++ ' ' :: hexWord flashSize))

def mdText (addr n : ℕ) : List Char := mdWord++(hexWord addr++ ' ' :: hexWord n)

namespace Console
variable (d : Console)

/-- What is printed after a command before the prompt. -/
def body : Phase → List Char
  | .probing => probeText++(d.eol++d.probed)
  | .reading flashSize => readText flashSize++(d.eol++d.loaded)
  | .dumping flashSize offset _ _ =>
    mdText (base+offset) (remaining flashSize offset)++
      (d.eol++withEol d.eol (mdLines d.mem (base+offset) (remaining flashSize offset)))
  | _ => []

def answer (p : Phase) : List Char := d.body p++d.prompt

end Console

def flashSize (probeResp : List Char) : ℕ :=
  let probeLower := probeResp.map Char.toLower
  let size := 0x1000000
  let size := if contains ['8','m','b'] probeLower then 0x800000 else size
  let size := if contains ['1','6','m','b'] probeLower then 0x1000000 else size
  if contains ['3','2','m','b'] probeLower then 0x2000000 else size

/-- `startFlashDump` from one answer to its next command. -/
def proceed : Phase → List Char → Phase
  | .probing,resp => .reading (flashSize resp)
  | .reading size,_ => .dumping size 0 (List.replicate size 0) []
  | .dumping size offset allData texts,resp =>
    let allData := layText size resp allData
    let offset := offset+remaining size offset
    if offset < size then .dumping size offset allData (texts++[resp])
    else .saved size allData (texts++[resp])
  | p,_ => p

section
variable (d : Console) (limit : Option ℕ)

/-- `String.fromCharCode(...buf)`; an engine takes only so many arguments. -/
def fromCharCode (buf : List Char) : Option (List Char) :=
  if limit.all (buf.length ≤ ·) then some buf else none

/-- The beginning of `sendUbootCmd`, or the end of the dump. -/
def enter (s : State) (p : Phase) : State :=
  if p.busy then ⟨p,s.pending++d.answer p,[],[]⟩ else {s with phase := p}

/-- Behind the `try` of `sendUbootCmd`. -/
def goOn (s : State) (expired : Bool) : State :=
  if expired then
    match fromCharCode limit s.buf with
    | some text => enter d s (proceed s.phase text)
    | none => {s with phase := .failed}
  else s

def received (s : State) (rd : List Char) (expired : Bool) : State :=
  let s := {s with buf := s.buf++rd}
  match fromCharCode limit s.buf with
  | some text => if '#' ∈ text then enter d s (proceed s.phase text) else goOn d limit s expired
  | none => goOn d limit s expired

def step (s : State) : Event → State
  | .arrive n => {s with pending := s.pending.drop n, readBuffer := s.readBuffer++s.pending.take n}
  | .poll => {s with readBuffer := []}
  | .check late expired =>
    if s.phase.busy then
      if 1024 ≤ s.readBuffer.length then
        received d limit {s with readBuffer := s.readBuffer.drop 1024}
          (s.readBuffer.take 1024) expired
      else if late then
        if s.readBuffer = [] then goOn d limit s expired
        else received d limit {s with readBuffer := []} s.readBuffer expired
      else s
    else s

/-- The first command has been sent; `early` was printed before and has not arrived. -/
def start (early : List Char) : State := ⟨.probing,early++d.answer .probing,[],[]⟩

end

/-- A saved file is the range of the memory, and every row of it has been received. -/
def Faithful (d : Console) : Phase → Prop
  | .saved size file texts => file = slice d.mem base size ∧
      ∀ k,16*k < size → ∃ t ∈ texts,mdLine (base+16*k) (slice d.mem (base+16*k) 16) <:+: t
  | _ => True

/-! ### Where a dump is faithful -/

/-- The memory that is displayed has no `#` and no row of blanks. -/
def Displayable (d : Console) : Phase → Prop
  | .dumping size offset _ _ => (∀ i < remaining size offset,d.mem (base+offset+i) ≠ 0x23) ∧
      Graphic d.mem (base+offset) (remaining size offset/16)
  | _ => True

/-- The console loop finds nothing to take, and no command runs out of time. -/
def Undisturbed (d : Console) (s : State) : Event → Prop
  | .arrive _ => True
  | .poll => s.readBuffer = []
  | .check _ expired => expired = false ∧ Displayable d s.phase

/-- Text that neither ends a command nor has a row in it. -/
def Mute (s : List Char) : Prop := '#' ∉ s ∧ ¬RowStart s

structure Console.Plain (d : Console) : Prop where
  prompt_once : d.prompt.count '#' = 1
  prompt_mute : ¬RowStart d.prompt
  probed_mute : '#' ∉ d.probed
  loaded_mute : '#' ∉ d.loaded

/-! ### Sizes -/

/-- What the page takes a flash to have. -/
structure Whole (size : ℕ) : Prop where
  chunks : chunkSize ∣ size
  pos : 0 < size
  fits : base+size ≤ 2^32

lemma flashSize_whole (probeResp : List Char) : Whole (flashSize probeResp) := by
  have hall : Whole 0x800000 ∧ Whole 0x1000000 ∧ Whole 0x2000000 := by
    refine ⟨⟨?_,?_,?_⟩,⟨?_,?_,?_⟩,⟨?_,?_,?_⟩⟩ <;> decide
  unfold flashSize
  dsimp only
  split_ifs
  · exact hall.2.2
  · exact hall.2.1
  · exact hall.1
  · exact hall.2.1

variable {size offset : ℕ}

lemma remaining_whole (hsize : chunkSize ∣ size) (hoff : chunkSize ∣ offset)
    (hlt : offset < size) : remaining size offset = chunkSize := by
  have hle := Nat.le_of_dvd (by omega) (Nat.dvd_sub hsize hoff)
  exact Nat.min_eq_left hle

/-! ### Texts without the mark -/

lemma column_mark {b : Byte} (h : b ≠ 0x23) : column b ≠ '#' :=
  fun heq => h (BitVec.eq_of_toNat_eq (column_eq heq (by decide)))

lemma mdLine_mark {addr : ℕ} {data : List Byte} (h : ∀ b ∈ data,b ≠ 0x23) :
    '#' ∉ mdLine addr data := by
  intro hmem
  rw [mdLine_eq,mem_append] at hmem
  rcases hmem with hmem | hmem
  · rcases rowHead_mem hmem with heq | heq | ⟨v,hv,heq⟩
    · exact absurd heq (by decide)
    · exact absurd heq (by decide)
    · exact (digitChar_spec v hv).2.2.2.2 heq.symm
  · obtain ⟨b,hb,heq⟩ := mem_map.mp hmem
    exact column_mark (h b hb) heq

lemma mdLines_mark {mem : ℕ → Byte} {addr n : ℕ} (h : ∀ i < n,mem (addr+i) ≠ 0x23) :
    ∀ line ∈ mdLines mem addr n,'#' ∉ line := by
  intro line hline
  obtain ⟨i,hi,rfl⟩ := mem_map.mp hline
  refine mdLine_mark fun b hb => ?_
  obtain ⟨j,hj,rfl⟩ := mem_map.mp hb
  have hlt := mem_range.mp hj
  rw [Nat.add_assoc]
  exact h _ (by omega)

lemma mdText_quiet (addr n : ℕ) : ∀ c ∈ mdText addr n,Quiet c :=
  words_quiet (forall_mem_of_all (by decide)) addr n

lemma mdText_no_colon (addr n : ℕ) : ':' ∉ mdText addr n := by
  have hword (n : ℕ) : ':' ∉ hexWord n := by
    intro h
    simp only [hexWord,mem_cons] at h
    rcases h with h | h | h
    · exact absurd h (by decide)
    · exact absurd h (by decide)
    · obtain ⟨v,hv,heq⟩ := ConsoleDump.hexText_mem h
      have hhex := (digitChar_spec v hv).1
      rw [← heq] at hhex
      exact absurd hhex (by decide)
  simp only [mdText,mem_append,mem_cons,not_or]
  exact ⟨by decide,hword addr,by decide,hword n⟩

lemma readText_quiet (size : ℕ) : ∀ c ∈ readText size,Quiet c := by
  simp only [readText,forall_mem_append,forall_mem_cons]
  exact ⟨forall_mem_of_all (by decide),hexWord_quiet base,by decide,hexWord_quiet 0,by decide,
    hexWord_quiet size⟩

lemma not_mark_of_quiet {s : List Char} (h : ∀ c ∈ s,Quiet c) : '#' ∉ s :=
  fun hmem => (h _ hmem).2.2 rfl

variable {d : Console}

lemma eol_mark (heol : IsEol d.eol) : '#' ∉ d.eol := by
  rcases heol with h | h
  · rw [h]; decide
  · rw [h]; decide

lemma body_mark (hd : d.Plain) {p : Phase} (hp : Displayable d p) : '#' ∉ d.body p := by
  have heol := eol_mark d.isEol
  cases p with
  | probing =>
    simp only [Console.body,mem_append,not_or]
    exact ⟨by decide,heol,hd.probed_mute⟩
  | reading size =>
    simp only [Console.body,mem_append,not_or]
    exact ⟨not_mark_of_quiet (readText_quiet size),heol,hd.loaded_mute⟩
  | dumping size offset allData texts =>
    simp only [Console.body,mem_append,not_or]
    refine ⟨not_mark_of_quiet (mdText_quiet _ _),heol,fun h => ?_⟩
    rcases mem_withEol h with h | ⟨line,hline,h⟩
    · exact heol h
    · exact mdLines_mark hp.1 line hline h
  | saved size file texts => exact not_mem_nil
  | failed => exact not_mem_nil

lemma prompt_split (hd : d.Plain) :
    ∃ a b,d.prompt = a++ '#' :: b ∧ '#' ∉ a ∧ '#' ∉ b := by
  obtain ⟨a,b,hab⟩ := append_of_mem d.marked
  have hcount := hd.prompt_once
  rw [hab,count_append,count_cons_self] at hcount
  exact ⟨a,b,hab,count_eq_zero.mp (by omega),count_eq_zero.mp (by omega)⟩

/-! ### What one answer adds -/

/-- The rows up to `offset` are in the file and in the answers. -/
structure Upto (d : Console) (size offset : ℕ) (allData : List Byte) (texts : List (List Char)) :
    Prop where
  data : allData = slice d.mem base offset++List.replicate (size-offset) 0
  rows : ∀ k,16*k < offset →
    ∃ t ∈ texts,mdLine (base+16*k) (slice d.mem (base+16*k) 16) <:+: t

/-- An answer with the end of an earlier prompt before it, up to some place of its own. -/
structure Answered (d : Console) (p : Phase) (text : List Char) : Prop where
  parts : ∃ left tail,¬RowStart left ∧ ¬RowStart tail ∧ text = left++(d.body p++tail)

lemma eol_split (heol : IsEol d.eol) :
    ∃ cr,d.eol = cr++['\n'] ∧ '\n' ∉ cr ∧ ':' ∉ cr := by
  rcases heol with h | h
  · exact ⟨[],h,by decide,by decide⟩
  · exact ⟨['\r'],h,by decide,by decide⟩

variable {allData : List Byte} {text : List Char}

lemma layText_answer {texts : List (List Char)}
    (hsize : Whole size) (hoff : chunkSize ∣ offset) (hlt : offset < size)
    (hgraphic : Graphic d.mem (base+offset) (remaining size offset/16))
    (hdata : allData = slice d.mem base offset++List.replicate (size-offset) 0)
    (htext : Answered d (.dumping size offset allData texts) text) :
    layText size text allData =
      slice d.mem base (offset+chunkSize)++List.replicate (size-(offset+chunkSize)) 0 := by
  obtain ⟨left,tail,hleft,htail,htext⟩ := htext.parts
  obtain ⟨cr,heol,hcr,hcolon⟩ := eol_split d.isEol
  have hrem := remaining_whole hsize.chunks hoff hlt
  obtain ⟨m,hm⟩ : ∃ m,chunkSize = 16*m := ⟨0x1000,rfl⟩
  obtain ⟨k,rfl⟩ : 16 ∣ offset := Dvd.dvd.trans ⟨m,hm⟩ hoff
  have hle := Nat.le_of_dvd (by omega) (Nat.dvd_sub hsize.chunks hoff)
  rw [hrem,hm,Nat.mul_div_cancel_left m (by decide)] at hgraphic
  have hecho : ¬RowStart (left++(mdText (base+16*k) chunkSize++cr)) := by
    intro h
    refine hleft (rowStart_append h ?_)
    simp only [mem_append,not_or]
    exact ⟨mdText_no_colon _ _,hcolon⟩
  have hshape : text = (left++(mdText (base+16*k) chunkSize++cr))++
      '\n' :: (withEol (cr++['\n']) (mdLines d.mem (base+16*k) (16*m))++tail) := by
    rw [htext,Console.body,hrem,heol,← hm]
    simp only [append_assoc,cons_append,nil_append]
  have hrest : size-16*k = 16*m+(size-(16*k+chunkSize)) := by omega
  have hfits := hsize.fits
  rw [hshape,layText_append,layText_quiet hecho,hdata,hrest,
    layText_rows hcr tail m k _ (by omega) hfits hgraphic,layText_quiet htail,Nat.mul_add,← hm]

lemma rows_answer {texts : List (List Char)}
    (hsize : Whole size) (hoff : chunkSize ∣ offset) (hlt : offset < size)
    (htext : Answered d (.dumping size offset allData texts) text) {k : ℕ} (hlo : offset ≤ 16*k)
    (hhi : 16*k < offset+chunkSize) :
    mdLine (base+16*k) (slice d.mem (base+16*k) 16) <:+: text := by
  obtain ⟨left,tail,-,-,htext⟩ := htext.parts
  obtain ⟨m,hm⟩ : ∃ m,chunkSize = 16*m := ⟨0x1000,rfl⟩
  obtain ⟨j,rfl⟩ : 16 ∣ offset := Dvd.dvd.trans ⟨m,hm⟩ hoff
  have hrem := remaining_whole hsize.chunks hoff hlt
  have hmem : mdLine (base+16*k) (slice d.mem (base+16*k) 16) ∈
      mdLines d.mem (base+16*j) (16*m) := by
    rw [mdLines_eq,rows,map_map]
    refine mem_map.mpr ⟨k-j,mem_range.mpr (by omega),?_⟩
    rw [Function.comp_apply,show base+16*j+16*(k-j) = base+16*k by omega]
  have hbody : withEol d.eol (mdLines d.mem (base+16*j) (16*m)) <:+:
      d.body (.dumping size (16*j) allData texts) := by
    rw [Console.body,hrem,hm,← append_assoc]
    exact (suffix_append _ _).isInfix
  rw [htext]
  exact (infix_withEol hmem).trans (hbody.trans (infix_append' _ _ _))

/-! ### The invariant of a dump -/

def Progress (d : Console) : Phase → Prop
  | .probing => True
  | .reading size => Whole size
  | .dumping size offset allData texts =>
    Whole size ∧ chunkSize ∣ offset ∧ offset < size ∧ Upto d size offset allData texts
  | .saved size file texts => Faithful d (.saved size file texts)
  | .failed => True

/-- What is missing of the answer to the current command is exactly what is on its way;
or so much has been collected that the engine makes no text of it any more. -/
structure Inv (d : Console) (limit : Option ℕ) (s : State) : Prop where
  stream : s.phase.busy = true → fromCharCode limit s.buf = none ∨
    ∃ left,Mute left ∧ '#' ∉ s.buf ∧ s.buf++(s.readBuffer++s.pending) = left++d.answer s.phase
  progress : Progress d s.phase

lemma Upto.next {texts : List (List Char)}
    (h : Upto d size offset allData texts) (hsize : Whole size)
    (hoff : chunkSize ∣ offset) (hlt : offset < size)
    (hgraphic : Graphic d.mem (base+offset) (remaining size offset/16))
    (htext : Answered d (.dumping size offset allData texts) text) :
    Upto d size (offset+chunkSize) (layText size text allData) (texts++[text]) := by
  refine ⟨layText_answer hsize hoff hlt hgraphic h.data htext,fun k hk => ?_⟩
  by_cases hold : 16*k < offset
  · obtain ⟨t,ht,hrow⟩ := h.rows k hold
    exact ⟨t,mem_append_left _ ht,hrow⟩
  · exact ⟨text,mem_append_right _ (mem_singleton.mpr rfl),
      rows_answer hsize hoff hlt htext (Nat.le_of_not_lt hold) hk⟩

lemma Upto.saved {size : ℕ} {texts : List (List Char)}
    (h : Upto d size size allData texts) : Faithful d (.saved size allData texts) := by
  refine ⟨?_,h.rows⟩
  rw [h.data,Nat.sub_self,replicate_zero,append_nil]

lemma progress_proceed {p : Phase} (h : Progress d p)
    (hp : Displayable d p) (htext : Answered d p text) : Progress d (proceed p text) := by
  cases p with
  | probing => exact flashSize_whole text
  | reading size => exact ⟨h,Nat.dvd_zero _,h.pos,⟨rfl,fun k hk => absurd hk (Nat.not_lt_zero _)⟩⟩
  | dumping size offset allData texts =>
    obtain ⟨hsize,hoff,hlt,hupto⟩ := h
    have hnext := hupto.next hsize hoff hlt hp.2 htext
    have hle := Nat.le_of_dvd (by omega) (Nat.dvd_sub hsize.chunks hoff)
    rw [proceed,remaining_whole hsize.chunks hoff hlt]
    split_ifs with hmore
    · exact ⟨hsize,Nat.dvd_add hoff (Nat.dvd_refl _),hmore,hnext⟩
    · have hend : offset+chunkSize = size := by omega
      rw [hend] at hnext
      exact hnext.saved
  | saved size file texts => exact h
  | failed => exact h

lemma inv_enter {limit : Option ℕ} (hd : d.Plain) {s : State} {left : List Char} (hleft : Mute left)
    (hprogress : Progress d s.phase) (hp : Displayable d s.phase) (hmark : '#' ∈ s.buf)
    (hstream : s.buf++(s.readBuffer++s.pending) = left++d.answer s.phase) :
    Inv d limit (enter d s (proceed s.phase s.buf)) := by
  obtain ⟨a,b,hprompt,ha,hb⟩ := prompt_split hd
  have hfree : '#' ∉ left++(d.body s.phase++a) := by
    simp only [mem_append,not_or]
    exact ⟨hleft.1,body_mark hd hp,ha⟩
  have hshape : s.buf++(s.readBuffer++s.pending) = (left++(d.body s.phase++a))++ '#' :: b := by
    rw [hstream,Console.answer,hprompt,append_assoc,append_assoc]
  obtain ⟨c,hbuf,hrest⟩ := append_eq_mark hfree hmark hshape
  have htail : ¬RowStart (a++ '#' :: c) := by
    intro h
    refine hd.prompt_mute (h.mono ?_)
    rw [hprompt,hrest,← cons_append,← append_assoc]
    exact (prefix_append _ _).isInfix
  have hanswered : Answered d s.phase s.buf :=
    ⟨left,a++ '#' :: c,hleft.2,htail,by rw [hbuf,append_assoc,append_assoc]⟩
  have hnext := progress_proceed hprogress hp hanswered
  unfold enter
  split_ifs with hbusy
  · refine ⟨fun _ => .inr ⟨s.pending,⟨fun h => ?_,fun h => ?_⟩,not_mem_nil,rfl⟩,hnext⟩
    · exact hb (hrest ▸ mem_append_right _ (mem_append_right _ h))
    · refine hd.prompt_mute (h.mono ?_)
      rw [hprompt,hrest,← cons_append,← append_assoc,← append_assoc]
      exact (suffix_append _ _).isInfix
  · exact ⟨fun h => absurd h hbusy,hnext⟩

section
variable {limit : Option ℕ}

lemma fromCharCode_eq_some {buf text : List Char} (h : fromCharCode limit buf = some text) :
    text = buf := by
  rw [fromCharCode,Option.ite_none_right_eq_some] at h
  exact (Option.some.inj h.2).symm

lemma fromCharCode_append {buf : List Char} (h : fromCharCode limit buf = none)
    (rd : List Char) : fromCharCode limit (buf++rd) = none := by
  cases limit with
  | none => cases h
  | some n =>
    simp only [fromCharCode,Option.all_some,decide_eq_true_eq,ite_eq_right_iff,reduceCtorEq,
      imp_false,length_append] at h ⊢
    omega

lemma inv_received (hd : d.Plain) {s : State} {rd : List Char} (hprogress : Progress d s.phase)
    (hp : Displayable d s.phase) (hstream : fromCharCode limit s.buf = none ∨
      ∃ left,Mute left ∧ '#' ∉ s.buf ∧
        s.buf++(rd++(s.readBuffer++s.pending)) = left++d.answer s.phase) :
    Inv d limit (received d limit s rd false) := by
  cases htext : fromCharCode limit (s.buf++rd) with
  | none =>
    simp only [received,htext]
    exact ⟨fun _ => .inl htext,hprogress⟩
  | some text =>
    obtain rfl := fromCharCode_eq_some htext
    rcases hstream with hover | ⟨left,hleft,-,hstream⟩
    · rw [fromCharCode_append hover] at htext
      cases htext
    · rw [← append_assoc] at hstream
      simp only [received,htext]
      split_ifs with hmark
      · exact inv_enter (s := {s with buf := s.buf++rd}) hd hleft hprogress hp hmark hstream
      · exact ⟨fun _ => .inr ⟨left,hleft,hmark,hstream⟩,hprogress⟩

lemma inv_step (hd : d.Plain) (s : State) (e : Event) (h : Inv d limit s)
    (he : Undisturbed d s e) : Inv d limit (step d limit s e) := by
  cases e with
  | arrive n =>
    refine ⟨fun hbusy => ?_,h.progress⟩
    refine (h.stream hbusy).imp id fun ⟨left,hleft,hmark,hstream⟩ => ⟨left,hleft,hmark,?_⟩
    simp only [step]
    rw [append_assoc,take_append_drop,hstream]
  | poll =>
    have hsame : step d limit s .poll = s := by
      simp only [step]
      rw [← show s.readBuffer = [] from he]
    rw [hsame]
    exact h
  | check late expired =>
    obtain ⟨rfl,hp⟩ := he
    simp only [step]
    split
    next hbusy =>
      split
      next =>
        refine inv_received hd h.progress hp ?_
        simp only [← append_assoc (s.readBuffer.take 1024),take_append_drop]
        exact h.stream hbusy
      next =>
        split
        next =>
          split
          next => exact h
          next => exact inv_received hd h.progress hp (h.stream hbusy)
        next => exact h
    next => exact h

end

/-! ### A dump that is left alone and comes to its end -/

lemma enter_busy {s : State} {p : Phase} (h : p.busy = true) :
    enter d s p = ⟨p,s.pending++d.answer p,[],[]⟩ := if_pos h

/-- What arrives, and reads that wait long enough and end in time. -/
def Calm (e : Event) : Prop := e = .check true false ∨ ∃ n,e = .arrive n

def Phase.isSaved : Phase → Bool
  | .saved _ _ _ => true
  | _ => false

lemma calm_undisturbed (hshown : ∀ p,Displayable d p) (s : State) {es : List Event}
    (h : ∀ e ∈ es,Calm e) : Along (step d none) (Undisturbed d) s es := by
  refine (Along.of_forall h).mono fun s e he => ?_
  rcases he with rfl | ⟨n,rfl⟩
  · exact ⟨rfl,hshown s.phase⟩
  · trivial

lemma reads_end (n : ℕ) (s : State) (hn : s.readBuffer.length ≤ n) (hbusy : s.phase.busy = true)
    (hmark : '#' ∈ s.readBuffer) : ∃ (es : List Event) (text rest : List Char),(∀ e ∈ es,Calm e) ∧
      es.foldl (step d none) s =
        enter d ⟨s.phase,s.pending,rest,text⟩ (proceed s.phase text) := by
  induction n generalizing s with
  | zero => exact absurd (length_pos_of_mem hmark) (by omega)
  | succ n ih =>
    have hcalm : ∀ e ∈ [Event.check true false],Calm e :=
      fun e he => .inl (mem_singleton.mp he)
    have hne : s.readBuffer ≠ [] := ne_nil_of_mem hmark
    by_cases hlong : 1024 ≤ s.readBuffer.length
    · by_cases htaken : '#' ∈ s.buf++s.readBuffer.take 1024
      · refine ⟨[.check true false],s.buf++s.readBuffer.take 1024,s.readBuffer.drop 1024,hcalm,?_⟩
        simp only [foldl_cons,foldl_nil,step,hbusy,if_true,if_pos hlong,received,
          fromCharCode,Option.all_none,if_pos htaken]
      · have hrest : '#' ∈ s.readBuffer.drop 1024 := by
          rw [← take_append_drop 1024 s.readBuffer,mem_append] at hmark
          exact hmark.resolve_left fun h => htaken (mem_append_right _ h)
        obtain ⟨es,text,rest,hes,hend⟩ := ih
          ⟨s.phase,s.pending,s.readBuffer.drop 1024,s.buf++s.readBuffer.take 1024⟩
          (by simp only [length_drop]; omega) hbusy hrest
        refine ⟨.check true false::es,text,rest,
          forall_mem_cons.mpr ⟨.inl rfl,hes⟩,?_⟩
        rw [foldl_cons,← hend]
        simp only [step,hbusy,if_true,if_pos hlong,received,fromCharCode,Option.all_none,
          if_neg htaken,goOn,Bool.false_eq_true,if_false]
    · have htaken : '#' ∈ s.buf++s.readBuffer := mem_append_right _ hmark
      refine ⟨[.check true false],s.buf++s.readBuffer,[],hcalm,?_⟩
      simp only [foldl_cons,foldl_nil,step,hbusy,if_true,if_neg hlong,if_neg hne,
        received,fromCharCode,Option.all_none,if_pos htaken]

/-- A command has just been sent and nothing else is on its way. -/
def sent (d : Console) (p : Phase) : State := ⟨p,d.answer p,[],[]⟩

lemma command_ends {p : Phase} (hbusy : p.busy = true) :
    ∃ (es : List Event) (text : List Char),(∀ e ∈ es,Calm e) ∧
    (es.foldl (step d none) (sent d p)).phase = proceed p text ∧
    ((proceed p text).busy = true →
      es.foldl (step d none) (sent d p) = sent d (proceed p text)) := by
  have hmark : '#' ∈ d.answer p := mem_append_right _ d.marked
  have harrive : step d none (sent d p) (.arrive (d.answer p).length) = ⟨p,[],d.answer p,[]⟩ := by
    simp only [step,sent,drop_length,take_length,nil_append]
  obtain ⟨es,text,rest,hes,hend⟩ := reads_end (d.answer p).length (d := d) ⟨p,[],d.answer p,[]⟩
    (Nat.le_refl _) hbusy hmark
  refine ⟨.arrive (d.answer p).length::es,text,forall_mem_cons.mpr ⟨.inr ⟨_,rfl⟩,hes⟩,?_,?_⟩
  · rw [foldl_cons,harrive,hend,enter]
    split_ifs <;> rfl
  · intro h
    rw [foldl_cons,harrive,hend,enter_busy h]
    rfl

lemma dumping_ends (size k offset : ℕ) (allData : List Byte) (texts : List (List Char))
    (hk : size-offset ≤ k) : ∃ es : List Event,(∀ e ∈ es,Calm e) ∧
      (es.foldl (step d none) (sent d (.dumping size offset allData texts))).phase.isSaved =
        true := by
  induction k generalizing offset allData texts with
  | zero =>
    obtain ⟨es,text,hes,hphase,-⟩ := command_ends (d := d)
      (p := .dumping size offset allData texts) rfl
    refine ⟨es,hes,?_⟩
    rw [hphase,proceed,if_neg (by omega)]
    rfl
  | succ k ih =>
    obtain ⟨es,text,hes,hphase,hsent⟩ :=
      command_ends (d := d) (p := .dumping size offset allData texts) rfl
    by_cases hmore : offset+remaining size offset < size
    · have hpos : 0 < remaining size offset := Nat.lt_min.mpr ⟨by decide,by omega⟩
      rw [proceed,if_pos hmore] at hsent
      obtain ⟨es',hes',hsaved⟩ := ih (offset+remaining size offset) (layText size text allData)
        (texts++[text]) (by omega)
      refine ⟨es++es',forall_mem_append.mpr ⟨hes,hes'⟩,?_⟩
      rw [foldl_append,hsent rfl]
      exact hsaved
    · refine ⟨es,hes,?_⟩
      rw [hphase,proceed,if_neg hmore]
      rfl

lemma dump_ends : ∃ es : List Event,(∀ e ∈ es,Calm e) ∧
    (es.foldl (step d none) (start d [])).phase.isSaved = true := by
  obtain ⟨es,text,hes,-,hsent⟩ := command_ends (d := d) (p := .probing) rfl
  obtain ⟨es',text',hes',-,hsent'⟩ := command_ends (d := d) (p := .reading (flashSize text)) rfl
  obtain ⟨es'',hes'',hsaved⟩ := dumping_ends (d := d) (flashSize text) _ 0
    (List.replicate (flashSize text) 0) [] (Nat.le_refl _)
  refine ⟨es++(es'++es''),
    forall_mem_append.mpr ⟨hes,forall_mem_append.mpr ⟨hes',hes''⟩⟩,?_⟩
  have hstart : start d [] = sent d .probing := rfl
  rw [foldl_append,hstart,hsent rfl,foldl_append]
  have hread := hsent' rfl
  exact (congrArg (fun s => (es''.foldl (step d none) s).phase.isSaved) hread).trans hsaved

/-- A dump that is left alone saves the memory or nothing. -/
theorem undisturbed_dump_faithful (d : Console) (limit : Option ℕ) (hd : d.Plain)
    (early : List Char) (hearly : Mute early) (es : List Event)
    (h : Along (step d limit) (Undisturbed d) (start d early) es) :
    Faithful d (es.foldl (step d limit) (start d early)).phase := by
  have hstart : Inv d limit (start d early) :=
    ⟨fun _ => .inr ⟨early,hearly,not_mem_nil,rfl⟩,trivial⟩
  have hend := (Along.invariant (inv_step hd) hstart h).progress
  generalize (es.foldl (step d limit) (start d early)).phase = p at hend ⊢
  cases p with
  | saved size file texts => exact hend
  | _ => trivial

/-- A console as on a camera, with the letter `A` all over its memory. -/
def lettered : Console where
  eol := ['\r','\n']
  prompt := "hisilicon # ".toList
  probed := []
  loaded := []
  mem := fun _ => 0x41
  isEol := crlf_isEol
  marked := by decide

theorem lettered_dump : ∃ es : List Event,
    (es.foldl (step lettered none) (start lettered [])).phase.isSaved = true ∧
      Faithful lettered (es.foldl (step lettered none) (start lettered [])).phase := by
  obtain ⟨es,hes,hsaved⟩ := dump_ends (d := lettered)
  have hshown : ∀ p,Displayable lettered p := by
    intro p
    cases p with
    | dumping size offset allData texts =>
      exact ⟨fun _ _ => show (0x41 : Byte) ≠ 0x23 by decide,
        fun _ _ => ⟨0,by decide,show (0x41 : Byte) ≠ 0x20 by decide⟩⟩
    | _ => trivial
  have hplain : lettered.Plain :=
    ⟨by decide,not_rowStart (by decide),not_mem_nil,not_mem_nil⟩
  exact ⟨es,hsaved,undisturbed_dump_faithful lettered none hplain []
    ⟨not_mem_nil,not_rowStart not_mem_nil⟩ es (calm_undisturbed hshown _ hes)⟩

/-! ### A dump of memory full of `#` -/

lemma mdLine_length {addr : ℕ} {data : List Byte} (h : data.length = 16) :
    (mdLine addr data).length = 77 := by
  have hcolumn : (hexColumn data).length = 48 := by
    simp [hexColumn,hexByte,length_flatMap,h]
  simp only [mdLine,length_append,length_cons,hexAddr_length,hcolumn,
    length_replicate,length_map,h]

lemma read_once {s : State} {text rest : List Char} (hbusy : s.phase.busy = true)
    (hpending : s.pending = text++rest) (hbuffer : s.readBuffer = []) (hbuf : s.buf = [])
    (hmark : '#' ∈ text) (hshort : text.length < 1024) :
    [Event.arrive text.length,.check true false].foldl (step d none) s =
      enter d ⟨s.phase,rest,[],text⟩ (proceed s.phase text) := by
  have htake : s.pending.take text.length = text := by
    rw [hpending,take_left' rfl]
  have hdrop : s.pending.drop text.length = rest := by
    rw [hpending,drop_left' rfl]
  have hne : text ≠ [] := ne_nil_of_mem hmark
  simp only [foldl_cons,foldl_nil,step,hbuffer,nil_append,htake,hdrop,hbusy,if_true,
    if_neg (Nat.not_le_of_lt hshort),if_neg hne,received,hbuf,fromCharCode,Option.all_none,
    if_pos hmark]

/-- A console that displays nothing but `#`. -/
def hashed : Console where
  eol := ['\n']
  prompt := ['#',' ']
  probed := []
  loaded := []
  mem := fun _ => 0x23
  isEol := .inl rfl
  marked := by decide

def hashRow (k : ℕ) : List Char := mdLine (base+16*k) (slice hashed.mem (base+16*k) 16)++['\n']

lemma hashRow_length (k : ℕ) : (hashRow k).length = 78 := by
  rw [hashRow,length_append,mdLine_length (slice_length _ _ _)]
  rfl

lemma mark_mem_hashRow (k : ℕ) : '#' ∈ hashRow k := by
  have hcolumn : '#' ∈ (slice hashed.mem (base+16*k) 16).map column :=
    mem_map.mpr ⟨0x23,mem_map.mpr ⟨0,by decide,rfl⟩,by decide⟩
  rw [hashRow,mdLine_eq]
  exact mem_append_left _ (mem_append_right _ hcolumn)

/-- The text of `n` rows from the `k`-th on. -/
def hashRows (k n : ℕ) : List Char := withEol ['\n'] (mdLines hashed.mem (base+16*k) (16*n))

lemma hashRows_succ (k n : ℕ) : hashRows k (n+1) = hashRow k++hashRows (k+1) n := by
  simp only [hashRows,mdLines_eq,rows_succ,map_cons,withEol,flatMap_cons]
  rfl

lemma layText_hashRow {size k r : ℕ} (hsize : size = 16*k+(16+r)) (hfits : base+size ≤ 2^32) :
    layText size (hashRow k) (slice hashed.mem base (16*k)++List.replicate (16+r) 0) =
      slice hashed.mem base (16*(k+1))++List.replicate r 0 := by
  have hgraphic : ∃ i < 16,hashed.mem (base+16*k+i) ≠ 0x20 :=
    ⟨0,by decide,show (0x23 : Byte) ≠ 0x20 by decide⟩
  have hcr : '\n' ∉ ([] : List Char) := not_mem_nil
  have hrow := layText_row hsize (by omega) hgraphic hcr
  rw [append_nil] at hrow
  rw [hashRow,layText_append,hrow,layText_quiet (not_rowStart not_mem_nil)]

/-- A row has arrived when the next command reads, and ends it. -/
def rowEvents : List Event := [.arrive 78,.check true false]

lemma hashRow_step {size k r : ℕ} (hsize : size = 16*k+(16+r)) (hfits : base+size ≤ 2^32)
    (offset n : ℕ) (texts : List (List Char)) (rest : List Char) :
    rowEvents.foldl (step hashed none)
        ⟨.dumping size offset (slice hashed.mem base (16*k)++List.replicate (16+r) 0) texts,
          hashRows k (n+1)++rest,[],[]⟩ =
      enter hashed
        ⟨.dumping size offset (slice hashed.mem base (16*k)++List.replicate (16+r) 0) texts,
          hashRows (k+1) n++rest,[],hashRow k⟩
        (if offset+remaining size offset < size then
          .dumping size (offset+remaining size offset)
            (slice hashed.mem base (16*(k+1))++List.replicate r 0) (texts++[hashRow k])
        else .saved size (slice hashed.mem base (16*(k+1))++List.replicate r 0)
          (texts++[hashRow k])) := by
  have hlen := hashRow_length k
  have hpending : hashRows k (n+1)++rest = hashRow k++(hashRows (k+1) n++rest) := by
    rw [hashRows_succ,append_assoc]
  rw [rowEvents,← hlen,read_once rfl hpending rfl rfl (mark_mem_hashRow k) (by omega)]
  simp only [proceed,layText_hashRow hsize hfits]

lemma hashRows_saved {size r : ℕ} (hfits : base+size ≤ 2^32) (n k m offset : ℕ)
    (texts : List (List Char)) (rest : List Char) (hm : n < m)
    (hoff : offset+(n+1)*chunkSize = size) (hsize : size = 16*k+(16*(n+1)+r)) :
    ∃ texts',((List.replicate (n+1) rowEvents).flatten.foldl (step hashed none)
      ⟨.dumping size offset (slice hashed.mem base (16*k)++List.replicate (16*(n+1)+r) 0) texts,
        hashRows k m++rest,[],[]⟩).phase =
      .saved size (slice hashed.mem base (16*(k+(n+1)))++List.replicate r 0) texts' := by
  have hpos : 0 < chunkSize := by decide
  induction n generalizing k m offset texts rest with
  | zero =>
    obtain ⟨m,rfl⟩ := Nat.exists_eq_succ_of_ne_zero (Nat.ne_of_gt hm)
    rw [Nat.zero_add,Nat.one_mul] at hoff
    rw [Nat.zero_add,Nat.mul_one] at hsize
    have hrem : remaining size offset = chunkSize := Nat.min_eq_left (by omega)
    have hrow := hashRow_step hsize hfits offset m texts rest
    rw [hrem,if_neg (by omega)] at hrow
    refine ⟨texts++[hashRow k],?_⟩
    rw [Nat.zero_add,Nat.mul_one,replicate_one,flatten_singleton,hrow]
    rfl
  | succ n ih =>
    obtain ⟨m,rfl⟩ := Nat.exists_eq_succ_of_ne_zero (Nat.ne_of_gt (Nat.zero_lt_of_lt hm))
    have hcount : 16*(n+1+1)+r = 16+(16*(n+1)+r) := by omega
    have hmul : (n+1+1)*chunkSize = chunkSize+(n+1)*chunkSize := by
      rw [Nat.succ_mul,Nat.add_comm]
    have hmore : 0 < (n+1)*chunkSize := Nat.mul_pos (Nat.succ_pos n) hpos
    have hrem : remaining size offset = chunkSize := Nat.min_eq_left (by omega)
    have hrow := hashRow_step (hsize.trans (by omega)) hfits offset m texts rest (k := k)
      (r := 16*(n+1)+r)
    rw [hrem,if_pos (by omega)] at hrow
    rw [hcount,replicate_succ,flatten_cons,foldl_append,hrow,enter_busy rfl]
    simp only [append_assoc]
    obtain ⟨texts',hend⟩ := ih (k+1) m (offset+chunkSize) (texts++[hashRow k]) (rest++_)
      (Nat.lt_of_succ_lt_succ hm) (by omega) (by omega)
    refine ⟨texts',hend.trans ?_⟩
    rw [Nat.add_right_comm k,Nat.add_assoc k]

/-- The first two commands are answered whole, the third up to the end of the first row. -/
def hashEvents : List Event :=
  [.arrive 13,.check true false,.arrive 35,.check true false,.arrive 102,.check true false]++
    (List.replicate 255 rowEvents).flatten

def hashText : List Char := mdText (base+0) chunkSize++ '\n' :: hashRow 0

lemma hashText_length : hashText.length = 102 := by
  have hmd : (mdText (base+0) chunkSize).length = 23 := by decide +kernel
  rw [hashText,length_append,length_cons,hashRow_length,hmd]

lemma layText_hashText {size r : ℕ} (hsize : size = 16+r) (hfits : base+size ≤ 2^32) :
    layText size hashText (List.replicate (16+r) 0) =
      slice hashed.mem base 16++List.replicate r 0 := by
  have hecho : ¬RowStart (mdText (base+0) chunkSize) := not_rowStart (mdText_no_colon _ _)
  have hrow := layText_hashRow (k := 0) (r := r) (hsize.trans (by omega)) hfits
  rw [hashText,layText_append,layText_quiet hecho]
  exact hrow

lemma hash_dump_saved {size r : ℕ} (hprobe : flashSize (hashed.answer .probing) = size)
    (hread : (hashed.answer (.reading size)).length = 35) (hchunks : 256*chunkSize = size)
    (hsize : size = 16*256+r) (hfits : base+size ≤ 2^32) :
    ∃ texts,(hashEvents.foldl (step hashed none) (start hashed [])).phase =
      .saved size (slice hashed.mem base (16*256)++List.replicate r 0) texts := by
  have hfirst : [Event.arrive 13,.check true false].foldl (step hashed none) (start hashed []) =
      ⟨.reading size,hashed.answer (.reading size),[],[]⟩ := by
    have hlen : (hashed.answer .probing).length = 13 := by decide
    have hpending : (start hashed []).pending = hashed.answer .probing++[] :=
      (append_nil _).symm
    rw [← hlen,read_once rfl hpending rfl rfl (by decide) (by omega),enter_busy rfl,← hprobe]
    rfl
  have hsecond : [Event.arrive 35,.check true false].foldl (step hashed none)
      ⟨.reading size,hashed.answer (.reading size),[],[]⟩ =
      ⟨.dumping size 0 (List.replicate size 0) [],
        hashed.answer (.dumping size 0 (List.replicate size 0) []),[],[]⟩ := by
    have hmark : '#' ∈ hashed.answer (.reading size) :=
      mem_append_right _ (by decide)
    have hpending := (append_nil (hashed.answer (.reading size))).symm
    rw [← hread,read_once rfl hpending rfl rfl hmark (by omega),enter_busy rfl]
    rfl
  have hrem : remaining size 0 = chunkSize := Nat.min_eq_left (by omega)
  have hpending : hashed.answer (.dumping size 0 (List.replicate size 0) []) =
      hashText++(hashRows 1 0xfff++hashed.prompt) := by
    have hrows : withEol hashed.eol (mdLines hashed.mem (base+0) chunkSize) =
        hashRow 0++hashRows 1 0xfff := by
      rw [← hashRows_succ 0 0xfff,hashRows,Nat.mul_zero]
      rfl
    rw [Console.answer,Console.body,hrem,hrows,hashText]
    simp only [hashed,append_assoc,cons_append,nil_append]
  have hmark : '#' ∈ hashText :=
    mem_append_right _ (mem_cons_of_mem _ (mark_mem_hashRow 0))
  have hdata : List.replicate size (0 : Byte) = List.replicate (16+(16*255+r)) 0 := by
    congr 1
    omega
  have hthird : ∃ texts rest,[Event.arrive 102,.check true false].foldl (step hashed none)
      ⟨.dumping size 0 (List.replicate size 0) [],
        hashed.answer (.dumping size 0 (List.replicate size 0) []),[],[]⟩ =
      ⟨.dumping size chunkSize (slice hashed.mem base 16++List.replicate (16*255+r) 0) texts,
        hashRows 1 0xfff++rest,[],[]⟩ := by
    have hlen := hashText_length
    rw [← hlen,read_once rfl hpending rfl rfl hmark (by omega)]
    simp only [proceed,hrem,Nat.zero_add]
    rw [if_pos (by omega),enter_busy rfl,hdata,layText_hashText (by omega) hfits]
    simp only [append_assoc]
    exact ⟨_,_,rfl⟩
  obtain ⟨texts,rest,hthird⟩ := hthird
  have hrun := hashRows_saved (r := r) hfits 254 1 0xfff chunkSize texts rest (by decide) (by omega)
    (by omega)
  have hevents : hashEvents = [.arrive 13,.check true false]++([.arrive 35,.check true false]++
      ([.arrive 102,.check true false]++(List.replicate 255 rowEvents).flatten)) := by
    simp only [hashEvents,cons_append,nil_append]
  rw [hevents,foldl_append,hfirst,foldl_append,hsecond,foldl_append,hthird]
  exact hrun

lemma zero_of_slice {mem : ℕ → Byte} {a n r : ℕ}
    (h : slice mem a n++List.replicate (r+1) 0 = slice mem a (n+(r+1))) : mem (a+n) = 0 := by
  rw [slice_add,append_cancel_left_eq,replicate_succ,slice_succ,List.cons.injEq] at h
  exact h.1.symm

/-- Every command is ended by the row it finds; 256 rows of the first chunk are received. -/
theorem hash_dump_not_faithful :
    ¬Faithful hashed (hashEvents.foldl (step hashed none) (start hashed [])).phase := by
  have hread : (hashed.answer (.reading (16*256+(0xffefff+1)))).length = 35 := by decide +kernel
  obtain ⟨texts,hsaved⟩ := hash_dump_saved (by decide +kernel) hread (by decide) rfl (by decide)
  rw [hsaved]
  rintro ⟨hfile,-⟩
  have hzero : (0x23 : Byte) = 0 := zero_of_slice hfile
  exact absurd hzero (by decide)

end Defib.WebDump
