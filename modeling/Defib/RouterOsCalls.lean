import Defib.RouterOsWire

/-!
# Calls on one RouterOS connection

`read_response` reads sentences up to the first `!done` or `!trap`. Over the stream of bytes
this is the same as taking a response from the queue of the sentences that have not been
read (`takeResponse`). A router that reports an error with `!trap` still ends its answer with
`!done`, and that sentence stays in the queue for the next call.
-/
namespace Defib.RouterOsCalls
open List Option Words ByteReader PartialMap RouterOsWire

/-- The first words of the sentences of an answer. -/
inductive Mark where
  | re
  | trap
  | done
  deriving DecidableEq, Repr

def Mark.word : Mark → Word
  | .re => ['!','r','e']
  | .trap => ['!','t','r','a','p']
  | .done => ['!','d','o','n','e']

def isFinal (word : Word) : Bool := word = Mark.done.word || word = Mark.trap.word

section Connection

def readResponseLoop : ℕ → Read (List Sentence)
  | 0 => return []
  | n+1 => do
    let sentence ← readSentence
    match sentence with
    | [] => readResponseLoop n
    | word::_ =>
      if isFinal word then return [sentence]
      let sentences ← readResponseLoop n
      return sentence::sentences

def readResponse : Read (List Sentence) := do
  let r ← get
  readResponseLoop (r.bytes.length+1)

inductive CallError where
  | wordTooLong
  | read (e : ReadError)
  deriving DecidableEq, Repr

/-- What the router sends because of the call comes in `chunks`. -/
def call (words : Sentence) (chunks : List (List Byte)) (r : Reader) :
    Except CallError (List Sentence × Reader) :=
  match sendSentence words with
  | none => .error .wordTooLong
  | some _ => (readResponse ⟨r.buffer,r.chunks++chunks⟩).mapError .read

end Connection

section Queue

/-- The response that is read first, and the sentences it leaves. -/
def takeResponse : List Sentence → Option (List Sentence × List Sentence)
  | [] => none
  | []::q => takeResponse q
  | (word::words)::q =>
    if isFinal word then some ([word::words],q)
    else (takeResponse q).map fun x => ((word::words)::x.1,x.2)

/-- An answer of the router: attributes of its `!re` sentences, of its `!trap` if there is
one, and of its `!done`. -/
structure Answer (W : Type) where
  re : List (List W)
  trap : Option (List W)
  done : List W
  deriving DecidableEq, Repr

def Answer.sentences {W : Type} (mark : Mark → W) (a : Answer W) : List (List W) :=
  a.re.map (mark .re :: ·)++a.trap.toList.map (mark .trap :: ·)++[mark .done :: a.done]

def Answer.map {V W : Type} (f : V → W) (a : Answer V) : Answer W :=
  ⟨a.re.map (·.map f),a.trap.map (·.map f),a.done.map f⟩

lemma Answer.sentences_map {V W : Type} (f : V → W) (mark : Mark → V) (a : Answer V) :
    (a.sentences mark).map (·.map f) = (a.map f).sentences (fun m => f (mark m)) := by
  cases h : a.trap with
  | none => simp [Answer.sentences,Answer.map,h]
  | some t => simp [Answer.sentences,Answer.map,h]

lemma takeResponse_re (re : List (List Word)) (q : List Sentence) :
    takeResponse (re.map (Mark.re.word :: ·)++q) =
      (takeResponse q).map fun x => (re.map (Mark.re.word :: ·)++x.1,x.2) := by
  have hnot : isFinal Mark.re.word = false := by decide
  induction re with
  | nil => exact Option.map_id'.symm
  | cons s re ih =>
    rw [map_cons,cons_append,takeResponse,hnot,if_neg Bool.false_ne_true,ih,
      Option.map_map]
    rfl

lemma takeResponse_done {a : Answer Word} (ha : a.trap = none) (q : List Sentence) :
    takeResponse (a.sentences Mark.word++q) = some (a.sentences Mark.word,q) := by
  have hfinal : isFinal Mark.done.word = true := by decide
  rw [Answer.sentences,ha,toList_none,map_nil,append_nil,append_assoc,
    takeResponse_re,cons_append,takeResponse,hfinal,if_pos rfl]
  rfl

lemma takeResponse_trap {a : Answer Word} {t : List Word} (ha : a.trap = some t)
    (q : List Sentence) :
    takeResponse (a.sentences Mark.word++q) =
      some (a.re.map (Mark.re.word :: ·)++[Mark.trap.word::t],(Mark.done.word::a.done)::q) := by
  have hfinal : isFinal Mark.trap.word = true := by decide
  rw [Answer.sentences,ha,toList_some,map_cons,map_nil,append_assoc,
    append_assoc,takeResponse_re,cons_append,takeResponse,hfinal,if_pos rfl]
  rfl

lemma takeResponse_append {q rs rest : List Sentence} (h : takeResponse q = some (rs,rest))
    (new : List Sentence) : takeResponse (q++new) = some (rs,rest++new) := by
  induction q generalizing rs with
  | nil => cases h
  | cons s q ih =>
    rw [cons_append]
    cases s with
    | nil =>
      rw [takeResponse] at h ⊢
      exact ih h
    | cons word words =>
      rw [takeResponse] at h ⊢
      by_cases hfinal : isFinal word = true
      · rw [if_pos hfinal] at h ⊢
        cases h
        rfl
      · rw [if_neg hfinal] at h ⊢
        obtain ⟨x,hx,heq⟩ := map_eq_some_iff.mp h
        cases heq
        rw [ih hx]
        rfl

lemma takeResponse_isSome (q : List Sentence) (a : Answer Word) (new : List Sentence) :
    (takeResponse (q++(a.sentences Mark.word++new))).isSome = true := by
  induction q with
  | nil =>
    cases ha : a.trap with
    | none => rw [nil_append,takeResponse_done ha,isSome_some]
    | some t => rw [nil_append,takeResponse_trap ha,isSome_some]
  | cons s q ih =>
    cases s with
    | nil => exact ih
    | cons word words =>
      rw [cons_append,takeResponse]
      by_cases hfinal : isFinal word = true
      · rw [if_pos hfinal,isSome_some]
      · rw [if_neg hfinal,isSome_map]
        exact ih

end Queue

section Stream

/-- A word as the router can send it. -/
structure Payload where
  bytes : List Byte
  ne_nil : bytes ≠ []
  short : bytes.length < maxWord

def Payload.text (p : Payload) : Word := Utf8.decode p.bytes

def Mark.payload : Mark → Payload
  | .re => ⟨Utf8.encode Mark.re.word,by decide,by decide⟩
  | .trap => ⟨Utf8.encode Mark.trap.word,by decide,by decide⟩
  | .done => ⟨Utf8.encode Mark.done.word,by decide,by decide⟩

lemma Mark.payload_text (m : Mark) : m.payload.text = m.word := by
  cases m with
  | re => exact Utf8.decode_encode _
  | trap => exact Utf8.decode_encode _
  | done => exact Utf8.decode_encode _

abbrev RawSentence := List Payload

def RawSentence.text (s : RawSentence) : Sentence := s.map Payload.text

def RawSentence.bytes (s : RawSentence) : List Byte :=
  (encodeSentence (s.map Payload.bytes)).getD []

lemma RawSentence.encode_eq (s : RawSentence) :
    encodeSentence (s.map Payload.bytes) = some s.bytes := by
  have h : (encodeSentence (s.map Payload.bytes)).isSome = true := by
    rw [encodeSentence_isSome_iff]
    intro p hp
    obtain ⟨w,_,rfl⟩ := mem_map.mp hp
    exact w.short
  obtain ⟨bs,hbs⟩ := isSome_iff_exists.mp h
  rw [RawSentence.bytes,hbs,getD_some]

lemma RawSentence.bytes_ne_nil (s : RawSentence) : s.bytes ≠ [] := by
  obtain ⟨bss,_,h⟩ := map_eq_some_iff.mp s.encode_eq
  rw [← h]
  exact append_ne_nil_of_right_ne_nil _ (cons_ne_nil _ _)

lemma RawSentence.yields (s : RawSentence) : Yields readSentence s.bytes s.text := by
  have hne : ∀ p ∈ s.map Payload.bytes,p ≠ [] := by
    intro p hp
    obtain ⟨w,_,rfl⟩ := mem_map.mp hp
    exact w.ne_nil
  have h := yields_readSentence hne s.encode_eq
  rwa [List.map_map] at h

lemma length_le_flatMap_bytes (q : List RawSentence) :
    q.length ≤ (q.flatMap RawSentence.bytes).length := by
  induction q with
  | nil => exact le_rfl
  | cons s q ih =>
    have hpos := length_pos_iff.mpr s.bytes_ne_nil
    rw [length_cons,flatMap_cons,length_append]
    omega

lemma yields_readResponseLoop {q : List RawSentence} {rs rest : List Sentence}
    (h : takeResponse (q.map RawSentence.text) = some (rs,rest)) :
    ∃ q₁ q₂,q = q₁++q₂ ∧ q₂.map RawSentence.text = rest ∧
      ∀ n,q₁.length < n → Yields (readResponseLoop n) (q₁.flatMap RawSentence.bytes) rs := by
  induction q generalizing rs with
  | nil => cases h
  | cons s q ih =>
    have hread := s.yields
    rw [map_cons] at h
    cases hs : RawSentence.text s with
    | nil =>
      rw [hs,takeResponse] at h
      rw [hs] at hread
      obtain ⟨q₁,q₂,rfl,hrest,hloop⟩ := ih h
      refine ⟨s::q₁,q₂,rfl,hrest,fun n hn => ?_⟩
      obtain ⟨n,rfl⟩ := Nat.exists_eq_succ_of_ne_zero (Nat.ne_zero_of_lt hn)
      exact hread.bind _ (hloop n (Nat.lt_of_succ_lt_succ hn))
    | cons word words =>
      rw [hs,takeResponse] at h
      rw [hs] at hread
      by_cases hfinal : isFinal word = true
      · rw [if_pos hfinal] at h
        cases h
        refine ⟨[s],q,rfl,rfl,fun n hn => ?_⟩
        obtain ⟨n,rfl⟩ := Nat.exists_eq_succ_of_ne_zero (Nat.ne_zero_of_lt hn)
        refine hread.bind [] ?_
        simp only [if_pos hfinal]
        exact Yields.pure _
      · rw [if_neg hfinal] at h
        obtain ⟨x,hx,heq⟩ := map_eq_some_iff.mp h
        cases heq
        obtain ⟨q₁,q₂,rfl,hrest,hloop⟩ := ih hx
        refine ⟨s::q₁,q₂,rfl,hrest,fun n hn => ?_⟩
        obtain ⟨n,rfl⟩ := Nat.exists_eq_succ_of_ne_zero (Nat.ne_zero_of_lt hn)
        refine hread.bind _ ?_
        simp only [if_neg hfinal]
        exact (hloop n (Nat.lt_of_succ_lt_succ hn)).map ((word::words) :: ·)

/-- The bytes that are not read yet are those of the sentences `q`. -/
def Holds (r : Reader) (q : List RawSentence) : Prop := r.bytes = q.flatMap RawSentence.bytes

lemma readResponse_eq {r : Reader} {q q' : List RawSentence} {rs : List Sentence}
    (hr : Holds r (q++q'))
    (h : takeResponse ((q++q').map RawSentence.text) = some (rs,q'.map RawSentence.text)) :
    ∃ r',readResponse r = .ok (rs,r') ∧ Holds r' q' := by
  obtain ⟨q₁,q₂,hq,hrest,hloop⟩ := yields_readResponseLoop h
  have hlen : q'.length = q₂.length := by simpa using (congrArg List.length hrest).symm
  obtain ⟨rfl,rfl⟩ := append_inj' hq hlen
  rw [Holds,flatMap_append] at hr
  have hfuel : q.length < r.bytes.length+1 := by
    have hle := length_le_flatMap_bytes q
    rw [hr,length_append]
    omega
  exact hloop _ hfuel r _ hr

end Stream

section Calls

/-- A call, and what the router answers to the sentences it sends: an empty word among
`words` ends a sentence. -/
structure Exchange where
  words : Sentence
  answers : List (Answer Payload)
  chunks : List (List Byte)
  answered : answers.length = words.count []+1
  arrived : chunks.flatten =
    (answers.flatMap (Answer.sentences Mark.payload)).flatMap RawSentence.bytes

def callAll : List Exchange → Reader → Except CallError (List (List Sentence) × Reader)
  | [],r => .ok ([],r)
  | e::es,r => do
    let (response,r) ← call e.words e.chunks r
    let (responses,r) ← callAll es r
    return (response::responses,r)

/-- An answer as `call` is to return it. -/
def Answer.response (a : Answer Payload) : List Sentence :=
  (a.map Payload.text).sentences Mark.word

lemma Answer.texts (a : Answer Payload) :
    (a.sentences Mark.payload).map RawSentence.text = a.response := by
  rw [Answer.response,← funext Mark.payload_text]
  exact a.sentences_map Payload.text Mark.payload

def Sendable (words : Sentence) : Prop := ∀ w ∈ words,(Utf8.encode w).length < maxWord

lemma sendSentence_isSome_iff (words : Sentence) :
    (sendSentence words).isSome = true ↔ Sendable words := by
  rw [sendSentence_eq,encodeSentence_isSome_iff]
  exact forall_mem_map

lemma call_of_not_sendable {words : Sentence} (h : ¬Sendable words) (chunks : List (List Byte))
    (r : Reader) : call words chunks r = .error .wordTooLong := by
  have hnone : sendSentence words = none := by
    rwa [← sendSentence_isSome_iff,not_isSome_iff_eq_none] at h
  rw [call,hnone]

lemma call_eq {words : Sentence} (h : Sendable words) {chunks : List (List Byte)} {r : Reader}
    {old new q q' : List RawSentence} (hr : Holds r old)
    (hnew : chunks.flatten = new.flatMap RawSentence.bytes) (hq : old++new = q++q')
    {rs : List Sentence}
    (htake : takeResponse ((q++q').map RawSentence.text) = some (rs,q'.map RawSentence.text)) :
    ∃ r',call words chunks r = .ok (rs,r') ∧ Holds r' q' := by
  obtain ⟨bs,hbs⟩ := isSome_iff_exists.mp ((sendSentence_isSome_iff words).mpr h)
  have hholds : Holds ⟨r.buffer,r.chunks++chunks⟩ (q++q') := by
    rw [Holds,Reader.bytes] at hr
    rw [Holds,Reader.bytes,flatten_append,← append_assoc,hr,hnew,← flatMap_append,
      hq]
  obtain ⟨r',hread,hrest⟩ := readResponse_eq hholds htake
  refine ⟨r',?_,hrest⟩
  rw [call,hbs]
  simp only [hread]
  rfl

lemma callAll_cons {e : Exchange} {es : List Exchange} {r r₁ : Reader} {x : List Sentence}
    (h : call e.words e.chunks r = .ok (x,r₁)) (y : List Sentence) (ys : List (List Sentence)) :
    (∃ r',callAll (e::es) r = .ok (y::ys,r')) ↔ x = y ∧ ∃ r',callAll es r₁ = .ok (ys,r') := by
  rw [callAll,h]
  change (∃ r',(callAll es r₁ >>= fun z => .ok (x::z.1,z.2)) = _) ↔ _
  cases callAll es r₁ with
  | error err => simp [bind,Except.bind]
  | ok z => simp [bind,Except.bind,Prod.ext_iff]

/-- A call when the first of the answers that wait is `a`: it returns what comes up to the
first sentence that ends a response. -/
theorem call_answer {words : Sentence} (h : Sendable words) {chunks : List (List Byte)}
    {r : Reader} {as new later : List (Answer Payload)} {a : Answer Payload}
    (hr : Holds r (as.flatMap (Answer.sentences Mark.payload)))
    (hnew : chunks.flatten =
      (new.flatMap (Answer.sentences Mark.payload)).flatMap RawSentence.bytes)
    (heq : as++new = a::later) :
    (a.trap = none → ∃ r',call words chunks r = .ok (a.response,r') ∧
      Holds r' (later.flatMap (Answer.sentences Mark.payload))) ∧
    (a.trap ≠ none → ∃ x r',call words chunks r = .ok (x,r') ∧ x ≠ a.response) := by
  have hq : as.flatMap (Answer.sentences Mark.payload)++
      new.flatMap (Answer.sentences Mark.payload) =
      a.sentences Mark.payload++later.flatMap (Answer.sentences Mark.payload) := by
    rw [← flatMap_append,heq,flatMap_cons]
  have hmap : ∀ q : List RawSentence,(a.sentences Mark.payload++q).map RawSentence.text =
      (a.map Payload.text).sentences Mark.word++q.map RawSentence.text := by
    intro q
    rw [map_append,a.texts,Answer.response]
  constructor
  · intro ha
    apply call_eq h hr hnew hq
    rw [hmap]
    exact takeResponse_done (by rw [Answer.map,ha,map_none]) _
  · intro ha
    obtain ⟨t,ht⟩ := ne_none_iff_exists'.mp ha
    -- the answer is cut before its last sentence
    have hcut : a.sentences Mark.payload++later.flatMap (Answer.sentences Mark.payload) =
        (a.re.map (Mark.re.payload :: ·)++[Mark.trap.payload::t])++
          (Mark.done.payload::a.done)::later.flatMap (Answer.sentences Mark.payload) := by
      rw [Answer.sentences,ht]
      simp
    have htake := takeResponse_trap (a := a.map Payload.text) (t := t.map Payload.text)
      (by rw [Answer.map,ht,map_some])
      ((later.flatMap (Answer.sentences Mark.payload)).map RawSentence.text)
    rw [← hmap,hcut] at htake
    obtain ⟨r',hcall,_⟩ := call_eq h hr hnew (hq.trans hcut) (htake.trans (by
      rw [map_cons,RawSentence.text,map_cons,Mark.payload_text]
      rfl))
    refine ⟨_,r',hcall,fun hresponse => ?_⟩
    have hlen := congrArg List.length hresponse
    simp [Answer.response,Answer.sentences,Answer.map,ht] at hlen

lemma callAll_iff (es : List Exchange) {as : List (Answer Payload)} {r : Reader}
    (hr : Holds r (as.flatMap (Answer.sentences Mark.payload))) :
    (∃ r',callAll es r =
      .ok (((as++es.flatMap Exchange.answers).take es.length).map Answer.response,r')) ↔
      (∀ e ∈ es,Sendable e.words) ∧
        ∀ a ∈ (as++es.flatMap Exchange.answers).take es.length,a.trap = none := by
  induction es generalizing as r with
  | nil => simp [callAll]
  | cons e es ih =>
    rw [forall_mem_cons,flatMap_cons,← append_assoc]
    by_cases hsend : Sendable e.words
    · -- the router has answered at least as many sentences as calls were made
      obtain ⟨a,later,hlater⟩ : ∃ a later,as++e.answers = a::later := by
        apply exists_cons_of_ne_nil
        apply append_ne_nil_of_right_ne_nil
        rw [← length_pos_iff,e.answered]
        exact Nat.succ_pos _
      obtain ⟨hwhole,hcut⟩ := call_answer hsend hr e.arrived hlater
      rw [hlater,cons_append,length_cons,take_succ_cons,map_cons,
        forall_mem_cons]
      by_cases ha : a.trap = none
      · obtain ⟨r₁,hcall,hr₁⟩ := hwhole ha
        rw [callAll_cons hcall,ih hr₁]
        simp only [hsend,ha,true_and]
      · obtain ⟨x,r₁,hcall,hne⟩ := hcut ha
        rw [callAll_cons hcall]
        simp only [hne,ha,false_and,and_false]
    · have hfails : ∀ ys,¬∃ r',callAll (e::es) r = .ok (ys,r') := by
        rintro ys ⟨r',hr'⟩
        rw [callAll,call_of_not_sendable hsend] at hr'
        cases hr'
      simp only [hfails,hsend,false_and]

/-- The calls return the answers in order just when all of them can be sent and none of the
answers they read has a `!trap`. -/
theorem calls_in_step_iff (es : List Exchange) :
    (∃ r,callAll es ⟨[],[]⟩ =
      .ok (((es.flatMap Exchange.answers).take es.length).map Answer.response,r)) ↔
      (∀ e ∈ es,Sendable e.words) ∧
        ∀ a ∈ (es.flatMap Exchange.answers).take es.length,a.trap = none :=
  @callAll_iff es [] ⟨[],[]⟩ rfl

def Exchange.single (word : Word) (h : word ≠ []) (a : Answer Payload) : Exchange where
  words := [word]
  answers := [a]
  chunks := [(a.sentences Mark.payload).flatMap RawSentence.bytes]
  answered := by simp [h]
  arrived := by simp

def refused : Exchange := .single ['/','x'] (by decide) ⟨[],some [],[]⟩

def accepted : Exchange := .single ['/','y'] (by decide) ⟨[[]],none,[]⟩

/-- The second call gets the end of the first answer. -/
theorem call_after_trap_out_of_step :
    (callAll [refused,accepted] ⟨[],[]⟩).map Prod.fst =
        .ok [[[Mark.trap.word]],[[Mark.done.word]]] ∧
      ([refused,accepted].flatMap Exchange.answers).map Answer.response =
        [[[Mark.trap.word],[Mark.done.word]],[[Mark.re.word],[Mark.done.word]]] ∧
      ¬∃ r,callAll [refused,accepted] ⟨[],[]⟩ =
        .ok ((([refused,accepted].flatMap Exchange.answers).take 2).map Answer.response,r) := by
  refine ⟨by decide +kernel,by decide +kernel,?_⟩
  rintro ⟨r,hr⟩
  have h : (callAll [refused,accepted] ⟨[],[]⟩).map Prod.fst =
      .ok ((([refused,accepted].flatMap Exchange.answers).take 2).map Answer.response) :=
    congrArg (Except.map Prod.fst) hr
  exact absurd h (by decide +kernel)

end Calls

end Defib.RouterOsCalls
