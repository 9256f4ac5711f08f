import Defib.ByteReader
import Defib.Endian
import Defib.PartialMap
import Defib.Utf8
import Defib.Words

/-!
# The RouterOS API on the wire

A word is a length in one of four classes and its UTF-8 bytes; a sentence is a list of
words and an empty word. `_read_sentence` takes a sentence from a stream that arrives in
chunks. Words of the router are bytes here, since they need not be valid text.
-/
namespace Defib.RouterOsWire
open List Words ByteReader Endian PartialMap

abbrev Word := Utf8.Text
abbrev Sentence := List Word

inductive ReadError where
  /-- `asyncio.IncompleteReadError` -/
  | incomplete
  | unsupportedLength (b : Byte)
  deriving DecidableEq, Repr

abbrev Read := Parser ReadError

/-- `none` is the error "Word too long". -/
def encodeLength (length : ℕ) : Option (List Byte) :=
  let byte := fun v => BitVec.ofNat 8 v
  if length < 0x80 then some [byte length]
  else if length < 0x4000 then
    let v := length ||| 0x8000
    some [byte (v/256),byte v]
  else if length < 0x200000 then
    let v := length ||| 0xC00000
    some [byte (v/65536),byte (v/256),byte v]
  else if length < 0x10000000 then
    let v := length ||| 0xE0000000
    some [byte (v/16777216),byte (v/65536),byte (v/256),byte v]
  else none

def readByte : Read Byte := do
  let bytes ← readExactly .incomplete 1
  return bytes.headD 0

def readLength : Read ℕ := do
  let b ← readByte
  if b.toNat < 0x80 then return b.toNat
  else if b.toNat < 0xC0 then
    let b2 ← readByte
    return ((b.toNat &&& 0x3F) <<< 8) ||| b2.toNat
  else if b.toNat < 0xE0 then
    let rest ← readExactly .incomplete 2
    return ((b.toNat &&& 0x1F) <<< 16) ||| ((rest.getD 0 0).toNat <<< 8) ||| (rest.getD 1 0).toNat
  else if b.toNat < 0xF0 then
    let rest ← readExactly .incomplete 3
    return ((b.toNat &&& 0x0F) <<< 24) ||| ((rest.getD 0 0).toNat <<< 16) |||
      ((rest.getD 1 0).toNat <<< 8) ||| (rest.getD 2 0).toNat
  else throw (.unsupportedLength b)

def readWord : Read Word := do
  let length ← readLength
  if length = 0 then return []
  let data ← readExactly .incomplete length
  return Utf8.decode data

/-- The loop over the words of a sentence. -/
def readWords : ℕ → Read Sentence
  | 0 => return []
  | n+1 => do
    let word ← readWord
    if word = [] then return []
    let words ← readWords n
    return word::words

/-- Every word takes a byte, so the bytes there are to come are enough fuel. -/
def readSentence : Read Sentence := do
  let r ← get
  readWords (r.bytes.length+1)

def encodePayload (payload : List Byte) : Option (List Byte) :=
  (encodeLength payload.length).map (·++payload)

def encodeWord (word : Word) : Option (List Byte) := encodePayload (Utf8.encode word)

/-- The bytes of a sentence with the given payloads. -/
def encodeSentence (payloads : List (List Byte)) : Option (List Byte) :=
  (payloads.mapM encodePayload).map fun bss => bss.flatten++[0]

/-- What `_send_sentence` writes; `none` when a word is too long. -/
def sendSentence (words : Sentence) : Option (List Byte) :=
  (words.mapM encodeWord).map fun bss => bss.flatten++[0]

lemma sendSentence_eq (words : Sentence) :
    sendSentence words = encodeSentence (words.map Utf8.encode) := by
  rw [encodeSentence,mapM_map]
  rfl

/-- What a sequence of calls of `_send_sentence` writes. -/
def sendSentences (ss : List Sentence) : Option (List Byte) :=
  (ss.mapM sendSentence).map List.flatten

/-- Successive calls of `_read_sentence`. -/
def readSentences : ℕ → Read (List Sentence)
  | 0 => return []
  | n+1 => do
    let s ← readSentence
    let ss ← readSentences n
    return s::ss

def maxWord : ℕ := 0x10000000

section Lengths

lemma byte_toNat (v : ℕ) : (BitVec.ofNat 8 v).toNat = v%256 := BitVec.toNat_ofNat v 8

lemma yields_readByte (b : Byte) : Yields readByte [b] b :=
  (yields_readExactly [b] rfl).map fun bytes => bytes.headD 0

lemma yields_readLength {length : ℕ} {bs : List Byte} (h : encodeLength length = some bs) :
    Yields readLength bs length := by
  rw [encodeLength] at h
  dsimp only at h
  split_ifs at h with h1 h2 h3 h4
  · obtain rfl := Option.some.inj h
    refine (yields_readByte _).bind [] ?_
    rw [byte_toNat,if_pos (by omega),Nat.mod_eq_of_lt (by omega)]
    exact Yields.pure length
  · obtain rfl := Option.some.inj h
    rw [or_eq_add 14 h2 (by decide)]
    refine (yields_readByte _).bind [_] ?_
    rw [byte_toNat,if_neg (by omega),if_pos (by omega)]
    refine (yields_readByte _).bind [] ?_
    rw [byte_toNat,Nat.and_two_pow_sub_one_eq_mod _ 6,shiftLeft_or _ (by omega)]
    have hvalue : (length+0x8000)/256%256%2^6*256+(length+0x8000)%256 = length := by omega
    rw [hvalue]
    exact Yields.pure length
  · obtain rfl := Option.some.inj h
    rw [or_eq_add 21 h3 (by decide)]
    refine (yields_readByte _).bind [_,_] ?_
    rw [byte_toNat,if_neg (by omega),if_neg (by omega),if_pos (by omega)]
    refine (yields_readExactly [_,_] rfl).bind [] ?_
    rw [Nat.and_two_pow_sub_one_eq_mod _ 5,getD_cons_zero,getD_cons_succ,
      getD_cons_zero,byte_toNat,byte_toNat,shiftLeft_or_shiftLeft _ 8 (by omega),
      shiftLeft_or _ (by omega)]
    have hvalue : ((length+0xC00000)/65536%256%2^5*256+(length+0xC00000)/256%256)*256+
        (length+0xC00000)%256 = length := by omega
    rw [hvalue]
    exact Yields.pure length
  · obtain rfl := Option.some.inj h
    rw [or_eq_add 28 h4 (by decide)]
    refine (yields_readByte _).bind [_,_,_] ?_
    rw [byte_toNat,if_neg (by omega),if_neg (by omega),if_neg (by omega),if_pos (by omega)]
    refine (yields_readExactly [_,_,_] rfl).bind [] ?_
    rw [Nat.and_two_pow_sub_one_eq_mod _ 4,getD_cons_zero,getD_cons_succ,
      getD_cons_zero,getD_cons_succ,getD_cons_succ,getD_cons_zero,byte_toNat,
      byte_toNat,byte_toNat,shiftLeft_or_shiftLeft _ 16 (by omega),
      shiftLeft_or_shiftLeft _ 8 (by omega),shiftLeft_or _ (by omega)]
    have hvalue : (((length+0xE0000000)/16777216%256%2^4*256+(length+0xE0000000)/65536%256)*256+
        (length+0xE0000000)/256%256)*256+(length+0xE0000000)%256 = length := by omega
    rw [hvalue]
    exact Yields.pure length

lemma encodeLength_isSome_iff (length : ℕ) :
    (encodeLength length).isSome = true ↔ length < maxWord := by
  rw [encodeLength,maxWord]
  dsimp only
  split_ifs with h1 h2 h3 h4
  · exact ⟨fun _ => by omega,fun _ => rfl⟩
  · exact ⟨fun _ => by omega,fun _ => rfl⟩
  · exact ⟨fun _ => by omega,fun _ => rfl⟩
  · exact ⟨fun _ => h4,fun _ => rfl⟩
  · exact ⟨nofun,fun h => absurd h h4⟩

end Lengths

section Sentences

lemma yields_readWord {payload bs : List Byte} (hne : payload ≠ [])
    (h : encodePayload payload = some bs) : Yields readWord bs (Utf8.decode payload) := by
  obtain ⟨length,hlength,rfl⟩ := Option.map_eq_some_iff.mp h
  refine (yields_readLength hlength).bind payload ?_
  rw [if_neg (mt length_eq_zero_iff.mp hne)]
  exact (yields_readExactly payload rfl).map Utf8.decode

lemma yields_emptyWord : Yields readWord [0] [] := by
  have hzero : encodeLength 0 = some [0] := rfl
  refine (yields_readLength hzero).bind [] ?_
  rw [if_pos rfl]
  exact Yields.pure []

lemma yields_readWords {payloads bss : List (List Byte)} (hne : ∀ p ∈ payloads,p ≠ [])
    (h : List.Forall₂ (fun p bs => encodePayload p = some bs) payloads bss) {n : ℕ}
    (hn : payloads.length < n) :
    Yields (readWords n) (bss.flatten++[0]) (payloads.map Utf8.decode) := by
  induction h generalizing n with
  | nil =>
    obtain ⟨n,rfl⟩ := Nat.exists_eq_succ_of_ne_zero (Nat.ne_of_gt hn)
    refine yields_emptyWord.bind [] ?_
    rw [if_pos rfl]
    exact Yields.pure []
  | @cons payload bs payloads bss hp _ ih =>
    obtain ⟨n,rfl⟩ := Nat.exists_eq_succ_of_ne_zero (Nat.ne_of_gt (Nat.zero_lt_of_lt hn))
    rw [forall_mem_cons] at hne
    rw [flatten_cons,append_assoc]
    refine (yields_readWord hne.1 hp).bind _ ?_
    rw [if_neg (Utf8.decode_ne_nil hne.1)]
    exact (ih hne.2 (Nat.lt_of_succ_lt_succ hn)).map (Utf8.decode payload :: ·)

lemma length_le_flatten {payloads bss : List (List Byte)}
    (h : List.Forall₂ (fun p bs => encodePayload p = some bs) payloads bss)
    (hne : ∀ p ∈ payloads,p ≠ []) : payloads.length ≤ bss.flatten.length := by
  induction h with
  | nil => exact le_rfl
  | @cons payload bs payloads bss hp _ ih =>
    rw [forall_mem_cons] at hne
    obtain ⟨length,_,rfl⟩ := Option.map_eq_some_iff.mp hp
    have hpos := length_pos_iff.mpr hne.1
    have hrest := ih hne.2
    simp only [length_cons,flatten_cons,length_append]
    omega

lemma yields_readSentence {payloads : List (List Byte)} {bs : List Byte}
    (hne : ∀ p ∈ payloads,p ≠ []) (h : encodeSentence payloads = some bs) :
    Yields readSentence bs (payloads.map Utf8.decode) := by
  obtain ⟨bss,hbss,rfl⟩ := Option.map_eq_some_iff.mp h
  have hwords := mapM_eq_some_iff.mp hbss
  intro r rest hr
  have hfuel : payloads.length < r.bytes.length+1 := by
    have hle := length_le_flatten hwords hne
    rw [hr,length_append,length_append]
    omega
  exact yields_readWords hne hwords hfuel r rest hr

lemma encodePayload_isSome_iff (payload : List Byte) :
    (encodePayload payload).isSome = true ↔ payload.length < maxWord := by
  rw [encodePayload,Option.isSome_map,encodeLength_isSome_iff]

lemma encodeSentence_isSome_iff (payloads : List (List Byte)) :
    (encodeSentence payloads).isSome = true ↔ ∀ p ∈ payloads,p.length < maxWord := by
  rw [encodeSentence,Option.isSome_map,mapM_isSome_iff]
  exact forall₂_congr fun p _ => encodePayload_isSome_iff p

lemma yields_readSentences {ss : List Sentence} {bss : List (List Byte)}
    (hne : ∀ s ∈ ss,∀ w ∈ s,w ≠ [])
    (h : List.Forall₂ (fun s bs => sendSentence s = some bs) ss bss) :
    Yields (readSentences ss.length) bss.flatten ss := by
  induction h with
  | nil => exact Yields.pure []
  | @cons s bs ss bss hs _ ih =>
    rw [forall_mem_cons] at hne
    have hpayloads : ∀ p ∈ s.map Utf8.encode,p ≠ [] := by
      intro p hp
      obtain ⟨w,hw,rfl⟩ := mem_map.mp hp
      exact Utf8.encode_ne_nil (hne.1 w hw)
    have hdecode : Utf8.decode ∘ Utf8.encode = id := funext Utf8.decode_encode
    have hfirst := yields_readSentence hpayloads (sendSentence_eq s ▸ hs)
    rw [map_map,hdecode,map_id] at hfirst
    exact hfirst.bind _ ((ih hne.2).map (s :: ·))

/-- A sentence of the API: non-empty, of non-empty words that can be sent. -/
def WellFormed (s : Sentence) : Prop :=
  s ≠ [] ∧ ∀ w ∈ s,w ≠ [] ∧ (Utf8.encode w).length < maxWord

/-- Sentences can be sent, and are read back however their bytes arrive. -/
theorem sentences_read_back (ss : List Sentence) (hss : ∀ s ∈ ss,WellFormed s) :
    ∃ bytes,sendSentences ss = some bytes ∧ ∀ chunks,chunks.flatten = bytes →
      ∃ r,readSentences ss.length ⟨[],chunks⟩ = .ok (ss,r) ∧ r.bytes = [] := by
  have hsend : (ss.mapM sendSentence).isSome = true := by
    rw [mapM_isSome_iff]
    intro s hs
    rw [sendSentence_eq,encodeSentence_isSome_iff]
    intro p hp
    obtain ⟨w,hw,rfl⟩ := mem_map.mp hp
    exact ((hss s hs).2 w hw).2
  obtain ⟨bss,hbss⟩ := Option.isSome_iff_exists.mp hsend
  refine ⟨bss.flatten,?_,fun chunks hchunks => ?_⟩
  · rw [sendSentences,hbss]
    rfl
  · apply yields_readSentences (fun s hs w hw => ((hss s hs).2 w hw).1) (mapM_eq_some_iff.mp hbss)
    rw [append_nil]
    exact hchunks

/-- A command with an attribute, and its answer. -/
def exchange : List Sentence := [[['/','x'],['=','a','=','1']],[['!','d','o','n','e']]]

theorem exchange_read_back : ∃ bytes,sendSentences exchange = some bytes ∧
    ∀ chunks,chunks.flatten = bytes →
      ∃ r,readSentences exchange.length ⟨[],chunks⟩ = .ok (exchange,r) ∧ r.bytes = [] :=
  sentences_read_back exchange (by unfold WellFormed; decide)

end Sentences

end Defib.RouterOsWire
