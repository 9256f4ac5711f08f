import Defib.BootFrames
import Mathlib.Data.List.Infix

/-!
# Replies in a stream of bytes

Two queries to the boot ROM look for the reply in what comes in, in pieces of any length: the
handshake of the V500 keeps only what can still be part of a reply, the board id query of the
CV6xx keeps everything and looks at the first start byte only. A read that finds nothing is an
empty piece.
-/
namespace Defib.ReplySearch
open List Words BootFrames

section Streams
variable {xs ys : List Byte} {i k : ℕ}

def StartAt (xs : List Byte) (i : ℕ) : Prop := xs[i]? = some 0xBD ∧ xs[i+1]? = some 0x00

def FirstStart (xs : List Byte) (i : ℕ) : Prop := StartAt xs i ∧ ∀ j < i,¬ StartAt xs j

lemma StartAt.lt_length (h : StartAt xs i) : i+1 < xs.length :=
  (List.getElem?_eq_some_iff.mp h.2).1

lemma startAt_append (h : i+1 < xs.length) (ys : List Byte) :
    StartAt (xs++ys) i ↔ StartAt xs i := by
  rw [StartAt,StartAt,getElem?_append_left (by omega),getElem?_append_left h]

lemma startAt_drop (xs : List Byte) (k i : ℕ) :
    StartAt (xs.drop k) i ↔ StartAt xs (k+i) := by
  rw [StartAt,StartAt,getElem?_drop,getElem?_drop,Nat.add_assoc]

lemma FirstStart.append (h : FirstStart xs i) (ys : List Byte) : FirstStart (xs++ys) i := by
  have hlen := h.1.lt_length
  refine ⟨(startAt_append hlen ys).mpr h.1,fun j hj hstart => ?_⟩
  exact h.2 j hj ((startAt_append (by omega) ys).mp hstart)

lemma FirstStart.unique {j : ℕ} (hi : FirstStart xs i) (hj : FirstStart xs j) : i = j := by
  rcases Nat.lt_trichotomy i j with hlt | heq | hlt
  · exact absurd hi.1 (hj.2 i hlt)
  · exact heq
  · exact absurd hj.1 (hi.2 j hlt)

lemma readBe32_append (h : i+4 ≤ xs.length) (ys : List Byte) :
    readBe32 (xs++ys) i = readBe32 xs i := by
  simp only [readBe32]
  rw [getD_append _ _ _ _ (by omega),getD_append _ _ _ _ (by omega),
    getD_append _ _ _ _ (by omega),getD_append _ _ _ _ (by omega)]

lemma readBe32_drop (xs : List Byte) (k i : ℕ) :
    readBe32 (xs.drop k) i = readBe32 xs (k+i) := by
  simp only [readBe32,getD_eq_getElem?_getD,getElem?_drop,Nat.add_assoc]

end Streams

namespace V500

/-- `buffer.find(b"\xbd\x00")` -/
def find : List Byte → Option ℕ
  | a::b::rest => if a = 0xBD ∧ b = 0x00 then some 0 else (find (b::rest)).map (·+1)
  | _ => none

/-- The loop of `handshake`: the chip id, and the reads that are still to come when it is
reported; `none` while it goes on. -/
def handshakeLoop (buffer : List Byte) : List (List Byte) → Option (ℕ × List (List Byte))
  | [] => none
  | chunk::reads =>
    let buffer := buffer++chunk
    match find buffer with
    | some idx =>
      if 14 ≤ buffer.length-idx then some (readBe32 buffer (idx+8),reads)
      else handshakeLoop (buffer.drop idx) reads
    | none => handshakeLoop (buffer.drop (buffer.length-1)) reads

def handshake (reads : List (List Byte)) : Option (ℕ × List (List Byte)) := handshakeLoop [] reads

section
variable {xs : List Byte} {i k : ℕ}

lemma find_spec (xs : List Byte) :
    (∀ i,find xs = some i → FirstStart xs i) ∧ (find xs = none → ∀ i,¬ StartAt xs i) := by
  induction xs with
  | nil =>
    refine ⟨fun i h => (by cases h),fun _ i h => ?_⟩
    exact absurd h.lt_length (Nat.not_lt_zero _)
  | cons a xs ih =>
    cases xs with
    | nil =>
      refine ⟨fun i h => (by cases h),fun _ i h => ?_⟩
      exact absurd h.lt_length (by simp)
    | cons b rest =>
      have hzero : StartAt (a::b::rest) 0 ↔ a = 0xBD ∧ b = 0x00 := by
        simp [StartAt]
      have hsucc : ∀ i,StartAt (a::b::rest) (i+1) ↔ StartAt (b::rest) i := fun i => Iff.rfl
      rw [find]
      split
      next hstart =>
        refine ⟨fun i h => ?_,fun h => (by cases h)⟩
        cases h
        exact ⟨hzero.mpr hstart,fun j hj => absurd hj (Nat.not_lt_zero j)⟩
      next hstart =>
        constructor
        · intro i h
          obtain ⟨j,hj,rfl⟩ := Option.map_eq_some_iff.mp h
          obtain ⟨hat,hbefore⟩ := ih.1 j hj
          refine ⟨hat,fun m hm => ?_⟩
          cases m with
          | zero => exact fun h => hstart (hzero.mp h)
          | succ m => exact hbefore m (by omega)
        · intro h i
          rw [Option.map_eq_none_iff] at h
          cases i with
          | zero => exact fun h => hstart (hzero.mp h)
          | succ i => exact ih.2 h i

/-- A buffer that was trimmed: what is gone is no part of the first reply. -/
structure Trimmed (seen buffer : List Byte) (k : ℕ) : Prop where
  drop : buffer = seen.drop k
  inside : k = 0 ∨ k < seen.length
  before : ∀ j < k,¬ StartAt seen j

variable {seen buffer : List Byte}

lemma Trimmed.append (h : Trimmed seen buffer k) (chunk : List Byte) :
    Trimmed (seen++chunk) (buffer++chunk) k := by
  have hinside := h.inside
  constructor
  · rw [h.drop,drop_append_of_le_length (by omega)]
  · rw [length_append]
    omega
  · intro j hj
    rw [startAt_append (by omega)]
    exact h.before j hj

lemma Trimmed.firstStart (h : Trimmed seen buffer k)
    (hi : FirstStart buffer i) : FirstStart seen (k+i) := by
  have hbuffer := h.drop
  subst hbuffer
  refine ⟨(startAt_drop seen k i).mp hi.1,fun j hj => ?_⟩
  rcases Nat.lt_or_ge j k with hlt | hge
  · exact h.before j hlt
  · obtain ⟨m,rfl⟩ := Nat.exists_eq_add_of_le hge
    rw [← startAt_drop]
    exact hi.2 m (by omega)

lemma Trimmed.found (h : Trimmed seen buffer k)
    (hi : FirstStart buffer i) : Trimmed seen (buffer.drop i) (k+i) := by
  obtain ⟨hat,hbefore⟩ := h.firstStart hi
  have hlen := hat.lt_length
  exact ⟨by rw [h.drop,drop_drop],.inr (by omega),hbefore⟩

lemma Trimmed.missed (h : Trimmed seen buffer k) (hnone : ∀ i,¬ StartAt buffer i) :
    Trimmed seen (buffer.drop (buffer.length-1)) (k+(buffer.length-1)) := by
  have hinside := h.inside
  have hlen : buffer.length = seen.length-k := by rw [h.drop,length_drop]
  refine ⟨by rw [h.drop,drop_drop],by omega,fun j hj => ?_⟩
  rcases Nat.lt_or_ge j k with hlt | hge
  · exact h.before j hlt
  · obtain ⟨m,rfl⟩ := Nat.exists_eq_add_of_le hge
    rw [← startAt_drop,← h.drop]
    exact hnone m

/-- What the loop answers to the reads from here on, for what was seen before: the chip id
of the first reply in the whole stream with the read that completes it. -/
structure Answers (seen : List Byte) (reads : List (List Byte))
    (r : Option (ℕ × List (List Byte))) : Prop where
  reported : ∀ i,FirstStart (seen++reads.flatten) i → i+14 ≤ (seen++reads.flatten).length →
    ∃ done left,reads = done++left ∧ r = some (readBe32 (seen++reads.flatten) (i+8),left) ∧
      i+14 ≤ (seen++done.flatten).length ∧ (seen++done.dropLast.flatten).length < i+14
  waiting : (∀ i,FirstStart (seen++reads.flatten) i → (seen++reads.flatten).length < i+14) →
    r = none

/-- Nothing that was seen holds a whole reply. -/
def Open (seen : List Byte) : Prop := ∀ i,FirstStart seen i → seen.length < i+14

lemma Answers.nil {seen : List Byte} (h : Open seen) : Answers seen [] none := by
  constructor
  · intro i hi hlen
    rw [flatten_nil,append_nil] at hi hlen
    exact absurd (h i hi) (not_lt.mpr hlen)
  · exact fun _ => rfl

lemma append_flatten_cons (seen chunk : List Byte) (reads : List (List Byte)) :
    seen++(chunk::reads).flatten = seen++chunk++reads.flatten := by
  rw [flatten_cons,append_assoc]

lemma Answers.cons {seen chunk : List Byte} {reads : List (List Byte)}
    {r : Option (ℕ × List (List Byte))} (hopen : Open (seen++chunk))
    (h : Answers (seen++chunk) reads r) : Answers seen (chunk::reads) r := by
  constructor
  · rw [append_flatten_cons]
    intro i hi hlen
    obtain ⟨done,left,hreads,hr,hdone,hlast⟩ := h.reported i hi hlen
    refine ⟨chunk::done,left,by rw [hreads,cons_append],hr,?_,?_⟩
    · rwa [append_flatten_cons]
    cases done with
    | nil =>
      -- the reply would have been in what was seen
      rw [flatten_nil,append_nil] at hdone
      have hstart := hi.1.lt_length
      have hseen : FirstStart (seen++chunk) i := by
        refine ⟨(startAt_append (by omega) _).mp hi.1,fun j hj hat => ?_⟩
        exact hi.2 j hj ((startAt_append (by omega) _).mpr hat)
      exact absurd (hopen i hseen) (not_lt.mpr hdone)
    | cons c cs =>
      rw [dropLast_cons_cons,append_flatten_cons]
      exact hlast
  · rw [append_flatten_cons]
    exact h.waiting

lemma Answers.complete {seen chunk : List Byte} {reads : List (List Byte)} (hopen : Open seen)
    (hi : FirstStart (seen++chunk) i) (hlen : i+14 ≤ (seen++chunk).length) :
    Answers seen (chunk::reads) (some (readBe32 (seen++chunk) (i+8),reads)) := by
  have hwhole := hi.append reads.flatten
  have hid : readBe32 (seen++chunk++reads.flatten) (i+8) = readBe32 (seen++chunk) (i+8) :=
    readBe32_append (by omega) _
  have hshort : seen.length < i+14 := by
    rcases Nat.lt_or_ge (i+1) seen.length with hlt | hge
    · refine hopen i ⟨(startAt_append hlt chunk).mp hi.1,fun j hj hat => ?_⟩
      exact hi.2 j hj ((startAt_append (by omega) chunk).mpr hat)
    · omega
  constructor
  · rw [append_flatten_cons]
    intro j hj _
    rw [hj.unique hwhole,hid]
    refine ⟨[chunk],reads,rfl,rfl,?_,?_⟩
    · rwa [flatten_singleton]
    · rwa [dropLast_singleton,flatten_nil,append_nil]
  · rw [append_flatten_cons]
    intro hnone
    have hlt := hnone i hwhole
    rw [length_append] at hlt
    omega

lemma handshakeLoop_answers (htrim : Trimmed seen buffer k)
    (hopen : Open seen) (reads : List (List Byte)) :
    Answers seen reads (handshakeLoop buffer reads) := by
  induction reads generalizing seen buffer k with
  | nil => exact Answers.nil hopen
  | cons chunk reads ih =>
    have hkept := htrim.append chunk
    have hlen : (buffer++chunk).length = (seen++chunk).length-k := by
      rw [hkept.drop,length_drop]
    rw [handshakeLoop]
    split
    next idx hfind =>
      have hfirst := (find_spec _).1 idx hfind
      have hseen := hkept.firstStart hfirst
      have hstart := hseen.1.lt_length
      split
      next hwhole =>
        have hid : readBe32 (buffer++chunk) (idx+8) = readBe32 (seen++chunk) (k+idx+8) := by
          rw [hkept.drop,readBe32_drop,Nat.add_assoc]
        rw [hid]
        exact Answers.complete hopen hseen (by omega)
      next hshort =>
        have hopen' : Open (seen++chunk) := by
          intro j hj
          rw [hj.unique hseen]
          omega
        exact Answers.cons hopen' (ih (hkept.found hfirst) hopen')
    next hfind =>
      have hnone := (find_spec _).2 hfind
      have hmissed := hkept.missed hnone
      have hopen' : Open (seen++chunk) := by
        intro j hj
        rcases Nat.lt_or_ge j k with hlt | hge
        · exact absurd hj.1 (hkept.before j hlt)
        · obtain ⟨m,rfl⟩ := Nat.exists_eq_add_of_le hge
          have hat := hj.1
          rw [← startAt_drop,← hkept.drop] at hat
          exact absurd hat (hnone m)
      exact Answers.cons hopen' (ih hmissed hopen')

end

/-- However the stream is split into reads, the handshake reports the chip id of the first
reply with the read that brings its fourteenth byte, and goes on for as long as there is none. -/
theorem handshake_chunking_independent (reads : List (List Byte)) :
    (∀ i,FirstStart reads.flatten i → i+14 ≤ reads.flatten.length →
      ∃ done left,reads = done++left ∧
        handshake reads = some (readBe32 reads.flatten (i+8),left) ∧
        i+14 ≤ done.flatten.length ∧ done.dropLast.flatten.length < i+14) ∧
    ((∀ i,FirstStart reads.flatten i → reads.flatten.length < i+14) →
      handshake reads = none) := by
  have htrim : Trimmed [] [] 0 := ⟨rfl,.inl rfl,fun j hj => absurd hj (Nat.not_lt_zero j)⟩
  have hopen : Open [] := fun i hi => absurd hi.1.lt_length (Nat.not_lt_zero _)
  have h := handshakeLoop_answers htrim hopen reads
  exact ⟨h.reported,h.waiting⟩

end V500

namespace CV6xx

/-- How `_get_board_id` ends: what it returns, the ids it sets on the protocol object, the
bytes the transport has taken back and the reads that are still to come. -/
structure Ended where
  returned : ℕ
  cpuId : Option Byte
  boardId : Option ℕ
  pushedBack : List Byte
  left : List (List Byte)
  deriving DecidableEq, Repr

/-- The reply at the first start byte, if it is there up to its end mark, and what follows. -/
def replyIn (buf : List Byte) : Option (List Byte × List Byte) :=
  if 0xCE ∈ buf then
    let idx := buf.idxOf 0xCE
    if idx+11 ≤ buf.length ∧ buf.getD (idx+10) 0 = 0xAA then
      some ((buf.drop idx).take 11,buf.drop (idx+11))
    else none
  else none

section
variable (takesBack : Bool)

/-- The loop of `_get_board_id`; at the end of the list the time is up. A transport without
`unread` raises `NotImplementedError`, which is passed over. -/
def getBoardIdLoop (buf : List Byte) : List (List Byte) → Ended
  | [] => ⟨0,none,none,[],[]⟩
  | chunk::reads =>
    match replyIn (buf++chunk) with
    | some (resp,remaining) =>
      ⟨readBe32 resp 4,some (resp.getD 1 0),some (readBe32 resp 4),
        if remaining ≠ [] ∧ takesBack then remaining else [],reads⟩
    | none => getBoardIdLoop (buf++chunk) reads

def getBoardId (reads : List (List Byte)) : Ended := getBoardIdLoop takesBack [] reads

end

/-- A reply of eleven bytes between its marks. -/
def IsReply (resp : List Byte) : Prop :=
  resp.length = 11 ∧ resp[0]? = some 0xCE ∧ resp[10]? = some 0xAA

instance (resp : List Byte) : Decidable (IsReply resp) :=
  inferInstanceAs (Decidable (_ ∧ _ ∧ _))

/-- The board id of the reply was returned, and what can be read next is what followed it. -/
def Ended.Correct (e : Ended) (reply rest : List Byte) : Prop :=
  e.returned = readBe32 reply 4 ∧ e.pushedBack++e.left.flatten = rest

instance (e : Ended) (reply rest : List Byte) : Decidable (e.Correct reply rest) :=
  inferInstanceAs (Decidable (_ ∧ _))

/-- How much has been read as soon as there are `n` bytes. -/
def bytesRead (n : ℕ) : List (List Byte) → ℕ
  | [] => 0
  | chunk::reads =>
    if n ≤ chunk.length then chunk.length else chunk.length+bytesRead (n-chunk.length) reads

/-- With a start byte in the noise the query is right by chance only: it times out, the board id
is 0 and nothing follows; or it finds an end mark too early, with the same board id before it,
and what it then loses ends with the reply. -/
def Accident (takesBack : Bool) (noise reply rest : List Byte) (reads : List (List Byte)) : Prop :=
  let i := noise.idxOf 0xCE
  0xCE ∈ noise ∧ if (noise++reply).getD (i+10) 0 = 0xAA then
    takesBack = false ∧ readBe32 (((noise++reply).drop i).take 11) 4 = readBe32 reply 4 ∧
      bytesRead (i+11) reads = (noise++reply).length
  else readBe32 reply 4 = 0 ∧ rest = []

section
variable (takesBack : Bool) {buf pre post : List Byte} {reads : List (List Byte)}

lemma bytesRead_le (n : ℕ) (reads : List (List Byte)) :
    bytesRead n reads ≤ reads.flatten.length := by
  induction reads generalizing n with
  | nil => exact Nat.le_refl 0
  | cons chunk reads ih =>
    rw [bytesRead,flatten_cons,length_append]
    split_ifs
    · omega
    · exact Nat.add_le_add_left (ih _) _

lemma drop_eq_iff {a b : List Byte} {n : ℕ} (h : n ≤ (a++b).length) :
    (a++b).drop n = b ↔ n = a.length := by
  constructor
  · intro heq
    have hcount := congrArg List.length heq
    rw [length_drop,length_append] at hcount
    rw [length_append] at h
    omega
  · rintro rfl
    exact drop_left

lemma replyIn_front (hpre : 0xCE ∉ pre) (hbuf : buf <+: pre++0xCE::post) :
    replyIn buf = if pre.length+11 ≤ buf.length ∧ post.getD 9 0 = 0xAA then
      some (0xCE::post.take 10,buf.drop (pre.length+11)) else none := by
  rcases Nat.lt_or_ge pre.length buf.length with hlt | hge
  · obtain ⟨t,rfl⟩ := prefix_of_prefix_length_le (prefix_append pre _) hbuf hlt.le
    rw [prefix_append_right_inj] at hbuf
    cases t with
    | nil =>
      rw [append_nil] at hlt
      exact absurd hlt (lt_irrefl _)
    | cons b t =>
      obtain ⟨rfl,⟨u,rfl⟩⟩ := cons_prefix_cons.mp hbuf
      have hidx : (pre++0xCE::t).idxOf 0xCE = pre.length := by
        rw [idxOf_append_of_notMem hpre,idxOf_cons_eq _ rfl,Nat.add_zero]
      have hmark : (pre++0xCE::t).getD (pre.length+10) 0 = t.getD 9 0 := by
        rw [getD_append_right _ _ _ _ (by omega),Nat.add_sub_cancel_left,
          getD_cons_succ]
      rw [replyIn,if_pos (by simp)]
      dsimp only
      rw [hidx,hmark,drop_left,take_succ_cons]
      by_cases hwhole : pre.length+11 ≤ (pre++0xCE::t).length
      · have ht : 10 ≤ t.length := by
          rw [length_append,length_cons] at hwhole
          omega
        rw [getD_append _ _ _ _ (by omega),take_append_of_le_length ht]
      · rw [if_neg (fun h => hwhole h.1),if_neg (fun h => hwhole h.1)]
  · have hin := prefix_of_prefix_length_le hbuf (prefix_append pre _) hge
    rw [replyIn,if_neg (fun h => hpre (hin.subset h)),if_neg (fun h => by omega)]

lemma getBoardIdLoop_found (hpre : 0xCE ∉ pre) (hmark : post.getD 9 0 = 0xAA)
    (hlen : 10 ≤ post.length) (hstream : buf++reads.flatten = pre++0xCE::post)
    (hbuf : buf.length < pre.length+11) :
    let e := getBoardIdLoop takesBack buf reads
    let n := buf.length+bytesRead (pre.length+11-buf.length) reads
    e.returned = readBe32 (0xCE::post.take 10) 4 ∧ e.pushedBack++e.left.flatten =
      (pre++0xCE::post).drop (if takesBack then pre.length+11 else n) := by
  induction reads generalizing buf with
  | nil =>
    rw [flatten_nil,append_nil] at hstream
    rw [hstream,length_append,length_cons] at hbuf
    omega
  | cons chunk reads ih =>
    rw [flatten_cons,← append_assoc] at hstream
    have hprefix : buf++chunk <+: pre++0xCE::post := ⟨_,hstream⟩
    have hcount : (buf++chunk).length = buf.length+chunk.length := length_append
    dsimp only
    rw [getBoardIdLoop,replyIn_front hpre hprefix,bytesRead]
    by_cases hwhole : pre.length+11 ≤ (buf++chunk).length
    · have hlast : pre.length+11-buf.length ≤ chunk.length := by omega
      rw [if_pos ⟨hwhole,hmark⟩,if_pos hlast,← hcount,← hstream]
      refine ⟨rfl,?_⟩
      cases takesBack with
      | true =>
        simp only [and_true,ite_not,if_true]
        rw [drop_append_of_le_length hwhole]
        split_ifs with hnil
        · rw [hnil]
        · rfl
      | false => simp
    · have hmore := ih hstream (not_le.mp hwhole)
      rw [hcount,← Nat.sub_sub,Nat.add_assoc] at hmore
      have hnext : ¬pre.length+11-buf.length ≤ chunk.length := by omega
      rw [if_neg (fun h => hwhole h.1),if_neg hnext]
      exact hmore

lemma getBoardIdLoop_missed (hpre : 0xCE ∉ pre)
    (hmark : ¬ (10 ≤ post.length ∧ post.getD 9 0 = 0xAA))
    (hstream : buf++reads.flatten = pre++0xCE::post) :
    getBoardIdLoop takesBack buf reads = ⟨0,none,none,[],[]⟩ := by
  induction reads generalizing buf with
  | nil => rfl
  | cons chunk reads ih =>
    rw [flatten_cons,← append_assoc] at hstream
    have hprefix : buf++chunk <+: pre++0xCE::post := ⟨_,hstream⟩
    have hlen : (buf++chunk).length ≤ pre.length+(post.length+1) := by
      rw [← length_cons,← length_append]
      exact hprefix.length_le
    rw [getBoardIdLoop,replyIn_front hpre hprefix,
      if_neg (fun h => hmark ⟨by omega,h.2⟩)]
    exact ih hstream

/-- The query judges the stream by its first start byte. -/
lemma correct_front (hpre : 0xCE ∉ pre) (hlen : 10 ≤ post.length)
    (hstream : reads.flatten = pre++0xCE::post) (reply rest : List Byte) :
    (getBoardId takesBack reads).Correct reply rest ↔
      if post.getD 9 0 = 0xAA then
        readBe32 (0xCE::post.take 10) 4 = readBe32 reply 4 ∧ (pre++0xCE::post).drop
          (if takesBack then pre.length+11 else bytesRead (pre.length+11) reads) = rest
      else readBe32 reply 4 = 0 ∧ rest = [] := by
  have hall : []++reads.flatten = pre++0xCE::post := hstream
  by_cases hmark : post.getD 9 0 = 0xAA
  · have hfound := getBoardIdLoop_found takesBack hpre hmark hlen hall (by simp)
    simp only [length_nil,Nat.sub_zero,Nat.zero_add] at hfound
    rw [if_pos hmark,Ended.Correct,getBoardId,hfound.1,hfound.2]
  · have hmissed := getBoardIdLoop_missed takesBack hpre (fun h => hmark h.2) hall
    rw [if_neg hmark,Ended.Correct,getBoardId,hmissed]
    exact and_congr eq_comm eq_comm

end

lemma IsReply.cons {reply : List Byte} (h : IsReply reply) :
    ∃ tail,reply = 0xCE::tail ∧ tail.length = 10 ∧ tail.getD 9 0 = 0xAA := by
  obtain ⟨hlen,hfirst,hlast⟩ := h
  cases reply with
  | nil => cases hfirst
  | cons b tail =>
    cases Option.some.inj hfirst
    refine ⟨tail,rfl,Nat.succ.inj hlen,?_⟩
    rw [getElem?_cons_succ] at hlast
    rw [getD_eq_getElem?_getD,hlast,Option.getD_some]

section
variable (takesBack : Bool) {noise tail rest : List Byte} {reads : List (List Byte)}
  (hlen : tail.length = 10) (hstream : reads.flatten = noise++(0xCE::tail++rest))
include hlen hstream

lemma drop_reads_iff {m : ℕ} (hm : m ≤ noise.length+11) :
    (noise++0xCE::tail++rest).drop (if takesBack then m else bytesRead m reads) = rest ↔
      (if takesBack then m else bytesRead m reads) = (noise++0xCE::tail).length := by
  refine drop_eq_iff ?_
  have hread := bytesRead_le m reads
  rw [hstream,← append_assoc] at hread
  split_ifs
  · simp only [length_append,length_cons]
    omega
  · exact hread

lemma correct_of_clean (hmark : tail.getD 9 0 = 0xAA) (hnoise : 0xCE ∉ noise) :
    (getBoardId takesBack reads).Correct (0xCE::tail) rest ↔
      takesBack = true ∨ bytesRead (noise.length+11) reads = (noise++0xCE::tail).length := by
  have hcount : (noise++0xCE::tail).length = noise.length+11 := by
    rw [length_append,length_cons,hlen]
  have hnine : (tail++rest).getD 9 0 = 0xAA := by
    rw [getD_append _ _ _ _ (by omega),hmark]
  have hall : reads.flatten = noise++0xCE::(tail++rest) := hstream
  rw [correct_front takesBack hnoise (by rw [length_append]; omega) hall,if_pos hnine,
    ← hlen,take_left,and_iff_right rfl,← cons_append,← append_assoc,
    drop_reads_iff takesBack hlen hstream le_rfl]
  cases takesBack with
  | true => exact iff_of_true hcount.symm (.inl rfl)
  | false => simp

lemma correct_of_start (hnoise : 0xCE ∈ noise) :
    (getBoardId takesBack reads).Correct (0xCE::tail) rest ↔
      Accident takesBack noise (0xCE::tail) rest reads := by
  obtain ⟨pre,more,rfl,hpre⟩ := eq_append_cons_of_mem hnoise
  have hidx : (pre++0xCE::more).idxOf 0xCE = pre.length := by
    rw [idxOf_append_of_notMem hpre,idxOf_cons_eq _ rfl,Nat.add_zero]
  have hpost : pre++0xCE::(more++0xCE::tail++rest) = pre++0xCE::more++0xCE::tail++rest := by
    simp only [append_assoc,cons_append]
  have hten : (pre++0xCE::more++0xCE::tail).getD (pre.length+10) 0 =
      (more++0xCE::tail).getD 9 0 := by
    rw [append_assoc,getD_append_right _ _ _ _ (by omega),Nat.add_sub_cancel_left,
      cons_append,getD_cons_succ]
  have hlong : 10 < (more++0xCE::tail).length := by
    rw [length_append,length_cons]
    omega
  have hresp : ((pre++0xCE::more++0xCE::tail).drop pre.length).take 11 =
      0xCE::(more++0xCE::tail++rest).take 10 := by
    rw [append_assoc,drop_left,cons_append,take_succ_cons,take_append_of_le_length hlong.le]
  have hall : reads.flatten = pre++0xCE::(more++0xCE::tail++rest) := by
    rw [hpost,hstream,← append_assoc]
  rw [correct_front takesBack hpre (by rw [length_append]; omega) hall,
    getD_append _ _ _ _ (by omega),hpost,
    drop_reads_iff takesBack hlen hstream (by rw [length_append]; omega)]
  have hearly : (if takesBack then pre.length+11 else bytesRead (pre.length+11) reads) =
      (pre++0xCE::more++0xCE::tail).length ↔ takesBack = false ∧
        bytesRead (pre.length+11) reads = (pre++0xCE::more++0xCE::tail).length := by
    have hin : pre.length+11 ≠ (pre++0xCE::more++0xCE::tail).length := by
      simp only [length_append,length_cons] at hlong ⊢
      omega
    cases takesBack with
    | true => exact iff_of_false hin fun h => Bool.noConfusion h.1
    | false => exact (and_iff_right rfl).symm
  rw [hearly,and_left_comm]
  simp only [Accident,hidx,hten,hresp,hnoise,true_and]

end

/-- However the stream is split into reads, the board id of the reply is returned and what
followed the reply can be read next, just when no start byte comes before the reply, and the
transport takes bytes back or the last read of the reply ends with it. -/
theorem board_id_found_iff (takesBack : Bool) {noise reply rest : List Byte}
    {reads : List (List Byte)} (hreply : IsReply reply)
    (hstream : reads.flatten = noise++(reply++rest)) :
    (getBoardId takesBack reads).Correct reply rest ↔
      0xCE ∉ noise ∧
        (takesBack = true ∨ bytesRead (noise.length+11) reads = (noise++reply).length) ∨
      Accident takesBack noise reply rest reads := by
  obtain ⟨tail,rfl,hlen,hmark⟩ := hreply.cons
  by_cases hnoise : 0xCE ∈ noise
  · rw [correct_of_start takesBack hlen hstream hnoise]
    exact (or_iff_right fun h => h.1 hnoise).symm
  · rw [correct_of_clean takesBack hlen hstream hmark hnoise,and_iff_right hnoise]
    exact (or_iff_left fun h => hnoise h.1).symm

/-- The reply of a board with the id 0x1234. -/
def sampleReply : List Byte := [0xCE,0x01,0,0,0,0,0x12,0x34,0,0,0xAA]

/-- Noise without a start byte, a reply in two reads and two bytes after it, in the same read or,
on a transport without `unread`, in the next one. -/
theorem sampleReply_found :
    (getBoardId true [[0x0D,0x0A]++sampleReply.take 4,sampleReply.drop 4++[0x20,0x20]]).Correct
      sampleReply [0x20,0x20] ∧
    (getBoardId false [[0x0D,0x0A]++sampleReply.take 4,sampleReply.drop 4,[0x20,0x20]]).Correct
      sampleReply [0x20,0x20] := by
  have hreply : IsReply sampleReply := by decide
  constructor
  · exact (board_id_found_iff true hreply
      (show _ = [0x0D,0x0A]++(sampleReply++[0x20,0x20]) by decide)).mpr (.inl (by decide))
  · exact (board_id_found_iff false hreply
      (show _ = [0x0D,0x0A]++(sampleReply++[0x20,0x20]) by decide)).mpr (.inl (by decide))

/-- One start byte before the reply, and the query returns 0. -/
theorem start_byte_hides_reply : IsReply sampleReply ∧
    (∀ part,part <:+: [0xCE] → ¬ IsReply part) ∧
    (getBoardId true [0xCE::sampleReply]).returned = 0 ∧
    ¬ (getBoardId true [0xCE::sampleReply]).Correct sampleReply [] := by
  refine ⟨by decide,?_,by decide,by decide⟩
  intro part hpart hreply
  have hlen := hpart.length_le
  rw [hreply.1] at hlen
  exact absurd hlen (by decide)

end CV6xx

end Defib.ReplySearch
