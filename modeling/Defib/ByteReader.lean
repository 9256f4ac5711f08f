import Mathlib.Data.BitVec
import Mathlib.Data.List.Basic
import Mathlib.Tactic.Common

/-!
# Reading from a stream that comes in chunks

A reader has a buffer and the chunks that are still to come. `readExactly` waits for
chunks until it has enough bytes; at the end of the stream it fails. `Yields p bs a` says
that the parser `p` takes just the bytes `bs` and returns `a`, whatever comes after them
and however all of it is cut into chunks. Parsers are put together by `Yields.bind`.
-/
namespace Defib.ByteReader
open List

structure Reader where
  buffer : List (BitVec 8)
  chunks : List (List (BitVec 8))

def Reader.bytes (r : Reader) : List (BitVec 8) := r.buffer++r.chunks.flatten

abbrev Parser (E A : Type) := StateT Reader (Except E) A

section
variable {E A B : Type}

/-- Wait until `n` bytes have come; `short` is raised when the stream ends before. -/
def waitFor (short : E) (n : ℕ) (buffer : List (BitVec 8)) :
    List (List (BitVec 8)) → Except E (List (BitVec 8) × Reader)
  | [] => if n ≤ buffer.length then .ok (buffer.take n,⟨buffer.drop n,[]⟩) else .error short
  | c::cs =>
    if n ≤ buffer.length then .ok (buffer.take n,⟨buffer.drop n,c::cs⟩)
    else waitFor short n (buffer++c) cs

def readExactly (short : E) (n : ℕ) : Parser E (List (BitVec 8)) :=
  fun r => waitFor short n r.buffer r.chunks

def Yields (p : Parser E A) (bs : List (BitVec 8)) (a : A) : Prop :=
  ∀ r rest,Reader.bytes r = bs++rest → ∃ r',p r = .ok (a,r') ∧ r'.bytes = rest

lemma waitFor_eq (short : E) (buffer : List (BitVec 8)) (chunks : List (List (BitVec 8)))
    {bs rest : List (BitVec 8)} (h : buffer++chunks.flatten = bs++rest) :
    ∃ r',waitFor short bs.length buffer chunks = .ok (bs,r') ∧ r'.bytes = rest := by
  have henough : ∀ (buffer tail : List (BitVec 8)),buffer++tail = bs++rest →
      bs.length ≤ buffer.length → buffer.take bs.length = bs ∧
        buffer.drop bs.length++tail = rest := by
    intro buffer tail heq hle
    have htake := congrArg (List.take bs.length) heq
    have hdrop := congrArg (List.drop bs.length) heq
    rw [take_append_of_le_length hle,take_left] at htake
    rw [drop_append_of_le_length hle,drop_left] at hdrop
    exact ⟨htake,hdrop⟩
  induction chunks generalizing buffer with
  | nil =>
    have hle : bs.length ≤ buffer.length := by
      have hlen := congrArg List.length h
      simp only [flatten_nil,append_nil,length_append] at hlen
      omega
    obtain ⟨htake,hdrop⟩ := henough buffer [] (by simpa using h) hle
    refine ⟨⟨buffer.drop bs.length,[]⟩,?_,hdrop⟩
    rw [waitFor,if_pos hle,htake]
  | cons c cs ih =>
    rw [waitFor]
    by_cases hle : bs.length ≤ buffer.length
    · obtain ⟨htake,hdrop⟩ := henough buffer _ h hle
      refine ⟨⟨buffer.drop bs.length,c::cs⟩,?_,hdrop⟩
      rw [if_pos hle,htake]
    · rw [if_neg hle]
      apply ih
      rw [append_assoc,← h,flatten_cons]

lemma yields_readExactly {short : E} {n : ℕ} (bs : List (BitVec 8)) (h : bs.length = n) :
    Yields (readExactly short n) bs bs := by
  subst h
  exact fun r _ hr => waitFor_eq short r.buffer r.chunks hr

lemma Yields.pure (a : A) : Yields (Pure.pure a : Parser E A) [] a :=
  fun r _ hr => ⟨r,rfl,hr⟩

lemma Yields.bind {p : Parser E A} {f : A → Parser E B} {bs : List (BitVec 8)} {a : A} {b : B}
    (hp : Yields p bs a) (cs : List (BitVec 8)) (hf : Yields (f a) cs b) :
    Yields (p >>= f) (bs++cs) b := by
  intro r rest hr
  rw [append_assoc] at hr
  obtain ⟨r₁,hrun,hbytes⟩ := hp r (cs++rest) hr
  obtain ⟨r₂,hrun₂,hbytes₂⟩ := hf r₁ rest hbytes
  refine ⟨r₂,?_,hbytes₂⟩
  change (p r >>= fun x => f x.1 x.2) = _
  rw [hrun]
  exact hrun₂

lemma Yields.map {p : Parser E A} {bs : List (BitVec 8)} {a : A} (hp : Yields p bs a)
    (f : A → B) : Yields (p >>= fun x => Pure.pure (f x)) bs (f a) := by
  have h := hp.bind (f := fun x => Pure.pure (f x)) [] (Yields.pure (f a))
  rwa [append_nil] at h

end

end Defib.ByteReader
