import Mathlib.Data.List.Infix
import Defib.Words

/-!
# Byte transports

The transports of the host: a serial port, a socket and an RFC 2217 connection. A read gives
back what the operating system has for it piece by piece; the lengths of the pieces, up to the
deadline of the call, are an input. Bytes that come in during a call
are taken to be there before it, since the pieces need not use them.

`Transport` is what callers rely on: reads take from the front of one queue, in order, and a
byte that the transport holds in its own buffer is handed out at once.
-/
namespace Defib.Transports
open List Words

inductive TransportError where
  | timeout (wanted : ℕ)
  | closedByRemote
  | notImplemented
  deriving DecidableEq, Repr

/-- The bytes of a read; one that raised handed out none. -/
def handedOut : Except TransportError (List Byte) → List Byte
  | .ok bytes => bytes
  | .error _ => []

/-- The bytes of an `unread` that the transport took. -/
def givenBack (data : List Byte) : Except TransportError Unit → List Byte
  | .ok _ => data
  | .error _ => []

structure Transport (σ : Type) where
  /-- what reads will hand out, in order -/
  waiting : σ → List Byte
  /-- how many of these are in the transport's own buffer -/
  buffered : σ → ℕ
  isOpen : σ → Bool
  receive : σ → List Byte → σ
  read : σ → ℕ → List ℕ → Except TransportError (List Byte) × σ
  write : σ → List Byte → σ
  bytesWaiting : σ → ℕ → ℕ × σ
  unread : σ → List Byte → Except TransportError Unit × σ
  receive_waiting : ∀ s bytes,waiting (receive s bytes) = waiting s++bytes
  receive_buffered : ∀ s bytes,buffered s ≤ buffered (receive s bytes)
  read_waiting : ∀ s size pieces,
    handedOut (read s size pieces).1++waiting (read s size pieces).2 = waiting s
  read_buffered : ∀ s size pieces,
    buffered s ≤ (handedOut (read s size pieces).1).length+buffered (read s size pieces).2
  read_length : ∀ s size pieces,(handedOut (read s size pieces).1).length ≤ size
  read_closed : ∀ s size pieces,isOpen s = false → handedOut (read s size pieces).1 = []
  read_some : ∀ s size pieces,isOpen s = true → 0 < size → 0 < buffered s →
    handedOut (read s size pieces).1 ≠ []
  write_waiting : ∀ s data,waiting (write s data) = waiting s
  write_buffered : ∀ s data,buffered s ≤ buffered (write s data)
  bytesWaiting_waiting : ∀ s k,waiting (bytesWaiting s k).2 = waiting s
  bytesWaiting_buffered : ∀ s k,buffered s ≤ buffered (bytesWaiting s k).2
  unread_waiting : ∀ s data,
    waiting (unread s data).2 = givenBack data (unread s data).1++waiting s
  unread_buffered : ∀ s data,
    (givenBack data (unread s data).1).length+buffered s ≤ buffered (unread s data).2

/-! ## Serial ports -/

/-- The operating system's input queue and what has been written. -/
structure SerialTransport where
  queue : List Byte
  written : List Byte
  deriving DecidableEq, Repr

namespace SerialTransport

def read (s : SerialTransport) (size : ℕ) (pieces : List ℕ) :
    Except TransportError (List Byte) × SerialTransport :=
  let count := min size pieces.sum
  let data := s.queue.take count
  if data = [] then (.error (.timeout size),s)
  else (.ok data,{s with queue := s.queue.drop count})

lemma read_takes (s : SerialTransport) (size : ℕ) (pieces : List ℕ) :
    handedOut (s.read size pieces).1 = s.queue.take (min size pieces.sum) ∧
      handedOut (s.read size pieces).1++(s.read size pieces).2.queue = s.queue := by
  unfold read
  dsimp only
  split_ifs with hempty
  · exact ⟨hempty.symm,rfl⟩
  · exact ⟨rfl,take_append_drop _ _⟩

end SerialTransport

def serial : Transport SerialTransport where
  waiting s := s.queue
  buffered _ := 0
  isOpen _ := true
  receive s bytes := {s with queue := s.queue++bytes}
  read := SerialTransport.read
  write s data := {s with written := s.written++data}
  bytesWaiting s _ := (s.queue.length,s)
  unread s _ := (.error .notImplemented,s)
  receive_waiting _ _ := rfl
  receive_buffered _ _ := le_rfl
  read_waiting s size pieces := (s.read_takes size pieces).2
  read_buffered _ _ _ := Nat.zero_le _
  read_length s size pieces := by
    rw [(s.read_takes size pieces).1]
    exact (length_take_le _ _).trans (Nat.min_le_left _ _)
  read_closed _ _ _ hclosed := by cases hclosed
  read_some _ _ _ _ _ hbuffered := absurd hbuffered (Nat.lt_irrefl 0)
  write_waiting _ _ := rfl
  write_buffered _ _ := le_rfl
  bytesWaiting_waiting _ _ := rfl
  bytesWaiting_buffered _ _ := le_rfl
  unread_waiting _ _ := rfl
  unread_buffered _ _ := le_rfl

/-! ## Sockets -/

/-- `_buf`, what the kernel has, and what has been sent. -/
structure SocketTransport where
  buf : List Byte
  queue : List Byte
  written : List Byte
  deriving DecidableEq, Repr

namespace SocketTransport

def read (s : SocketTransport) (size : ℕ) (pieces : List ℕ) :
    Except TransportError (List Byte) × SocketTransport :=
  if s.buf ≠ [] then (.ok (s.buf.take size),{s with buf := s.buf.drop size})
  else
    match pieces with
    | [] => (.error (.timeout size),s)
    | k::_ =>
      let data := s.queue.take (min size k)
      if data = [] then (.error .closedByRemote,s)
      else (.ok data,{s with queue := s.queue.drop (min size k)})

/-- `bytes_waiting` pulls in up to 65536 bytes. -/
def bytesWaiting (s : SocketTransport) (k : ℕ) : ℕ × SocketTransport :=
  let data := s.queue.take (min 65536 k)
  ((s.buf++data).length,{s with buf := s.buf++data, queue := s.queue.drop (min 65536 k)})

def waiting (s : SocketTransport) : List Byte := s.buf++s.queue

/-- A read either takes from `_buf` or, when that is empty, from the socket. -/
theorem read_cases (s : SocketTransport) (size : ℕ) (pieces : List ℕ) :
    (s.buf ≠ [] ∧ s.read size pieces = (.ok (s.buf.take size),{s with buf := s.buf.drop size})) ∨
      (s.buf = [] ∧ ∃ count ≤ size,
        handedOut (s.read size pieces).1 = s.queue.take count ∧
        (s.read size pieces).2 = {s with queue := s.queue.drop count}) := by
  by_cases hbuf : s.buf = []
  · right
    refine ⟨hbuf,?_⟩
    unfold read
    rw [if_neg (not_not.mpr hbuf)]
    cases pieces with
    | nil => exact ⟨0,Nat.zero_le _,rfl,rfl⟩
    | cons k _ =>
      dsimp only
      split_ifs with hdata
      · exact ⟨0,Nat.zero_le _,rfl,rfl⟩
      · exact ⟨min size k,Nat.min_le_left _ _,rfl,rfl⟩
  · left
    exact ⟨hbuf,if_pos hbuf⟩

end SocketTransport

def socket : Transport SocketTransport where
  waiting := SocketTransport.waiting
  buffered s := s.buf.length
  isOpen _ := true
  receive s bytes := {s with queue := s.queue++bytes}
  read := SocketTransport.read
  write s data := {s with written := s.written++data}
  bytesWaiting := SocketTransport.bytesWaiting
  unread s _ := (.error .notImplemented,s)
  receive_waiting s bytes := (append_assoc s.buf s.queue bytes).symm
  receive_buffered _ _ := le_rfl
  read_waiting s size pieces := by
    rcases s.read_cases size pieces with ⟨_,hread⟩ | ⟨hbuf,count,_,hout,hnext⟩
    · rw [hread]
      simp only [handedOut,SocketTransport.waiting,← append_assoc,take_append_drop]
    · rw [hout,hnext]
      simp only [SocketTransport.waiting,hbuf,nil_append,take_append_drop]
  read_buffered s size pieces := by
    rcases s.read_cases size pieces with ⟨_,hread⟩ | ⟨hbuf,_⟩
    · rw [hread,← length_append]
      simp only [handedOut,take_append_drop,le_refl]
    · rw [hbuf]
      exact Nat.zero_le _
  read_length s size pieces := by
    rcases s.read_cases size pieces with ⟨_,hread⟩ | ⟨_,count,hcount,hout,_⟩
    · rw [hread]
      exact length_take_le _ _
    · rw [hout]
      exact (length_take_le _ _).trans hcount
  read_closed _ _ _ hclosed := by cases hclosed
  read_some s size pieces _ hsize hbuffered := by
    rcases s.read_cases size pieces with ⟨_,hread⟩ | ⟨hbuf,_⟩
    · rw [hread]
      apply ne_nil_of_length_pos
      simp only [handedOut,length_take]
      omega
    · rw [hbuf] at hbuffered
      exact absurd hbuffered (Nat.lt_irrefl 0)
  write_waiting _ _ := rfl
  write_buffered _ _ := le_rfl
  bytesWaiting_waiting s k := by
    simp only [SocketTransport.bytesWaiting,SocketTransport.waiting,append_assoc,
      take_append_drop]
  bytesWaiting_buffered s k := by
    simp only [SocketTransport.bytesWaiting,length_append]
    omega
  unread_waiting _ _ := rfl
  unread_buffered _ _ := (Nat.zero_add _).le

/-! ## RFC 2217 -/

structure Rfc2217Transport where
  buf : List Byte
  queue : List Byte
  written : List Byte
  deriving DecidableEq, Repr

namespace Rfc2217Transport

/-- The loop of `read` on the answers of the port until the deadline. An answer may be longer
than what is still wanted; the rest goes to `_buf`. -/
def fill (size : ℕ) : List ℕ → List Byte → Rfc2217Transport →
    Except TransportError (List Byte) × Rfc2217Transport
  | [],got,s => if got = [] then (.error (.timeout size),s) else (.ok got,s)
  | k::pieces,got,s =>
    let remaining := size-got.length
    if remaining = 0 then (.ok got,s)
    else
      let chunk := s.queue.take k
      let got' := got++chunk.take remaining
      let s' := {s with buf := s.buf++chunk.drop remaining, queue := s.queue.drop k}
      if size ≤ got'.length then (.ok got',s') else fill size pieces got' s'

def read (s : Rfc2217Transport) (size : ℕ) (pieces : List ℕ) :
    Except TransportError (List Byte) × Rfc2217Transport :=
  let got := s.buf.take size
  let s' := {s with buf := s.buf.drop size}
  if s.buf ≠ [] ∧ size ≤ got.length then (.ok got,s') else fill size pieces got s'

def waiting (s : Rfc2217Transport) : List Byte := s.buf++s.queue

def unread (s : Rfc2217Transport) (data : List Byte) :
    Except TransportError Unit × Rfc2217Transport :=
  (.ok (),{s with buf := data++s.buf})

/-- The loop runs with an empty `_buf`: what it returns and what is then waiting are what it
started with and the queue. -/
theorem fill_spec (size : ℕ) (pieces : List ℕ) (got : List Byte) (s : Rfc2217Transport)
    (hbuf : s.buf = []) (hgot : got.length ≤ size) :
    handedOut (fill size pieces got s).1++(fill size pieces got s).2.waiting = got++s.queue ∧
      got.length ≤ (handedOut (fill size pieces got s).1).length ∧
      (handedOut (fill size pieces got s).1).length ≤ size := by
  induction pieces generalizing got s with
  | nil =>
    unfold fill
    split_ifs with hempty
    · simp [handedOut,waiting,hbuf,hempty]
    · simp [handedOut,waiting,hbuf,hgot]
  | cons k pieces ih =>
    rw [fill]
    dsimp only
    generalize hchunk : s.queue.take k = chunk
    have hqueue : chunk++s.queue.drop k = s.queue := by
      rw [← hchunk,take_append_drop]
    have hlen : (got++chunk.take (size-got.length)).length ≤ size := by
      rw [length_append,length_take]
      omega
    have hmore : got.length ≤ (got++chunk.take (size-got.length)).length := by
      rw [length_append]
      omega
    split_ifs with hfull henough
    · exact ⟨by simp only [handedOut,waiting,hbuf,nil_append],le_rfl,hgot⟩
    · refine ⟨?_,hmore,hlen⟩
      simp only [handedOut,waiting,hbuf,nil_append]
      rw [append_assoc,← append_assoc (chunk.take _),take_append_drop,hqueue]
    · -- the answer was too short, so nothing of it is left over
      have hshort : chunk.length ≤ size-got.length := by
        rw [length_append,length_take] at henough
        omega
      have hdrop : chunk.drop (size-got.length) = [] := drop_of_length_le hshort
      have htake : chunk.take (size-got.length) = chunk := take_of_length_le hshort
      rw [hdrop,htake,hbuf,append_nil]
      rw [htake] at hlen hmore
      obtain ⟨hall,hgrow,hsize⟩ := ih (got++chunk)
        {s with buf := [], queue := s.queue.drop k} rfl hlen
      refine ⟨?_,hmore.trans hgrow,hsize⟩
      rw [hall,append_assoc,hqueue]

lemma read_spec (s : Rfc2217Transport) (size : ℕ) (pieces : List ℕ) :
    handedOut (s.read size pieces).1++(s.read size pieces).2.waiting = s.waiting ∧
      s.buf.length ≤ (handedOut (s.read size pieces).1).length+
        (s.read size pieces).2.buf.length ∧
      (handedOut (s.read size pieces).1).length ≤ size ∧
      min size s.buf.length ≤ (handedOut (s.read size pieces).1).length := by
  have hlen : (s.buf.take size).length = min size s.buf.length := length_take
  unfold read
  dsimp only
  split_ifs with hfull
  · refine ⟨?_,?_,?_,hlen.ge⟩
    · simp only [handedOut,waiting,← append_assoc,take_append_drop]
    · rw [← length_append]
      simp only [handedOut,take_append_drop,le_refl]
    · exact length_take_le _ _
  · have hshort : s.buf.length ≤ size := by
      by_contra hlong
      apply hfull
      refine ⟨ne_nil_of_length_pos (by omega),?_⟩
      omega
    have hdrop : s.buf.drop size = [] := drop_of_length_le hshort
    have htake : s.buf.take size = s.buf := take_of_length_le hshort
    obtain ⟨hall,hgrow,hsize⟩ := fill_spec size pieces (s.buf.take size)
      {s with buf := s.buf.drop size} hdrop (length_take_le _ _)
    rw [htake] at hall hgrow hsize ⊢
    exact ⟨hall,by omega,hsize,by omega⟩

end Rfc2217Transport

def rfc2217 : Transport Rfc2217Transport where
  waiting := Rfc2217Transport.waiting
  buffered s := s.buf.length
  isOpen _ := true
  receive s bytes := {s with queue := s.queue++bytes}
  read := Rfc2217Transport.read
  write s data := {s with written := s.written++data}
  bytesWaiting s _ := (s.buf.length+s.queue.length,s)
  unread := Rfc2217Transport.unread
  receive_waiting s bytes := (append_assoc s.buf s.queue bytes).symm
  receive_buffered _ _ := le_rfl
  read_waiting s size pieces := (s.read_spec size pieces).1
  read_buffered s size pieces := (s.read_spec size pieces).2.1
  read_length s size pieces := (s.read_spec size pieces).2.2.1
  read_closed _ _ _ hclosed := by cases hclosed
  read_some s size pieces _ hsize hbuffered := by
    have hlen := (s.read_spec size pieces).2.2.2
    apply ne_nil_of_length_pos
    omega
  write_waiting _ _ := rfl
  write_buffered _ _ := le_rfl
  bytesWaiting_waiting _ _ := rfl
  bytesWaiting_buffered _ _ := le_rfl
  unread_waiting s data := append_assoc data s.buf s.queue
  unread_buffered s data := by
    simp only [Rfc2217Transport.unread,givenBack,length_append,le_refl]

end Defib.Transports
