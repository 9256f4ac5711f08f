import Mathlib.Data.List.Sort
import Defib.Words
import Defib.PyText

/-!
# The output of `md.b`

The parsers of the flash dump: a line of a memory display is an address and up to
sixteen hexadecimal bytes; a display is the bytes of its lines, placed by address from
the lowest one on.
-/
namespace Defib.MdOutput
open Words PyText

/-- The line boundaries of `str.splitlines`. -/
def isBreak (c : Char) : Bool :=
  c.toNat ∈ [10,11,12,13,28,29,30,0x85,0x2028,0x2029]

/-- The lines of a text, the current one given by its characters so far. -/
def linesFrom (cur : List Char) : List Char → List (List Char)
  | [] => if cur = [] then [] else [cur]
  | '\r' :: '\n' :: s => cur::linesFrom [] s
  | c::s => if isBreak c then cur::linesFrom [] s else linesFrom (cur++[c]) s

def splitlines (s : List Char) : List (List Char) := linesFrom [] s

/-- Two hexadecimal digits and what follows. -/
def hexPair : List Char → Option (Byte × List Char)
  | a::b::s => if isHex a && isHex b then some (BitVec.ofNat 8 (hexDigit a*16+hexDigit b),s)
    else none
  | _ => none

variable (T : CharTable)

/-- Up to `n` further bytes, each after some space. -/
def moreBytes : ℕ → List Char → List Byte
  | 0,_ => []
  | n+1,s =>
    let r := s.dropWhile T.space
    if r.length < s.length then
      match hexPair r with
      | some (v,t) => v::moreBytes n t
      | none => []
    else []

def parseMdLine (line : List Char) : Option (ℕ × List Byte) :=
  let s := strip T line
  let addr := s.take 8
  let rest := s.drop 9
  let hex := rest.dropWhile T.space
  if addr.length = 8 ∧ addr.all isHex ∧ s[8]? = some ':' ∧ hex.length < rest.length then
    (hexPair hex).map fun p => (addr.foldl (fun v c => v*16+hexDigit c) 0,p.1::moreBytes T 15 p.2)
  else none

/-- Slice assignment at `off`; it may extend the buffer. -/
def place (buf : List Byte) (off : ℕ) (data : List Byte) : List Byte :=
  buf.take off++data++buf.drop (off+data.length)

/-- The buffer that sorted entries are placed in. -/
def layEntries (entries : List (ℕ × List Byte)) : List Byte :=
  match entries.head?,entries.getLast? with
  | some first,some last =>
    entries.foldl (fun buf e => place buf (e.1-first.1) e.2)
      (List.replicate (last.1-first.1+last.2.length) 0)
  | _,_ => []

def parseMdOutput (text : List Char) : List Byte :=
  layEntries (((splitlines text).filterMap (parseMdLine T)).insertionSort fun a b => a.1 ≤ b.1)

example : parseMdOutput asciiTable
    "md.b 0x82000000 0x4\r\n82000002: 6f 6e    on\r\n82000000: 48 69    Hi\r\nhisilicon # ".toList =
    [0x48,0x69,0x6f,0x6e] := by
  decide +kernel

end Defib.MdOutput
