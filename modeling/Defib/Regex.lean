import Defib.PyText

/-!
# Regular expressions as Python searches them

Patterns with character classes, greedy and lazy runs of a class, alternatives that are
tried in order, word and line boundaries and one group. `search` returns the text of the
group of the first match. The texts are ASCII, decoded with a replacement character that
is in no class.
-/
namespace Defib.Regex
open PyText

/-- The character before the current place, and what is left. -/
structure Place where
  prev : Option Char
  rest : List Char

inductive Re
  | eps
  | chr (p : Char → Bool)
  | many (p : Char → Bool)
  | lazyMany (p : Char → Bool)
  | seq (a b : Re)
  | alt (a b : Re)
  | group (a : Re)
  | edge
  | lineStart
  | lineEnd

/-- What follows a match; it gets the text of the group so far. -/
abbrev Next := Place → List Char → Option (List Char)

def greedy (p : Char → Bool) (g : List Char) (k : Next) :
    Option Char → List Char → Option (List Char)
  | prev,[] => k ⟨prev,[]⟩ g
  | prev,c::cs =>
    if p c then (greedy p g k (some c) cs).or (k ⟨prev,c::cs⟩ g) else k ⟨prev,c::cs⟩ g

def shortest (p : Char → Bool) (g : List Char) (k : Next) :
    Option Char → List Char → Option (List Char)
  | prev,[] => k ⟨prev,[]⟩ g
  | prev,c::cs =>
    (k ⟨prev,c::cs⟩ g).or (if p c then shortest p g k (some c) cs else none)

def isWord (c : Option Char) : Bool := c.any asciiTable.word

namespace Re

def run : Re → Place → List Char → Next → Option (List Char)
  | eps,here,g,k => k here g
  | chr p,here,g,k =>
    match here.rest with
    | [] => none
    | c::cs => if p c then k ⟨some c,cs⟩ g else none
  | many p,here,g,k => greedy p g k here.prev here.rest
  | lazyMany p,here,g,k => shortest p g k here.prev here.rest
  | seq a b,here,g,k => a.run here g fun there g' => b.run there g' k
  | alt a b,here,g,k => (a.run here g k).or (b.run here g k)
  | group a,here,g,k =>
    a.run here g fun there _ => k there (here.rest.take (here.rest.length-there.rest.length))
  | edge,here,g,k => if isWord here.prev ≠ isWord here.rest.head? then k here g else none
  | lineStart,here,g,k => if here.prev = none ∨ here.prev = some '\n' then k here g else none
  | lineEnd,here,g,k => if here.rest = [] ∨ here.rest.head? = some '\n' then k here g else none

/-- One after the other. -/
def all (rs : List Re) : Re := rs.foldr seq eps

def text (s : String) : Re := all (s.toList.map fun c => chr (· = c))

/-- A text in any case, given in lower case. -/
def anyCase (s : String) : Re := all (s.toList.map fun c => chr (·.toLower = c))

def space : Re := chr asciiTable.space
def spaces : Re := many asciiTable.space
def digits : Re := seq (chr asciiTable.digit) (many asciiTable.digit)

def searchFrom (r : Re) : Option Char → List Char → Option (List Char)
  | prev,[] => r.run ⟨prev,[]⟩ [] fun _ g => some g
  | prev,c::cs => (r.run ⟨prev,c::cs⟩ [] fun _ g => some g).or (searchFrom r (some c) cs)

def search (r : Re) (s : List Char) : Option (List Char) := searchFrom r none s

/-- `re.match`. -/
def matchStart (r : Re) (s : List Char) : Bool := (r.run ⟨none,s⟩ [] fun _ g => some g).isSome

end Re

example : (Re.all
      [.edge,.anyCase "chip:",.spaces,.group .digits,.spaces,.anyCase "mb",.edge]).search
    "SF: Chip: 16MB".toList = some ['1','6'] := by
  decide +kernel

end Defib.Regex
