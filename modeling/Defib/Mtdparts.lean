import Defib.PyText
import Defib.Dicts

/-!
# The parsers of flash layouts

A layout is `<device>:<size>(<name>),…`, the last size possibly `-` for the rest of the
chip. Three loops of the source read it: `mtdpartsPartitionOffset` for the installer,
and in the restore command `partOffsets` for plain partitions and `ubiPartmap` for UBI
ones. Each is modelled with the regular expression it uses. An interpreter may refuse to
convert more than `limit` decimal digits.
-/
namespace Defib.Mtdparts
open PyText Dicts

variable (T : CharTable) (limit : Option ℕ)

/-- `k`, `m` or `g` in either case; the Kelvin sign folds to `k`. -/
def unit (c : Char) : Option ℕ :=
  if c = 'k' ∨ c = 'K' ∨ c = Char.ofNat 0x212a then some 1024
  else if c = 'm' ∨ c = 'M' then some (1024*1024)
  else if c = 'g' ∨ c = 'G' then some (1024*1024*1024)
  else none

/-! ### `mtdparts_partition_offset` -/

/-- `(?:0x[0-9a-f]+|\d+)`: the number and what follows it. -/
def matchNumber (s : List Char) : Option (List Char × List Char) :=
  let hex := (s.drop 2).takeWhile isHex
  if s.head? = some '0' ∧ (s[1]? = some 'x' ∨ s[1]? = some 'X') ∧ hex ≠ [] then
    some (s.take 2++hex,(s.drop 2).dropWhile isHex)
  else
    let ds := s.takeWhile T.digit
    if ds = [] then none else some (ds,s.dropWhile T.digit)

def matchSize (s : List Char) : Option (List Char × List Char) :=
  (matchNumber T s).map fun r => match r.2 with
    | [] => r
    | c::t => if (unit c).isSome then (r.1++[c],t) else r

structure PartMatch where
  size : List Char
  offset : Option (List Char)
  name : List Char

/-- The size group: `-` or a number with its unit. -/
def matchLead (s : List Char) : Option (List Char × List Char) :=
  if s.head? = some '-' then some (['-'],s.tail) else matchSize T s

/-- The offset group, which may be absent. -/
def matchAt (s : List Char) : Option (List Char) × List Char :=
  if s.head? = some '@' then
    match matchSize T s.tail with
    | some (o,r) => (some o,r)
    | none => (none,s)
  else (none,s)

/-- `\((?P<name>[^)]*)\)`. -/
def matchBracket (s : List Char) : Option (List Char) :=
  if s.head? = some '(' ∧ ')' ∈ s.tail then some (s.tail.takeWhile (· ≠ ')')) else none

def mtdpartRe (s : List Char) : Option PartMatch := do
  let r ← matchLead T s
  let q := matchAt T r.2
  let name ← matchBracket q.2
  some ⟨r.1,q.1,name⟩

/-- `int(text, 0)`; a decimal number other than zero must not begin with a zero. -/
def intLiteral (text : List Char) : Option ℕ :=
  if text.head? = some '0' ∧ (text[1]? = some 'x' ∨ text[1]? = some 'X') then
    some ((text.drop 2).foldl (fun v c => v*16+hexDigit c) 0)
  else if limit.any (· < text.length) then none
  else if text.head?.bind T.decimal = some 0 ∧ decimalValue T text ≠ 0 then none
  else some (decimalValue T text)

/-- `_mtd_size`; `none` is a `ValueError`. -/
def mtdSize (text : List Char) : Option ℕ :=
  match text.getLast?.bind unit with
  | some m => (intLiteral T limit text.dropLast).map (·*m)
  | none => intLiteral T limit text

/-- The loop over the parts of one device: `none` if it raises, else the offset if the
name was found. -/
def deviceOffset (name : List Char) : ℕ → List (List Char) → Option (Option ℕ)
  | _,[] => some none
  | offset,part::parts =>
    match mtdpartRe T (strip T part) with
    | none => some none
    | some p => do
      let offset ← match p.offset with
        | some o => mtdSize T limit o
        | none => some offset
      if p.name = name then some (some offset)
      else if p.size = ['-'] then some none
      else deviceOffset name (offset+(← mtdSize T limit p.size)) parts

/-- `none` if it raises. -/
def mtdpartsPartitionOffset (mtdparts name : List Char) (nandOnly : Bool) : Option (Option ℕ) :=
  let value := removePrefix "mtdparts=".toList (strip T mtdparts)
  (value.splitOn ';').foldr (fun device rest =>
    match partition ':' device with
    | none => rest
    | some (mtdId,parts) =>
      if nandOnly && !contains "nand".toList (strip T mtdId) then rest
      else match deviceOffset T limit name 0 (parts.splitOn ',') with
        | some none => rest
        | found => found) (some none)

/-! ### The restore command -/

/-- `([\d]+)([kKmM]?)`: the value of a match, in which `none` is a `ValueError`. -/
def leadingSize (s : List Char) : Option (Option ℕ) :=
  let ds := s.takeWhile T.digit
  if ds = [] then none
  else if limit.any (· < ds.length) then some none
  else some (some (decimalValue T ds*match (s.dropWhile T.digit).head? with
    | some 'm' | some 'M' => 1024*1024
    | some 'k' | some 'K' => 1024
    | _ => 1))

/-- `-\(`. -/
def isFill (s : List Char) : Bool := "-(".toList.isPrefixOf s

/-- The entries of `_part_offsets` from index `i` on, and the running offset after them. -/
def offsetsFrom : ℕ → ℕ → List (List Char) → Option (List (ℕ × ℕ) × ℕ)
  | _,cur,[] => some ([],cur)
  | i,cur,pd::pds =>
    if isFill (strip T pd) then some ([(i,cur)],cur)
    else do
      let size ← (leadingSize T limit (strip T pd)).getD (some 0)
      let r ← offsetsFrom (i+1) (cur+size) pds
      some ((i,cur)::r.1,r.2)

/-- The text after the first colon, or all of it. -/
def partString (mtdparts : List Char) : List Char :=
  match partition ':' mtdparts with
  | some (_,parts) => parts
  | none => mtdparts

/-- `_part_offsets` read from a layout, for `n` input partitions. -/
def partOffsets (mtdparts : List Char) (n : ℕ) : Option (List (ℕ × ℕ)) :=
  (offsetsFrom T limit 0 0 ((partString mtdparts).splitOn ',')).map fun r =>
    r.1++((List.range n).filter fun i => (getItem r.1 i).isNone).map fun i => (i,r.2)

/-- `(\w+)\)`: a name and its bracket. -/
def matchName (s : List Char) : Option (List Char) :=
  let w := s.takeWhile T.word
  if w ≠ [] ∧ (s.dropWhile T.word).head? = some ')' then some w else none

/-- `([\d]+[kKmM]?)\((\w+)\)`: the size, if it can be converted, and the name. -/
def matchSized (s : List Char) : Option (Option ℕ × List Char) := do
  let size ← leadingSize T limit s
  let r := s.dropWhile T.digit
  let r := match r with
    | c::t => if c = 'k' ∨ c = 'K' ∨ c = 'm' ∨ c = 'M' then t else r
    | [] => r
  match r with
  | '('::t => (matchName T t).map fun name => (size,name)
  | _ => none

/-- `-\((\w+)\)`. -/
def matchFill (s : List Char) : Option (List Char) :=
  if isFill s then matchName T (s.drop 2) else none

/-- The entries of `ubi_partmap` from index `i` on: name, offset and size. -/
def partmapFrom : ℕ → ℕ → List (List Char) → Option (List (ℕ × (List Char × ℕ × ℕ)))
  | _,_,[] => some []
  | i,cur,pdef::pdefs =>
    match matchFill T (strip T pdef) with
    | some name => (partmapFrom (i+1) cur pdefs).map ((i,name,cur,0)::·)
    | none => match matchSized T limit (strip T pdef) with
        | some (size,name) => do
          let size ← size
          (partmapFrom (i+1) (cur+size) pdefs).map ((i,name,cur,size)::·)
        | none => partmapFrom (i+1) cur pdefs

/-- `none` is the `IndexError` of a value without a colon, or a `ValueError`. -/
def ubiPartmap (mtdpartsVal : List Char) : Option (List (ℕ × (List Char × ℕ × ℕ))) :=
  (partition ':' mtdpartsVal).bind fun p => partmapFrom T limit 0 0 (p.2.splitOn ',')

end Defib.Mtdparts
