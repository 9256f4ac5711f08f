import Defib.MdDisplay
import Defib.Regex

/-!
# Reading the replies of U-Boot

The helpers that the installer reads replies with: the result lines of flash commands,
the capacity of the NOR chip, checksums, environment values, and the choice of the
MAC address that is saved. Replies are texts of ASCII characters.
-/
namespace Defib.UbootReplies
open Words PyText Regex MdOutput

def lower (s : List Char) : List Char := s.map Char.toLower

def stripText (s : List Char) : List Char := strip asciiTable s

def has (needle : String) (s : List Char) : Bool := contains needle.toList s

def startsWith (p : String) (s : List Char) : Bool := p.toList.isPrefixOf s

def decimal (ds : List Char) : ℕ := decimalValue asciiTable ds

/-! ### Results of flash commands -/

def resultPrefixes : List String :=
  ["sf:","spi flash","spi nor","nand","erase","erasing","write","writing","read","reading"]

/-- A line, in lower case, that reports a failure. -/
def errorLine (text : List Char) : Bool :=
  ["error:","unknown command","usage:"].any (startsWith · text) ||
    (Re.all [.text "failed",.edge]).matchStart text ||
    has "no spi flash selected" text || has "out of range" text ||
    has "not block aligned" text || text = "failed".toList || text = "failure".toList ||
    (resultPrefixes.any (startsWith · text) &&
      ((Re.all [.edge,.alt (.text "failed") (.text "failure"),.edge]).search text).isSome)

def flashCommandError (response : List Char) : Option (List Char) :=
  ((splitlines response).map stripText).find? fun line => line ≠ [] && errorLine (lower line)

/-- A line of the usage table, without the word in front of the first one. -/
def usageEntry (line : List Char) : List Char :=
  if startsWith "usage:" line then stripText (removePrefix "usage:".toList line) else line

def wordEnd : Re := .alt .space .lineEnd

def sfLockUnsupported (response : List Char) : Bool :=
  let lines := ((splitlines response).map stripText).filter (· ≠ []) |>.map lower
  let table := (lines.dropWhile fun line => !startsWith "usage:" line).map usageEntry
  let entries := table.filter (Re.all [.text "sf",wordEnd]).matchStart
  lines.any (fun line => (has "sf" line || has "lock" line) &&
      (has "unknown command" line || has "not supported" line || has "unsupported" line)) ||
    (entries ≠ [] &&
      !entries.any (Re.all [.text "sf",.space,.spaces,.text "lock",wordEnd]).matchStart)

def sfReadSucceeded (response : List Char) : Bool :=
  let text := lower response
  !(has "exceeds" text || has "past flash size" text || has "error" text) && has "read: ok" text

/-! ### Numbers -/

def sizeIn (unit : String) : List Re := [.spaces,.group .digits,.spaces,.anyCase unit,.edge]

def onSpiLine : List Re :=
  [.edge,.many (· ≠ '\n'),.alt (.anyCase "hi_sfc") (.anyCase "spi")]

/-- The patterns for the capacity, with the number of units in a megabyte. -/
def norSizePatterns : List (Re × ℕ) :=
  [(.all (.edge::.anyCase "chip:"::sizeIn "mb"),1),
   (.all (.edge::.anyCase "spi"::.space::.spaces::.anyCase "size:"::sizeIn "mb"),1),
   (.all (.edge::.alt (.all [.anyCase "spi",.space,.spaces,.anyCase "nor",.space,.spaces]) .eps::
      .anyCase "total"::.space::.spaces::.anyCase "size:"::sizeIn "mb"),1),
   (.all [.edge,.anyCase "sf:",.many (· ≠ '\n'),.edge,.anyCase "total",.space,.spaces,
      .group .digits,.spaces,.anyCase "mb",.edge],1),
   (.all ([.edge,.group .digits,.space,.spaces,.anyCase "mib"]++onSpiLine),1),
   (.all ([.edge,.group .digits,.space,.spaces,.anyCase "kib"]++onSpiLine),1024)]

def detectNorSizeMb (response : List Char) : Option ℕ :=
  norSizePatterns.findSome? fun p =>
    (p.1.search response).bind fun ds =>
      if decimal ds%p.2 = 0 then some (decimal ds/p.2) else none

/-- The erase block that `sf probe` reports, in bytes. -/
def eraseBlock (response : List Char) : ℕ :=
  match (Re.all [.anyCase "block:",.spaces,.group .digits,.spaces,.anyCase "kb"]).search
    response with
  | some ds => decimal ds*1024
  | none => 0x10000

def transferredSize (response : List Char) : Option ℕ :=
  ((Re.all [.anyCase "bytes transferred",.spaces,.text "=",.spaces,.group .digits]).search
    response).map decimal

def crcPattern : Re :=
  .all [.text "==>",.spaces,.group (.all (List.replicate 8 (.chr isHex)))]

def parseCrc32 (response : List Char) : Option ℕ :=
  (crcPattern.search response).map fun ds => ds.foldl (fun v c => v*16+hexDigit c) 0

/-- The comparison of one word found no difference. -/
def wordSame (response : List Char) : Bool :=
  ((Re.all [.edge,.anyCase "total of",.space,.spaces,.text "1",.space,.spaces,.anyCase "word",
    .alt (.anyCase "(s)") (.alt (.anyCase "s") .eps),.space,.spaces,.anyCase "were the same",
    .edge]).search response).isSome

/-! ### Environment values -/

def parsePrintenv (response var : List Char) : Option (List Char) :=
  ((Re.all [.lineStart,.spaces,.all (var.map fun c => .chr (· = c)),.text "=",
    .group (.seq (.chr (· ≠ '\n')) (.lazyMany (· ≠ '\n'))),.spaces,.lineEnd]).search
      response).map stripText

def isMac (v : List Char) : Bool :=
  v.length = 17 && v.zipIdx.all fun c => if c.2%3 = 2 then c.1 = ':' else isHex c.1

def defaultEthaddr : List Char := "00:00:23:34:45:66".toList

def isUnsetOrDefaultEthaddr : Option (List Char) → Bool
  | none => true
  | some value => !isMac (lower (stripText value)) || lower (stripText value) = defaultEthaddr

/-- The rescue address made from random bytes. -/
def locallyAdministeredMac (raw : List Byte) : List Char :=
  [':'].intercalate
    ((((raw.getD 0 0 &&& 0xFC) ||| 0x02)::(raw.drop 1).take 5).map MdDisplay.hexByte)

/-- `select_install_ethaddr`; `rescue` is there when an address may be generated. -/
def selectInstallEthaddr (current preserved rescue : Option (List Char)) : Option (List Char) :=
  if !isUnsetOrDefaultEthaddr preserved then preserved.map fun v => lower (stripText v)
  else if !isUnsetOrDefaultEthaddr current then current.map fun v => lower (stripText v)
  else rescue

/-! ### TFTP -/

def reportsUnknownCommand (response : List Char) (name : String) : Bool :=
  (splitlines response).any fun raw =>
    let line := lower (stripText raw)
    startsWith "unknown command" line && (has name line || line = "unknown command".toList)

end Defib.UbootReplies
