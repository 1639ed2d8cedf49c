import Protoscribe.Yaml.Quoted
import Protoscribe.Yaml.Token

/-!
How tags and directives are written. The octets of a tag may be escaped with a
percent sign and must then form whole characters, by their leading bits.
-/

namespace Protoscribe.Yaml

def isTagChar (c : Char) : Bool := isNameChar c || ";/?:@&=+$.%!~*\x27()".toList.contains c

/-- The characters of a tag between angle brackets, and of the stem of tags. -/
def isStemChar (c : Char) : Bool := isTagChar c || c = ',' || c = '[' || c = ']'

/-- The octets that are still due behind an octet, when `due` were before it. -/
def octetsDue? (due octet : Nat) : Option Nat :=
  if due = 0 then
    if octet < 0x80 then some 0
    else if octet < 0xC0 then none
    else if octet < 0xE0 then some 1
    else if octet < 0xF0 then some 2
    else if octet < 0xF8 then some 3
    else none
  else if 0x80 ≤ octet && octet < 0xC0 then some (due - 1)
  else none

/-- Reads the octets of a tag; those of one character are escaped together. -/
def readOctets (accepts : Char → Bool) (due : Nat) : List Glyph → Option (Tag × List Glyph)
  | [] => if due = 0 then some ([], []) else none
  | g :: rest =>
      if g.char = '%' then
        match rest with
        | a :: b :: more => do
            let octet := (← hexDigit? a.char) * 16 + (← hexDigit? b.char)
            let (octets, left) ← readOctets accepts (← octetsDue? due octet) more
            return (octet.toUInt8 :: octets, left)
        | _ => none
      else if due ≠ 0 then none
      else if accepts g.char then do
        let (octets, left) ← readOctets accepts 0 rest
        return (g.char.toNat.toUInt8 :: octets, left)
      else some ([], g :: rest)

def readSomeOctets (accepts : Char → Bool) (gs : List Glyph) : Option (Tag × List Glyph) :=
  match readOctets accepts 0 gs with
  | some ([], _) => none
  | found => found

def handleText (name : List Char) : String := String.ofList ('!' :: name ++ ['!'])

def localHandle : String := "!"

/-- A tag with its exclamation mark already read: whole between angle brackets,
or with a handle in front, or local. -/
def readTagBody (gs : List Glyph) : Option (Token × List Glyph) :=
  if next? gs = some '<' then do
    let (tag, gs) ← readSomeOctets isStemChar (gs.drop 1)
    if next? gs = some '>' then return (.tag none tag, gs.drop 1) else none
  else do
    let (name, behind) := spanChars isNameChar gs
    if next? behind = some '!' then
      let (suffix, left) ← readSomeOctets isTagChar (behind.drop 1)
      return (.tag (some (handleText name)) suffix, left)
    else
      let (more, left) ← readOctets isTagChar 0 behind
      match Tag.ofChars name ++ more with
      | [] => return (.tag none .bare, left)
      | suffix => return (.tag (some localHandle) suffix, left)

/-- A tag ends in front of a space, inside a flow collection also at a comma. -/
def readTag (flow : Bool) (gs : List Glyph) : Option (Token × List Glyph) := do
  let (token, left) ← readTagBody gs
  if atSpace left || (flow && next? left = some ',') then return (token, left) else none

def readVersionNumber (gs : List Glyph) : Option (Nat × List Glyph) :=
  let (digits, left) := spanChars (fun c => '0' ≤ c && c ≤ '9') gs
  if digits = [] || 9 < digits.length then none
  else some (digits.foldl (fun value c => value * 10 + (c.toNat - '0'.toNat)) 0, left)

def skipBlanks (gs : List Glyph) : List Glyph := gs.dropWhile (isBlank ·.char)

def readVersion (gs : List Glyph) : Option (Token × List Glyph) := do
  let (major, gs) ← readVersionNumber (skipBlanks gs)
  if next? gs = some '.' then
    let (minor, gs) ← readVersionNumber (gs.drop 1)
    return (.version major minor, gs)
  else none

/-- The handle that a directive gives a stem to. -/
def readHandle (gs : List Glyph) : Option (String × List Glyph) :=
  if next? gs = some '!' then
    let (name, behind) := spanChars isNameChar (gs.drop 1)
    if next? behind = some '!' then some (handleText name, behind.drop 1)
    else if name = [] then some (localHandle, behind)
    else none
  else none

def readStem (gs : List Glyph) : Option (Token × List Glyph) := do
  let (handle, gs) ← readHandle (skipBlanks gs)
  if (next? gs).any isBlank then
    let (stem, gs) ← readSomeOctets isStemChar (skipBlanks gs)
    if atSpace gs then return (.stem handle stem, gs) else none
  else none

/-- A directive with its percent sign already read, to the end of its line. -/
def readDirective (gs : List Glyph) : Option (Token × List Glyph) := do
  let (name, gs) := spanChars isNameChar gs
  if atSpace gs then
    let (token, gs) ←
      if name = "YAML".toList then readVersion gs
      else if name = "TAG".toList then readStem gs
      else none
    return (token, ← finishLine? gs)
  else none

/-- The name of an anchor, which a space or one of some indicators ends. -/
def readAnchorName (gs : List Glyph) : Option (String × List Glyph) :=
  let (name, left) := spanChars isNameChar gs
  let ended := atSpace left || (next? left).any ("?:,]\x7d%@\x60".toList.contains ·)
  if name ≠ [] && ended then some (String.ofList name, left) else none

end Protoscribe.Yaml
