import Protoscribe.Yaml.Block
import Protoscribe.Yaml.Plain
import Protoscribe.Yaml.TagText

/-!
From glyphs to tokens. Outside of flow collections the indentation of the lines
opens and closes block collections. A value that turns out to be a key gets its
key token, and the start of its mapping, in front of it once the colon is seen;
for that, the places where a key may have started are kept as candidates, one
for each flow collection that is open and one outside of them. Tokens are handed on
in front of the first candidate only, and where no further token can be told, the
tokens that were not handed on are lost.
-/

namespace Protoscribe.Yaml

/-- A place where the key of a mapping entry may have started. -/
structure Candidate where
  /-- The count of tokens in front of the key. -/
  token : Nat
  glyph : Glyph
  /-- Nothing but a key can stand there. -/
  required : Bool
  deriving DecidableEq, Repr

/-- The most characters of a key, its quotes included, in front of its colon. -/
def maxKeyLength : Nat := 1024

/-- A key ends on its line and is not too long. -/
def Candidate.isStale (candidate : Candidate) (g : Glyph) : Bool :=
  candidate.glyph.line < g.line || candidate.glyph.index + maxKeyLength < g.index

structure Layout where
  rest : List Glyph
  /-- The tokens so far, the latest first, and their count. -/
  tokens : List Token := []
  count : Nat := 0
  /-- The columns of the open block collections, the innermost first. -/
  columns : List Nat := []
  /-- A key may start here. -/
  keyAllowed : Bool := true
  candidate : Option Candidate := none
  /-- The candidates outside of the innermost open flow collection. -/
  outer : List (Option Candidate) := []
  deriving Repr

namespace Layout

def inFlow (l : Layout) : Bool := !l.outer.isEmpty

/-- The first column that is indented more than the innermost block collection. -/
def margin (l : Layout) : Nat := (l.columns.head?.map (· + 1)).getD 0

def emit (l : Layout) (token : Token) : Layout :=
  { l with tokens := token :: l.tokens, count := l.count + 1 }

/-- Puts a token behind the first `position` tokens. -/
def emitAt (l : Layout) (position : Nat) (token : Token) : Layout :=
  { l with tokens := l.tokens.insertIdx (l.count - position) token, count := l.count + 1 }

def advance (l : Layout) (rest : List Glyph) : Layout := { l with rest }

/-- Leaves a candidate without its key; a required one must not be left. -/
def settle (candidate : Option Candidate) : Option (Option Candidate) :=
  if candidate.any Candidate.required then none else some none

def dropCandidate (l : Layout) : Option Layout := do
  return { l with candidate := ← settle l.candidate }

def saveCandidate (l : Layout) (g : Glyph) : Option Layout :=
  if l.keyAllowed then do
    let l ← l.dropCandidate
    let required := !l.inFlow && l.columns.head? = some g.column
    return { l with candidate := some ⟨l.count, g, required⟩ }
  else some l

/-- Leaves all candidates that no longer can be keys at this glyph. -/
def dropStale (l : Layout) (g : Glyph) : Option Layout := do
  let check (candidate : Option Candidate) : Option (Option Candidate) :=
    if candidate.any (·.isStale g) then settle candidate else some candidate
  return { l with candidate := ← check l.candidate, outer := ← l.outer.mapM check }

/-- Opens a block collection at a column that is further in than the innermost. -/
def indentTo (l : Layout) (column : Nat) (announce : Layout → Layout) : Layout :=
  if !l.inFlow && l.columns.head?.all (· < column) then
    { announce l with columns := column :: l.columns }
  else l

def closeColumns (keeps : Nat → Bool) (l : Layout) : List Nat → Layout
  | [] => { l with columns := [] }
  | column :: columns =>
      if keeps column then { l with columns := column :: columns }
      else closeColumns keeps (l.emit .blockEnd) columns

/-- Closes the block collections that are further in than a column. -/
def unindentTo (l : Layout) (column : Nat) : Layout :=
  if l.inFlow then l else closeColumns (· ≤ column) l l.columns

def unindent (l : Layout) : Layout :=
  if l.inFlow then l else closeColumns (fun _ => false) l l.columns

/-- Passes over spaces, breaks and comments. A tab counts as a space inside a
flow collection and where no key may start. Outside of flow collections a key may
start on every new line. -/
def skipFrom (flow : Bool) : Bool → Bool → List Glyph → List Glyph × Bool
  | _, keyAllowed, [] => ([], keyAllowed)
  | comment, keyAllowed, g :: rest =>
      if isBreak g.char then skipFrom flow false (keyAllowed || !flow) rest
      else if comment || g.char = ' ' || (g.char = '\t' && (flow || !keyAllowed)) then
        skipFrom flow comment keyAllowed rest
      else if g.char = '#' then skipFrom flow true keyAllowed rest
      else (g :: rest, keyAllowed)

def skip (l : Layout) : Layout :=
  let (rest, keyAllowed) := skipFrom l.inFlow false l.keyAllowed l.rest
  { l with rest, keyAllowed }

/-- A directive or a document marker closes all block collections. -/
def boundary (l : Layout) : Option Layout := do
  return { ← l.unindent.dropCandidate with keyAllowed := false }

def openFlow (l : Layout) (g : Glyph) (token : Token) : Option Layout := do
  let l ← l.saveCandidate g
  return { l.emit token with
    candidate := none, outer := l.candidate :: l.outer, keyAllowed := true }

def closeFlow (l : Layout) (token : Token) : Option Layout := do
  let l ← l.dropCandidate
  let l := { l.emit token with keyAllowed := false }
  match l.outer with
  | [] => return l
  | candidate :: outer => return { l with candidate, outer }

def separate (l : Layout) : Option Layout := do
  return { (← l.dropCandidate).emit .comma with keyAllowed := true }

/-- Outside of flow collections an indicator needs a place where a key may start. -/
def requireKeyAllowed (l : Layout) : Option Unit :=
  if l.inFlow || l.keyAllowed then some () else none

def dash (l : Layout) (g : Glyph) : Option Layout := do
  l.requireKeyAllowed
  let l ← (l.indentTo g.column (·.emit .blockList)).dropCandidate
  return { l.emit .entry with keyAllowed := true }

/-- The indicator of a key that is no simple one. -/
def explicitKey (l : Layout) (g : Glyph) : Option Layout := do
  l.requireKeyAllowed
  let l ← (l.indentTo g.column (·.emit .blockMapping)).dropCandidate
  return { l.emit .key with keyAllowed := !l.inFlow }

/-- The colon behind a key: behind a candidate it makes that a key. -/
def colon (l : Layout) (g : Glyph) : Option Layout :=
  match l.candidate with
  | some candidate =>
      let l := l.emitAt candidate.token .key
      let l := l.indentTo candidate.glyph.column (·.emitAt candidate.token .blockMapping)
      some { l.emit .value with candidate := none, keyAllowed := false }
  | none => do
      l.requireKeyAllowed
      let l := l.indentTo g.column (·.emit .blockMapping)
      return { l.emit .value with keyAllowed := !l.inFlow }

/-- A value, or what stands in front of it, where a key may have started. -/
def valueToken (l : Layout) (g : Glyph) (found : Option (Token × List Glyph)) :
    Option Layout := do
  let l ← l.saveCandidate g
  let (token, rest) ← found
  return { l.emit token with rest, keyAllowed := false }

def scalarToken (style : Style) : List Char × List Glyph → Token × List Glyph
  | (text, rest) => (.scalar (String.ofList text) style, rest)

def blockScalar (l : Layout) (style : Style) (rest : List Glyph) : Option Layout := do
  let l ← l.dropCandidate
  let (token, rest) := scalarToken style (← readBlock (style = .folded) l.margin rest)
  return { l.emit token with rest, keyAllowed := true }

/-- Behind a plain scalar that goes over a line a key may start. -/
def plainScalar (l : Layout) (g : Glyph) (gs : List Glyph) : Option Layout := do
  let l ← l.saveCandidate g
  let found ← readPlain l.inFlow l.margin .none gs
  return { l.emit (.scalar (String.ofList found.text) .plain) with
    rest := found.rest, keyAllowed := found.crossed }

/-- The token that starts at a glyph, and whatever else it brings about. -/
def token (l : Layout) (g : Glyph) (rest : List Glyph) : Option Layout :=
  let flow := l.inFlow
  let l := l.advance rest
  if g.column = 0 && g.char = '%' then do
    let (directive, rest) ← readDirective rest
    return ((← l.boundary).emit directive).advance rest
  else if atMarker (g :: rest) then do
    let marker := if g.char = '-' then Token.documentStart else .documentEnd
    return ((← l.boundary).emit marker).advance (rest.drop 2)
  else
    match g.char with
    | '[' => l.openFlow g .openList
    | '\x7b' => l.openFlow g .openMapping
    | ']' => l.closeFlow .closeList
    | '\x7d' => l.closeFlow .closeMapping
    | ',' => l.separate
    | '*' =>
        l.valueToken g ((readAnchorName rest).map fun found => (.alias found.1, found.2))
    | '&' =>
        l.valueToken g ((readAnchorName rest).map fun found => (.anchor found.1, found.2))
    | '!' => l.valueToken g (readTag flow rest)
    | '\x27' => l.valueToken g ((readSingle .none rest).map (scalarToken .quoted))
    | '"' => l.valueToken g ((readDouble .start rest).map (scalarToken .quoted))
    | c =>
        if c = '-' && atSpace rest then l.dash g
        else if c = '?' && (flow || atSpace rest) then l.explicitKey g
        else if c = ':' && (flow || atSpace rest) then l.colon g
        else if c = '|' && !flow then l.blockScalar .literal rest
        else if c = '>' && !flow then l.blockScalar .folded rest
        else if startsPlain flow c rest then l.plainScalar g (g :: rest)
        else none

/-- The count of tokens that are handed on, with this glyph coming next: no key can
come in between them any more. None if a key that must be there cannot be one. -/
def ready? (l : Layout) (g : Glyph) : Option Nat := do
  let l ← l.dropStale g
  let places := (l.candidate :: l.outer).filterMap (·.map Candidate.token)
  return places.foldl min l.count

def step (l : Layout) (g : Glyph) (rest : List Glyph) : Option Layout := do
  let l ← l.dropStale g
  (l.unindentTo g.column).token g rest

/-- At the end all candidates are left. -/
def finish (l : Layout) : Option (List Token) := do
  let l ← l.unindent.dropCandidate
  if l.outer.any (·.any Candidate.required) then none else return l.tokens.reverse

def breakOff (l : Layout) (ready : Nat) : List Token := l.tokens.reverse.take ready ++ [.broken]

/-- Reads tokens until the end or until none can be told, `ready` of them handed on
so far; `fuel` bounds their count. -/
def run (ending : Glyph) : Nat → Nat → Layout → List Token
  | 0, ready, l => l.breakOff ready
  | fuel + 1, ready, l =>
      match l.ready? (l.rest.head?.getD ending) with
      | none => l.breakOff ready
      | some ready =>
          match l.skip.rest with
          | [] => l.skip.finish.getD (l.breakOff ready)
          | g :: rest =>
              match l.skip.step g rest with
              | some next => run ending fuel ready next
              | none => l.breakOff ready

end Layout

/-- The tokens of a document. Each reading takes at least one glyph, so there are
no more of them than glyphs. Characters are checked before any token is told. -/
def tokens (document : String) : List Token :=
  match glyphs? document with
  | some gs => Layout.run (Glyph.ending gs) (gs.length + 1) 0 { rest := gs }
  | none => [.broken]

end Protoscribe.Yaml
