import Protoscribe.Yaml.Gap
import Protoscribe.Yaml.Glyph

/-!
Plain scalars: text without quotes. It ends in front of a value indicator, of a
comment, of a document marker, of a flow indicator inside a flow collection, and
outside of one also where a line is not indented enough.
-/

namespace Protoscribe.Yaml

/-- The characters that end a plain scalar inside a flow collection. -/
def flowIndicators : List Char := ",[]\x7b\x7d".toList

/-- The characters that may not follow a colon inside a flow collection. -/
def colonStops : List Char := ",?[]\x7b\x7d".toList

/-- The characters that start no plain scalar, a dash, a question mark and a
colon excepted. -/
def indicators : List Char := ",[]\x7b\x7d#&*!|>\x27\"%@\x60".toList

/-- A plain scalar starts here; the three excepted characters start one in front
of more text, the last two only outside of flow collections. -/
def startsPlain (flow : Bool) (c : Char) (rest : List Glyph) : Bool :=
  if c = '-' then !atSpace rest
  else if c = '?' || c = ':' then !flow && !atSpace rest
  else !isBlank c && !isBreak c && !indicators.contains c

/-- Where a plain scalar ends: its text, what follows the space behind it, and
whether that space goes over a line. -/
structure PlainEnd where
  text : List Char
  rest : List Glyph
  crossed : Bool
  deriving DecidableEq, Repr

def endsAfterGap (flow : Bool) (margin : Nat) (g : Glyph) (rest : List Glyph) : Bool :=
  g.char = '#' || atMarker (g :: rest) || (!flow && g.column < margin)

def endsPlain (flow : Bool) (g : Glyph) (rest : List Glyph) : Bool :=
  (g.char = ':' && atSpace rest) || (flow && flowIndicators.contains g.char)

/-- Reads on behind a gap; `margin` is the first column that is indented enough.
A tab in front of it is an error, and so is, inside a flow collection, a colon
with an indicator behind it. -/
def readPlain (flow : Bool) (margin : Nat) (gap : Gap) : List Glyph → Option PlainEnd
  | [] => some ⟨[], [], gap.hasBreak⟩
  | g :: rest =>
      if isBlank g.char then
        if gap.hasBreak && g.column < margin && g.char = '\t' then none
        else readPlain flow margin (gap.addBlank g.char) rest
      else if isBreak g.char then readPlain flow margin (gap.addBreak g.char) rest
      else if gap ≠ .none && endsAfterGap flow margin g rest then
        some ⟨[], g :: rest, gap.hasBreak⟩
      else if flow && g.char = ':' && (next? rest).any colonStops.contains then none
      else if endsPlain flow g rest then some ⟨[], g :: rest, gap.hasBreak⟩
      else do
        let found ← readPlain flow margin .none rest
        return { found with text := gap.chars ++ g.char :: found.text }

end Protoscribe.Yaml
