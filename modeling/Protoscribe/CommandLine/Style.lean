/-!
Coloured text for terminals. A reset inside the text would end the colour, so it
is followed by the colour again.
-/

namespace Protoscribe.CommandLine

inductive Style where
  | bold
  | dimmed
  | green
  | yellow
  | cyan
  deriving DecidableEq, Repr

namespace Style

def number : Style → String
  | .bold => "1"
  | .dimmed => "2"
  | .green => "32"
  | .yellow => "33"
  | .cyan => "36"

def begin (style : Style) : String := "\x1b[" ++ style.number ++ "m"

def reset : String := "\x1b[0m"

def afterResets (insertion : List Char) : List Char → List Char
  | '\x1b' :: '[' :: '0' :: 'm' :: rest =>
      '\x1b' :: '[' :: '0' :: 'm' :: insertion ++ afterResets insertion rest
  | c :: rest => c :: afterResets insertion rest
  | [] => []

/-- Without colours the text stays as it is. -/
def paint (style : Style) (colors : Bool) (text : String) : String :=
  if colors then
    style.begin ++ String.ofList (afterResets style.begin.toList text.toList) ++ reset
  else text

end Style

end Protoscribe.CommandLine
