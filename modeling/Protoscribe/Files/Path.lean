/-!
Paths as text. A path is cut at slashes into segments; empty segments and single
dots say nothing, except for a dot in front of all else.
-/

namespace Protoscribe.Files

/-- Splits at slashes; there is always at least one segment. -/
def segments : List Char → List (List Char)
  | [] => [[]]
  | '/' :: rest => [] :: segments rest
  | c :: rest =>
      match segments rest with
      | [] => [[c]]
      | first :: others => (c :: first) :: others

def isTrivial (segment : List Char) : Bool := segment = [] || segment = ['.']

/-- The name that a path ends in, unless that is a step to the parent. -/
def fileName? (path : List Char) : Option (List Char) :=
  match ((segments path).filter (!isTrivial ·)).getLast? with
  | some ['.', '.'] => none
  | found => found

/-- What follows the last dot of a file name, unless that dot is in front. -/
def extension? (path : String) : Option String := do
  let name ← fileName? path.toList
  let reversed := name.reverse
  match reversed.dropWhile (· ≠ '.') with
  | [] | ['.'] => none
  | _ :: _ => some (String.ofList (reversed.takeWhile (· ≠ '.')).reverse)

def joinSegments : List (List Char) → List Char
  | [] => []
  | [segment] => segment
  | segment :: rest => segment ++ '/' :: joinSegments rest

/-- The segments without the ones at the end that say nothing, given backwards;
`relative` says that a dot in front of all else counts. -/
def trimSegments (relative : Bool) : List (List Char) → List (List Char)
  | [] => []
  | [segment] =>
      if segment = [] || (!relative && segment = ['.']) then [] else [segment]
  | segment :: rest =>
      if isTrivial segment then trimSegments relative rest else segment :: rest

/-- The path without its last part; a path without parts has no parent. -/
def parentChars? (path : List Char) : Option (List Char) :=
  let absolute := path.head? = some '/'
  let body := if absolute then (segments path).drop 1 else segments path
  match trimSegments (!absolute) body.reverse with
  | [] => none
  | _ :: outer =>
      let kept := (trimSegments (!absolute) outer).reverse
      some ((if absolute then ['/'] else []) ++ joinSegments kept)

def parent? (path : String) : Option String := (parentChars? path.toList).map String.ofList

/-- A path and its parents, as far as `fuel` reaches. -/
def outwardFrom : Nat → String → List String
  | 0, path => [path]
  | fuel + 1, path => path :: ((parent? path).map (outwardFrom fuel)).getD []

/-- A path, its parent, and so on outward. A parent is shorter than its path. -/
def outward (path : String) : List String := outwardFrom path.length path

end Protoscribe.Files
