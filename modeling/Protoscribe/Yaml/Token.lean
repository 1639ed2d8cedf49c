/-!
The tokens of a YAML document. The start and the end of block collections, which
a document shows by indentation only, are tokens too, and each entry of a
mapping has a key token and a value token.
-/

namespace Protoscribe.Yaml

abbrev Tag := List UInt8

namespace Tag

def ofChars (cs : List Char) : Tag := cs.map fun c => c.toNat.toUInt8

def ofText (text : String) : Tag := ofChars text.toList

def coreStem : Tag := ofText "tag:yaml.org,2002:"

def boolean : Tag := coreStem ++ ofText "bool"

def integer : Tag := coreStem ++ ofText "int"

def real : Tag := coreStem ++ ofText "float"

def null : Tag := coreStem ++ ofText "null"

/-- The tag that only says that there is one. -/
def bare : Tag := ofText "!"

/-- The tag belongs to the application and not to the format. -/
def isLocal (tag : Tag) : Bool := tag.head? = bare.head?

/-- A local tag that says something, in octets that make a text. -/
def isNamed (tag : Tag) : Bool :=
  tag.isLocal && tag.length ≠ 1 && (String.fromUTF8? ⟨(tag.drop 1).toArray⟩).isSome

end Tag

inductive Style where
  | plain
  | quoted
  | literal
  | folded
  deriving DecidableEq, Repr, Inhabited

inductive Token where
  | version (major minor : Nat)
  /-- A handle that stands for the stem of tags. -/
  | stem (handle : String) (stem : Tag)
  | documentStart
  | documentEnd
  | blockList
  | blockMapping
  | blockEnd
  | openList
  | closeList
  | openMapping
  | closeMapping
  | entry
  | comma
  | key
  | value
  | anchor (name : String)
  | alias (name : String)
  /-- An alias of a name that no anchor in front of it gives. -/
  | stray
  /-- A tag whose handle is still to be looked up; none if the tag is whole. -/
  | tag (handle : Option String) (suffix : Tag)
  | scalar (text : String) (style : Style)
  /-- The text has no further token that could be told. -/
  | broken
  deriving DecidableEq, Repr, Inhabited

end Protoscribe.Yaml
