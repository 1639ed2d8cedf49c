import Protoscribe.Decode.Scan
import Protoscribe.Yaml.Node

/-!
From tokens to the tree of the one document that they may hold. A value that is
left out is an absent node. Handles of tags are looked up among the directives
in front of the document. A node is there as soon as the token behind it is seen
not to belong to it, so where the tokens break off nothing is left out.
-/

namespace Protoscribe.Yaml

open Decode

/-- The stems that handles stand for, the first of a handle counts. -/
abbrev Stems := List (String × Tag)

/-- The handles that need no directive. -/
def Stems.standard : Stems := [("!", Tag.bare), ("!!", Tag.coreStem)]

abbrev NodeScan := Scan Token (Node String)

abbrev Pair := Node String × Node String

/-- Where a mapping breaks off, this stands behind its last pair. -/
def brokenPair : Pair := (.broken, .broken)

structure Properties where
  anchor : Option String := none
  tag : Option Tag := none
  deriving DecidableEq, Repr, Inhabited

namespace Properties

def isEmpty (properties : Properties) : Bool :=
  properties.anchor.isNone && properties.tag.isNone

/-- A handle that stands for nothing is an error. -/
def wholeTag? (stems : Stems) (handle : Option String) (suffix : Tag) : Option Tag :=
  match handle with
  | none => some suffix
  | some handle => (stems.lookup handle).map (· ++ suffix)

/-- An anchor and a tag, each at most once and in either order. -/
def read? (stems : Stems) : List Token → Option (Properties × List Token)
  | .anchor name :: .tag handle suffix :: rest
  | .tag handle suffix :: .anchor name :: rest => do
      return (⟨some name, some (← wholeTag? stems handle suffix)⟩, rest)
  | .anchor name :: rest => some (⟨some name, none⟩, rest)
  | .tag handle suffix :: rest => do
      return (⟨none, some (← wholeTag? stems handle suffix)⟩, rest)
  | tokens => some ({}, tokens)

end Properties

/-- What a place in a document lets a node be. -/
structure Setting where
  /-- Block collections may start here. -/
  block : Bool
  /-- A block list may start here without being indented. -/
  indentless : Bool

namespace Setting

def flow : Setting := ⟨false, false⟩

def item : Setting := ⟨true, false⟩

def pair : Setting := ⟨true, true⟩

end Setting

/-- A scalar; the bare tag on it says nothing. -/
def scalarNode (properties : Properties) (text : String) (style : Style) : Node String :=
  .scalar properties.anchor (properties.tag.filter (· ≠ .bare)) text style

namespace Grammar

/-- Nothing can be told of the next token. -/
def breaksOff : List Token → Bool
  | .broken :: _ => true
  | _ => false

/-- A value without its token is left out, once the next token is known. -/
def leftOut (tokens : List Token) : NodeScan :=
  if breaksOff tokens then .broken .broken else .whole .absent tokens

/-- A collection that ends without a token of its own ends once the next is known. -/
def endHere {α : Type} (stop : α) (tokens : List Token) : Scan Token (List α) :=
  if breaksOff tokens then .broken [stop] else .whole [] tokens

/-- The next token is one of those in front of which a value is left out. -/
def endsBlockPair : List Token → Bool
  | .key :: _ | .value :: _ | .blockEnd :: _ => true
  | _ => false

def endsBlockItem : List Token → Bool
  | .entry :: _ | .blockEnd :: _ => true
  | _ => false

def endsIndentlessItem (tokens : List Token) : Bool :=
  endsBlockPair tokens || endsBlockItem tokens

def endsListItem : List Token → Bool
  | .comma :: _ | .closeList :: _ => true
  | _ => false

def endsMappingItem : List Token → Bool
  | .comma :: _ | .closeMapping :: _ => true
  | _ => false

mutual

def node : Nat → Stems → Setting → List Token → NodeScan
  | 0, _, _, _ => .broken .broken
  | _ + 1, _, _, .alias name :: rest => .whole (.alias name) rest
  | fuel + 1, stems, setting, tokens =>
      match Properties.read? stems tokens with
      | some (properties, rest) => content fuel stems setting properties rest
      | none => .broken .broken

/-- A node behind its properties. The alternatives are tried by the next token;
`fuel` bounds the depth of the calls. -/
def content : Nat → Stems → Setting → Properties → List Token → NodeScan
  | 0, _, _, _, _ => .broken .broken
  | fuel + 1, stems, setting, properties, tokens =>
      let list := Node.list properties.anchor properties.tag
      let mapping := Node.mapping properties.anchor properties.tag
      match tokens with
      | .scalar text style :: rest => .whole (scalarNode properties text style) rest
      | .openList :: rest => (listItems fuel stems true rest).map list
      | .openMapping :: rest => (mappingPairs fuel stems true rest).map mapping
      | tokens =>
          match setting.block, setting.indentless, tokens with
          | _, true, .entry :: _ => (indentlessItems fuel stems tokens).map list
          | true, _, .blockList :: rest => (blockItems fuel stems rest).map list
          | true, _, .blockMapping :: rest => (blockPairs fuel stems rest).map mapping
          | _, _, tokens =>
              if properties.isEmpty || breaksOff tokens then .broken .broken
              else .whole (.scalar properties.anchor properties.tag "" .plain) tokens

def nodeUnless : Nat → Stems → Setting → Bool → List Token → NodeScan
  | 0, _, _, _, _ => .broken .broken
  | _ + 1, _, _, true, tokens => .whole .absent tokens
  | fuel + 1, stems, setting, false, tokens => node fuel stems setting tokens

def blockItems : Nat → Stems → List Token → Scan Token (List (Node String))
  | fuel + 1, stems, .entry :: rest =>
      (nodeUnless fuel stems .item (endsBlockItem rest) rest).cons .broken
        (blockItems fuel stems)
  | _ + 1, _, .blockEnd :: rest => .whole [] rest
  | _, _, _ => .broken [.broken]

/-- The list ends with its last entry, without a token of its own. -/
def indentlessItems : Nat → Stems → List Token → Scan Token (List (Node String))
  | 0, _, _ => .broken [.broken]
  | fuel + 1, stems, .entry :: rest =>
      (nodeUnless fuel stems .item (endsIndentlessItem rest) rest).cons .broken
        (indentlessItems fuel stems)
  | _ + 1, _, tokens => endHere .broken tokens

/-- The value behind a key; without its token it is left out. -/
def blockValue : Nat → Stems → List Token → NodeScan
  | fuel + 1, stems, .value :: rest => nodeUnless fuel stems .pair (endsBlockPair rest) rest
  | _, _, tokens => leftOut tokens

def blockPairs : Nat → Stems → List Token → Scan Token (List Pair)
  | fuel + 1, stems, .key :: rest =>
      ((nodeUnless fuel stems .pair (endsBlockPair rest) rest).pair .broken
        (blockValue fuel stems)).cons brokenPair (blockPairs fuel stems)
  | _ + 1, _, .blockEnd :: rest => .whole [] rest
  | _, _, _ => .broken [brokenPair]

/-- The items of a flow list. All but the first come behind a comma, and one may
also stand behind the last. An item with a key token is a mapping of one pair. -/
def listItems : Nat → Stems → Bool → List Token → Scan Token (List (Node String))
  | 0, _, _, _ => .broken [.broken]
  | _ + 1, _, _, .closeList :: rest => .whole [] rest
  | _ + 1, _, false, .comma :: .closeList :: rest => .whole [] rest
  | fuel + 1, stems, false, .comma :: rest => listItem fuel stems rest
  | _ + 1, _, false, _ => .broken [.broken]
  | fuel + 1, stems, true, tokens => listItem fuel stems tokens

def listItem : Nat → Stems → List Token → Scan Token (List (Node String))
  | fuel + 1, stems, .key :: rest =>
      (((singlePair fuel stems rest).cons brokenPair (endHere brokenPair)).map
        (.mapping none none)).cons .broken (listItems fuel stems false)
  | fuel + 1, stems, tokens =>
      (node fuel stems .flow tokens).cons .broken (listItems fuel stems false)
  | 0, _, _ => .broken [.broken]

/-- The pair of a mapping that stands as an item. The token in front of which
its key is left out is passed over. -/
def singlePair : Nat → Stems → List Token → Scan Token Pair
  | 0, _, _ => .broken brokenPair
  | fuel + 1, stems, .value :: rest | fuel + 1, stems, .comma :: rest
  | fuel + 1, stems, .closeList :: rest =>
      (Scan.whole .absent rest).pair .broken (flowValue fuel stems endsListItem)
  | fuel + 1, stems, tokens =>
      (node fuel stems .flow tokens).pair .broken (flowValue fuel stems endsListItem)

/-- The value of a pair inside a flow collection. -/
def flowValue : Nat → Stems → (List Token → Bool) → List Token → NodeScan
  | fuel + 1, stems, ends, .value :: rest => nodeUnless fuel stems .flow (ends rest) rest
  | _, _, _, tokens => leftOut tokens

/-- The pairs of a flow mapping, with commas as in a flow list. -/
def mappingPairs : Nat → Stems → Bool → List Token → Scan Token (List Pair)
  | 0, _, _, _ => .broken [brokenPair]
  | _ + 1, _, _, .closeMapping :: rest => .whole [] rest
  | _ + 1, _, false, .comma :: .closeMapping :: rest => .whole [] rest
  | fuel + 1, stems, false, .comma :: rest => mappingPair fuel stems rest
  | _ + 1, _, false, _ => .broken [brokenPair]
  | fuel + 1, stems, true, tokens => mappingPair fuel stems tokens

/-- A pair and those behind it. A node without a key token is a key whose value
is left out. -/
def mappingPair : Nat → Stems → List Token → Scan Token (List Pair)
  | 0, _, _ => .broken [brokenPair]
  | fuel + 1, stems, .key :: rest =>
      let left := endsMappingItem rest || rest.head? = some .value
      ((nodeUnless fuel stems .flow left rest).pair .broken
        (flowValue fuel stems endsMappingItem)).cons brokenPair (mappingPairs fuel stems false)
  | fuel + 1, stems, tokens =>
      ((node fuel stems .flow tokens).pair .broken leftOut).cons brokenPair
        (mappingPairs fuel stems false)

end

/-- The directives in front of a document: at most one version, which must be
known, and each handle once. -/
def directives (version : Bool) (stems : Stems) : List Token → Option (Stems × List Token)
  | .version major minor :: rest =>
      if !version && major = 1 && (minor = 1 || minor = 2) then directives true stems rest
      else none
  | .stem handle stem :: rest =>
      if (stems.lookup handle).isSome then none
      else directives version ((handle, stem) :: stems) rest
  | tokens => some (stems ++ Stems.standard, tokens)

/-- The content behind the marker of a document may be left out. -/
def endsDocument : List Token → Bool
  | [] => true
  | .version .. :: _ | .stem .. :: _ | .documentStart :: _ | .documentEnd :: _ => true
  | _ => false

def marked (fuel : Nat) (tokens : List Token) : NodeScan :=
  match directives false [] tokens with
  | some (stems, .documentStart :: rest) =>
      nodeUnless fuel stems .item (endsDocument rest) rest
  | _ => .broken .broken

/-- The tree of the only document; no tokens at all stand for an absent node. -/
def document (fuel : Nat) (tokens : List Token) : Except (Node String) (Node String) :=
  let root : NodeScan :=
    match tokens with
    | [] => .whole .absent []
    | .version .. :: _ | .stem .. :: _ | .documentStart :: _ => marked fuel tokens
    | tokens => node fuel .standard .item tokens
  root.last (·.all (· = .documentEnd))

end Grammar

/-- The tree that tokens form, or the part of it in front of the first break. Each
call of the grammar takes a token, or passes the turn to one that does, so the depth
of the calls is bounded. -/
def Node.ofTokens (tokens : List Token) : Except (Node String) (Node String) :=
  Grammar.document (5 * tokens.length + 5) tokens

end Protoscribe.Yaml
