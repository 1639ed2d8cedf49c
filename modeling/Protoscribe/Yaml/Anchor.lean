import Protoscribe.OrderedMap
import Protoscribe.Yaml.Grammar
import Protoscribe.Yaml.Layout

/-!
Anchors and aliases. Going through a document, an anchor takes as its slot the
count of different names seen so far, and an alias refers to the slot that its
name has at that point. A later anchor of the same name has a slot of its own;
where two anchors share a slot, the later one holds it. An alias of a name that no
anchor in front of it gives breaks the grammar.
-/

namespace Protoscribe.Yaml

abbrev Names := OrderedMap Nat

/-- A part of the walk through a document. -/
abbrev Naming := StateM Names

/-- An alias that stands in front of every anchor of its name is a stray one. -/
def settleAliases (names : List String) : List Token → List Token
  | [] => []
  | .anchor name :: rest => .anchor name :: settleAliases (name :: names) rest
  | .alias name :: rest =>
      (if names.contains name then .alias name else .stray) :: settleAliases names rest
  | token :: rest => token :: settleAliases names rest

namespace Node

def nameAnchor (anchor : Option String) : Naming (Option Nat) := do
  match anchor with
  | none => return none
  | some name =>
      let names ← get
      set (names.insert name names.size)
      return some names.size

mutual

def name : Node String → Naming (Node Nat)
  | .scalar anchor tag text style => return .scalar (← nameAnchor anchor) tag text style
  | .list anchor tag items => do
      let anchor ← nameAnchor anchor
      return .list anchor tag (← nameItems items)
  | .mapping anchor tag pairs => do
      let anchor ← nameAnchor anchor
      return .mapping anchor tag (← namePairs pairs)
  | .alias target => do
      let names ← get
      match names.get? target with
      | some slot => return .alias slot
      | none => return .broken
  | .broken => return .broken

def nameItems : List (Node String) → Naming (List (Node Nat))
  | [] => return []
  | item :: items => do
      let first ← item.name
      return first :: (← nameItems items)

def namePairs : List (Node String × Node String) → Naming (List (Node Nat × Node Nat))
  | [] => return []
  | (key, value) :: pairs => do
      let key ← key.name
      let value ← value.name
      return (key, value) :: (← namePairs pairs)

end

end Node

structure Document where
  root : Node Nat
  /-- The anchored nodes by their slots, the latest first. -/
  anchors : List (Nat × Node Nat)
  events : Nat
  deriving Repr, Inhabited

namespace Document

def target? (document : Document) (slot : Nat) : Option (Node Nat) :=
  document.anchors.lookup slot

def ofRoot (root : Node Nat) : Document := ⟨root, root.anchored.reverse, root.events⟩

def ofNode (root : Node String) : Document := ofRoot (root.name.run .empty).1

/-- Reads a text that holds at most one document. Of a text that does not, the part
in front of the break is read. -/
def scan (text : String) : Except Document Document :=
  match Node.ofTokens (settleAliases [] (tokens text)) with
  | .ok root => .ok (ofNode root)
  | .error part => .error (ofNode part)

/-- The document of a text, none if it breaks the grammar. -/
def read? (text : String) : Option Document := (scan text).toOption

end Document

end Protoscribe.Yaml
