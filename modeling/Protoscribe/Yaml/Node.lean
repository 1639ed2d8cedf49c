import Protoscribe.Yaml.Token

/-!
The tree of a YAML document. An alias refers to an anchored node; how it does so
is a parameter: by the name of the anchor as long as only the text is known, and
by its slot once the anchors of the document are counted. Of a document that breaks
its grammar, the tree holds what stands in front of the break.
-/

namespace Protoscribe.Yaml

inductive Node (ρ : Type) where
  | scalar (anchor : Option ρ) (tag : Option Tag) (text : String) (style : Style)
  | list (anchor : Option ρ) (tag : Option Tag) (items : List (Node ρ))
  | mapping (anchor : Option ρ) (tag : Option Tag) (pairs : List (Node ρ × Node ρ))
  | alias (target : ρ)
  /-- The document breaks off here; a list or map that breaks off ends with this. -/
  | broken
  deriving Repr, Inhabited

namespace Node

variable {ρ : Type}

/-- What stands where a value is left out. -/
def absent : Node ρ := .scalar none none "" .plain

mutual

/-- The count of events that walking through a node meets. A list or map has one
for its start and, unless it breaks off, one for its end. -/
def events : Node ρ → Nat
  | .scalar .. | .alias _ => 1
  | .list _ _ items => 1 + eventsOfItems items
  | .mapping _ _ pairs => 1 + eventsOfPairs pairs
  | .broken => 0

def eventsOfItems : List (Node ρ) → Nat
  | [] => 1
  | .broken :: _ => 0
  | item :: items => item.events + eventsOfItems items

def eventsOfPairs : List (Node ρ × Node ρ) → Nat
  | [] => 1
  | (.broken, _) :: _ => 0
  | (key, value) :: pairs => key.events + value.events + eventsOfPairs pairs

end

mutual

def anchored : Node ρ → List (ρ × Node ρ)
  | .scalar anchor tag text style =>
      anchor.toList.map fun slot => (slot, .scalar anchor tag text style)
  | .list anchor tag items =>
      (anchor.toList.map fun slot => (slot, .list anchor tag items)) ++ anchoredInItems items
  | .mapping anchor tag pairs =>
      (anchor.toList.map fun slot => (slot, .mapping anchor tag pairs)) ++ anchoredInPairs pairs
  | .alias _ | .broken => []

def anchoredInItems : List (Node ρ) → List (ρ × Node ρ)
  | [] => []
  | item :: items => item.anchored ++ anchoredInItems items

def anchoredInPairs : List (Node ρ × Node ρ) → List (ρ × Node ρ)
  | [] => []
  | (key, value) :: pairs => key.anchored ++ value.anchored ++ anchoredInPairs pairs

end

end Node

end Protoscribe.Yaml
