import Protoscribe.Decode.Source
import Protoscribe.Error
import Protoscribe.Yaml.Anchor
import Protoscribe.Yaml.Resolve

/-!
YAML as a source of typed values. Where a text is asked for, every scalar is
taken by its text; where a list or a map is asked for, an absent value is an
empty one. Aliases are followed wherever a value is looked at, and the count of
all that are followed is bounded by the size of the document. A failure carries
the place of the value where it arose.
-/

namespace Protoscribe.Yaml

open Decode Decimal

/-- A value in a document, and how many levels may still be opened there. -/
structure Cursor where
  document : Document
  node : Node Nat
  levels : Nat
  deriving Repr, Inhabited

def maxLevels : Nat := 128

def Cursor.root (document : Document) : Cursor := ⟨document, document.root, maxLevels⟩

/-- A reading keeps the count of the aliases that were followed. -/
abbrev Reading := StateT Nat (Except Failure)

/-- How often aliases may be followed for each event of a document. -/
def aliasesPerEvent : Nat := 100

/-- The node itself, or the one that an alias refers to. -/
def follow (document : Document) : Node Nat → Reading (Node Nat)
  | .alias slot => do
      let count := (← get) + 1
      set count
      if document.events * aliasesPerEvent < count then
        throw { cause := .tooManyReferences }
      match document.target? slot with
      | some node => return node
      | none => throw { cause := .malformed }
  | node => return node

def refuse (wanted : Wanted) : Node Nat → Failure
  | .scalar _ tag text style =>
      match resolve tag text style with
      | .ok found => { cause := .wrongType found wanted }
      | .error cause => { cause }
  | .list .. => { cause := .wrongType .list wanted }
  | .mapping .. => { cause := .wrongType .mapping wanted }
  | .alias _ | .broken => { cause := .malformed }

namespace Cursor

def follow (cursor : Cursor) : Reading Cursor := do
  return { cursor with node := ← Yaml.follow cursor.document cursor.node }

def text (wanted : Wanted) (cursor : Cursor) : Reading String := do
  match (← cursor.follow).node with
  | .scalar _ _ text _ => return text
  | node => throw (refuse wanted node).locate

/-- The style of a scalar lets it be of a kind: a plain one always, a literal one
if the tag of the kind says so. -/
def allows (kind : Tag) (tag : Option Tag) : Style → Bool
  | .plain => true
  | .literal => tag = some kind
  | _ => false

def boolean (cursor : Cursor) : Reading Bool := do
  let node := (← cursor.follow).node
  match node with
  | .scalar _ tag text style =>
      match allows .boolean tag style, booleanWord? text with
      | true, some value => return value
      | _, _ => throw (refuse .boolean node).locate
  | _ => throw (refuse .boolean node).locate

/-- Integers of 64 bits are looked at; of these, 32 bits fit. -/
def word (cursor : Cursor) : Reading Nat := do
  let node := (← cursor.follow).node
  let refused : Reading Nat := throw (refuse .word node).locate
  match node with
  | .scalar _ tag text style =>
      match allows .integer tag style, natural? text with
      | true, some value =>
          if value < twoTo 32 then return value
          else if value < twoTo 64 then
            throw (Failure.locate { cause := .wrongValue (.natural value) .word })
          else refused
      | _, _ => refused
  | _ => refused

/-- A plain null is absent, and so is what a null tag stands in front of. -/
def optional (cursor : Cursor) : Reading (Option Cursor) := do
  let cursor ← cursor.follow
  match cursor.node with
  | .scalar _ none text .plain =>
      return if text = "" || isNullWord text then none else some cursor
  | .scalar _ (some tag) text .plain =>
      if tag ≠ .null then return some cursor
      else if isNullWord text then return none
      else throw { cause := .wrongValue (.text text) .null }
  | _ => return some cursor

def part (cursor : Cursor) (node : Node Nat) : Cursor :=
  ⟨cursor.document, node, cursor.levels - 1⟩

def openLevel (cursor : Cursor) : Reading Unit :=
  if cursor.levels = 0 then throw { cause := .tooDeep } else return

def items (cursor : Cursor) : Reading (List Cursor) := do
  let cursor ← cursor.follow
  match cursor.node with
  | .list _ _ items =>
      cursor.openLevel
      return items.map cursor.part
  | .scalar _ _ "" .plain => return []
  | node => throw (refuse .list node)

/-- A value has its place by the text of its key. -/
def stepTo : Node Nat → Step
  | .scalar _ _ text _ => .key text
  | _ => .unnamed

def entry (cursor : Cursor) (pair : Node Nat × Node Nat) : Entry Cursor Reading where
  step := stepTo pair.1
  name := fun wanted => (cursor.part pair.1).text wanted
  value := cursor.part pair.2

def entriesAs (wanted : Wanted) (cursor : Cursor) : Reading (List (Entry Cursor Reading)) := do
  let cursor ← cursor.follow
  match cursor.node with
  | .mapping _ _ pairs =>
      cursor.openLevel
      return pairs.map cursor.entry
  | .scalar _ _ "" .plain => return []
  | node => throw (refuse wanted node)

end Cursor

/-! ### Field selections -/

/-- Readings inside a value carry the step to the part that fails. -/
def insidePart {α : Type} (step : Step) (reading : Reading α) : Reading α :=
  fun count => (reading count).mapError (Failure.under step)

def lookItems (look : Node Nat → Reading SelectionForm) :
    Nat → List (Node Nat) → Reading (List SelectionForm)
  | _, [] => return []
  | position, item :: items => do
      let first ← insidePart (.index position) (look item)
      return first :: (← lookItems look (position + 1) items)

def lookPairs (look : Node Nat → Reading SelectionForm) :
    List (Node Nat × Node Nat) → Reading Unit
  | [] => return
  | (key, value) :: pairs => do
      let _ ← look key
      let _ ← insidePart (Cursor.stepTo key) (look value)
      lookPairs look pairs

/-- The names of a list that holds nothing but texts. -/
def namesOf (forms : List SelectionForm) : SelectionForm :=
  let text? : SelectionForm → Option String
    | .text value => some value
    | _ => none
  match forms.mapM text? with
  | some names => .names names
  | none => .other

/-- A scalar by what it stands for. The widest integers have no form at all. -/
def formOf : Found → Except Cause SelectionForm
  | .text value => .ok (.text value)
  | .wideNatural value => .error (.wrongType (.wideNatural value) .anything)
  | .wideInteger value => .error (.wrongType (.wideInteger value) .anything)
  | _ => .ok .other

def tagOf : Node Nat → Option Tag
  | .scalar _ tag _ _ | .list _ tag _ | .mapping _ tag _ => tag
  | .alias _ | .broken => none

def lookAt (document : Document) (inner? : Option (Node Nat → Reading SelectionForm))
    (node : Node Nat) : Reading SelectionForm := do
  let node ← follow document node
  if (tagOf node).any Tag.isNamed then throw { cause := .taggedSelection }
  match node, inner? with
  | .scalar _ tag text style, _ =>
      match (resolve tag text style).bind formOf with
      | .ok form => return form
      | .error cause => throw { cause }
  | .alias _, _ | .broken, _ => throw { cause := .malformed }
  | _, none => throw { cause := .tooDeep }
  | .list _ _ items, some inner => return namesOf (← lookItems inner 0 items)
  | .mapping _ _ pairs, some inner => do
      lookPairs inner pairs
      return .other

/-- Looks at a value as a whole; a failure that has no place yet arose in it. -/
def look (document : Document) : Nat → Node Nat → Reading SelectionForm
  | 0, node => fun count => (lookAt document none node count).mapError Failure.locate
  | levels + 1, node => fun count =>
      (lookAt document (some (look document levels)) node count).mapError Failure.locate

instance : Source Cursor Reading where
  fail failure := throw failure
  annotate change reading := fun count => (reading count).mapError change
  text := Cursor.text .text
  boolean := Cursor.boolean
  word := Cursor.word
  optional := Cursor.optional
  items := Cursor.items
  entries := Cursor.entriesAs .mapping
  record name cursor := return .named (← cursor.entriesAs (.record name))
  selection cursor := look cursor.document cursor.levels cursor.node

/-- A break of the grammar is reported without its place. -/
def fault (failure : Failure) : DocumentFault :=
  match failure.cause with
  | .malformed => .malformed
  | _ => .mistyped failure.message

/-- Reads a typed value from a document, in document order: a document is refused
for what comes first, a value that does not fit or a break of the grammar. -/
def decode {α : Type} (read : Cursor → Reading α) (document : String) :
    Except DocumentFault α :=
  readScanned .malformed (fun document => ((read (.root document)).run' 0).mapError fault)
    (Document.scan document)

/-- A text gives a result exactly if it keeps the grammar and its root does. -/
theorem decode_eq_ok_iff {α : Type} {read : Cursor → Reading α} {text : String} {found : α} :
    decode read text = .ok found ↔
      ∃ document, Document.read? text = some document ∧
        (read (.root document)).run' 0 = .ok found := by
  rw [decode, readScanned_eq_ok_iff]
  exact exists_congr fun document => and_congr_right fun _ => mapError_eq_ok_iff

end Protoscribe.Yaml
