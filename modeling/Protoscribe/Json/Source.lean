import Protoscribe.Decode.Source
import Protoscribe.Error
import Protoscribe.Json.Magnitude
import Protoscribe.Json.Reader

/-!
JSON as a source of typed values. A record may also be written as a list of its
fields, null stands for an absent value, and a field selection is read as a
whole before its form is looked at: numbers in it must be in range, strings must
have a text, and with what surrounds it it may nest 127 levels.
-/

namespace Protoscribe.Json

open Decode Decimal

/-- A value in a document, and how many levels may still be opened there. -/
structure Cursor where
  value : Json
  levels : Nat
  deriving Repr, Inhabited

def maxLevels : Nat := 127

def Cursor.root (value : Json) : Cursor := ⟨value, maxLevels⟩

def Cursor.part (cursor : Cursor) (value : Json) : Cursor := ⟨value, cursor.levels - 1⟩

abbrev Reading := Except Failure

/-- What a value is, none if it only looks well formed. -/
def found? : Json → Option Found
  | .null => some .null
  | .boolean value => some (.boolean value)
  | .number literal => literal.value?.map fun
      | .natural value => .natural value
      | .negative value => .integer value
      | .real negative magnitude => .real (Number.realLayout.text negative magnitude)
  | .string text => text.map .text
  | .array _ => some .list
  | .object _ => some .mapping

def refuse (value : Json) (wanted : Wanted) : Failure :=
  match found? value with
  | some found => ⟨.wrongType found wanted, none⟩
  | none => ⟨.malformed, none⟩

def whole (text : Text) : Reading String :=
  match text with
  | some text => .ok text
  | none => .error { cause := .malformed }

def maxWord : Nat := twoTo 32 - 1

def Cursor.word (cursor : Cursor) : Reading Nat :=
  match cursor.value with
  | .number literal =>
      match literal.value? with
      | some (.natural value) =>
          if value ≤ maxWord then .ok value
          else .error { cause := .wrongValue (.natural value) .word }
      | some (.negative value) => .error { cause := .wrongValue (.integer value) .word }
      | _ => .error (refuse cursor.value .word)
  | value => .error (refuse value .word)

def Cursor.entry (cursor : Cursor) (member : Text × Json) : Entry Cursor Reading where
  step := .key (member.1.getD "")
  name := fun _ => whole member.1
  value := cursor.part member.2

mutual

/-- The value can be read as a whole without opening more levels than given. -/
def readable (levels : Nat) : Json → Bool
  | .null | .boolean _ => true
  | .number literal => literal.value?.isSome
  | .string text => text.isSome
  | .array items => 0 < levels && readableItems (levels - 1) items
  | .object members => 0 < levels && readableMembers (levels - 1) members

def readableItems (levels : Nat) : List Json → Bool
  | [] => true
  | item :: items => readable levels item && readableItems levels items

def readableMembers (levels : Nat) : List (Text × Json) → Bool
  | [] => true
  | (name, value) :: members =>
      name.isSome && readable levels value && readableMembers levels members

end

def text? : Json → Option String
  | .string text => text
  | _ => none

def selectionForm : Json → SelectionForm
  | .string (some text) => .text text
  | .array items =>
      match items.mapM text? with
      | some names => .names names
      | none => .other
  | _ => .other

instance : Source Cursor Reading where
  fail := .error
  annotate change reading := reading.mapError change
  text cursor :=
    match cursor.value with
    | .string text => whole text
    | value => .error (refuse value .text)
  boolean cursor :=
    match cursor.value with
    | .boolean value => .ok value
    | value => .error (refuse value .boolean)
  word := Cursor.word
  optional cursor :=
    match cursor.value with
    | .null => .ok none
    | _ => .ok (some cursor)
  items cursor :=
    match cursor.value with
    | .array items => .ok (items.map cursor.part)
    | value => .error (refuse value .list)
  entries cursor :=
    match cursor.value with
    | .object members => .ok (members.map cursor.entry)
    | value => .error (refuse value .mapping)
  record name cursor :=
    match cursor.value with
    | .object members => .ok (.named (members.map cursor.entry))
    | .array items => .ok (.listed (items.map cursor.part))
    | value => .error (refuse value (.record name))
  selection cursor :=
    if readable cursor.levels cursor.value then .ok (selectionForm cursor.value)
    else .error { cause := .malformed }

/-- Failures in JSON are reported without their place. -/
def fault (failure : Failure) : DocumentFault :=
  match failure.cause with
  | .malformed => .malformed
  | cause => .mistyped cause.message

/-- Reads a typed value from a document, in document order: a document is refused
for what comes first, a value that does not fit or a break of the grammar. -/
def decode {α : Type} (read : Cursor → Reading α) (document : String) :
    Except DocumentFault α :=
  readScanned .malformed (fun value => (read (.root value)).mapError fault) (scan document)

/-- A document that keeps the grammar is read by its value. -/
theorem decode_of_read? {α : Type} (read : Cursor → Reading α) {document : String}
    {value : Json} (h : read? document = some value) :
    decode read document = (read (.root value)).mapError fault :=
  readScanned_of_toOption h

/-- A document gives a result exactly if it keeps the grammar and its value does. -/
theorem decode_eq_ok_iff {α : Type} {read : Cursor → Reading α} {document : String}
    {found : α} :
    decode read document = .ok found ↔
      ∃ value, read? document = some value ∧ read (.root value) = .ok found := by
  rw [decode, readScanned_eq_ok_iff]
  exact exists_congr fun value => and_congr_right fun _ => mapError_eq_ok_iff

end Protoscribe.Json
