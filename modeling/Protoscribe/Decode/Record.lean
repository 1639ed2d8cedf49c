import Protoscribe.Decode.Source

/-!
Records: a fixed set of fields, each with a type of its own. The fields of a
record are read in document order into a table with one place per field; a
field that the record does not know is skipped whatever its value, and a field
that is given twice is a failure at its second name. A record written as a list
gives its fields in the order of declaration and may leave off the last ones.
-/

namespace Protoscribe.Decode

/-- The fields of a record in the order of declaration, and their names. -/
structure Shape (κ : Type) where
  name : String
  fields : List κ
  label : κ → String

def Shape.field? {κ : Type} (shape : Shape κ) (name : String) : Option κ :=
  shape.fields.find? fun field => shape.label field = name

/-- A table with one place per field. -/
def Table {κ : Type} (Value : κ → Type) : Type := (field : κ) → Option (Value field)

namespace Table

variable {κ : Type} {Value : κ → Type}

def empty : Table Value := fun _ => none

def set [DecidableEq κ] (table : Table Value) (field : κ) (value : Value field) :
    Table Value :=
  fun other => if h : field = other then some (h ▸ value) else table other

@[simp] theorem set_self [DecidableEq κ] (table : Table Value) (field : κ)
    (value : Value field) : table.set field value field = some value := by
  simp [set]

theorem set_ne [DecidableEq κ] (table : Table Value) {field other : κ}
    (value : Value field) (h : field ≠ other) :
    table.set field value other = table other := by
  simp [set, h]

end Table

/-- A record as read: its table, and the number of its values if it was written
as a list. -/
structure Reading {κ : Type} (Value : κ → Type) where
  table : Table Value
  length : Option Nat

section

variable {κ : Type} [DecidableEq κ] {Value : κ → Type}
variable {ν : Type} {m : Type → Type} [Monad m] [Source ν m]

def readNamed (shape : Shape κ) (read : (field : κ) → ν → m (Value field)) :
    List (Entry ν m) → Table Value → m (Table Value)
  | [], table => return table
  | entry :: rest, table => do
      let name ← entry.name .fieldName
      match shape.field? name with
      | none => readNamed shape read rest table
      | some field =>
          if (table field).isSome then
            Source.fail ν { cause := .repeated (shape.label field) }
          else
            let value ← inside ν entry.step (read field entry.value)
            readNamed shape read rest (table.set field value)

/-- Values beyond the last field make the document malformed. -/
def readListed (read : (field : κ) → ν → m (Value field)) :
    List κ → List ν → Table Value → m (Table Value)
  | _, [], table => return table
  | [], _ :: _, _ => Source.fail ν { cause := .malformed }
  | field :: fields, item :: rest, table => do
      let value ← read field item
      readListed read fields rest (table.set field value)

def Shape.read (shape : Shape κ) (read : (field : κ) → ν → m (Value field)) (value : ν) :
    m (Reading Value) := do
  match ← Source.record shape.name value with
  | .named entries => return ⟨← readNamed shape read entries .empty, none⟩
  | .listed values =>
      return ⟨← readListed read shape.fields values .empty, some values.length⟩

end

def Reading.require {κ : Type} {Value : κ → Type} (ν : Type) {m : Type → Type} [Monad m]
    [Source ν m] (reading : Reading Value) (shape : Shape κ) (field : κ) :
    m (Value field) :=
  match reading.table field, reading.length with
  | some value, _ => return value
  | none, none => Source.fail ν { cause := .missing (shape.label field) }
  | none, some length =>
      Source.fail ν { cause := .tooShort length shape.name shape.fields.length }

/-- The value of a field, or its default where the record leaves it out. -/
def Reading.getD {κ : Type} {Value : κ → Type} (reading : Reading Value) (field : κ)
    (default : Value field) : Value field :=
  (reading.table field).getD default

end Protoscribe.Decode
