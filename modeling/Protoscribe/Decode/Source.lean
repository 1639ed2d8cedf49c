import Protoscribe.Decode.Failure

/-!
What a document format offers to the readers of typed values. A reader asks a
value for the form that it needs and gets that form or a failure; each format
says for itself which of its values have which form. The parts of a value are
read one by one, so the first failure in document order is the one reported.
-/

namespace Protoscribe.Decode

/-- One entry of a map, its key still unread. -/
structure Entry (ν : Type) (m : Type → Type) where
  step : Step
  name : Wanted → m String
  value : ν

/-- The form of a record: its fields by name, or one after the other. -/
inductive RecordForm (ν : Type) (m : Type → Type) where
  | named (entries : List (Entry ν m))
  | listed (values : List ν)

inductive SelectionForm where
  | text (value : String)
  | names (values : List String)
  | other
  deriving DecidableEq, Repr

class Source (ν : Type) (m : outParam (Type → Type)) [Monad m] where
  fail {α : Type} : Failure → m α
  /-- Changes the failure of a reading that fails. -/
  annotate {α : Type} : (Failure → Failure) → m α → m α
  text : ν → m String
  boolean : ν → m Bool
  /-- A natural number of 32 bits. -/
  word : ν → m Nat
  /-- The value itself, or none if it stands for an absent one. -/
  optional : ν → m (Option ν)
  items : ν → m (List ν)
  entries : ν → m (List (Entry ν m))
  record : String → ν → m (RecordForm ν m)
  selection : ν → m SelectionForm

variable {ν : Type} {m : Type → Type} [Monad m] [Source ν m] {α : Type}

/-- Reads the value at hand: a failure that has no place yet arose here. -/
def here (ν : Type) {m : Type → Type} [Monad m] [Source ν m] {α : Type} (reading : m α) : m α :=
  Source.annotate ν Failure.locate reading

def inside (ν : Type) {m : Type → Type} [Monad m] [Source ν m] {α : Type}
    (step : Step) (reading : m α) : m α :=
  Source.annotate ν (Failure.under step) reading

def readOptional (read : ν → m α) (value : ν) : m (Option α) := do
  match ← Source.optional value with
  | none => return none
  | some present => return some (← read present)

def readItemsFrom (read : ν → m α) : Nat → List ν → m (List α)
  | _, [] => return []
  | position, item :: rest => do
      let first ← inside ν (.index position) (read item)
      let others ← readItemsFrom read (position + 1) rest
      return first :: others

def readList (read : ν → m α) (value : ν) : m (List α) :=
  here ν do readItemsFrom read 0 (← Source.items value)

def readEntries (read : ν → m α) : List (Entry ν m) → m (List (String × α))
  | [] => return []
  | entry :: rest => do
      let name ← entry.name .text
      let first ← inside ν entry.step (read entry.value)
      let others ← readEntries read rest
      return (name, first) :: others

end Protoscribe.Decode
