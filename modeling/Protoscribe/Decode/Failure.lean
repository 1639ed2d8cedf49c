import Protoscribe.Text

/-!
Why a document does not hold the value that is asked of it. A failure has a
cause and, once it is known, the place in the document where it arose.
-/

namespace Protoscribe.Decode

/-- What stands in the document. -/
inductive Found where
  | text (value : String)
  | natural (value : Nat)
  | integer (value : Int)
  | wideNatural (value : Nat)
  | wideInteger (value : Int)
  | real (digits : String)
  | boolean (value : Bool)
  | list
  | mapping
  | null
  | unit
  deriving DecidableEq, Repr

def Found.message : Found → String
  | .text value => "string " ++ Text.quote value
  | .natural value => "integer `" ++ toString value ++ "`"
  | .integer value => "integer `" ++ toString value ++ "`"
  | .wideNatural value => "integer `" ++ toString value ++ "` as u128"
  | .wideInteger value => "integer `" ++ toString value ++ "` as i128"
  | .real digits => "floating point `" ++ digits ++ "`"
  | .boolean true => "boolean `true`"
  | .boolean false => "boolean `false`"
  | .list => "sequence"
  | .mapping => "map"
  | .null => "null"
  | .unit => "unit value"

/-- What is asked of the document. -/
inductive Wanted where
  | text
  | boolean
  | integer
  | real
  | null
  | word
  | list
  | record (name : String)
  | fieldName
  | mapping
  | anything
  deriving DecidableEq, Repr

def Wanted.message : Wanted → String
  | .text => "a string"
  | .boolean => "a boolean"
  | .integer => "an integer"
  | .real => "a float"
  | .null => "null"
  | .word => "u32"
  | .list => "a sequence"
  | .record name => "struct " ++ name
  | .fieldName => "field identifier"
  | .mapping => "a map with string keys"
  | .anything => "any value"

inductive Cause where
  /-- Something of another kind stands there. -/
  | wrongType (found : Found) (wanted : Wanted)
  /-- The kind is right and the value is not among those allowed. -/
  | wrongValue (found : Found) (wanted : Wanted)
  /-- A record lacks a required field. -/
  | missing (field : String)
  /-- A record gives a field twice. -/
  | repeated (field : String)
  /-- A record written as a list ends before a required field. -/
  | tooShort (length : Nat) (record : String) (fields : Nat)
  /-- A field selection is a text other than the wildcard. -/
  | strangeSelection (text : String)
  /-- A field selection is neither a text nor a list of texts. -/
  | noSelection
  /-- A value inside a field selection carries a tag of its own. -/
  | taggedSelection
  /-- The lists and maps that are looked at nest too deep. -/
  | tooDeep
  /-- References were followed too often. -/
  | tooManyReferences
  /-- The document is not well formed after all. -/
  | malformed
  deriving DecidableEq, Repr

def Cause.message : Cause → String
  | .wrongType found wanted =>
      "invalid type: " ++ found.message ++ ", expected " ++ wanted.message
  | .wrongValue found wanted =>
      "invalid value: " ++ found.message ++ ", expected " ++ wanted.message
  | .missing field => "missing field `" ++ field ++ "`"
  | .repeated field => "duplicate field `" ++ field ++ "`"
  | .tooShort length record fields =>
      "invalid length " ++ toString length ++ ", expected struct " ++ record ++ " with " ++
        toString fields ++ " elements"
  | .strangeSelection text =>
      "message fields must be \"*\" or a list of field names, got \"" ++ text ++ "\""
  | .noSelection => "data did not match any variant of untagged enum RawMessageFields"
  | .taggedSelection => "untagged and internally tagged enums do not support enum input"
  | .tooDeep => "recursion limit exceeded"
  | .tooManyReferences => "repetition limit exceeded"
  | .malformed => "malformed document"

/-- One step from a value to a part of it. -/
inductive Step where
  | key (name : String)
  | index (position : Nat)
  /-- A part under a key that is no plain text. -/
  | unnamed
  deriving DecidableEq, Repr

def rootPlace : String := "."

def Step.extend (place : Option String) : Step → String
  | .index position => place.getD rootPlace ++ "[" ++ toString position ++ "]"
  | .key name => (place.map (· ++ ".")).getD "" ++ name
  | .unnamed => (place.map (· ++ ".")).getD "" ++ "?"

def placeText (steps : List Step) : String :=
  (steps.foldl (fun place step => some (step.extend place)) none).getD rootPlace

/-- The limits on depth and on references are reported without a place. -/
def Cause.hasPlace : Cause → Bool
  | .tooDeep | .tooManyReferences => false
  | _ => true

structure Failure where
  cause : Cause
  place : Option (List Step) := none
  deriving DecidableEq, Repr

namespace Failure

/-- A failure without a place takes the place of the value at hand. -/
def locate (failure : Failure) : Failure :=
  if failure.cause.hasPlace then { failure with place := some (failure.place.getD []) }
  else failure

/-- A failure in a part, seen from the whole. -/
def under (step : Step) (failure : Failure) : Failure :=
  { failure with place := failure.place.map (step :: ·) }

/-- The wording with the place in front, unless that is the whole document. -/
def message (failure : Failure) : String :=
  match failure.place with
  | none => failure.cause.message
  | some steps =>
      let place := placeText steps
      if place = rootPlace then failure.cause.message
      else place ++ ": " ++ failure.cause.message

end Failure

end Protoscribe.Decode
