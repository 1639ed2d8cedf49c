import Protoscribe.Proto.Document

/-!
The scalar type of each field tag. Dates, decimals and durations travel as
text, and so does every tag that the table does not know.
-/

namespace Protoscribe.Proto

def scalarTypes : List (String × String) :=
  [("AutoField", "int32"),
    ("SmallIntegerField", "int32"),
    ("IntegerField", "int32"),
    ("BigIntegerField", "int64"),
    ("PositiveSmallIntegerField", "int32"),
    ("PositiveIntegerField", "int32"),
    ("FloatField", "float"),
    ("DecimalField", "string"),
    ("BooleanField", "bool"),
    ("NullBooleanField", "bool"),
    ("DateField", "string"),
    ("TimeField", "string"),
    ("DateTimeField", "string"),
    ("DurationField", "string"),
    ("CharField", "string"),
    ("TextField", "string"),
    ("EmailField", "string"),
    ("SlugField", "string"),
    ("URLField", "string"),
    ("UUIDField", "string"),
    ("GenericIPAddressField", "string"),
    ("FilePathField", "string"),
    ("Field", "string")]

/-- The type of a tag that the table does not know. -/
def defaultScalarType : String := "string"

def scalarType? (tag : String) : Option String := scalarTypes.lookup tag

def scalarType (tag : String) : String := (scalarType? tag).getD defaultScalarType

def isKnownTag (tag : String) : Bool := (scalarType? tag).isSome

/-- What the table and the type of unknown tags share, the types of all tags share. -/
theorem scalarType_of_table {p : String → Prop} (htable : ∀ entry ∈ scalarTypes, p entry.2)
    (hdefault : p defaultScalarType) (tag : String) : p (scalarType tag) := by
  unfold scalarType
  cases hfound : scalarType? tag with
  | none => exact hdefault
  | some type =>
      obtain ⟨before, behind, hsplit, -⟩ := List.lookup_eq_some_iff.mp hfound
      refine htable (tag, type) ?_
      rw [hsplit]
      exact List.mem_append_right before List.mem_cons_self

theorem scalarType_ne_structType (tag : String) : scalarType tag ≠ structType := by
  have htable : ∀ entry ∈ scalarTypes, entry.2 ≠ structType := by decide
  have hdefault : defaultScalarType ≠ structType := by decide
  exact scalarType_of_table (p := (· ≠ structType)) htable hdefault tag

end Protoscribe.Proto
