import Protoscribe.Proofs.Plan.Outcome
import Protoscribe.Proofs.Registry.Check

/-!
What a message holds. Its fields are the selected fields of the model and, behind
them, its free-form structures. They are numbered from one without a gap. Selected
names are looked up one by one, so a name that the model lacks is the only thing
that can be wrong behind a proper message name; the wildcard asks for names of the
model itself and cannot miss.
-/

namespace Protoscribe.Plan

def typed (field : Field) : String × String := (Proto.scalarType field.tag, field.name)

/-- The fields that a selection stands for: all fields as they are declared, or for
each listed name, repeated ones too, the field of this name. -/
inductive Selects (model : Model) : FieldSelection → List Field → Prop where
  | all : Selects model .all model.fields
  | listed {names : List String} {fields : List Field}
      (h : List.Forall₂ (fun name field => field ∈ model.fields ∧ field.name = name) names fields) :
      Selects model (.listed names) fields

structure Shows (own : Proto.Message) (name : String) (fields : List Field)
    (structs : List String) : Prop where
  name : own.name = name
  typed : own.fields.map (fun field => (field.type, field.name)) =
    fields.map typed ++ structs.map fun field => (Proto.structType, field)
  numbers : own.fields.map Proto.MessageField.number =
    List.range' 1 (fields.length + structs.length)

theorem shows_iff {own : Proto.Message} {name : String} {fields : List Field}
    {structs : List String} :
    Shows own name fields structs ↔
      own = .numbered name
        (fields.map typed ++ structs.map fun field => (Proto.structType, field)) := by
  have hlength : (fields.map typed ++ structs.map fun field => (Proto.structType, field)).length =
      fields.length + structs.length := by simp
  constructor
  · rintro ⟨rfl, htyped, hnumbers⟩
    obtain ⟨name, shown⟩ := own
    have hshown : shown = Proto.numberFrom 1
        (fields.map typed ++ structs.map fun field => (Proto.structType, field)) := by
      apply Proto.fields_ext
      · rw [Proto.map_typed_numberFrom]
        exact htyped
      · rw [Proto.map_number_numberFrom, hlength]
        exact hnumbers
    rw [hshown]
    rfl
  · rintro rfl
    exact ⟨rfl, Proto.map_typed_numberFrom 1 _, hlength ▸ Proto.map_number_numberFrom 1 _⟩

section

variable {model : Model} (hfields : model.fieldNames.Nodup)

include hfields

/-- With distinct names a selected field is the one field that bears the name. -/
theorem selectedField_eq_ok_iff_mem {message name : String} {shown : String × String} :
    selectedField model message name = .ok shown ↔
      ∃ field, (field ∈ model.fields ∧ field.name = name) ∧ shown = typed field := by
  rw [selectedField_eq_ok_iff]
  apply exists_congr
  intro field
  rw [Model.field?, find?_eq_some_iff_of_nodup hfields]
  apply and_congr_right
  rintro ⟨-, rfl⟩
  rfl

/-- Looking up the names of a selection gives the fields that it stands for. -/
theorem selects_iff {selection : FieldSelection} {fields : List Field} :
    List.Forall₂ (fun name field => field ∈ model.fields ∧ field.name = name)
        (selectedNames model selection) fields ↔ Selects model selection fields := by
  constructor
  · intro h
    cases selection with
    | listed names => exact .listed h
    | all =>
        have hin := (List.forall₂_and_left _ _).mpr
          ⟨fun field hfield => hfield, List.forall₂_map_left_iff.mp h⟩
        have hsame : List.Forall₂ (· = ·) model.fields fields := by
          refine hin.imp ?_
          rintro field found ⟨hfield, hfound, hname⟩
          exact List.inj_on_of_nodup_map hfields hfield hfound hname.symm
        rw [List.forall₂_eq_eq_eq] at hsame
        rw [← hsame]
        exact .all
  · intro h
    cases h with
    | listed h => exact h
    | all =>
        change List.Forall₂ _ (model.fields.map Field.name) model.fields
        rw [List.forall₂_map_left_iff, List.forall₂_same]
        exact fun field hfield => ⟨hfield, rfl⟩

/-- A message with a valid name resolves exactly to what shows the fields that its
selection finds. -/
theorem message_eq_ok_iff_shows {name : String} (hname : Proto.isIdentifier name = true)
    {spec : MessageSpec} {own : Proto.Message} :
    message model name spec = .ok own ↔
      ∃ fields, Selects model spec.selection fields ∧ Shows own name fields spec.structFields := by
  rw [message_eq_ok_iff]
  simp only [hname, true_and, selectedField_eq_ok_iff_mem hfields, forall₂_exists_map_iff]
  constructor
  · rintro ⟨shown, ⟨fields, hselected, rfl⟩, hown⟩
    exact ⟨fields, (selects_iff hfields).mp hselected, shows_iff.mpr hown⟩
  · rintro ⟨fields, hselects, hshows⟩
    exact ⟨_, ⟨fields, (selects_iff hfields).mpr hselects, rfl⟩, shows_iff.mp hshows⟩

end

/-- Behind a proper name, the faults of a message are the listed names that are no
fields, the first one in front. -/
theorem message_eq_error_iff {model : Model} {name : String}
    (hname : Proto.isIdentifier name = true) {spec : MessageSpec} {fault : Error} :
    message model name spec = .error fault ↔
      ∃ names missing, spec.selection = .listed names ∧
        names.find? (· ∉ model.fieldNames) = some missing ∧
        fault = .unknownField model.name name missing := by
  have hreports := reports_message model (name, spec)
  rw [hreports.error_iff, messageFaults, nameFaults, if_pos hname, List.nil_append]
  cases hselection : spec.selection with
  | all => simp [fieldFaults]
  | listed names =>
      rw [fieldFaults, List.head?_map, List.head?_filter, Option.map_eq_some_iff]
      constructor
      · rintro ⟨missing, hfirst, rfl⟩
        exact ⟨names, missing, rfl, hfirst, rfl⟩
      · rintro ⟨others, missing, hsame, hfirst, rfl⟩
        cases hsame
        exact ⟨missing, hfirst, rfl⟩

/-- A message under a proper name is there exactly if its model has every listed field.
It holds the selected fields, then the structures, numbered from one to their count,
which stays within 32 bits up to the size given; otherwise the first listed name that
is no field is reported. -/
theorem message_contents {model : Model} (hfields : model.fieldNames.Nodup) {name : String}
    (hname : Proto.isIdentifier name = true) (spec : MessageSpec) :
    ((∃ own, message model name spec = .ok own) ↔
        ∀ names, spec.selection = .listed names → names ⊆ model.fieldNames) ∧
      (∀ own, message model name spec = .ok own ↔
        ∃ fields, Selects model spec.selection fields ∧ Shows own name fields spec.structFields) ∧
      (∀ own, message model name spec = .ok own → own.fields.length < UInt32.size - 1 →
        ∀ field ∈ own.fields, field.number + 1 < UInt32.size) ∧
      (∀ fault, message model name spec = .error fault ↔
        ∃ names missing, spec.selection = .listed names ∧
          names.find? (· ∉ model.fieldNames) = some missing ∧
          fault = .unknownField model.name name missing) := by
  have hshows := @message_eq_ok_iff_shows model hfields name hname spec
  have herror := @message_eq_error_iff model name hname spec
  refine ⟨?_, fun own => hshows, ?_, fun fault => herror⟩
  · constructor
    · rintro ⟨own, hown⟩ names hselection listed hlisted
      by_contra hmissing
      have hfound : ∃ missing, names.find? (· ∉ model.fieldNames) = some missing := by
        rw [← Option.isSome_iff_exists, List.find?_isSome]
        exact ⟨listed, hlisted, by simpa using hmissing⟩
      obtain ⟨missing, hfirst⟩ := hfound
      have hfault := herror.mpr ⟨names, missing, hselection, hfirst, rfl⟩
      rw [hown] at hfault
      cases hfault
    · intro hlisted
      cases hresult : message model name spec with
      | ok own => exact ⟨own, rfl⟩
      | error fault =>
          obtain ⟨names, missing, hselection, hfirst, -⟩ := herror.mp hresult
          have hin := hlisted names hselection (List.mem_of_find?_eq_some hfirst)
          have hout := List.find?_some hfirst
          simp [hin] at hout
  · intro own hown hcount field hfield
    obtain ⟨fields, -, hown⟩ := hshows.mp hown
    have hlength : own.fields.length = fields.length + spec.structFields.length := by
      simpa using congrArg List.length hown.numbers
    have hnumber := List.mem_map_of_mem (f := Proto.MessageField.number) hfield
    rw [hown.numbers, List.mem_range'_1] at hnumber
    omega

/-- A model with a known and an unknown tag. -/
def novel : Model where
  name := "Novel"
  fields := [⟨"id", "BigIntegerField"⟩, ⟨"genres", "TagList"⟩]

/-- A field listed twice is shown twice, and of two missing ones the first is
reported. -/
theorem message_contents_novel :
    novel.fieldNames.Nodup ∧ Proto.isIdentifier "NovelList" = true ∧
      (∃ own, message novel "NovelList" ⟨.listed ["genres", "id", "genres"], ["_filters"]⟩ = .ok own ∧
        own.fields = [⟨"string", "genres", 1⟩, ⟨"int64", "id", 2⟩, ⟨"string", "genres", 3⟩,
          ⟨"google.protobuf.Struct", "_filters", 4⟩]) ∧
      message novel "NovelList" ⟨.listed ["id", "isbn", "pages"], []⟩ =
        .error (.unknownField "Novel" "NovelList" "isbn") := by
  have hfields : novel.fieldNames.Nodup := by decide
  have hname : Proto.isIdentifier "NovelList" = true := by decide
  obtain ⟨hthere, -, -, -⟩ := message_contents hfields hname
    ⟨.listed ["genres", "id", "genres"], ["_filters"]⟩
  obtain ⟨-, -, -, hfault⟩ := message_contents hfields hname ⟨.listed ["id", "isbn", "pages"], []⟩
  refine ⟨hfields, hname, ?_, (hfault _).mpr ⟨_, "isbn", rfl, by decide, rfl⟩⟩
  obtain ⟨own, hown⟩ := hthere.mpr fun names hselection => by
    cases hselection
    decide
  refine ⟨own, hown, ?_⟩
  cases hown
  rfl

end Protoscribe.Plan
