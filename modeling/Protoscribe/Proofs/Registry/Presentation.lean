import Protoscribe.Proofs.Json.Presentation
import Protoscribe.Proofs.Registry.RoundTrip

/-!
What may vary in the JSON of a registry. Of each record it is told what stands for the
default of a field and in which fields other records stand; the readers are shown to give
exactly the parts that a document presents. From the messages up to the registry, no
change of the presentation reaches the value that is read.
-/

namespace Protoscribe

open Decode

attribute [ext] App Field Registry

variable {levels : Nat} {value : Json}

/-! ### Messages and signatures -/

namespace MessageRef

def part (ref : MessageRef) : (field : Key) → field.Value
  | .message => ref.message
  | .streamed => ref.streamed

def default? : (field : Key) → Option field.Value
  | .message => some none
  | .streamed => some false

def variation : Json.Variation Key where
  shape := shape
  Default
    | .message, value => value = .null
    | .streamed, value => value = .boolean false
  Part _ _ _ := False

theorem nodup_fields : shape.fields.Nodup := by decide

/-- References read the same with their members in any order and defaults left out. -/
theorem sound : variation.Sound readKey default? where
  field?_label := field?_label
  nodup := nodup_fields
  default := by
    rintro (_ | _) value rfl
    · exact ⟨none, rfl, fun _ => rfl⟩
    · exact ⟨false, rfl, fun _ => rfl⟩
  part _ := Json.Keeps.never

/-- A reference reads from exactly the values that present it. -/
theorem decode_eq_ok_iff {ref : MessageRef} :
    decode (⟨value, levels⟩ : Json.Cursor) = .ok ref ↔
      Json.Presents shape readKey default? levels ref.part value := by
  refine Json.here_read_eq_ok_iff field?_label nodup_fields fun reading => ?_
  constructor
  · intro h field
    cases h
    cases field <;> exact (Json.getD_eq_iff rfl).mp rfl
  · intro h
    have hmessage := (Json.getD_eq_iff rfl).mpr (h .message)
    have hstreamed := (Json.getD_eq_iff rfl).mpr (h .streamed)
    exact congrArg Except.ok (MessageRef.ext hmessage hstreamed)

theorem keeps : Json.Keeps decode variation.Change := sound.keeps decode_eq_ok_iff

/-- Whatever stands for the default message is read to it. -/
theorem decode_allDefault (h : variation.AllDefault value) :
    decode (⟨value, levels⟩ : Json.Cursor) = .ok {} := by
  refine decode_eq_ok_iff.mpr (sound.presents_allDefault ?_ h)
  intro field
  cases field <;> rfl

end MessageRef

namespace Signature

def part (signature : Signature) : (field : Key) → field.Value
  | .request => signature.request
  | .response => signature.response

def default? (field : Key) : Option field.Value := some ({} : MessageRef)

def variation : Json.Variation Key where
  shape := shape
  Default _ := MessageRef.variation.AllDefault
  Part _ := MessageRef.variation.Change

theorem nodup_fields : shape.fields.Nodup := by decide

/-- Signatures read the same, and each of their references may vary by itself. -/
theorem sound : variation.Sound readKey default? where
  field?_label := field?_label
  nodup := nodup_fields
  default h := ⟨({} : MessageRef), rfl, fun _ => MessageRef.decode_allDefault h⟩
  part _ := MessageRef.keeps

/-- A signature reads from exactly the values that present it. -/
theorem decode_eq_ok_iff {signature : Signature} :
    decode (⟨value, levels⟩ : Json.Cursor) = .ok signature ↔
      Json.Presents shape readKey default? levels signature.part value := by
  refine Json.here_read_eq_ok_iff field?_label nodup_fields fun reading => ?_
  constructor
  · intro h field
    cases h
    cases field <;> exact (Json.getD_eq_iff rfl).mp rfl
  · intro h
    have hrequest := (Json.getD_eq_iff rfl).mpr (h .request)
    have hresponse := (Json.getD_eq_iff rfl).mpr (h .response)
    exact congrArg Except.ok (Signature.ext hrequest hresponse)

theorem keeps : Json.Keeps decode variation.Change := sound.keeps decode_eq_ok_iff

end Signature

/-! ### Fields and models -/

namespace Field

def part (field : Field) : (key : Key) → key.Value
  | .name => field.name
  | .tag => field.tag

/-- A field names itself and its type. -/
def default? (key : Key) : Option key.Value := none

def variation : Json.Variation Key where
  shape := shape
  Default _ _ := False
  Part _ _ _ := False

theorem nodup_fields : shape.fields.Nodup := by decide

/-- Fields have no defaults, so that only order and unknown members vary. -/
theorem sound : variation.Sound readKey default? where
  field?_label := field?_label
  nodup := nodup_fields
  default h := h.elim
  part _ := Json.Keeps.never

/-- A field reads from exactly the values that present it. -/
theorem decode_eq_ok_iff {field : Field} :
    decode (⟨value, levels⟩ : Json.Cursor) = .ok field ↔
      Json.Presents shape readKey default? levels field.part value := by
  refine Json.here_read_eq_ok_iff field?_label nodup_fields fun reading => ?_
  constructor
  · intro h key
    obtain ⟨name, hname, h⟩ := bind_eq_ok_iff.mp h
    obtain ⟨tag, htag, h⟩ := bind_eq_ok_iff.mp h
    cases h
    cases key with
    | name => exact (Json.require_eq_ok_iff rfl).mp hname
    | tag => exact (Json.require_eq_ok_iff rfl).mp htag
  · intro h
    have hname : reading.require Json.Cursor shape .name = .ok field.name :=
      (Json.require_eq_ok_iff rfl).mpr (h .name)
    have htag : reading.require Json.Cursor shape .tag = .ok field.tag :=
      (Json.require_eq_ok_iff rfl).mpr (h .tag)
    exact bind_eq_ok_iff.mpr ⟨field.name, hname, bind_eq_ok_iff.mpr ⟨field.tag, htag, rfl⟩⟩

theorem keeps : Json.Keeps decode variation.Change := sound.keeps decode_eq_ok_iff

end Field

namespace Model

def part (model : Model) : (field : Key) → field.Value
  | .name => model.name
  | .isAbstract => model.isAbstract
  | .key => model.key
  | .fields => model.fields
  | .methods => model.methods
  | .messages => model.messages
  | .filterRequest => model.filterRequest
  | .paginationRequest => model.paginationRequest

def default? : (field : Key) → Option field.Value
  | .name => none
  | .isAbstract | .filterRequest | .paginationRequest => some false
  | .key => some defaultKey
  | .fields => some []
  | .methods | .messages => some none

def variation : Json.Variation Key where
  shape := shape
  Default
    | .name, _ => False
    | .isAbstract, value | .filterRequest, value | .paginationRequest, value =>
        value = .boolean false
    | .key, value => value = .text defaultKey
    | .fields, value => value = .array []
    | .methods, value | .messages, value => value = .null
  Part
    | .fields => Json.InList Field.variation.Change
    | .methods => Json.InMap Signature.variation.Change
    | _ => fun _ _ => False

theorem nodup_fields : shape.fields.Nodup := by decide

/-- Models vary in their defaults, their fields and what their overrides hold. -/
theorem sound : variation.Sound readKey default? where
  field?_label := field?_label
  nodup := nodup_fields
  default := by
    intro field value h
    cases field with
    | name => exact h.elim
    | isAbstract => exact ⟨false, rfl, fun _ => by rw [h]; rfl⟩
    | filterRequest => exact ⟨false, rfl, fun _ => by rw [h]; rfl⟩
    | paginationRequest => exact ⟨false, rfl, fun _ => by rw [h]; rfl⟩
    | key => exact ⟨defaultKey, rfl, fun _ => by rw [h]; rfl⟩
    | fields => exact ⟨[], rfl, fun _ => by rw [h]; rfl⟩
    | methods => exact ⟨none, rfl, fun _ => by rw [h]; rfl⟩
    | messages => exact ⟨none, rfl, fun _ => by rw [h]; rfl⟩
  part := by
    intro field
    cases field with
    | fields => exact Field.keeps.list
    | methods => exact Signature.keeps.optionalMap
    | _ => exact Json.Keeps.never

/-- A model reads from exactly the values that present it. -/
theorem decode_eq_ok_iff {model : Model} :
    decode (⟨value, levels⟩ : Json.Cursor) = .ok model ↔
      Json.Presents shape readKey default? levels model.part value := by
  refine Json.here_read_eq_ok_iff field?_label nodup_fields fun reading => ?_
  constructor
  · intro h field
    obtain ⟨name, hname, h⟩ := bind_eq_ok_iff.mp h
    cases h
    cases field with
    | name => exact (Json.require_eq_ok_iff rfl).mp hname
    | _ => exact (Json.getD_eq_iff rfl).mp rfl
  · intro h
    have hname : reading.require Json.Cursor shape .name = .ok model.name :=
      (Json.require_eq_ok_iff rfl).mpr (h .name)
    have habstract := (Json.getD_eq_iff rfl).mpr (h .isAbstract)
    have hkey := (Json.getD_eq_iff rfl).mpr (h .key)
    have hfields := (Json.getD_eq_iff rfl).mpr (h .fields)
    have hmethods := (Json.getD_eq_iff rfl).mpr (h .methods)
    have hmessages := (Json.getD_eq_iff rfl).mpr (h .messages)
    have hfilter := (Json.getD_eq_iff rfl).mpr (h .filterRequest)
    have hpagination := (Json.getD_eq_iff rfl).mpr (h .paginationRequest)
    refine bind_eq_ok_iff.mpr ⟨model.name, hname, congrArg Except.ok ?_⟩
    exact Model.ext rfl habstract hkey hfields hmethods hmessages hfilter hpagination

theorem keeps : Json.Keeps decode variation.Change := sound.keeps decode_eq_ok_iff

end Model

/-! ### Applications and registries -/

namespace App

def part (app : App) : (field : Key) → field.Value
  | .name => app.name
  | .models => app.models

def default? : (field : Key) → Option field.Value
  | .name => none
  | .models => some []

def variation : Json.Variation Key where
  shape := shape
  Default
    | .name, _ => False
    | .models, value => value = .array []
  Part
    | .name => fun _ _ => False
    | .models => Json.InList Model.variation.Change

theorem nodup_fields : shape.fields.Nodup := by decide

/-- Applications vary in each of their models. -/
theorem sound : variation.Sound readKey default? where
  field?_label := field?_label
  nodup := nodup_fields
  default := by
    intro field value h
    cases field with
    | name => exact h.elim
    | models => exact ⟨[], rfl, fun _ => by rw [h]; rfl⟩
  part := by
    intro field
    cases field with
    | name => exact Json.Keeps.never
    | models => exact Model.keeps.list

/-- An application reads from exactly the values that present it. -/
theorem decode_eq_ok_iff {app : App} :
    decode (⟨value, levels⟩ : Json.Cursor) = .ok app ↔
      Json.Presents shape readKey default? levels app.part value := by
  refine Json.here_read_eq_ok_iff field?_label nodup_fields fun reading => ?_
  constructor
  · intro h field
    obtain ⟨name, hname, h⟩ := bind_eq_ok_iff.mp h
    cases h
    cases field with
    | name => exact (Json.require_eq_ok_iff rfl).mp hname
    | models => exact (Json.getD_eq_iff rfl).mp rfl
  · intro h
    have hname : reading.require Json.Cursor shape .name = .ok app.name :=
      (Json.require_eq_ok_iff rfl).mpr (h .name)
    have hmodels := (Json.getD_eq_iff rfl).mpr (h .models)
    exact bind_eq_ok_iff.mpr ⟨app.name, hname, congrArg Except.ok (App.ext rfl hmodels)⟩

theorem keeps : Json.Keeps decode variation.Change := sound.keeps decode_eq_ok_iff

end App

namespace Registry

def part (registry : Registry) : (field : Key) → field.Value := fun _ => registry.apps

def default? (field : Key) : Option field.Value := some ([] : List App)

def variation : Json.Variation Key where
  shape := shape
  Default _ value := value = .array []
  Part _ := Json.InList App.variation.Change

theorem nodup_fields : shape.fields.Nodup := by decide

/-- Registries vary in each of their applications. -/
theorem sound : variation.Sound readKey default? where
  field?_label := field?_label
  nodup := nodup_fields
  default := by
    rintro field value rfl
    exact ⟨([] : List App), rfl, fun _ => rfl⟩
  part _ := App.keeps.list

/-- A registry reads from exactly the values that present it. -/
theorem decode_eq_ok_iff {registry : Registry} :
    decode (⟨value, levels⟩ : Json.Cursor) = .ok registry ↔
      Json.Presents shape readKey default? levels registry.part value := by
  refine Json.here_read_eq_ok_iff field?_label nodup_fields fun reading => ?_
  constructor
  · intro h field
    cases h
    exact (Json.getD_eq_iff rfl).mp rfl
  · intro h
    have happs := (Json.getD_eq_iff rfl).mpr (h .apps)
    exact congrArg Except.ok (Registry.ext happs)

theorem keeps : Json.Keeps decode variation.Change := sound.keeps decode_eq_ok_iff

end Registry

/-- How a document presents its records makes no difference. The members of a record may
be put in any order, unknown ones may come in between, defaults may be written or left out,
and a record may become the list of its fields, in any number of places, inside lists, maps
and other records: the document is read to the same value. -/
theorem decode_unaffected :
    Json.Unaffected MessageRef.decode MessageRef.variation.Change ∧
      Json.Unaffected Signature.decode Signature.variation.Change ∧
      Json.Unaffected (OrderedMap.decode Signature.decode)
        (Json.InMap Signature.variation.Change) ∧
      Json.Unaffected Field.decode Field.variation.Change ∧
      Json.Unaffected Model.decode Model.variation.Change ∧
      Json.Unaffected App.decode App.variation.Change ∧
      Json.Unaffected Registry.decode Registry.variation.Change :=
  ⟨MessageRef.keeps.unaffected, Signature.keeps.unaffected, Signature.keeps.map.unaffected,
    Field.keeps.unaffected, Model.keeps.unaffected, App.keeps.unaffected, Registry.keeps.unaffected⟩

/-- A model of which most stands at its default. -/
def book : Model := { name := "Book", fields := [⟨"id", "AutoField"⟩] }

def listedBook : Json :=
  .array [.text "Book", .boolean false, .text "id",
    .array [.record [("name", .text "id"), ("type", .text "AutoField")]]]

/-- A registry as a list, with an application that gives its models first and a note. -/
def listedLibrary : Json :=
  .array [.array [.record
    [("note", .array []), ("models", .array [listedBook]), ("name", .text "library")]]]

theorem listedLibrary_worded : listedLibrary.Worded Json.maxLevels := by
  have hbook : listedBook.Worded 123 := by
    refine .array ?_
    simp only [List.forall_mem_cons]
    refine ⟨.text "Book", .boolean false, .text "id", .array ?_, List.forall_mem_nil _⟩
    exact List.forall_mem_singleton.mpr (Field.worded 120 ⟨"id", "AutoField"⟩)
  refine .array (List.forall_mem_singleton.mpr (.array (List.forall_mem_singleton.mpr ?_)))
  refine .record ?_
  simp only [List.forall_mem_cons]
  refine ⟨.array (List.forall_mem_nil _), .array ?_, .text "library", List.forall_mem_nil _⟩
  exact List.forall_mem_singleton.mpr hbook

/-- The listed form of the book leaves defaults out and changes the order. -/
theorem book_change : Model.variation.Change book.toJson listedBook := by
  refine @Json.Variation.Change.list _ _ _ _ [.name, .isAbstract, .key, .fields]
    [.methods, .messages, .filterRequest, .paginationRequest] rfl ?_ ?_
  · exact .cons (.inl rfl) (.cons (.inl rfl) (.cons (.inl rfl) (.cons (.inl rfl) .nil)))
  · simp only [List.forall_mem_cons]
    refine ⟨List.forall_mem_nil _, List.forall_mem_nil _, ?_, ?_, List.forall_mem_nil _⟩
    · exact fun value hvalue => List.mem_singleton.mp hvalue
    · exact fun value hvalue => List.mem_singleton.mp hvalue

/-- The model and the registry become lists; the application is reordered and gets a note. -/
theorem library_changes : Relation.ReflTransGen Registry.variation.Change
    (Registry.toJson ⟨[⟨"library", [book]⟩]⟩) listedLibrary := by
  have hmodels : App.variation.Change (App.toJson ⟨"library", [book]⟩)
      (.record [("name", .text "library"), ("models", .array [listedBook])]) :=
    @Json.Variation.Change.inMember _ App.variation [(some "name", .text "library")] [] .models
      _ _ (@Json.InList.item _ [] [] _ _ book_change)
  have horder : App.variation.Change
      (.record [("name", .text "library"), ("models", .array [listedBook])])
      (.record [("models", .array [listedBook]), ("name", .text "library")]) :=
    .permute (List.Perm.swap _ _ [])
  have hnote : App.variation.Change
      (.record [("models", .array [listedBook]), ("name", .text "library")])
      (.record [("note", .array []), ("models", .array [listedBook]), ("name", .text "library")]) :=
    @Json.Variation.Change.addUnknown _ App.variation [] _ "note" (.array []) rfl
  have happ := ((Relation.ReflTransGen.single hmodels).tail horder).tail hnote
  have hlist : Registry.variation.Change (Registry.toJson ⟨[⟨"library", [book]⟩]⟩)
      (.array [.array [App.toJson ⟨"library", [book]⟩]]) :=
    @Json.Variation.Change.list _ _ _ _ [.apps] [] rfl (.cons (.inl rfl) .nil)
      (List.forall_mem_nil _)
  have hinside : ∀ app other, App.variation.Change app other →
      Registry.variation.Change (.array [.array [app]]) (.array [.array [other]]) :=
    fun app other h => @Json.Variation.Change.inItem _ Registry.variation [] [] .apps _ _ rfl
      (@Json.InList.item _ [] [] app other h)
  exact (happ.lift (fun app => Json.array [.array [app]]) hinside).head hlist

/-- A registry of one application reads the same from objects and from lists. -/
theorem decode_unaffected_library :
    Json.decode Registry.decode (Registry.toJson ⟨[⟨"library", [book]⟩]⟩).compact =
        .ok ⟨[⟨"library", [book]⟩]⟩ ∧
      Json.decode Registry.decode listedLibrary.compact = .ok ⟨[⟨"library", [book]⟩]⟩ := by
  obtain ⟨-, -, -, -, -, -, hregistry⟩ := decode_unaffected
  have hplain := roundTrips_of_undoes (Registry.decode_undoes Json.mirrors_shows)
    (Registry.worded 119) ⟨[⟨"library", [book]⟩]⟩
  have hworded : (Registry.toJson ⟨[⟨"library", [book]⟩]⟩).Worded Json.maxLevels :=
    Registry.worded 119 _
  exact ⟨hplain, hregistry _ _ _ _ _ hworded.read?_compact listedLibrary_worded.read?_compact
    library_changes hplain⟩

end Protoscribe
