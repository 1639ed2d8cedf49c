import Protoscribe.Registry.Decode
import Protoscribe.Registry.Encode
import Protoscribe.Proofs.Json.Mirror
import Protoscribe.Proofs.OrderedMap.Writes

/-!
What is written of a registry and of each of its parts reads back as the same
value. The readers are followed through any source whose values stand for JSON
values, from the field selections up to the registry; compact JSON text is one
such source, since nothing that is written nests deeper than eight levels.
-/

namespace Protoscribe

open Decode

attribute [ext] MessageRef Signature Model

section

variable {ν : Type} {m : Type → Type} [Monad m] [Source ν m] [LawfulMonad m]
variable {Shows : ν → Json → Prop}

/-- The keys of a map are distinct, so that no entry replaces another. -/
theorem OrderedMap.decode_undoes {α : Type} {read : ν → m α} {write : α → Json}
    (h : Mirrors Shows) (hread : Undoes Shows read write) :
    Undoes Shows (OrderedMap.decode read) (OrderedMap.toJson write) := by
  intro cursor map hshows
  obtain ⟨parts, hentries, hparts⟩ := h.entries hshows
  have hpairs : readEntries read parts = pure map.toList := h.readEntries_eq hread hparts
  rw [OrderedMap.decode, hentries, pure_bind, hpairs, pure_bind, OrderedMap.ofList_toList,
    h.here_pure]

/-- The wildcard is a text and a list is a list, so that neither reads as the other. -/
theorem FieldSelection.decode_undoes (h : Mirrors Shows) :
    Undoes Shows (FieldSelection.decode (m := m)) FieldSelection.toJson := by
  intro cursor selection hshows
  cases selection with
  | all =>
      rw [FieldSelection.decode, h.wildcard hshows, pure_bind]
      rfl
  | listed names =>
      rw [FieldSelection.decode, h.names hshows, pure_bind]

/-! ### Records -/

theorem getD_map_some {α : Type} (value : Option α) : (value.map some).getD none = value := by
  cases value <;> rfl

theorem MessageRef.field?_label (field : MessageRef.Key) :
    MessageRef.shape.field? (MessageRef.shape.label field) = some field := by
  cases field <;> rfl

def MessageRef.given (ref : MessageRef) : List (Given MessageRef.Key.Value) :=
  givenIf .message some Json.text ref.message ++ [⟨.streamed, ref.streamed, .boolean ref.streamed⟩]

/-- A reference writes its message only if it has one. -/
theorem MessageRef.write_given (ref : MessageRef) :
    ref.toJson = MessageRef.shape.write ref.given := by
  obtain ⟨message, streamed⟩ := ref
  cases message <;> rfl

/-- An absent message stays absent, and a named one keeps its name. -/
theorem MessageRef.decode_undoes (h : Mirrors Shows) :
    Undoes Shows (MessageRef.decode (m := m)) MessageRef.toJson := by
  intro cursor ref hshows
  have hread : ∀ one ∈ ref.given, ∀ cursor, Shows cursor one.written →
      MessageRef.readKey one.field cursor = (pure one.value : m _) := by
    simp only [MessageRef.given, List.forall_mem_append, List.forall_mem_cons]
    refine ⟨forall_mem_givenIf.mpr fun message _ cursor hshows => ?_, fun _ => h.boolean, by simp⟩
    exact h.readOptional_present h.text hshows
  have hnodup : (ref.given.map Given.field).Nodup := by
    cases hmessage : ref.message <;> simp [MessageRef.given, hmessage, givenIf]
  rw [MessageRef.write_given] at hshows
  obtain ⟨table, htable, hholds, hkeeps⟩ :=
    h.shape_read_eq MessageRef.field?_label hread hnodup hshows
  simp only [MessageRef.given, List.forall_mem_append, List.forall_mem_cons] at hholds
  obtain ⟨hmessage, hstreamed, -⟩ := hholds
  have habsent : ref.message = none → table .message = none := fun hnone =>
    hkeeps .message (by simp [MessageRef.given, hnone, givenIf])
  have hmessage := Reading.getD_optional (forall_mem_givenIf.mp hmessage) habsent none none
  have hstreamed := Reading.getD_eq hstreamed none false
  rw [MessageRef.decode, htable, pure_bind]
  exact h.here_eq (MessageRef.ext (hmessage.trans (getD_map_some ref.message)) hstreamed)

theorem Field.field?_label (field : Field.Key) :
    Field.shape.field? (Field.shape.label field) = some field := by
  cases field <;> rfl

def Field.given (field : Field) : List (Given Field.Key.Value) :=
  [⟨.name, field.name, .text field.name⟩, ⟨.tag, field.tag, .text field.tag⟩]

theorem Field.decode_undoes (h : Mirrors Shows) :
    Undoes Shows (Field.decode (m := m)) Field.toJson := by
  intro cursor field hshows
  have hread : ∀ one ∈ field.given, ∀ cursor, Shows cursor one.written →
      Field.readKey one.field cursor = (pure one.value : m _) := by
    simp only [Field.given, List.forall_mem_cons]
    exact ⟨fun _ => h.text, fun _ => h.text, fun _ hnone => absurd hnone List.not_mem_nil⟩
  obtain ⟨table, htable, hholds, -⟩ :=
    h.shape_read_eq Field.field?_label hread (by simp [Field.given]) hshows
  simp only [Field.given, List.forall_mem_cons] at hholds
  obtain ⟨hname, htag, -⟩ := hholds
  rw [Field.decode, htable, pure_bind, Reading.require_bind hname, Reading.require_bind htag,
    h.here_pure]

theorem Signature.field?_label (field : Signature.Key) :
    Signature.shape.field? (Signature.shape.label field) = some field := by
  cases field <;> rfl

def Signature.given (signature : Signature) : List (Given Signature.Key.Value) :=
  [⟨.request, signature.request, signature.request.toJson⟩,
    ⟨.response, signature.response, signature.response.toJson⟩]

theorem Signature.decode_undoes (h : Mirrors Shows) :
    Undoes Shows (Signature.decode (m := m)) Signature.toJson := by
  intro cursor signature hshows
  have href : Undoes Shows (MessageRef.decode (m := m)) MessageRef.toJson :=
    MessageRef.decode_undoes h
  have hread : ∀ one ∈ signature.given, ∀ cursor, Shows cursor one.written →
      Signature.readKey one.field cursor = (pure one.value : m _) := by
    simp only [Signature.given, List.forall_mem_cons]
    exact ⟨fun _ => href, fun _ => href, by simp⟩
  obtain ⟨table, htable, hholds, -⟩ :=
    h.shape_read_eq Signature.field?_label hread (by simp [Signature.given]) hshows
  simp only [Signature.given, List.forall_mem_cons] at hholds
  obtain ⟨hrequest, hresponse, -⟩ := hholds
  have hrequest := Reading.getD_eq hrequest none {}
  have hresponse := Reading.getD_eq hresponse none {}
  rw [Signature.decode, htable, pure_bind]
  exact h.here_eq (Signature.ext hrequest hresponse)

theorem Model.field?_label (field : Model.Key) :
    Model.shape.field? (Model.shape.label field) = some field := by
  cases field <;> rfl

def Model.given (model : Model) : List (Given Model.Key.Value) :=
  [⟨.name, model.name, .text model.name⟩,
    ⟨.isAbstract, model.isAbstract, .boolean model.isAbstract⟩,
    ⟨.key, model.key, .text model.key⟩,
    ⟨.fields, model.fields, .array (model.fields.map Field.toJson)⟩] ++
  givenIf .methods some (OrderedMap.toJson Signature.toJson) model.methods ++
  givenIf .messages some (OrderedMap.toJson FieldSelection.toJson) model.messages ++
  [⟨.filterRequest, model.filterRequest, .boolean model.filterRequest⟩,
    ⟨.paginationRequest, model.paginationRequest, .boolean model.paginationRequest⟩]

/-- A model writes its two overrides only where it has them. -/
theorem Model.write_given (model : Model) : model.toJson = Model.shape.write model.given := by
  obtain ⟨name, isAbstract, key, fields, methods, messages, filter, pagination⟩ := model
  cases methods <;> cases messages <;> rfl

theorem Model.nodup_given (model : Model) : (model.given.map Given.field).Nodup := by
  cases hmethods : model.methods <;> cases hmessages : model.messages <;>
    simp [Model.given, givenIf, hmethods, hmessages]

/-- An override that is absent is written under no key. -/
theorem Model.absent_given (model : Model) :
    (model.methods = none → .methods ∉ model.given.map Given.field) ∧
      (model.messages = none → .messages ∉ model.given.map Given.field) := by
  constructor <;> intro hnone
  · cases hmessages : model.messages <;> simp [Model.given, givenIf, hnone, hmessages]
  · cases hmethods : model.methods <;> simp [Model.given, givenIf, hnone, hmethods]

/-- Each field that is written reads back under its own key. -/
theorem Model.readKey_given (h : Mirrors Shows) (model : Model) :
    ∀ one ∈ model.given, ∀ cursor, Shows cursor one.written →
      Model.readKey one.field cursor = (pure one.value : m _) := by
  have hmethods : Undoes Shows (OrderedMap.decode (Signature.decode (m := m)))
      (OrderedMap.toJson Signature.toJson) :=
    OrderedMap.decode_undoes h (Signature.decode_undoes h)
  have hmessages : Undoes Shows (OrderedMap.decode (FieldSelection.decode (m := m)))
      (OrderedMap.toJson FieldSelection.toJson) :=
    OrderedMap.decode_undoes h (FieldSelection.decode_undoes h)
  simp only [Model.given, List.forall_mem_append, List.forall_mem_cons]
  refine ⟨⟨⟨⟨fun _ => h.text, fun _ => h.boolean, fun _ => h.text,
    fun _ => h.readList_undoes (Field.decode_undoes h), by simp⟩, ?_⟩, ?_⟩,
    fun _ => h.boolean, fun _ => h.boolean, by simp⟩
  · exact forall_mem_givenIf.mpr fun _ _ _ => h.readOptional_present hmethods
  · exact forall_mem_givenIf.mpr fun _ _ _ => h.readOptional_present hmessages

/-- An absent override stays apart from an empty one. -/
theorem Model.decode_undoes (h : Mirrors Shows) :
    Undoes Shows (Model.decode (m := m)) Model.toJson := by
  intro cursor model hshows
  rw [Model.write_given] at hshows
  obtain ⟨table, htable, hholds, hkeeps⟩ :=
    h.shape_read_eq Model.field?_label (Model.readKey_given h model) model.nodup_given hshows
  simp only [Model.given, List.forall_mem_append, List.forall_mem_cons] at hholds
  obtain ⟨⟨⟨⟨hname, habstract, hkey, hfields, -⟩, hmethods⟩, hmessages⟩, hfilter, hpagination, -⟩ :=
    hholds
  have hmethods := Reading.getD_optional (forall_mem_givenIf.mp hmethods)
    (fun hnone => hkeeps _ (model.absent_given.1 hnone)) none none
  have hmessages := Reading.getD_optional (forall_mem_givenIf.mp hmessages)
    (fun hnone => hkeeps _ (model.absent_given.2 hnone)) none none
  rw [Model.decode, htable, pure_bind, Reading.require_bind hname]
  refine h.here_eq ?_
  exact Model.ext rfl (Reading.getD_eq habstract none _) (Reading.getD_eq hkey none _)
    (Reading.getD_eq hfields none _) (hmethods.trans (getD_map_some _))
    (hmessages.trans (getD_map_some _)) (Reading.getD_eq hfilter none _)
    (Reading.getD_eq hpagination none _)

theorem App.field?_label (field : App.Key) :
    App.shape.field? (App.shape.label field) = some field := by
  cases field <;> rfl

def App.given (app : App) : List (Given App.Key.Value) :=
  [⟨.name, app.name, .text app.name⟩, ⟨.models, app.models, .array (app.models.map Model.toJson)⟩]

theorem App.decode_undoes (h : Mirrors Shows) :
    Undoes Shows (App.decode (m := m)) App.toJson := by
  intro cursor app hshows
  have hread : ∀ one ∈ app.given, ∀ cursor, Shows cursor one.written →
      App.readKey one.field cursor = (pure one.value : m _) := by
    simp only [App.given, List.forall_mem_cons]
    exact ⟨fun _ => h.text, fun _ => h.readList_undoes (Model.decode_undoes h), by simp⟩
  obtain ⟨table, htable, hholds, -⟩ :=
    h.shape_read_eq App.field?_label hread (by simp [App.given]) hshows
  simp only [App.given, List.forall_mem_cons] at hholds
  obtain ⟨hname, hmodels, -⟩ := hholds
  have hmodels := Reading.getD_eq hmodels none []
  rw [App.decode, htable, pure_bind, Reading.require_bind hname]
  exact h.here_eq (congrArg (App.mk app.name) hmodels)

theorem Registry.field?_label (field : Registry.Key) :
    Registry.shape.field? (Registry.shape.label field) = some field := by
  cases field
  rfl

def Registry.given (registry : Registry) : List (Given Registry.Key.Value) :=
  [⟨.apps, registry.apps, .array (registry.apps.map App.toJson)⟩]

/-- From the bottom up every part reads back, so the registry does. -/
theorem Registry.decode_undoes (h : Mirrors Shows) :
    Undoes Shows (Registry.decode (m := m)) Registry.toJson := by
  intro cursor registry hshows
  have hread : ∀ one ∈ registry.given, ∀ cursor, Shows cursor one.written →
      Registry.readKey one.field cursor = (pure one.value : m _) := by
    simp only [Registry.given, List.forall_mem_cons]
    exact ⟨fun _ => h.readList_undoes (App.decode_undoes h), by simp⟩
  obtain ⟨table, htable, hholds, -⟩ :=
    h.shape_read_eq Registry.field?_label hread (by simp [Registry.given]) hshows
  simp only [Registry.given, List.forall_mem_cons] at hholds
  obtain ⟨happs, -⟩ := hholds
  have happs := Reading.getD_eq happs none []
  rw [Registry.decode, htable, pure_bind]
  exact h.here_eq (congrArg Registry.mk happs)

end

/-! ### How deep the written forms nest -/

/-- A map opens one level more than its values. -/
theorem OrderedMap.worded {α : Type} {write : α → Json} {levels : Nat}
    (h : ∀ value, (write value).Worded levels) (map : OrderedMap α) :
    (map.toJson write).Worded (levels + 1) := by
  refine .record fun member hmember => ?_
  obtain ⟨entry, -, rfl⟩ := List.mem_map.mp hmember
  exact h entry.2

/-- A list opens one level more than its items. -/
theorem worded_list {α : Type} {write : α → Json} {levels : Nat}
    (h : ∀ value, (write value).Worded levels) (values : List α) :
    (Json.array (values.map write)).Worded (levels + 1) := by
  refine .array fun item hitem => ?_
  obtain ⟨value, -, rfl⟩ := List.mem_map.mp hitem
  exact h value

theorem forall_mem_optionalMember {α : Type} {name : String} {write : α → Json} {value : Option α}
    {levels : Nat} (h : ∀ value, (write value).Worded levels) :
    ∀ member ∈ optionalMember name write value, member.2.Worded levels := by
  intro member hmember
  cases value with
  | none => cases hmember
  | some present =>
      cases List.mem_singleton.mp hmember
      exact h present

theorem FieldSelection.worded (levels : Nat) (selection : FieldSelection) :
    selection.toJson.Worded (levels + 1) := by
  cases selection with
  | all => exact .text "*"
  | listed names => exact worded_list .text names

theorem MessageRef.worded (levels : Nat) (ref : MessageRef) : ref.toJson.Worded (levels + 1) := by
  refine .record ?_
  rw [List.forall_mem_append, List.forall_mem_singleton]
  exact ⟨forall_mem_optionalMember .text, .boolean ref.streamed⟩

theorem Signature.worded (levels : Nat) (signature : Signature) :
    signature.toJson.Worded (levels + 2) := by
  refine .record ?_
  rw [List.forall_mem_cons, List.forall_mem_singleton]
  exact ⟨signature.request.worded levels, signature.response.worded levels⟩

theorem Field.worded (levels : Nat) (field : Field) : field.toJson.Worded (levels + 1) := by
  refine .record ?_
  rw [List.forall_mem_cons, List.forall_mem_singleton]
  exact ⟨.text field.name, .text field.tag⟩

theorem Model.worded (levels : Nat) (model : Model) : model.toJson.Worded (levels + 4) := by
  have hfields := worded_list (Field.worded (levels + 1)) model.fields
  refine .record ?_
  simp only [List.forall_mem_append, List.forall_mem_cons]
  exact ⟨⟨⟨⟨.text _, .boolean _, .text _, hfields, by simp⟩,
    forall_mem_optionalMember (OrderedMap.worded (Signature.worded levels))⟩,
    forall_mem_optionalMember (OrderedMap.worded (FieldSelection.worded (levels + 1)))⟩,
    .boolean _, .boolean _, by simp⟩

theorem App.worded (levels : Nat) (app : App) : app.toJson.Worded (levels + 6) := by
  refine .record ?_
  rw [List.forall_mem_cons, List.forall_mem_singleton]
  exact ⟨.text app.name, worded_list (Model.worded levels) app.models⟩

/-- No registry opens more than eight levels. -/
theorem Registry.worded (levels : Nat) (registry : Registry) :
    registry.toJson.Worded (levels + 8) := by
  refine .record ?_
  rw [List.forall_mem_singleton]
  exact worded_list (App.worded levels) registry.apps

/-! ### Compact text -/

/-- Every value comes back from its compact JSON text. -/
def RoundTrips {α : Type} (read : Json.Cursor → Json.Reading α) (write : α → Json) : Prop :=
  ∀ value, Json.decode read (write value).compact = .ok value

/-- What undoes writing on values does so on compact text. -/
theorem roundTrips_of_undoes {α : Type} {read : Json.Cursor → Json.Reading α} {write : α → Json}
    (hread : Undoes Json.Cursor.Shows read write)
    (hworded : ∀ value, (write value).Worded Json.maxLevels) : RoundTrips read write := by
  intro value
  have hvalue : read (.root (write value)) = .ok value := hread ⟨rfl, hworded value⟩
  exact Json.decode_eq_ok_iff.mpr ⟨_, (hworded value).read?_compact, hvalue⟩

/-- Reading undoes writing for every part of a registry, whatever characters its
texts hold: an absent override is told from an empty one, an absent message from
a named one, the wildcard from a list of one star, and all orders are kept. -/
theorem compact_roundTrips :
    RoundTrips FieldSelection.decode FieldSelection.toJson ∧
    RoundTrips MessageRef.decode MessageRef.toJson ∧
    RoundTrips Signature.decode Signature.toJson ∧
    RoundTrips Field.decode Field.toJson ∧
    RoundTrips Model.decode Model.toJson ∧
    RoundTrips App.decode App.toJson ∧
    RoundTrips Registry.decode Registry.toJson ∧
    RoundTrips (OrderedMap.decode Source.text) (OrderedMap.toJson Json.text) := by
  have h : Mirrors Json.Cursor.Shows := Json.mirrors_shows
  refine ⟨?selection, ?ref, ?signature, ?field, ?model, ?app, ?registry, ?map⟩
  case selection =>
    exact roundTrips_of_undoes (FieldSelection.decode_undoes h) (FieldSelection.worded 126)
  case ref => exact roundTrips_of_undoes (MessageRef.decode_undoes h) (MessageRef.worded 126)
  case signature => exact roundTrips_of_undoes (Signature.decode_undoes h) (Signature.worded 125)
  case field => exact roundTrips_of_undoes (Field.decode_undoes h) (Field.worded 126)
  case model => exact roundTrips_of_undoes (Model.decode_undoes h) (Model.worded 123)
  case app => exact roundTrips_of_undoes (App.decode_undoes h) (App.worded 121)
  case registry => exact roundTrips_of_undoes (Registry.decode_undoes h) (Registry.worded 119)
  case map =>
    have htext : ∀ text : String, (Json.text text).Worded 126 := .text
    exact roundTrips_of_undoes (OrderedMap.decode_undoes h h.text) (OrderedMap.worded htext)

end Protoscribe
