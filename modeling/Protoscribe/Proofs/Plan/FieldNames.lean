import Protoscribe.Proofs.Plan.Defaults

/-!
The names of the fields of one message. The fields of a model have different
names, and so have the free-form structures of a list request, so a message that
shows all fields, the primary key or structures never repeats a name. A list in
an override is taken as it stands: each of its names must be a field, but no name
is held against the others, and a list that names a field twice gives a message
with two fields of one name.
-/

namespace Protoscribe.Plan

/-- What a default message shows, it shows under different names. -/
theorem nodup_names_messageEntries {model : Model} (hmodel : model.Consistent) {mixin : Mixin}
    {entry : String × MessageSpec} (h : entry ∈ mixin.messageEntries model) :
    (selectedNames model entry.2.selection ++ entry.2.structFields).Nodup := by
  rcases Mixin.spec_of_mem_messageEntries h with hspec | hspec | hspec
  · have hall : model.fieldNames.Nodup := hmodel.fields
    simpa [hspec, selectedNames] using hall
  · simp [hspec, selectedNames]
  · have hstructs := Mixin.nodup_requestStructs model
    simpa [hspec, selectedNames] using hstructs

section

variable {registry : Registry} {scope : Scope} {document : Proto.Document}

/-- A list that stands in an override under the name of a message is what this
message shows, whichever model in scope it belongs to. -/
theorem map_name_of_listed {sources : Sources} (h : plan registry scope sources = .ok document)
    {own : Proto.Message} (hown : own ∈ document.messages) {model : Model}
    (hmodel : model ∈ inScope registry scope) {overrides : OrderedMap FieldSelection}
    (hoverrides : model.messages = some overrides) {names : List String}
    (hlisted : (own.name, .listed names) ∈ overrides.toList) :
    own.fields.map Proto.MessageField.name = names := by
  have hentry : (own.name, ⟨.listed names, []⟩) ∈ (messagesOf sources model).toList :=
    (mem_messagesOf_override hoverrides sources).mpr ⟨_, hlisted, rfl⟩
  obtain ⟨listed, hin, hmessage⟩ := exists_message h hmodel hentry
  have hsame : own = listed := eq_of_name_eq h hown hin (name_message hmessage).symm
  have hnames := map_name_message hmessage
  rw [hsame, hnames]
  exact List.append_nil names

/-- The field names of a message are different from one another, unless an override
lists them under its name and repeats one. -/
theorem nodup_fields_iff (hcheck : registry.check = .ok ())
    (h : plan registry scope = .ok document) {own : Proto.Message}
    (hown : own ∈ document.messages) :
    (own.fields.map Proto.MessageField.name).Nodup ↔
      ∀ model ∈ inScope registry scope, ∀ overrides, model.messages = some overrides →
        ∀ names, (own.name, FieldSelection.listed names) ∈ overrides.toList → names.Nodup := by
  constructor
  · intro hnodup model hmodel overrides hoverrides names hlisted
    rwa [map_name_of_listed h hown hmodel hoverrides hlisted] at hnodup
  · intro hlists
    obtain ⟨model, hmodel, entry, hentry, hmessage⟩ := mem_messages h hown
    have hconsistent := consistent_of_inScope (Registry.check_eq_ok_iff.mp hcheck) hmodel
    have hname : own.name = entry.1 := name_message hmessage
    rw [map_name_message hmessage]
    rcases origin_of_mem_messagesOf hentry with
      ⟨overrides, selection, hoverrides, hin, hspec⟩ | ⟨-, mixin, -, hmixin⟩
    · rw [hspec]
      cases selection with
      | all =>
          have hall : model.fieldNames.Nodup := hconsistent.fields
          simpa [selectedNames] using hall
      | listed names =>
          have hnames := hlists model hmodel overrides hoverrides names (hname ▸ hin)
          simpa [selectedNames] using hnames
    · exact nodup_names_messageEntries hconsistent hmixin

end

/-- A book with a summary that shows the title twice, and one that shows it once. -/
def summarized : Registry :=
  ⟨[⟨"library", [
    { name := "Book", fields := [⟨"id", "AutoField"⟩, ⟨"title", "CharField"⟩],
      messages := some (.ofList [("BookSummary", .listed ["title", "id", "title"]),
        ("BookTitle", .listed ["title"]), ("BookFull", .all)]) }]⟩]⟩

theorem nodup_fields_iff_summarized :
    summarized.check = .ok () ∧ ∃ document, plan summarized ⟨"library", none⟩ = .ok document ∧
      ∃ own ∈ document.messages, own.name = "BookTitle" ∧
        (own.fields.map Proto.MessageField.name).Nodup := by
  have hcheck : summarized.check = .ok () := by decide
  obtain ⟨document, hplan⟩ : ∃ document, plan summarized ⟨"library", none⟩ = .ok document := ⟨_, rfl⟩
  have hname : "BookTitle" ∈ document.messages.map Proto.Message.name := by
    cases hplan
    decide
  obtain ⟨own, hown, hown_name⟩ := List.mem_map.mp hname
  refine ⟨hcheck, document, hplan, own, hown, hown_name, ?_⟩
  refine (nodup_fields_iff hcheck hplan hown).mpr ?_
  rw [hown_name]
  intro model hmodel overrides hoverrides names hlisted
  have hmodels : inScope summarized ⟨"library", none⟩ = summarized.apps.flatMap App.models := rfl
  rw [hmodels] at hmodel
  cases List.mem_singleton.mp hmodel
  cases hoverrides
  have hsame := OrderedMap.get?_of_mem hlisted
  cases hsame
  decide

/-- A consistent registry can give a message with two fields of one name. -/
theorem listed_names_repeat :
    summarized.check = .ok () ∧ ∃ document, plan summarized ⟨"library", none⟩ = .ok document ∧
      ∃ own ∈ document.messages, own.fields =
        [⟨"string", "title", 1⟩, ⟨"int32", "id", 2⟩, ⟨"string", "title", 3⟩] ∧
        ¬ (own.fields.map Proto.MessageField.name).Nodup :=
  ⟨by decide, _, rfl, _, List.mem_cons_self, rfl, by decide⟩

end Protoscribe.Plan
