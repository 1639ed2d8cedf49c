import Protoscribe.Proofs.Plan.Defaults

/-!
Services and messages of one name. Names are held against one another among
messages only, although services share their scope. The name of a default
message never ends like the name of a service, so only a message override can
take one, of the same or of another model.
-/

namespace Protoscribe.Plan

/-- A model has methods unless it overrides them with none. -/
theorem isEmpty_methodsOf {model : Model} :
    (methodsOf {} model).isEmpty = false ↔ model.methods ≠ some .empty := by
  cases hmethods : model.methods with
  | none =>
      have hsome : (methodsOf {} model).isEmpty = false :=
        isEmpty_methodsOf_mixins hmethods Mixin.methodOrder (Mixin.messageOrder.map Mixin.defaults)
      simp [hsome]
  | some overrides =>
      have hoverrides : methodsOf {} model = overrides := by rw [methodsOf, hmethods]; rfl
      rw [hoverrides, Bool.eq_false_iff, Ne, OrderedMap.isEmpty_iff, Ne, Option.some.injEq]

/-- Only an override gives a message the name of a service. -/
theorem serviceName_mem_keys_iff {owner model : Model} :
    serviceName owner ∈ (messagesOf {} model).keys ↔
      ∃ overrides, model.messages = some overrides ∧ serviceName owner ∈ overrides.keys := by
  cases hmessages : model.messages with
  | some overrides =>
      have hkeys : (messagesOf {} model).keys = overrides.keys := by
        rw [messagesOf_override hmessages]
        exact OrderedMap.keys_mapValues _ overrides
      rw [hkeys]
      simp
  | none =>
      constructor
      · intro hkey
        obtain ⟨mixin, hin⟩ := mem_keys_messagesOf hmessages hkey
        obtain ⟨suffix, hsuffix, hsame⟩ := Mixin.mem_keys_messageEntries hin
        obtain ⟨-, rfl⟩ := Mixin.append_suffix_inj List.mem_cons_self
          (Mixin.suffix_mem_allSuffixes hsuffix) hsame
        have hnone : ∀ mixin ∈ Mixin.methodOrder, "Controller" ∉ mixin.suffixes := by decide
        exact absurd hsuffix (hnone mixin (Mixin.mem_methodOrder mixin))
      · rintro ⟨overrides, hnone, -⟩
        cases hnone

/-- A name stands for a service and for a message of one document exactly if a
model with methods gives the service this name and a message override has it. -/
theorem clash_iff {registry : Registry} {scope : Scope} {document : Proto.Document}
    (h : plan registry scope = .ok document) (name : String) :
    name ∈ document.services.map Proto.Service.name ∧
        name ∈ document.messages.map Proto.Message.name ↔
      (∃ owner ∈ inScope registry scope, owner.methods ≠ some .empty ∧
        name = owner.name ++ "Controller") ∧
      ∃ model ∈ inScope registry scope, ∃ overrides, model.messages = some overrides ∧
        name ∈ overrides.keys := by
  rw [mem_names_services h, mem_names_messages h]
  simp only [isEmpty_methodsOf]
  refine and_congr_right ?_
  rintro ⟨owner, -, -, rfl⟩
  simp only [serviceName_mem_keys_iff]

/-- A book whose one message is named like its service. -/
def clashingBook : Model where
  name := "Book"
  fields := [⟨"id", "AutoField"⟩]
  messages := some (.ofList [("BookController", .all)])

/-- A log whose one message is named like the service of another model. -/
def clashingLog : Model where
  name := "Log"
  fields := [⟨"id", "AutoField"⟩]
  methods := some .empty
  messages := some (.ofList [("ShelfController", .listed ["id"])])

def clashing : Registry :=
  ⟨[⟨"library", [clashingBook, clashingLog,
    { name := "Shelf", fields := [⟨"id", "AutoField"⟩], messages := some .empty }]⟩]⟩

/-- An override names a message like the service of its own model. -/
theorem clash_iff_clashing :
    ∃ document, plan clashing ⟨"library", none⟩ = .ok document ∧
      "BookController" ∈ document.services.map Proto.Service.name ∧
      "BookController" ∈ document.messages.map Proto.Message.name := by
  obtain ⟨document, hplan⟩ : ∃ document, plan clashing ⟨"library", none⟩ = .ok document := ⟨_, rfl⟩
  have hbook : clashingBook ∈ inScope clashing ⟨"library", none⟩ := by decide
  refine ⟨document, hplan, (clash_iff hplan "BookController").mpr ⟨?_, ?_⟩⟩
  · exact ⟨clashingBook, hbook, by decide, by decide⟩
  · exact ⟨clashingBook, hbook, _, rfl, by decide⟩

/-- A consistent registry can give a document whose messages have the names of its
services, of the service of their own model and of that of another one. -/
theorem services_and_messages_clash :
    clashing.check = .ok () ∧ ∃ document, plan clashing ⟨"library", none⟩ = .ok document ∧
      document.services.map Proto.Service.name = ["BookController", "ShelfController"] ∧
      document.messages.map Proto.Message.name = ["BookController", "ShelfController"] :=
  ⟨by decide, _, rfl, by decide, by decide⟩

end Protoscribe.Plan
