import Protoscribe.Proofs.Plan.Defaults

/-!
The import that free-form structures need. A document uses their type in the
fields of its messages and, by a qualified reference, as the type that an rpc
takes or gives back. Planning looks at the fields alone: the import is there
exactly if some message holds a structure. A document whose rpcs refer to the
type while no message holds one lacks the import.
-/

namespace Protoscribe

namespace Proto

/-- The type of free-form structures as an rpc shows it, streamed or not. -/
def IsStructReference (text : String) : Prop :=
  text = structType ∨ text = "stream " ++ structType

/-- Some message field is a free-form structure. -/
def Document.HoldsStruct (document : Document) : Prop :=
  ∃ own ∈ document.messages, ∃ field ∈ own.fields, field.type = structType

/-- Some rpc takes or gives back free-form structures. -/
def Document.RefersToStruct (document : Document) : Prop :=
  ∃ own ∈ document.services, ∃ rpc ∈ own.methods,
    IsStructReference rpc.request ∨ IsStructReference rpc.response

theorem Message.usesStruct_iff {own : Message} :
    own.usesStruct = true ↔ ∃ field ∈ own.fields, field.type = structType := by
  simp [Message.usesStruct]

/-- A reference is one to the structure type exactly if its target is that name. -/
theorem isStructReference_iff {target : String} (htarget : isQualified target = true)
    (streamed : Bool) :
    IsStructReference ((if streamed then "stream " else "") ++ target) ↔ target = structType := by
  have hblank : ' ' ∉ target.toList := not_mem_of_isQualified htarget rfl (by decide)
  unfold IsStructReference
  cases streamed with
  | false =>
      simp only [Bool.false_eq_true, if_false, String.empty_append]
      constructor
      · rintro (hsame | hstream)
        · exact hsame
        · exact absurd (by simp [hstream]) hblank
      · exact Or.inl
  | true =>
      simp only [if_true]
      constructor
      · rintro (hplain | hsame)
        · have hin : ' ' ∈ structType.toList := by simp [← hplain]
          exact absurd hin (by decide)
        · exact (String.append_right_inj _).mp hsame
      · rintro rfl
        exact Or.inr rfl

end Proto

namespace Plan

/-- Whatever its tag is, a model field is shown with a scalar type. -/
theorem structType_not_mem_shown {model : Model} {name : String} {selected : List String}
    {shown : List (String × String)}
    (h : List.Forall₂ (fun one field => selectedField model name one = .ok field) selected shown) :
    Proto.structType ∉ shown.map Prod.fst := by
  intro hin
  obtain ⟨one, hone, htype⟩ := List.mem_map.mp hin
  obtain ⟨selected, -, hselected⟩ := exists_left_of_mem h hone
  obtain ⟨field, -, rfl⟩ := selectedField_eq_ok_iff.mp hselected
  exact Proto.scalarType_ne_structType field.tag htype

/-- A message holds free-form structures exactly if they are asked for by name: the
type of a model field is always a scalar. -/
theorem usesStruct_message_iff {model : Model} {name : String} {spec : MessageSpec}
    {own : Proto.Message} (h : message model name spec = .ok own) :
    own.usesStruct = true ↔ spec.structFields ≠ [] := by
  obtain ⟨-, shown, hshown, rfl⟩ := message_eq_ok_iff.mp h
  have hscalar := structType_not_mem_shown hshown
  rw [usesStruct_numbered, List.map_append, List.mem_append]
  cases hstructs : spec.structFields with
  | nil => simpa using hscalar
  | cons first rest => simp

/-- An rpc refers to free-form structures only where its reference names them: a
model that has a service cannot be called like their type. -/
theorem isStructReference_rpcType_iff {model : Model}
    (hname : Proto.isIdentifier model.name = true) {ref : MessageRef} {text : String}
    (h : ref.rpcType model = .ok text) :
    Proto.IsStructReference text ↔ ref.message = some Proto.structType := by
  obtain ⟨htarget, rfl⟩ := rpcType_eq_ok_iff.mp h
  rw [Proto.isStructReference_iff htarget]
  cases hmessage : ref.message with
  | some target => simp
  | none =>
      have hdot : '.' ∉ model.name.toList := Proto.not_mem_of_isIdentifier hname rfl
      have hne : model.name ≠ Proto.structType := by
        intro hsame
        rw [hsame] at hdot
        exact hdot (by decide)
      simpa using hne

section

variable {registry : Registry} {scope : Scope} {sources : Sources} {document : Proto.Document}

/-- The import of a planned document follows its message fields alone. -/
theorem structImport_mem_iff_holdsStruct (h : plan registry scope sources = .ok document) :
    Proto.structImport ∈ document.imports ↔ document.HoldsStruct := by
  rw [imports_eq h, structImport_mem_imports, List.any_eq_true]
  simp only [Proto.Message.usesStruct_iff]
  rfl

/-- A document holds a structure exactly if some entry of a model in scope asks for
one. -/
theorem holdsStruct_iff (h : plan registry scope sources = .ok document) :
    document.HoldsStruct ↔ ∃ model ∈ inScope registry scope,
      ∃ entry ∈ (messagesOf sources model).toList, entry.2.structFields ≠ [] := by
  constructor
  · rintro ⟨own, hown, hfield⟩
    obtain ⟨model, hmodel, entry, hentry, hmessage⟩ := mem_messages h hown
    have huses := Proto.Message.usesStruct_iff.mpr hfield
    exact ⟨model, hmodel, entry, hentry, (usesStruct_message_iff hmessage).mp huses⟩
  · rintro ⟨model, hmodel, entry, hentry, hstructs⟩
    obtain ⟨own, hown, hmessage⟩ := exists_message h hmodel hentry
    have huses := (usesStruct_message_iff hmessage).mpr hstructs
    exact ⟨own, hown, Proto.Message.usesStruct_iff.mp huses⟩

/-- A method refers to the structure type exactly if its entry names it. -/
theorem refersToStruct_iff (h : plan registry scope sources = .ok document) :
    document.RefersToStruct ↔ ∃ model ∈ inScope registry scope,
      ∃ entry ∈ (methodsOf sources model).toList,
        entry.2.request.message = some Proto.structType ∨
          entry.2.response.message = some Proto.structType := by
  have hrefers : ∀ {model : Model}, Proto.isIdentifier model.name = true →
      ∀ {entry : String × Signature} {planned : Proto.Rpc},
        rpc model entry.1 entry.2 = .ok planned →
        (Proto.IsStructReference planned.request ∨ Proto.IsStructReference planned.response ↔
          entry.2.request.message = some Proto.structType ∨
            entry.2.response.message = some Proto.structType) := by
    intro model hname entry planned hrpc
    obtain ⟨-, -, hrequest, hresponse⟩ := rpc_eq_ok_iff.mp hrpc
    rw [isStructReference_rpcType_iff hname hrequest, isStructReference_rpcType_iff hname hresponse]
  constructor
  · rintro ⟨own, hown, planned, hplanned, hstruct⟩
    obtain ⟨model, hmodel, hservice⟩ := mem_services h hown
    obtain ⟨-, hname, -, hrpcs⟩ := service_eq_some_iff.mp hservice
    obtain ⟨entry, hentry, hrpc⟩ := exists_left_of_mem hrpcs hplanned
    exact ⟨model, hmodel, entry, hentry, (hrefers hname hrpc).mp hstruct⟩
  · rintro ⟨model, hmodel, entry, hentry, hstruct⟩
    have hmethods : (methodsOf sources model).isEmpty = false := by
      rw [Bool.eq_false_iff, Ne, OrderedMap.isEmpty_iff]
      intro hempty
      rw [hempty] at hentry
      cases hentry
    obtain ⟨own, hown, hservice⟩ := exists_service h hmodel hmethods
    obtain ⟨-, hname, -, hrpcs⟩ := service_eq_some_iff.mp hservice
    obtain ⟨planned, hplanned, hrpc⟩ := exists_right_of_mem hrpcs hentry
    exact ⟨own, hown, planned, hplanned, (hrefers hname hrpc).mpr hstruct⟩

/-- The header imports free-form structures exactly if a message holds one. A
document that uses their type lacks the import exactly if some method refers to
it and no message asks for a structure. -/
theorem structImport_missing_iff (h : plan registry scope sources = .ok document) :
    (Proto.structImport ∈ document.imports ↔ document.HoldsStruct) ∧
      ((document.HoldsStruct ∨ document.RefersToStruct) ∧
          Proto.structImport ∉ document.imports ↔
        (∃ model ∈ inScope registry scope, ∃ entry ∈ (methodsOf sources model).toList,
          entry.2.request.message = some Proto.structType ∨
            entry.2.response.message = some Proto.structType) ∧
        ∀ model ∈ inScope registry scope, ∀ entry ∈ (messagesOf sources model).toList,
          entry.2.structFields = []) := by
  have himport := structImport_mem_iff_holdsStruct h
  refine ⟨himport, ?_⟩
  rw [himport, ← refersToStruct_iff h]
  have hnone : ¬ document.HoldsStruct ↔ ∀ model ∈ inScope registry scope,
      ∀ entry ∈ (messagesOf sources model).toList, entry.2.structFields = [] := by
    rw [holdsStruct_iff h]
    simp only [not_exists, not_and, not_not]
  rw [← hnone]
  constructor
  · rintro ⟨huses, hmissing⟩
    exact ⟨huses.resolve_left hmissing, hmissing⟩
  · rintro ⟨hrefers, hmissing⟩
    exact ⟨Or.inr hrefers, hmissing⟩

end

/-- A service that takes a free-form structure and gives back a stream of them. -/
def searching : Registry :=
  ⟨[⟨"library", [
    { name := "Book", fields := [⟨"id", "AutoField"⟩],
      methods := some (.ofList [("Search",
        ⟨.named "google.protobuf.Struct", .stream "google.protobuf.Struct"⟩)]) }]⟩]⟩

/-- A method that only refers to the structure type leaves the import out. -/
theorem structImport_missing_iff_searching :
    ∃ document, plan searching ⟨"library", none⟩ = .ok document ∧ document.RefersToStruct ∧
      Proto.structImport ∉ document.imports := by
  obtain ⟨document, hplan⟩ : ∃ document, plan searching ⟨"library", none⟩ = .ok document := ⟨_, rfl⟩
  obtain ⟨himport, hmissing⟩ := structImport_missing_iff hplan
  have hmodels : inScope searching ⟨"library", none⟩ = searching.apps.flatMap App.models := rfl
  obtain ⟨huses, hnone⟩ := hmissing.mpr ⟨⟨_, by rw [hmodels]; exact List.mem_cons_self, _,
    List.mem_cons_self, Or.inl rfl⟩, by decide⟩
  refine ⟨document, hplan, huses.resolve_left ?_, hnone⟩
  exact fun hholds => hnone (himport.mpr hholds)

/-- A consistent registry can give a document whose one rpc takes and gives back
free-form structures without the import that they need. -/
theorem rpc_struct_without_import :
    searching.check = .ok () ∧ ∃ document, plan searching ⟨"library", none⟩ = .ok document ∧
      document.imports = ["google/protobuf/empty.proto"] ∧
      document.services = [⟨"BookController",
        [⟨"Search", "google.protobuf.Struct", "stream google.protobuf.Struct"⟩]⟩] :=
  ⟨by decide, _, rfl, rfl, rfl⟩

/-! ### What calls for the import -/

/-- The merged defaults of a model have a message with free-form structures. -/
def AsksForStruct (sources : List Defaults) (model : Model) : Prop :=
  ∃ entry ∈ (mergeMessages sources model).toList, entry.2.structFields ≠ []

/-- An override never asks for free-form structures. -/
theorem exists_structs_messagesOf_iff {sources : Sources} {model : Model} :
    (∃ entry ∈ (messagesOf sources model).toList, entry.2.structFields ≠ []) ↔
      model.messages = none ∧ AsksForStruct sources.messages model := by
  cases hmessages : model.messages with
  | none =>
      rw [messagesOf, hmessages]
      simp [AsksForStruct]
  | some overrides =>
      simp only [reduceCtorEq, false_and, iff_false]
      rintro ⟨entry, hentry, hstructs⟩
      obtain ⟨selection, -, hspec⟩ := (mem_messagesOf_override hmessages sources).mp hentry
      apply hstructs
      rw [hspec]

/-- Among the mixins only the list asks for structures, as far as its flags do. -/
theorem exists_structs_messageEntries_iff {mixin : Mixin} {model : Model} :
    (∃ entry ∈ mixin.messageEntries model, entry.2.structFields ≠ []) ↔
      mixin = .list ∧ (model.filterRequest = true ∨ model.paginationRequest = true) := by
  cases mixin with
  | list =>
      cases hfilter : model.filterRequest <;> cases hpagination : model.paginationRequest <;>
        simp [Mixin.messageEntries, Mixin.requestStructs, Model.hasStructRequest, hfilter,
          hpagination]
  | _ => simp [Mixin.messageEntries]

/-- Of the built-in mixins only the list asks for structures, as the flags of the model
say. -/
theorem asksForStruct_mixins_iff {mixins : List Mixin} {model : Model} :
    AsksForStruct (mixins.map Mixin.defaults) model ↔
      .list ∈ mixins ∧ (model.filterRequest = true ∨ model.paginationRequest = true) := by
  unfold AsksForStruct
  rw [Mixin.toList_mergeMessages]
  constructor
  · rintro ⟨entry, hentry, hstructs⟩
    obtain ⟨mixin, hmixin, hin⟩ := List.mem_flatMap.mp hentry
    obtain ⟨rfl, hflags⟩ := exists_structs_messageEntries_iff.mp ⟨entry, hin, hstructs⟩
    exact ⟨List.mem_eraseDups.mp hmixin, hflags⟩
  · rintro ⟨hlist, hflags⟩
    obtain ⟨entry, hentry, hstructs⟩ := exists_structs_messageEntries_iff.mpr ⟨rfl, hflags⟩
    exact ⟨entry, List.mem_flatMap.mpr ⟨.list, List.mem_eraseDups.mpr hlist, hentry⟩, hstructs⟩

/-- A field of the type of free-form structures was asked for by its name. -/
theorem name_mem_structFields {model : Model} {name : String} {spec : MessageSpec}
    {own : Proto.Message} (h : message model name spec = .ok own) {field : Proto.MessageField}
    (hfield : field ∈ own.fields) (htype : field.type = Proto.structType) :
    field.name ∈ spec.structFields := by
  obtain ⟨-, shown, hshown, rfl⟩ := message_eq_ok_iff.mp h
  have hpair := List.mem_map_of_mem (f := fun field : Proto.MessageField =>
    (field.type, field.name)) hfield
  rw [Proto.Message.numbered, Proto.map_typed_numberFrom, List.mem_append] at hpair
  rcases hpair with hselected | hstruct
  · have hin : field.type ∈ shown.map Prod.fst := List.mem_map_of_mem hselected
    rw [htype] at hin
    exact absurd hin (structType_not_mem_shown hshown)
  · obtain ⟨struct, hstruct, hsame⟩ := List.mem_map.mp hstruct
    rw [← (Prod.mk.inj hsame).2]
    exact hstruct

theorem isAbstract_of_mem_inScope {registry : Registry} {scope : Scope} {model : Model}
    (h : model ∈ inScope registry scope) : model.isAbstract = false := by
  obtain ⟨app, -, hmodel⟩ := mem_inScope h
  exact (mem_concreteModels.mp hmodel).2

/-- A document imports the empty message and, exactly if the merged defaults of a
concrete model in scope that overrides no messages ask for structures, those too. With
the built-in sources it is the flags of such a model that ask. Each field of the
type of structures is one that these defaults name: no tag, no abstract model and
no override brings one about. -/
theorem structImport_iff_asked {registry : Registry} {scope : Scope} {sources : Sources}
    {document : Proto.Document} (h : plan registry scope sources = .ok document) :
    (document.imports = [Proto.emptyImport] ∨
        document.imports = [Proto.emptyImport, Proto.structImport]) ∧
      (Proto.structImport ∈ document.imports ↔ ∃ model ∈ inScope registry scope,
        model.messages = none ∧ AsksForStruct sources.messages model) ∧
      (sources.messages = Mixin.messageOrder.map Mixin.defaults →
        (Proto.structImport ∈ document.imports ↔ ∃ model ∈ inScope registry scope,
          model.messages = none ∧
            (model.filterRequest = true ∨ model.paginationRequest = true))) ∧
      (∀ own ∈ document.messages, ∀ field ∈ own.fields, field.type = Proto.structType →
        ∃ model ∈ inScope registry scope, model.isAbstract = false ∧ model.messages = none ∧
          ∃ entry ∈ (mergeMessages sources.messages model).toList,
            own.name = entry.1 ∧ field.name ∈ entry.2.structFields) := by
  have hasked : Proto.structImport ∈ document.imports ↔ ∃ model ∈ inScope registry scope,
      model.messages = none ∧ AsksForStruct sources.messages model := by
    rw [structImport_mem_iff_holdsStruct h, holdsStruct_iff h]
    simp only [exists_structs_messagesOf_iff]
  refine ⟨?_, hasked, ?_, ?_⟩
  · rw [imports_eq h, imports]
    split
    · exact .inr rfl
    · exact .inl rfl
  · intro hsources
    have hlist : Mixin.list ∈ Mixin.messageOrder := by decide
    rw [hasked, hsources]
    simp only [asksForStruct_mixins_iff, hlist, true_and]
  · intro own hown field hfield htype
    obtain ⟨model, hmodel, entry, hentry, hmessage⟩ := mem_messages h hown
    have hname := name_mem_structFields hmessage hfield htype
    have hstructs : entry.2.structFields ≠ [] := List.ne_nil_of_mem hname
    obtain ⟨hmessages, -⟩ := exists_structs_messagesOf_iff.mp ⟨entry, hentry, hstructs⟩
    rw [messagesOf, hmessages] at hentry
    exact ⟨model, hmodel, isAbstract_of_mem_inScope hmodel, hmessages, entry, hentry,
      name_message hmessage, hname⟩

/-- Of four models with a flag or a tag that points at structures, the last one is
concrete, overrides no message and asks for them. -/
def pointing : Registry :=
  ⟨[⟨"library", [
    { name := "Paged", isAbstract := true, paginationRequest := true },
    { name := "Note", fields := [⟨"id", "AutoField"⟩, ⟨"body", "google.protobuf.Struct"⟩] },
    { name := "Shelf", fields := [⟨"id", "AutoField"⟩], messages := some .empty,
      filterRequest := true },
    { name := "Book", fields := [⟨"id", "AutoField"⟩], paginationRequest := true }]⟩]⟩

def messagesOnly : Sources := { methods := [] }

/-- The flag of an abstract model counts for nothing, and that of a concrete one does.
-/
theorem structImport_iff_asked_pointing :
    (∃ document, plan pointing ⟨"library", some "Note"⟩ messagesOnly = .ok document ∧
        document.imports = [Proto.emptyImport]) ∧
      ∃ document, plan pointing ⟨"library", none⟩ messagesOnly = .ok document ∧
        document.imports = [Proto.emptyImport, Proto.structImport] := by
  obtain ⟨note, hnote⟩ :
      ∃ document, plan pointing ⟨"library", some "Note"⟩ messagesOnly = .ok document := ⟨_, rfl⟩
  obtain ⟨whole, hwhole⟩ :
      ∃ document, plan pointing ⟨"library", none⟩ messagesOnly = .ok document := ⟨_, rfl⟩
  obtain ⟨hshapeNote, -, hflagsNote, -⟩ := structImport_iff_asked hnote
  obtain ⟨hshape, -, hflags, -⟩ := structImport_iff_asked hwhole
  refine ⟨⟨note, hnote, hshapeNote.resolve_right ?_⟩, whole, hwhole, hshape.resolve_left ?_⟩
  · intro himports
    have himport : Proto.structImport ∈ note.imports := by simp [himports]
    exact absurd ((hflagsNote rfl).mp himport) (by decide)
  · intro himports
    have himport : Proto.structImport ∈ whole.imports := (hflags rfl).mpr (by decide)
    rw [himports] at himport
    exact absurd himport (by decide)

end Plan

end Protoscribe
