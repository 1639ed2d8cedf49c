import Protoscribe.Proofs.Plan.Defaults

/-!
Plans before and after a registry is revised. A revision changes one model of one
application and keeps what the model is found by, so the same models are in
scope before and after it, and only the share of the revised model can differ.
A field behind all others of its model reaches exactly the messages that show all
fields, at their end, so that every number that was given stays as it is.
-/

namespace Protoscribe

def Model.revise (model : Model) (name : String) (change : Model → Model) : Model :=
  if model.name = name then change model else model

def App.revise (app : App) (name : String) (change : Model → Model) : App :=
  { app with models := app.models.map (·.revise name change) }

/-- Changes the model of one name in the application of one name. -/
def Registry.revise (registry : Registry) (app model : String) (change : Model → Model) :
    Registry :=
  ⟨registry.apps.map fun other => if other.name = app then other.revise model change else other⟩

def Model.append (model : Model) (field : Field) : Model :=
  { model with fields := model.fields ++ [field] }

namespace Proto

def Message.append (own : Message) (type name : String) : Message :=
  { own with fields := own.fields ++ [⟨type, name, own.fields.length + 1⟩] }

/-- Later fields are numbered on from the earlier ones. -/
theorem numberFrom_append (start : Nat) (first second : List (String × String)) :
    numberFrom start (first ++ second) =
      numberFrom start first ++ numberFrom (start + first.length) second := by
  induction first generalizing start with
  | nil => rfl
  | cons field rest ih =>
      have hstart : start + 1 + rest.length = start + (rest.length + 1) := by omega
      simp only [List.cons_append, numberFrom, List.length_cons, ih, hstart]

theorem Message.append_numbered (name : String) (fields : List (String × String))
    (field : String × String) :
    (Message.numbered name fields).append field.1 field.2 =
      Message.numbered name (fields ++ [field]) := by
  have hlast : numberFrom (1 + fields.length) [field] =
      [⟨field.1, field.2, (numberFrom 1 fields).length + 1⟩] := by
    rw [length_numberFrom, Nat.add_comm]
    rfl
  rw [Message.numbered, Message.numbered, numberFrom_append, hlast]
  rfl

theorem Message.usesStruct_append {own : Message} {type name : String} (h : type ≠ structType) :
    (own.append type name).usesStruct = own.usesStruct := by
  simp [Message.usesStruct, Message.append, h]

end Proto

namespace Plan

/-! ### Scopes of a revised registry -/

/-- A revision keeps the names of models, and which of them are abstract. -/
structure KeepsIdentity (change : Model → Model) : Prop where
  name : ∀ model, (change model).name = model.name
  isAbstract : ∀ model, (change model).isAbstract = model.isAbstract

section

variable {change : Model → Model}

/-- A revision that keeps identities changes no name. -/
theorem name_revise (h : KeepsIdentity change) (name : String) (model : Model) :
    (model.revise name change).name = model.name := by
  unfold Model.revise
  split
  · exact h.name model
  · rfl

theorem isAbstract_revise (h : KeepsIdentity change) (name : String) (model : Model) :
    (model.revise name change).isAbstract = model.isAbstract := by
  unfold Model.revise
  split
  · exact h.isAbstract model
  · rfl

/-- A revised model is found where the old one was. -/
theorem model?_revise (h : KeepsIdentity change) (app : App) (name other : String) :
    (app.revise name change).model? other = (app.model? other).map (·.revise name change) := by
  simp only [App.model?, App.revise, List.find?_map, Function.comp_def, name_revise h]

theorem concreteModels_revise (h : KeepsIdentity change) (app : App) (name : String) :
    (app.revise name change).concreteModels =
      app.concreteModels.map (·.revise name change) := by
  simp only [App.concreteModels, App.revise, List.filter_map, Function.comp_def,
    isAbstract_revise h]

theorem app?_revise (registry : Registry) (app name : String) (change : Model → Model) :
    (registry.revise app name change).app? app =
      (registry.app? app).map (·.revise name change) := by
  have hname : ∀ other : App,
      (if other.name = app then other.revise name change else other).name = other.name := by
    intro other
    split <;> rfl
  simp only [Registry.app?, Registry.revise, List.find?_map, Function.comp_def, hname]
  cases hfound : registry.apps.find? (·.name = app) with
  | none => rfl
  | some found =>
      have hsame : found.name = app := by simpa using List.find?_some hfound
      simp only [Option.map_some, if_pos hsame]

/-- A revision changes what is in a scope, not which models are. -/
theorem resolve_revise (h : KeepsIdentity change) (registry : Registry) (scope : Scope)
    (name : String) :
    resolve (registry.revise scope.app name change) scope =
      (resolve registry scope).map (List.map (·.revise name change)) := by
  simp only [resolve, app?_revise]
  cases registry.app? scope.app with
  | none => rfl
  | some app =>
      simp only [Option.map_some]
      cases scope.model with
      | none => simp only [concreteModels_revise h, Except.map]
      | some other =>
          simp only [model?_revise h]
          cases app.model? other with
          | none => rfl
          | some model =>
              simp only [Option.map_some, isAbstract_revise h, Except.map]
              split <;> rfl

/-- A revised registry has a document exactly if the revised models resolve one by
one and stay apart. -/
theorem plan_revise_eq_ok_iff (h : KeepsIdentity change) {registry : Registry} {scope : Scope}
    {sources : Sources} {name : String} {document : Proto.Document} :
    plan (registry.revise scope.app name change) scope sources = .ok document ↔
      ∃ models shares, resolve registry scope = .ok models ∧
        List.Forall₂ (fun model own => share sources (model.revise name change) = .ok own)
          models shares ∧
        (models.map (·.revise name change)).Pairwise (KeysApart sources) ∧
        document = assemble scope.app shares := by
  rw [plan_eq_ok_iff, resolve_revise h]
  constructor
  · rintro ⟨revised, shares, hrevised, hshares, hapart, hdocument⟩
    cases hmodels : resolve registry scope with
    | error fault =>
        rw [hmodels] at hrevised
        cases hrevised
    | ok models =>
        rw [hmodels] at hrevised
        cases hrevised
        exact ⟨models, shares, rfl, List.forall₂_map_left_iff.mp hshares, hapart, hdocument⟩
  · rintro ⟨models, shares, hmodels, hshares, hapart, hdocument⟩
    rw [hmodels]
    exact ⟨_, shares, rfl, List.forall₂_map_left_iff.mpr hshares, hapart, hdocument⟩

end

/-! ### What a share depends on -/

/-- A service follows from the name of a model and its methods. -/
theorem service_congr {sources : Sources} {model other : Model} (hname : other.name = model.name)
    (hmethods : methodsOf sources other = methodsOf sources model) :
    service sources other = service sources model := by
  have hrpc : ∀ name signature, rpc other name signature = rpc model name signature := by
    intro name signature
    simp only [rpc, MessageRef.rpcType, hname]
  simp only [service, serviceName, hname, hmethods, hrpc]

/-- The default methods of a model show its name and nothing else of it. -/
theorem methodsOf_congr {model other : Model} (hname : other.name = model.name)
    (hmethods : other.methods = model.methods) (mixins : List Mixin) (others : List Defaults) :
    methodsOf ⟨mixins.map Mixin.defaults, others⟩ other =
      methodsOf ⟨mixins.map Mixin.defaults, others⟩ model := by
  have hmixin : ∀ mixin : Mixin, mixin.defaults.methods other = mixin.defaults.methods model := by
    intro mixin
    change mixin.methods other = mixin.methods model
    simp only [Mixin.methods, hname]
  simp only [methodsOf, mergeMethods, List.foldl_map, hmethods, hmixin]

/-- Where no mixin tells two models apart, neither do the merged messages. -/
theorem messagesOf_congr {model other : Model}
    (hentries : ∀ mixin : Mixin, mixin.messageEntries other = mixin.messageEntries model)
    (hmessages : other.messages = model.messages) (others : List Defaults) (mixins : List Mixin) :
    messagesOf ⟨others, mixins.map Mixin.defaults⟩ other =
      messagesOf ⟨others, mixins.map Mixin.defaults⟩ model := by
  have hmixin : ∀ mixin : Mixin, mixin.defaults.messages other = mixin.defaults.messages model := by
    intro mixin
    change mixin.messages other = mixin.messages model
    simp only [Mixin.messages, hentries]
  simp only [messagesOf, mergeMessages, List.foldl_map, hmessages, hmixin]

/-- Which messages a model has does not depend on its fields. -/
theorem messagesOf_append (others : List Defaults) (mixins : List Mixin) (model : Model)
    (field : Field) :
    messagesOf ⟨others, mixins.map Mixin.defaults⟩ (model.append field) =
      messagesOf ⟨others, mixins.map Mixin.defaults⟩ model := by
  have hentries : ∀ mixin : Mixin,
      mixin.messageEntries (model.append field) = mixin.messageEntries model := by
    intro mixin
    cases mixin <;> rfl
  exact messagesOf_congr hentries rfl others mixins

/-! ### A field behind all others -/

def wildcards (sources : Sources) (model : Model) : List String :=
  ((messagesOf sources model).toList.filter (·.2.selection = .all)).map Prod.fst

/-- Keys are unique, so a key tells whether its message shows all fields. -/
theorem mem_wildcards_iff {sources : Sources} {model : Model} {entry : String × MessageSpec}
    (h : entry ∈ (messagesOf sources model).toList) :
    entry.1 ∈ wildcards sources model ↔ entry.2.selection = .all := by
  constructor
  · intro hin
    obtain ⟨found, hfound, hname⟩ := List.mem_map.mp hin
    obtain ⟨hentry, hall⟩ := List.mem_filter.mp hfound
    have hsame : found = entry :=
      List.inj_on_of_nodup_map (messagesOf sources model).nodup_keys hentry h hname
    rw [← hsame]
    exact of_decide_eq_true hall
  · intro hall
    exact List.mem_map_of_mem (List.mem_filter.mpr ⟨h, decide_eq_true hall⟩)

theorem wildcards_subset_keys (sources : Sources) (model : Model) :
    wildcards sources model ⊆ (messagesOf sources model).keys :=
  (List.filter_sublist.map Prod.fst).subset

/-- No built-in message and no override has structures behind all fields of a model. -/
theorem structFields_of_all {others : List Defaults} {mixins : List Mixin} {model : Model}
    {entry : String × MessageSpec}
    (h : entry ∈ (messagesOf ⟨others, mixins.map Mixin.defaults⟩ model).toList)
    (hall : entry.2.selection = .all) : entry.2.structFields = [] := by
  rcases origin_of_mem_messagesOf h with ⟨-, selection, -, -, hspec⟩ | ⟨-, mixin, -, hmixin⟩
  · rw [hspec]
  · rcases Mixin.spec_of_mem_messageEntries hmixin with hspec | hspec | hspec
    · rw [hspec]
    · rw [hspec] at hall
      cases hall
    · rw [hspec] at hall
      cases hall

/-- A field that was found is still found behind an append. -/
theorem field?_append_old {model : Model} {field found : Field} {name : String}
    (h : model.field? name = some found) : (model.append field).field? name = some found := by
  change (model.fields ++ [field]).find? _ = some found
  have hfound : model.fields.find? (·.name = name) = some found := h
  rw [List.find?_append, hfound, Option.some_or]

theorem field?_append_new {model : Model} {field : Field} (h : field.name ∉ model.fieldNames) :
    (model.append field).field? field.name = some field := by
  have hnone : model.field? field.name = none := by
    rw [← Option.not_isSome_iff_eq_none, isSome_field?]
    exact h
  change (model.fields ++ [field]).find? _ = some field
  have hmissing : model.fields.find? (·.name = field.name) = none := hnone
  rw [List.find?_append, hmissing, Option.none_or]
  simp

theorem selectedField_append {model : Model} {field : Field} {name selected : String}
    {shown : String × String} (h : selectedField model name selected = .ok shown) :
    selectedField (model.append field) name selected = .ok shown := by
  obtain ⟨found, hfound, hshown⟩ := selectedField_eq_ok_iff.mp h
  exact selectedField_eq_ok_iff.mpr ⟨found, field?_append_old hfound, hshown⟩

/-- A message that shows all fields gains the new one, any other stays as it is. -/
theorem message_append {model : Model} {field : Field} (hnew : field.name ∉ model.fieldNames)
    {name : String} {spec : MessageSpec} (hstructs : spec.selection = .all → spec.structFields = [])
    {own : Proto.Message} (h : message model name spec = .ok own) :
    message (model.append field) name spec =
      .ok (if spec.selection = .all then own.append (Proto.scalarType field.tag) field.name
        else own) := by
  obtain ⟨hname, shown, hshown, rfl⟩ := message_eq_ok_iff.mp h
  have hkept : List.Forall₂ (fun selected one =>
      selectedField (model.append field) name selected = .ok one)
      (selectedNames model spec.selection) shown :=
    hshown.imp fun _ _ hone => selectedField_append hone
  rw [message_eq_ok_iff]
  refine ⟨hname, ?_⟩
  cases hselection : spec.selection with
  | all =>
      have hlast : selectedField (model.append field) name field.name =
          .ok (Proto.scalarType field.tag, field.name) :=
        selectedField_eq_ok_iff.mpr ⟨field, field?_append_new hnew, rfl⟩
      have hnames : selectedNames (model.append field) .all =
          selectedNames model .all ++ [field.name] :=
        List.map_append
      rw [hselection] at hkept
      refine ⟨shown ++ [(Proto.scalarType field.tag, field.name)], ?_, ?_⟩
      · rw [hnames]
        exact List.rel_append hkept (.cons hlast .nil)
      · rw [if_pos rfl, hstructs hselection]
        simp only [List.map_nil, List.append_nil]
        exact Proto.Message.append_numbered name shown (Proto.scalarType field.tag, field.name)
  | listed names =>
      rw [hselection] at hkept
      exact ⟨shown, hkept, by simp⟩

/-- A message as it stands after a field was added to a model: one field longer if it
is one of the given messages. -/
def grown (field : Field) (names : List String) (own : Proto.Message) : Proto.Message :=
  if own.name ∈ names then own.append (Proto.scalarType field.tag) field.name else own

/-- A field of a model is no free-form structure. -/
theorem usesStruct_grown (field : Field) (names : List String) (own : Proto.Message) :
    (grown field names own).usesStruct = own.usesStruct := by
  unfold grown
  split
  · exact Proto.Message.usesStruct_append (Proto.scalarType_ne_structType field.tag)
  · rfl

/-- Appending a field never needs another import. -/
theorem imports_grown (field : Field) (names : List String) (messages : List Proto.Message) :
    imports (messages.map (grown field names)) = imports messages := by
  simp only [imports, List.any_map, Function.comp_def, usesStruct_grown]

section

variable {methods messages : List Mixin}

/-- Behind an append a model keeps its service, and its wildcard messages grow. -/
theorem share_append {model : Model} {field : Field} (hnew : field.name ∉ model.fieldNames)
    {own : Share} (h : share (builtIn methods messages) model = .ok own) :
    share (builtIn methods messages) (model.append field) =
      .ok ⟨own.service, own.messages.map (grown field
        (wildcards (builtIn methods messages) model))⟩ := by
  obtain ⟨hservice, hmessages⟩ := share_eq_ok_iff.mp h
  refine share_eq_ok_iff.mpr ⟨?_, ?_⟩
  · have hname : (model.append field).name = model.name := rfl
    have hmethods := methodsOf_congr hname rfl methods (messages.map Mixin.defaults)
    have hsame : service (builtIn methods messages) (model.append field) =
        service (builtIn methods messages) model := service_congr hname hmethods
    exact hsame.trans hservice
  · unfold Plan.messages at hmessages ⊢
    rw [mapM_eq_ok_iff] at hmessages
    rw [messagesOf_append, mapM_eq_ok_iff, List.forall₂_map_right_iff]
    have hin := (List.forall₂_and_left _ _).mpr ⟨fun entry hentry => hentry, hmessages⟩
    refine hin.imp ?_
    rintro entry planned ⟨hentry, hplanned⟩
    rw [message_append hnew (structFields_of_all hentry) hplanned, grown, name_message hplanned]
    simp only [mem_wildcards_iff hentry]

/-- The messages of other models do not bear the names of those that grow. -/
theorem map_grown_of_apart {sources : Sources} {model other : Model}
    (hapart : KeysApart sources model other) {own : Share} (h : share sources other = .ok own)
    (field : Field) : own.messages.map (grown field (wildcards sources model)) = own.messages := by
  have hsame : ∀ planned ∈ own.messages, grown field (wildcards sources model) planned = planned := by
    intro planned hplanned
    have hkey : planned.name ∈ (messagesOf sources other).keys := by
      rw [← names_share h]
      exact List.mem_map_of_mem hplanned
    have hfree : planned.name ∉ wildcards sources model :=
      fun hin => hapart (wildcards_subset_keys sources model hin) hkey
    exact if_neg hfree
  exact (List.map_congr_left hsame).trans (List.map_id _)

theorem eq_of_inScope {registry : Registry} (hconsistent : registry.Consistent) {scope : Scope}
    {model other : Model} (hmodel : model ∈ inScope registry scope)
    (hother : other ∈ inScope registry scope) (hname : model.name = other.name) : model = other := by
  obtain ⟨app, happ, hin⟩ := mem_inScope hmodel
  obtain ⟨found, hfound, hotherIn⟩ := mem_inScope hother
  cases happ.symm.trans hfound
  have hnames := (hconsistent.apps app (List.mem_of_find?_eq_some happ)).names
  exact List.inj_on_of_nodup_map hnames (mem_concreteModels.mp hin).1
    (mem_concreteModels.mp hotherIn).1 hname

/-- The shares of all models in scope, once the field is added to one of them. -/
theorem share_revise {registry : Registry} (hconsistent : registry.Consistent) {scope : Scope}
    {model other : Model} (hmodel : model ∈ inScope registry scope)
    (hother : other ∈ inScope registry scope)
    (hapart : model ≠ other →
      KeysApart (builtIn methods messages) model other)
    {field : Field} (hnew : field.name ∉ model.fieldNames) {own : Share}
    (h : share (builtIn methods messages) other = .ok own) :
    share (builtIn methods messages)
        (other.revise model.name (·.append field)) =
      .ok ⟨own.service, own.messages.map (grown field
        (wildcards (builtIn methods messages) model))⟩ := by
  by_cases hsame : model = other
  · subst hsame
    rw [Model.revise, if_pos rfl]
    exact share_append hnew h
  · have hname : other.name ≠ model.name :=
      fun e => hsame (eq_of_inScope hconsistent hmodel hother e.symm)
    rw [Model.revise, if_neg hname, map_grown_of_apart (hapart hsame) h]
    exact h

/-- A field that is put behind all others of a model changes a document in one way:
each message of the model that shows all its fields shows the new one too, at its
end and under the next number. -/
theorem plan_append {registry : Registry} (hcheck : registry.check = .ok ()) {scope : Scope}
    {document : Proto.Document}
    (h : plan registry scope (builtIn methods messages) =
      .ok document)
    {model : Model} (hmodel : model ∈ inScope registry scope) {field : Field}
    (hnew : field.name ∉ model.fieldNames) :
    plan (registry.revise scope.app model.name (·.append field)) scope
        (builtIn methods messages) =
      .ok { document with messages := document.messages.map (grown field
        (wildcards (builtIn methods messages) model)) } := by
  have hconsistent := Registry.check_eq_ok_iff.mp hcheck
  have hkeeps : KeepsIdentity (·.append field) := ⟨fun _ => rfl, fun _ => rfl⟩
  have hsymm : Std.Symm
      (KeysApart (builtIn methods messages)) :=
    ⟨fun _ _ hapart => hapart.symm⟩
  obtain ⟨models, shares, hmodels, hshares, hapart, rfl⟩ := plan_eq_ok_iff.mp h
  have hscope : models = inScope registry scope := eq_inScope hmodels
  have hsame : ∀ other : Model,
      messagesOf (builtIn methods messages)
          (other.revise model.name (·.append field)) =
        messagesOf (builtIn methods messages) other := by
    intro other
    unfold Model.revise
    split
    · exact messagesOf_append _ messages other field
    · rfl
  let grow (own : Share) : Share :=
    ⟨own.service, own.messages.map (grown field
      (wildcards (builtIn methods messages) model))⟩
  refine (plan_revise_eq_ok_iff hkeeps).mpr ⟨models, shares.map grow, hmodels, ?_, ?_, ?_⟩
  · rw [List.forall₂_map_right_iff]
    have hin := (List.forall₂_and_left _ _).mpr ⟨fun other hother => hother, hshares⟩
    refine hin.imp ?_
    rintro other own ⟨hother, hown⟩
    have hotherIn : other ∈ inScope registry scope := hscope ▸ hother
    refine share_revise hconsistent hmodel hotherIn ?_ hnew hown
    exact fun hne => hapart.forall (hscope ▸ hmodel) hother hne
  · rw [List.pairwise_map]
    refine hapart.imp ?_
    intro first second hfree
    rw [KeysApart, hsame, hsame]
    exact hfree
  · have hmessages : (shares.map grow).flatMap Share.messages =
        (shares.flatMap Share.messages).map (grown field
          (wildcards (builtIn methods messages) model)) := by
      rw [List.flatMap_map, List.map_flatMap]
    have hservices : (shares.map grow).filterMap Share.service =
        shares.filterMap Share.service := List.filterMap_map
    simp only [assemble, hmessages, hservices, imports_grown]

end

/-- A book with one message that shows all its fields and one that shows its title. -/
def catalogBook : Model where
  name := "Book"
  fields := [⟨"id", "AutoField"⟩, ⟨"title", "CharField"⟩]
  messages := some (.ofList [("BookFull", .all), ("BookTitle", .listed ["title"])])

def catalog : Registry :=
  ⟨[⟨"library", [catalogBook,
    { name := "Shelf", fields := [⟨"id", "AutoField"⟩], methods := some .empty }]⟩]⟩

/-- Of two messages of one model only the wildcard one grows, by the field numbered
third. -/
theorem plan_append_catalog :
    catalog.check = .ok () ∧ catalogBook ∈ inScope catalog ⟨"library", none⟩ ∧
      "pages" ∉ catalogBook.fieldNames ∧
      plan (catalog.revise "library" "Book" (·.append ⟨"pages", "PositiveIntegerField"⟩))
          ⟨"library", none⟩ (builtIn [.retrieve] [.create]) =
        .ok ⟨"library", ["google/protobuf/empty.proto"],
          [⟨"BookController",
            [⟨"RetrieveBook", "BookRetrieveRequest", "BookRetrieveResponse"⟩]⟩],
          [⟨"BookFull", [⟨"int32", "id", 1⟩, ⟨"string", "title", 2⟩, ⟨"int32", "pages", 3⟩]⟩,
            ⟨"BookTitle", [⟨"string", "title", 1⟩]⟩,
            ⟨"ShelfCreateRequest", [⟨"int32", "id", 1⟩]⟩]⟩ := by
  have hcheck : catalog.check = .ok () := by decide
  have hmodel : catalogBook ∈ inScope catalog ⟨"library", none⟩ := by decide
  have hnew : (⟨"pages", "PositiveIntegerField"⟩ : Field).name ∉ catalogBook.fieldNames := by
    decide
  have hplan : plan catalog ⟨"library", none⟩ (builtIn [.retrieve] [.create]) =
      .ok ⟨"library", ["google/protobuf/empty.proto"],
        [⟨"BookController",
          [⟨"RetrieveBook", "BookRetrieveRequest", "BookRetrieveResponse"⟩]⟩],
        [⟨"BookFull", [⟨"int32", "id", 1⟩, ⟨"string", "title", 2⟩]⟩,
          ⟨"BookTitle", [⟨"string", "title", 1⟩]⟩,
          ⟨"ShelfCreateRequest", [⟨"int32", "id", 1⟩]⟩]⟩ := rfl
  have hrevised := plan_append hcheck hplan hmodel hnew
  exact ⟨hcheck, hmodel, hnew, hrevised⟩

end Plan

end Protoscribe
