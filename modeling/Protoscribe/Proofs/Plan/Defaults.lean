import Protoscribe.Proofs.Mixin
import Protoscribe.Proofs.Plan.Compose
import Protoscribe.Proofs.Plan.Contents
import Protoscribe.Proofs.Proto.Identifier
import Protoscribe.Proofs.Registry.Check

/-!
What is generated from mixins alone. A consistent registry leaves a model
without overrides nothing to fail on except its own name, and no two models can
meet in a message, since the name of a default message shows the model and the
mixin that it comes from.
-/

namespace Protoscribe

namespace Plan

/-! ### What mixins give -/

/-- The models that a scope covers: the concrete models of an application, or one of them. -/
inductive Covers (app : App) : Scope → List Model → Prop where
  | whole : Covers app ⟨app.name, none⟩ app.concreteModels
  | single {model : Model} (h : model ∈ app.concreteModels) :
      Covers app ⟨app.name, some model.name⟩ [model]

abbrev builtIn (methods messages : List Mixin) : Sources :=
  ⟨methods.map Mixin.defaults, messages.map Mixin.defaults⟩

/-- A model that overrides nothing and whose name is an identifier. -/
structure Plain (model : Model) : Prop where
  methods : model.methods = none
  messages : model.messages = none
  name : Proto.isIdentifier model.name = true

def defaultRpc (model : Model) (mixin : Mixin) : Proto.Rpc where
  name := mixin.verb ++ model.name
  request := model.name ++ mixin.verb ++ "Request"
  response := (if mixin = .list then "stream " else "") ++ (model.name ++ mixin.verb ++ "Response")

def defaultService (mixins : List Mixin) (model : Model) : Option Proto.Service :=
  if mixins = [] then none
  else some ⟨model.name ++ "Controller", mixins.eraseDups.map (defaultRpc model)⟩

def allFields (model : Model) : List (String × String) := model.fields.map typed

def keyFields (model : Model) : List (String × String) :=
  (model.fields.filter (·.name = model.key)).map typed

def requestFields (model : Model) : List (String × String) :=
  (if model.filterRequest then [("google.protobuf.Struct", "_filters")] else []) ++
    if model.paginationRequest then [("google.protobuf.Struct", "_pagination")] else []

/-- The messages of one mixin. -/
def defaultMessages (model : Model) : Mixin → List Proto.Message
  | .create => [.numbered (model.name ++ "CreateRequest") (allFields model)]
  | .list =>
      (if model.hasStructRequest then
        [.numbered (model.name ++ "ListRequest") (requestFields model)]
      else []) ++ [.numbered (model.name ++ "ListResponse") (allFields model)]
  | .retrieve => [.numbered (model.name ++ "RetrieveRequest") (keyFields model)]
  | .update => []
  | .destroy => [.numbered (model.name ++ "DestroyRequest") (keyFields model)]

/-- The document of some models of an application, from two lists of mixins. -/
def defaultDocument (app : App) (models : List Model) (methods messages : List Mixin) :
    Proto.Document where
  package := app.name
  imports :=
    if .list ∈ messages ∧ ∃ model ∈ models, model.hasStructRequest = true then
      ["google/protobuf/empty.proto", "google/protobuf/struct.proto"]
    else ["google/protobuf/empty.proto"]
  services := models.filterMap (defaultService methods)
  messages := models.flatMap fun model => messages.eraseDups.flatMap (defaultMessages model)

/-! ### Scopes -/

theorem mem_concreteModels {app : App} {model : Model} :
    model ∈ app.concreteModels ↔ model ∈ app.models ∧ model.isAbstract = false := by
  simp [App.concreteModels]

theorem Covers.concrete {app : App} {scope : Scope} {models : List Model}
    (h : Covers app scope models) : ∀ model ∈ models, model ∈ app.concreteModels := by
  cases h with
  | whole => exact fun _ hmodel => hmodel
  | single hconcrete =>
      intro model hmodel
      rw [List.mem_singleton.mp hmodel]
      exact hconcrete

/-- A scope covers models whose names differ if those of the application do. -/
theorem Covers.names {app : App} {scope : Scope} {models : List Model}
    (h : Covers app scope models) (hnames : (app.models.map Model.name).Nodup) :
    (models.map Model.name).Nodup := by
  cases h with
  | whole => exact hnames.sublist (List.filter_sublist.map Model.name)
  | single => exact List.nodup_singleton _

/-- In a consistent registry a scope resolves to the models that it covers. -/
theorem Covers.resolve {registry : Registry} (hconsistent : registry.Consistent) {app : App}
    (happ : app ∈ registry.apps) {scope : Scope} {models : List Model}
    (h : Covers app scope models) : resolve registry scope = .ok models := by
  have hfound : registry.app? app.name = some app := find?_of_nodup hconsistent.names happ
  cases h with
  | whole => rw [resolve_app hfound, concreteModels_eq]
  | single hmodel =>
      obtain ⟨hin, hconcrete⟩ := mem_concreteModels.mp hmodel
      rw [resolve_model hfound (hconsistent.apps app happ).names hin, produced, hconcrete]
      rfl

/-- A model in scope is a concrete one of the application that is asked for. -/
theorem mem_inScope {registry : Registry} {scope : Scope} {model : Model}
    (h : model ∈ inScope registry scope) :
    ∃ app, registry.app? scope.app = some app ∧ model ∈ app.concreteModels := by
  unfold inScope at h
  cases happ : registry.app? scope.app with
  | none =>
      rw [happ] at h
      cases h
  | some app =>
      refine ⟨app, rfl, ?_⟩
      rw [happ] at h
      obtain ⟨hcovered, hconcrete⟩ := List.mem_filter.mp h
      refine List.mem_filter.mpr ⟨?_, hconcrete⟩
      cases hname : scope.model with
      | none => simpa [hname] using hcovered
      | some name =>
          have hfound : app.model? name = some model := by simpa [hname] using hcovered
          exact List.mem_of_find?_eq_some hfound

/-- A model in scope is consistent if the registry is. -/
theorem consistent_of_inScope {registry : Registry} (hconsistent : registry.Consistent)
    {scope : Scope} {model : Model} (h : model ∈ inScope registry scope) : model.Consistent := by
  obtain ⟨app, happ, hmodel⟩ := mem_inScope h
  have hin : app ∈ registry.apps := List.mem_of_find?_eq_some happ
  exact (hconsistent.apps app hin).models model (mem_concreteModels.mp hmodel).1

/-! ### Services -/

theorem all_verb (mixin : Mixin) : mixin.verb.toList.all Proto.isIdentifierChar = true := by
  cases mixin <;> decide

/-- Verbs are identifiers, so names made with them are. -/
theorem isIdentifier_verb (mixin : Mixin) : Proto.isIdentifier mixin.verb = true := by
  cases mixin <;> decide

/-- The method of a mixin resolves as soon as the model has a valid name. -/
theorem rpc_default {model : Model} (hname : Proto.isIdentifier model.name = true) (mixin : Mixin) :
    rpc model (mixin.methodName model.name) (mixin.signature model.name) =
      .ok (defaultRpc model mixin) := by
  have hverb := Proto.isIdentifier_append hname (all_verb mixin)
  have hmethod : Proto.isIdentifier (mixin.methodName model.name) = true :=
    Proto.isIdentifier_append (isIdentifier_verb mixin) (Proto.all_of_isIdentifier hname)
  have hrequest : Proto.isQualified (mixin.requestName model.name) = true :=
    Proto.isQualified_of_isIdentifier (Proto.isIdentifier_append hverb (by decide))
  have hresponse : Proto.isQualified (mixin.responseName model.name) = true :=
    Proto.isQualified_of_isIdentifier (Proto.isIdentifier_append hverb (by decide))
  refine rpc_eq_ok_iff.mpr ⟨hmethod, rfl, ?_, ?_⟩
  · exact rpcType_eq_ok_iff.mpr ⟨hrequest, String.empty_append.symm⟩
  · cases mixin with
    | list => exact rpcType_eq_ok_iff.mpr ⟨hresponse, rfl⟩
    | _ => exact rpcType_eq_ok_iff.mpr ⟨hresponse, rfl⟩

/-- Without an override a model has one method for each mixin, in order of first
mention. -/
theorem toList_methodsOf {model : Model} (hmethods : model.methods = none) (mixins : List Mixin)
    (others : List Defaults) :
    (methodsOf ⟨mixins.map Mixin.defaults, others⟩ model).toList =
      mixins.eraseDups.map fun mixin =>
        (mixin.methodName model.name, mixin.signature model.name) := by
  rw [methodsOf, hmethods, Option.getD_none, Mixin.toList_mergeMethods]

theorem isEmpty_methodsOf_mixins {model : Model} (hmethods : model.methods = none)
    (mixins : List Mixin) (others : List Defaults) :
    (methodsOf ⟨mixins.map Mixin.defaults, others⟩ model).isEmpty = mixins.isEmpty := by
  change (methodsOf _ model).toList.isEmpty = _
  rw [toList_methodsOf hmethods]
  cases mixins with
  | nil => rfl
  | cons mixin rest =>
      rw [List.eraseDups_cons]
      rfl

/-- Mixins give a model its default service, or none if there are no mixins. -/
theorem service_default {model : Model} (hplain : Plain model) (mixins : List Mixin)
    (others : List Defaults) :
    service ⟨mixins.map Mixin.defaults, others⟩ model = .ok (defaultService mixins model) := by
  have hempty := isEmpty_methodsOf_mixins hplain.methods mixins others
  by_cases hnone : mixins = []
  · subst hnone
    simp only [service, hempty]
    rfl
  · rw [List.isEmpty_eq_false_iff.mpr hnone] at hempty
    rw [defaultService, if_neg hnone, service_eq_some_iff]
    refine ⟨hempty, hplain.name, rfl, ?_⟩
    rw [toList_methodsOf hplain.methods, List.forall₂_map_left_iff, List.forall₂_map_right_iff,
      List.forall₂_same]
    exact fun mixin _ => rpc_default hplain.name mixin

/-! ### Messages -/

theorem message_all {model : Model} (hfields : model.fieldNames.Nodup) {name : String}
    (hname : Proto.isIdentifier name = true) :
    message model name ⟨.all, []⟩ = .ok (.numbered name (allFields model)) := by
  rw [message_eq_ok_iff_shows hfields hname]
  exact ⟨model.fields, .all, shows_iff.mpr (by simp [allFields])⟩

/-- The primary key names exactly one field of a consistent concrete model. -/
theorem exists_keyField {model : Model} (h : model.Consistent)
    (hconcrete : model.isAbstract = false) :
    ∃ field ∈ model.fields, field.name = model.key ∧
      model.fields.filter (·.name = model.key) = [field] := by
  obtain ⟨field, hfield, hkey⟩ := List.mem_map.mp (h.key hconcrete)
  refine ⟨field, hfield, hkey, ?_⟩
  rw [← hkey]
  exact filter_of_nodup h.fields hfield

theorem message_key {model : Model} (h : model.Consistent) (hconcrete : model.isAbstract = false)
    {name : String} (hname : Proto.isIdentifier name = true) :
    message model name ⟨.listed [model.key], []⟩ = .ok (.numbered name (keyFields model)) := by
  obtain ⟨field, hfield, hkey, hfilter⟩ := exists_keyField h hconcrete
  rw [message_eq_ok_iff_shows h.fields hname]
  refine ⟨[field], .listed (.cons ⟨hfield, hkey⟩ .nil), shows_iff.mpr ?_⟩
  simp [keyFields, hfilter]

theorem message_structs (model : Model) {name : String} (hname : Proto.isIdentifier name = true) :
    message model name ⟨.listed [], Mixin.requestStructs model⟩ =
      .ok (.numbered name (requestFields model)) := by
  refine message_eq_ok_iff.mpr ⟨hname, [], .nil, ?_⟩
  rw [requestFields, Mixin.requestStructs]
  cases model.filterRequest <;> cases model.paginationRequest <;> rfl

/-- Without an override a model has the messages of each mixin, in order of first
mention. -/
theorem toList_messagesOf {model : Model} (hmessages : model.messages = none)
    (others : List Defaults) (mixins : List Mixin) :
    (messagesOf ⟨others, mixins.map Mixin.defaults⟩ model).toList =
      mixins.eraseDups.flatMap fun mixin => mixin.messageEntries model := by
  rw [messagesOf, hmessages]
  exact Mixin.toList_mergeMessages mixins model

/-- Where the messages of a model come from: from its override, or from one of the mixins. -/
theorem origin_of_mem_messagesOf {model : Model} {others : List Defaults} {mixins : List Mixin}
    {entry : String × MessageSpec}
    (h : entry ∈ (messagesOf ⟨others, mixins.map Mixin.defaults⟩ model).toList) :
    (∃ overrides selection, model.messages = some overrides ∧
        (entry.1, selection) ∈ overrides.toList ∧ entry.2 = ⟨selection, []⟩) ∨
      model.messages = none ∧ ∃ mixin ∈ mixins, entry ∈ mixin.messageEntries model := by
  cases hmessages : model.messages with
  | some overrides =>
      obtain ⟨selection, hin, hspec⟩ := (mem_messagesOf_override hmessages _).mp h
      exact .inl ⟨overrides, selection, rfl, hin, hspec⟩
  | none =>
      rw [toList_messagesOf hmessages] at h
      obtain ⟨mixin, hmixin, hentry⟩ := List.mem_flatMap.mp h
      exact .inr ⟨rfl, mixin, List.mem_eraseDups.mp hmixin, hentry⟩

/-- Each message of a mixin resolves to its default one. -/
theorem messageEntries_default {model : Model} (h : model.Consistent)
    (hconcrete : model.isAbstract = false) (hname : Proto.isIdentifier model.name = true)
    (mixin : Mixin) :
    List.Forall₂ (fun entry planned => message model entry.1 entry.2 = .ok planned)
      (mixin.messageEntries model) (defaultMessages model mixin) := by
  have hsuffix : ∀ suffix : String, suffix.toList.all Proto.isIdentifierChar = true →
      Proto.isIdentifier (model.name ++ suffix) = true :=
    fun suffix hchars => Proto.isIdentifier_append hname hchars
  have hrequest : ∀ mixin : Mixin, mixin.requestName model.name =
      model.name ++ (mixin.verb ++ "Request") := fun _ => String.append_assoc
  have hresponse : ∀ mixin : Mixin, mixin.responseName model.name =
      model.name ++ (mixin.verb ++ "Response") := fun _ => String.append_assoc
  cases mixin with
  | list =>
      rw [Mixin.messageEntries, defaultMessages, hrequest, hresponse]
      refine List.rel_append ?_ (.cons (message_all h.fields (hsuffix _ (by decide))) .nil)
      split
      · exact .cons (message_structs model (hsuffix _ (by decide))) .nil
      · exact .nil
  | create =>
      rw [Mixin.messageEntries, hrequest]
      exact .cons (message_all h.fields (hsuffix _ (by decide))) .nil
  | retrieve =>
      rw [Mixin.messageEntries, hrequest]
      exact .cons (message_key h hconcrete (hsuffix _ (by decide))) .nil
  | update => exact .nil
  | destroy =>
      rw [Mixin.messageEntries, hrequest]
      exact .cons (message_key h hconcrete (hsuffix _ (by decide))) .nil

theorem messages_default {model : Model} (h : model.Consistent)
    (hconcrete : model.isAbstract = false) (hplain : Plain model) (others : List Defaults)
    (mixins : List Mixin) :
    messages ⟨others, mixins.map Mixin.defaults⟩ model =
      .ok (mixins.eraseDups.flatMap (defaultMessages model)) := by
  rw [messages, mapM_eq_ok_iff, toList_messagesOf hplain.messages]
  refine forall₂_flatMap_iff.mpr ⟨mixins.eraseDups.map (defaultMessages model), ?_, ?_⟩
  · rw [List.forall₂_map_right_iff, List.forall₂_same]
    exact fun mixin _ => messageEntries_default h hconcrete hplain.name mixin
  · rw [List.flatMap_def]

theorem mem_keys_messagesOf {model : Model} (hmessages : model.messages = none)
    {others : List Defaults} {mixins : List Mixin} {key : String}
    (h : key ∈ (messagesOf ⟨others, mixins.map Mixin.defaults⟩ model).keys) :
    ∃ mixin : Mixin, key ∈ (mixin.messageEntries model).map Prod.fst := by
  change key ∈ (messagesOf _ model).toList.map Prod.fst at h
  rw [toList_messagesOf hmessages, List.map_flatMap] at h
  obtain ⟨mixin, -, hin⟩ := List.mem_flatMap.mp h
  exact ⟨mixin, hin⟩

/-- Models of different names have no default message in common. -/
theorem keysApart_default {first second : Model} (hfirst : first.messages = none)
    (hsecond : second.messages = none) (hne : first.name ≠ second.name) (others : List Defaults)
    (mixins : List Mixin) : KeysApart ⟨others, mixins.map Mixin.defaults⟩ first second := by
  intro key hkey hother
  obtain ⟨mixin, hin⟩ := mem_keys_messagesOf hfirst hkey
  obtain ⟨other, hotherIn⟩ := mem_keys_messagesOf hsecond hother
  exact hne (Mixin.key_inj hin hotherIn).1

/-- A numbered message uses the type exactly if one of its typed names has it. -/
theorem usesStruct_numbered (name : String) (fields : List (String × String)) :
    (Proto.Message.numbered name fields).usesStruct = true ↔
      Proto.structType ∈ fields.map Prod.fst := by
  have htyped := congrArg (List.map Prod.fst) (Proto.map_typed_numberFrom 1 fields)
  rw [List.map_map] at htyped
  rw [← htyped, Proto.Message.usesStruct, Proto.Message.numbered, List.any_eq_true, List.mem_map]
  simp only [decide_eq_true_eq, Function.comp_apply]

/-- No field of a model has the type of a free-form structure. -/
theorem not_structType_mem_typed (fields : List Field) :
    Proto.structType ∉ (fields.map typed).map Prod.fst := by
  intro hin
  obtain ⟨shown, hshown, hsame⟩ := List.mem_map.mp hin
  obtain ⟨field, -, rfl⟩ := List.mem_map.mp hshown
  exact Proto.scalarType_ne_structType field.tag hsame

theorem structType_mem_requestFields {model : Model} (h : model.hasStructRequest = true) :
    Proto.structType ∈ (requestFields model).map Prod.fst := by
  unfold requestFields
  unfold Model.hasStructRequest at h
  cases hfilter : model.filterRequest with
  | true => exact List.mem_cons_self
  | false =>
      rw [hfilter, Bool.false_or] at h
      rw [h]
      exact List.mem_cons_self

/-- Only the request of a list holds structures. -/
theorem usesStruct_defaultMessages (model : Model) (mixin : Mixin) :
    (defaultMessages model mixin).any Proto.Message.usesStruct = true ↔
      mixin = .list ∧ model.hasStructRequest = true := by
  have hplain : ∀ name fields,
      (Proto.Message.numbered name (List.map typed fields)).usesStruct = false := by
    intro name fields
    rw [Bool.eq_false_iff, Ne, usesStruct_numbered]
    exact not_structType_mem_typed fields
  cases mixin with
  | list =>
      cases hstructs : model.hasStructRequest with
      | false => simp [defaultMessages, hstructs, allFields, hplain]
      | true =>
          have hrequest := (usesStruct_numbered (model.name ++ "ListRequest") _).mpr
            (structType_mem_requestFields hstructs)
          simp [defaultMessages, hstructs, hrequest]
  | _ => simp [defaultMessages, allFields, keyFields, hplain]

/-! ### Documents -/

/-- What a plain model contributes is known in advance. -/
theorem share_default {model : Model} (h : model.Consistent)
    (hconcrete : model.isAbstract = false) (hplain : Plain model) (methods messages : List Mixin) :
    share ⟨methods.map Mixin.defaults, messages.map Mixin.defaults⟩ model =
      .ok ⟨defaultService methods model, messages.eraseDups.flatMap (defaultMessages model)⟩ :=
  share_eq_ok_iff.mpr ⟨service_default hplain methods _,
    messages_default h hconcrete hplain _ messages⟩

/-- The import is needed exactly for a list mixin on a model with a structure in its
request. -/
theorem imports_default (models : List Model) (mixins : List Mixin) :
    imports (models.flatMap fun model => mixins.eraseDups.flatMap (defaultMessages model)) =
      if .list ∈ mixins ∧ ∃ model ∈ models, model.hasStructRequest = true then
        ["google/protobuf/empty.proto", "google/protobuf/struct.proto"]
      else ["google/protobuf/empty.proto"] := by
  have hmodel : ∀ model, (mixins.eraseDups.flatMap (defaultMessages model)).any
      Proto.Message.usesStruct = true ↔ .list ∈ mixins ∧ model.hasStructRequest = true := by
    intro model
    rw [List.any_flatMap, List.any_eq_true]
    simp only [usesStruct_defaultMessages, List.mem_eraseDups]
    constructor
    · rintro ⟨mixin, hmixin, rfl, hstructs⟩
      exact ⟨hmixin, hstructs⟩
    · rintro ⟨hmixin, hstructs⟩
      exact ⟨_, hmixin, rfl, hstructs⟩
  have hany : (models.flatMap fun model => mixins.eraseDups.flatMap (defaultMessages model)).any
      Proto.Message.usesStruct = true ↔
      .list ∈ mixins ∧ ∃ model ∈ models, model.hasStructRequest = true := by
    rw [List.any_flatMap, List.any_eq_true]
    simp only [hmodel]
    constructor
    · rintro ⟨model, hin, hmixin, hstructs⟩
      exact ⟨hmixin, model, hin, hstructs⟩
    · rintro ⟨hmixin, model, hin, hstructs⟩
      exact ⟨model, hin, hmixin, hstructs⟩
  unfold imports
  by_cases h : .list ∈ mixins ∧ ∃ model ∈ models, model.hasStructRequest = true
  · rw [if_pos h, if_pos (hany.mpr h)]
    rfl
  · rw [if_neg h, if_neg fun hstruct => h (hany.mp hstruct)]
    rfl

/-- Generation from mixins alone never fails and gives exactly what they stand for:
for each model in turn one method for each mixin, and the messages of each mixin,
in the order in which the mixins are first listed. -/
theorem plan_default {registry : Registry} (hcheck : registry.check = .ok ()) {app : App}
    (happ : app ∈ registry.apps) {scope : Scope} {models : List Model}
    (hscope : Covers app scope models) (hplain : ∀ model ∈ models, Plain model)
    (methods messages : List Mixin) :
    plan registry scope ⟨methods.map Mixin.defaults, messages.map Mixin.defaults⟩ =
        .ok (defaultDocument app models methods messages) ∧
      ∀ model ∈ models, ∃ field ∈ model.fields, field.name = model.key ∧
        model.fields.filter (·.name = model.key) = [field] := by
  have hconsistent := Registry.check_eq_ok_iff.mp hcheck
  have hnames := (hconsistent.apps app happ).names
  have hmodels : ∀ model ∈ models, model.Consistent ∧ model.isAbstract = false := by
    intro model hmodel
    obtain ⟨hin, hconcrete⟩ := mem_concreteModels.mp (hscope.concrete model hmodel)
    exact ⟨(hconsistent.apps app happ).models model hin, hconcrete⟩
  refine ⟨?_, fun model hmodel => exists_keyField (hmodels model hmodel).1 (hmodels model hmodel).2⟩
  let shareOf (model : Model) : Share :=
    ⟨defaultService methods model, messages.eraseDups.flatMap (defaultMessages model)⟩
  have hresolve := hscope.resolve hconsistent happ
  refine plan_eq_ok_iff.mpr ⟨models, models.map shareOf, hresolve, ?_, ?_, ?_⟩
  · rw [List.forall₂_map_right_iff, List.forall₂_same]
    intro model hmodel
    exact share_default (hmodels model hmodel).1 (hmodels model hmodel).2 (hplain model hmodel)
      methods messages
  -- names are distinct, and a default message shows the name of its model
  · refine (List.pairwise_map.mp (hscope.names hnames)).imp_of_mem ?_
    intro first second hfirst hsecond hne
    exact keysApart_default (hplain first hfirst).messages (hplain second hsecond).messages hne _
      messages
  · have happName : scope.app = app.name := by
      cases hscope <;> rfl
    have hmessages : (models.map shareOf).flatMap Share.messages =
        models.flatMap fun model => messages.eraseDups.flatMap (defaultMessages model) :=
      List.flatMap_map _ _ _
    have hservices : (models.map shareOf).filterMap Share.service =
        models.filterMap (defaultService methods) := List.filterMap_map
    rw [assemble, hmessages, hservices, happName, imports_default]
    rfl

/-- Two models whose names could be mistaken for the names of messages, and a third one. -/
def shelf : App :=
  ⟨"shelf", [
    { name := "Book", fields := [⟨"id", "AutoField"⟩, ⟨"title", "CharField"⟩],
      filterRequest := true },
    { name := "Timed", isAbstract := true },
    { name := "BookList", key := "pk", fields := [⟨"pages", "Tags"⟩, ⟨"pk", "BigIntegerField"⟩] }]⟩

/-- Mixins are repeated, one model is abstract, and one of the others asks for a filter. -/
theorem plan_default_shelf :
    Registry.check ⟨[shelf]⟩ = .ok () ∧ shelf ∈ [shelf] ∧
      Covers shelf ⟨"shelf", none⟩ shelf.concreteModels ∧
      (∀ model ∈ shelf.concreteModels, Plain model) ∧
      plan ⟨[shelf]⟩ ⟨"shelf", none⟩
          ⟨[Mixin.destroy, .list, .destroy].map Mixin.defaults,
            [Mixin.list, .retrieve, .list].map Mixin.defaults⟩ =
        .ok ⟨"shelf", ["google/protobuf/empty.proto", "google/protobuf/struct.proto"],
          [⟨"BookController", [⟨"DestroyBook", "BookDestroyRequest", "BookDestroyResponse"⟩,
              ⟨"ListBook", "BookListRequest", "stream BookListResponse"⟩]⟩,
            ⟨"BookListController",
              [⟨"DestroyBookList", "BookListDestroyRequest", "BookListDestroyResponse"⟩,
                ⟨"ListBookList", "BookListListRequest", "stream BookListListResponse"⟩]⟩],
          [⟨"BookListRequest", [⟨"google.protobuf.Struct", "_filters", 1⟩]⟩,
            ⟨"BookListResponse", [⟨"int32", "id", 1⟩, ⟨"string", "title", 2⟩]⟩,
            ⟨"BookRetrieveRequest", [⟨"int32", "id", 1⟩]⟩,
            ⟨"BookListListResponse", [⟨"string", "pages", 1⟩, ⟨"int64", "pk", 2⟩]⟩,
            ⟨"BookListRetrieveRequest", [⟨"int64", "pk", 1⟩]⟩]⟩ := by
  have hcheck : Registry.check ⟨[shelf]⟩ = .ok () := by decide
  have happ : shelf ∈ [shelf] := List.mem_cons_self
  have hplain : ∀ model ∈ shelf.concreteModels, Plain model := by
    have hall : ∀ model ∈ shelf.concreteModels, model.methods = none ∧ model.messages = none ∧
        Proto.isIdentifier model.name = true := by decide
    intro model hmodel
    obtain ⟨hmethods, hmessages, hname⟩ := hall model hmodel
    exact ⟨hmethods, hmessages, hname⟩
  obtain ⟨hplan, -⟩ := plan_default hcheck happ .whole hplain [.destroy, .list, .destroy]
    [.list, .retrieve, .list]
  exact ⟨hcheck, happ, .whole, hplain, hplan⟩

end Plan

end Protoscribe
