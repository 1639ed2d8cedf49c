import Protoscribe.Proofs.Matching
import Protoscribe.Proofs.Plan.Faults

/-!
What a plan is made of where it succeeds. Each model in scope adds its share, a
service if it has methods and its messages, and the document is all shares put
one behind the other. Shares of different models may not hold messages of one
name, and this is all that ties the models of a document together.
-/

namespace Protoscribe

namespace Proto

/-! ### Numbered fields -/

/-- Numbers are consecutive from the start on. -/
theorem map_number_numberFrom (start : Nat) (fields : List (String × String)) :
    (numberFrom start fields).map MessageField.number = List.range' start fields.length := by
  induction fields generalizing start with
  | nil => rfl
  | cons field rest ih =>
      rw [numberFrom, List.map_cons, ih, List.length_cons, List.range'_succ]

theorem length_numberFrom (start : Nat) (fields : List (String × String)) :
    (numberFrom start fields).length = fields.length := by
  have hlength := congrArg List.length (map_number_numberFrom start fields)
  rwa [List.length_map, List.length_range'] at hlength

theorem map_typed_numberFrom (start : Nat) (fields : List (String × String)) :
    (numberFrom start fields).map (fun field => (field.type, field.name)) = fields := by
  induction fields generalizing start with
  | nil => rfl
  | cons field rest ih => rw [numberFrom, List.map_cons, ih]

/-- A numbered field is known by its type, its name and its number. -/
theorem fields_ext {own other : List MessageField}
    (htyped : own.map (fun field => (field.type, field.name)) =
      other.map (fun field => (field.type, field.name)))
    (hnumbers : own.map MessageField.number = other.map MessageField.number) :
    own = other := by
  induction own generalizing other with
  | nil => exact (List.map_eq_nil_iff.mp hnumbers.symm).symm
  | cons field rest ih =>
      cases other with
      | nil => cases hnumbers
      | cons first others =>
          obtain ⟨type, name, number⟩ := field
          simp only [List.map_cons, List.cons.injEq, Prod.mk.injEq] at htyped hnumbers
          obtain ⟨⟨rfl, rfl⟩, htyped⟩ := htyped
          obtain ⟨rfl, hnumbers⟩ := hnumbers
          rw [ih htyped hnumbers]

end Proto

namespace Plan

/-! ### What each part gives -/

theorem requireIdentifier_eq_ok_iff {role name : String} :
    requireIdentifier role name = .ok () ↔ Proto.isIdentifier name = true := by
  unfold requireIdentifier
  cases Proto.isIdentifier name <;> simp

theorem rpcType_eq_ok_iff {model : Model} {ref : MessageRef} {text : String} :
    ref.rpcType model = .ok text ↔
      Proto.isQualified (ref.message.getD model.name) = true ∧
        text = (if ref.streamed then "stream " else "") ++ ref.message.getD model.name := by
  unfold MessageRef.rpcType
  by_cases h : Proto.isQualified (ref.message.getD model.name) = true
  · simp only [h, if_true, true_and]
    constructor
    · intro hok
      exact (Except.ok.inj hok).symm
    · rintro rfl
      rfl
  · simp [h]

/-- A method resolves exactly if its name is valid and both references do. -/
theorem rpc_eq_ok_iff {model : Model} {name : String} {signature : Signature} {own : Proto.Rpc} :
    rpc model name signature = .ok own ↔
      Proto.isIdentifier name = true ∧ own.name = name ∧
        signature.request.rpcType model = .ok own.request ∧
        signature.response.rpcType model = .ok own.response := by
  rw [rpc, bind_eq_ok_iff]
  constructor
  · rintro ⟨_, hname, h⟩
    obtain ⟨request, hrequest, h⟩ := bind_eq_ok_iff.mp h
    obtain ⟨response, hresponse, h⟩ := bind_eq_ok_iff.mp h
    cases h
    exact ⟨requireIdentifier_eq_ok_iff.mp hname, rfl, hrequest, hresponse⟩
  · rintro ⟨hname, rfl, hrequest, hresponse⟩
    refine ⟨(), requireIdentifier_eq_ok_iff.mpr hname, ?_⟩
    exact bind_eq_ok_iff.mpr ⟨_, hrequest, bind_eq_ok_iff.mpr ⟨_, hresponse, rfl⟩⟩

/-- A model has a service exactly if it has methods, a valid name, and all methods
resolve. -/
theorem service_eq_some_iff {sources : Sources} {model : Model} {own : Proto.Service} :
    service sources model = .ok (some own) ↔
      (methodsOf sources model).isEmpty = false ∧ Proto.isIdentifier model.name = true ∧
        own.name = serviceName model ∧
        List.Forall₂ (fun entry planned => rpc model entry.1 entry.2 = .ok planned)
          (methodsOf sources model).toList own.methods := by
  simp only [service]
  cases hempty : (methodsOf sources model).isEmpty with
  | true => simp
  | false =>
      simp only [Bool.false_eq_true, if_false, true_and]
      rw [bind_eq_ok_iff]
      constructor
      · rintro ⟨_, hname, h⟩
        obtain ⟨rpcs, hrpcs, h⟩ := bind_eq_ok_iff.mp h
        cases h
        exact ⟨requireIdentifier_eq_ok_iff.mp hname, rfl, mapM_eq_ok_iff.mp hrpcs⟩
      · rintro ⟨hname, hservice, hrpcs⟩
        refine ⟨(), requireIdentifier_eq_ok_iff.mpr hname, ?_⟩
        refine bind_eq_ok_iff.mpr ⟨_, mapM_eq_ok_iff.mpr hrpcs, ?_⟩
        rw [← hservice]
        rfl

/-- A field is shown under the name by which it was selected. -/
theorem selectedField_eq_ok_iff {model : Model} {message name : String} {shown : String × String} :
    selectedField model message name = .ok shown ↔
      ∃ field, model.field? name = some field ∧ shown = (Proto.scalarType field.tag, name) := by
  unfold selectedField
  cases hfound : model.field? name with
  | none =>
      constructor
      · intro h
        cases h
      · rintro ⟨field, hfield, -⟩
        cases hfield
  | some field =>
      have hname : field.name = name := by
        have hsome := List.find?_some hfound
        simpa using hsome
      constructor
      · intro h
        refine ⟨field, rfl, ?_⟩
        rw [← Except.ok.inj h, hname]
      · rintro ⟨found, hsame, rfl⟩
        cases hsame
        change Except.ok (Proto.scalarType field.tag, field.name) = _
        rw [hname]

/-- A message resolves exactly if its name is valid and every selected field is there.
-/
theorem message_eq_ok_iff {model : Model} {name : String} {spec : MessageSpec}
    {own : Proto.Message} :
    message model name spec = .ok own ↔
      Proto.isIdentifier name = true ∧ ∃ shown,
        List.Forall₂ (fun selected one => selectedField model name selected = .ok one)
          (selectedNames model spec.selection) shown ∧
        own = .numbered name
          (shown ++ spec.structFields.map fun field => (Proto.structType, field)) := by
  rw [message, bind_eq_ok_iff]
  constructor
  · rintro ⟨_, hname, h⟩
    obtain ⟨shown, hshown, h⟩ := bind_eq_ok_iff.mp h
    exact ⟨requireIdentifier_eq_ok_iff.mp hname, shown, mapM_eq_ok_iff.mp hshown,
      (Except.ok.inj h).symm⟩
  · rintro ⟨hname, shown, hshown, rfl⟩
    refine ⟨(), requireIdentifier_eq_ok_iff.mpr hname, ?_⟩
    exact bind_eq_ok_iff.mpr ⟨shown, mapM_eq_ok_iff.mpr hshown, rfl⟩

/-- Fields are shown under the names that were selected. -/
theorem map_snd_shown {model : Model} {name : String} {selected : List String}
    {shown : List (String × String)}
    (h : List.Forall₂ (fun one field => selectedField model name one = .ok field) selected shown) :
    shown.map Prod.snd = selected := by
  have hnames : List.Forall₂ (· = ·) selected (shown.map Prod.snd) := by
    rw [List.forall₂_map_right_iff]
    refine h.imp ?_
    intro one field hfield
    obtain ⟨found, -, rfl⟩ := selectedField_eq_ok_iff.mp hfield
    rfl
  rw [List.forall₂_eq_eq_eq] at hnames
  exact hnames.symm

/-- A message shows the selected fields, then its free-form structures. -/
theorem map_name_message {model : Model} {name : String} {spec : MessageSpec}
    {own : Proto.Message} (h : message model name spec = .ok own) :
    own.fields.map Proto.MessageField.name =
      selectedNames model spec.selection ++ spec.structFields := by
  obtain ⟨-, shown, hshown, rfl⟩ := message_eq_ok_iff.mp h
  have htyped := congrArg (List.map Prod.snd) (Proto.map_typed_numberFrom 1
    (shown ++ spec.structFields.map fun field => (Proto.structType, field)))
  rw [List.map_map, List.map_append, List.map_map, map_snd_shown hshown] at htyped
  exact htyped.trans (congrArg _ (List.map_id _))

/-! ### Overrides -/

/-- Overrides take the place of all sources and ask for no structures. -/
theorem messagesOf_override {model : Model} {overrides : OrderedMap FieldSelection}
    (h : model.messages = some overrides) (sources : Sources) :
    messagesOf sources model = overrides.mapValues fun selection => ⟨selection, []⟩ := by
  rw [messagesOf, h]

/-- An override gives its selections as they are, without free-form structures. -/
theorem mem_messagesOf_override {model : Model} {overrides : OrderedMap FieldSelection}
    (h : model.messages = some overrides) (sources : Sources) {entry : String × MessageSpec} :
    entry ∈ (messagesOf sources model).toList ↔
      ∃ selection, (entry.1, selection) ∈ overrides.toList ∧ entry.2 = ⟨selection, []⟩ := by
  rw [messagesOf_override h]
  constructor
  · intro hentry
    obtain ⟨⟨name, selection⟩, hin, rfl⟩ := List.mem_map.mp hentry
    exact ⟨selection, hin, rfl⟩
  · rintro ⟨selection, hin, hspec⟩
    have hsame : entry = (entry.1, (⟨selection, []⟩ : MessageSpec)) := by rw [← hspec]
    rw [hsame]
    exact List.mem_map_of_mem hin

/-! ### Shares -/

/-- What one model adds to a document. -/
structure Share where
  service : Option Proto.Service
  messages : List Proto.Message

def share (sources : Sources) (model : Model) : Except Error Share := do
  let service ← service sources model
  let messages ← messages sources model
  return ⟨service, messages⟩

def assemble (package : String) (shares : List Share) : Proto.Document :=
  ⟨package, imports (shares.flatMap Share.messages), shares.filterMap Share.service,
    shares.flatMap Share.messages⟩

/-- No message of the one model has the name of a message of the other. -/
def KeysApart (sources : Sources) (first second : Model) : Prop :=
  (messagesOf sources first).keys.Disjoint (messagesOf sources second).keys

theorem KeysApart.symm {sources : Sources} {first second : Model}
    (h : KeysApart sources first second) : KeysApart sources second first :=
  List.disjoint_symm h

theorem share_eq_ok_iff {sources : Sources} {model : Model} {own : Share} :
    share sources model = .ok own ↔
      service sources model = .ok own.service ∧ messages sources model = .ok own.messages := by
  rw [share, bind_eq_ok_iff]
  constructor
  · rintro ⟨planned, hservice, h⟩
    obtain ⟨found, hmessages, h⟩ := bind_eq_ok_iff.mp h
    cases h
    exact ⟨hservice, hmessages⟩
  · rintro ⟨hservice, hmessages⟩
    exact ⟨own.service, hservice, bind_eq_ok_iff.mpr ⟨own.messages, hmessages, rfl⟩⟩

theorem names_share {sources : Sources} {model : Model} {own : Share}
    (h : share sources model = .ok own) :
    own.messages.map Proto.Message.name = (messagesOf sources model).keys :=
  names_messages (share_eq_ok_iff.mp h).2

/-- The message names of a document are the keys of its models, in order. -/
theorem names_shares {sources : Sources} {models : List Model} {own : List Share}
    (h : List.Forall₂ (fun model one => share sources model = .ok one) models own) :
    (own.flatMap Share.messages).map Proto.Message.name =
      models.flatMap fun model => (messagesOf sources model).keys := by
  rw [List.map_flatMap]
  exact flatMap_eq_of_forall₂ (fun _ _ hown => names_share hown) h

/-- The keys of one map never repeat, so only earlier names can be met again. -/
theorem firstRepeated_keys_eq_none_iff {sources : Sources} {seen : List String} {model : Model} :
    firstRepeated seen (messagesOf sources model).keys = none ↔
      (messagesOf sources model).keys.Disjoint seen := by
  have hnodup : (messagesOf sources model).keys.Nodup := (messagesOf sources model).nodup_keys
  rw [firstRepeated_of_nodup seen hnodup, List.head?_eq_none_iff, List.filter_eq_nil_iff]
  simp only [decide_eq_true_eq, List.Disjoint]

/-- All messages resolve exactly if those of every model do and no key is met twice. -/
theorem allMessages_eq_ok_iff {sources : Sources} {seen : List String} {models : List Model}
    {all : List Proto.Message} :
    allMessages sources seen models = .ok all ↔
      ∃ parts, List.Forall₂ (fun model part => messages sources model = .ok part) models parts ∧
        models.Pairwise (KeysApart sources) ∧
        (∀ model ∈ models, (messagesOf sources model).keys.Disjoint seen) ∧
        all = parts.flatten := by
  induction models generalizing seen all with
  | nil =>
      rw [allMessages]
      constructor
      · intro h
        cases h
        exact ⟨[], .nil, .nil, by simp, rfl⟩
      · rintro ⟨parts, hparts, -, -, rfl⟩
        cases hparts
        rfl
  | cons model rest ih =>
      rw [allMessages, bind_eq_ok_iff]
      constructor
      · rintro ⟨own, hown, h⟩
        -- the later models are held against what was seen and the names of this one
        simp only [names_messages hown] at h
        cases hnone : firstRepeated seen (messagesOf sources model).keys with
        | some name =>
            rw [hnone] at h
            cases h
        | none =>
            rw [hnone] at h
            obtain ⟨others, hothers, h⟩ := bind_eq_ok_iff.mp h
            cases h
            obtain ⟨parts, hparts, hapart, hseen, rfl⟩ := ih.mp hothers
            have hboth := fun other hother => List.disjoint_append_right.mp (hseen other hother)
            refine ⟨own :: parts, .cons hown hparts, ?_, ?_, rfl⟩
            · refine List.pairwise_cons.mpr ⟨?_, hapart⟩
              intro other hother
              exact List.disjoint_symm (hboth other hother).1
            · rw [List.forall_mem_cons]
              exact ⟨firstRepeated_keys_eq_none_iff.mp hnone,
                fun other hother => (hboth other hother).2⟩
      · rintro ⟨parts, hparts, hapart, hseen, rfl⟩
        obtain ⟨own, others, hown, hothers, rfl⟩ := List.forall₂_cons_left_iff.mp hparts
        obtain ⟨hfirst, hapart⟩ := List.pairwise_cons.mp hapart
        rw [List.forall_mem_cons] at hseen
        have hrest : allMessages sources ((messagesOf sources model).keys ++ seen) rest =
            .ok others.flatten := by
          refine ih.mpr ⟨others, hothers, hapart, ?_, rfl⟩
          intro other hother
          exact List.disjoint_append_right.mpr
            ⟨(hfirst other hother).symm, hseen.2 other hother⟩
        refine ⟨own, hown, ?_⟩
        simp only [names_messages hown, firstRepeated_keys_eq_none_iff.mpr hseen.1]
        exact bind_eq_ok_iff.mpr ⟨others.flatten, hrest, rfl⟩

/-- What the two passes over the models find, taken together model by model. -/
theorem exists_shares {sources : Sources} {models : List Model}
    {planned : List (Option Proto.Service)} {parts : List (List Proto.Message)}
    (hservices : List.Forall₂ (fun model own => service sources model = .ok own) models planned)
    (hmessages : List.Forall₂ (fun model own => messages sources model = .ok own) models parts) :
    ∃ shares, List.Forall₂ (fun model own => share sources model = .ok own) models shares ∧
      shares.map Share.service = planned ∧ shares.map Share.messages = parts := by
  induction hservices generalizing parts with
  | nil =>
      cases hmessages
      exact ⟨[], .nil, rfl, rfl⟩
  | cons hservice _ ih =>
      obtain ⟨own, others, hown, hothers, rfl⟩ := List.forall₂_cons_left_iff.mp hmessages
      obtain ⟨shares, hshares, rfl, rfl⟩ := ih hothers
      exact ⟨⟨_, own⟩ :: shares, .cons (share_eq_ok_iff.mpr ⟨hservice, hown⟩) hshares, rfl, rfl⟩

/-- A plan succeeds exactly if every model in scope resolves by itself and no two
of them declare messages of one name. -/
theorem plan_eq_ok_iff {registry : Registry} {scope : Scope} {sources : Sources}
    {document : Proto.Document} :
    plan registry scope sources = .ok document ↔
      ∃ models shares, resolve registry scope = .ok models ∧
        List.Forall₂ (fun model own => share sources model = .ok own) models shares ∧
        models.Pairwise (KeysApart sources) ∧ document = assemble scope.app shares := by
  rw [plan, bind_eq_ok_iff]
  constructor
  · rintro ⟨models, hmodels, h⟩
    obtain ⟨planned, hplanned, h⟩ := bind_eq_ok_iff.mp h
    obtain ⟨all, hall, h⟩ := bind_eq_ok_iff.mp h
    cases h
    obtain ⟨parts, hparts, hapart, -, rfl⟩ := allMessages_eq_ok_iff.mp hall
    obtain ⟨shares, hshares, rfl, rfl⟩ := exists_shares (mapM_eq_ok_iff.mp hplanned) hparts
    refine ⟨models, shares, hmodels, hshares, hapart, ?_⟩
    simp [assemble, List.flatMap_def, List.filterMap_map]
  · rintro ⟨models, shares, hmodels, hshares, hapart, rfl⟩
    have hservices : models.mapM (service sources) = .ok (shares.map Share.service) := by
      rw [mapM_eq_ok_iff, List.forall₂_map_right_iff]
      exact hshares.imp fun _ _ hown => (share_eq_ok_iff.mp hown).1
    have hall : allMessages sources [] models = .ok (shares.map Share.messages).flatten := by
      refine allMessages_eq_ok_iff.mpr ⟨_, ?_, hapart, by simp, rfl⟩
      rw [List.forall₂_map_right_iff]
      exact hshares.imp fun _ _ hown => (share_eq_ok_iff.mp hown).2
    refine ⟨models, hmodels, bind_eq_ok_iff.mpr ⟨_, hservices, bind_eq_ok_iff.mpr ⟨_, hall, ?_⟩⟩⟩
    simp [assemble, List.flatMap_def, List.filterMap_map, pure, Except.pure]

/-- Text is generated exactly from a document, as its rendering. -/
theorem generate_eq_ok_iff {registry : Registry} {scope : Scope} {sources : Sources}
    {text : String} :
    generate registry scope sources = .ok text ↔
      ∃ document, plan registry scope sources = .ok document ∧ text = document.render := by
  unfold generate
  cases plan registry scope sources with
  | error fault =>
      constructor
      · intro h
        cases h
      · rintro ⟨document, h, -⟩
        cases h
  | ok document =>
      constructor
      · intro h
        exact ⟨document, rfl, (Except.ok.inj h).symm⟩
      · rintro ⟨found, h, rfl⟩
        rw [Except.ok.inj h]
        rfl

theorem imports_eq {registry : Registry} {scope : Scope} {sources : Sources}
    {document : Proto.Document} (h : plan registry scope sources = .ok document) :
    document.imports = imports document.messages := by
  obtain ⟨models, shares, -, -, -, rfl⟩ := plan_eq_ok_iff.mp h
  rfl

/-- Every service of a document belongs to a model in scope. -/
theorem mem_services {registry : Registry} {scope : Scope} {sources : Sources}
    {document : Proto.Document} (h : plan registry scope sources = .ok document)
    {own : Proto.Service} (hown : own ∈ document.services) :
    ∃ model ∈ inScope registry scope, service sources model = .ok (some own) := by
  obtain ⟨models, shares, hmodels, hshares, -, rfl⟩ := plan_eq_ok_iff.mp h
  obtain ⟨part, hpart, hsome⟩ := List.mem_filterMap.mp hown
  obtain ⟨model, hmodel, hshare⟩ := exists_left_of_mem hshares hpart
  rw [eq_inScope hmodels] at hmodel
  exact ⟨model, hmodel, hsome ▸ (share_eq_ok_iff.mp hshare).1⟩

/-- Every message of a document belongs to an entry of a model in scope. -/
theorem mem_messages {registry : Registry} {scope : Scope} {sources : Sources}
    {document : Proto.Document} (h : plan registry scope sources = .ok document)
    {own : Proto.Message} (hown : own ∈ document.messages) :
    ∃ model ∈ inScope registry scope, ∃ entry ∈ (messagesOf sources model).toList,
      message model entry.1 entry.2 = .ok own := by
  obtain ⟨models, shares, hmodels, hshares, -, rfl⟩ := plan_eq_ok_iff.mp h
  obtain ⟨part, hpart, hin⟩ := List.mem_flatMap.mp hown
  obtain ⟨model, hmodel, hshare⟩ := exists_left_of_mem hshares hpart
  rw [eq_inScope hmodels] at hmodel
  have hmessages := mapM_eq_ok_iff.mp (share_eq_ok_iff.mp hshare).2
  obtain ⟨entry, hentry, hmessage⟩ := exists_left_of_mem hmessages hin
  exact ⟨model, hmodel, entry, hentry, hmessage⟩

/-- Every entry of a model in scope has its message in the document. -/
theorem exists_message {registry : Registry} {scope : Scope} {sources : Sources}
    {document : Proto.Document} (h : plan registry scope sources = .ok document) {model : Model}
    (hmodel : model ∈ inScope registry scope) {entry : String × MessageSpec}
    (hentry : entry ∈ (messagesOf sources model).toList) :
    ∃ own ∈ document.messages, message model entry.1 entry.2 = .ok own := by
  obtain ⟨models, shares, hmodels, hshares, -, rfl⟩ := plan_eq_ok_iff.mp h
  rw [← eq_inScope hmodels] at hmodel
  obtain ⟨part, hpart, hshare⟩ := exists_right_of_mem hshares hmodel
  have hmessages := mapM_eq_ok_iff.mp (share_eq_ok_iff.mp hshare).2
  obtain ⟨own, hown, hmessage⟩ := exists_right_of_mem hmessages hentry
  exact ⟨own, List.mem_flatMap.mpr ⟨part, hpart, hown⟩, hmessage⟩

/-! ### The names of a document -/

section

variable {registry : Registry} {scope : Scope} {sources : Sources} {document : Proto.Document}

/-- Every model in scope with methods has its service in the document. -/
theorem exists_service (h : plan registry scope sources = .ok document) {model : Model}
    (hmodel : model ∈ inScope registry scope)
    (hmethods : (methodsOf sources model).isEmpty = false) :
    ∃ own ∈ document.services, service sources model = .ok (some own) := by
  obtain ⟨models, shares, hmodels, hshares, -, rfl⟩ := plan_eq_ok_iff.mp h
  rw [← eq_inScope hmodels] at hmodel
  obtain ⟨part, hpart, hshare⟩ := exists_right_of_mem hshares hmodel
  have hservice := (share_eq_ok_iff.mp hshare).1
  cases hown : part.service with
  | none =>
      simp only [service, hmethods, Bool.false_eq_true, if_false] at hservice
      obtain ⟨_, -, hrest⟩ := bind_eq_ok_iff.mp hservice
      obtain ⟨rpcs, -, hsome⟩ := bind_eq_ok_iff.mp hrest
      rw [hown] at hsome
      cases hsome
  | some own =>
      rw [hown] at hservice
      exact ⟨own, List.mem_filterMap.mpr ⟨part, hpart, hown⟩, hservice⟩

theorem mem_names_services (h : plan registry scope sources = .ok document) {name : String} :
    name ∈ document.services.map Proto.Service.name ↔
      ∃ model ∈ inScope registry scope, (methodsOf sources model).isEmpty = false ∧
        name = serviceName model := by
  constructor
  · intro hname
    obtain ⟨own, hown, rfl⟩ := List.mem_map.mp hname
    obtain ⟨model, hmodel, hservice⟩ := mem_services h hown
    obtain ⟨hmethods, -, hsame, -⟩ := service_eq_some_iff.mp hservice
    exact ⟨model, hmodel, hmethods, hsame⟩
  · rintro ⟨model, hmodel, hmethods, rfl⟩
    obtain ⟨own, hown, hservice⟩ := exists_service h hmodel hmethods
    obtain ⟨-, -, hname, -⟩ := service_eq_some_iff.mp hservice
    exact List.mem_map.mpr ⟨own, hown, hname⟩

theorem mem_names_messages (h : plan registry scope sources = .ok document) {name : String} :
    name ∈ document.messages.map Proto.Message.name ↔
      ∃ model ∈ inScope registry scope, name ∈ (messagesOf sources model).keys := by
  constructor
  · intro hname
    obtain ⟨own, hown, rfl⟩ := List.mem_map.mp hname
    obtain ⟨model, hmodel, entry, hentry, hmessage⟩ := mem_messages h hown
    rw [name_message hmessage]
    exact ⟨model, hmodel, List.mem_map_of_mem hentry⟩
  · rintro ⟨model, hmodel, hkey⟩
    obtain ⟨entry, hentry, rfl⟩ := List.mem_map.mp hkey
    obtain ⟨own, hown, hmessage⟩ := exists_message h hmodel hentry
    exact List.mem_map.mpr ⟨own, hown, name_message hmessage⟩

/-- Messages of one model are keys of a map, and those of different models are apart. -/
theorem nodup_names_messages (h : plan registry scope sources = .ok document) :
    (document.messages.map Proto.Message.name).Nodup := by
  obtain ⟨models, shares, -, hshares, hapart, rfl⟩ := plan_eq_ok_iff.mp h
  change ((shares.flatMap Share.messages).map Proto.Message.name).Nodup
  rw [names_shares hshares, List.nodup_flatMap]
  exact ⟨fun model _ => (messagesOf sources model).nodup_keys, hapart⟩

theorem eq_of_name_eq (h : plan registry scope sources = .ok document) {own other : Proto.Message}
    (hown : own ∈ document.messages) (hother : other ∈ document.messages)
    (hname : own.name = other.name) : own = other :=
  List.inj_on_of_nodup_map (nodup_names_messages h) hown hother hname

end

end Plan

end Protoscribe
