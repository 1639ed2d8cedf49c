import Protoscribe.Plan
import Protoscribe.Proofs.FirstFault
import Protoscribe.Proofs.OrderedMap.Writes

/-!
The faults of a plan, in the order in which they count. First the scope must
name something. Then the services of all models in scope are looked at, and only
behind them the messages, model by model: those of one model by themselves, then
their names against the models before it. The lists below name every fault that
stands in a registry; planning fails with the first of them and succeeds exactly
where there is none.
-/

namespace Protoscribe.Plan

/-! ### What can be wrong -/

/-- A scope names an application and, if it asks for one, a model of it. -/
def scopeFaults (registry : Registry) (scope : Scope) : List Error :=
  match registry.app? scope.app with
  | none => [.unknownScope scope.app]
  | some app =>
      match scope.model with
      | none => []
      | some name =>
          if name ∈ app.models.map Model.name then []
          else [.unknownScope (scope.app ++ "." ++ name)]

/-- The concrete models that a scope covers, in the order of declaration. -/
def inScope (registry : Registry) (scope : Scope) : List Model :=
  match registry.app? scope.app with
  | none => []
  | some app =>
      (match scope.model with
        | none => app.models
        | some name => (app.model? name).toList).filter (!·.isAbstract)

def nameFaults (role name : String) : List Error :=
  if Proto.isIdentifier name then [] else [.invalidIdentifier role name]

def referenceFaults (model : Model) (ref : MessageRef) : List Error :=
  if Proto.isQualified (ref.message.getD model.name) then []
  else [.invalidIdentifier "message reference" (ref.message.getD model.name)]

def methodFaults (model : Model) (entry : String × Signature) : List Error :=
  nameFaults "method" entry.1 ++ referenceFaults model entry.2.request ++
    referenceFaults model entry.2.response

/-- Only a model with methods needs a name for its service. -/
def serviceFaults (sources : Sources) (model : Model) : List Error :=
  if (methodsOf sources model).isEmpty then []
  else nameFaults "model" model.name ++
    (methodsOf sources model).toList.flatMap (methodFaults model)

/-- The listed names that are no fields of the model. The wildcard lists none. -/
def fieldFaults (model : Model) (message : String) : FieldSelection → List Error
  | .all => []
  | .listed names =>
      (names.filter (· ∉ model.fieldNames)).map (.unknownField model.name message)

def messageFaults (model : Model) (entry : String × MessageSpec) : List Error :=
  nameFaults "message" entry.1 ++ fieldFaults model entry.1 entry.2.selection

/-- The messages of a model that one of the models before it has too. -/
def repeats (sources : Sources) (earlier : List Model) (model : Model) : List String :=
  (messagesOf sources model).keys.filter fun name =>
    earlier.any fun other => (messagesOf sources other).contains name

/-- The faults of the messages of the models behind some others. -/
def documentFaults (sources : Sources) : List Model → List Model → List Error
  | _, [] => []
  | earlier, model :: rest =>
      (messagesOf sources model).toList.flatMap (messageFaults model) ++
        (repeats sources earlier model).map .duplicateMessage ++
        documentFaults sources (earlier ++ [model]) rest

/-- Every fault of a plan, the one that counts first in front. -/
def faults (registry : Registry) (scope : Scope) (sources : Sources) : List Error :=
  scopeFaults registry scope ++
    (inScope registry scope).flatMap (serviceFaults sources) ++
    documentFaults sources [] (inScope registry scope)

/-! ### Names and references -/

theorem reports_requireIdentifier (role name : String) :
    Reports (requireIdentifier role name) (nameFaults role name) := by
  unfold requireIdentifier nameFaults
  split <;> exact rfl

/-- A reference has one fault at most: its target is no qualified name. -/
theorem reports_rpcType (model : Model) (ref : MessageRef) :
    Reports (ref.rpcType model) (referenceFaults model ref) := by
  unfold MessageRef.rpcType referenceFaults
  by_cases h : Proto.isQualified (ref.message.getD model.name) = true
  · simp only [h, if_true]
    exact rfl
  · simp only [h]
    exact rfl

/-! ### Services -/

/-- Of a method the name is looked at first, then the request, then the response. -/
theorem reports_rpc (model : Model) (entry : String × Signature) :
    Reports (rpc model entry.1 entry.2) (methodFaults model entry) := by
  unfold rpc methodFaults
  rw [List.append_assoc]
  refine Reports.bind (reports_requireIdentifier "method" entry.1) fun _ _ => ?_
  refine Reports.bind (reports_rpcType model entry.2.request) fun request _ => ?_
  exact Reports.bind_pure (reports_rpcType model entry.2.response) fun response =>
    (⟨entry.1, request, response⟩ : Proto.Rpc)

/-- The name of a model is looked at only if there is a service to bear it. -/
theorem reports_service (sources : Sources) (model : Model) :
    Reports (service sources model) (serviceFaults sources model) := by
  simp only [service, serviceFaults]
  split
  · exact rfl
  · refine Reports.bind (reports_requireIdentifier "model" model.name) fun _ _ => ?_
    exact Reports.bind_pure (Reports.mapM fun entry _ => reports_rpc model entry) fun rpcs =>
      some (⟨serviceName model, rpcs⟩ : Proto.Service)

/-! ### Messages -/

theorem isSome_field? (model : Model) (name : String) :
    (model.field? name).isSome = true ↔ name ∈ model.fieldNames := by
  simp [Model.field?, Model.fieldNames]

theorem reports_selectedField (model : Model) (message name : String) :
    Reports (selectedField model message name)
      (if name ∈ model.fieldNames then [] else [.unknownField model.name message name]) := by
  unfold selectedField
  have hfield := isSome_field? model name
  cases hfound : model.field? name with
  | none =>
      have hmissing : name ∉ model.fieldNames := by simpa [hfound] using hfield
      rw [if_neg hmissing]
      exact rfl
  | some field =>
      have hpresent : name ∈ model.fieldNames := by simpa [hfound] using hfield
      rw [if_pos hpresent]
      exact rfl

/-- A wildcard selects only names that are there, so it has no fault. -/
theorem flatMap_selectedNames (model : Model) (message : String) (selection : FieldSelection) :
    (selectedNames model selection).flatMap (fun name =>
      if name ∈ model.fieldNames then [] else [.unknownField model.name message name]) =
      fieldFaults model message selection := by
  cases selection with
  | all =>
      rw [fieldFaults, selectedNames, List.flatMap_eq_nil_iff]
      intro name hname
      rw [if_pos hname]
  | listed names =>
      rw [fieldFaults, selectedNames]
      induction names with
      | nil => rfl
      | cons name rest ih =>
          by_cases h : name ∈ model.fieldNames
          · simp [h, ih]
          · simp [h, ih]

/-- Of a message the name is looked at first, then the listed fields in order. -/
theorem reports_message (model : Model) (entry : String × MessageSpec) :
    Reports (message model entry.1 entry.2) (messageFaults model entry) := by
  unfold message messageFaults
  refine Reports.bind (reports_requireIdentifier "message" entry.1) fun _ _ => ?_
  rw [← flatMap_selectedNames]
  exact Reports.bind_pure (Reports.mapM fun name _ => reports_selectedField model entry.1 name)
    fun fields => Proto.Message.numbered entry.1
      (fields ++ entry.2.structFields.map fun field => (Proto.structType, field))

theorem reports_messages (sources : Sources) (model : Model) :
    Reports (messages sources model)
      ((messagesOf sources model).toList.flatMap (messageFaults model)) :=
  Reports.mapM fun entry _ => reports_message model entry

theorem name_message {model : Model} {name : String} {spec : MessageSpec}
    {planned : Proto.Message} (h : message model name spec = .ok planned) :
    planned.name = name := by
  obtain ⟨_, -, h⟩ := bind_eq_ok_iff.mp h
  obtain ⟨fields, -, h⟩ := bind_eq_ok_iff.mp h
  rw [← Except.ok.inj h]
  rfl

/-- Messages are named by the keys that they stand under. -/
theorem names_messages {sources : Sources} {model : Model} {own : List Proto.Message}
    (h : messages sources model = .ok own) :
    own.map Proto.Message.name = (messagesOf sources model).keys :=
  map_eq_of_mapM (fun _ _ hone => name_message hone) h

/-! ### Names across models -/

/-- Names without repeats can only repeat what was seen before them. -/
theorem firstRepeated_of_nodup (seen : List String) {names : List String} (h : names.Nodup) :
    firstRepeated seen names = (names.filter (· ∈ seen)).head? := by
  induction names generalizing seen with
  | nil => rfl
  | cons name rest ih =>
      obtain ⟨hnew, hrest⟩ := List.nodup_cons.mp h
      by_cases hseen : name ∈ seen
      · simp [firstRepeated, hseen]
      · have hsame : ∀ other ∈ rest, decide (other ∈ name :: seen) = decide (other ∈ seen) := by
          intro other hother
          have hne : other ≠ name := fun e => hnew (e ▸ hother)
          simp [hne]
        rw [firstRepeated, if_neg hseen, ih _ hrest, List.filter_congr hsame,
          List.filter_cons_of_neg (by simpa using hseen)]

/-- What was seen is what the models before declare. -/
def Seen (sources : Sources) (earlier : List Model) (seen : List String) : Prop :=
  ∀ name, name ∈ seen ↔
    (earlier.any fun other => (messagesOf sources other).contains name) = true

/-- Behind a model its own keys are seen as well. -/
theorem Seen.step {sources : Sources} {earlier : List Model} {seen : List String}
    (h : Seen sources earlier seen) (model : Model) :
    Seen sources (earlier ++ [model]) ((messagesOf sources model).keys ++ seen) := by
  intro name
  rw [List.mem_append, h name, List.any_append, Bool.or_eq_true, or_comm]
  simp [OrderedMap.contains_iff_mem_keys]

/-- The name that is refused is the first one that an earlier model has. -/
theorem Seen.firstRepeated_keys {sources : Sources} {earlier : List Model} {seen : List String}
    (h : Seen sources earlier seen) (model : Model) :
    firstRepeated seen (messagesOf sources model).keys = (repeats sources earlier model).head? := by
  have hnodup : (messagesOf sources model).keys.Nodup := (messagesOf sources model).nodup_keys
  rw [firstRepeated_of_nodup seen hnodup, repeats]
  congr 1
  apply List.filter_congr
  intro name _
  exact Bool.eq_iff_iff.mpr (by simpa using h name)

/-- Model by model: first the faults of its own messages, then the first of their
names that is there already. The names seen so far carry the induction. -/
theorem reports_allMessages (sources : Sources) {earlier : List Model} {seen : List String}
    (hseen : Seen sources earlier seen) (models : List Model) :
    Reports (allMessages sources seen models) (documentFaults sources earlier models) := by
  induction models generalizing earlier seen with
  | nil => exact rfl
  | cons model rest ih =>
      rw [allMessages, documentFaults, List.append_assoc]
      refine Reports.bind (reports_messages sources model) fun own hown => ?_
      have hrest := ih (hseen.step model)
      simp only [names_messages hown, hseen.firstRepeated_keys model]
      cases repeats sources earlier model with
      | nil => exact Reports.bind_pure hrest fun others => own ++ others
      | cons name others => exact rfl

/-! ### Scopes and whole plans -/

/-- An unknown application is reported before an unknown model. -/
theorem reports_resolve (registry : Registry) (scope : Scope) :
    Reports (resolve registry scope) (scopeFaults registry scope) := by
  unfold resolve scopeFaults
  cases registry.app? scope.app with
  | none => exact rfl
  | some app =>
      cases hmodel : scope.model with
      | none => exact rfl
      | some name =>
          have hfound : (app.model? name).isSome = true ↔ name ∈ app.models.map Model.name := by
            simp [App.model?]
          cases hone : app.model? name with
          | none =>
              have hmissing : name ∉ app.models.map Model.name := by simpa [hone] using hfound
              simp only [hone, if_neg hmissing, Scope.text, hmodel]
              exact rfl
          | some model =>
              have hpresent : name ∈ app.models.map Model.name := by simpa [hone] using hfound
              simp only [hone, if_pos hpresent]
              exact rfl

/-- The models that a scope resolves to are those in scope. -/
theorem eq_inScope {registry : Registry} {scope : Scope} {models : List Model}
    (h : resolve registry scope = .ok models) : models = inScope registry scope := by
  unfold resolve at h
  unfold inScope
  cases happ : registry.app? scope.app with
  | none =>
      rw [happ] at h
      cases h
  | some app =>
      rw [happ] at h
      cases hmodel : scope.model with
      | none =>
          rw [hmodel] at h
          exact (Except.ok.inj h).symm
      | some name =>
          simp only [hmodel] at h
          cases hone : app.model? name with
          | none =>
              rw [hone] at h
              cases h
          | some model =>
              rw [hone] at h
              rw [← Except.ok.inj h]
              cases habstract : model.isAbstract <;> simp [habstract, hone]

/-- Scope, services and messages are gone through in this order. -/
theorem reports_plan (registry : Registry) (scope : Scope) (sources : Sources) :
    Reports (plan registry scope sources) (faults registry scope sources) := by
  unfold plan faults
  rw [List.append_assoc]
  refine Reports.bind (reports_resolve registry scope) fun models hmodels => ?_
  rw [← eq_inScope hmodels]
  refine Reports.bind (Reports.mapM fun model _ => reports_service sources model)
    fun services _ => ?_
  have hseen : Seen sources [] [] := by simp [Seen]
  exact Reports.bind_pure (reports_allMessages sources hseen models)
    fun messages => (⟨scope.app, imports messages, services.filterMap id, messages⟩ :
      Proto.Document)

/-- Planning fails with the first fault in the order of scopes, services and
messages, and it gives a document exactly where there is no fault. -/
theorem plan_first_fault (registry : Registry) (scope : Scope) (sources : Sources) :
    (∀ error, plan registry scope sources = .error error ↔
      (faults registry scope sources).head? = some error) ∧
    ((∃ document, plan registry scope sources = .ok document) ↔
      faults registry scope sources = []) :=
  ⟨(reports_plan registry scope sources).error_iff, (reports_plan registry scope sources).ok_iff⟩

end Protoscribe.Plan
