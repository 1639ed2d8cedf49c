import Protoscribe.Proofs.Plan.Revision

/-!
Services and messages do not depend on each other. A registry is cut open at the
place of one model in scope, so that two registries that differ in this model alone
fill the same place with two models. What the models around the place add to a
document is then the same on both sides, and what the model itself adds changes
only as far as its methods, or its messages, do.
-/

namespace Protoscribe.Plan

/-! ### Places -/

/-- A registry without one of its models: the applications around its own, the name of
this application, and the models around it. -/
structure Place where
  appsBefore : List App
  app : String
  modelsBefore : List Model
  modelsBehind : List Model
  appsBehind : List App

namespace Place

def fill (place : Place) (model : Model) : Registry :=
  ⟨place.appsBefore ++
    ⟨place.app, place.modelsBefore ++ model :: place.modelsBehind⟩ :: place.appsBehind⟩

/-- A concrete model stands at a place that the scope covers. The application and, if
one is asked for, the model are the first of their names. -/
structure Holds (place : Place) (registry : Registry) (scope : Scope) (model : Model) : Prop where
  fill : place.fill model = registry
  app : place.app = scope.app
  firstApp : ∀ app ∈ place.appsBefore, app.name ≠ scope.app
  concrete : model.isAbstract = false
  asked : ∀ name, scope.model = some name →
    model.name = name ∧ ∀ other ∈ place.modelsBefore, other.name ≠ name

/-- The concrete models of some models, as far as a scope covers more than one model. -/
def covered (scope : Scope) (models : List Model) : List Model :=
  match scope.model with
  | none => models.filter (!·.isAbstract)
  | some _ => []

/-- What the other models in scope give, with something in the middle. -/
def around {α : Type} (place : Place) (scope : Scope) (part : Model → List α) (own : List α) :
    List α :=
  (covered scope place.modelsBefore).flatMap part ++ own ++
    (covered scope place.modelsBehind).flatMap part

/-- Another model of the same name at the same place. -/
theorem Holds.change {place : Place} {registry : Registry} {scope : Scope} {model : Model}
    (h : place.Holds registry scope model) (other : Model) (hname : other.name = model.name)
    (habstract : other.isAbstract = model.isAbstract) :
    place.Holds (place.fill other) scope other where
  fill := rfl
  app := h.app
  firstApp := h.firstApp
  concrete := habstract.trans h.concrete
  asked := fun name hasked => ⟨hname.trans (h.asked name hasked).1, (h.asked name hasked).2⟩

/-- The models in scope are those around the place and the one that fills it. -/
theorem Holds.inScope {place : Place} {registry : Registry} {scope : Scope} {model : Model}
    (h : place.Holds registry scope model) :
    inScope registry scope =
      covered scope place.modelsBefore ++ model :: covered scope place.modelsBehind := by
  have happ : registry.app? scope.app =
      some ⟨place.app, place.modelsBefore ++ model :: place.modelsBehind⟩ := by
    rw [← h.fill, Registry.app?, List.find?_eq_some_iff_append]
    refine ⟨by simp [h.app], place.appsBefore, place.appsBehind, rfl, ?_⟩
    simpa using h.firstApp
  unfold Plan.inScope covered
  rw [happ]
  cases hscope : scope.model with
  | none => simp [h.concrete]
  | some name =>
      obtain ⟨hname, hfirst⟩ := h.asked name hscope
      have hfound : App.model? ⟨place.app, place.modelsBefore ++ model :: place.modelsBehind⟩ name =
          some model := by
        rw [App.model?, List.find?_eq_some_iff_append]
        exact ⟨by simp [hname], place.modelsBefore, place.modelsBehind, rfl, by simpa using hfirst⟩
      simp [hfound, h.concrete]

/-- Every model in scope stands at some place. -/
theorem exists_holds {registry : Registry} {scope : Scope} {model : Model}
    (h : model ∈ inScope registry scope) : ∃ place : Place, place.Holds registry scope model := by
  unfold Plan.inScope at h
  cases happ : registry.app? scope.app with
  | none =>
      rw [happ] at h
      cases h
  | some app =>
      rw [happ] at h
      obtain ⟨hcovered, hconcrete⟩ := List.mem_filter.mp h
      obtain ⟨happName, appsBefore, appsBehind, happs, hfirstApp⟩ :=
        List.find?_eq_some_iff_append.mp happ
      have hplace : ∀ before behind, app.models = before ++ model :: behind →
          (∀ name, scope.model = some name →
            model.name = name ∧ ∀ other ∈ before, other.name ≠ name) →
          ∃ place : Place, place.Holds registry scope model := by
        intro before behind hmodels hasked
        refine ⟨⟨appsBefore, app.name, before, behind, appsBehind⟩, ?_, by simpa using happName,
          by simpa using hfirstApp, by simpa using hconcrete, hasked⟩
        simp only [fill, ← hmodels, ← happs]
      cases hscope : scope.model with
      | none =>
          obtain ⟨before, behind, hmodels⟩ :=
            List.append_of_mem (by simpa [hscope] using hcovered : model ∈ app.models)
          exact hplace before behind hmodels fun name hasked => by simp [hscope] at hasked
      | some name =>
          have hfound : app.model? name = some model := by simpa [hscope] using hcovered
          obtain ⟨hname, before, behind, hmodels, hfirst⟩ :=
            List.find?_eq_some_iff_append.mp hfound
          refine hplace before behind hmodels fun other hasked => ?_
          cases hscope.symm.trans hasked
          exact ⟨by simpa using hname, by simpa using hfirst⟩

end Place

/-! ### What a model adds to a document -/

def ownServices (sources : Sources) (model : Model) : List Proto.Service :=
  match service sources model with
  | .ok own => own.toList
  | .error _ => []

def ownMessages (sources : Sources) (model : Model) : List Proto.Message :=
  match messages sources model with
  | .ok own => own
  | .error _ => []

section

variable {registry : Registry} {scope : Scope} {sources : Sources} {document : Proto.Document}

/-- A document holds what its models own, model by model. -/
theorem document_eq (h : plan registry scope sources = .ok document) :
    document.services = (inScope registry scope).flatMap (ownServices sources) ∧
      document.messages = (inScope registry scope).flatMap (ownMessages sources) := by
  obtain ⟨models, shares, hmodels, hshares, -, rfl⟩ := plan_eq_ok_iff.mp h
  rw [← eq_inScope hmodels]
  constructor
  · change shares.filterMap Share.service = _
    rw [List.filterMap_eq_flatMap_toList]
    refine flatMap_eq_of_forall₂ ?_ hshares
    intro model own hown
    rw [ownServices, (share_eq_ok_iff.mp hown).1]
  · change shares.flatMap Share.messages = _
    refine flatMap_eq_of_forall₂ ?_ hshares
    intro model own hown
    rw [ownMessages, (share_eq_ok_iff.mp hown).2]

/-- A document holds what the filling model owns, between what the others own. -/
theorem Place.Holds.document_eq {place : Place} {model : Model}
    (hplace : place.Holds registry scope model) (h : plan registry scope sources = .ok document) :
    document.services =
        place.around scope (ownServices sources) (ownServices sources model) ∧
      document.messages =
        place.around scope (ownMessages sources) (ownMessages sources model) := by
  obtain ⟨hservices, hmessages⟩ := Plan.document_eq h
  rw [hplace.inScope] at hservices hmessages
  rw [hservices, hmessages]
  simp [Place.around]

end

/-- Which messages a model has, and what they show, does not depend on its methods. -/
theorem ownMessages_setMethods (methods messages : List Mixin) (model : Model)
    (overrides : Option (OrderedMap Signature)) :
    ownMessages (builtIn methods messages) { model with methods := overrides } =
      ownMessages (builtIn methods messages) model := by
  let other : Model := { model with methods := overrides }
  have hentries : ∀ mixin : Mixin, mixin.messageEntries other = mixin.messageEntries model := by
    intro mixin
    cases mixin <;> rfl
  have hsame := messagesOf_congr hentries rfl (methods.map Mixin.defaults) messages
  have hmessage : ∀ name spec, message other name spec = message model name spec := by
    intro name spec
    rfl
  have hmessages : Plan.messages (builtIn methods messages) other =
      Plan.messages (builtIn methods messages) model := by
    simp only [Plan.messages, hmessage]
    rw [hsame]
  rw [ownMessages, hmessages]
  rfl

/-- The service of a model follows from its name and its methods. -/
theorem ownServices_congr {model other : Model} (hname : other.name = model.name)
    (hmethods : other.methods = model.methods) (methods messages : List Mixin) :
    ownServices (builtIn methods messages) other =
      ownServices (builtIn methods messages) model := by
  have hsame := methodsOf_congr hname hmethods methods (messages.map Mixin.defaults)
  have hservice : service (builtIn methods messages) other =
      service (builtIn methods messages) model := service_congr hname hsame
  rw [ownServices, hservice]
  rfl

theorem Place.Holds.services_eq {registry : Registry} {scope : Scope} {model : Model} {place : Place}
    (hplace : place.Holds registry scope model) {methods messages : List Mixin}
    {document : Proto.Document} (h : plan registry scope (builtIn methods messages) = .ok document)
    {changed : Model} {other : Proto.Document}
    (hother : plan (place.fill changed) scope (builtIn methods messages) = .ok other)
    (hname : changed.name = model.name) (habstract : changed.isAbstract = model.isAbstract)
    (hmethods : changed.methods = model.methods) :
    other.services = document.services := by
  obtain ⟨hservices, -⟩ := hplace.document_eq h
  obtain ⟨hservicesOther, -⟩ := (hplace.change changed hname habstract).document_eq hother
  rw [hservicesOther, hservices, ownServices_congr hname hmethods]

/-- Take two registries that differ in one concrete model in scope alone, and a
document of each. If only the methods of the model differ, the documents have the
same messages and imports and the same services around its own. If only its message
override differs, they have the same services, and the same messages around its own.
If its fields, its key and its flags differ, they have the same services. -/
theorem services_messages_independent {registry : Registry} {scope : Scope} {model : Model}
    (hmodel : model ∈ inScope registry scope) {methods messages : List Mixin} {sources : Sources}
    (hsources : sources = builtIn methods messages) {document : Proto.Document}
    (h : plan registry scope sources = .ok document) :
    (∃ place : Place, place.Holds registry scope model) ∧
      ∀ place : Place, place.Holds registry scope model →
        (∀ overrides other,
          plan (place.fill { model with methods := overrides }) scope sources = .ok other →
          other.messages = document.messages ∧ other.imports = document.imports ∧
            document.services = place.around scope (ownServices sources)
              (ownServices sources model) ∧
            other.services = place.around scope (ownServices sources)
              (ownServices sources { model with methods := overrides })) ∧
        (∀ overrides other,
          plan (place.fill { model with messages := overrides }) scope sources = .ok other →
          other.services = document.services ∧
            document.messages = place.around scope (ownMessages sources)
              (ownMessages sources model) ∧
            other.messages = place.around scope (ownMessages sources)
              (ownMessages sources { model with messages := overrides })) ∧
        (∀ fields key filter pagination other,
          plan (place.fill { model with
            fields := fields, key := key, filterRequest := filter,
            paginationRequest := pagination }) scope sources = .ok other →
          other.services = document.services) := by
  subst hsources
  refine ⟨Place.exists_holds hmodel, ?_⟩
  intro place hplace
  obtain ⟨hservices, hmessages⟩ := hplace.document_eq h
  refine ⟨?_, ?_, ?_⟩
  · intro overrides other hother
    have hchanged := hplace.change { model with methods := overrides } rfl rfl
    obtain ⟨hservicesOther, hmessagesOther⟩ := hchanged.document_eq hother
    rw [ownMessages_setMethods, ← hmessages] at hmessagesOther
    rw [imports_eq hother, imports_eq h, hmessagesOther]
    exact ⟨rfl, rfl, hservices, hservicesOther⟩
  · intro overrides other hother
    have hchanged := hplace.change { model with messages := overrides } rfl rfl
    obtain ⟨-, hmessagesOther⟩ := hchanged.document_eq hother
    exact ⟨hplace.services_eq h hother rfl rfl rfl, hmessages, hmessagesOther⟩
  · intro fields key filter pagination other hother
    exact hplace.services_eq h hother rfl rfl rfl

/-- The place of a book between two models with a service each, in the first of two
applications of one name. -/
def hall : Place where
  appsBefore := []
  app := "hall"
  modelsBefore := [{ name := "Shelf", fields := [⟨"id", "AutoField"⟩] }]
  modelsBehind := [{ name := "Timed", isAbstract := true },
    { name := "Loan", fields := [⟨"id", "AutoField"⟩],
      messages := some (.ofList [("LoanNote", .all)]) }]
  appsBehind := [⟨"hall", []⟩]

def hallBook : Model where
  name := "Book"
  fields := [⟨"id", "AutoField"⟩, ⟨"title", "CharField"⟩]
  filterRequest := true

/-- Without methods the service goes and all messages stay; without messages the service
stays. -/
theorem services_messages_independent_hall :
    hallBook ∈ inScope (hall.fill hallBook) ⟨"hall", none⟩ ∧
      hall.Holds (hall.fill hallBook) ⟨"hall", none⟩ hallBook ∧
      ∃ document quiet mute,
        plan (hall.fill hallBook) ⟨"hall", none⟩ (builtIn [.destroy] [.list]) = .ok document ∧
        plan (hall.fill { hallBook with methods := some .empty }) ⟨"hall", none⟩
          (builtIn [.destroy] [.list]) = .ok quiet ∧
        plan (hall.fill { hallBook with messages := some .empty }) ⟨"hall", none⟩
          (builtIn [.destroy] [.list]) = .ok mute ∧
        quiet.messages = document.messages ∧ quiet.imports = document.imports ∧
        quiet.services.map Proto.Service.name = ["ShelfController", "LoanController"] ∧
        mute.services = document.services := by
  have hmodel : hallBook ∈ inScope (hall.fill hallBook) ⟨"hall", none⟩ := by decide
  have hplace : hall.Holds (hall.fill hallBook) ⟨"hall", none⟩ hallBook :=
    ⟨rfl, rfl, by decide, rfl, fun _ hasked => by cases hasked⟩
  obtain ⟨document, hdocument⟩ : ∃ document, plan (hall.fill hallBook) ⟨"hall", none⟩
      (builtIn [.destroy] [.list]) = .ok document := ⟨_, rfl⟩
  obtain ⟨quiet, hquiet⟩ : ∃ quiet, plan (hall.fill { hallBook with methods := some .empty })
      ⟨"hall", none⟩ (builtIn [.destroy] [.list]) = .ok quiet := ⟨_, rfl⟩
  obtain ⟨mute, hmute⟩ : ∃ mute, plan (hall.fill { hallBook with messages := some .empty })
      ⟨"hall", none⟩ (builtIn [.destroy] [.list]) = .ok mute := ⟨_, rfl⟩
  obtain ⟨-, hchanges⟩ := services_messages_independent hmodel rfl hdocument
  obtain ⟨hmethods, hmessages, -⟩ := hchanges hall hplace
  obtain ⟨hsame, himports, -, -⟩ := hmethods _ quiet hquiet
  obtain ⟨hservices, -, -⟩ := hmessages _ mute hmute
  refine ⟨hmodel, hplace, document, quiet, mute, hdocument, hquiet, hmute, hsame, himports, ?_,
    hservices⟩
  cases hquiet
  decide

end Protoscribe.Plan
