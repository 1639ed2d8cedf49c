import Protoscribe.Proofs.Matching
import Protoscribe.Proofs.Plan.Outcome

/-!
No two blocks of one kind share a name. Messages are held against each other as they are
planned, the methods of a service are the keys of a map, and services are named after
models, which an application names apart. Each service is that of one model in scope, and
they stand in the order of these models.
-/

namespace Protoscribe.Plan

/-- A scope covers concrete models of its application, in the order of declaration. -/
theorem inScope_sublist {registry : Registry} {scope : Scope} {app : App}
    (happ : registry.app? scope.app = some app) :
    (inScope registry scope).Sublist app.concreteModels := by
  simp only [inScope, happ, App.concreteModels]
  apply List.Sublist.filter
  cases scope.model with
  | none => exact List.Sublist.refl app.models
  | some name =>
      simp only []
      cases hfound : app.model? name with
      | none => exact List.nil_sublist app.models
      | some model => exact List.singleton_sublist.mpr (List.mem_of_find?_eq_some hfound)

theorem suffix_injective (suffix : String) : Function.Injective (· ++ suffix) :=
  fun _ _ h => (String.append_left_inj suffix).mp h

section

variable {registry : Registry} {scope : Scope} {sources : Sources} {document : Proto.Document}

/-- The services are those of some models in scope, one by one. -/
theorem exists_owners (h : plan registry scope sources = .ok document) :
    ∃ owners, owners.Sublist (inScope registry scope) ∧
      List.Forall₂ (fun owner own => service sources owner = .ok (some own)) owners
        document.services := by
  obtain ⟨models, shares, hmodels, hshares, -, rfl⟩ := plan_eq_ok_iff.mp h
  obtain ⟨owners, hsublist, howners⟩ := exists_sublist_filterMap hshares Share.service
  rw [eq_inScope hmodels] at hsublist
  refine ⟨owners, hsublist, howners.imp ?_⟩
  rintro owner own ⟨part, hshare, hsome⟩
  rw [(share_eq_ok_iff.mp hshare).1, hsome]

/-- Services are named after their models. -/
theorem names_of_owners {owners : List Model} {services : List Proto.Service}
    (h : List.Forall₂ (fun owner own => service sources owner = .ok (some own)) owners services) :
    services.map Proto.Service.name = (owners.map Model.name).map (· ++ "Controller") := by
  induction h with
  | nil => rfl
  | cons hservice _ ih =>
      obtain ⟨-, -, hname, -⟩ := service_eq_some_iff.mp hservice
      rw [List.map_cons, hname, ih]
      rfl

/-- The methods of a service are named by the keys of a map that is not empty. -/
theorem methods_of_service {model : Model} {own : Proto.Service}
    (h : service sources model = .ok (some own)) :
    own.methods ≠ [] ∧ (own.methods.map Proto.Rpc.name).Nodup := by
  obtain ⟨hmethods, -, -, hrpcs⟩ := service_eq_some_iff.mp h
  have hnames : own.methods.map Proto.Rpc.name = (methodsOf sources model).keys := by
    have hsame : List.Forall₂ (· = ·) (methodsOf sources model).keys
        (own.methods.map Proto.Rpc.name) := by
      rw [OrderedMap.keys, List.forall₂_map_left_iff, List.forall₂_map_right_iff]
      refine hrpcs.imp ?_
      intro entry planned hplanned
      exact (rpc_eq_ok_iff.mp hplanned).2.1.symm
    rw [List.forall₂_eq_eq_eq] at hsame
    exact hsame.symm
  constructor
  · intro hnone
    rw [hnone] at hrpcs
    cases hentries : (methodsOf sources model).toList with
    | nil =>
        have hempty : (methodsOf sources model).isEmpty = true := by
          simpa [OrderedMap.isEmpty, OrderedMap.toList] using hentries
        rw [hempty] at hmethods
        cases hmethods
    | cons entry rest =>
        rw [hentries] at hrpcs
        cases hrpcs
  · rw [hnames]
    exact (methodsOf sources model).nodup_keys

/-- In every document of an application whose models have names of their own, the names
of messages are distinct, the names of services are, and the methods of a service, of
which there is one at least. The services stand for models in scope in their order, and
each of them for one alone. -/
theorem blocks_uniquely_named {app : App} (happ : registry.app? scope.app = some app)
    (hnames : (app.models.map Model.name).Nodup)
    (h : plan registry scope sources = .ok document) :
    (document.messages.map Proto.Message.name).Nodup ∧
      (document.services.map Proto.Service.name).Nodup ∧
      (∀ own ∈ document.services,
        own.methods ≠ [] ∧ (own.methods.map Proto.Rpc.name).Nodup) ∧
      (∃ owners, owners.Sublist (inScope registry scope) ∧
        List.Forall₂ (fun owner own => service sources owner = .ok (some own)) owners
          document.services) ∧
      ∀ own ∈ document.services, ∃! owner, owner ∈ inScope registry scope ∧
        own.name = owner.name ++ "Controller" := by
  obtain ⟨owners, hsublist, howners⟩ := exists_owners h
  have hmodels : ((inScope registry scope).map Model.name).Nodup := by
    have hsublist := (inScope_sublist happ).trans List.filter_sublist
    exact hnames.sublist (hsublist.map Model.name)
  have hservices : (document.services.map Proto.Service.name).Nodup := by
    rw [names_of_owners howners]
    apply List.Nodup.map (suffix_injective "Controller")
    exact hmodels.sublist (hsublist.map Model.name)
  refine ⟨nodup_names_messages h, hservices, ?_, ⟨owners, hsublist, howners⟩, ?_⟩
  · intro own hown
    obtain ⟨model, -, hservice⟩ := mem_services h hown
    exact methods_of_service hservice
  · intro own hown
    obtain ⟨owner, howner, hservice⟩ := mem_services h hown
    obtain ⟨-, -, hname, -⟩ := service_eq_some_iff.mp hservice
    refine ⟨owner, ⟨howner, hname⟩, ?_⟩
    rintro other ⟨hother, hsame⟩
    apply List.inj_on_of_nodup_map hmodels hother howner
    exact suffix_injective "Controller" (hsame.symm.trans hname)

end

/-- A fleet with a model of its own methods, an abstract one, a silent one, and one that
takes what the sources give. -/
def fleet : App :=
  ⟨"fleet", [
    { name := "Port", fields := [⟨"id", "AutoField"⟩],
      methods := some (.ofList [("Dock", {}), ("Leave", {}), ("Dock", ⟨.named "Berth", {}⟩)]) },
    { name := "Timed", isAbstract := true },
    { name := "Buoy", fields := [⟨"id", "AutoField"⟩], methods := some .empty,
      messages := some (.ofList [("Signal", .all)]) },
    { name := "Ship", fields := [⟨"id", "AutoField"⟩] }]⟩

def fleetSources : Sources where
  methods := [.constant (.ofList [("Ping", {})]) .empty, Mixin.list.defaults,
    .constant (.ofList [("Ping", ⟨.named "Echo", .stream "Echo"⟩)]) .empty]
  messages := [Mixin.retrieve.defaults]

/-- A model without methods has no service, and a repeated override counts once. -/
theorem blocks_uniquely_named_fleet :
    Registry.app? ⟨[fleet]⟩ "fleet" = some fleet ∧ (fleet.models.map Model.name).Nodup ∧
      ∃ document, plan ⟨[fleet]⟩ ⟨"fleet", none⟩ fleetSources = .ok document ∧
        document.services.map Proto.Service.name = ["PortController", "ShipController"] ∧
        document.messages.map Proto.Message.name =
          ["PortRetrieveRequest", "Signal", "ShipRetrieveRequest"] ∧
        (document.services.map Proto.Service.name).Nodup ∧
        ∀ own ∈ document.services, (own.methods.map Proto.Rpc.name).Nodup := by
  have happ : Registry.app? ⟨[fleet]⟩ "fleet" = some fleet := by decide
  have hnames : (fleet.models.map Model.name).Nodup := by decide
  obtain ⟨document, hplan⟩ :
      ∃ document, plan ⟨[fleet]⟩ ⟨"fleet", none⟩ fleetSources = .ok document := ⟨_, rfl⟩
  obtain ⟨-, hservices, hmethods, -, -⟩ := blocks_uniquely_named happ hnames hplan
  refine ⟨happ, hnames, document, hplan, ?_, ?_, hservices, fun own hown => (hmethods own hown).2⟩
  · cases hplan
    decide
  · cases hplan
    decide

end Protoscribe.Plan
