import Mathlib.Data.List.Nodup
import Mathlib.Data.List.Pairwise
import Protoscribe.Proofs.Matching
import Protoscribe.Proofs.Plan.Outcome
import Protoscribe.Proofs.Proto.Layout
import Protoscribe.Proofs.Registry.Check

/-!
The document of an application is put together from the documents of its models.
Looking a model up by its name and filtering the models of an application are
two ways to the same shares, provided that no two models have one name, and
every part of a document follows from the shares.
-/

namespace Protoscribe

/-- With unique names a model is found by its own name. -/
theorem App.model?_of_mem {app : App} (h : (app.models.map Model.name).Nodup) {model : Model}
    (hmodel : model ∈ app.models) : app.model? model.name = some model :=
  find?_of_nodup h hmodel

namespace Plan

def produced (model : Model) : List Model := if model.isAbstract then [] else [model]

/-- The concrete models one after the other, abstract ones giving nothing. -/
theorem concreteModels_eq (app : App) : app.concreteModels = app.models.flatMap produced := by
  rw [App.concreteModels]
  induction app.models with
  | nil => rfl
  | cons model rest ih =>
      rw [List.flatMap_cons, ← ih]
      cases h : model.isAbstract <;> simp [produced, h]

theorem resolve_app {registry : Registry} {name : String} {app : App}
    (happ : registry.app? name = some app) :
    resolve registry ⟨name, none⟩ = .ok (app.models.flatMap produced) := by
  simp only [resolve, happ, concreteModels_eq]

/-- The scope of one model holds that model, or nothing if it is abstract. -/
theorem resolve_model {registry : Registry} {name : String} {app : App}
    (happ : registry.app? name = some app) (hnames : (app.models.map Model.name).Nodup)
    {model : Model} (hmodel : model ∈ app.models) :
    resolve registry ⟨name, some model.name⟩ = .ok (produced model) := by
  simp only [resolve, happ, App.model?_of_mem hnames hmodel, produced]

theorem pairwise_produced (sources : Sources) (model : Model) :
    (produced model).Pairwise (KeysApart sources) := by
  unfold produced
  split
  · exact .nil
  · exact List.pairwise_singleton _ _

/-- The shares of a model that are there: one, or none if it is abstract. -/
def Yields (sources : Sources) (model : Model) (own : List Share) : Prop :=
  List.Forall₂ (fun one own => share sources one = .ok own) (produced model) own

def ProducedApart (sources : Sources) (first second : Model) : Prop :=
  ∀ one ∈ produced first, ∀ other ∈ produced second, KeysApart sources one other

theorem ProducedApart.symm {sources : Sources} {first second : Model}
    (h : ProducedApart sources first second) : ProducedApart sources second first :=
  fun one hone other hother => (h other hother one hone).symm

/-- Two parts share no message name exactly if the keys of their models are apart. -/
theorem disjoint_names_iff {sources : Sources} {first second : Model} {own other : List Share}
    (hown : Yields sources first own) (hother : Yields sources second other) (package : String) :
    ((assemble package own).messages.map Proto.Message.name).Disjoint
        ((assemble package other).messages.map Proto.Message.name) ↔
      ProducedApart sources first second := by
  change ((own.flatMap Share.messages).map Proto.Message.name).Disjoint
    ((other.flatMap Share.messages).map Proto.Message.name) ↔ _
  rw [names_shares hown, names_shares hother]
  constructor
  · intro h one hone another hanother name hname hsame
    exact h (List.mem_flatMap.mpr ⟨one, hone, hname⟩)
      (List.mem_flatMap.mpr ⟨another, hanother, hsame⟩)
  · intro h name hname hsame
    obtain ⟨one, hone, hname⟩ := List.mem_flatMap.mp hname
    obtain ⟨another, hanother, hsame⟩ := List.mem_flatMap.mp hsame
    exact h one hone another hanother hname hsame

/-- An application has a document exactly if every model yields its share and no two of
them meet in a message; the document then assembles the shares in order. -/
theorem plan_app_eq_ok_iff {registry : Registry} {name : String} {app : App} {sources : Sources}
    (happ : registry.app? name = some app) {whole : Proto.Document} :
    plan registry ⟨name, none⟩ sources = .ok whole ↔
      ∃ owns, List.Forall₂ (Yields sources) app.models owns ∧
        app.models.Pairwise (ProducedApart sources) ∧ whole = assemble name owns.flatten := by
  rw [plan_eq_ok_iff, resolve_app happ]
  constructor
  · rintro ⟨models, shares, hmodels, hshares, hapart, rfl⟩
    cases hmodels
    obtain ⟨owns, howns, rfl⟩ := forall₂_flatMap_iff.mp hshares
    exact ⟨owns, howns, (List.pairwise_flatMap.mp hapart).2, rfl⟩
  · rintro ⟨owns, howns, hapart, rfl⟩
    exact ⟨_, owns.flatten, rfl, forall₂_flatMap_iff.mpr ⟨owns, howns, rfl⟩,
      List.pairwise_flatMap.mpr ⟨fun model _ => pairwise_produced sources model, hapart⟩, rfl⟩

/-- The document of one model is its own share and nothing else. -/
theorem plan_model_eq_ok_iff {registry : Registry} {name : String} {app : App} {sources : Sources}
    (happ : registry.app? name = some app) (hnames : (app.models.map Model.name).Nodup)
    {model : Model} (hmodel : model ∈ app.models) {part : Proto.Document} :
    plan registry ⟨name, some model.name⟩ sources = .ok part ↔
      ∃ own, Yields sources model own ∧ part = assemble name own := by
  rw [plan_eq_ok_iff, resolve_model happ hnames hmodel]
  constructor
  · rintro ⟨models, shares, hmodels, hshares, -, rfl⟩
    cases hmodels
    exact ⟨shares, hshares, rfl⟩
  · rintro ⟨own, hown, rfl⟩
    exact ⟨_, own, rfl, hown, pairwise_produced sources model, rfl⟩

/-! ### One document from several -/

/-- A document that holds what several documents hold, in their order, and
imports what one of them needs. -/
structure Composes (whole : Proto.Document) (parts : List Proto.Document) : Prop where
  package : ∀ part ∈ parts, part.package = whole.package
  imports : whole.imports =
    if ∃ part ∈ parts, Proto.structImport ∈ part.imports then
      [Proto.emptyImport, Proto.structImport]
    else [Proto.emptyImport]
  services : whole.services = parts.flatMap Proto.Document.services
  messages : whole.messages = parts.flatMap Proto.Document.messages
  text : whole.render = linesText (whole.header ++
    parts.flatMap Proto.Document.serviceLines ++ parts.flatMap Proto.Document.messageLines)

/-- The import is there exactly if some message holds a free-form structure. -/
theorem structImport_mem_imports (messages : List Proto.Message) :
    Proto.structImport ∈ imports messages ↔ messages.any Proto.Message.usesStruct = true := by
  have hne : Proto.structImport ≠ Proto.emptyImport := by decide
  unfold imports
  cases messages.any Proto.Message.usesStruct <;> simp [hne]

theorem services_assemble (package : String) (owns : List (List Share)) :
    (assemble package owns.flatten).services =
      (owns.map (assemble package)).flatMap Proto.Document.services := by
  change owns.flatten.filterMap Share.service = _
  rw [List.filterMap_flatten, List.flatMap_map, List.flatMap_def]
  rfl

theorem messages_assemble (package : String) (owns : List (List Share)) :
    (assemble package owns.flatten).messages =
      (owns.map (assemble package)).flatMap Proto.Document.messages := by
  change owns.flatten.flatMap Share.messages = _
  rw [List.flatMap_map, List.flatMap_def, List.map_flatten, List.flatten_flatten, List.map_map]
  rfl

/-- What the shares of all models assemble to composes what each of them does. -/
theorem composes_assemble (package : String) (owns : List (List Share)) :
    Composes (assemble package owns.flatten) (owns.map (assemble package)) where
  package := by
    intro part hpart
    obtain ⟨own, -, rfl⟩ := List.mem_map.mp hpart
    rfl
  imports := by
    have hneeded : (∃ part ∈ owns.map (assemble package), Proto.structImport ∈ part.imports) ↔
        (assemble package owns.flatten).messages.any Proto.Message.usesStruct = true := by
      rw [messages_assemble, List.any_flatMap, List.any_eq_true]
      constructor
      · rintro ⟨part, hpart, himport⟩
        obtain ⟨own, -, rfl⟩ := List.mem_map.mp hpart
        exact ⟨_, hpart, (structImport_mem_imports _).mp himport⟩
      · rintro ⟨part, hpart, huses⟩
        obtain ⟨own, -, rfl⟩ := List.mem_map.mp hpart
        exact ⟨_, hpart, (structImport_mem_imports _).mpr huses⟩
    change imports (assemble package owns.flatten).messages = _
    simp only [hneeded, imports]
    split <;> rfl
  services := services_assemble package owns
  messages := messages_assemble package owns
  text := by
    rw [Proto.render_eq, Proto.Document.lines, Proto.Document.serviceLines,
      Proto.Document.messageLines, services_assemble, messages_assemble, List.flatMap_assoc,
      List.flatMap_assoc]
    rfl

section

variable {registry : Registry} {name : String} {app : App} {sources : Sources}

theorem plan_model_of_yields (happ : registry.app? name = some app)
    (hnames : (app.models.map Model.name).Nodup) {model : Model} (hmodel : model ∈ app.models)
    {own : List Share} (hown : Yields sources model own) :
    plan registry ⟨name, some model.name⟩ sources = .ok (assemble name own) :=
  (plan_model_eq_ok_iff happ hnames hmodel).mpr ⟨own, hown, rfl⟩

/-- The whole can be planned exactly if every model can and no two of the parts have a
message name in common. -/
theorem plan_app_ok_iff (happ : registry.app? name = some app)
    (hnames : (app.models.map Model.name).Nodup) :
    (∃ whole, plan registry ⟨name, none⟩ sources = .ok whole) ↔
      (∀ model ∈ app.models, ∃ part, plan registry ⟨name, some model.name⟩ sources = .ok part) ∧
        ∀ first ∈ app.models, ∀ second ∈ app.models, first ≠ second → ∀ part other,
          plan registry ⟨name, some first.name⟩ sources = .ok part →
          plan registry ⟨name, some second.name⟩ sources = .ok other →
          (part.messages.map Proto.Message.name).Disjoint
            (other.messages.map Proto.Message.name) := by
  have hsymm : Std.Symm (ProducedApart sources) := ⟨fun _ _ h => h.symm⟩
  constructor
  · rintro ⟨whole, hwhole⟩
    obtain ⟨owns, howns, hapart, -⟩ := (plan_app_eq_ok_iff happ).mp hwhole
    refine ⟨?_, ?_⟩
    · intro model hmodel
      obtain ⟨own, hown⟩ := exists_forall₂_iff.mp ⟨owns, howns⟩ model hmodel
      exact ⟨_, plan_model_of_yields happ hnames hmodel hown⟩
    · intro first hfirst second hsecond hne part other hpart hother
      obtain ⟨own, hown, rfl⟩ := (plan_model_eq_ok_iff happ hnames hfirst).mp hpart
      obtain ⟨another, hanother, rfl⟩ := (plan_model_eq_ok_iff happ hnames hsecond).mp hother
      rw [disjoint_names_iff hown hanother]
      exact hapart.forall hfirst hsecond hne
  · rintro ⟨hparts, hdisjoint⟩
    have hyields : ∀ model ∈ app.models, ∃ own, Yields sources model own := by
      intro model hmodel
      obtain ⟨part, hpart⟩ := hparts model hmodel
      obtain ⟨own, hown, -⟩ := (plan_model_eq_ok_iff happ hnames hmodel).mp hpart
      exact ⟨own, hown⟩
    have hapart : app.models.Pairwise (ProducedApart sources) := by
      refine (List.Nodup.of_map Model.name hnames).pairwise_of_forall_ne ?_
      intro first hfirst second hsecond hne
      obtain ⟨own, hown⟩ := hyields first hfirst
      obtain ⟨other, hother⟩ := hyields second hsecond
      rw [← disjoint_names_iff hown hother name]
      exact hdisjoint first hfirst second hsecond hne _ _
        (plan_model_of_yields happ hnames hfirst hown)
        (plan_model_of_yields happ hnames hsecond hother)
    obtain ⟨owns, howns⟩ := exists_forall₂_iff.mpr hyields
    exact ⟨_, (plan_app_eq_ok_iff happ).mpr ⟨owns, howns, hapart, rfl⟩⟩

/-- A planned application composes the plans of its models, in their order. -/
theorem composes_plan (happ : registry.app? name = some app)
    (hnames : (app.models.map Model.name).Nodup) {whole : Proto.Document}
    (h : plan registry ⟨name, none⟩ sources = .ok whole) :
    ∃ parts, Composes whole parts ∧
      List.Forall₂ (fun model part =>
        plan registry ⟨name, some model.name⟩ sources = .ok part) app.models parts := by
  obtain ⟨owns, howns, -, rfl⟩ := (plan_app_eq_ok_iff happ).mp h
  refine ⟨_, composes_assemble name owns, ?_⟩
  rw [List.forall₂_map_right_iff]
  have hin := (List.forall₂_and_left app.models owns).mpr ⟨fun model hmodel => hmodel, howns⟩
  refine hin.imp ?_
  rintro model own ⟨hmodel, hown⟩
  exact plan_model_of_yields happ hnames hmodel hown

/-- The document of an application is there exactly if each of its models has a
document and no two of these share the name of a message. It is put together
from them, and so is its text. -/
theorem app_composes_models (sources : Sources) (happ : registry.app? name = some app)
    (hnames : (app.models.map Model.name).Nodup) :
    ((∃ whole, plan registry ⟨name, none⟩ sources = .ok whole) ↔
      (∀ model ∈ app.models, ∃ part, plan registry ⟨name, some model.name⟩ sources = .ok part) ∧
        ∀ first ∈ app.models, ∀ second ∈ app.models, first ≠ second → ∀ part other,
          plan registry ⟨name, some first.name⟩ sources = .ok part →
          plan registry ⟨name, some second.name⟩ sources = .ok other →
          (part.messages.map Proto.Message.name).Disjoint
            (other.messages.map Proto.Message.name)) ∧
    (∀ model ∈ app.models, model.isAbstract = true →
      ∃ part, plan registry ⟨name, some model.name⟩ sources = .ok part ∧
        part.services = [] ∧ part.messages = []) ∧
    (∀ whole, plan registry ⟨name, none⟩ sources = .ok whole →
      generate registry ⟨name, none⟩ sources = .ok whole.render ∧
        ∃ parts, Composes whole parts ∧
          List.Forall₂ (fun model part =>
            plan registry ⟨name, some model.name⟩ sources = .ok part ∧
              generate registry ⟨name, some model.name⟩ sources = .ok part.render ∧
              part.render = linesText (part.header ++ part.serviceLines ++ part.messageLines))
            app.models parts) := by
  refine ⟨plan_app_ok_iff happ hnames, ?_, ?_⟩
  · intro model hmodel habstract
    have hnone : Yields sources model [] := by
      rw [Yields, produced, if_pos habstract]
      exact .nil
    exact ⟨_, plan_model_of_yields happ hnames hmodel hnone, rfl, rfl⟩
  · intro whole hwhole
    obtain ⟨parts, hcomposes, hparts⟩ := composes_plan happ hnames hwhole
    refine ⟨generate_eq_ok_iff.mpr ⟨whole, hwhole, rfl⟩, parts, hcomposes, hparts.imp ?_⟩
    intro model part hpart
    exact ⟨hpart, generate_eq_ok_iff.mpr ⟨part, hpart, rfl⟩, Proto.render_eq part⟩

end

/-- An application with two models that share no message, and an abstract one. -/
def shop : App :=
  ⟨"shop", [
    { name := "Item", fields := [⟨"id", "AutoField"⟩, ⟨"label", "CharField"⟩], filterRequest := true },
    { name := "Stamped", isAbstract := true },
    { name := "Order", fields := [⟨"id", "BigIntegerField"⟩],
      messages := some (.ofList [("OrderLine", .listed ["id"])]) }]⟩

/-- Of three models, one of them abstract, two give services and messages. -/
theorem app_composes_models_shop :
    Registry.app? ⟨[shop]⟩ "shop" = some shop ∧ (shop.models.map Model.name).Nodup ∧
      ∃ whole parts, plan ⟨[shop]⟩ ⟨"shop", none⟩ = .ok whole ∧ Composes whole parts ∧
        parts.length = 3 ∧ whole.services.length = 2 ∧ whole.messages.length = 6 := by
  have happ : Registry.app? ⟨[shop]⟩ "shop" = some shop := by decide
  have hnames : (shop.models.map Model.name).Nodup := by decide
  obtain ⟨-, -, hwhole⟩ := app_composes_models {} happ hnames
  have hcount : (plan ⟨[shop]⟩ ⟨"shop", none⟩).toOption.map
      (fun whole => (whole.services.length, whole.messages.length)) = some (2, 6) := by decide
  obtain ⟨whole, hplan⟩ : ∃ whole, plan ⟨[shop]⟩ ⟨"shop", none⟩ = .ok whole := ⟨_, rfl⟩
  obtain ⟨-, parts, hcomposes, hparts⟩ := hwhole whole hplan
  rw [hplan] at hcount
  obtain ⟨hservices, hmessages⟩ := Prod.mk.inj (Option.some.inj hcount)
  exact ⟨happ, hnames, whole, parts, hplan, hcomposes, hparts.length_eq.symm, hservices, hmessages⟩

end Plan

end Protoscribe
