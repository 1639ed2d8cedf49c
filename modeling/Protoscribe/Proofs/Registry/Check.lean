import Mathlib.Data.List.Infix
import Mathlib.Data.List.Induction
import Mathlib.Data.List.Nodup
import Protoscribe.Proofs.FirstFault
import Protoscribe.Registry.Check

/-!
What is wrong with a registry, in reading order, and what is promised where nothing
is. An application comes before its models and a model before its fields; each name is
held against the names of the items in front of it, among applications, among the
models of one application and among the fields of one model. The check fails with the
first violation of this list, and it passes where no name repeats among its neighbours
and every concrete model has its key.
-/

namespace Protoscribe

/-! ### The violations of a registry -/

variable {α β : Type}

/-- What is found at the items of a list, each looked at behind those in front of it. -/
def inTurn (find : List α → α → List β) (items : List α) : List β :=
  (items.inits.zip items).flatMap fun place => find place.1 place.2

/-- The violation of an item whose name stands in front of it already. -/
def repetition (name : α → String) (violation : α → Violation) (earlier : List α)
    (item : α) : List Violation :=
  if name item ∈ earlier.map name then [violation item] else []

/-- Repeated fields, then a missing key. -/
def Model.violations (app : String) (model : Model) : List Violation :=
  inTurn (repetition Field.name fun field => .repeatedField field.name app model.name)
      model.fields ++
    if model.isAbstract = false ∧ model.key ∉ model.fieldNames then
      [.missingKey model.key app model.name]
    else []

/-- For each model its repeated name, then what is wrong inside of it. -/
def App.violations (app : App) : List Violation :=
  inTurn (fun earlier model =>
    repetition Model.name (fun model => .repeatedModel model.name app.name) earlier model ++
      model.violations app.name) app.models

def Registry.violations (registry : Registry) : List Violation :=
  inTurn (fun earlier app =>
    repetition App.name (fun app => .repeatedApp app.name) earlier app ++ app.violations)
    registry.apps

/-! ### Checking item after item -/

theorem inTurn_nil (find : List α → α → List β) : inTurn find [] = [] := rfl

theorem inTurn_cons (find : List α → α → List β) (item : α) (rest : List α) :
    inTurn find (item :: rest) =
      find [] item ++ inTurn (fun earlier => find (item :: earlier)) rest := by
  simp only [inTurn, List.inits_cons, List.zip_cons_cons, List.flatMap_cons, List.zip_map_left,
    List.flatMap_map]
  rfl

/-- What is found at the last item is found behind all others. -/
theorem inTurn_concat (find : List α → α → List β) (items : List α) (item : α) :
    inTurn find (items ++ [item]) = inTurn find items ++ find items item := by
  induction items generalizing find with
  | nil => simp [inTurn_cons, inTurn_nil]
  | cons first rest ih => rw [List.cons_append, inTurn_cons, inTurn_cons, ih, List.append_assoc]

/-- Nothing is found at items that are sound by themselves and whose names do not repeat. -/
theorem inTurn_eq_nil_iff {name : α → String} {find : List α → α → List β} {sound : α → Prop}
    (hfind : ∀ earlier item, find earlier item = [] ↔
      name item ∉ earlier.map name ∧ sound item) (items : List α) :
    inTurn find items = [] ↔ (items.map name).Nodup ∧ ∀ item ∈ items, sound item := by
  induction items using List.reverseRecOn with
  | nil => simp [inTurn_nil]
  | append_singleton items item ih =>
      rw [inTurn_concat, List.append_eq_nil_iff, ih, hfind, List.map_append, List.map_singleton,
        List.forall_mem_append, List.forall_mem_singleton, ← List.concat_eq_append,
        List.nodup_concat]
      tauto

/-- A walk over items that knows the names it has seen finds what stands at the items
in turn, provided that each of its steps does. -/
theorem reports_inTurn (name : α → String) {walk : List String → List α → Except β Unit}
    {find : List α → α → List β}
    (hnil : ∀ seen, walk seen [] = .ok ())
    (hcons : ∀ earlier seen item rest faults, (∀ other, other ∈ seen ↔ other ∈ earlier.map name) →
      Reports (walk (name item :: seen) rest) faults →
      Reports (walk seen (item :: rest)) (find earlier item ++ faults))
    (items : List α) : Reports (walk [] items) (inTurn find items) := by
  -- the names seen are those of the items in front of the rest
  have hfrom : ∀ (rest earlier : List α) (seen : List String),
      (∀ other, other ∈ seen ↔ other ∈ earlier.map name) →
      Reports (walk seen rest) (inTurn (fun between => find (earlier ++ between)) rest) := by
    intro rest
    induction rest with
    | nil =>
        intro earlier seen _
        rw [hnil]
        exact inTurn_nil _
    | cons item rest ih =>
        intro earlier seen hseen
        have hstep : ∀ other, other ∈ name item :: seen ↔ other ∈ (earlier ++ [item]).map name := by
          intro other
          rw [List.mem_cons, hseen other, List.map_append, List.mem_append, or_comm]
          simp
        have hrest := ih (earlier ++ [item]) (name item :: seen) hstep
        simp only [List.append_assoc, List.singleton_append] at hrest
        rw [inTurn_cons, List.append_nil]
        exact hcons earlier seen item rest _ hseen hrest
  exact hfrom items [] [] (by simp)

/-- There is no repetition where the name is new. -/
theorem repetition_eq_nil_iff {name : α → String} {violation : α → Violation} {earlier : List α}
    {item : α} : repetition name violation earlier item = [] ↔ name item ∉ earlier.map name := by
  unfold repetition
  by_cases h : name item ∈ earlier.map name
  · rw [if_pos h]
    exact iff_of_false (List.cons_ne_nil _ _) (fun hnew => hnew h)
  · rw [if_neg h]
    exact iff_of_true rfl h

/-- The step of a walk that first looks whether the name was seen. -/
theorem reports_repetition {name : α → String} (violation : α → Violation)
    {earlier : List α} {seen : List String} (hseen : ∀ other, other ∈ seen ↔ other ∈ earlier.map name)
    (item : α) {next : Except Violation Unit} {faults : List Violation}
    (hnext : Reports next faults) :
    Reports (if name item ∈ seen then .error (violation item) else next)
      (repetition name violation earlier item ++ faults) := by
  unfold repetition
  simp only [hseen]
  by_cases h : name item ∈ earlier.map name
  · rw [if_pos h, if_pos h]
    rfl
  · rw [if_neg h, if_neg h, List.nil_append]
    exact hnext

/-! ### What the check reports -/

namespace Model

def checkNames (app : String) (model : Model) (seen : List String) (fields : List Field) :
    Except Violation Unit :=
  match firstRepeated seen (fields.map Field.name) with
  | some field => .error (.repeatedField field app model.name)
  | none => .ok ()

theorem checkNames_cons (app : String) (model : Model) (seen : List String) (field : Field)
    (rest : List Field) :
    model.checkNames app seen (field :: rest) =
      if field.name ∈ seen then .error (.repeatedField field.name app model.name)
      else model.checkNames app (field.name :: seen) rest := by
  unfold checkNames
  rw [List.map_cons, firstRepeated]
  by_cases h : field.name ∈ seen
  · rw [if_pos h, if_pos h]
  · rw [if_neg h, if_neg h]

/-- Fields are checked in order, each against the ones in front of it. -/
theorem reports_checkNames (app : String) (model : Model) :
    Reports (model.checkNames app [] model.fields)
      (inTurn (repetition Field.name fun field => .repeatedField field.name app model.name)
        model.fields) := by
  refine reports_inTurn Field.name (fun _ => rfl) ?_ model.fields
  intro earlier seen field rest faults hseen hrest
  rw [checkNames_cons]
  exact reports_repetition (fun field => .repeatedField field.name app model.name) hseen field hrest

/-- Of a model the field names come first and the primary key last. -/
theorem reports_check (app : String) (model : Model) :
    Reports (model.check app) (model.violations app) := by
  have hcheck : model.check app = (do
      model.checkNames app [] model.fields
      if !model.isAbstract && (model.field? model.key).isNone then
        .error (.missingKey model.key app model.name)
      else .ok ()) := by
    unfold check checkNames fieldNames
    cases firstRepeated [] (model.fields.map Field.name) <;> rfl
  have hmissing : (!model.isAbstract && (model.field? model.key).isNone) = true ↔
      model.isAbstract = false ∧ model.key ∉ model.fieldNames := by
    simp [field?, fieldNames]
  rw [hcheck, violations]
  refine Reports.bind (reports_checkNames app model) fun _ _ => ?_
  simp only [hmissing]
  split <;> rfl

end Model

/-- Of each model the repetition comes first, then its own violations. -/
theorem App.reports_check (app : App) : Reports app.check app.violations := by
  refine reports_inTurn Model.name (fun _ => rfl) ?_ app.models
  intro earlier seen model rest faults hseen hrest
  rw [App.checkModels, List.append_assoc]
  exact reports_repetition (fun model => .repeatedModel model.name app.name) hseen model
    (Reports.bind (model.reports_check app.name) fun _ _ => hrest)

/-- Of each application the repetition comes first, then its own violations. -/
theorem Registry.reports_check (registry : Registry) :
    Reports registry.check registry.violations := by
  refine reports_inTurn App.name (fun _ => rfl) ?_ registry.apps
  intro earlier seen app rest faults hseen hrest
  rw [Registry.checkApps, List.append_assoc]
  exact reports_repetition (fun app => .repeatedApp app.name) hseen app
    (Reports.bind app.reports_check fun _ _ => hrest)

/-! ### What a consistent registry promises -/

/-- Field names do not repeat, and a concrete model has its key among them. -/
structure Model.Consistent (model : Model) : Prop where
  fields : model.fieldNames.Nodup
  key : model.isAbstract = false → model.key ∈ model.fieldNames

structure App.Consistent (app : App) : Prop where
  names : (app.models.map Model.name).Nodup
  models : ∀ model ∈ app.models, model.Consistent

structure Registry.Consistent (registry : Registry) : Prop where
  names : (registry.apps.map App.name).Nodup
  apps : ∀ app ∈ registry.apps, app.Consistent

theorem Model.violations_eq_nil_iff {app : String} {model : Model} :
    model.violations app = [] ↔ model.Consistent := by
  have hfind : ∀ earlier field,
      repetition Field.name (fun field => .repeatedField field.name app model.name) earlier field =
        [] ↔ field.name ∉ earlier.map Field.name ∧ True := by
    intro earlier field
    rw [repetition_eq_nil_iff, and_true]
  have hkey : (if model.isAbstract = false ∧ model.key ∉ model.fieldNames then
        [Violation.missingKey model.key app model.name] else []) = [] ↔
      (model.isAbstract = false → model.key ∈ model.fieldNames) := by
    simp
  rw [violations, List.append_eq_nil_iff, inTurn_eq_nil_iff hfind, hkey]
  exact ⟨fun h => ⟨h.1.1, h.2⟩, fun h => ⟨⟨h.fields, fun _ _ => trivial⟩, h.key⟩⟩

theorem App.violations_eq_nil_iff {app : App} : app.violations = [] ↔ app.Consistent := by
  have hfind : ∀ earlier model,
      repetition Model.name (fun model => .repeatedModel model.name app.name) earlier model ++
        model.violations app.name = [] ↔
      model.name ∉ earlier.map Model.name ∧ model.Consistent := by
    intro earlier model
    rw [List.append_eq_nil_iff, repetition_eq_nil_iff, Model.violations_eq_nil_iff]
  rw [violations, inTurn_eq_nil_iff hfind]
  exact ⟨fun h => ⟨h.1, h.2⟩, fun h => ⟨h.names, h.models⟩⟩

/-- There is nothing to report exactly if all names are unique and keys exist. -/
theorem Registry.violations_eq_nil_iff {registry : Registry} :
    registry.violations = [] ↔ registry.Consistent := by
  have hfind : ∀ earlier app,
      repetition App.name (fun app => .repeatedApp app.name) earlier app ++ app.violations = [] ↔
      app.name ∉ earlier.map App.name ∧ app.Consistent := by
    intro earlier app
    rw [List.append_eq_nil_iff, repetition_eq_nil_iff, App.violations_eq_nil_iff]
  rw [violations, inTurn_eq_nil_iff hfind]
  exact ⟨fun h => ⟨h.1, h.2⟩, fun h => ⟨h.names, h.apps⟩⟩

/-- A check passes exactly on what it promises. -/
theorem Registry.check_eq_ok_iff {registry : Registry} :
    registry.check = .ok () ↔ registry.Consistent := by
  rw [← violations_eq_nil_iff, ← registry.reports_check.ok_iff]
  exact ⟨fun h => ⟨(), h⟩, fun ⟨_, h⟩ => h⟩

/-! ### Looking up by name -/

/-- Where keys do not repeat, an item is the only one with its key. -/
theorem filter_of_nodup {key : α → String} {items : List α}
    (h : (items.map key).Nodup) {item : α} (hitem : item ∈ items) :
    items.filter (fun other => key other = key item) = [item] := by
  induction items with
  | nil => cases hitem
  | cons first rest ih =>
      obtain ⟨hnew, hrest⟩ := List.nodup_cons.mp h
      cases List.mem_cons.mp hitem with
      | inl hfirst =>
          subst hfirst
          have hnone : rest.filter (fun other => key other = key item) = [] := by
            rw [List.filter_eq_nil_iff]
            intro other hother hsame
            exact hnew (of_decide_eq_true hsame ▸ List.mem_map_of_mem hother)
          rw [List.filter_cons_of_pos (by simp), hnone]
      | inr hlater =>
          have hne : key first ≠ key item := fun e => hnew (e ▸ List.mem_map_of_mem hlater)
          rw [List.filter_cons_of_neg (by simpa using hne)]
          exact ih hrest hlater

theorem find?_of_nodup {key : α → String} {items : List α}
    (h : (items.map key).Nodup) {item : α} (hitem : item ∈ items) :
    items.find? (fun other => key other = key item) = some item := by
  rw [← List.head?_filter, filter_of_nodup h hitem, List.head?_singleton]

/-- Among unique names a name leads to the one item that bears it. -/
theorem find?_eq_some_iff_of_nodup {key : α → String} {items : List α}
    (h : (items.map key).Nodup) {name : String} {item : α} :
    items.find? (fun other => key other = name) = some item ↔ item ∈ items ∧ key item = name := by
  constructor
  · intro hfound
    exact ⟨List.mem_of_find?_eq_some hfound, by simpa using List.find?_some hfound⟩
  · rintro ⟨hitem, rfl⟩
    exact find?_of_nodup h hitem

end Protoscribe
