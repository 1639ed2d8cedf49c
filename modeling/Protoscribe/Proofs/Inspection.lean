import Protoscribe.Proofs.Output
import Protoscribe.Proofs.Plan.Defaults
import Protoscribe.Proofs.Registry.Detect

/-!
What inspection shows of a model is what is generated for it. The lines of a concrete
model tell its fields as they are declared, with their types, and one of them bears the
mark of the primary key. Messages look the fields up by name and come to the same types,
since no name repeats among the fields of a model that was read.
-/

namespace Protoscribe.CommandLine

open Files

def inspected (model : Model) : List FieldLine := model.fields.map (.ofField model)

def Marked (text : String) : Prop := " [pk]".toList <:+ text.toList

/-- The lines tell the fields of a model as they are declared, each with the type that
its tag maps to, and are printed with all three. The one line of the primary key is
marked, in colours or without. -/
structure Tells (lines : List FieldLine) (model : Model) : Prop where
  fields : lines.map (fun line => (line.name, line.tag, line.type)) =
    model.fields.map fun field => (field.name, field.tag, Proto.scalarType field.tag)
  names : (lines.map FieldLine.name).Nodup
  shown : ∀ line ∈ lines, ∀ colors,
    ("    " ++ line.name ++ " " ++ line.tag ++ " -> " ++ line.type).toList <+:
      (line.text colors).toList
  key : ∃ line, lines.filter (·.isKey) = [line] ∧ line.name = model.key
  marked : ∀ line ∈ lines, ∀ colors, Marked (line.text colors) ↔ line.isKey = true

/-- The message has the fields that were selected, under the type of the line with the same
name, and free-form structures behind them. All fields are selected in the order of the
lines. -/
structure Agrees (lines : List FieldLine) (model : Model) (spec : MessageSpec)
    (own : Proto.Message) : Prop where
  taken : ∃ taken, taken.map FieldLine.name = Plan.selectedNames model spec.selection ∧
    (∀ line ∈ taken, line ∈ lines) ∧ (spec.selection = .all → taken = lines) ∧
    own.fields.map (fun field => (field.type, field.name)) =
      taken.map (fun line => (line.type, line.name)) ++
        spec.structFields.map fun field => (Proto.structType, field)

/-! ### Marks -/

theorem not_marked_of_getLast? {text : String} {c : Char} (hlast : text.toList.getLast? = some c)
    (hc : c ≠ ']') : ¬ Marked text := by
  rintro ⟨front, hfront⟩
  rw [← hfront, List.getLast?_append] at hlast
  exact hc (Option.some.inj hlast).symm

theorem getLast?_append_text (front : String) {behind : String} {c : Char}
    (h : behind.toList.getLast? = some c) : (front ++ behind).toList.getLast? = some c := by
  rw [String.toList_append, List.getLast?_append, h]
  rfl

theorem getLast?_scalarType (tag : String) :
    ∃ c, (Proto.scalarType tag).toList.getLast? = some c ∧ c ≠ ']' := by
  have htable : ∀ entry ∈ Proto.scalarTypes, (entry.2.toList.getLast?.any (· ≠ ']')) = true := by
    decide
  have htype := Proto.scalarType_of_table
    (p := fun type => (type.toList.getLast?.any (· ≠ ']')) = true) htable rfl tag
  simpa [Option.any_eq_true] using htype

theorem getLast?_paint (style : Style) (colors : Bool) (text : String)
    (h : text.toList.getLast? = some ')') :
    ∃ c, (style.paint colors text).toList.getLast? = some c ∧ c ≠ ']' := by
  cases colors with
  | false => exact ⟨')', h, by decide⟩
  | true => exact ⟨'m', getLast?_append_text _ rfl, by decide⟩

/-- Only the key has its mark: neither a type nor the end of a colour looks like it. -/
theorem marked_text_iff (line : FieldLine) (tag : String)
    (htype : line.type = Proto.scalarType tag) (colors : Bool) :
    Marked (line.text colors) ↔ line.isKey = true := by
  cases hkey : line.isKey with
  | true =>
      rw [FieldLine.text, hkey, if_pos rfl, Marked, String.toList_append]
      simpa only [iff_true] using List.suffix_append _ _
  | false =>
      rw [FieldLine.text, hkey]
      simp only [Bool.false_eq_true, if_false, iff_false, String.append_empty]
      cases hknown : line.known with
      | true =>
          obtain ⟨c, hlast, hc⟩ := getLast?_scalarType tag
          rw [← htype] at hlast
          simp only [if_true, String.append_empty]
          exact not_marked_of_getLast? (getLast?_append_text _ hlast) hc
      | false =>
          obtain ⟨c, hlast, hc⟩ := getLast?_paint .dimmed colors "(unmapped)" rfl
          simp only [Bool.false_eq_true, if_false]
          rw [← String.append_assoc]
          exact not_marked_of_getLast? (getLast?_append_text _ hlast) hc

/-! ### Lines and fields -/

theorem tells_inspected {model : Model} (h : model.Consistent)
    (hconcrete : model.isAbstract = false) : Tells (inspected model) model where
  fields := by
    rw [inspected, List.map_map]
    rfl
  names := by
    rw [inspected, List.map_map]
    exact h.fields
  shown := by
    have hfront : ∀ front unknown mark : String,
        front.toList <+: (front ++ unknown ++ mark).toList := by simp
    exact fun line _ colors => hfront _ _ _
  key := by
    obtain ⟨field, -, hkey, honly⟩ := Plan.exists_keyField h hconcrete
    refine ⟨.ofField model field, ?_, hkey⟩
    rw [inspected, List.filter_map]
    exact congrArg (List.map (FieldLine.ofField model)) honly
  marked := by
    intro line hline colors
    obtain ⟨field, -, rfl⟩ := List.mem_map.mp hline
    exact marked_text_iff _ field.tag rfl colors

/-- A message selects from the same fields, in the same order, that the lines are made
of. -/
theorem agrees_of_message {model : Model} (h : model.Consistent) {name : String}
    {spec : MessageSpec} {own : Proto.Message} (hown : Plan.message model name spec = .ok own) :
    Agrees (inspected model) model spec own := by
  have hname : Proto.isIdentifier name = true := (Plan.message_eq_ok_iff.mp hown).1
  obtain ⟨fields, hselects, hshows⟩ := (Plan.message_eq_ok_iff_shows h.fields hname).mp hown
  have hnames := (Plan.selects_iff h.fields).mpr hselects
  refine ⟨fields.map (.ofField model), ?_, ?_, ?_, ?_⟩
  · have hsame : List.Forall₂ (· = ·) (fields.map Field.name)
        (Plan.selectedNames model spec.selection) := by
      rw [List.forall₂_map_left_iff]
      exact hnames.flip.imp fun _ _ hfield => hfield.2
    rw [List.forall₂_eq_eq_eq] at hsame
    rw [List.map_map, ← hsame]
    rfl
  · intro line hline
    obtain ⟨field, hfield, rfl⟩ := List.mem_map.mp hline
    obtain ⟨_, -, hin, -⟩ := exists_left_of_mem hnames hfield
    exact List.mem_map_of_mem hin
  · intro hall
    rw [hall] at hselects
    cases hselects
    rfl
  · rw [hshows.typed, List.map_map]
    rfl

/-! ### What is printed -/

theorem modelLines_concrete {model : Model} (h : model.isAbstract = false) (colors verbose : Bool) :
    modelLines colors verbose model =
      modelLine colors model :: (inspected model).map (FieldLine.text colors) := by
  rw [modelLines, fieldLines, h]
  rfl

/-- The lines of a model stand together among those of the applications shown. -/
theorem modelLines_infix {app : App} {model : Model} (hmodel : model ∈ app.models)
    {apps : List App} (happ : app ∈ apps) (colors verbose : Bool) :
    modelLines colors verbose model <:+: apps.flatMap (appLines colors verbose) := by
  have hmodels : modelLines colors verbose model <:+:
      app.models.flatMap (modelLines colors verbose) :=
    List.infix_of_mem_flatten (List.mem_map_of_mem hmodel)
  have hlines : app.models.flatMap (modelLines colors verbose) <:+: appLines colors verbose app :=
    ⟨[_], [""], rfl⟩
  have happs : appLines colors verbose app <:+: apps.flatMap (appLines colors verbose) :=
    List.infix_of_mem_flatten (List.mem_map_of_mem happ)
  exact hmodels.trans (hlines.trans happs)

theorem shownApps_eq_ok {registry : Registry} (hnames : (registry.apps.map App.name).Nodup)
    {app : App} (happ : app ∈ registry.apps) {filter : Option String}
    (hfilter : ∀ name, filter = some name → name = app.name) :
    ∃ apps, shownApps registry filter = .ok apps ∧ app ∈ apps := by
  cases filter with
  | none => exact ⟨registry.apps, rfl, happ⟩
  | some name =>
      have hfound : registry.app? name = some app := by
        rw [hfilter name rfl]
        exact find?_of_nodup hnames happ
      exact ⟨[app], by rw [shownApps, hfound], List.mem_singleton_self app⟩

/-- To inspect a registry prints its lines and leaves every file as it is. -/
theorem runOn_inspect {tree : Tree} {colors verbose : Bool} {arguments : List String}
    {file : String} {format : Option Format} {filter : Option String} {registry : Registry}
    {apps : List App}
    (hread : Request.read arguments = .ok ⟨.inspect file format filter, verbose⟩)
    (hload : (tree.perform (Registry.load file format)).1 = .ok registry)
    (hshown : shownApps registry filter = .ok apps) :
    runOn tree colors arguments =
      ({ stdout := printed (apps.flatMap (appLines colors verbose)) }, tree) := by
  have hrun : runOn tree colors arguments =
      (runInspect colors verbose file format filter : StateM Tree Outcome).run tree := by
    rw [runOn, run, hread]
    rfl
  rw [hrun, runInspect, run_withRegistry, hload]
  simp only [hshown]
  rfl

/-! ### The two views -/

/-- The scope of the application or of one model of it covers the model. -/
theorem mem_inScope_of {registry : Registry} (hconsistent : registry.Consistent) {app : App}
    (happ : app ∈ registry.apps) {model : Model} (hmodel : model ∈ app.concreteModels)
    {scope : Scope} (hscope : scope = ⟨app.name, none⟩ ∨ scope = ⟨app.name, some model.name⟩) :
    model ∈ Plan.inScope registry scope := by
  rcases hscope with rfl | rfl
  · rw [← Plan.eq_inScope (Plan.Covers.whole.resolve hconsistent happ)]
    exact hmodel
  · rw [← Plan.eq_inScope ((Plan.Covers.single hmodel).resolve hconsistent happ)]
    exact List.mem_singleton_self model

/-- Of a registry that was read, each concrete model is shown with one line per field in
the order of declaration, and only the line of the primary key is marked. Where a document
is generated for the model, from whatever sources and overrides, it has one message for
each that the model gives, whose fields bear the types of the lines with their names; the
text is the rendered plan. -/
theorem inspected_as_generated {format : Format} {document : String} {registry : Registry}
    (hparse : Registry.parse format document = .ok registry) {app : App}
    (happ : app ∈ registry.apps) {model : Model} (hmodel : model ∈ app.models)
    (hconcrete : model.isAbstract = false) :
    Tells (inspected model) model ∧
      (∀ tree colors verbose arguments file format filter,
        Request.read arguments = .ok ⟨.inspect file format filter, verbose⟩ →
        (tree.perform (Registry.load file format)).1 = .ok registry →
        (∀ name, filter = some name → name = app.name) →
        ∃ front behind, runOn tree colors arguments =
          ({ stdout := printed (front ++
            (modelLine colors model :: (inspected model).map (FieldLine.text colors)) ++
              behind) }, tree)) ∧
      ∀ scope sources text, scope = ⟨app.name, none⟩ ∨ scope = ⟨app.name, some model.name⟩ →
        generate registry scope sources = .ok text →
        ∃ planned, plan registry scope sources = .ok planned ∧ text = planned.render ∧
          ∀ entry ∈ (Plan.messagesOf sources model).toList,
            ∃ own, (∀ other, other ∈ planned.messages ∧ other.name = entry.1 ↔ other = own) ∧
              Agrees (inspected model) model entry.2 own := by
  have hconsistent := Registry.consistent_of_parse hparse
  have hown : model.Consistent := (hconsistent.apps app happ).models model hmodel
  refine ⟨tells_inspected hown hconcrete, ?printed, ?generated⟩
  case printed =>
    intro tree colors verbose arguments file format filter hread hload hfilter
    obtain ⟨apps, hshown, hin⟩ := shownApps_eq_ok hconsistent.names happ hfilter
    obtain ⟨front, behind, hlines⟩ := modelLines_infix hmodel hin colors verbose
    refine ⟨front, behind, ?_⟩
    rw [runOn_inspect hread hload hshown, ← modelLines_concrete hconcrete colors verbose, hlines]
  case generated =>
    intro scope sources text hscope hgenerate
    have hin := mem_inScope_of hconsistent happ
      (Plan.mem_concreteModels.mpr ⟨hmodel, hconcrete⟩) hscope
    obtain ⟨planned, hplan, rfl⟩ := Plan.generate_eq_ok_iff.mp hgenerate
    refine ⟨planned, hplan, rfl, fun entry hentry => ?_⟩
    obtain ⟨own, hmember, hmessage⟩ := Plan.exists_message hplan hin hentry
    refine ⟨own, fun other => ⟨?_, ?_⟩, agrees_of_message hown hmessage⟩
    · rintro ⟨hother, hname⟩
      exact Plan.eq_of_name_eq hplan hother hmember (hname.trans (Plan.name_message hmessage).symm)
    · rintro rfl
      exact ⟨hmember, Plan.name_message hmessage⟩

theorem load_of_parse {tree : Tree} {file text : String} {format : Format} {registry : Registry}
    (hread : tree.perform (readText file) = (.ok text, tree))
    (hparse : Registry.parse format text = .ok registry) :
    (tree.perform (Registry.load file (some format))).1 = .ok registry := by
  rw [Registry.load, Tree.perform_bind, Tree.perform_adapt, hread]
  simp only [Except.mapError, Option.getD_some, hparse]
  rfl

/-- A model with an unknown tag, whose messages are overridden. -/
def loan : Model where
  name := "Loan"
  key := "number"
  fields := [⟨"number", "BigIntegerField"⟩, ⟨"due", "MoonPhase"⟩]
  messages := some (.ofList [("LoanSlip", .listed ["due", "number"]), ("LoanRecord", .all)])

def lending : Registry := ⟨[⟨"lending", [loan]⟩]⟩

def lendingTree : Tree where
  entries := [(["lending.json"], .file lending.encode.toUTF8)]

theorem inspected_as_generated_lending :
    Registry.parse .json lending.encode = .ok lending ∧
      (∃ front behind,
        runOn lendingTree false ["inspect", "--registry", "lending.json", "--format", "json"] =
          ({ stdout := printed (front ++ ["  • Loan (messages override)",
            "    number BigIntegerField -> int64 [pk]",
            "    due MoonPhase -> string (unmapped)"] ++ behind) }, lendingTree)) ∧
      ∃ planned, plan lending ⟨"lending", none⟩ = .ok planned ∧
        generate lending ⟨"lending", none⟩ = .ok planned.render ∧
        ∃ own ∈ planned.messages, own.name = "LoanSlip" ∧
          own.fields.map (fun field => (field.type, field.name)) =
            [("string", "due"), ("int64", "number")] := by
  have hparse : Registry.parse .json lending.encode = .ok lending := by
    have hcheck : lending.check = .ok () := by decide
    rw [Registry.parse_of_decode lending.decode_encode, Registry.checked_eq_ok_iff]
    exact hcheck
  have hfind : lendingTree.find "lending.json" = .ok ["lending.json"] := rfl
  have hload : (lendingTree.perform (Registry.load "lending.json" (some .json))).1 = .ok lending :=
    load_of_parse (Tree.perform_readText_of_file hfind rfl) hparse
  have happ : (⟨"lending", [loan]⟩ : App) ∈ lending.apps := List.mem_singleton_self _
  have hmodel : loan ∈ [loan] := List.mem_singleton_self _
  obtain ⟨-, hprinted, hgenerated⟩ := inspected_as_generated hparse happ hmodel rfl
  refine ⟨hparse, ?_, ?_⟩
  · have hread : Request.read ["inspect", "--registry", "lending.json", "--format", "json"] =
        .ok ⟨.inspect "lending.json" (some .json) none, false⟩ := by decide +kernel
    have hlines : modelLine false loan :: (inspected loan).map (FieldLine.text false) =
        ["  • Loan (messages override)", "    number BigIntegerField -> int64 [pk]",
          "    due MoonPhase -> string (unmapped)"] := by decide +kernel
    obtain ⟨front, behind, hrun⟩ :=
      hprinted lendingTree false false _ _ _ none hread hload (by simp)
    rw [hlines] at hrun
    exact ⟨front, behind, hrun⟩
  · have hsome : (generate lending ⟨"lending", none⟩).toOption.isSome = true := by decide +kernel
    obtain ⟨text, htext⟩ := Option.isSome_iff_exists.mp hsome
    have hgenerate := eq_ok_of_toOption htext
    obtain ⟨planned, hplan, rfl, hmessages⟩ :=
      hgenerated ⟨"lending", none⟩ {} text (.inl rfl) hgenerate
    obtain ⟨own, honly, hagrees⟩ :=
      hmessages ("LoanSlip", ⟨.listed ["due", "number"], []⟩) (by decide)
    obtain ⟨hmember, hname⟩ := (honly own).mpr rfl
    refine ⟨planned, hplan, hgenerate, own, hmember, hname, ?_⟩
    obtain ⟨taken, hnames, hlines, -, hfields⟩ := hagrees.taken
    obtain ⟨first, others, rfl, hfirst, hothers⟩ := List.map_eq_cons_iff.mp hnames
    obtain ⟨second, others, rfl, hsecond, hothers⟩ := List.map_eq_cons_iff.mp hothers
    obtain rfl := List.map_eq_nil_iff.mp hothers
    have htype : ∀ line ∈ inspected loan, (line.name = "due" → line.type = "string") ∧
        (line.name = "number" → line.type = "int64") := by
      decide
    rw [hfields]
    simp [hfirst, hsecond, (htype first (hlines first (by simp))).1 hfirst,
      (htype second (hlines second (by simp))).2 hsecond]

end Protoscribe.CommandLine
