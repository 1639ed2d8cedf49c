import Protoscribe.Proofs.Registry.Detect
import Protoscribe.Proofs.Yaml.Mirror

/-!
The compact JSON of a registry as a document of either format. If all texts of the
registry are printable and no key of an override is too long for a key of YAML, the two
readers come to the same registry, however the texts are spelled.
-/

namespace Protoscribe

open Decode

/-! ### Texts of a registry -/

def OrderedMap.texts {α : Type} (inside : α → List String) (map : OrderedMap α) : List String :=
  map.toList.flatMap fun entry => entry.1 :: inside entry.2

def MessageRef.texts (ref : MessageRef) : List String := ref.message.toList

def Signature.texts (signature : Signature) : List String :=
  signature.request.texts ++ signature.response.texts

def FieldSelection.texts : FieldSelection → List String
  | .all => []
  | .listed names => names

def Field.texts (field : Field) : List String := [field.name, field.tag]

def Model.texts (model : Model) : List String :=
  [model.name, model.key] ++ model.fields.flatMap Field.texts ++
    model.methods.elim [] (OrderedMap.texts Signature.texts) ++
    model.messages.elim [] (OrderedMap.texts FieldSelection.texts)

def App.texts (app : App) : List String := app.name :: app.models.flatMap Model.texts

def Registry.texts (registry : Registry) : List String := registry.apps.flatMap App.texts

/-- The names of methods and of messages that a model overrides. -/
def Model.overrideKeys (model : Model) : List String :=
  model.methods.elim [] OrderedMap.keys ++ model.messages.elim [] OrderedMap.keys

def Registry.overrideKeys (registry : Registry) : List String :=
  registry.apps.flatMap fun app => app.models.flatMap Model.overrideKeys

/-! ### Printable forms -/

/-- A record is printed if its names can be keys and its values are printed. -/
theorem printed_record {members : List (String × Json)}
    (h : ∀ member ∈ members, Yaml.IsName member.1 ∧ member.2.Printed) :
    (Json.record members).Printed :=
  .record (fun member hmember => (h member hmember).1) fun member hmember => (h member hmember).2

theorem printed_list {α : Type} {write : α → Json} {values : List α}
    (h : ∀ value ∈ values, (write value).Printed) : (Json.array (values.map write)).Printed := by
  refine .array fun item hitem => ?_
  obtain ⟨value, hvalue, rfl⟩ := List.mem_map.mp hitem
  exact h value hvalue

/-- A member that may be left out is printed if it is there. -/
theorem printed_optional {α : Type} {name : String} (hname : Yaml.IsName name) {write : α → Json}
    {value : Option α} (h : ∀ present, value = some present → (write present).Printed) :
    ∀ member ∈ optionalMember name write value, Yaml.IsName member.1 ∧ member.2.Printed := by
  intro member hmember
  cases value with
  | none => cases hmember
  | some present =>
      cases List.mem_singleton.mp hmember
      exact ⟨hname, h present rfl⟩

/-- The labels of all records can be keys. -/
theorem isName_label : ∀ label ∈ ["name", "type", "abstract", "pk", "fields", "grpc_methods",
    "grpc_messages", "use_struct_filter_request", "use_struct_pagination_request", "message",
    "is_stream", "request", "response", "models", "apps"], Yaml.IsName label := by
  decide

/-- The keys of a map are its names, so they are bounded too. -/
theorem OrderedMap.printed {α : Type} {write : α → Json} {inside : α → List String}
    {map : OrderedMap α}
    (hwrite : ∀ value, (∀ text ∈ inside value, Text.AllGraphic text) → (write value).Printed)
    (htexts : ∀ text ∈ map.texts inside, Text.AllGraphic text)
    (hkeys : ∀ key ∈ map.keys, key.length < 500) : (map.toJson write).Printed := by
  rw [OrderedMap.texts, List.forall_mem_flatMap] at htexts
  refine printed_record fun member hmember => ?_
  obtain ⟨entry, hentry, rfl⟩ := List.mem_map.mp hmember
  obtain ⟨hkey, hinside⟩ := List.forall_mem_cons.mp (htexts entry hentry)
  exact ⟨⟨hkey, hkeys entry.1 (List.mem_map_of_mem hentry)⟩, hwrite entry.2 hinside⟩

theorem FieldSelection.printed (selection : FieldSelection)
    (h : ∀ text ∈ selection.texts, Text.AllGraphic text) : selection.toJson.Printed := by
  cases selection with
  | all => exact .text (by decide)
  | listed names => exact printed_list fun name hname => .text (h name hname)

theorem MessageRef.printed {ref : MessageRef} (h : ∀ text ∈ ref.texts, Text.AllGraphic text) :
    ref.toJson.Printed := by
  refine printed_record ?_
  rw [List.forall_mem_append, List.forall_mem_singleton]
  refine ⟨printed_optional (isName_label _ (by simp)) fun message hmessage => ?_,
    isName_label _ (by simp), .boolean ref.streamed⟩
  exact .text (h message (by simp [MessageRef.texts, hmessage]))

theorem Signature.printed (signature : Signature)
    (h : ∀ text ∈ signature.texts, Text.AllGraphic text) : signature.toJson.Printed := by
  obtain ⟨hrequest, hresponse⟩ := List.forall_mem_append.mp h
  refine printed_record ?_
  rw [List.forall_mem_cons, List.forall_mem_singleton]
  exact ⟨⟨isName_label _ (by simp), MessageRef.printed hrequest⟩,
    isName_label _ (by simp), MessageRef.printed hresponse⟩

theorem Field.printed {field : Field} (h : ∀ text ∈ field.texts, Text.AllGraphic text) :
    field.toJson.Printed := by
  rw [Field.texts, List.forall_mem_cons, List.forall_mem_singleton] at h
  refine printed_record ?_
  rw [List.forall_mem_cons, List.forall_mem_singleton]
  exact ⟨⟨isName_label _ (by simp), .text h.1⟩, isName_label _ (by simp), .text h.2⟩

/-- A model is printed if its texts are printable and its override keys can be keys. -/
theorem Model.printed {model : Model} (h : ∀ text ∈ model.texts, Text.AllGraphic text)
    (hkeys : ∀ key ∈ model.overrideKeys, key.length < 500) : model.toJson.Printed := by
  simp only [Model.texts, List.forall_mem_append, List.forall_mem_cons,
    List.forall_mem_flatMap] at h
  obtain ⟨⟨⟨⟨hname, hkey, -⟩, hfields⟩, hmethods⟩, hmessages⟩ := h
  obtain ⟨hmethodKeys, hmessageKeys⟩ := List.forall_mem_append.mp hkeys
  refine printed_record ?_
  simp only [List.forall_mem_append, List.forall_mem_cons]
  refine ⟨⟨⟨⟨⟨isName_label _ (by simp), .text hname⟩, ⟨isName_label _ (by simp), .boolean _⟩,
    ⟨isName_label _ (by simp), .text hkey⟩, ⟨isName_label _ (by simp), ?fields⟩, by simp⟩,
    ?methods⟩, ?messages⟩, ⟨isName_label _ (by simp), .boolean _⟩,
    ⟨isName_label _ (by simp), .boolean _⟩, by simp⟩
  case fields => exact printed_list fun field hfield => Field.printed (hfields field hfield)
  case methods =>
    refine printed_optional (isName_label _ (by simp)) fun methods hsome => ?_
    rw [hsome] at hmethods hmethodKeys
    exact OrderedMap.printed Signature.printed hmethods hmethodKeys
  case messages =>
    refine printed_optional (isName_label _ (by simp)) fun messages hsome => ?_
    rw [hsome] at hmessages hmessageKeys
    exact OrderedMap.printed FieldSelection.printed hmessages hmessageKeys

/-- An application is printed as soon as its texts and those of its models are. -/
theorem App.printed {app : App} (h : ∀ text ∈ app.texts, Text.AllGraphic text)
    (hkeys : ∀ key ∈ app.models.flatMap Model.overrideKeys, key.length < 500) :
    app.toJson.Printed := by
  obtain ⟨hname, hmodels⟩ := List.forall_mem_cons.mp h
  rw [List.forall_mem_flatMap] at hmodels hkeys
  refine printed_record ?_
  rw [List.forall_mem_cons, List.forall_mem_singleton]
  exact ⟨⟨isName_label _ (by simp), .text hname⟩, isName_label _ (by simp),
    printed_list fun model hmodel => Model.printed (hmodels model hmodel) (hkeys model hmodel)⟩

/-! ### Both readers -/

namespace Registry

/-- The reader of the other format gives the registry back from its compact JSON. -/
theorem yaml_decode_encode {registry : Registry}
    (htexts : ∀ text ∈ registry.texts, Text.AllGraphic text)
    (hkeys : ∀ key ∈ registry.overrideKeys, key.length < 500) :
    Yaml.decode decode registry.encode = .ok registry := by
  rw [texts, List.forall_mem_flatMap] at htexts
  rw [overrideKeys, List.forall_mem_flatMap] at hkeys
  have happs : ∀ member ∈ [("apps", Json.array (registry.apps.map App.toJson))],
      Yaml.IsName member.1 ∧ member.2.Printed := by
    rw [List.forall_mem_singleton]
    exact ⟨isName_label _ (by simp),
      printed_list fun app happ => App.printed (htexts app happ) (hkeys app happ)⟩
  have hread : Yaml.Document.read? registry.encode =
      some (.ofRoot (Yaml.nodeOf registry.toJson)) :=
    Yaml.read?_compact (fun member hmember => (happs member hmember).1)
      fun member hmember => (happs member hmember).2
  have hvalue : decode (Yaml.Cursor.root (.ofRoot (Yaml.nodeOf registry.toJson))) =
      (pure registry : Yaml.Reading Registry) :=
    decode_undoes Yaml.mirrors_shows ⟨rfl, Registry.worded 120 registry⟩
  refine Yaml.decode_eq_ok_iff.mpr ⟨_, hread, ?_⟩
  rw [hvalue]
  rfl

/-- From the compact JSON of a registry both formats give the registry itself: absent
overrides and empty ones, the wildcard, all orders, and every printable text as it is
spelled. So both accept it if its check passes, and else refuse it with the violation. -/
theorem formats_agree {registry : Registry}
    (htexts : ∀ text ∈ registry.texts, Text.AllGraphic text)
    (hkeys : ∀ key ∈ registry.overrideKeys, key.length < 500) :
    parse .yaml registry.encode = parse .json registry.encode ∧
      ∀ format : Format, format.decode decode registry.encode = .ok registry ∧
        (parse format registry.encode = .ok registry ↔ registry.check = .ok ()) ∧
        ∀ error, parse format registry.encode = .error error ↔
          ∃ violation, registry.check = .error violation ∧ error = .parse violation.message := by
  have hdecode : ∀ format : Format, format.decode decode registry.encode = .ok registry := by
    intro format
    cases format with
    | json => exact registry.decode_encode
    | yaml =>
        rw [Format.decode, yaml_decode_encode htexts hkeys]
        rfl
  have hparse : ∀ format : Format, parse format registry.encode = registry.checked :=
    fun format => parse_of_decode (hdecode format)
  refine ⟨(hparse .yaml).trans (hparse .json).symm, fun format => ?_⟩
  rw [hparse format]
  exact ⟨hdecode format, checked_eq_ok_iff, fun _ => checked_eq_error_iff⟩

/-- A model whose texts are spelled like other values, with one empty override. -/
def lookalike : Model where
  name := "true"
  key := "~"
  fields := [⟨"~", "5"⟩, ⟨"null", "\"\\"⟩, ⟨"", " # "⟩]
  methods := some .empty
  messages := some (.ofList [("yes", .all), ("- 0x1f: [", .listed ["*", "null", ""])])

/-- Texts that look like numbers, nulls and marks stay texts, and a violation is
reported alike. -/
theorem formats_agree_lookalike :
    parse .yaml (encode ⟨[⟨"1e3", [lookalike]⟩]⟩) = .ok ⟨[⟨"1e3", [lookalike]⟩]⟩ ∧
      parse .yaml (encode ⟨[strained]⟩) =
        .error (.parse "Duplicate field 'made' on model 'shop.Item'") := by
  have htexts : ∀ text ∈ texts ⟨[⟨"1e3", [lookalike]⟩]⟩, Text.AllGraphic text := by decide
  have hstrained : ∀ text ∈ texts ⟨[strained]⟩, Text.AllGraphic text := by decide
  obtain ⟨-, hboth⟩ := formats_agree htexts (by decide)
  obtain ⟨-, hrefused⟩ := formats_agree hstrained (by decide)
  obtain ⟨-, hok, -⟩ := hboth .yaml
  obtain ⟨-, -, herror⟩ := hrefused .yaml
  refine ⟨hok.mpr (by decide), (herror _).mpr ?_⟩
  exact ⟨.repeatedField "made" "shop" "Item", by decide, by decide⟩

end Registry

end Protoscribe
