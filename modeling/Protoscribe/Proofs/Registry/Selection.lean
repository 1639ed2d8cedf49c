import Protoscribe.Proofs.Registry.RoundTrip

/-!
What is read of a field selection. The wildcard and the lists of texts are the only JSON
values that give one, each the one that is written as this value. Any other text is
quoted in the fault, and any other value matches neither form. A selection is looked at
as a whole before its form is known, so a value that the reader cannot look into is
malformed instead: a number out of range, a text that is none, or too many levels.
-/

namespace Protoscribe

namespace Json

/-! ### Values that can be looked at -/

/-- Every text in the value is one, every number is in range, and lists and objects nest
no deeper than this many levels. -/
inductive Meaningful : Nat → Json → Prop
  | null {levels : Nat} : Meaningful levels .null
  | boolean {levels : Nat} (value : Bool) : Meaningful levels (.boolean value)
  | number {levels : Nat} {literal : Number} {value : Number.Value} :
      literal.value? = some value → Meaningful levels (.number literal)
  | text {levels : Nat} (value : String) : Meaningful levels (.text value)
  | array {levels : Nat} {items : List Json} :
      (∀ item ∈ items, Meaningful levels item) → Meaningful (levels + 1) (.array items)
  | object {levels : Nat} {members : List (Text × Json)} :
      (∀ member ∈ members, member.1.isSome = true) →
      (∀ member ∈ members, Meaningful levels member.2) → Meaningful (levels + 1) (.object members)

theorem readableItems_iff {levels : Nat} {items : List Json} :
    readableItems levels items = true ↔ ∀ item ∈ items, readable levels item = true := by
  induction items with
  | nil => simp [readableItems]
  | cons item items ih => rw [readableItems, Bool.and_eq_true, ih, List.forall_mem_cons]

theorem readableMembers_iff {levels : Nat} {members : List (Text × Json)} :
    readableMembers levels members = true ↔
      ∀ member ∈ members, member.1.isSome = true ∧ readable levels member.2 = true := by
  induction members with
  | nil => simp [readableMembers]
  | cons member members ih =>
      rw [readableMembers, Bool.and_eq_true, Bool.and_eq_true, ih, List.forall_mem_cons]

theorem readable_of_meaningful {levels : Nat} {value : Json} (h : value.Meaningful levels) :
    readable levels value = true := by
  induction h with
  | null => rfl
  | boolean value => rfl
  | number hvalue =>
      rw [readable, hvalue]
      rfl
  | text value => rfl
  | array _ ih =>
      rw [readable, Nat.add_sub_cancel, readableItems_iff.mpr ih]
      simp
  | object hnames _ ih =>
      rw [readable, Nat.add_sub_cancel,
        readableMembers_iff.mpr fun member hmember => ⟨hnames member hmember, ih member hmember⟩]
      simp

theorem meaningful_of_readable (value : Json) : ∀ {levels : Nat},
    readable levels value = true → value.Meaningful levels := by
  refine Json.rec
    (motive_1 := fun value => ∀ {levels : Nat}, readable levels value = true →
      value.Meaningful levels)
    (motive_2 := fun items => ∀ item ∈ items, ∀ {levels : Nat}, readable levels item = true →
      item.Meaningful levels)
    (motive_3 := fun members => ∀ member ∈ members, ∀ {levels : Nat},
      readable levels member.2 = true → member.2.Meaningful levels)
    (motive_4 := fun member => ∀ {levels : Nat}, readable levels member.2 = true →
      member.2.Meaningful levels)
    ?null ?boolean ?number ?string ?array ?object ?noItem ?item ?noMember ?member ?pair value
  case null => exact fun _ => .null
  case boolean => exact fun value _ _ => .boolean value
  case number =>
    intro literal levels h
    obtain ⟨value, hvalue⟩ := Option.isSome_iff_exists.mp h
    exact .number hvalue
  case string =>
    intro text levels h
    obtain ⟨text, rfl⟩ := Option.isSome_iff_exists.mp h
    exact .text text
  case array =>
    intro items ih levels h
    rw [readable, Bool.and_eq_true, decide_eq_true_eq, readableItems_iff] at h
    obtain ⟨levels, rfl⟩ := Nat.exists_eq_add_of_le' h.1
    exact .array fun item hitem => ih item hitem (h.2 item hitem)
  case object =>
    intro members ih levels h
    rw [readable, Bool.and_eq_true, decide_eq_true_eq, readableMembers_iff] at h
    obtain ⟨levels, rfl⟩ := Nat.exists_eq_add_of_le' h.1
    exact .object (fun member hmember => (h.2 member hmember).1)
      fun member hmember => ih member hmember (h.2 member hmember).2
  case noItem => simp
  case item => exact fun item items hitem hitems => List.forall_mem_cons.mpr ⟨hitem, hitems⟩
  case noMember => simp
  case member =>
    exact fun member members hmember hmembers => List.forall_mem_cons.mpr ⟨hmember, hmembers⟩
  case pair => exact fun name value h => h

/-- A value is read as a whole exactly if it means something and nests no deeper than
allowed. -/
theorem readable_iff_meaningful {levels : Nat} {value : Json} :
    readable levels value = true ↔ value.Meaningful levels :=
  ⟨meaningful_of_readable value, readable_of_meaningful⟩

/-! ### Forms of a selection -/

theorem text?_eq_some_iff {value : Json} {text : String} :
    text? value = some text ↔ value = .text text := by
  cases value <;> simp [text?, Json.text]

/-- Items are texts exactly if the list is one of texts. -/
theorem mapM_text?_eq_some_iff {items : List Json} {names : List String} :
    items.mapM text? = some names ↔ items = names.map Json.text := by
  constructor
  · intro h
    induction items generalizing names with
    | nil =>
        cases h
        rfl
    | cons item items ih =>
        rw [List.mapM_cons] at h
        obtain ⟨name, hname, h⟩ := Option.bind_eq_some_iff.mp h
        obtain ⟨others, hothers, h⟩ := Option.bind_eq_some_iff.mp h
        cases h
        rw [text?_eq_some_iff.mp hname, ih hothers, List.map_cons]
  · rintro rfl
    exact mapM_text? names

/-- Only a text has the form of a text. -/
theorem selectionForm_eq_text_iff {value : Json} {text : String} :
    value.selectionForm = .text text ↔ value = .text text := by
  cases value with
  | string found => cases found <;> simp [selectionForm, Json.text]
  | array items => cases hnames : items.mapM text? <;> simp [selectionForm, hnames, Json.text]
  | null | boolean | number | object => simp [selectionForm, Json.text]

/-- Only a list of texts has the form of names. -/
theorem selectionForm_eq_names_iff {value : Json} {names : List String} :
    value.selectionForm = .names names ↔ value = .array (names.map Json.text) := by
  cases value with
  | string found => cases found <;> simp [selectionForm]
  | array items =>
      rw [Json.array.injEq, ← mapM_text?_eq_some_iff]
      cases hnames : items.mapM text? <;> simp [selectionForm, hnames]
  | null | boolean | number | object => simp [selectionForm]

end Json

namespace FieldSelection

/-! ### What is read -/

open Decode

def ofForm : SelectionForm → Json.Reading FieldSelection
  | .text text => if text = "*" then .ok .all else .error { cause := .strangeSelection text }
  | .names names => .ok (.listed names)
  | .other => .error { cause := .noSelection }

theorem ofForm_eq_all_iff {form : SelectionForm} : ofForm form = .ok .all ↔ form = .text "*" := by
  cases form with
  | text text => by_cases htext : text = "*" <;> simp [ofForm, htext]
  | names | other => simp [ofForm]

theorem ofForm_eq_listed_iff {form : SelectionForm} {names : List String} :
    ofForm form = .ok (.listed names) ↔ form = .names names := by
  cases form with
  | text text => by_cases htext : text = "*" <;> simp [ofForm, htext]
  | names | other => simp [ofForm]

variable {value : Json} {levels : Nat}

/-- What is read as a whole is told by its form alone. -/
theorem decode_of_meaningful (h : value.Meaningful levels) :
    decode (⟨value, levels⟩ : Json.Cursor) = ofForm value.selectionForm := by
  have hselection :
      (Source.selection (⟨value, levels⟩ : Json.Cursor) : Json.Reading SelectionForm) =
        .ok value.selectionForm := if_pos (Json.readable_iff_meaningful.mpr h)
  rw [decode, hselection]
  generalize value.selectionForm = form
  cases form with
  | text text =>
      by_cases htext : text = "*"
      · subst htext
        rfl
      · rw [ofForm, if_neg htext]
        simp only [bind, Except.bind]
        rfl
  | names | other => rfl

/-- What is not read as a whole is malformed, whatever its form. -/
theorem decode_of_not_meaningful (h : ¬ value.Meaningful levels) :
    decode (⟨value, levels⟩ : Json.Cursor) = .error { cause := .malformed } := by
  have hselection :
      (Source.selection (⟨value, levels⟩ : Json.Cursor) : Json.Reading SelectionForm) =
        .error { cause := .malformed } :=
    if_neg fun hreadable => h (Json.readable_iff_meaningful.mp hreadable)
  rw [decode, hselection]
  rfl

/-- A selection that is written out nests one level. -/
theorem meaningful_toJson (levels : Nat) (selection : FieldSelection) :
    selection.toJson.Meaningful (levels + 1) :=
  Json.readable_iff_meaningful.mp (selection.worded levels).readable

/-- Where a list may still be opened, a selection is read exactly from what is written of it. -/
theorem decode_eq_ok_iff {selection : FieldSelection} :
    decode (⟨value, levels + 1⟩ : Json.Cursor) = .ok selection ↔ value = selection.toJson := by
  by_cases hmeaningful : value.Meaningful (levels + 1)
  · rw [decode_of_meaningful hmeaningful]
    cases selection with
    | all => exact ofForm_eq_all_iff.trans Json.selectionForm_eq_text_iff
    | listed names => exact ofForm_eq_listed_iff.trans Json.selectionForm_eq_names_iff
  · rw [decode_of_not_meaningful hmeaningful]
    constructor
    · intro h
      cases h
    · rintro rfl
      exact absurd (meaningful_toJson levels selection) hmeaningful

/-- What the reader of a whole document makes of its value. -/
theorem json_decode_eq {document : String} (h : Json.read? document = some value) :
    Json.decode decode document =
      (decode (⟨value, 127⟩ : Json.Cursor)).mapError Json.fault :=
  Json.decode_of_read? decode h

/-- A JSON value gives the wildcard exactly if it is the text of one star, and a list of
names exactly if it is the array of these texts; what was read is written as the value
that it came from. Any other text is quoted in the fault. Of all other values, those that
can be looked at match no form, and those that cannot are malformed. -/
theorem decode_grammar {document : String} (hvalue : Json.read? document = some value) :
    (Json.decode decode document = .ok .all ↔ value = .text "*") ∧
      (∀ names : List String, Json.decode decode document = .ok (.listed names) ↔
        value = .array (names.map Json.text)) ∧
      (∀ selection, Json.decode decode document = .ok selection → selection.toJson = value) ∧
      (∀ text, value = .text text → text ≠ "*" → Json.decode decode document =
        .error (.mistyped
          ("message fields must be \"*\" or a list of field names, got \"" ++ text ++ "\""))) ∧
      (value.Meaningful 127 → (∀ text, value ≠ .text text) →
        (∀ names : List String, value ≠ .array (names.map Json.text)) →
        Json.decode decode document = .error (.mistyped
          "data did not match any variant of untagged enum RawMessageFields")) ∧
      (¬ value.Meaningful 127 → Json.decode decode document = .error .malformed) := by
  have hok : ∀ selection, Json.decode decode document = .ok selection ↔
      value = selection.toJson := by
    intro selection
    rw [json_decode_eq hvalue, ← @decode_eq_ok_iff value 126 selection]
    exact Decode.mapError_eq_ok_iff
  refine ⟨hok .all, fun names => hok (.listed names), ?_, ?_, ?_, ?_⟩
  · exact fun selection h => ((hok selection).mp h).symm
  · rintro text rfl htext
    rw [json_decode_eq hvalue, decode_of_meaningful (.text text),
      Json.selectionForm_eq_text_iff.mpr rfl, ofForm, if_neg htext]
    rfl
  · intro hmeaningful htext hnames
    rw [json_decode_eq hvalue, decode_of_meaningful hmeaningful]
    cases hform : value.selectionForm with
    | text text => exact absurd (Json.selectionForm_eq_text_iff.mp hform) (htext text)
    | names names => exact absurd (Json.selectionForm_eq_names_iff.mp hform) (hnames names)
    | other => rfl
  · intro hmeaningful
    rw [json_decode_eq hvalue, decode_of_not_meaningful hmeaningful]
    rfl

/-- A list of texts is a selection, and one with a truth value is not. -/
theorem decode_grammar_mixed :
    Json.read? (Json.array [.text "title", .text "*"]).compact =
        some (.array [.text "title", .text "*"]) ∧
      Json.decode decode (Json.array [.text "title", .text "*"]).compact =
        .ok (.listed ["title", "*"]) ∧
      Json.read? (Json.array [.text "title", .boolean true]).compact =
        some (.array [.text "title", .boolean true]) ∧
      Json.decode decode (Json.array [.text "title", .boolean true]).compact =
        .error (.mistyped "data did not match any variant of untagged enum RawMessageFields") := by
  have htexts : (Json.array [.text "title", .text "*"]).Worded 127 :=
    .array (by simp [Json.Worded.text])
  have hmixed : (Json.array [.text "title", .boolean true]).Worded 127 :=
    .array (by simp [Json.Worded.text, Json.Worded.boolean])
  obtain ⟨-, hlisted, -, -, -, -⟩ := decode_grammar htexts.read?_compact
  obtain ⟨-, -, -, -, hother, -⟩ := decode_grammar hmixed.read?_compact
  refine ⟨htexts.read?_compact, (hlisted ["title", "*"]).mpr rfl, hmixed.read?_compact,
    hother (Json.readable_iff_meaningful.mp hmixed.readable) ?_ ?_⟩
  · intro text hsame
    cases hsame
  · intro names hsame
    have hform := Json.selectionForm_eq_names_iff.mpr hsame
    cases hform

/-- An empty list in as many lists, each the only item of the one around it. -/
def nested : Nat → Json
  | 0 => .array []
  | depth + 1 => .array [nested depth]

/-- Nested lists open one level each. -/
theorem nested_worded (depth : Nat) : (nested depth).Worded (depth + 1) := by
  induction depth with
  | zero => exact .array (by simp)
  | succ depth ih => exact .array (by simpa using ih)

/-- Lists that nest too deep are never read as a whole. -/
theorem depth_lt_of_meaningful {depth levels : Nat} (h : (nested depth).Meaningful levels) :
    depth < levels := by
  induction depth generalizing levels with
  | zero =>
      cases h
      omega
  | succ depth ih =>
      cases h with
      | array hitems =>
          have hdepth := ih (hitems _ List.mem_cons_self)
          omega

/-- A list that holds no text and nests 128 levels deep matches no form either, but the
reader stops before it gets to know that. -/
theorem deep_list_malformed :
    Json.read? (nested 127).compact = some (nested 127) ∧
      (∀ text, nested 127 ≠ .text text) ∧
      (∀ names : List String, nested 127 ≠ .array (names.map Json.text)) ∧
      Json.decode decode (nested 127).compact = .error .malformed ∧
      Json.decode decode (nested 127).compact ≠ .error (.mistyped
        "data did not match any variant of untagged enum RawMessageFields") := by
  have hread : Json.read? (nested 127).compact = some (nested 127) :=
    (nested_worded 127).read?_compact
  have hdeep : ¬ (nested 127).Meaningful 127 :=
    fun h => absurd (depth_lt_of_meaningful h) (by omega)
  have hmalformed : Json.decode decode (nested 127).compact = .error .malformed := by
    rw [json_decode_eq hread, decode_of_not_meaningful hdeep]
    rfl
  refine ⟨hread, ?_, ?_, hmalformed, ?_⟩
  · intro text hsame
    cases hsame
  · intro names hsame
    have hform : (nested 127).selectionForm = .names names :=
      Json.selectionForm_eq_names_iff.mpr hsame
    cases hform
  · rw [hmalformed]
    simp

end FieldSelection

end Protoscribe
