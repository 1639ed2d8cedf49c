import Mathlib.Data.List.Nodup
import Protoscribe.Json.Source
import Protoscribe.Proofs.FirstFault
import Protoscribe.Registry.Decode

/-!
Which JSON values are read to a given record. Of the members of an object only the values
under the name of each field count, of which there may be one; an array gives the fields
one by one. What presents a record is told here without the table that reading fills, and
reading succeeds with the parts of a record exactly on what presents them.
-/

namespace Protoscribe.Json

open Decode

/-! ### Lists and maps -/

section

variable {α : Type}

theorem here_eq_ok_iff {reading : Reading α} {value : α} :
    here Cursor reading = .ok value ↔ reading = .ok value := by
  cases reading with
  | error failure =>
      constructor <;> intro h <;> cases h
  | ok found => exact Iff.rfl

theorem inside_eq_ok_iff {step : Step} {reading : Reading α} {value : α} :
    inside Cursor step reading = .ok value ↔ reading = .ok value := by
  cases reading with
  | error failure =>
      constructor <;> intro h <;> cases h
  | ok found => exact Iff.rfl

theorem whole_eq_ok_iff {text : Text} {value : String} :
    whole text = .ok value ↔ text = some value := by
  cases text <;> simp [whole]

theorem readItemsFrom_eq_ok_iff {read : Cursor → Reading α} {position : Nat} {items : List Cursor}
    {values : List α} :
    readItemsFrom read position items = .ok values ↔
      List.Forall₂ (fun item value => read item = .ok value) items values := by
  induction items generalizing position values with
  | nil =>
      rw [List.forall₂_nil_left_iff]
      exact ⟨fun h => (Except.ok.inj h).symm, fun h => congrArg Except.ok h.symm⟩
  | cons item rest ih =>
      rw [readItemsFrom, bind_eq_ok_iff, List.forall₂_cons_left_iff]
      constructor
      · rintro ⟨first, hfirst, h⟩
        obtain ⟨others, hothers, h⟩ := bind_eq_ok_iff.mp h
        exact ⟨first, others, inside_eq_ok_iff.mp hfirst, ih.mp hothers, (Except.ok.inj h).symm⟩
      · rintro ⟨first, others, hfirst, hothers, rfl⟩
        exact ⟨first, inside_eq_ok_iff.mpr hfirst, bind_eq_ok_iff.mpr ⟨others, ih.mpr hothers, rfl⟩⟩

theorem readEntries_eq_ok_iff {read : Cursor → Reading α} {cursor : Cursor}
    {members : List (Text × Json)} {pairs : List (String × α)} :
    readEntries read (members.map cursor.entry) = .ok pairs ↔
      List.Forall₂ (fun one pair => one.1 = some pair.1 ∧ read (cursor.part one.2) = .ok pair.2)
        members pairs := by
  induction members generalizing pairs with
  | nil =>
      rw [List.forall₂_nil_left_iff]
      exact ⟨fun h => (Except.ok.inj h).symm, fun h => congrArg Except.ok h.symm⟩
  | cons one rest ih =>
      obtain ⟨key, value⟩ := one
      rw [List.map_cons, readEntries, bind_eq_ok_iff, List.forall₂_cons_left_iff]
      constructor
      · rintro ⟨name, hname, h⟩
        obtain ⟨first, hfirst, h⟩ := bind_eq_ok_iff.mp h
        obtain ⟨others, hothers, h⟩ := bind_eq_ok_iff.mp h
        exact ⟨(name, first), others, ⟨whole_eq_ok_iff.mp hname, inside_eq_ok_iff.mp hfirst⟩,
          ih.mp hothers, (Except.ok.inj h).symm⟩
      · rintro ⟨⟨name, first⟩, others, ⟨hname, hfirst⟩, hothers, rfl⟩
        refine ⟨name, whole_eq_ok_iff.mpr hname, ?_⟩
        refine bind_eq_ok_iff.mpr ⟨first, inside_eq_ok_iff.mpr hfirst, ?_⟩
        exact bind_eq_ok_iff.mpr ⟨others, ih.mpr hothers, rfl⟩

end

/-! ### Records -/

def member {κ : Type} (shape : Shape κ) (field : κ) (value : Json) : Text × Json :=
  (some (shape.label field), value)

def valuesOf {κ : Type} (shape : Shape κ) (members : List (Text × Json)) (field : κ) : List Json :=
  (members.filter (·.1 = some (shape.label field))).map Prod.snd

section

variable {κ : Type} {shape : Shape κ}

theorem label_injective (hlabel : ∀ field, shape.field? (shape.label field) = some field) :
    Function.Injective shape.label := by
  intro field other h
  have hfield := hlabel field
  rw [h, hlabel other] at hfield
  exact (Option.some.inj hfield).symm

theorem mem_fields (hlabel : ∀ field, shape.field? (shape.label field) = some field) (field : κ) :
    field ∈ shape.fields :=
  List.mem_of_find?_eq_some (hlabel field)

theorem label_of_field? {name : String} {field : κ} (h : shape.field? name = some field) :
    shape.label field = name := by
  have hfound := List.find?_some h
  simpa using hfound

theorem valuesOf_cons_self (field : κ) (value : Json) (members : List (Text × Json)) :
    valuesOf shape (member shape field value :: members) field =
      value :: valuesOf shape members field := by
  simp [valuesOf, member]

theorem valuesOf_cons_ne {name : Text} {field : κ} (h : name ≠ some (shape.label field))
    (value : Json) (members : List (Text × Json)) :
    valuesOf shape ((name, value) :: members) field = valuesOf shape members field := by
  simp [valuesOf, h]

theorem valuesOf_perm {members others : List (Text × Json)} (h : members.Perm others) (field : κ) :
    (valuesOf shape members field).Perm (valuesOf shape others field) :=
  (h.filter _).map Prod.snd

variable {Value : κ → Type} {read : (field : κ) → Cursor → Reading (Value field)}
variable {default? : (field : κ) → Option (Value field)} {part : (field : κ) → Value field}
variable {levels : Nat} {start : Table Value} {members : List (Text × Json)}

/-- How a field comes to its part: it has it already, or it is given once, or it is left
out and the part is its default. -/
inductive Filled (read : (field : κ) → Cursor → Reading (Value field))
    (default? : (field : κ) → Option (Value field)) (levels : Nat)
    (part : (field : κ) → Value field) (field : κ) : Option (Value field) → List Json → Prop where
  | held : Filled read default? levels part field (some (part field)) []
  | given {value : Json} (h : read field ⟨value, levels - 1⟩ = .ok (part field)) :
      Filled read default? levels part field none [value]
  | absent (h : default? field = some (part field)) :
      Filled read default? levels part field none []

/-- At most one value stands under a name, so the order of the members does not
matter. -/
theorem Filled.perm {field : κ} {held : Option (Value field)} {values others : List Json}
    (h : Filled read default? levels part field held values) (hperm : values.Perm others) :
    Filled read default? levels part field held others := by
  cases h with
  | held =>
      rw [List.perm_nil.mp hperm.symm]
      exact .held
  | given h =>
      rw [List.perm_singleton.mp hperm.symm]
      exact .given h
  | absent h =>
      rw [List.perm_nil.mp hperm.symm]
      exact .absent h

theorem filled_some_iff {field : κ} {held : Value field} {values : List Json} :
    Filled read default? levels part field (some held) values ↔
      held = part field ∧ values = [] := by
  constructor
  · intro h
    cases h
    exact ⟨rfl, rfl⟩
  · rintro ⟨rfl, rfl⟩
    exact .held

theorem filled_nil_iff {field : κ} {held : Option (Value field)} :
    Filled read default? levels part field held [] ↔
      held.or (default? field) = some (part field) := by
  cases held with
  | none =>
      rw [Option.none_or]
      refine ⟨fun h => ?_, .absent⟩
      cases h with
      | absent h => exact h
  | some held => simp [filled_some_iff]

theorem filled_cons_iff {field : κ} {held : Option (Value field)} {value : Json}
    {values : List Json} :
    Filled read default? levels part field held (value :: values) ↔
      held = none ∧ read field ⟨value, levels - 1⟩ = .ok (part field) ∧
        Filled read default? levels part field (some (part field)) values := by
  constructor
  · intro h
    cases h with
    | given h => exact ⟨rfl, h, .held⟩
  · rintro ⟨rfl, h, hvalues⟩
    cases hvalues
    exact .given h

/-- Every member has a name, and they fill what the table leaves open. -/
structure Fills (shape : Shape κ) (read : (field : κ) → Cursor → Reading (Value field))
    (default? : (field : κ) → Option (Value field)) (levels : Nat)
    (part : (field : κ) → Value field) (start : Table Value) (members : List (Text × Json)) :
    Prop where
  names : ∀ one ∈ members, one.1.isSome = true
  fields : ∀ field, Filled read default? levels part field (start field)
    (valuesOf shape members field)

namespace Fills

theorem perm {others : List (Text × Json)}
    (h : Fills shape read default? levels part start members) (hperm : members.Perm others) :
    Fills shape read default? levels part start others where
  names one hone := h.names one (hperm.mem_iff.mpr hone)
  fields field := (h.fields field).perm (valuesOf_perm hperm field)

theorem cons_unknown_iff (hlabel : ∀ field, shape.field? (shape.label field) = some field)
    {name : String} (hname : shape.field? name = none) {value : Json} :
    Fills shape read default? levels part start ((some name, value) :: members) ↔
      Fills shape read default? levels part start members := by
  have hvalues : ∀ field, valuesOf shape ((some name, value) :: members) field =
      valuesOf shape members field := by
    intro field
    refine valuesOf_cons_ne (fun hsame => ?_) value members
    rw [Option.some.inj hsame, hlabel field] at hname
    cases hname
  constructor
  · rintro ⟨hnames, hfields⟩
    exact ⟨(List.forall_mem_cons.mp hnames).2, fun field => hvalues field ▸ hfields field⟩
  · rintro ⟨hnames, hfields⟩
    refine ⟨List.forall_mem_cons.mpr ⟨rfl, hnames⟩, fun field => ?_⟩
    rw [hvalues]
    exact hfields field

variable [DecidableEq κ]

/-- A member of a field goes to its place, which must be open. -/
theorem cons_member_iff (hlabel : ∀ field, shape.field? (shape.label field) = some field)
    {field : κ} {value : Json} :
    Fills shape read default? levels part start (member shape field value :: members) ↔
      start field = none ∧ read field ⟨value, levels - 1⟩ = .ok (part field) ∧
        Fills shape read default? levels part (start.set field (part field)) members := by
  have hother : ∀ other, field ≠ other →
      (start.set field (part field) other = start other ∧
        valuesOf shape (member shape field value :: members) other =
          valuesOf shape members other) := by
    refine fun other hne => ⟨Table.set_ne _ _ hne, valuesOf_cons_ne (fun hsame => hne ?_) _ _⟩
    exact label_injective hlabel (Option.some.inj hsame)
  constructor
  · rintro ⟨hnames, hfields⟩
    have hfield := hfields field
    rw [valuesOf_cons_self, filled_cons_iff] at hfield
    obtain ⟨hopen, hread, hfield⟩ := hfield
    refine ⟨hopen, hread, (List.forall_mem_cons.mp hnames).2, fun other => ?_⟩
    by_cases hne : field = other
    · subst hne
      rwa [Table.set_self]
    · obtain ⟨hset, hvalues⟩ := hother other hne
      rw [hset, ← hvalues]
      exact hfields other
  · rintro ⟨hopen, hread, hnames, hfields⟩
    refine ⟨List.forall_mem_cons.mpr ⟨rfl, hnames⟩, fun other => ?_⟩
    by_cases hne : field = other
    · subst hne
      rw [valuesOf_cons_self, filled_cons_iff, ← Table.set_self start field (part field)]
      exact ⟨hopen, hread, hfields field⟩
    · obtain ⟨hset, hvalues⟩ := hother other hne
      rw [hvalues, ← hset]
      exact hfields other

end Fills

/-- The value presents a record with these parts. -/
inductive Presents (shape : Shape κ) (read : (field : κ) → Cursor → Reading (Value field))
    (default? : (field : κ) → Option (Value field)) (levels : Nat)
    (part : (field : κ) → Value field) : Json → Prop where
  | named {members : List (Text × Json)}
      (h : Fills shape read default? levels part .empty members) :
      Presents shape read default? levels part (.object members)
  | listed {items : List Json} {given rest : List κ} (hfields : shape.fields = given ++ rest)
      (hgiven : List.Forall₂
        (fun field item => read field ⟨item, levels - 1⟩ = .ok (part field)) given items)
      (hrest : ∀ field ∈ rest, default? field = some (part field)) :
      Presents shape read default? levels part (.array items)

/-! ### Reading a record -/

/-- The part that a field holds after reading, at its default where it was left out. -/
def filled (default? : (field : κ) → Option (Value field)) (reading : Decode.Reading Value)
    (field : κ) : Option (Value field) :=
  (reading.table field).or (default? field)

theorem getD_eq_iff {reading : Decode.Reading Value} {field : κ} {fallback value : Value field}
    (hdefault : default? field = some fallback) :
    reading.getD field fallback = value ↔ filled default? reading field = some value := by
  rw [filled, hdefault]
  cases h : reading.table field <;> simp [Decode.Reading.getD, h]

theorem require_eq_ok_iff {reading : Decode.Reading Value} {field : κ} {value : Value field}
    (hdefault : default? field = none) :
    reading.require Cursor shape field = .ok value ↔
      filled default? reading field = some value := by
  rw [Decode.Reading.require, filled, hdefault, Option.or_none]
  split
  case h_1 held length hheld =>
      rw [hheld, Option.some.injEq]
      exact ⟨Except.ok.inj, congrArg Except.ok⟩
  case h_2 habsent hlength =>
      rw [habsent]
      exact ⟨fun h => (nomatch h), fun h => (nomatch h)⟩
  case h_3 length habsent hlength =>
      rw [habsent]
      exact ⟨fun h => (nomatch h), fun h => (nomatch h)⟩

variable [DecidableEq κ] {cursor : Cursor}

theorem readNamed_unknown {name : String} (hname : shape.field? name = none) {value : Json} :
    readNamed shape read (((some name, value) :: members).map cursor.entry) start =
      readNamed shape read (members.map cursor.entry) start := by
  have hword : (cursor.entry (some name, value)).name .fieldName = .ok name := rfl
  rw [List.map_cons, readNamed, hword]
  simp only [bind, Except.bind, hname]

theorem readNamed_known_eq_ok_iff {name : String} {field : κ}
    (hname : shape.field? name = some field) {value : Json} {final : Table Value} :
    readNamed shape read (((some name, value) :: members).map cursor.entry) start = .ok final ↔
      start field = none ∧ ∃ held, read field (cursor.part value) = .ok held ∧
        readNamed shape read (members.map cursor.entry) (start.set field held) = .ok final := by
  rw [List.map_cons, readNamed, bind_eq_ok_iff]
  constructor
  · rintro ⟨_, hword, h⟩
    cases hword
    rw [hname] at h
    cases hstart : start field with
    | some held =>
        simp only [hstart] at h
        cases h
    | none =>
        simp only [hstart] at h
        obtain ⟨held, hheld, h⟩ := bind_eq_ok_iff.mp h
        exact ⟨rfl, held, inside_eq_ok_iff.mp hheld, h⟩
  · rintro ⟨hstart, held, hheld, h⟩
    refine ⟨name, rfl, ?_⟩
    simp only [hname, hstart]
    exact bind_eq_ok_iff.mpr ⟨held, inside_eq_ok_iff.mpr hheld, h⟩

/-- Reading members into a table succeeds with these parts exactly if the members fill it. -/
theorem readNamed_iff (cursor : Cursor)
    (hlabel : ∀ field, shape.field? (shape.label field) = some field) :
    (∃ final, readNamed shape read (members.map cursor.entry) start = .ok final ∧
        ∀ field, (final field).or (default? field) = some (part field)) ↔
      Fills shape read default? cursor.levels part start members := by
  induction members generalizing start with
  | nil =>
      constructor
      · rintro ⟨final, hfinal, hparts⟩
        cases hfinal
        refine ⟨fun _ hone => absurd hone List.not_mem_nil, fun field => ?_⟩
        exact filled_nil_iff.mpr (hparts field)
      · rintro ⟨-, hfields⟩
        exact ⟨start, rfl, fun field => filled_nil_iff.mp (hfields field)⟩
  | cons one rest ih =>
      obtain ⟨name, value⟩ := one
      cases name with
      | none =>
          constructor
          · rintro ⟨final, hfinal, -⟩
            cases hfinal
          · rintro ⟨hnames, -⟩
            cases hnames _ List.mem_cons_self
      | some name =>
          cases hname : shape.field? name with
          | none => rw [readNamed_unknown hname, ih, Fills.cons_unknown_iff hlabel hname]
          | some field =>
              simp only [readNamed_known_eq_ok_iff hname]
              obtain rfl := label_of_field? hname
              rw [← member, Fills.cons_member_iff hlabel, ← ih]
              constructor
              · rintro ⟨final, ⟨hstart, held, hheld, hfinal⟩, hparts⟩
                -- What was read here is still in the table at the end, so it is the part.
                have hfield := (ih.mp ⟨final, hfinal, hparts⟩).fields field
                rw [Table.set_self, filled_some_iff] at hfield
                obtain ⟨rfl, -⟩ := hfield
                exact ⟨hstart, hheld, final, hfinal, hparts⟩
              · rintro ⟨hstart, hheld, final, hfinal, hparts⟩
                exact ⟨final, ⟨hstart, part field, hheld, hfinal⟩, hparts⟩

/-- Items are for the first fields; what they leave keeps its value or takes its default. -/
theorem readListed_iff (cursor : Cursor) {fields : List κ} (hnodup : fields.Nodup)
    {items : List Json} :
    (∃ final, readListed read fields (items.map cursor.part) start = .ok final ∧
        ∀ field, (final field).or (default? field) = some (part field)) ↔
      ∃ given rest, fields = given ++ rest ∧
        List.Forall₂
          (fun field item => read field (cursor.part item) = .ok (part field)) given items ∧
        ∀ field ∉ given, (start field).or (default? field) = some (part field) := by
  induction items generalizing fields start with
  | nil =>
      constructor
      · rintro ⟨final, hfinal, hparts⟩
        cases fields <;> cases hfinal <;> exact ⟨[], _, rfl, .nil, fun field _ => hparts field⟩
      · rintro ⟨given, rest, rfl, hgiven, hparts⟩
        cases hgiven
        refine ⟨start, ?_, fun field => hparts field List.not_mem_nil⟩
        cases rest <;> rfl
  | cons item items ih =>
      cases fields with
      | nil =>
          constructor
          · rintro ⟨final, hfinal, -⟩
            cases hfinal
          · rintro ⟨given, rest, hfields, hgiven, -⟩
            obtain ⟨rfl, rfl⟩ := List.nil_eq_append_iff.mp hfields
            cases hgiven
      | cons field fields =>
          obtain ⟨hnew, hnodup⟩ := List.nodup_cons.mp hnodup
          constructor
          · rintro ⟨final, hfinal, hparts⟩
            obtain ⟨held, hheld, hfinal⟩ := bind_eq_ok_iff.mp hfinal
            obtain ⟨given, rest, rfl, hgiven, hopen⟩ := (ih hnodup).mp ⟨final, hfinal, hparts⟩
            -- No later item is for this field, so what was read here is its part.
            have hfield := hopen field fun hmem => hnew (List.mem_append_left rest hmem)
            rw [Table.set_self, Option.some_or] at hfield
            obtain rfl := Option.some.inj hfield
            refine ⟨field :: given, rest, rfl, .cons hheld hgiven, fun other hother => ?_⟩
            rw [List.mem_cons, not_or] at hother
            rw [← hopen other hother.2, Table.set_ne _ _ (Ne.symm hother.1)]
          · rintro ⟨_, rest, hfields, hgiven, hopen⟩
            obtain ⟨first, given, hheld, hbehind, rfl⟩ := List.forall₂_cons_right_iff.mp hgiven
            obtain ⟨rfl, rfl⟩ := List.cons.inj hfields
            have hset : ∀ other ∉ given,
                (start.set field (part field) other).or (default? other) = some (part other) := by
              intro other hother
              by_cases hne : field = other
              · subst hne
                rw [Table.set_self, Option.some_or]
              · rw [Table.set_ne _ _ hne]
                exact hopen other (by simp [Ne.symm hne, hother])
            obtain ⟨final, hfinal, hparts⟩ := (ih hnodup).mpr ⟨given, rest, rfl, hbehind, hset⟩
            exact ⟨final, bind_eq_ok_iff.mpr ⟨part field, hheld, hfinal⟩, hparts⟩

/-- A record is read to these parts exactly from what presents them. -/
theorem read_iff_presents (hlabel : ∀ field, shape.field? (shape.label field) = some field)
    (hnodup : shape.fields.Nodup) {value : Json} :
    (∃ reading, shape.read read (⟨value, levels⟩ : Cursor) = .ok reading ∧
        ∀ field, filled default? reading field = some (part field)) ↔
      Presents shape read default? levels part value := by
  constructor
  · rintro ⟨reading, hreading, hparts⟩
    obtain ⟨form, hform, hreading⟩ := bind_eq_ok_iff.mp hreading
    cases value with
    | object members =>
        cases hform
        obtain ⟨final, hfinal, hreading⟩ := bind_eq_ok_iff.mp hreading
        cases hreading
        exact .named ((readNamed_iff _ hlabel).mp ⟨final, hfinal, hparts⟩)
    | array items =>
        cases hform
        obtain ⟨final, hfinal, hreading⟩ := bind_eq_ok_iff.mp hreading
        cases hreading
        obtain ⟨given, rest, hfields, hgiven, hopen⟩ :=
          (readListed_iff _ hnodup).mp ⟨final, hfinal, hparts⟩
        rw [hfields] at hnodup
        exact .listed hfields hgiven fun field hfield =>
          hopen field fun hmem => List.disjoint_of_nodup_append hnodup hmem hfield
    | null => cases hform
    | boolean => cases hform
    | number => cases hform
    | string => cases hform
  · intro h
    cases h with
    | @named members h =>
        obtain ⟨final, hfinal, hparts⟩ := (readNamed_iff ⟨.object members, levels⟩ hlabel).mpr h
        refine ⟨⟨final, none⟩, ?_, hparts⟩
        exact bind_eq_ok_iff.mpr ⟨_, rfl, bind_eq_ok_iff.mpr ⟨final, hfinal, rfl⟩⟩
    | @listed items given rest hfields hgiven hrest =>
        have hopen : ∀ field ∉ given,
            ((Table.empty : Table Value) field).or (default? field) = some (part field) := by
          intro field hfield
          have hmem := mem_fields hlabel field
          rw [hfields, List.mem_append] at hmem
          exact hrest field (hmem.resolve_left hfield)
        obtain ⟨final, hfinal, hparts⟩ := (readListed_iff ⟨.array items, levels⟩ hnodup).mpr
          ⟨given, rest, hfields, hgiven, hopen⟩
        refine ⟨⟨final, some items.length⟩, ?_, hparts⟩
        refine bind_eq_ok_iff.mpr ⟨_, rfl, bind_eq_ok_iff.mpr ⟨final, hfinal, ?_⟩⟩
        rw [List.length_map]
        rfl

/-- A reader that builds a value from its parts, of which the value is read from exactly
what presents its parts. -/
theorem here_read_eq_ok_iff {α : Type} {build : Decode.Reading Value → Reading α} {result : α}
    (hlabel : ∀ field, shape.field? (shape.label field) = some field)
    (hnodup : shape.fields.Nodup)
    (hbuild : ∀ reading, build reading = .ok result ↔
      ∀ field, filled default? reading field = some (part field)) {value : Json} :
    here Cursor (shape.read read (⟨value, levels⟩ : Cursor) >>= build) = .ok result ↔
      Presents shape read default? levels part value := by
  rw [here_eq_ok_iff, bind_eq_ok_iff, ← read_iff_presents hlabel hnodup]
  exact exists_congr fun reading => and_congr_right fun _ => hbuild reading

end

end Protoscribe.Json
