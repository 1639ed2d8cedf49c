import Mathlib.Data.List.Forall2
import Protoscribe.Decode.Record
import Protoscribe.Json.Basic

/-!
Documents that stand for JSON values. Where every form that a source offers is
the one of a JSON value, options, lists, maps and records read from it give what
was written, and it does not matter which format the source is for. A record is
read into a table that holds what its members say.
-/

namespace Protoscribe.Decode

/-- A field that a record gives, what it holds, and the form in which it is written. -/
structure Given {κ : Type} (Value : κ → Type) where
  field : κ
  value : Value field
  written : Json

def Shape.write {κ : Type} {Value : κ → Type} (shape : Shape κ) (given : List (Given Value)) :
    Json :=
  .record (given.map fun one => (shape.label one.field, one.written))

/-- A field that is given only where there is something to write. -/
def givenIf {κ α : Type} {Value : κ → Type} (field : κ) (hold : α → Value field)
    (write : α → Json) : Option α → List (Given Value)
  | none => []
  | some value => [⟨field, hold value, write value⟩]

theorem forall_mem_givenIf {κ α : Type} {Value : κ → Type} {field : κ} {hold : α → Value field}
    {write : α → Json} {value : Option α} {P : Given Value → Prop} :
    (∀ one ∈ givenIf field hold write value, P one) ↔
      ∀ present, value = some present → P ⟨field, hold present, write present⟩ := by
  cases value with
  | none => simp [givenIf]
  | some present => simp [givenIf]

/-- A table that holds what is given, and at other fields what another table holds. -/
structure Table.Extends {κ : Type} {Value : κ → Type} (final start : Table Value)
    (given : List (Given Value)) : Prop where
  holds : ∀ one ∈ given, final one.field = some one.value
  keeps : ∀ field, field ∉ given.map Given.field → final field = start field

section

variable {ν : Type} {m : Type → Type} [Monad m] [Source ν m]

/-- The entry has the name and the value of a member. -/
structure ShowsMember (Shows : ν → Json → Prop) (entry : Entry ν m) (member : String × Json) :
    Prop where
  name : ∀ wanted, entry.name wanted = pure member.1
  value : Shows entry.value member.2

/-- The values of a source stand for JSON values: each form that a reader asks
for is the one of the JSON value, and its parts stand for the parts. -/
structure Mirrors (Shows : ν → Json → Prop) : Prop where
  annotate : ∀ {α : Type} (change : Failure → Failure) (value : α),
    Source.annotate ν change (pure value : m α) = pure value
  text : ∀ {cursor : ν} {value : String},
    Shows cursor (.text value) → Source.text cursor = (pure value : m String)
  boolean : ∀ {cursor : ν} {value : Bool},
    Shows cursor (.boolean value) → Source.boolean cursor = (pure value : m Bool)
  present : ∀ {cursor : ν} {value : Json},
    Shows cursor value → Source.optional cursor = (pure (some cursor) : m (Option ν))
  items : ∀ {cursor : ν} {values : List Json}, Shows cursor (.array values) →
    ∃ parts, Source.items cursor = (pure parts : m (List ν)) ∧ List.Forall₂ Shows parts values
  entries : ∀ {cursor : ν} {members : List (String × Json)}, Shows cursor (.record members) →
    ∃ parts, Source.entries cursor = (pure parts : m (List (Entry ν m))) ∧
      List.Forall₂ (ShowsMember Shows) parts members
  record : ∀ {cursor : ν} {members : List (String × Json)} (name : String),
    Shows cursor (.record members) →
    ∃ parts, Source.record name cursor = (pure (.named parts) : m (RecordForm ν m)) ∧
      List.Forall₂ (ShowsMember Shows) parts members
  wildcard : ∀ {cursor : ν} {value : String},
    Shows cursor (.text value) → Source.selection cursor = (pure (.text value) : m SelectionForm)
  names : ∀ {cursor : ν} {values : List String}, Shows cursor (.array (values.map Json.text)) →
    Source.selection cursor = (pure (.names values) : m SelectionForm)

/-- The reader gives back every value from what stands for its JSON form. -/
def Undoes {α : Type} (Shows : ν → Json → Prop) (read : ν → m α) (write : α → Json) : Prop :=
  ∀ {cursor : ν} {value : α}, Shows cursor (write value) → read cursor = pure value

variable {Shows : ν → Json → Prop} {α : Type} {read : ν → m α} {write : α → Json}

theorem Mirrors.here_pure (h : Mirrors (m := m) Shows) (value : α) :
    here ν (pure value : m α) = pure value :=
  h.annotate Failure.locate value

theorem Mirrors.here_eq (h : Mirrors (m := m) Shows) {found value : α} (hsame : found = value) :
    here ν (pure found : m α) = pure value :=
  hsame ▸ h.here_pure found

theorem Mirrors.inside_pure (h : Mirrors (m := m) Shows) (step : Step) (value : α) :
    inside ν step (pure value : m α) = pure value :=
  h.annotate (Failure.under step) value

/-! ### Options, lists and maps -/

variable [LawfulMonad m]

theorem Mirrors.readOptional_present (h : Mirrors (m := m) Shows) (hread : Undoes Shows read write)
    {cursor : ν} {value : α} (hshows : Shows cursor (write value)) :
    readOptional read cursor = pure (some value) := by
  rw [readOptional, h.present hshows, pure_bind]
  simp only [hread hshows, pure_bind]

theorem Mirrors.readItemsFrom_eq (h : Mirrors (m := m) Shows) (hread : Undoes Shows read write)
    {parts : List ν} {values : List α}
    (hparts : List.Forall₂ Shows parts (values.map write)) (position : Nat) :
    readItemsFrom read position parts = pure values := by
  induction values generalizing parts position with
  | nil =>
      cases hparts
      rfl
  | cons value values ih =>
      obtain ⟨part, rest, hpart, hrest, rfl⟩ := List.forall₂_cons_right_iff.mp hparts
      rw [readItemsFrom, hread hpart, h.inside_pure, pure_bind, ih hrest, pure_bind]

/-- A list comes back as soon as its items do. -/
theorem Mirrors.readList_undoes (h : Mirrors (m := m) Shows) (hread : Undoes Shows read write) :
    Undoes Shows (readList read) fun values => .array (values.map write) := by
  intro cursor values hshows
  obtain ⟨parts, hitems, hparts⟩ := h.items hshows
  rw [readList, hitems, pure_bind, h.readItemsFrom_eq hread hparts, h.here_pure]

/-- Entries come back as the pairs that were written, in their order. -/
theorem Mirrors.readEntries_eq (h : Mirrors (m := m) Shows) (hread : Undoes Shows read write)
    {parts : List (Entry ν m)} {pairs : List (String × α)}
    (hparts : List.Forall₂ (ShowsMember Shows) parts
      (pairs.map fun pair => (pair.1, write pair.2))) :
    readEntries read parts = pure pairs := by
  induction pairs generalizing parts with
  | nil =>
      cases hparts
      rfl
  | cons pair pairs ih =>
      obtain ⟨part, rest, hpart, hrest, rfl⟩ := List.forall₂_cons_right_iff.mp hparts
      rw [readEntries, hpart.name, pure_bind, hread hpart.value, h.inside_pure, pure_bind, ih hrest,
        pure_bind]

/-! ### Records -/

variable {κ : Type} [DecidableEq κ] {Value : κ → Type}

/-- Members fill the fields that they were written for; each was given at most once and
none was there before. -/
theorem Mirrors.readNamed_eq (h : Mirrors (m := m) Shows) {shape : Shape κ}
    (hlabel : ∀ field, shape.field? (shape.label field) = some field)
    {readKey : (field : κ) → ν → m (Value field)} {given : List (Given Value)}
    (hread : ∀ one ∈ given, ∀ cursor, Shows cursor one.written →
      readKey one.field cursor = pure one.value)
    (hnodup : (given.map Given.field).Nodup) {parts : List (Entry ν m)}
    (hparts : List.Forall₂ (ShowsMember Shows) parts
      (given.map fun one => (shape.label one.field, one.written)))
    {start : Table Value} (hstart : ∀ one ∈ given, start one.field = none) :
    ∃ final, readNamed shape readKey parts start = pure final ∧ final.Extends start given := by
  induction given generalizing parts start with
  | nil =>
      cases hparts
      exact ⟨start, rfl, by simp, by simp⟩
  | cons one given ih =>
      obtain ⟨part, rest, hpart, hrest, rfl⟩ := List.forall₂_cons_right_iff.mp hparts
      obtain ⟨hone, hread⟩ := List.forall_mem_cons.mp hread
      obtain ⟨hfree, hstart⟩ := List.forall_mem_cons.mp hstart
      obtain ⟨hnew, hnodup⟩ := List.nodup_cons.mp hnodup
      have hne : ∀ other ∈ given, one.field ≠ other.field :=
        fun other hother e => hnew (e ▸ List.mem_map_of_mem hother)
      have hfree' : ∀ other ∈ given, start.set one.field one.value other.field = none :=
        fun other hin => (Table.set_ne start one.value (hne other hin)).trans (hstart other hin)
      obtain ⟨final, hfinal, hgiven, hother⟩ := ih hread hnodup hrest hfree'
      refine ⟨final, ?_, ?_, ?_⟩
      · rw [readNamed, hpart.name, pure_bind]
        simp only [hlabel, hfree, Option.isSome_none, Bool.false_eq_true, if_false]
        rw [hone _ hpart.value, h.inside_pure, pure_bind, hfinal]
      · rw [List.forall_mem_cons]
        exact ⟨(hother _ hnew).trans (Table.set_self start one.field one.value), hgiven⟩
      · intro field hfield
        rw [List.map_cons, List.mem_cons, not_or] at hfield
        exact (hother field hfield.2).trans (Table.set_ne start one.value (Ne.symm hfield.1))

/-- A record is read into the table of what it gives. -/
theorem Mirrors.shape_read_eq (h : Mirrors (m := m) Shows) {shape : Shape κ}
    (hlabel : ∀ field, shape.field? (shape.label field) = some field)
    {readKey : (field : κ) → ν → m (Value field)} {given : List (Given Value)}
    (hread : ∀ one ∈ given, ∀ cursor, Shows cursor one.written →
      readKey one.field cursor = pure one.value)
    (hnodup : (given.map Given.field).Nodup) {cursor : ν}
    (hshows : Shows cursor (shape.write given)) :
    ∃ table, shape.read readKey cursor = pure ⟨table, none⟩ ∧ table.Extends .empty given := by
  obtain ⟨parts, hrecord, hparts⟩ := h.record shape.name hshows
  have hempty : ∀ one ∈ given, (Table.empty : Table Value) one.field = none := fun _ _ => rfl
  obtain ⟨table, htable, hextends⟩ := h.readNamed_eq hlabel hread hnodup hparts hempty
  refine ⟨table, ?_, hextends⟩
  rw [Shape.read, hrecord, pure_bind]
  simp only [htable, pure_bind]

end

/-! ### Fields of what was read -/

namespace Reading

variable {κ : Type} {Value : κ → Type} {table : Table Value} {field : κ}

theorem require_bind {ν β : Type} {m : Type → Type} [Monad m] [LawfulMonad m] [Source ν m]
    {value : Value field} (h : table field = some value) (length : Option Nat) (shape : Shape κ)
    (next : Value field → m β) :
    (⟨table, length⟩ : Reading Value).require ν shape field >>= next = next value := by
  simp only [require, h, pure_bind]

theorem getD_eq {value : Value field} (h : table field = some value) (length : Option Nat)
    (default : Value field) : (⟨table, length⟩ : Reading Value).getD field default = value := by
  simp only [getD, h, Option.getD_some]

theorem getD_optional {α : Type} {hold : α → Value field} {value : Option α}
    (hsome : ∀ present, value = some present → table field = some (hold present))
    (hnone : value = none → table field = none) (length : Option Nat) (default : Value field) :
    (⟨table, length⟩ : Reading Value).getD field default = (value.map hold).getD default := by
  cases value with
  | none => simp only [getD, hnone rfl, Option.map_none]
  | some present => rw [getD_eq (hsome present rfl), Option.map_some, Option.getD_some]

end Reading

end Protoscribe.Decode
