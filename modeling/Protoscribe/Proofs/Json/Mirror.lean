import Protoscribe.Json.Source
import Protoscribe.Proofs.Decode.Mirror
import Protoscribe.Proofs.Json.Reading
import Protoscribe.Proofs.Matching

/-!
JSON documents stand for their values. A value that holds only texts and truth
values and for which enough levels are left offers a reader exactly its own
form.
-/

namespace Protoscribe.Json

open Decode

/-- The cursor is at this value, and its levels may all be opened. -/
structure Cursor.Shows (cursor : Cursor) (value : Json) : Prop where
  value_eq : cursor.value = value
  worded : value.Worded cursor.levels

/-- Texts and truth values are always looked into with success, as far as they nest. -/
theorem Worded.readable {levels : Nat} {value : Json} (h : value.Worded levels) :
    readable levels value = true := by
  induction h with
  | boolean value => rfl
  | text value => rfl
  | @array levels items _ ih =>
      have hitems : readableItems levels items = true := by
        clear * - ih
        induction items with
        | nil => rfl
        | cons item items step =>
            obtain ⟨hitem, hitems⟩ := List.forall_mem_cons.mp ih
            rw [readableItems, hitem, step hitems]
            rfl
      rw [Json.readable, Nat.add_sub_cancel, hitems]
      simp
  | @record levels members _ ih =>
      have hmembers : readableMembers levels
          (members.map fun member => (some member.1, member.2)) = true := by
        clear * - ih
        induction members with
        | nil => rfl
        | cons member members step =>
            obtain ⟨hmember, hmembers⟩ := List.forall_mem_cons.mp ih
            rw [List.map_cons, readableMembers, hmember, step hmembers]
            rfl
      rw [Json.record, Json.readable, Nat.add_sub_cancel, hmembers]
      simp

theorem Cursor.Shows.items {cursor : Cursor} {items : List Json} (h : cursor.Shows (.array items)) :
    List.Forall₂ Cursor.Shows (items.map cursor.part) items := by
  obtain ⟨value, levels⟩ := cursor
  obtain ⟨-, hworded⟩ := h
  cases hworded with
  | array hitems =>
      rw [List.forall₂_map_left_iff, List.forall₂_same]
      exact fun item hitem => ⟨rfl, hitems item hitem⟩

theorem record_injective : Function.Injective Json.record := by
  intro members others h
  refine List.map_injective_iff.mpr ?_ (Json.object.inj h)
  rintro ⟨name, value⟩ ⟨other, found⟩ hsame
  cases hsame
  rfl

theorem Cursor.Shows.members {cursor : Cursor} {members : List (String × Json)}
    (h : cursor.Shows (.record members)) :
    List.Forall₂ (ShowsMember Cursor.Shows)
      ((members.map fun member => (some member.1, member.2)).map cursor.entry) members := by
  obtain ⟨value, levels⟩ := cursor
  obtain ⟨-, hworded⟩ := h
  generalize hrecord : Json.record members = record at hworded
  cases hworded with
  | boolean => cases hrecord
  | text => cases hrecord
  | array => cases hrecord
  | record hmembers =>
      cases record_injective hrecord
      rw [List.map_map, List.forall₂_map_left_iff, List.forall₂_same]
      exact fun member hmember => ⟨fun _ => rfl, rfl, hmembers member hmember⟩

theorem mapM_text? (names : List String) : (names.map Json.text).mapM text? = some names :=
  mapM_map_eq_some fun _ _ => rfl

theorem selection_eq {cursor : Cursor} {value : Json} (h : cursor.Shows value) :
    (Source.selection cursor : Reading SelectionForm) = .ok (selectionForm value) := by
  obtain ⟨found, levels⟩ := cursor
  obtain ⟨rfl, hworded⟩ := h
  exact if_pos hworded.readable

/-- A cursor gives the forms of the JSON value that it is at. -/
theorem mirrors_shows : Mirrors Cursor.Shows where
  annotate _ _ := rfl
  text := by
    rintro ⟨value, levels⟩ text ⟨rfl, -⟩
    rfl
  boolean := by
    rintro ⟨value, levels⟩ flag ⟨rfl, -⟩
    rfl
  present := by
    rintro ⟨found, levels⟩ value ⟨rfl, hworded⟩
    cases hworded <;> rfl
  items := by
    rintro ⟨value, levels⟩ items h
    obtain rfl : value = .array items := h.value_eq
    exact ⟨_, rfl, h.items⟩
  entries := by
    rintro ⟨value, levels⟩ members h
    obtain rfl : value = .record members := h.value_eq
    exact ⟨_, rfl, h.members⟩
  record := by
    rintro ⟨value, levels⟩ members name h
    obtain rfl : value = .record members := h.value_eq
    exact ⟨_, rfl, h.members⟩
  wildcard h := selection_eq h
  names := by
    intro cursor names h
    rw [selection_eq h, selectionForm, mapM_text?]
    rfl

end Protoscribe.Json
