import Protoscribe.Proofs.Json.Mirror
import Protoscribe.Proofs.Yaml.Compact
import Protoscribe.Yaml.Source

/-!
Documents of YAML that stand for JSON values. In the tree of a value no alias is met and
no tag asks for anything: what is quoted is a text, however it is spelled, and a truth
value is the one plain word that stands for it.
-/

namespace Protoscribe.Yaml

open Decode

/-- The cursor is at the tree of this value, and its levels may all be opened. -/
structure Cursor.Shows (cursor : Cursor) (value : Json) : Prop where
  node_eq : cursor.node = nodeOf value
  worded : value.Worded cursor.levels

theorem itemNodes_eq (items : List Json) :
    (itemNodes items : List (Node Nat)) = items.map nodeOf := by
  induction items with
  | nil => rw [itemNodes, List.map_nil]
  | cons item items ih => rw [itemNodes, ih, List.map_cons]

theorem memberNodes_eq (members : List (String × Json)) :
    (memberNodes (membersOf members) : List (Node Nat × Node Nat)) =
      members.map fun member => (.scalar none none member.1 .quoted, nodeOf member.2) := by
  induction members with
  | nil => rw [membersOf_nil, memberNodes, List.map_nil]
  | cons member members ih => rw [membersOf_cons, memberNodes, ih, List.map_cons, Option.getD_some]

theorem Cursor.Shows.text {cursor : Cursor} {value : String} (h : cursor.Shows (.text value)) :
    cursor.node = .scalar none none value .quoted := by
  rw [h.node_eq, Json.text, nodeOf, Option.getD_some]

theorem Cursor.Shows.boolean {cursor : Cursor} {value : Bool} (h : cursor.Shows (.boolean value)) :
    cursor.node = .scalar none none (if value then "true" else "false") .plain := by
  rw [h.node_eq]
  cases value <;> rw [nodeOf] <;> rfl

/-- A list is there with its items, and a level is left for them. -/
theorem Cursor.Shows.list {cursor : Cursor} {items : List Json} (h : cursor.Shows (.array items)) :
    cursor.node = .list none none (items.map nodeOf) ∧ cursor.levels ≠ 0 ∧
      List.Forall₂ Cursor.Shows ((items.map nodeOf).map cursor.part) items := by
  obtain ⟨document, node, levels⟩ := cursor
  obtain ⟨rfl, hworded⟩ := h
  cases hworded with
  | array hitems =>
      refine ⟨by rw [nodeOf, itemNodes_eq], Nat.succ_ne_zero _, ?_⟩
      rw [List.map_map, List.forall₂_map_left_iff, List.forall₂_same]
      exact fun item hitem => ⟨rfl, hitems item hitem⟩

/-- A mapping is there with its pairs, and a level is left for them. -/
theorem Cursor.Shows.mapping {cursor : Cursor} {members : List (String × Json)}
    (h : cursor.Shows (.record members)) :
    ∃ pairs, cursor.node = .mapping none none pairs ∧ cursor.levels ≠ 0 ∧
      List.Forall₂ (ShowsMember Cursor.Shows) (pairs.map cursor.entry) members := by
  obtain ⟨document, node, levels⟩ := cursor
  obtain ⟨rfl, hworded⟩ := h
  generalize hrecord : Json.record members = record at hworded
  cases hworded with
  | boolean => cases hrecord
  | text => cases hrecord
  | array => cases hrecord
  | record hmembers =>
      cases Json.record_injective hrecord
      refine ⟨_, by rw [record_eq, nodeOf, memberNodes_eq], Nat.succ_ne_zero _, ?_⟩
      rw [List.map_map, List.forall₂_map_left_iff, List.forall₂_same]
      exact fun member hmember => ⟨fun _ => rfl, rfl, hmembers member hmember⟩

/-! ### Looking at what is there -/

/-- What is quoted is looked at as its text, with or without levels that are left. -/
theorem look_text (document : Document) (levels : Nat) (value : String) :
    look document levels (nodeOf (.text value)) = pure (.text value) := by
  rw [Json.text, nodeOf, Option.getD_some]
  cases levels <;> rfl

theorem lookItems_texts (document : Document) (levels : Nat) (values : List String)
    (position : Nat) :
    lookItems (look document levels) position ((values.map Json.text).map nodeOf) =
      pure (values.map SelectionForm.text) := by
  induction values generalizing position with
  | nil => rfl
  | cons value values ih =>
      rw [List.map_cons, List.map_cons, lookItems, look_text, ih]
      rfl

theorem namesOf_texts (values : List String) :
    namesOf (values.map SelectionForm.text) = .names values := by
  rw [namesOf, mapM_map_eq_some]
  exact fun _ _ => rfl

theorem look_texts (document : Document) (levels : Nat) (values : List String) :
    look document (levels + 1) (.list none none ((values.map Json.text).map nodeOf)) =
      pure (.names values) := by
  have hlook : lookAt document (some (look document levels))
      (.list none none ((values.map Json.text).map nodeOf)) = pure (.names values) := by
    change (lookItems (look document levels) 0 ((values.map Json.text).map nodeOf) >>= fun forms =>
      pure (namesOf forms)) = _
    rw [lookItems_texts, pure_bind, namesOf_texts]
  funext count
  rw [look, hlook]
  rfl

theorem mirrors_shows : Mirrors Cursor.Shows where
  annotate _ _ := rfl
  text := by
    rintro ⟨document, node, levels⟩ value hshows
    cases hshows.text
    rfl
  boolean := by
    rintro ⟨document, node, levels⟩ value hshows
    cases hshows.boolean
    cases value <;> rfl
  present := by
    rintro ⟨document, node, levels⟩ value hshows
    cases hshows.worded with
    | boolean value =>
        cases hshows.boolean
        cases value <;> rfl
    | text value =>
        cases hshows.text
        rfl
    | array =>
        cases hshows.list.1
        rfl
    | record =>
        obtain ⟨pairs, hnode, -⟩ := hshows.mapping
        cases hnode
        rfl
  items := by
    rintro ⟨document, node, levels⟩ values hshows
    obtain ⟨hnode, hlevels, hparts⟩ := hshows.list
    obtain ⟨levels, rfl⟩ := Nat.exists_eq_succ_of_ne_zero hlevels
    cases hnode
    exact ⟨_, rfl, hparts⟩
  entries := by
    rintro ⟨document, node, levels⟩ members hshows
    obtain ⟨pairs, hnode, hlevels, hparts⟩ := hshows.mapping
    obtain ⟨levels, rfl⟩ := Nat.exists_eq_succ_of_ne_zero hlevels
    cases hnode
    exact ⟨_, rfl, hparts⟩
  record := by
    rintro ⟨document, node, levels⟩ members name hshows
    obtain ⟨pairs, hnode, hlevels, hparts⟩ := hshows.mapping
    obtain ⟨levels, rfl⟩ := Nat.exists_eq_succ_of_ne_zero hlevels
    cases hnode
    exact ⟨_, rfl, hparts⟩
  wildcard := by
    rintro ⟨document, node, levels⟩ value hshows
    cases hshows.node_eq
    exact look_text document levels value
  names := by
    rintro ⟨document, node, levels⟩ values hshows
    obtain ⟨hnode, hlevels, -⟩ := hshows.list
    obtain ⟨levels, rfl⟩ := Nat.exists_eq_succ_of_ne_zero hlevels
    cases hnode
    exact look_texts document levels values

end Protoscribe.Yaml
