import Mathlib.Data.List.Basic
import Mathlib.Data.List.Induction
import Mathlib.Data.List.Nodup
import Protoscribe.OrderedMap

/-!
What a list of writes leaves behind. The keys stand in the order in which they
were first written, and each key holds what was last written to it. A map that
collects the writes shows exactly this, so every law about merging maps comes
down to a law about appending lists of writes.
-/

namespace Protoscribe

variable {α β : Type}

/-- The keys of some writes, each in the place of its first write. -/
def firstKeys (writes : List (String × α)) : List String :=
  (writes.map Prod.fst).eraseDups

def lastValue? (writes : List (String × α)) (key : String) : Option α :=
  writes.reverse.lookup key

/-- The pairs that some writes leave behind. -/
def spread (writes : List (String × α)) : List (String × α) :=
  (firstKeys writes).filterMap fun key => (lastValue? writes key).map fun value => (key, value)

/-! ### First occurrences -/

theorem eraseDups_concat [BEq β] [LawfulBEq β] (items : List β) (item : β) :
    (items ++ [item]).eraseDups =
      if item ∈ items then items.eraseDups else items.eraseDups ++ [item] := by
  rw [List.eraseDups_append]
  by_cases h : item ∈ items
  · simp [List.removeAll, h]
  · simp [List.removeAll, h, List.eraseDups_cons]

theorem eraseDups_of_nodup {names : List String} (h : names.Nodup) :
    names.eraseDups = names := by
  induction names using List.reverseRecOn with
  | nil => rfl
  | append_singleton names name ih =>
      obtain ⟨hnames, -, hne⟩ := List.nodup_append.mp h
      have hnew : name ∉ names := fun hold => hne name hold name (by simp) rfl
      rw [eraseDups_concat, if_neg hnew, ih hnames]

theorem eraseDups_append_eraseDups (first second : List String) :
    (first ++ second.eraseDups).eraseDups = (first ++ second).eraseDups := by
  induction second using List.reverseRecOn with
  | nil => rfl
  | append_singleton names name ih =>
      rw [← List.append_assoc, eraseDups_concat (first ++ names), eraseDups_concat names]
      by_cases hold : name ∈ names
      · simp [hold, ih]
      · rw [if_neg hold, ← List.append_assoc, eraseDups_concat, ih]
        simp

theorem eraseDups_append_self {names : List String} (h : names.Nodup) :
    (names ++ names).eraseDups = names := by
  have hnone : names.removeAll names = [] := by
    simp only [List.removeAll, List.filter_eq_nil_iff]
    intro name hname
    simp [hname]
  rw [List.eraseDups_append, eraseDups_of_nodup h, hnone, List.eraseDups_nil, List.append_nil]

/-! ### The map of some writes -/

theorem filterMap_findEntry {entries : List (String × α)} (h : (entries.map Prod.fst).Nodup) :
    (entries.map Prod.fst).filterMap
      (fun key => (findEntry key entries).map fun value => (key, value)) = entries := by
  induction entries with
  | nil => rfl
  | cons entry rest ih =>
      obtain ⟨key, value⟩ := entry
      obtain ⟨hnew, hrest⟩ := List.nodup_cons.mp h
      have hsame : ∀ other ∈ rest.map Prod.fst,
          ((findEntry other ((key, value) :: rest)).map fun found => (other, found)) =
            (findEntry other rest).map fun found => (other, found) := by
        intro other hother
        have hne : key ≠ other := fun e => hnew (e ▸ hother)
        rw [findEntry, if_neg hne]
      have hfirst : findEntry key ((key, value) :: rest) = some value := if_pos rfl
      rw [List.map_cons, List.filterMap_cons, hfirst, List.filterMap_congr hsame, ih hrest]
      rfl

theorem findEntry_eq_lookup (key : String) (entries : List (String × α)) :
    findEntry key entries = entries.lookup key := by
  induction entries with
  | nil => rfl
  | cons entry rest ih =>
      obtain ⟨k, v⟩ := entry
      by_cases h : k = key
      · simp [findEntry, h]
      · have hne : (key == k) = false := by simpa using fun e => h e.symm
        rw [findEntry, if_neg h, List.lookup_cons, hne, ih]

theorem mem_firstKeys (writes : List (String × α)) (key : String) :
    key ∈ firstKeys writes ↔ key ∈ writes.map Prod.fst :=
  List.mem_eraseDups

theorem firstKeys_eq_nil (writes : List (String × α)) : firstKeys writes = [] ↔ writes = [] := by
  constructor
  · intro h
    have hkeys : writes.map Prod.fst = [] := by
      rw [List.eq_nil_iff_forall_not_mem] at h ⊢
      intro key hkey
      exact h key ((mem_firstKeys writes key).mpr hkey)
    exact List.map_eq_nil_iff.mp hkeys
  · rintro rfl
    rfl

theorem isSome_lastValue? (writes : List (String × α)) (key : String) :
    (lastValue? writes key).isSome = true ↔ key ∈ writes.map Prod.fst := by
  rw [lastValue?, List.lookup_isSome_iff, List.mem_map]
  constructor
  · rintro ⟨write, hwrite, hkey⟩
    exact ⟨write, List.mem_reverse.mp hwrite, (beq_iff_eq.mp hkey).symm⟩
  · rintro ⟨write, hwrite, rfl⟩
    exact ⟨write, List.mem_reverse.mpr hwrite, beq_self_eq_true _⟩

theorem mem_of_mem_spread {writes : List (String × α)} {write : String × α}
    (h : write ∈ spread writes) : write ∈ writes := by
  obtain ⟨key, -, hkey⟩ := List.mem_filterMap.mp h
  obtain ⟨value, hvalue, rfl⟩ := Option.map_eq_some_iff.mp hkey
  obtain ⟨before, behind, hwrites, -⟩ := List.lookup_eq_some_iff.mp hvalue
  rw [← List.mem_reverse, hwrites]
  exact List.mem_append_right before List.mem_cons_self

/-- Read from either end, a list without repeated keys shows the same. -/
theorem lookup_reverse {entries : List (String × α)} (h : (entries.map Prod.fst).Nodup)
    (key : String) : entries.reverse.lookup key = entries.lookup key := by
  induction entries with
  | nil => rfl
  | cons entry rest ih =>
      obtain ⟨k, v⟩ := entry
      obtain ⟨hnew, hrest⟩ := List.nodup_cons.mp h
      rw [List.reverse_cons, List.lookup_append, ih hrest]
      simp only [List.lookup_cons, List.lookup_nil]
      by_cases hkey : key = k
      · subst hkey
        have hnone : rest.lookup key = none := by
          rw [List.lookup_eq_none_iff]
          intro pair hpair
          have hne : key ≠ pair.1 := by
            intro e
            exact hnew (List.mem_map.mpr ⟨pair, hpair, e.symm⟩)
          simpa using hne
        simp [hnone]
      · have hne : (key == k) = false := by simpa using hkey
        simp [hne]

/-- A key that several parts write holds the value of the last of them. -/
theorem lastValue?_flatMap (pairs : β → List (String × α)) (parts : List β) (key : String) :
    lastValue? (parts.flatMap pairs) key =
      parts.reverse.findSome? fun part => lastValue? (pairs part) key := by
  induction parts with
  | nil => rfl
  | cons part rest ih =>
      rw [lastValue?, List.flatMap_cons, List.reverse_append, List.lookup_append, List.reverse_cons,
        List.findSome?_append, ← ih]
      simp [lastValue?]

namespace OrderedMap

theorem toList_eq_filterMap (m : OrderedMap α) :
    m.toList = m.keys.filterMap fun key => (m.get? key).map fun value => (key, value) :=
  (filterMap_findEntry m.nodup_keys).symm

/-- A map is known by its keys in order and by what it holds at each. -/
theorem ext_get? {m n : OrderedMap α} (hkeys : m.keys = n.keys)
    (hget : ∀ key, m.get? key = n.get? key) : m = n := by
  apply ext
  change m.toList = n.toList
  rw [toList_eq_filterMap, toList_eq_filterMap, hkeys]
  simp only [hget]

theorem get?_of_mem {m : OrderedMap α} {entry : String × α} (h : entry ∈ m.toList) :
    m.get? entry.1 = some entry.2 := by
  rw [toList_eq_filterMap] at h
  obtain ⟨key, -, hkey⟩ := List.mem_filterMap.mp h
  obtain ⟨value, hvalue, rfl⟩ := Option.map_eq_some_iff.mp hkey
  exact hvalue

theorem ofList_concat (writes : List (String × α)) (write : String × α) :
    ofList (writes ++ [write]) = (ofList writes).insert write.1 write.2 :=
  insertAll_append empty writes [write]

/-- A key stays where it was first written. -/
theorem keys_ofList (writes : List (String × α)) : (ofList writes).keys = firstKeys writes := by
  induction writes using List.reverseRecOn with
  | nil => rfl
  | append_singleton writes write ih =>
      rw [ofList_concat, keys_insert, ih, firstKeys, firstKeys, List.map_append, List.map_singleton,
        eraseDups_concat]
      simp only [List.mem_eraseDups]

/-- A key holds what was last written to it. -/
theorem get?_ofList (writes : List (String × α)) (key : String) :
    (ofList writes).get? key = lastValue? writes key := by
  induction writes using List.reverseRecOn with
  | nil => rfl
  | append_singleton writes write ih =>
      rw [ofList_concat, get?_insert, ih, lastValue?, lastValue?, List.reverse_append,
        List.reverse_singleton, List.singleton_append, List.lookup_cons]
      by_cases h : key = write.1
      · simp [h]
      · have hne : (key == write.1) = false := by simpa using h
        rw [if_neg h, hne]

theorem toList_ofList (writes : List (String × α)) : (ofList writes).toList = spread writes := by
  rw [toList_eq_filterMap, keys_ofList]
  simp only [get?_ofList, spread]

/-- A map without repeated keys is its own list of writes. -/
theorem lastValue?_toList (m : OrderedMap α) (key : String) :
    lastValue? m.toList key = m.get? key := by
  change m.entries.reverse.lookup key = findEntry key m.entries
  rw [lookup_reverse m.nodup_keys, findEntry_eq_lookup]

theorem contains_iff_mem_keys (m : OrderedMap α) (key : String) :
    m.contains key = true ↔ key ∈ m.keys := by
  rw [contains, ← lastValue?_toList, isSome_lastValue?]
  rfl

theorem ofList_toList (m : OrderedMap α) : ofList m.toList = m := by
  apply ext_get?
  · rw [keys_ofList]
    exact eraseDups_of_nodup m.nodup_keys
  · intro key
    rw [get?_ofList, lastValue?_toList]

theorem isEmpty_iff {α : Type} {m : OrderedMap α} : m.isEmpty = true ↔ m = .empty := by
  rw [isEmpty, List.isEmpty_iff]
  exact ⟨fun h => ext h, fun h => h ▸ rfl⟩

theorem keys_mapValues {α β : Type} (f : α → β) (m : OrderedMap α) :
    (m.mapValues f).keys = m.keys := by
  simp [keys, mapValues, Function.comp_def]

/-! ### Merging -/

theorem ofList_append (first second : List (String × α)) :
    ofList (first ++ second) = (ofList first).insertAll second :=
  insertAll_append empty first second

/-- Writing what a list of writes leaves behind is writing the list. -/
theorem ofList_append_spread (first second : List (String × α)) :
    ofList (first ++ (ofList second).toList) = ofList (first ++ second) := by
  apply ext_get?
  · rw [keys_ofList, keys_ofList]
    change ((first ++ (ofList second).toList).map Prod.fst).eraseDups =
      ((first ++ second).map Prod.fst).eraseDups
    rw [List.map_append, List.map_append]
    change (first.map Prod.fst ++ (ofList second).keys).eraseDups = _
    rw [keys_ofList, firstKeys, eraseDups_append_eraseDups]
  · intro key
    have hsecond : (ofList second).toList.reverse.lookup key = second.reverse.lookup key := by
      change lastValue? (ofList second).toList key = lastValue? second key
      rw [lastValue?_toList, get?_ofList]
    rw [get?_ofList, get?_ofList, lastValue?, lastValue?, List.reverse_append,
      List.reverse_append, List.lookup_append, List.lookup_append, hsecond]

theorem insert_of_mem {m : OrderedMap α} {entry : String × α} (h : entry ∈ m.toList) :
    m.insert entry.1 entry.2 = m := by
  have hkey : entry.1 ∈ m.keys := List.mem_map_of_mem h
  apply ext_get?
  · rw [keys_insert, if_pos hkey]
  · intro key
    rw [get?_insert]
    split
    · next hsame => rw [hsame, get?_of_mem h]
    · rfl

/-- Writing what is there already changes nothing. -/
theorem insertAll_of_mem {m : OrderedMap α} {writes : List (String × α)}
    (h : ∀ write ∈ writes, write ∈ m.toList) : m.insertAll writes = m := by
  induction writes with
  | nil => rfl
  | cons write rest ih =>
      obtain ⟨hwrite, hrest⟩ := List.forall_mem_cons.mp h
      rw [insertAll_cons, insert_of_mem hwrite, ih hrest]

/-- Writes to keys that are all new stand behind what is there. -/
theorem toList_insertAll_of_fresh {m : OrderedMap α} {writes : List (String × α)}
    (hwrites : (writes.map Prod.fst).Nodup) (hfresh : m.keys.Disjoint (writes.map Prod.fst)) :
    (m.insertAll writes).toList = m.toList ++ writes := by
  have hnodup : ((m.toList ++ writes).map Prod.fst).Nodup := by
    rw [List.map_append]
    exact List.Nodup.append m.nodup_keys hwrites hfresh
  have hmap := ofList_toList ⟨m.toList ++ writes, hnodup⟩
  change ofList (m.toList ++ writes) = _ at hmap
  rw [ofList_append, ofList_toList] at hmap
  rw [hmap]
  rfl

/-- Items that write to keys of their own leave what each of them writes, once and
in the place of its first occurrence. -/
theorem toList_ofList_flatMap [BEq β] [LawfulBEq β] {entries : β → List (String × α)}
    (hnodup : ∀ item, ((entries item).map Prod.fst).Nodup)
    (hapart : ∀ item other, item ≠ other →
      ((entries item).map Prod.fst).Disjoint ((entries other).map Prod.fst)) (items : List β) :
    (ofList (items.flatMap entries)).toList = items.eraseDups.flatMap entries := by
  induction items using List.reverseRecOn with
  | nil => rfl
  | append_singleton items item ih =>
      rw [List.flatMap_append, List.flatMap_singleton, ofList_append, eraseDups_concat]
      -- an item that occurred before finds its writes in place, a new one finds its keys free
      by_cases hold : item ∈ items
      · rw [if_pos hold, ← ih, insertAll_of_mem]
        intro write hwrite
        rw [ih, List.mem_flatMap]
        exact ⟨item, List.mem_eraseDups.mpr hold, hwrite⟩
      · rw [if_neg hold, toList_insertAll_of_fresh (hnodup item), ih, List.flatMap_append,
          List.flatMap_singleton]
        intro key hkey hitem
        change key ∈ (ofList (items.flatMap entries)).toList.map Prod.fst at hkey
        rw [ih, List.map_flatMap, List.mem_flatMap] at hkey
        obtain ⟨other, hother, hin⟩ := hkey
        have hne : other ≠ item := fun e => hold (e ▸ List.mem_eraseDups.mp hother)
        exact hapart other item hne hin hitem

theorem merge_eq_ofList (m n : OrderedMap α) : m.merge n = ofList (m.toList ++ n.toList) := by
  rw [ofList_append, ofList_toList]
  rfl

theorem merge_ofList (first second : List (String × α)) :
    (ofList first).merge (ofList second) = ofList (first ++ second) := by
  change (ofList first).insertAll (ofList second).toList = _
  rw [← ofList_append, ofList_append_spread]

theorem merge_assoc (a b c : OrderedMap α) : (a.merge b).merge c = a.merge (b.merge c) := by
  rw [← ofList_toList a, ← ofList_toList b, ← ofList_toList c]
  simp only [merge_ofList, List.append_assoc]

theorem merge_empty (m : OrderedMap α) : m.merge empty = m := rfl

theorem empty_merge (m : OrderedMap α) : empty.merge m = m := ofList_toList m

theorem merge_self (m : OrderedMap α) : m.merge m = m := by
  apply ext_get?
  · rw [merge_eq_ofList, keys_ofList, firstKeys, List.map_append]
    exact eraseDups_append_self m.nodup_keys
  · intro key
    have hreverse : m.toList.reverse.lookup key = m.get? key := lastValue?_toList m key
    rw [merge_eq_ofList, get?_ofList, lastValue?, List.reverse_append, List.lookup_append, hreverse]
    exact Option.or_self

theorem foldl_merge (maps : List (OrderedMap α)) (start : OrderedMap α) :
    maps.foldl merge start = start.insertAll (maps.flatMap toList) := by
  induction maps generalizing start with
  | nil => rfl
  | cons map rest ih =>
      rw [List.foldl_cons, ih, List.flatMap_cons, insertAll_append]
      rfl

/-- A map made of several: all their pairs collected in order, so that a key
stands where the first map that has it puts it and holds what the last one says. -/
structure Unites (map : OrderedMap α) (maps : List (OrderedMap α)) : Prop where
  collects : map = ofList (maps.flatMap toList)
  keys : map.keys = (maps.flatMap OrderedMap.keys).eraseDups
  get : ∀ key, map.get? key = maps.reverse.findSome? fun part => part.get? key

theorem unites_foldl_merge (maps : List (OrderedMap α)) : (maps.foldl merge empty).Unites maps where
  collects := foldl_merge maps empty
  keys := by
    rw [foldl_merge]
    change (ofList (maps.flatMap toList)).keys = _
    rw [keys_ofList, firstKeys, List.map_flatMap]
    rfl
  get := by
    intro key
    rw [foldl_merge]
    change (ofList (maps.flatMap toList)).get? key = _
    rw [get?_ofList, lastValue?_flatMap]
    simp only [lastValue?_toList]

end OrderedMap

end Protoscribe
