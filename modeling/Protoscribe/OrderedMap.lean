/-!
Maps from strings to values that remember the order in which their keys first
arrived. Writing to a key that is present replaces its value and leaves the key
where it stands; a new key goes to the end. The entry list carries the proof
that its keys are distinct, so no operation needs a well-formedness premise.
-/

namespace Protoscribe

/-- Replaces the value of a key that is present, else appends the pair. -/
def putEntry {α : Type} (key : String) (value : α) :
    List (String × α) → List (String × α)
  | [] => [(key, value)]
  | (k, v) :: rest =>
      if k = key then (k, value) :: rest else (k, v) :: putEntry key value rest

def findEntry {α : Type} (key : String) : List (String × α) → Option α
  | [] => none
  | (k, v) :: rest => if k = key then some v else findEntry key rest

/-- Writing keeps the keys of a present key and appends a new one. -/
theorem keys_putEntry {α : Type} (key : String) (value : α)
    (entries : List (String × α)) :
    (putEntry key value entries).map Prod.fst =
      if key ∈ entries.map Prod.fst then entries.map Prod.fst
      else entries.map Prod.fst ++ [key] := by
  induction entries with
  | nil => simp [putEntry]
  | cons entry rest ih =>
      obtain ⟨k, v⟩ := entry
      by_cases h : k = key
      · subst h
        simp [putEntry]
      · have hne : ¬ key = k := fun e => h e.symm
        simp only [putEntry, h, if_false, List.map_cons, List.mem_cons, hne, false_or, ih]
        split <;> simp

theorem nodup_keys_putEntry {α : Type} (key : String) (value : α)
    {entries : List (String × α)} (h : (entries.map Prod.fst).Nodup) :
    ((putEntry key value entries).map Prod.fst).Nodup := by
  rw [keys_putEntry]
  split
  · exact h
  · next hnew =>
      refine List.nodup_append.2 ⟨h, by simp, ?_⟩
      intro a ha b hb
      rw [List.mem_singleton] at hb
      subst hb
      intro e
      exact hnew (e ▸ ha)

theorem findEntry_putEntry {α : Type} (key other : String) (value : α)
    (entries : List (String × α)) :
    findEntry other (putEntry key value entries) =
      if other = key then some value else findEntry other entries := by
  induction entries with
  | nil =>
      by_cases h : other = key
      · simp [putEntry, findEntry, h]
      · have hne : ¬ key = other := fun e => h e.symm
        simp [putEntry, findEntry, h, hne]
  | cons entry rest ih =>
      obtain ⟨k, v⟩ := entry
      by_cases hk : k = key
      · subst hk
        by_cases h : other = k
        · simp [putEntry, findEntry, h]
        · have hne : ¬ k = other := fun e => h e.symm
          simp [putEntry, findEntry, h, hne]
      · by_cases h : k = other
        · subst h
          simp [putEntry, findEntry, hk]
        · simp [putEntry, findEntry, hk, h, ih]

/-- A map whose keys are distinct and stand in the order of their arrival. -/
structure OrderedMap (α : Type) where
  entries : List (String × α)
  nodup_keys : (entries.map Prod.fst).Nodup
  deriving DecidableEq

namespace OrderedMap

variable {α β : Type}

@[ext] theorem ext {m n : OrderedMap α} (h : m.entries = n.entries) : m = n := by
  cases m
  cases n
  cases h
  rfl

instance [Repr α] : Repr (OrderedMap α) := ⟨fun m => reprPrec m.entries⟩

def empty : OrderedMap α := ⟨[], List.nodup_nil⟩

instance : EmptyCollection (OrderedMap α) := ⟨empty⟩
instance : Inhabited (OrderedMap α) := ⟨empty⟩

def insert (m : OrderedMap α) (key : String) (value : α) : OrderedMap α :=
  ⟨putEntry key value m.entries, nodup_keys_putEntry key value m.nodup_keys⟩

def get? (m : OrderedMap α) (key : String) : Option α := findEntry key m.entries

/-- Writes a value and gives back the one that it replaces. -/
def exchange (m : OrderedMap α) (key : String) (value : α) : Option α × OrderedMap α :=
  (m.get? key, m.insert key value)

def contains (m : OrderedMap α) (key : String) : Bool := (m.get? key).isSome

def toList (m : OrderedMap α) : List (String × α) := m.entries

def keys (m : OrderedMap α) : List String := m.entries.map Prod.fst

def size (m : OrderedMap α) : Nat := m.entries.length

def isEmpty (m : OrderedMap α) : Bool := m.entries.isEmpty

def insertAll (m : OrderedMap α) (pairs : List (String × α)) : OrderedMap α :=
  pairs.foldl (fun acc pair => acc.insert pair.1 pair.2) m

/-- Collects pairs in which a key may repeat: it keeps its first place and
takes its last value. -/
def ofList (pairs : List (String × α)) : OrderedMap α := empty.insertAll pairs

/-- Merges another map into this one; where both hold a key, the other's value
stands in this map's place. -/
def merge (m n : OrderedMap α) : OrderedMap α := m.insertAll n.entries

def mapValues (f : α → β) (m : OrderedMap α) : OrderedMap β :=
  ⟨m.entries.map fun entry => (entry.1, f entry.2), by
    simpa [List.map_map, Function.comp_def] using m.nodup_keys⟩

theorem keys_insert (m : OrderedMap α) (key : String) (value : α) :
    (m.insert key value).keys =
      if key ∈ m.keys then m.keys else m.keys ++ [key] :=
  keys_putEntry key value m.entries

theorem get?_insert (m : OrderedMap α) (key other : String) (value : α) :
    (m.insert key value).get? other =
      if other = key then some value else m.get? other :=
  findEntry_putEntry key other value m.entries

@[simp] theorem insertAll_cons (m : OrderedMap α) (pair : String × α)
    (pairs : List (String × α)) :
    m.insertAll (pair :: pairs) = (m.insert pair.1 pair.2).insertAll pairs := rfl

theorem insertAll_append (m : OrderedMap α) (first second : List (String × α)) :
    m.insertAll (first ++ second) = (m.insertAll first).insertAll second :=
  List.foldl_append

end OrderedMap

end Protoscribe
