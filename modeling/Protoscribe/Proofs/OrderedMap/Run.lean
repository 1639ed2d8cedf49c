import Protoscribe.Registry.Parse
import Protoscribe.Proofs.Mixin

/-!
Maps over whole runs. A program that holds a map inserts, extends, collects,
decodes and drains in any order; next to it runs a record that keeps nothing but
the list of writes since the map was last replaced. After every step the map
shows what the record says, and every answer on the way is the one that the
record gives.
-/

namespace Protoscribe

/-- What can happen to a map that a program holds. -/
inductive MapStep (α : Type) where
  | insert (key : String) (value : α)
  | extend (other : OrderedMap α)
  | collect (pairs : List (String × α))
  | decode (format : Format) (document : String)
  | drain

inductive MapAnswer (α : Type) where
  | previous (value : Option α)
  | drained (pairs : List (String × α))
  | refused (error : Error)
  | done

def readPairs {α ν : Type} {m : Type → Type} [Monad m] [Decode.Source ν m] (read : ν → m α)
    (value : ν) : m (List (String × α)) :=
  Decode.here ν do Decode.readEntries read (← Decode.Source.entries value)

namespace MapStep

variable {α : Type}
variable (read : {ν : Type} → {m : Type → Type} → [Monad m] → [Decode.Source ν m] → ν → m α)

/-- A document that is refused leaves the map as it is. -/
def run (map : OrderedMap α) : MapStep α → OrderedMap α × MapAnswer α
  | .insert key value => ((map.exchange key value).2, .previous (map.exchange key value).1)
  | .extend other => (map.merge other, .done)
  | .collect pairs => (.ofList pairs, .done)
  | .decode format document =>
      match format.decode (OrderedMap.decode read) document with
      | .ok decoded => (decoded, .done)
      | .error error => (map, .refused error)
  | .drain => (.empty, .drained map.toList)

def runAll (map : OrderedMap α) : List (MapStep α) → OrderedMap α × List (MapAnswer α)
  | [] => (map, [])
  | step :: rest =>
      let first := step.run read map
      let others := runAll first.1 rest
      (others.1, first.2 :: others.2)

/-- The record of a step: the writes since the last reset, and the answer that
they call for. -/
def record (writes : List (String × α)) : MapStep α → List (String × α) × MapAnswer α
  | .insert key value => (writes ++ [(key, value)], .previous (lastValue? writes key))
  | .extend other => (writes ++ other.toList, .done)
  | .collect pairs => (pairs, .done)
  | .decode format document =>
      match format.decode (readPairs read) document with
      | .ok pairs => (pairs, .done)
      | .error error => (writes, .refused error)
  | .drain => ([], .drained (spread writes))

def recordAll (writes : List (String × α)) :
    List (MapStep α) → List (String × α) × List (MapAnswer α)
  | [] => (writes, [])
  | step :: rest =>
      let first := step.record read writes
      let others := recordAll first.1 rest
      (others.1, first.2 :: others.2)

end MapStep

/-- Everything that a map shows is what some writes leave behind. -/
structure OrderedMap.Shows {α : Type} (map : OrderedMap α) (writes : List (String × α)) :
    Prop where
  nodup : map.keys.Nodup
  keys : map.keys = firstKeys writes
  get : ∀ key, map.get? key = lastValue? writes key
  contains : ∀ key, map.contains key = true ↔ key ∈ writes.map Prod.fst
  size : map.size = (firstKeys writes).length
  isEmpty : map.isEmpty = true ↔ writes = []
  toList : map.toList = spread writes

theorem OrderedMap.shows_ofList {α : Type} (writes : List (String × α)) :
    (ofList writes).Shows writes where
  nodup := (ofList writes).nodup_keys
  keys := keys_ofList writes
  get := get?_ofList writes
  contains := by
    intro key
    rw [OrderedMap.contains, get?_ofList, isSome_lastValue?]
  size := by
    rw [← keys_ofList, OrderedMap.keys, List.length_map]
    rfl
  isEmpty := by
    have hkeys : (ofList writes).entries.map Prod.fst = firstKeys writes := keys_ofList writes
    rw [OrderedMap.isEmpty, List.isEmpty_iff, ← firstKeys_eq_nil writes, ← hkeys,
      List.map_eq_nil_iff]
  toList := toList_ofList writes

/-! ### Decoding -/

section

variable {α : Type}

theorem json_decode_pairs (read : Json.Cursor → Json.Reading α) (cursor : Json.Cursor) :
    (OrderedMap.decode read cursor : Json.Reading (OrderedMap α)) =
      (readPairs read cursor : Json.Reading _).map OrderedMap.ofList := by
  simp only [OrderedMap.decode, readPairs, Decode.here, Decode.Source.annotate, bind, Except.bind]
  cases (Decode.Source.entries cursor : Json.Reading (List (Decode.Entry _ _))) with
  | error failure => rfl
  | ok entries =>
      cases hpairs : Decode.readEntries read entries with
      | error failure =>
          simp only [hpairs]
          rfl
      | ok pairs =>
          simp only [hpairs]
          rfl

/-- The count of followed aliases goes on behind the map as behind its pairs. -/
theorem yaml_decode_pairs (read : Yaml.Cursor → Yaml.Reading α) (cursor : Yaml.Cursor)
    (count : Nat) :
    (OrderedMap.decode read cursor : Yaml.Reading (OrderedMap α)) count =
      ((readPairs read cursor : Yaml.Reading _) count).map
        fun result => (OrderedMap.ofList result.1, result.2) := by
  simp only [OrderedMap.decode, readPairs, Decode.here, Decode.Source.annotate, bind, StateT.bind]
  cases (Decode.Source.entries cursor : Yaml.Reading (List (Decode.Entry _ _))) count with
  | error failure => rfl
  | ok entries =>
      simp only [Except.bind]
      cases Decode.readEntries read entries.1 entries.2 with
      | error failure => rfl
      | ok pairs => rfl

/-- In either format a mapping decodes to the map that collects its pairs. -/
theorem format_decode_pairs
    (read : {ν : Type} → {m : Type → Type} → [Monad m] → [Decode.Source ν m] → ν → m α)
    (format : Format) (document : String) :
    format.decode (OrderedMap.decode read) document =
      (format.decode (readPairs read) document).map OrderedMap.ofList := by
  cases format with
  | json =>
      have hdecode : Json.decode (OrderedMap.decode read) document =
          (Json.decode (readPairs read) document).map OrderedMap.ofList := by
        refine Decode.readScanned_map (fun value => ?_) (Json.scan document)
        rw [json_decode_pairs]
        cases (readPairs read (Json.Cursor.root value) : Json.Reading _) <;> rfl
      rw [Format.decode, Format.decode, hdecode]
      cases Json.decode (readPairs read) document <;> rfl
  | yaml =>
      have hdecode : Yaml.decode (OrderedMap.decode read) document =
          (Yaml.decode (readPairs read) document).map OrderedMap.ofList := by
        refine Decode.readScanned_map (fun document => ?_) (Yaml.Document.scan document)
        rw [StateT.run', StateT.run', yaml_decode_pairs]
        cases (readPairs read (Yaml.Cursor.root document) : Yaml.Reading _) 0 <;> rfl
      rw [Format.decode, Format.decode, hdecode]
      cases Yaml.decode (readPairs read) document <;> rfl

theorem toOption_mapError {ε δ β : Type} (change : ε → δ) (reading : Except ε β) :
    (reading.mapError change).toOption = reading.toOption := by
  cases reading <;> rfl

theorem toOption_readEntries (read : Json.Cursor → Json.Reading α) (cursor : Json.Cursor)
    (members : List (String × Json)) :
    (Decode.readEntries read
        (members.map fun member => cursor.entry (some member.1, member.2))).toOption =
      members.mapM fun member =>
        (read (cursor.part member.2)).toOption.map fun value => (member.1, value) := by
  induction members with
  | nil => rfl
  | cons member rest ih =>
      have hvalue := toOption_mapError (Decode.Failure.under (.key member.1))
        (read (cursor.part member.2))
      rw [List.mapM_cons, ← ih, ← hvalue]
      change (do
        let first ← (read (cursor.part member.2)).mapError (.under (.key member.1))
        let others ← Decode.readEntries read
          (rest.map fun member => cursor.entry (some member.1, member.2))
        return (member.1, first) :: others : Json.Reading _).toOption = _
      cases (read (cursor.part member.2)).mapError (Decode.Failure.under (.key member.1)) with
      | error failure => rfl
      | ok value =>
          cases Decode.readEntries read
              (rest.map fun member => cursor.entry (some member.1, member.2)) with
          | error failure => rfl
          | ok others => rfl

/-- The pairs of a JSON object are its members in order, each name with what its
value reads as; a name may come more than once. -/
theorem readPairs_record (read : Json.Cursor → Json.Reading α) (levels : Nat)
    (members : List (String × Json)) :
    (readPairs read (⟨.record members, levels⟩ : Json.Cursor) : Json.Reading _).toOption =
      members.mapM fun member =>
        (read ⟨member.2, levels - 1⟩).toOption.map fun value => (member.1, value) := by
  have hentries := toOption_readEntries read ⟨.record members, levels⟩ members
  simp only [readPairs, Decode.here, Decode.Source.annotate, toOption_mapError]
  rw [show (members.mapM fun member => (read ⟨member.2, levels - 1⟩).toOption.map fun value =>
    (member.1, value)) = _ from hentries.symm]
  simp only [Decode.Source.entries, Json.record, List.map_map]
  rfl

end

/-! ### Runs -/

namespace MapStep

variable {α : Type}
variable (read : {ν : Type} → {m : Type → Type} → [Monad m] → [Decode.Source ν m] → ν → m α)

theorem run_ofList (writes : List (String × α)) (step : MapStep α) :
    step.run read (.ofList writes) =
      (.ofList (step.record read writes).1, (step.record read writes).2) := by
  cases step with
  | insert key value =>
      have hmap := OrderedMap.ofList_concat writes (key, value)
      have hprevious := OrderedMap.get?_ofList writes key
      simp only [run, record, OrderedMap.exchange, hmap, hprevious]
  | extend other =>
      have hmap : (OrderedMap.ofList writes).merge other = .ofList (writes ++ other.toList) :=
        (OrderedMap.ofList_append writes other.toList).symm
      simp only [run, record, hmap]
  | collect pairs => rfl
  | decode format document =>
      simp only [run, record, format_decode_pairs]
      cases format.decode (readPairs read) document with
      | ok pairs => rfl
      | error error => rfl
  | drain =>
      have hpairs := OrderedMap.toList_ofList writes
      simp only [run, record, hpairs]
      rfl

/-- A whole run does what the record of it says, by induction on the steps. -/
theorem runAll_ofList (writes : List (String × α)) (steps : List (MapStep α)) :
    runAll read (.ofList writes) steps =
      (.ofList (recordAll read writes steps).1, (recordAll read writes steps).2) := by
  induction steps generalizing writes with
  | nil => rfl
  | cons step rest ih =>
      have hstep := run_ofList read writes step
      have hrest := ih (step.record read writes).1
      simp only [runAll, recordAll, hstep, hrest]

end MapStep

/-! ### The semantics of whole runs -/

/-- Maps spread like dictionaries: after any run a map shows the writes since the
last reset, keys in the order of their first write and under each the last value,
and every answer on the way is that of the record. Decoding a JSON object counts
its members as writes. Merging is therefore associative with the empty map as
identity, a map merged into itself is unchanged, and merged defaults collect the
pairs of all sources. -/
theorem OrderedMap.spread_semantics {α : Type}
    (read : {ν : Type} → {m : Type → Type} → [Monad m] → [Decode.Source ν m] → ν → m α) :
    (∀ steps : List (MapStep α),
      (MapStep.runAll read .empty steps).1.Shows (MapStep.recordAll read [] steps).1 ∧
        (MapStep.runAll read .empty steps).2 = (MapStep.recordAll read [] steps).2) ∧
    (∀ (levels : Nat) (members : List (String × Json)),
      (readPairs read (⟨.record members, levels⟩ : Json.Cursor) : Json.Reading _).toOption =
        members.mapM fun member =>
          (read (⟨member.2, levels - 1⟩ : Json.Cursor) : Json.Reading α).toOption.map
            fun value => (member.1, value)) ∧
    (∀ a b c : OrderedMap α, (a.merge b).merge c = a.merge (b.merge c)) ∧
    (∀ m : OrderedMap α, m.merge .empty = m ∧ OrderedMap.empty.merge m = m ∧ m.merge m = m) ∧
    (∀ first second : List (String × α),
      OrderedMap.ofList (first ++ second) = (ofList first).merge (ofList second)) ∧
    (∀ (sources : List Defaults) (model : Model),
      (mergeMethods sources model).Unites (sources.map fun source => source.methods model) ∧
        (mergeMessages sources model).Unites
          (sources.map fun source => source.messages model)) := by
  refine ⟨?runs, ?members, merge_assoc, ?units, ?collected, ?defaults⟩
  case runs =>
    intro steps
    have hrun := MapStep.runAll_ofList read [] steps
    change MapStep.runAll read .empty steps = _ at hrun
    rw [hrun]
    exact ⟨shows_ofList _, rfl⟩
  case members =>
    intro levels members
    exact readPairs_record read levels members
  case units =>
    intro m
    exact ⟨merge_empty m, empty_merge m, merge_self m⟩
  case collected =>
    intro first second
    exact (merge_ofList first second).symm
  case defaults =>
    intro sources model
    exact ⟨unites_mergeMethods sources model, unites_mergeMessages sources model⟩

end Protoscribe
