import Mathlib.Logic.Relation
import Protoscribe.Proofs.Json.Record
import Protoscribe.Proofs.Matching

/-!
The ways to present one value in JSON. The members of a record may stand in any order,
with others between them that it does not know; a field that has a default may be left
out or given at its default; and the record may be written as the list of its fields.
None of this changes what the record is read to. Lists and maps hand the changes of their
parts on and keep their own order.
-/

namespace Protoscribe.Json

open Decode

/-! ### Changes of a presentation -/

inductive InList (change : Json → Json → Prop) : Json → Json → Prop where
  | item {before behind : List Json} {value other : Json} (h : change value other) :
      InList change (.array (before ++ value :: behind)) (.array (before ++ other :: behind))

inductive InMap (change : Json → Json → Prop) : Json → Json → Prop where
  | entry {before behind : List (Text × Json)} {key : Text} {value other : Json}
      (h : change value other) :
      InMap change (.object (before ++ (key, value) :: behind))
        (.object (before ++ (key, other) :: behind))

/-- What may vary in a record: the values that stand for the default of a field, and the
changes of the value of a field. -/
structure Variation (κ : Type) where
  shape : Shape κ
  Default : κ → Json → Prop
  Part : κ → Json → Json → Prop

namespace Variation

variable {κ : Type}

/-- One change in the presentation of a record. -/
inductive Change (vary : Variation κ) : Json → Json → Prop where
  | permute {members others : List (Text × Json)} (h : members.Perm others) :
      vary.Change (.object members) (.object others)
  /-- A member that the record does not know, whatever text is its name and whatever its value. -/
  | addUnknown {before behind : List (Text × Json)} {name : String} {value : Json}
      (hname : vary.shape.field? name = none) :
      vary.Change (.object (before ++ behind)) (.object (before ++ (some name, value) :: behind))
  | addDefault {before behind : List (Text × Json)} {field : κ} {value : Json}
      (habsent : valuesOf vary.shape (before ++ behind) field = [])
      (hvalue : vary.Default field value) :
      vary.Change (.object (before ++ behind))
        (.object (before ++ member vary.shape field value :: behind))
  | dropDefault {before behind : List (Text × Json)} {field : κ} {value : Json}
      (hvalue : vary.Default field value) :
      vary.Change (.object (before ++ member vary.shape field value :: behind))
        (.object (before ++ behind))
  /-- The list of the fields in the order of declaration. Fields that are left out stand
  at their default; fields at the end that are left out or at their default may be cut. -/
  | list {members : List (Text × Json)} {items : List Json} {given rest : List κ}
      (hfields : vary.shape.fields = given ++ rest)
      (hgiven : List.Forall₂ (fun field item => valuesOf vary.shape members field = [item] ∨
        valuesOf vary.shape members field = [] ∧ vary.Default field item) given items)
      (hrest : ∀ field ∈ rest, ∀ value ∈ valuesOf vary.shape members field,
        vary.Default field value) :
      vary.Change (.object members) (.array items)
  | inMember {before behind : List (Text × Json)} {field : κ} {value other : Json}
      (h : vary.Part field value other) :
      vary.Change (.object (before ++ member vary.shape field value :: behind))
        (.object (before ++ member vary.shape field other :: behind))
  | inItem {before behind : List Json} {field : κ} {value other : Json}
      (hfield : vary.shape.fields[before.length]? = some field)
      (h : vary.Part field value other) :
      vary.Change (.array (before ++ value :: behind)) (.array (before ++ other :: behind))

/-- A record of which every field is left out or at its default. -/
inductive AllDefault (vary : Variation κ) : Json → Prop where
  | named {members : List (Text × Json)} (hnames : ∀ one ∈ members, one.1.isSome = true)
      (honce : ∀ field, (valuesOf vary.shape members field).length ≤ 1)
      (hdefault : ∀ field, ∀ value ∈ valuesOf vary.shape members field,
        vary.Default field value) :
      vary.AllDefault (.object members)
  | listed {items : List Json} {given rest : List κ} (hfields : vary.shape.fields = given ++ rest)
      (hdefault : List.Forall₂ vary.Default given items) : vary.AllDefault (.array items)

end Variation

/-! ### Lists and maps -/

section

variable {α : Type}

/-- A change that no reading of a value can tell, however deep the value stands. -/
def Keeps (read : Cursor → Reading α) (change : Json → Json → Prop) : Prop :=
  ∀ ⦃levels : Nat⦄ ⦃value other : Json⦄ ⦃result : α⦄, change value other →
    read ⟨value, levels⟩ = .ok result → read ⟨other, levels⟩ = .ok result

variable {read : Cursor → Reading α} {change : Json → Json → Prop}

/-- What never changes. -/
theorem Keeps.never : Keeps read (fun _ _ => False) := fun _ _ _ _ hchange => hchange.elim

theorem Keeps.list (h : Keeps read change) : Keeps (readList read) (InList change) := by
  intro levels _ _ values hchange hread
  obtain ⟨hpart⟩ := hchange
  rw [readList, here_eq_ok_iff, bind_eq_ok_iff] at hread ⊢
  obtain ⟨parts, hparts, hvalues⟩ := hread
  cases hparts
  refine ⟨_, rfl, ?_⟩
  rw [readItemsFrom_eq_ok_iff, List.forall₂_map_left_iff] at hvalues ⊢
  exact forall₂_replace (fun _ _ hvalue => h hpart hvalue) hvalues

/-- The order of the entries stays what it is. -/
theorem Keeps.map (h : Keeps read change) : Keeps (OrderedMap.decode read) (InMap change) := by
  intro levels _ _ values hchange hread
  obtain ⟨hpart⟩ := hchange
  rw [OrderedMap.decode, here_eq_ok_iff, bind_eq_ok_iff] at hread ⊢
  obtain ⟨entries, hentries, hvalues⟩ := hread
  cases hentries
  refine ⟨_, rfl, ?_⟩
  rw [bind_eq_ok_iff] at hvalues ⊢
  obtain ⟨pairs, hpairs, hmap⟩ := hvalues
  refine ⟨pairs, ?_, hmap⟩
  rw [readEntries_eq_ok_iff] at hpairs ⊢
  refine forall₂_replace ?_ hpairs
  rintro pair - ⟨hname, hvalue⟩
  exact ⟨hname, h hpart hvalue⟩

/-- A map that may be absent is not absent if something in it can change. -/
theorem Keeps.optionalMap (h : Keeps read change) :
    Keeps (readOptional (OrderedMap.decode read)) (InMap change) := by
  intro levels value other present hchange hread
  have hmap : ∀ values, OrderedMap.decode read ⟨value, levels⟩ = .ok values →
      OrderedMap.decode read ⟨other, levels⟩ = .ok values := fun _ hvalues => h.map hchange hvalues
  obtain ⟨hpart⟩ := hchange
  rw [readOptional, bind_eq_ok_iff] at hread ⊢
  obtain ⟨cursor, hcursor, hread⟩ := hread
  cases hcursor
  refine ⟨_, rfl, ?_⟩
  rw [bind_eq_ok_iff] at hread ⊢
  obtain ⟨values, hvalues, hsome⟩ := hread
  exact ⟨values, hmap values hvalues, hsome⟩

/-! ### Documents -/

/-- Any number of changes. -/
theorem Keeps.run (h : Keeps read change) {levels : Nat} {value other : Json} {result : α}
    (hchanges : Relation.ReflTransGen change value other)
    (hread : read ⟨value, levels⟩ = .ok result) : read ⟨other, levels⟩ = .ok result := by
  induction hchanges with
  | refl => exact hread
  | tail _ hchange ih => exact h hchange ih

/-- A document with a result keeps it when its value goes through any number of changes. -/
def Unaffected (read : Cursor → Reading α) (change : Json → Json → Prop) : Prop :=
  ∀ (document other : String) (value found : Json) (result : α),
    read? document = some value → read? other = some found →
    Relation.ReflTransGen change value found →
    decode read document = .ok result → decode read other = .ok result

theorem Keeps.unaffected (h : Keeps read change) : Unaffected read change := by
  intro document other value found result hvalue hfound hchanges hdecode
  obtain ⟨held, hheld, hread⟩ := decode_eq_ok_iff.mp hdecode
  obtain rfl : value = held := Option.some.inj (hvalue.symm.trans hheld)
  exact decode_eq_ok_iff.mpr ⟨found, hfound, h.run hchanges hread⟩

end

/-! ### Records -/

section

variable {κ : Type} {shape : Shape κ}
variable {Value : κ → Type} {read : (field : κ) → Cursor → Reading (Value field)}
variable {default? : (field : κ) → Option (Value field)} {part : (field : κ) → Value field}
variable {levels : Nat} {start : Table Value} {members : List (Text × Json)}

/-- A change of the values of one field. -/
theorem Fills.change {others : List (Text × Json)} {field : κ}
    (h : Fills shape read default? levels part start members)
    (hnames : ∀ one ∈ others, one.1.isSome = true)
    (hother : ∀ other, field ≠ other →
      valuesOf shape others other = valuesOf shape members other)
    (hfield : Filled read default? levels part field (start field) (valuesOf shape members field) →
      Filled read default? levels part field (start field) (valuesOf shape others field)) :
    Fills shape read default? levels part start others where
  names := hnames
  fields other := by
    by_cases hne : field = other
    · subst hne
      exact hfield (h.fields field)
    · rw [hother other hne]
      exact h.fields other

/-- The reader takes what stands for a default as that default, and it cannot tell the
changes of the value of a field. -/
structure Variation.Sound (vary : Variation κ) (read : (field : κ) → Cursor → Reading (Value field))
    (default? : (field : κ) → Option (Value field)) : Prop where
  field?_label : ∀ field, vary.shape.field? (vary.shape.label field) = some field
  nodup : vary.shape.fields.Nodup
  default : ∀ {field value}, vary.Default field value →
    ∃ held, default? field = some held ∧ ∀ levels, read field ⟨value, levels⟩ = .ok held
  part : ∀ field, Keeps (read field) (vary.Part field)

namespace Variation.Sound

variable {vary : Variation κ} {field : κ} {value : Json}

theorem valuesOf_member_ne (hsound : vary.Sound read default?) (value : Json) (other : κ)
    (hne : field ≠ other) :
    valuesOf vary.shape (member vary.shape field value :: members) other =
      valuesOf vary.shape members other := by
  refine valuesOf_cons_ne (fun hsame => hne ?_) value members
  exact label_injective hsound.field?_label (Option.some.inj hsame)

theorem read_default (hsound : vary.Sound read default?) (hvalue : vary.Default field value)
    (hdefault : default? field = some (part field)) :
    read field ⟨value, levels⟩ = .ok (part field) := by
  obtain ⟨held, hheld, hread⟩ := hsound.default hvalue
  rw [hread, Option.some.inj (hheld.symm.trans hdefault)]

theorem default?_eq (hsound : vary.Sound read default?) (hvalue : vary.Default field value)
    (hread : read field ⟨value, levels⟩ = .ok (part field)) :
    default? field = some (part field) := by
  obtain ⟨held, hheld, hdefault⟩ := hsound.default hvalue
  rw [hheld, Except.ok.inj ((hdefault levels).symm.trans hread)]

theorem addDefault (hsound : vary.Sound read default?)
    (habsent : valuesOf vary.shape members field = []) (hvalue : vary.Default field value)
    (h : Fills vary.shape read default? levels part .empty members) :
    Fills vary.shape read default? levels part .empty
      (member vary.shape field value :: members) := by
  refine h.change (List.forall_mem_cons.mpr ⟨rfl, h.names⟩) (hsound.valuesOf_member_ne value) ?_
  rw [habsent, valuesOf_cons_self, habsent, filled_nil_iff]
  exact fun hdefault => .given (hsound.read_default hvalue hdefault)

theorem dropDefault (hsound : vary.Sound read default?) (hvalue : vary.Default field value)
    (h : Fills vary.shape read default? levels part .empty
      (member vary.shape field value :: members)) :
    Fills vary.shape read default? levels part .empty members := by
  refine h.change (List.forall_mem_cons.mp h.names).2
    (fun other hne => (hsound.valuesOf_member_ne value other hne).symm) ?_
  rw [valuesOf_cons_self, filled_cons_iff, filled_some_iff]
  rintro ⟨-, hread, -, hbehind⟩
  rw [hbehind]
  exact .absent (hsound.default?_eq hvalue hread)

theorem inMember (hsound : vary.Sound read default?) {other : Json}
    (hpart : vary.Part field value other)
    (h : Fills vary.shape read default? levels part .empty
      (member vary.shape field value :: members)) :
    Fills vary.shape read default? levels part .empty
      (member vary.shape field other :: members) := by
  have hother : ∀ one, field ≠ one →
      valuesOf vary.shape (member vary.shape field other :: members) one =
        valuesOf vary.shape (member vary.shape field value :: members) one := by
    intro one hne
    rw [hsound.valuesOf_member_ne other one hne, hsound.valuesOf_member_ne value one hne]
  have hnames := (List.forall_mem_cons.mp h.names).2
  refine h.change (List.forall_mem_cons.mpr ⟨rfl, hnames⟩) hother ?_
  rw [valuesOf_cons_self, valuesOf_cons_self, filled_cons_iff, filled_cons_iff]
  rintro ⟨hopen, hread, hbehind⟩
  exact ⟨hopen, hsound.part field hpart hread, hbehind⟩

theorem default?_of_filled (hsound : vary.Sound read default?) {values : List Json}
    (hvalues : ∀ value ∈ values, vary.Default field value)
    (h : Filled read default? levels part field none values) :
    default? field = some (part field) := by
  cases h with
  | given hread => exact hsound.default?_eq (hvalues _ List.mem_cons_self) hread
  | absent hdefault => exact hdefault

theorem filled_of_default (hsound : vary.Sound read default?) {values : List Json}
    (honce : values.length ≤ 1) (hvalues : ∀ value ∈ values, vary.Default field value)
    (hdefault : default? field = some (part field)) :
    Filled read default? levels part field none values := by
  cases values with
  | nil => exact .absent hdefault
  | cons value rest =>
      obtain rfl : rest = [] := by simpa using honce
      exact .given (hsound.read_default (hvalues value List.mem_cons_self) hdefault)

theorem list (hsound : vary.Sound read default?) {items : List Json} {given rest : List κ}
    (hfields : vary.shape.fields = given ++ rest)
    (hgiven : List.Forall₂ (fun field item => valuesOf vary.shape members field = [item] ∨
      valuesOf vary.shape members field = [] ∧ vary.Default field item) given items)
    (hrest : ∀ field ∈ rest, ∀ value ∈ valuesOf vary.shape members field, vary.Default field value)
    (h : Fills vary.shape read default? levels part .empty members) :
    Presents vary.shape read default? levels part (.array items) := by
  refine .listed hfields (hgiven.imp fun field item hitem => ?_) fun field hfield => ?_
  · have hfilled := h.fields field
    obtain hvalue | ⟨habsent, hdefault⟩ := hitem
    · rw [hvalue, filled_cons_iff] at hfilled
      exact hfilled.2.1
    · rw [habsent, filled_nil_iff] at hfilled
      exact hsound.read_default hdefault hfilled
  · exact hsound.default?_of_filled (hrest field hfield) (h.fields field)

theorem inItem (hsound : vary.Sound read default?) {before behind : List Json} {other : Json}
    (hfield : vary.shape.fields[before.length]? = some field) (hpart : vary.Part field value other)
    (h : Presents vary.shape read default? levels part (.array (before ++ value :: behind))) :
    Presents vary.shape read default? levels part (.array (before ++ other :: behind)) := by
  obtain - | ⟨hfields, hgiven, hrest⟩ := h
  refine .listed hfields (forall₂_replace ?_ hgiven.flip).flip hrest
  intro found hfound hread
  rw [hfields, List.getElem?_append_left (List.getElem?_eq_some_iff.mp hfound).1, hfound] at hfield
  obtain rfl := Option.some.inj hfield
  exact hsound.part found hpart hread

/-- A change of the presentation leaves every part what it is. -/
theorem presents_change (hsound : vary.Sound read default?) {other : Json}
    (hchange : vary.Change value other)
    (h : Presents vary.shape read default? levels part value) :
    Presents vary.shape read default? levels part other := by
  -- The changes are shown at the first member; the order does not count.
  cases hchange with
  | inItem hfield hpart => exact hsound.inItem hfield hpart h
  | permute hperm =>
      obtain ⟨h⟩ := h
      exact .named (h.perm hperm)
  | addUnknown hname =>
      obtain ⟨h⟩ := h
      rw [← Fills.cons_unknown_iff hsound.field?_label hname] at h
      exact .named (h.perm List.perm_middle.symm)
  | addDefault habsent hvalue =>
      obtain ⟨h⟩ := h
      exact .named ((hsound.addDefault habsent hvalue h).perm List.perm_middle.symm)
  | dropDefault hvalue =>
      obtain ⟨h⟩ := h
      exact .named (hsound.dropDefault hvalue (h.perm List.perm_middle))
  | list hfields hgiven hrest =>
      obtain ⟨h⟩ := h
      exact hsound.list hfields hgiven hrest h
  | inMember hpart =>
      obtain ⟨h⟩ := h
      exact .named ((hsound.inMember hpart (h.perm List.perm_middle)).perm List.perm_middle.symm)

theorem presents_allDefault (hsound : vary.Sound read default?)
    (hdefault : ∀ field, default? field = some (part field)) (h : vary.AllDefault value) :
    Presents vary.shape read default? levels part value := by
  cases h with
  | named hnames honce hvalues =>
      refine .named ⟨hnames, fun field => ?_⟩
      exact hsound.filled_of_default (honce field) (hvalues field) (hdefault field)
  | listed hfields hvalues =>
      refine .listed hfields (hvalues.imp fun field item hitem => ?_) fun field _ => hdefault field
      exact hsound.read_default hitem (hdefault field)

/-- A reader that gives a record with exactly the parts that are presented. -/
theorem keeps {α : Type} {decode : Cursor → Reading α}
    {parts : α → (field : κ) → Value field} (hsound : vary.Sound read default?)
    (hdecode : ∀ {levels value result}, decode ⟨value, levels⟩ = .ok result ↔
      Presents vary.shape read default? levels (parts result) value) :
    Keeps decode vary.Change :=
  fun _ _ _ _ hchange hread => hdecode.mpr (hsound.presents_change hchange (hdecode.mp hread))

end Variation.Sound

end

end Protoscribe.Json
