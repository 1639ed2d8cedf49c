import Protoscribe.Proofs.Yaml.Scan
import Protoscribe.Yaml.Anchor

/-!
The compact text of a JSON object as a document of YAML. Where all texts are printable
and the names of members are short, the text gives the tokens of flow collections, and
these form a tree of the same shape, without anchors, tags or aliases.
-/

namespace Protoscribe

/-- A name of printable characters that is short enough to be a key. -/
def Yaml.IsName (name : String) : Prop :=
  Text.AllGraphic name ∧ name.length < 500

instance : DecidablePred Yaml.IsName := fun _ => inferInstanceAs (Decidable (_ ∧ _))

/-- The values made of printable texts and truth values, with names that can be keys. -/
inductive Json.Printed : Json → Prop
  | boolean (value : Bool) : Printed (.boolean value)
  | text {value : String} : Text.AllGraphic value → Printed (.text value)
  | array {items : List Json} : (∀ item ∈ items, Printed item) → Printed (.array items)
  | record {members : List (String × Json)} :
      (∀ member ∈ members, Yaml.IsName member.1) → (∀ member ∈ members, Printed member.2) →
      Printed (.record members)

namespace Yaml

open Decode Layout

/-! ### Scanning -/

/-- An indicator of flow collections stands in front. -/
def Stops (cs : List Char) : Prop :=
  ∃ stop others, cs = stop :: others ∧ flowIndicators.contains stop = true

/-- Inside of a flow collection and in front of an indicator, the value gives its tokens. -/
def Scans (value : Json) : Prop :=
  ∀ {l : Layout} {cs : List Char} {tokens : List Token} {depth : Nat}, Stops cs →
    l.At (value.chars ++ cs) tokens (depth + 1) →
    ∃ other, l.Reaches other ∧ other.At cs (tokens ++ tokensOf value) (depth + 1)

variable {l : Layout} {cs : List Char} {tokens : List Token} {depth : Nat}

theorem stops_itemChars (items : List Json) (cs : List Char) :
    Stops (Json.itemChars items ++ cs) := by
  cases items with
  | nil => exact ⟨']', _, by rw [Json.itemChars, List.cons_append], by decide⟩
  | cons item items => exact ⟨',', _, by rw [Json.itemChars]; rfl, by decide⟩

theorem stops_memberChars (members : List (Json.Text × Json)) (cs : List Char) :
    Stops (Json.memberChars members ++ cs) := by
  cases members with
  | nil => exact ⟨'\x7d', _, by rw [Json.memberChars, List.cons_append], by decide⟩
  | cons member members => exact ⟨',', _, by rw [Json.memberChars]; rfl, by decide⟩

theorem scans_boolean (value : Bool) : Scans (.boolean value) := by
  rintro l cs tokens depth ⟨stop, others, rfl, hstop⟩ h
  exact h.reaches_boolean value hstop

theorem scans_text {text : String} (htext : Text.AllGraphic text) :
    Scans (.text text) := by
  intro l cs tokens depth _ h
  rw [Json.text, Json.chars] at h
  obtain ⟨other, hother, hat, -⟩ := h.reaches_text htext
  exact ⟨other, hother, hat⟩

/-- Up to the closing bracket, an item and those behind it give their tokens. -/
theorem scans_items {item : Json} {items : List Json}
    (hitems : ∀ other ∈ item :: items, Scans other)
    (h : l.At (item.chars ++ (Json.itemChars items ++ cs)) tokens (depth + 1)) :
    ∃ other, l.Reaches other ∧
      other.At cs (tokens ++ (tokensOf item ++ itemTokens items)) depth := by
  induction items generalizing item l tokens with
  | nil =>
      obtain ⟨hitem, -⟩ := List.forall_mem_cons.mp hitems
      obtain ⟨first, hfirst, hat⟩ := hitem (stops_itemChars [] cs) h
      rw [Json.itemChars] at hat
      obtain ⟨second, hsecond, hat⟩ := hat.reaches_close (.inl ⟨rfl, rfl⟩)
      refine ⟨second, hfirst.trans hsecond, ?_⟩
      rw [itemTokens, ← List.append_assoc]
      exact hat
  | cons next items ih =>
      obtain ⟨hitem, hothers⟩ := List.forall_mem_cons.mp hitems
      obtain ⟨first, hfirst, hat⟩ := hitem (stops_itemChars (next :: items) cs) h
      rw [Json.itemChars, List.cons_append, List.cons_append, List.append_assoc] at hat
      obtain ⟨second, hsecond, hat, -⟩ := hat.reaches_comma
      obtain ⟨third, hthird, hat⟩ := ih hothers hat
      refine ⟨third, hfirst.trans (hsecond.trans hthird), ?_⟩
      rw [itemTokens]
      simpa using hat

theorem scans_array {items : List Json} (hitems : ∀ item ∈ items, Scans item)
    (h : l.At ((Json.array items).chars ++ cs) tokens depth) :
    ∃ other, l.Reaches other ∧ other.At cs (tokens ++ tokensOf (.array items)) depth := by
  cases items with
  | nil =>
      rw [Json.chars] at h
      obtain ⟨first, hfirst, hat, -⟩ := h.reaches_open (.inl ⟨rfl, rfl⟩)
      obtain ⟨second, hsecond, hat⟩ := hat.reaches_close (.inl ⟨rfl, rfl⟩)
      refine ⟨second, hfirst.trans hsecond, ?_⟩
      rw [tokensOf]
      simpa using hat
  | cons item items =>
      rw [Json.chars, List.cons_append, List.cons_append, List.append_assoc] at h
      obtain ⟨first, hfirst, hat, -⟩ := h.reaches_open (.inl ⟨rfl, rfl⟩)
      obtain ⟨second, hsecond, hat⟩ := scans_items hitems hat
      refine ⟨second, hfirst.trans hsecond, ?_⟩
      rw [tokensOf]
      simpa using hat

def membersOf (members : List (String × Json)) : List (Json.Text × Json) :=
  members.map fun member => (some member.1, member.2)

theorem record_eq (members : List (String × Json)) :
    Json.record members = .object (membersOf members) := rfl

theorem membersOf_nil : membersOf [] = [] := rfl

theorem membersOf_cons (member : String × Json) (members : List (String × Json)) :
    membersOf (member :: members) = (some member.1, member.2) :: membersOf members := rfl

/-- Where a key may start, a member and those behind it give their tokens. -/
theorem scans_members {member : String × Json} {members : List (String × Json)}
    (hmembers : ∀ other ∈ member :: members, IsName other.1 ∧ Scans other.2)
    (h : l.At (Json.textChars (some member.1) ++ ':' :: (member.2.chars ++
      (Json.memberChars (membersOf members) ++ cs))) tokens (depth + 1))
    (hallowed : l.keyAllowed = true) :
    ∃ other, l.Reaches other ∧
      other.At cs (tokens ++ .key :: .scalar member.1 .quoted :: .value ::
        (tokensOf member.2 ++ memberTokens (membersOf members))) depth := by
  induction members generalizing member l tokens with
  | nil =>
      obtain ⟨⟨hname, hvalue⟩, -⟩ := List.forall_mem_cons.mp hmembers
      obtain ⟨first, hfirst, hat⟩ := h.reaches_name hname.1 hname.2 hallowed
      obtain ⟨second, hsecond, hat⟩ := hvalue (stops_memberChars _ cs) hat
      rw [membersOf_nil, Json.memberChars] at hat
      obtain ⟨third, hthird, hat⟩ := hat.reaches_close (.inr ⟨rfl, rfl⟩)
      refine ⟨third, hfirst.trans (hsecond.trans hthird), ?_⟩
      rw [membersOf_nil, memberTokens]
      simpa using hat
  | cons next members ih =>
      obtain ⟨⟨hname, hvalue⟩, hothers⟩ := List.forall_mem_cons.mp hmembers
      obtain ⟨first, hfirst, hat⟩ := h.reaches_name hname.1 hname.2 hallowed
      obtain ⟨second, hsecond, hat⟩ := hvalue (stops_memberChars _ cs) hat
      rw [membersOf_cons, Json.memberChars] at hat
      simp only [List.cons_append, List.append_assoc] at hat
      obtain ⟨third, hthird, hat, hallowed⟩ := hat.reaches_comma
      obtain ⟨fourth, hfourth, hat⟩ := ih hothers hat hallowed
      refine ⟨fourth, hfirst.trans (hsecond.trans (hthird.trans hfourth)), ?_⟩
      rw [membersOf_cons, memberTokens]
      simpa using hat

theorem scans_record {members : List (String × Json)}
    (hmembers : ∀ member ∈ members, IsName member.1 ∧ Scans member.2)
    (h : l.At ((Json.record members).chars ++ cs) tokens depth) :
    ∃ other, l.Reaches other ∧ other.At cs (tokens ++ tokensOf (.record members)) depth := by
  rw [record_eq] at h ⊢
  cases members with
  | nil =>
      rw [membersOf_nil, Json.chars] at h
      obtain ⟨first, hfirst, hat, -⟩ := h.reaches_open (.inr ⟨rfl, rfl⟩)
      obtain ⟨second, hsecond, hat⟩ := hat.reaches_close (.inr ⟨rfl, rfl⟩)
      refine ⟨second, hfirst.trans hsecond, ?_⟩
      rw [membersOf_nil, tokensOf]
      simpa using hat
  | cons member members =>
      rw [membersOf_cons, Json.chars] at h
      simp only [List.cons_append, List.append_assoc] at h
      obtain ⟨first, hfirst, hat, hallowed⟩ := h.reaches_open (.inr ⟨rfl, rfl⟩)
      obtain ⟨second, hsecond, hat⟩ := scans_members hmembers hat hallowed
      refine ⟨second, hfirst.trans hsecond, ?_⟩
      rw [membersOf_cons, tokensOf]
      simpa using hat

theorem scans_of_printed {value : Json} (h : value.Printed) : Scans value := by
  induction h with
  | boolean value => exact scans_boolean value
  | text htext => exact scans_text htext
  | array _ ih => exact fun _ h => scans_array ih h
  | record hnames _ ih =>
      intro l cs tokens depth _ h
      exact scans_record (fun member hmember => ⟨hnames member hmember, ih member hmember⟩) h

/-- The whole text of an object gives its tokens. -/
theorem run_record {members : List (String × Json)}
    (hnames : ∀ member ∈ members, IsName member.1)
    (hvalues : ∀ member ∈ members, member.2.Printed) (ending : Glyph) :
    run ending ((row 0 (Json.record members).chars).length + 1) 0
        { rest := row 0 (Json.record members).chars } = tokensOf (.record members) := by
  have hstart : At { rest := row 0 (Json.record members).chars }
      ((Json.record members).chars ++ []) [] 0 := by
    rw [List.append_nil]
    exact ⟨⟨0, rfl⟩, rfl, rfl, rfl, rfl, rfl, by simp⟩
  have hmembers : ∀ member ∈ members, IsName member.1 ∧ Scans member.2 :=
    fun member hmember => ⟨hnames member hmember, scans_of_printed (hvalues member hmember)⟩
  obtain ⟨other, ⟨steps, hsteps, hrun⟩, hat⟩ := scans_record hmembers hstart
  -- Each step takes a glyph, so the fuel for all of them and one more is enough.
  obtain ⟨fuel, hfuel⟩ := Nat.exists_eq_add_of_le
    (show steps ≤ (row 0 (Json.record members).chars).length from Nat.le_of_add_right_le hsteps)
  have hend : fuel + 1 + steps = (row 0 (Json.record members).chars).length + 1 := by omega
  obtain ⟨later, hlater⟩ := hrun ending (fuel + 1) 0
  rw [← hend, hlater, hat.run_eq, List.nil_append]

/-! ### Forming the tree -/

mutual

/-- The tree of a value, without anchors, tags or aliases. -/
def nodeOf {ρ : Type} : Json → Node ρ
  | .null => .scalar none none "null" .plain
  | .boolean true => .scalar none none "true" .plain
  | .boolean false => .scalar none none "false" .plain
  | .number literal => .scalar none none (String.ofList literal.chars) .plain
  | .string text => .scalar none none (text.getD "") .quoted
  | .array items => .list none none (itemNodes items)
  | .object members => .mapping none none (memberNodes members)

def itemNodes {ρ : Type} : List Json → List (Node ρ)
  | [] => []
  | item :: items => nodeOf item :: itemNodes items

def memberNodes {ρ : Type} : List (Json.Text × Json) → List (Node ρ × Node ρ)
  | [] => []
  | (name, value) :: members =>
      (.scalar none none (name.getD "") .quoted, nodeOf value) :: memberNodes members

end

/-- The tokens of a value form its tree, whatever stands behind them, with fuel for two
calls for each of them. -/
def Forms (value : Json) : Prop :=
  ∀ (fuel : Nat) (stems : Stems) (setting : Setting) (rest : List Token),
    2 * (tokensOf value).length ≤ fuel →
    Grammar.node fuel stems setting (tokensOf value ++ rest) = .whole (nodeOf value) rest

def IsStart (token : Token) : Prop :=
  (∃ text style, token = .scalar text style) ∨ token = .openList ∨ token = .openMapping

/-- In front of a value stand no properties. -/
theorem node_of_isStart {token : Token} (h : IsStart token) (fuel : Nat) (stems : Stems)
    (setting : Setting) (rest : List Token) :
    Grammar.node (fuel + 1) stems setting (token :: rest) =
      Grammar.content fuel stems setting {} (token :: rest) := by
  rcases h with ⟨text, style, rfl⟩ | rfl | rfl
  all_goals
    rw [Grammar.node]
    · rfl
    · intro name others hsame
      cases hsame

theorem node_scalar (fuel : Nat) (stems : Stems) (setting : Setting) (text : String)
    (style : Style) (rest : List Token) :
    Grammar.node (fuel + 2) stems setting (.scalar text style :: rest) =
      .whole (.scalar none none text style) rest := by
  rw [node_of_isStart (.inl ⟨text, style, rfl⟩), Grammar.content]
  rfl

theorem node_openList (fuel : Nat) (stems : Stems) (setting : Setting) (rest : List Token) :
    Grammar.node (fuel + 2) stems setting (.openList :: rest) =
      (Grammar.listItems fuel stems true rest).map (.list none none) := by
  rw [node_of_isStart (.inr (.inl rfl)), Grammar.content]

theorem node_openMapping (fuel : Nat) (stems : Stems) (setting : Setting) (rest : List Token) :
    Grammar.node (fuel + 2) stems setting (.openMapping :: rest) =
      (Grammar.mappingPairs fuel stems true rest).map (.mapping none none) := by
  rw [node_of_isStart (.inr (.inr rfl)), Grammar.content]

theorem tokensOf_eq_cons (value : Json) :
    ∃ first others, tokensOf value = first :: others ∧ IsStart first := by
  cases value with
  | null => exact ⟨_, _, by rw [tokensOf], .inl ⟨_, _, rfl⟩⟩
  | boolean value => cases value <;> exact ⟨_, _, by rw [tokensOf], .inl ⟨_, _, rfl⟩⟩
  | number literal => exact ⟨_, _, by rw [tokensOf], .inl ⟨_, _, rfl⟩⟩
  | string text => exact ⟨_, _, by rw [tokensOf], .inl ⟨_, _, rfl⟩⟩
  | array items => cases items <;> exact ⟨_, _, by rw [tokensOf], .inr (.inl rfl)⟩
  | object members => cases members <;> exact ⟨_, _, by rw [tokensOf], .inr (.inr rfl)⟩

theorem IsStart.ne {token : Token} (h : IsStart token) :
    token ≠ .key ∧ token ≠ .value ∧ token ≠ .comma ∧ token ≠ .closeList ∧
      token ≠ .closeMapping := by
  rcases h with ⟨text, style, rfl⟩ | rfl | rfl <;> simp

theorem length_tokensOf_pos (value : Json) : 0 < (tokensOf value).length := by
  obtain ⟨first, others, htokens, -⟩ := tokensOf_eq_cons value
  rw [htokens, List.length_cons]
  exact Nat.succ_pos _

variable {fuel : Nat} {stems : Stems} {rest : List Token}

/-- A first item is no end of the list. -/
theorem listItems_first (item : Json) :
    Grammar.listItems (fuel + 1) stems true (tokensOf item ++ rest) =
        Grammar.listItem fuel stems (tokensOf item ++ rest) ∧
      Grammar.listItems (fuel + 1) stems false (.comma :: (tokensOf item ++ rest)) =
        Grammar.listItem fuel stems (tokensOf item ++ rest) := by
  obtain ⟨first, others, htokens, hstart⟩ := tokensOf_eq_cons item
  obtain ⟨-, -, -, hclose, -⟩ := hstart.ne
  rw [htokens, List.cons_append]
  constructor
  · rw [Grammar.listItems]
    intro others hsame
    exact hclose (List.cons.inj hsame).1
  · rw [Grammar.listItems]
    intro others hsame
    exact hclose (List.cons.inj hsame).1

theorem listItem_forms {item : Json} (hitem : Forms item)
    (hfuel : 2 * (tokensOf item).length ≤ fuel) :
    Grammar.listItem (fuel + 1) stems (tokensOf item ++ rest) =
      (Grammar.listItems fuel stems false rest).map (nodeOf item :: ·) := by
  have hnode := hitem fuel stems .flow rest hfuel
  obtain ⟨first, others, htokens, hstart⟩ := tokensOf_eq_cons item
  rw [htokens, List.cons_append] at hnode ⊢
  rw [Grammar.listItem, hnode]
  · rw [Scan.cons_whole]
  · intro others hsame
    exact hstart.ne.1 (List.cons.inj hsame).1

theorem forms_items {item : Json} {items : List Json}
    (hitems : ∀ other ∈ item :: items, Forms other)
    (hfuel : 2 * ((tokensOf item).length + (itemTokens items).length) ≤ fuel + 1) :
    Grammar.listItem fuel stems (tokensOf item ++ (itemTokens items ++ rest)) =
      .whole (itemNodes (item :: items)) rest := by
  induction items generalizing item fuel with
  | nil =>
      obtain ⟨hitem, -⟩ := List.forall_mem_cons.mp hitems
      have hpositive := length_tokensOf_pos item
      rw [itemTokens, List.length_singleton] at hfuel
      obtain ⟨fuel, rfl⟩ := Nat.exists_eq_add_of_le' (show 2 ≤ fuel by omega)
      rw [listItem_forms hitem (by omega), itemTokens, List.singleton_append, Grammar.listItems,
        itemNodes, itemNodes]
      rfl
  | cons next items ih =>
      obtain ⟨hitem, hothers⟩ := List.forall_mem_cons.mp hitems
      have hpositive := length_tokensOf_pos item
      rw [itemTokens, List.length_cons, List.length_append] at hfuel
      obtain ⟨fuel, rfl⟩ := Nat.exists_eq_add_of_le' (show 2 ≤ fuel by omega)
      rw [listItem_forms hitem (by omega), itemTokens, List.cons_append, List.append_assoc,
        (listItems_first next).2, ih hothers (by omega), itemNodes]
      rfl

theorem forms_array {items : List Json} (hitems : ∀ item ∈ items, Forms item) :
    Forms (.array items) := by
  intro fuel stems setting rest hfuel
  cases items with
  | nil =>
      rw [tokensOf] at hfuel ⊢
      simp only [List.length_cons, List.length_nil] at hfuel
      obtain ⟨fuel, rfl⟩ := Nat.exists_eq_add_of_le' (show 3 ≤ fuel by omega)
      rw [List.cons_append, List.singleton_append, node_openList, Grammar.listItems, nodeOf,
        itemNodes]
      rfl
  | cons item items =>
      have hpositive := length_tokensOf_pos item
      rw [tokensOf, List.length_cons, List.length_append] at hfuel
      obtain ⟨fuel, rfl⟩ := Nat.exists_eq_add_of_le' (show 3 ≤ fuel by omega)
      rw [tokensOf, List.cons_append, List.append_assoc, node_openList, (listItems_first item).1,
        forms_items hitems (by omega), nodeOf]
      rfl

theorem mappingPair_forms (name : String) {value : Json} (hvalue : Forms value)
    (hfuel : 2 * (tokensOf value).length ≤ fuel) :
    Grammar.mappingPair (fuel + 3) stems
        (.key :: .scalar name .quoted :: .value :: (tokensOf value ++ rest)) =
      (Grammar.mappingPairs (fuel + 2) stems false rest).map
        ((.scalar none none name .quoted, nodeOf value) :: ·) := by
  have hnode := hvalue fuel stems .flow rest hfuel
  obtain ⟨first, others, htokens, hstart⟩ := tokensOf_eq_cons value
  rw [htokens, List.length_cons] at hfuel
  obtain ⟨fuel, rfl⟩ := Nat.exists_eq_add_of_le' (show 2 ≤ fuel by omega)
  have hname : ∀ others, Grammar.nodeUnless (fuel + 4) stems .flow
      (Grammar.endsMappingItem (.scalar name .quoted :: others) ||
        decide ((Token.scalar name .quoted :: others).head? = some .value))
      (.scalar name .quoted :: others) = .whole (.scalar none none name .quoted) others := by
    intro others
    have hleft : (Grammar.endsMappingItem (.scalar name .quoted :: others) ||
        decide ((Token.scalar name .quoted :: others).head? = some .value)) = false := by
      simp [Grammar.endsMappingItem]
    rw [hleft, Grammar.nodeUnless, node_scalar]
  have hends : Grammar.endsMappingItem (first :: (others ++ rest)) = false := by
    rcases hstart with ⟨text, style, rfl⟩ | rfl | rfl <;> rfl
  rw [htokens, List.cons_append] at hnode ⊢
  have hshown : Grammar.flowValue (fuel + 4) stems Grammar.endsMappingItem
      (.value :: first :: (others ++ rest)) = .whole (nodeOf value) rest := by
    rw [Grammar.flowValue, hends, Grammar.nodeUnless, hnode]
  rw [Grammar.mappingPair]
  simp only [hname, hshown, Scan.pair_whole, Scan.map_whole, Scan.cons_whole]

theorem forms_members (stems : Stems) (rest : List Token) {member : String × Json}
    {members : List (String × Json)} (hmembers : ∀ other ∈ member :: members, Forms other.2)
    (hfuel : 2 * ((tokensOf member.2).length + (memberTokens (membersOf members)).length) < fuel) :
    Grammar.mappingPair fuel stems (.key :: .scalar member.1 .quoted :: .value ::
        (tokensOf member.2 ++ (memberTokens (membersOf members) ++ rest))) =
      .whole (memberNodes (membersOf (member :: members))) rest := by
  induction members generalizing member fuel with
  | nil =>
      obtain ⟨hvalue, -⟩ := List.forall_mem_cons.mp hmembers
      rw [membersOf_nil, memberTokens, List.length_singleton] at hfuel
      obtain ⟨fuel, rfl⟩ := Nat.exists_eq_add_of_le' (show 3 ≤ fuel by omega)
      rw [mappingPair_forms member.1 hvalue (by omega), membersOf_nil, memberTokens,
        List.singleton_append, Grammar.mappingPairs, membersOf_cons, memberNodes, membersOf_nil,
        memberNodes]
      rfl
  | cons next members ih =>
      obtain ⟨hvalue, hothers⟩ := List.forall_mem_cons.mp hmembers
      rw [membersOf_cons, memberTokens] at hfuel
      simp only [List.length_cons, List.length_append] at hfuel
      obtain ⟨fuel, rfl⟩ := Nat.exists_eq_add_of_le' (show 3 ≤ fuel by omega)
      have hread := ih hothers (show _ < fuel + 1 by omega)
      rw [mappingPair_forms member.1 hvalue (by omega), membersOf_cons next, memberTokens]
      simp only [List.cons_append, List.append_assoc, Option.getD_some]
      rw [Grammar.mappingPairs, hread, membersOf_cons member, memberNodes]
      · rfl
      · intro others hsame
        cases hsame

theorem forms_record {members : List (String × Json)}
    (hmembers : ∀ member ∈ members, Forms member.2) : Forms (.record members) := by
  intro fuel stems setting rest hfuel
  rw [record_eq] at hfuel ⊢
  cases members with
  | nil =>
      rw [membersOf_nil, tokensOf] at hfuel
      simp only [List.length_cons, List.length_nil] at hfuel
      obtain ⟨fuel, rfl⟩ := Nat.exists_eq_add_of_le' (show 3 ≤ fuel by omega)
      rw [membersOf_nil, tokensOf, List.cons_append, List.singleton_append, node_openMapping,
        Grammar.mappingPairs, nodeOf, memberNodes]
      rfl
  | cons member members =>
      rw [membersOf_cons, tokensOf] at hfuel
      simp only [List.length_cons, List.length_append] at hfuel
      obtain ⟨fuel, rfl⟩ := Nat.exists_eq_add_of_le' (show 3 ≤ fuel by omega)
      have hread := forms_members stems rest hmembers (show _ < fuel by omega)
      rw [nodeOf, membersOf_cons, tokensOf]
      simp only [List.cons_append, List.append_assoc, Option.getD_some]
      rw [node_openMapping, Grammar.mappingPairs, hread, membersOf_cons]
      · rfl
      · intro others hsame
        cases hsame

theorem forms_scalar {value : Json} {text : String} {style : Style}
    (htokens : tokensOf value = [.scalar text style])
    (hnode : (nodeOf value : Node String) = .scalar none none text style) : Forms value := by
  intro fuel stems setting rest hfuel
  rw [htokens, List.length_singleton] at hfuel
  obtain ⟨fuel, rfl⟩ := Nat.exists_eq_add_of_le' (show 2 ≤ fuel by omega)
  rw [htokens, hnode, List.singleton_append, node_scalar]

theorem forms_of_printed {value : Json} (h : value.Printed) : Forms value := by
  induction h with
  | boolean value =>
      cases value with
      | true => exact forms_scalar (by rw [tokensOf]) (by rw [nodeOf])
      | false => exact forms_scalar (by rw [tokensOf]) (by rw [nodeOf])
  | text => exact forms_scalar (by rw [Json.text, tokensOf]) (by rw [Json.text, nodeOf])
  | array _ ih => exact forms_array ih
  | record _ _ ih => exact forms_record ih

/-! ### Reading the document -/

/-- There are no anchors to be counted and no aliases to be settled. -/
def Settles (value : Json) : Prop := (nodeOf value : Node String).name = pure (nodeOf value)

theorem nameItems_eq {items : List Json} (hitems : ∀ item ∈ items, Settles item) :
    Node.nameItems (itemNodes items) = pure (itemNodes items) := by
  induction items with
  | nil => rw [itemNodes, itemNodes, Node.nameItems]
  | cons item items ih =>
      obtain ⟨hitem, hothers⟩ := List.forall_mem_cons.mp hitems
      rw [itemNodes, itemNodes, Node.nameItems, hitem, pure_bind, ih hothers, pure_bind]

theorem namePairs_eq {members : List (String × Json)}
    (hmembers : ∀ member ∈ members, Settles member.2) :
    Node.namePairs (memberNodes (membersOf members)) =
      pure (memberNodes (membersOf members)) := by
  induction members with
  | nil => rw [membersOf_nil, memberNodes, memberNodes, Node.namePairs]
  | cons member members ih =>
      obtain ⟨hvalue, hothers⟩ := List.forall_mem_cons.mp hmembers
      rw [membersOf_cons, memberNodes, memberNodes, Node.namePairs, Node.name, hvalue]
      simp only [Node.nameAnchor, pure_bind, ih hothers]

theorem settles_of_printed {value : Json} (h : value.Printed) : Settles value := by
  induction h with
  | boolean value => cases value <;> rw [Settles, nodeOf, nodeOf, Node.name] <;> rfl
  | text =>
      rw [Settles, Json.text, nodeOf, nodeOf, Node.name]
      rfl
  | array _ ih =>
      rw [Settles, nodeOf, nodeOf, Node.name, nameItems_eq ih]
      rfl
  | record _ _ ih =>
      rw [Settles, record_eq, nodeOf, nodeOf, Node.name, namePairs_eq ih]
      rfl

/-! Among the tokens of a value no alias is met. -/

mutual

theorem noAlias_tokensOf (value : Json) : ∀ name, Token.alias name ∉ tokensOf value := by
  intro name
  cases value with
  | null => simp [tokensOf]
  | boolean value => cases value <;> simp [tokensOf]
  | number literal => simp [tokensOf]
  | string text => simp [tokensOf]
  | array items =>
      cases items with
      | nil => simp [tokensOf]
      | cons item items =>
          simp [tokensOf, noAlias_tokensOf item name, noAlias_itemTokens items name]
  | object members =>
      cases members with
      | nil => simp [tokensOf]
      | cons member members =>
          obtain ⟨text, value⟩ := member
          simp [tokensOf, noAlias_tokensOf value name, noAlias_memberTokens members name]

theorem noAlias_itemTokens (items : List Json) :
    ∀ name, Token.alias name ∉ itemTokens items := by
  intro name
  cases items with
  | nil => simp [itemTokens]
  | cons item items =>
      simp [itemTokens, noAlias_tokensOf item name, noAlias_itemTokens items name]

theorem noAlias_memberTokens (members : List (Json.Text × Json)) :
    ∀ name, Token.alias name ∉ memberTokens members := by
  intro name
  cases members with
  | nil => simp [memberTokens]
  | cons member members =>
      obtain ⟨text, value⟩ := member
      simp [memberTokens, noAlias_tokensOf value name, noAlias_memberTokens members name]

end

/-- Without an alias none is a stray one. -/
theorem settleAliases_eq {names : List String} {tokens : List Token}
    (h : ∀ name, Token.alias name ∉ tokens) : settleAliases names tokens = tokens := by
  fun_induction settleAliases names tokens with
  | case1 => rfl
  | case2 names name rest ih => rw [ih fun other hother => h other (List.mem_cons_of_mem _ hother)]
  | case3 names name rest ih => exact absurd List.mem_cons_self (h name)
  | case4 names token rest hanchor halias ih =>
      rw [ih fun other hother => h other (List.mem_cons_of_mem _ hother)]

theorem settleAliases_tokensOf (value : Json) (names : List String) :
    settleAliases names (tokensOf value) = tokensOf value :=
  settleAliases_eq (noAlias_tokensOf value)

/-- What JSON puts around texts and values is printable. -/
theorem graphic_marks : ∀ c ∈ ['"', '\\', ',', ':', '[', ']', '\x7b', '\x7d'], Text.IsGraphic c := by
  decide

theorem graphic_escaped {cs : List Char} (h : ∀ c ∈ cs, Text.IsGraphic c) :
    ∀ c ∈ cs.flatMap Json.escapeChar, Text.IsGraphic c := by
  intro c hc
  obtain ⟨source, hsource, hc⟩ := List.mem_flatMap.mp hc
  have hslash : Text.IsGraphic '\\' := graphic_marks _ (by simp)
  rw [escapeChar_of_graphic (h source hsource)] at hc
  split at hc
  · simp only [List.mem_cons, List.not_mem_nil, or_false] at hc
    rcases hc with rfl | rfl
    · exact hslash
    · exact h c hsource
  · rw [List.mem_singleton.mp hc]
    exact h source hsource

theorem graphic_textChars {text : String} (h : Text.AllGraphic text) :
    ∀ c ∈ Json.textChars (some text), Text.IsGraphic c := by
  have hquote : Text.IsGraphic '"' := graphic_marks _ (by simp)
  rw [Json.textChars, List.forall_mem_append, List.forall_mem_cons, List.forall_mem_singleton]
  exact ⟨⟨hquote, graphic_escaped h⟩, hquote⟩

theorem graphic_itemChars {items : List Json}
    (hitems : ∀ item ∈ items, ∀ c ∈ item.chars, Text.IsGraphic c) :
    ∀ c ∈ Json.itemChars items, Text.IsGraphic c := by
  induction items with
  | nil =>
      rw [Json.itemChars, List.forall_mem_singleton]
      exact graphic_marks _ (by simp)
  | cons item items ih =>
      obtain ⟨hitem, hothers⟩ := List.forall_mem_cons.mp hitems
      rw [Json.itemChars, List.cons_append, List.forall_mem_cons, List.forall_mem_append]
      exact ⟨graphic_marks _ (by simp), hitem, ih hothers⟩

theorem graphic_memberChars {members : List (String × Json)}
    (hmembers : ∀ member ∈ members,
      IsName member.1 ∧ ∀ c ∈ member.2.chars, Text.IsGraphic c) :
    ∀ c ∈ Json.memberChars (membersOf members), Text.IsGraphic c := by
  induction members with
  | nil =>
      rw [membersOf_nil, Json.memberChars, List.forall_mem_singleton]
      exact graphic_marks _ (by simp)
  | cons member members ih =>
      obtain ⟨⟨hname, hvalue⟩, hothers⟩ := List.forall_mem_cons.mp hmembers
      rw [membersOf_cons, Json.memberChars]
      simp only [List.cons_append, List.append_assoc, List.forall_mem_append, List.forall_mem_cons]
      exact ⟨graphic_marks _ (by simp), graphic_textChars hname.1, graphic_marks _ (by simp), hvalue,
        ih hothers⟩

/-- The text of a printable value is printable. -/
theorem graphic_chars {value : Json} (h : value.Printed) : ∀ c ∈ value.chars, Text.IsGraphic c := by
  induction h with
  | boolean value =>
      cases value with
      | true =>
          rw [Json.chars]
          decide
      | false =>
          rw [Json.chars]
          decide
  | text htext =>
      rw [Json.text, Json.chars]
      exact graphic_textChars htext
  | @array items _ ih =>
      cases items with
      | nil =>
          rw [Json.chars, List.forall_mem_cons, List.forall_mem_singleton]
          exact ⟨graphic_marks _ (by simp), graphic_marks _ (by simp)⟩
      | cons item items =>
          obtain ⟨hitem, hothers⟩ := List.forall_mem_cons.mp ih
          rw [Json.chars, List.cons_append, List.forall_mem_cons, List.forall_mem_append]
          exact ⟨graphic_marks _ (by simp), hitem, graphic_itemChars hothers⟩
  | @record members hnames _ ih =>
      rw [record_eq]
      cases members with
      | nil =>
          rw [membersOf_nil, Json.chars, List.forall_mem_cons, List.forall_mem_singleton]
          exact ⟨graphic_marks _ (by simp), graphic_marks _ (by simp)⟩
      | cons member members =>
          obtain ⟨hname, hothers⟩ := List.forall_mem_cons.mp hnames
          obtain ⟨hvalue, hvalues⟩ := List.forall_mem_cons.mp ih
          have hrest := graphic_memberChars fun other hother =>
            ⟨hothers other hother, hvalues other hother⟩
          rw [membersOf_cons, Json.chars]
          simp only [List.cons_append, List.append_assoc, List.forall_mem_append,
            List.forall_mem_cons]
          exact ⟨graphic_marks _ (by simp), graphic_textChars hname.1, graphic_marks _ (by simp),
            hvalue, hrest⟩

theorem document_forms {value : Json} (h : Forms value)
    (hfuel : 2 * (tokensOf value).length ≤ fuel) :
    Grammar.document fuel (tokensOf value) = .ok (nodeOf value) := by
  have hnode := h fuel .standard .item [] hfuel
  obtain ⟨first, others, htokens, hstart⟩ := tokensOf_eq_cons value
  rw [List.append_nil, htokens] at hnode
  have hdocument : Grammar.document fuel (first :: others) =
      (Grammar.node fuel .standard .item (first :: others)).last (·.all (· = .documentEnd)) := by
    rcases hstart with ⟨text, style, rfl⟩ | rfl | rfl <;> rfl
  rw [htokens, hdocument, hnode]
  exact Scan.last_whole rfl

/-- The compact text of an object is a document that has the tree of the object. -/
theorem read?_compact {members : List (String × Json)}
    (hnames : ∀ member ∈ members, IsName member.1)
    (hvalues : ∀ member ∈ members, member.2.Printed) :
    Document.read? (Json.record members).compact =
      some (.ofRoot (nodeOf (.record members))) := by
  have h : (Json.record members).Printed := .record hnames hvalues
  have htext : (Json.record members).compact.toList = (Json.record members).chars := by
    rw [Json.compact, String.toList_ofList]
  have hgraphic : Text.AllGraphic (Json.record members).compact := by
    rw [Text.AllGraphic, htext]
    exact graphic_chars h
  have hglyphs := glyphs?_of_graphic hgraphic
  rw [htext] at hglyphs
  have htokens : Yaml.tokens (Json.record members).compact = tokensOf (.record members) := by
    rw [Yaml.tokens, hglyphs]
    exact run_record hnames hvalues _
  have hnode : Node.ofTokens (tokensOf (.record members)) = .ok (nodeOf (.record members)) :=
    document_forms (forms_of_printed h) (by omega)
  have hsettles : (nodeOf (.record members) : Node String).name = pure (nodeOf (.record members)) :=
    settles_of_printed h
  rw [Document.read?, Document.scan, htokens, settleAliases_tokensOf, hnode]
  simp only [Document.ofNode, hsettles]
  rfl

end Yaml

end Protoscribe
