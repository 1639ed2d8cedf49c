import Protoscribe.Json.Compact
import Protoscribe.Json.Source

/-!
Compact text reads back. Inside a string each character is escaped by itself, so
that reading gives the characters one by one; a value is told by its first
character and ends where its text ends, whatever stands behind it. Blanks may
surround the whole.
-/

namespace Protoscribe.Json

open Decode

/-! ### Escapes -/

theorem hexValue?_hexDigit (n : Nat) : hexValue? (hexDigit n) = some (n % 16) := by
  have hdigits : ∀ digit < 16, hexValue? (Nat.digitChar digit) = some digit := by decide
  exact hdigits (n % 16) (Nat.mod_lt n (by decide))

/-- The four digits of a unit name it. -/
theorem unit?_hexDigits {n : Nat} (h : n < 0x10000) :
    unit? (hexDigit (n / 4096)) (hexDigit (n / 256)) (hexDigit (n / 16)) (hexDigit n) = some n := by
  simp only [unit?, hexValue?_hexDigit, Option.bind_eq_bind, Option.bind_some, Option.pure_def]
  congr 1
  omega

theorem readUnits_escapeChar (c : Char) (rest : List Char) :
    readUnits (escapeChar c ++ rest) =
      (readUnits rest).map fun read => (c.toNat :: read.1, read.2) := by
  have hletter : ∀ letter unit, letter ≠ 'u' → escaped? letter = some unit →
      readUnits ('\\' :: letter :: rest) =
        (readUnits rest).map fun read => (unit :: read.1, read.2) := by
    intro letter unit hne hunit
    rw [readUnits, hunit]
    · cases readUnits rest <;> rfl
    · intro _ _ _ _ _ he _
      exact hne he
  unfold escapeChar
  by_cases hquote : c = '"'
  · subst hquote
    exact hletter '"' _ (by decide) rfl
  by_cases hslash : c = '\\'
  · subst hslash
    exact hletter '\\' _ (by decide) rfl
  by_cases hb : c = '\x08'
  · subst hb
    exact hletter 'b' _ (by decide) rfl
  by_cases hf : c = '\x0c'
  · subst hf
    exact hletter 'f' _ (by decide) rfl
  by_cases hn : c = '\n'
  · subst hn
    exact hletter 'n' _ (by decide) rfl
  by_cases hr : c = '\r'
  · subst hr
    exact hletter 'r' _ (by decide) rfl
  by_cases ht : c = '\t'
  · subst ht
    exact hletter 't' _ (by decide) rfl
  simp only [hquote, hslash, hb, hf, hn, hr, ht, if_false]
  by_cases hlow : c.toNat < 0x20
  · rw [if_pos hlow]
    have hunit := unit?_hexDigits (show c.toNat < 0x10000 by omega)
    change readUnits ('\\' :: 'u' :: _ :: _ :: _ :: _ :: rest) = _
    rw [readUnits, hunit]
    cases readUnits rest <;> rfl
  · rw [if_neg hlow, List.singleton_append, readUnits]
    · simp only [hlow, hslash]
      cases readUnits rest <;> rfl
    · exact hquote
    · intro a b c d rest hc
      exact absurd hc hslash
    · intro c rest hc
      exact absurd hc hslash

/-- A character is no half of a surrogate pair. -/
theorem not_surrogate (c : Char) :
    isLeadSurrogate c.toNat = false ∧ isTrailSurrogate c.toNat = false := by
  have hvalid : c.toNat < 0xD800 ∨ 0xDFFF < c.toNat ∧ c.toNat < 0x110000 := c.valid
  simp only [isLeadSurrogate, isTrailSurrogate, Bool.and_eq_false_iff, decide_eq_false_iff_not]
  omega

theorem unitsText?_toNat (cs : List Char) : unitsText? (cs.map Char.toNat) = some cs := by
  induction cs with
  | nil => rfl
  | cons c rest ih =>
      obtain ⟨hlead, htrail⟩ := not_surrogate c
      unfold unitsText?
      simp only [List.map_cons, hlead, htrail, Bool.false_eq_true, if_false, ih, Option.map_some,
        Char.ofNat_toNat]

theorem readUnits_escaped (cs rest : List Char) :
    readUnits (cs.flatMap escapeChar ++ '"' :: rest) = some (cs.map Char.toNat, rest) := by
  induction cs with
  | nil => rfl
  | cons c others ih =>
      rw [List.flatMap_cons, List.append_assoc, readUnits_escapeChar, ih]
      rfl

/-- What is written between quotes reads back, whatever characters it holds. -/
theorem readText_escaped (text : String) (rest : List Char) :
    readText (text.toList.flatMap escapeChar ++ '"' :: rest) = some (some text, rest) := by
  simp only [readText, readUnits_escaped, Option.bind_eq_bind, Option.bind_some, unitsText?_toNat,
    Option.map_some, String.ofList_toList, Option.pure_def]

/-! ### Values -/

/-- The values made of texts and truth values, in lists and objects that nest no
deeper than this many levels. -/
inductive Worded : Nat → Json → Prop
  | boolean {levels : Nat} (value : Bool) : Worded levels (.boolean value)
  | text {levels : Nat} (value : String) : Worded levels (.text value)
  | array {levels : Nat} {items : List Json} :
      (∀ item ∈ items, Worded levels item) → Worded (levels + 1) (.array items)
  | record {levels : Nat} {members : List (String × Json)} :
      (∀ member ∈ members, Worded levels member.2) → Worded (levels + 1) (.record members)

theorem skipSpaces_cons {c : Char} (h : isSpace c = false) (rest : List Char) :
    skipSpaces (c :: rest) = c :: rest := by
  rw [skipSpaces, List.dropWhile_cons_of_neg (by simp [h])]

theorem skipSpaces_append {blanks : List Char} (h : ∀ c ∈ blanks, isSpace c = true)
    (rest : List Char) : skipSpaces (blanks ++ rest) = skipSpaces rest :=
  List.dropWhile_append_of_pos h

/-- A value starts at once, and with no bracket that would end a list. -/
theorem Worded.chars_eq_cons {levels : Nat} {value : Json} (h : value.Worded levels) :
    ∃ c rest, value.chars = c :: rest ∧ isSpace c = false ∧ c ≠ ']' := by
  cases h with
  | boolean value =>
      cases value with
      | true => exact ⟨'t', _, by rw [chars], by decide, by decide⟩
      | false => exact ⟨'f', _, by rw [chars], by decide, by decide⟩
  | text value =>
      exact ⟨'"', _, by rw [Json.text, chars, textChars, List.cons_append], by decide, by decide⟩
  | @array levels items hitems =>
      cases items with
      | nil => exact ⟨'[', _, by rw [chars], by decide, by decide⟩
      | cons item items => exact ⟨'[', _, by rw [chars, List.cons_append], by decide, by decide⟩
  | @record levels members hmembers =>
      cases members with
      | nil => exact ⟨'\x7b', _, by rw [Json.record, List.map_nil, chars], by decide, by decide⟩
      | cons member members =>
          exact ⟨'\x7b', _, by rw [Json.record, List.map_cons, chars, List.cons_append,
            List.cons_append], by decide, by decide⟩

/-! ### Reading a value back -/

/-- The value is read back from its text, whatever stands behind it, with fuel
for two calls for each of its characters. -/
def ReadsBack (value : Json) : Prop :=
  ∀ fuel rest, 2 * value.chars.length ≤ fuel →
    readValue fuel (value.chars ++ rest) = .whole value rest

theorem readItems_itemChars {item : Json} {items : List Json}
    (h : ∀ other ∈ item :: items, ReadsBack other) (fuel : Nat) (rest : List Char)
    (hfuel : 2 * (item.chars.length + (itemChars items).length) ≤ fuel) :
    readItems fuel (item.chars ++ (itemChars items ++ rest)) = .whole (item :: items) rest := by
  induction items generalizing item fuel with
  | nil =>
      obtain ⟨hitem, -⟩ := List.forall_mem_cons.mp h
      rw [itemChars, List.length_singleton] at hfuel
      obtain ⟨fuel, rfl⟩ := Nat.exists_eq_add_of_le' (show 1 ≤ fuel by omega)
      rw [readItems, hitem fuel _ (by omega), itemChars]
      rfl
  | cons next items ih =>
      obtain ⟨hitem, hothers⟩ := List.forall_mem_cons.mp h
      rw [itemChars, List.cons_append, List.length_cons, List.length_append] at hfuel
      obtain ⟨fuel, rfl⟩ := Nat.exists_eq_add_of_le' (show 1 ≤ fuel by omega)
      rw [readItems, hitem fuel _ (by omega), itemChars]
      have hnext := ih hothers fuel (by omega)
      simp only [List.cons_append, List.append_assoc, Scan.cons_whole, readOthers_comma, hnext,
        Scan.map_whole]

theorem textChars_append (text : String) (rest : List Char) :
    textChars (some text) ++ rest = '"' :: (text.toList.flatMap escapeChar ++ '"' :: rest) := by
  simp only [textChars, List.cons_append, List.append_assoc, List.nil_append]

/-- Up to the mark behind the first value, members read alike whatever comes next. -/
theorem readMembers_first {name : String} {value : Json} (h : ReadsBack value) {fuel : Nat}
    (hfuel : 2 * value.chars.length ≤ fuel) (rest : List Char) :
    readMembers (fuel + 1) (textChars (some name) ++ ':' :: (value.chars ++ rest)) =
      (readOthers '\x7d' unreadMember (readMembers fuel) rest).map ((some name, value) :: ·) := by
  rw [textChars_append, readMembers, readName, skipSpaces_cons (by decide)]
  simp only [readText_escaped]
  rw [assigned, skipSpaces_cons (by decide)]
  simp only [h fuel rest hfuel, Scan.map_whole, Scan.cons_whole]

theorem readMembers_memberChars {name : String} {value : Json} {members : List (String × Json)}
    (h : ∀ member ∈ (name, value) :: members, ReadsBack member.2) (fuel : Nat) (rest : List Char)
    (hfuel : 2 * (value.chars.length +
      (memberChars (members.map fun member => (some member.1, member.2))).length) ≤ fuel) :
    readMembers fuel (textChars (some name) ++ ':' :: (value.chars ++
        (memberChars (members.map fun member => (some member.1, member.2)) ++ rest))) =
      .whole (((name, value) :: members).map fun member => (some member.1, member.2)) rest := by
  induction members generalizing name value fuel with
  | nil =>
      have hvalue : ReadsBack value := h _ List.mem_cons_self
      rw [List.map_nil, memberChars, List.length_singleton] at hfuel
      obtain ⟨fuel, rfl⟩ := Nat.exists_eq_add_of_le' (show 1 ≤ fuel by omega)
      rw [readMembers_first hvalue (by omega), List.map_nil, memberChars]
      rfl
  | cons next members ih =>
      have hvalue : ReadsBack value := h _ List.mem_cons_self
      have hothers := (List.forall_mem_cons.mp h).2
      rw [List.map_cons, memberChars] at hfuel
      simp only [List.length_append, List.length_cons] at hfuel
      obtain ⟨fuel, rfl⟩ := Nat.exists_eq_add_of_le' (show 1 ≤ fuel by omega)
      have hnext := ih hothers fuel (by omega)
      rw [readMembers_first hvalue (by omega), List.map_cons, memberChars]
      simp only [List.cons_append, List.append_assoc, readOthers_comma, hnext, Scan.map_whole,
        List.map_cons]

/-- The text of a value is not empty, so there is fuel for a first call. -/
theorem Worded.readsBack_of_succ {levels : Nat} {value : Json} (h : value.Worded levels)
    (hread : ∀ fuel rest, 2 * value.chars.length ≤ fuel + 1 →
      readValue (fuel + 1) (value.chars ++ rest) = .whole value rest) : ReadsBack value := by
  intro fuel rest hfuel
  obtain ⟨c, others, hchars, -, -⟩ := h.chars_eq_cons
  have hlength : 0 < value.chars.length := by
    rw [hchars, List.length_cons]
    omega
  obtain ⟨fuel, rfl⟩ := Nat.exists_eq_add_of_le' (show 1 ≤ fuel by omega)
  exact hread fuel rest hfuel

theorem readValue_list (fuel : Nat) {c : Char} (hspace : isSpace c = false) (hbracket : c ≠ ']')
    (others : List Char) :
    readValue (fuel + 1) ('[' :: c :: others) =
      (readItems fuel (c :: others)).map .array := by
  rw [readValue, skipSpaces_cons (by decide)]
  simp only [skipSpaces_cons hspace]
  split
  · next heq => exact absurd (List.cons.inj heq).1 hbracket
  · rfl

theorem readValue_object (fuel : Nat) (others : List Char) :
    readValue (fuel + 1) ('\x7b' :: '"' :: others) =
      (readMembers fuel ('"' :: others)).map .object := by
  rw [readValue, skipSpaces_cons (by decide)]
  simp only [skipSpaces_cons (show isSpace '"' = false by decide)]
  split
  · next heq => exact absurd (List.cons.inj heq).1 (by decide)
  · rfl

theorem Worded.readsBack {levels : Nat} {value : Json} (h : value.Worded levels) :
    ReadsBack value := by
  induction h with
  | @boolean levels value =>
      refine (Worded.boolean value : Worded levels _).readsBack_of_succ fun fuel rest _ => ?_
      cases value with
      | true =>
          rw [chars]
          rfl
      | false =>
          rw [chars]
          rfl
  | @text levels value =>
      refine (Worded.text value : Worded levels _).readsBack_of_succ fun fuel rest _ => ?_
      rw [Json.text, chars, textChars_append, readValue, skipSpaces_cons (by decide)]
      simp only [readText_escaped]
      rfl
  | @array levels items hitems ih =>
      refine (Worded.array hitems).readsBack_of_succ fun fuel rest hfuel => ?_
      cases items with
      | nil =>
          rw [chars]
          rfl
      | cons item items =>
          rw [chars] at hfuel ⊢
          simp only [List.length_append, List.length_cons] at hfuel
          have hitem := hitems item List.mem_cons_self
          obtain ⟨c, others, hchars, hspace, hbracket⟩ := hitem.chars_eq_cons
          have hread := readItems_itemChars ih fuel rest (by omega)
          rw [hchars, List.cons_append] at hread ⊢
          rw [List.cons_append, List.cons_append, List.cons_append, List.append_assoc,
            readValue_list _ hspace hbracket, hread]
          rfl
  | @record levels members hmembers ih =>
      refine (Worded.record hmembers).readsBack_of_succ fun fuel rest hfuel => ?_
      cases members with
      | nil =>
          rw [Json.record, List.map_nil, chars]
          rfl
      | cons member members =>
          rw [Json.record, List.map_cons, chars] at hfuel ⊢
          simp only [List.length_append, List.length_cons] at hfuel
          have hread := readMembers_memberChars ih fuel rest (by omega)
          rw [textChars_append] at hread
          simp only [List.cons_append, List.append_assoc, textChars_append]
          rw [readValue_object, hread]
          rfl

/-- A value is read back from its compact text, with any blanks around it. -/
theorem Worded.scanChars_chars {levels : Nat} {value : Json} (h : value.Worded levels)
    {front behind : List Char} (hfront : ∀ c ∈ front, isSpace c = true)
    (hbehind : ∀ c ∈ behind, isSpace c = true) :
    scanChars (front ++ value.chars ++ behind) = .ok value := by
  have hskip : ∀ fuel cs, readValue (fuel + 1) (front ++ cs) = readValue (fuel + 1) cs := by
    intro fuel cs
    rw [readValue, readValue, skipSpaces_append hfront]
  have hend : skipSpaces behind = [] := by
    rw [← List.append_nil behind, skipSpaces_append hbehind]
    rfl
  have hread := h.readsBack (readingFuel (front ++ value.chars ++ behind)) behind (by
    simp only [readingFuel, List.length_append]
    omega)
  rw [readingFuel, ← hskip, ← List.append_assoc, ← readingFuel] at hread
  rw [scanChars, hread]
  exact Scan.last_whole (by rw [hend, List.isEmpty_nil])

theorem Worded.read?_compact {levels : Nat} {value : Json} (h : value.Worded levels) :
    read? value.compact = some value := by
  have hread : scanChars ([] ++ value.chars ++ []) = .ok value :=
    h.scanChars_chars (by simp) (by simp)
  rw [List.nil_append, List.append_nil] at hread
  rw [read?, scan, compact, String.toList_ofList, hread]
  rfl

/-! ### Fronts of arrays -/

/-- The texts of items, a comma behind each. -/
def frontChars (items : List Json) : List Char := items.flatMap fun item => item.chars ++ [',']

/-- Items in front of anything are read as they are. -/
theorem readItems_front {items : List Json} (h : ∀ item ∈ items, ReadsBack item) (fuel : Nat)
    (rest : List Char) (hfuel : 2 * (frontChars items).length ≤ fuel) :
    ∃ spare, readItems fuel (frontChars items ++ rest) =
      (readItems spare rest).map (items ++ ·) := by
  induction items generalizing fuel with
  | nil => exact ⟨fuel, by cases hread : readItems fuel rest <;> simp [frontChars, hread, Scan.map]⟩
  | cons item items ih =>
      obtain ⟨hitem, hothers⟩ := List.forall_mem_cons.mp h
      have hfront : frontChars (item :: items) = item.chars ++ ',' :: frontChars items := by
        simp [frontChars]
      rw [hfront, List.length_append, List.length_cons] at hfuel
      obtain ⟨fuel, rfl⟩ := Nat.exists_eq_add_of_le' (show 1 ≤ fuel by omega)
      obtain ⟨spare, hread⟩ := ih hothers fuel (by omega)
      refine ⟨spare, ?_⟩
      rw [hfront, List.append_assoc, readItems, hitem fuel _ (by omega), Scan.cons_whole,
        List.cons_append, readOthers_comma, hread]
      cases readItems spare rest <;> rfl

/-- Items that are read one by one fail as soon as those in front fail. -/
theorem readItemsFrom_append {α : Type} {read : Cursor → Reading α} {failure : Failure}
    {front : List Cursor} {position : Nat}
    (h : readItemsFrom read position front = .error failure) (behind : List Cursor) :
    readItemsFrom read position (front ++ behind) = .error failure := by
  induction front generalizing position with
  | nil => cases h
  | cons cursor front ih =>
      rw [List.cons_append]
      rw [readItemsFrom] at h ⊢
      cases hfirst : inside Cursor (.index position) (read cursor) with
      | error found =>
          rw [hfirst] at h
          exact h
      | ok first =>
          rw [hfirst] at h
          cases hothers : readItemsFrom read (position + 1) front with
          | error found =>
              rw [hothers] at h
              have hsame : found = failure := Except.error.inj h
              rw [ih (hsame ▸ hothers)]
              rfl
          | ok others =>
              rw [hothers] at h
              cases h

theorem readList_append {α : Type} {read : Cursor → Reading α} {failure : Failure}
    {front : List Json} (h : readList read (.root (.array front)) = .error failure)
    (behind : List Json) : readList read (.root (.array (front ++ behind))) = .error failure := by
  have hlist : ∀ items, readList read (.root (.array items)) =
      (readItemsFrom read 0 (items.map (⟨·, maxLevels - 1⟩))).mapError .locate := fun _ => rfl
  rw [hlist] at h ⊢
  cases hfront : readItemsFrom read 0 (front.map (⟨·, maxLevels - 1⟩)) with
  | error found =>
      rw [hfront] at h
      rw [List.map_append, readItemsFrom_append hfront]
      exact h
  | ok values =>
      rw [hfront] at h
      cases h

/-- A document that starts like an array is refused for the first of its items that does
not fit, whatever stands behind it: the fault comes before any break of the grammar. -/
theorem decode_front {α : Type} {read : Cursor → Reading α} {levels : Nat} {items : List Json}
    (hworded : ∀ item ∈ items, item.Worded levels) {failure : Failure}
    (hfail : readList read (.root (.array items)) = .error failure) (rest : List Char) :
    decode (readList read) (String.ofList ('[' :: (frontChars items ++ rest))) =
      .error (fault failure) := by
  cases items with
  | nil => cases hfail
  | cons item items =>
      have hback : ∀ other ∈ item :: items, ReadsBack other :=
        fun other hother => (hworded other hother).readsBack
      obtain ⟨c, others, hchars, hspace, hbracket⟩ :=
        (hworded item List.mem_cons_self).chars_eq_cons
      obtain ⟨spare, hread⟩ := readItems_front hback
        (2 * ('[' :: (frontChars (item :: items) ++ rest)).length + 1) rest (by
          rw [List.length_cons, List.length_append]
          omega)
      have hfront : frontChars (item :: items) ++ rest =
          c :: (others ++ ',' :: (frontChars items ++ rest)) := by
        simp [frontChars, hchars]
      have hheld : (readValue (readingFuel ('[' :: (frontChars (item :: items) ++ rest)))
          ('[' :: (frontChars (item :: items) ++ rest))).held =
            .array (item :: items ++ (readItems spare rest).held) := by
        rw [readingFuel, hfront, readValue_list _ hspace hbracket, ← hfront, hread, Scan.held_map,
          Scan.held_map]
      rw [decode, scan, scanChars, String.toList_ofList]
      refine readScanned_of_held ?_ _
      rw [hheld, readList_append hfail]
      rfl

/-- A text where a list is asked for, in front of a word that is no value. -/
example :
    (match decode (readList (Source.text : Cursor → Reading String)) "[\"a\", true, nul" with
      | .ok _ => "none"
      | .error fault => fault.message) = "invalid type: boolean `true`, expected a string" := by
  decide +kernel

end Protoscribe.Json
