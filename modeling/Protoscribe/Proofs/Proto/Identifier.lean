import Protoscribe.Proto.Identifier

/-!
The characters of valid names: every character of an identifier is a letter, a
digit or an underscore, and a dotted name has dots besides. The names that pass are
those that the grammar of names has.
-/

namespace Protoscribe.Proto

theorem isIdentifierChar_of_mem {cs : List Char} (h : isIdentifierChars cs = true) {c : Char}
    (hc : c ∈ cs) : isIdentifierChar c = true := by
  cases cs with
  | nil => cases hc
  | cons first rest =>
      obtain ⟨hfirst, hrest⟩ := Bool.and_eq_true_iff.mp h
      cases List.mem_cons.mp hc with
      | inl hsame =>
          subst hsame
          unfold isIdentifierStart at hfirst
          unfold isIdentifierChar
          cases hletter : isLetter c with
          | true => rfl
          | false =>
              rw [hletter, Bool.false_or] at hfirst
              rw [hfirst, Bool.or_true]
      | inr hlater => exact List.all_eq_true.mp hrest c hlater

/-- Each character is a dot or stands in one of the pieces. -/
theorem mem_splitDots {cs : List Char} {c : Char} (h : c ∈ cs) :
    c = '.' ∨ ∃ piece ∈ splitDots cs, c ∈ piece := by
  induction cs with
  | nil => cases h
  | cons first rest ih =>
      unfold splitDots
      by_cases hdot : first = '.'
      · rw [if_pos hdot]
        cases List.mem_cons.mp h with
        | inl hsame => exact .inl (hsame.trans hdot)
        | inr hlater =>
            obtain hc | ⟨piece, hpiece, hc⟩ := ih hlater
            · exact .inl hc
            · exact .inr ⟨piece, List.mem_cons_of_mem _ hpiece, hc⟩
      · rw [if_neg hdot]
        cases hpieces : splitDots rest with
        | nil =>
            rw [hpieces] at ih
            cases List.mem_cons.mp h with
            | inl hsame => exact .inr ⟨[first], List.mem_cons_self, hsame ▸ List.mem_cons_self⟩
            | inr hlater =>
                obtain hc | ⟨piece, hpiece, -⟩ := ih hlater
                · exact .inl hc
                · cases hpiece
        | cons piece pieces =>
            rw [hpieces] at ih
            cases List.mem_cons.mp h with
            | inl hsame =>
                exact .inr ⟨first :: piece, List.mem_cons_self, hsame ▸ List.mem_cons_self⟩
            | inr hlater =>
                obtain hc | ⟨found, hfound, hc⟩ := ih hlater
                · exact .inl hc
                · cases List.mem_cons.mp hfound with
                  | inl hsame =>
                      subst hsame
                      exact .inr ⟨first :: found, List.mem_cons_self, List.mem_cons_of_mem _ hc⟩
                  | inr hother => exact .inr ⟨found, List.mem_cons_of_mem _ hother, hc⟩

/-- An identifier with more such characters behind it is one. -/
theorem isIdentifier_append {name suffix : String} (hname : isIdentifier name = true)
    (hsuffix : suffix.toList.all isIdentifierChar = true) : isIdentifier (name ++ suffix) = true := by
  unfold isIdentifier at *
  rw [String.toList_append]
  cases hchars : name.toList with
  | nil =>
      rw [hchars] at hname
      cases hname
  | cons first rest =>
      rw [hchars] at hname
      obtain ⟨hfirst, hrest⟩ := Bool.and_eq_true_iff.mp hname
      rw [List.cons_append, isIdentifierChars, List.all_append, hfirst, hrest, hsuffix]
      rfl

/-- An identifier holds no other characters. -/
theorem not_mem_of_isIdentifier {name : String} (h : isIdentifier name = true) {c : Char}
    (hc : isIdentifierChar c = false) : c ∉ name.toList := by
  intro hin
  rw [isIdentifierChar_of_mem h hin] at hc
  cases hc

theorem not_mem_of_isQualified {name : String} (h : isQualified name = true) {c : Char}
    (hc : isIdentifierChar c = false) (hdot : c ≠ '.') : c ∉ name.toList := by
  intro hin
  obtain hsame | ⟨piece, hpiece, hin⟩ := mem_splitDots hin
  · exact hdot hsame
  · rw [isIdentifierChar_of_mem (List.all_eq_true.mp h piece hpiece) hin] at hc
    cases hc

theorem all_of_isIdentifier {name : String} (h : isIdentifier name = true) :
    name.toList.all isIdentifierChar = true :=
  List.all_eq_true.mpr fun _ hc => isIdentifierChar_of_mem h hc

/-- Without a dot the text is one piece. -/
theorem splitDots_of_not_mem {cs : List Char} (h : '.' ∉ cs) : splitDots cs = [cs] := by
  induction cs with
  | nil => rfl
  | cons c rest ih =>
      have hc : c ≠ '.' := fun e => h (e ▸ List.mem_cons_self)
      rw [splitDots, if_neg hc, ih fun hin => h (List.mem_cons_of_mem c hin)]

/-- A name without dots is a dotted name of one piece. -/
theorem isQualified_of_isIdentifier {name : String} (h : isIdentifier name = true) :
    isQualified name = true := by
  have hdot : '.' ∉ name.toList := not_mem_of_isIdentifier h rfl
  rw [isQualified, splitDots_of_not_mem hdot, List.all_cons, List.all_nil, Bool.and_true]
  exact h

/-! ### Names as the grammar has them -/

/-- A text of the form `[A-Za-z_][A-Za-z0-9_]*`. -/
def Word (text : String) : Prop :=
  ∃ first rest, text.toList = first :: rest ∧ (first.isAlpha = true ∨ first = '_') ∧
    ∀ c ∈ rest, c.isAlphanum = true ∨ c = '_'

/-- Words with a dot between each and the next, at least one. -/
def Dotted (text : String) : Prop :=
  ∃ words, words ≠ [] ∧ (∀ word ∈ words, Word word) ∧ text = ".".intercalate words

theorem isLetter_eq_isAlpha (c : Char) : isLetter c = c.isAlpha := by
  have halpha : c.isAlpha = (c.isUpper || c.isLower) := rfl
  have hupper : c.isUpper = decide ('A' ≤ c ∧ c ≤ 'Z') := rfl
  have hlower : c.isLower = (decide ('a' ≤ c) && decide (c ≤ 'z')) := rfl
  rw [halpha, hupper, hlower, Bool.decide_and, Bool.or_comm]
  rfl

theorem isIdentifierStart_iff {c : Char} :
    isIdentifierStart c = true ↔ c.isAlpha = true ∨ c = '_' := by
  simp [isIdentifierStart, isLetter_eq_isAlpha]

theorem isIdentifierChar_iff {c : Char} :
    isIdentifierChar c = true ↔ c.isAlphanum = true ∨ c = '_' := by
  simp [isIdentifierChar, isLetter_eq_isAlpha, isDigit, Char.isAlphanum, Char.isDigit, Char.le_def]

/-- The check of an identifier is what its grammar says. -/
theorem isIdentifier_iff_word {name : String} : isIdentifier name = true ↔ Word name := by
  unfold isIdentifier Word
  cases name.toList with
  | nil => simp [isIdentifierChars]
  | cons first rest =>
      simp only [isIdentifierChars, Bool.and_eq_true, List.all_eq_true, isIdentifierStart_iff,
        isIdentifierChar_iff, List.cons.injEq]
      constructor
      · rintro ⟨hfirst, hrest⟩
        exact ⟨first, rest, ⟨rfl, rfl⟩, hfirst, hrest⟩
      · rintro ⟨_, _, ⟨rfl, rfl⟩, hfirst, hrest⟩
        exact ⟨hfirst, hrest⟩

/-- Splitting at dots is the split of the library. -/
theorem splitDots_eq_splitOn (cs : List Char) : splitDots cs = cs.splitOn '.' := by
  rw [List.splitOn_eq_splitOnP]
  induction cs with
  | nil => rfl
  | cons c rest ih =>
      rw [splitDots, ih, List.splitOnP_cons_eq_if_modifyHead]
      by_cases hdot : c = '.'
      · simp [hdot]
      · have hne := List.splitOnP_ne_nil (fun d => d == '.') rest
        cases hpieces : rest.splitOnP (fun d => d == '.') with
        | nil => exact absurd hpieces hne
        | cons piece pieces => simp [hdot]

/-- The check of a qualified name is what its grammar says. -/
theorem isQualified_iff_dotted {name : String} : isQualified name = true ↔ Dotted name := by
  rw [isQualified, splitDots_eq_splitOn, List.all_eq_true]
  constructor
  · intro h
    refine ⟨(name.toList.splitOn '.').map String.ofList, ?_, ?_, ?_⟩
    · rw [Ne, List.map_eq_nil_iff]
      exact List.splitOn_ne_nil '.' name.toList
    · intro word hword
      obtain ⟨piece, hpiece, rfl⟩ := List.mem_map.mp hword
      rw [← isIdentifier_iff_word, isIdentifier, String.toList_ofList]
      exact h piece hpiece
    · apply String.toList_injective
      have hpieces : ((name.toList.splitOn '.').map String.ofList).map String.toList =
          name.toList.splitOn '.' := by
        simp [Function.comp_def]
      rw [String.toList_intercalate, hpieces]
      exact (List.intercalate_splitOn '.').symm
  · rintro ⟨words, hne, hwords, rfl⟩
    have hidentifiers : ∀ word ∈ words, isIdentifier word = true :=
      fun word hword => isIdentifier_iff_word.mpr (hwords word hword)
    have hnodot : ∀ piece ∈ words.map String.toList, '.' ∉ piece := by
      intro piece hpiece
      obtain ⟨word, hword, rfl⟩ := List.mem_map.mp hpiece
      exact not_mem_of_isIdentifier (hidentifiers word hword) rfl
    have hsplit : (".".intercalate words).toList.splitOn '.' = words.map String.toList := by
      rw [String.toList_intercalate]
      exact List.splitOn_intercalate '.' hnodot (by simpa using hne)
    intro piece hpiece
    rw [hsplit] at hpiece
    obtain ⟨word, hword, rfl⟩ := List.mem_map.mp hpiece
    exact hidentifiers word hword

end Protoscribe.Proto
