import Protoscribe.Json.Compact
import Protoscribe.Yaml.Plain
import Protoscribe.Yaml.Quoted

/-!
Printable text on one line. None of its characters is a break, so each glyph stands in
the column of its index, and no marker of a document can stand behind the first. Between
double quotes the escapes of JSON read back; a plain word ends in front of an indicator.
-/

namespace Protoscribe

namespace Text

/-- The characters of a list are tried one by one, and not all the characters there are. -/
instance (priority := 2000) decidableChars (property : Char → Prop) [DecidablePred property]
    (cs : List Char) : Decidable (∀ c ∈ cs, property c) :=
  cs.decidableBAll property

def IsGraphic (c : Char) : Prop := 0x20 ≤ c.toNat ∧ c.toNat ≤ 0x7E

instance : DecidablePred IsGraphic := fun _ => inferInstanceAs (Decidable (_ ∧ _))

def AllGraphic (text : String) : Prop := ∀ c ∈ text.toList, IsGraphic c

instance : DecidablePred AllGraphic := fun text => decidableChars IsGraphic text.toList

theorem IsGraphic.ne {c other : Char} (h : IsGraphic c)
    (hother : other.toNat < 0x20 ∨ 0x7E < other.toNat) : c ≠ other := by
  rintro rfl
  have hrange : 0x20 ≤ c.toNat ∧ c.toNat ≤ 0x7E := h
  omega

theorem IsGraphic.isAllowed {c : Char} (h : IsGraphic c) : Yaml.isAllowed c = true := by
  have hrange : 0x20 ≤ c.toNat ∧ c.toNat ≤ 0x7E := h
  simp only [Yaml.isAllowed, Bool.or_eq_true, Bool.and_eq_true, decide_eq_true_eq]
  omega

theorem IsGraphic.isBreak {c : Char} (h : IsGraphic c) : Yaml.isBreak c = false := by
  simp only [Yaml.isBreak, Bool.or_eq_false_iff, decide_eq_false_iff_not]
  exact ⟨⟨h.ne (by decide), h.ne (by decide)⟩, h.ne (by decide)⟩

end Text

namespace Yaml

open Text

/-- The glyphs of characters on the first line, the first of them in this column. -/
def row (start : Nat) : List Char → List Glyph
  | [] => []
  | c :: rest => ⟨c, start, 0, start⟩ :: row (start + 1) rest

theorem length_row (start : Nat) (cs : List Char) : (row start cs).length = cs.length := by
  induction cs generalizing start with
  | nil => rfl
  | cons c rest ih => rw [row, List.length_cons, ih, List.length_cons]

/-! ### Glyphs -/

theorem unifyBreaks_of_graphic {cs : List Char} (h : ∀ c ∈ cs, IsGraphic c) :
    unifyBreaks cs = cs := by
  induction cs with
  | nil => rfl
  | cons c rest ih =>
      obtain ⟨hc, hrest⟩ := List.forall_mem_cons.mp h
      have hreturn : c ≠ '\r' := hc.ne (by decide)
      have hcontrol : c ≠ '\x85' := hc.ne (by decide)
      rw [unifyBreaks, ih hrest]
      · simp [hreturn, hcontrol]
      · exact fun _ hsame _ => hreturn hsame

theorem placeFrom_of_graphic {cs : List Char} (h : ∀ c ∈ cs, IsGraphic c) (start : Nat) :
    Glyph.placeFrom start 0 start cs = row start cs := by
  induction cs generalizing start with
  | nil => rfl
  | cons c rest ih =>
      obtain ⟨hc, hrest⟩ := List.forall_mem_cons.mp h
      rw [Glyph.placeFrom, hc.isBreak, if_neg Bool.false_ne_true, ih hrest, row]

theorem glyphs?_of_graphic {document : String} (h : AllGraphic document) :
    glyphs? document = some (row 0 document.toList) := by
  have hallowed : document.toList.all isAllowed = true :=
    List.all_eq_true.mpr fun c hc => (h c hc).isAllowed
  rw [glyphs?]
  simp only [hallowed, if_true, unifyBreaks_of_graphic h]
  rw [← placeFrom_of_graphic h, Glyph.place]
  intro rest hmark
  have hfirst : '\uFEFF' ∈ document.toList := hmark ▸ List.mem_cons_self
  exact (h _ hfirst).ne (by decide) rfl

/-- Markers stand at the start of a line. -/
theorem atMarker_of_column {g : Glyph} (h : g.column ≠ 0) (rest : List Glyph) :
    atMarker (g :: rest) = false := by
  have hcolumn : (g.column == 0) = false := beq_eq_false_iff_ne.mpr h
  simp [atMarker, hcolumn]

/-! ### Double quotes -/

theorem escapeChar_of_graphic {c : Char} (h : IsGraphic c) :
    Json.escapeChar c = if c = '"' ∨ c = '\\' then ['\\', c] else [c] := by
  have hlow : ¬ c.toNat < 0x20 := Nat.not_lt.mpr h.1
  by_cases hquote : c = '"'
  · rw [hquote]
    rfl
  by_cases hslash : c = '\\'
  · rw [hslash]
    rfl
  have hcontrols : c ≠ '\x08' ∧ c ≠ '\x0c' ∧ c ≠ '\n' ∧ c ≠ '\r' ∧ c ≠ '\t' :=
    ⟨h.ne (by decide), h.ne (by decide), h.ne (by decide), h.ne (by decide), h.ne (by decide)⟩
  simp [Json.escapeChar, hquote, hslash, hcontrols, hlow]

theorem length_escapeChar_le {c : Char} (h : IsGraphic c) : (Json.escapeChar c).length ≤ 2 := by
  rw [escapeChar_of_graphic h]
  split <;> simp

theorem length_escaped_le {cs : List Char} (h : ∀ c ∈ cs, IsGraphic c) :
    (cs.flatMap Json.escapeChar).length ≤ 2 * cs.length := by
  induction cs with
  | nil => simp
  | cons c rest ih =>
      obtain ⟨hc, hrest⟩ := List.forall_mem_cons.mp h
      have hfirst := length_escapeChar_le hc
      have hothers := ih hrest
      rw [List.flatMap_cons, List.length_append, List.length_cons]
      omega

theorem named?_escaped {c : Char} (h : c = '"' ∨ c = '\\') :
    isBreak c = false ∧ DoubleState.named? c = some c := by
  rcases h with rfl | rfl <;> decide

/-- An escaped character inside quotes is taken behind the blanks in front of it. -/
theorem readDouble_escape {start : Nat} (hstart : start ≠ 0) {c : Char} (h : c = '"' ∨ c = '\\')
    (held : List Char) (rest : List Glyph) :
    readDouble (.within (.blanks held)) (⟨'\\', start, 0, start⟩ ::
        ⟨c, start + 1, 0, start + 1⟩ :: rest) =
      (readDouble .start rest).map fun read => (held ++ c :: read.1, read.2) := by
  obtain ⟨hbreak, hnamed⟩ := named?_escaped h
  have hescape : readDouble .escape (⟨c, start + 1, 0, start + 1⟩ :: rest) =
      (readDouble .start rest).map fun read => (c :: read.1, read.2) := by
    rw [readDouble, DoubleState.step, hbreak, hnamed]
    · change ((readDouble .start rest).bind fun read => some ([c] ++ read.1, read.2)) = _
      cases readDouble .start rest <;> rfl
    · intro gap hgap
      cases hgap
  rw [readDouble, atMarker_of_column hstart, DoubleState.step]
  change ((readDouble .escape _).bind fun read => some (held ++ read.1, read.2)) = _
  rw [hescape]
  cases readDouble .start rest <;> rfl

theorem readDouble_space {start : Nat} (hstart : start ≠ 0) (held : List Char)
    (rest : List Glyph) :
    readDouble (.within (.blanks held)) (⟨' ', start, 0, start⟩ :: rest) =
      readDouble (.within (.blanks (held ++ [' ']))) rest := by
  rw [readDouble, atMarker_of_column hstart]
  change ((readDouble (.within (.blanks (held ++ [' ']))) rest).bind fun read =>
    some (read.1, read.2)) = _
  cases readDouble (.within (.blanks (held ++ [' ']))) rest <;> rfl

theorem readDouble_char {start : Nat} (hstart : start ≠ 0) {c : Char} (h : IsGraphic c)
    (hquote : c ≠ '"') (hslash : c ≠ '\\') (hspace : c ≠ ' ') (held : List Char)
    (rest : List Glyph) :
    readDouble (.within (.blanks held)) (⟨c, start, 0, start⟩ :: rest) =
      (readDouble .start rest).map fun read => (held ++ c :: read.1, read.2) := by
  have htab : c ≠ '\t' := h.ne (by decide)
  have hblank : isBlank c = false := by simp [isBlank, hspace, htab]
  rw [readDouble, atMarker_of_column hstart, DoubleState.step]
  simp only [h.isBreak, hblank, hquote, hslash, Bool.false_eq_true, if_false, Gap.chars]
  change ((readDouble .start rest).bind fun read => some ((held ++ [c]) ++ read.1, read.2)) = _
  cases readDouble .start rest with
  | none => rfl
  | some read => simp

/-- What JSON writes between quotes is read as the text. -/
theorem readDouble_escaped {cs : List Char} (h : ∀ c ∈ cs, IsGraphic c) {start : Nat}
    (hstart : start ≠ 0) (held rest : List Char) :
    readDouble (.within (.blanks held)) (row start (cs.flatMap Json.escapeChar ++ '"' :: rest)) =
      some (held ++ cs, row (start + (cs.flatMap Json.escapeChar).length + 1) rest) := by
  induction cs generalizing start held with
  | nil =>
      rw [List.flatMap_nil, List.nil_append, row, readDouble, atMarker_of_column hstart,
        List.append_nil]
      rfl
  | cons c cs ih =>
      obtain ⟨hc, hcs⟩ := List.forall_mem_cons.mp h
      have hescape := escapeChar_of_graphic hc
      rw [List.flatMap_cons, List.append_assoc, List.length_append]
      by_cases hescaped : c = '"' ∨ c = '\\'
      · rw [if_pos hescaped] at hescape
        have hread := ih hcs (show start + 2 ≠ 0 by omega) []
        have hplace : start + (2 + (cs.flatMap Json.escapeChar).length) + 1 =
            start + 2 + (cs.flatMap Json.escapeChar).length + 1 := by omega
        rw [hescape, List.length_cons, List.length_singleton, hplace, List.cons_append,
          List.cons_append, List.nil_append, row, row, readDouble_escape hstart hescaped]
        change (readDouble (.within (.blanks [])) _).map _ = _
        rw [hread]
        rfl
      · rw [if_neg hescaped] at hescape
        have hplace : start + (1 + (cs.flatMap Json.escapeChar).length) + 1 =
            start + 1 + (cs.flatMap Json.escapeChar).length + 1 := by omega
        rw [hescape, List.length_singleton, hplace, List.cons_append, List.nil_append, row]
        rw [not_or] at hescaped
        by_cases hspace : c = ' '
        · subst hspace
          rw [readDouble_space hstart, ih hcs (by omega), List.append_assoc, List.singleton_append]
        · have hread := ih hcs (Nat.succ_ne_zero start) []
          rw [readDouble_char hstart hc hescaped.1 hescaped.2 hspace]
          change (readDouble (.within (.blanks [])) _).map _ = _
          rw [hread]
          rfl

/-! ### Plain words -/

/-- The character is part of a plain scalar wherever it stands. -/
def IsWordChar (c : Char) : Prop :=
  isBlank c = false ∧ isBreak c = false ∧ c ≠ ':' ∧ flowIndicators.contains c = false

instance : DecidablePred IsWordChar := fun _ =>
  inferInstanceAs (Decidable (_ ∧ _ ∧ _ ∧ _))

/-- A word goes on up to an indicator of a flow collection. -/
theorem readPlain_word {word : List Char} (h : ∀ c ∈ word, IsWordChar c) {stop : Char}
    (hstop : flowIndicators.contains stop = true) (start margin : Nat) (rest : List Char) :
    readPlain true margin .none (row start (word ++ stop :: rest)) =
      some ⟨word, row (start + word.length) (stop :: rest), false⟩ := by
  induction word generalizing start with
  | nil =>
      have hstops : ∀ c ∈ flowIndicators, isBlank c = false ∧ isBreak c = false ∧ c ≠ ':' := by
        decide
      obtain ⟨hblank, hbreak, hcolon⟩ := hstops stop (List.contains_iff_mem.mp hstop)
      rw [List.nil_append, row, readPlain]
      simp only [hblank, hbreak, hcolon, endsPlain, hstop]
      rfl
  | cons c word ih =>
      obtain ⟨⟨hblank, hbreak, hcolon, hindicator⟩, hword⟩ := List.forall_mem_cons.mp h
      have hplace : start + (c :: word).length = start + 1 + word.length := by
        rw [List.length_cons]
        omega
      rw [hplace, List.cons_append, row, readPlain]
      simp only [hblank, hbreak, hcolon, endsPlain, hindicator]
      rw [ih hword]
      rfl

end Yaml

end Protoscribe
