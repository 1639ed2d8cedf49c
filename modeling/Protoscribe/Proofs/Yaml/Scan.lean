import Protoscribe.Proofs.Json.Reading
import Protoscribe.Proofs.Matching
import Protoscribe.Proofs.Yaml.Row
import Protoscribe.Yaml.Layout

/-!
Compact JSON as tokens of YAML. All of it stands inside flow collections, so that no
column matters, and every place where a key may have started can be left again. A name
in front of a colon is such a place, and it is short enough to be made a key.
-/

namespace Protoscribe.Yaml

mutual

/-- The tokens of the compact text of a value. -/
def tokensOf : Json → List Token
  | .null => [.scalar "null" .plain]
  | .boolean true => [.scalar "true" .plain]
  | .boolean false => [.scalar "false" .plain]
  | .number literal => [.scalar (String.ofList literal.chars) .plain]
  | .string text => [.scalar (text.getD "") .quoted]
  | .array [] => [.openList, .closeList]
  | .array (item :: items) => .openList :: (tokensOf item ++ itemTokens items)
  | .object [] => [.openMapping, .closeMapping]
  | .object ((name, value) :: members) =>
      .openMapping :: .key :: .scalar (name.getD "") .quoted :: .value ::
        (tokensOf value ++ memberTokens members)

/-- The tokens of items behind the first, and of the closing bracket. -/
def itemTokens : List Json → List Token
  | [] => [.closeList]
  | item :: items => .comma :: (tokensOf item ++ itemTokens items)

/-- The tokens of members behind the first, and of the closing brace. -/
def memberTokens : List (Json.Text × Json) → List Token
  | [] => [.closeMapping]
  | (name, value) :: members =>
      .comma :: .key :: .scalar (name.getD "") .quoted :: .value ::
        (tokensOf value ++ memberTokens members)

end

namespace Layout

variable {l : Layout} {c : Char} {cs : List Char} {tokens : List Token} {depth : Nat}

/-! ### Runs -/

/-- The run comes to another layout in at most as many steps as glyphs are taken,
however many tokens are handed on until then. -/
def Reaches (l other : Layout) : Prop :=
  ∃ steps, steps + other.rest.length ≤ l.rest.length ∧
    ∀ ending fuel ready, ∃ later, run ending (fuel + steps) ready l = run ending fuel later other

theorem Reaches.trans {middle other : Layout} (h : l.Reaches middle)
    (hother : middle.Reaches other) : l.Reaches other := by
  obtain ⟨first, hfirst, hrun⟩ := h
  obtain ⟨second, hsecond, hothers⟩ := hother
  refine ⟨second + first, by omega, fun ending fuel ready => ?_⟩
  obtain ⟨later, hlater⟩ := hrun ending (fuel + second) ready
  obtain ⟨last, hlast⟩ := hothers ending fuel later
  exact ⟨last, by rw [← Nat.add_assoc, hlater, hlast]⟩

/-- The layout in front of these characters and behind these tokens, inside of so many
flow collections. No candidate must become a key. -/
structure At (l : Layout) (cs : List Char) (tokens : List Token) (depth : Nat) : Prop where
  rest : ∃ start, l.rest = row start cs
  read : l.tokens = tokens.reverse
  count : l.count = tokens.length
  columns : l.columns = []
  depth : l.outer.length = depth
  candidate : l.candidate.any Candidate.required = false
  outer : ∀ candidate ∈ l.outer, candidate.any Candidate.required = false

theorem At.inFlow (h : l.At cs tokens (depth + 1)) : l.inFlow = true := by
  have hlength := h.depth
  rw [Layout.inFlow]
  cases houter : l.outer with
  | nil => simp [houter] at hlength
  | cons candidate outer => rfl

theorem At.advance (h : l.At cs tokens depth) (start : Nat) (others : List Char) :
    (l.advance (row start others)).At others tokens depth :=
  ⟨⟨start, rfl⟩, h.read, h.count, h.columns, h.depth, h.candidate, h.outer⟩

theorem At.emit (h : l.At cs tokens depth) (token : Token) :
    (l.emit token).At cs (tokens ++ [token]) depth where
  rest := h.rest
  read := by
    rw [List.reverse_append, Layout.emit, h.read]
    rfl
  count := by
    rw [List.length_append, Layout.emit, h.count]
    rfl
  columns := h.columns
  depth := h.depth
  candidate := h.candidate
  outer := h.outer

/-- Whether a key may start is told apart from where the layout is. -/
theorem At.allow (h : l.At cs tokens depth) (keyAllowed : Bool) :
    ({ l with keyAllowed := keyAllowed } : Layout).At cs tokens depth :=
  ⟨h.rest, h.read, h.count, h.columns, h.depth, h.candidate, h.outer⟩

theorem At.propose (h : l.At cs tokens depth) {candidate : Option Candidate}
    (hcandidate : candidate.any Candidate.required = false) :
    ({ l with candidate := candidate } : Layout).At cs tokens depth :=
  ⟨h.rest, h.read, h.count, h.columns, h.depth, hcandidate, h.outer⟩

/-! ### Candidates -/

theorem settle_of_free {candidate : Option Candidate}
    (h : candidate.any Candidate.required = false) : settle candidate = some none := by
  rw [settle, h]
  rfl

theorem At.dropCandidate_eq (h : l.At cs tokens depth) :
    l.dropCandidate = some { l with candidate := none } := by
  rw [dropCandidate, settle_of_free h.candidate]
  rfl

theorem At.saveCandidate_eq (h : l.At cs tokens depth) (g : Glyph) :
    l.saveCandidate g = some { l with
      candidate := if l.keyAllowed then some ⟨l.count, g, false⟩ else l.candidate } := by
  rw [Layout.saveCandidate]
  by_cases hallowed : l.keyAllowed = true
  · rw [if_pos hallowed, if_pos hallowed, h.dropCandidate_eq]
    simp [h.columns]
  · rw [if_neg hallowed, if_neg hallowed]

theorem At.saveCandidate (h : l.At cs tokens depth) (g : Glyph) :
    ∃ saved, l.saveCandidate g = some saved ∧ saved.At cs tokens depth ∧
      (l.keyAllowed = true → saved.candidate = some ⟨l.count, g, false⟩) ∧
      saved.inFlow = l.inFlow ∧ saved.margin = l.margin := by
  refine ⟨_, h.saveCandidate_eq g, h.propose ?_, ?_, rfl, rfl⟩
  · split
    · rfl
    · exact h.candidate
  · intro hallowed
    rw [hallowed]
    rfl

def refresh (g : Glyph) (candidate : Option Candidate) : Option Candidate :=
  if candidate.any (·.isStale g) then none else candidate

def refreshed (l : Layout) (g : Glyph) : Layout :=
  { l with candidate := refresh g l.candidate, outer := l.outer.map (refresh g) }

theorem refresh_free {candidate : Option Candidate} (h : candidate.any Candidate.required = false)
    (g : Glyph) : (refresh g candidate).any Candidate.required = false := by
  rw [refresh]
  split
  · rfl
  · exact h

theorem At.refreshed (h : l.At cs tokens depth) (g : Glyph) :
    (l.refreshed g).At cs tokens depth where
  rest := h.rest
  read := h.read
  count := h.count
  columns := h.columns
  depth := by rw [Layout.refreshed, List.length_map, h.depth]
  candidate := refresh_free h.candidate g
  outer := by
    intro candidate hcandidate
    obtain ⟨found, hfound, rfl⟩ := List.mem_map.mp hcandidate
    exact refresh_free (h.outer found hfound) g

theorem At.dropStale_eq (h : l.At cs tokens depth) (g : Glyph) :
    l.dropStale g = some (l.refreshed g) := by
  have hcheck : ∀ candidate : Option Candidate, candidate.any Candidate.required = false →
      (if candidate.any (·.isStale g) then settle candidate else some candidate) =
        some (refresh g candidate) := by
    intro candidate hfree
    rw [refresh, settle_of_free hfree]
    split <;> rfl
  have houter : l.outer.mapM (fun candidate =>
      if candidate.any (·.isStale g) then settle candidate else some candidate) =
        some (l.outer.map (refresh g)) :=
    mapM_eq_some_map fun candidate hcandidate => hcheck candidate (h.outer candidate hcandidate)
  simp only [dropStale, hcheck _ h.candidate, houter]
  rfl

/-- Without a key that must be there, some tokens are handed on. -/
theorem At.ready?_eq (h : l.At cs tokens depth) (g : Glyph) : ∃ ready, l.ready? g = some ready :=
  ⟨_, by rw [ready?, h.dropStale_eq]; rfl⟩

/-! ### One step -/

/-- The character is not passed over in front of a token. -/
def IsShown (c : Char) : Prop := c ≠ ' ' ∧ c ≠ '\t' ∧ c ≠ '#' ∧ isBreak c = false

instance : DecidablePred IsShown := fun _ => inferInstanceAs (Decidable (_ ∧ _ ∧ _ ∧ _))

theorem skip_eq {start : Nat} (hrest : l.rest = row start (c :: cs)) (hc : IsShown c) :
    l.skip = l := by
  obtain ⟨hspace, htab, hcomment, hbreak⟩ := hc
  have hskip : skipFrom l.inFlow false l.keyAllowed l.rest = (l.rest, l.keyAllowed) := by
    rw [hrest, row, skipFrom]
    simp [hbreak, hspace, htab, hcomment]
  rw [skip, hskip]

theorem At.unindentTo_eq (h : l.At cs tokens depth) (column : Nat) : l.unindentTo column = l := by
  rw [unindentTo, h.columns, closeColumns, ← h.columns, ite_self]

/-- A step is what the token does that stands next. -/
theorem At.reaches (h : l.At (c :: cs) tokens depth) (hc : IsShown c) {P : Layout → Prop}
    (htoken : ∀ start, l.rest = row start (c :: cs) →
      ∃ other, (l.refreshed ⟨c, start, 0, start⟩).token ⟨c, start, 0, start⟩ (row (start + 1) cs) =
        some other ∧ other.rest.length ≤ cs.length ∧ P other) :
    ∃ other, l.Reaches other ∧ P other := by
  obtain ⟨start, hrest⟩ := h.rest
  obtain ⟨other, hother, hlength, hP⟩ := htoken start hrest
  have hstep : l.step ⟨c, start, 0, start⟩ (row (start + 1) cs) = some other := by
    rw [step, h.dropStale_eq]
    simp only [Option.bind_eq_bind, Option.bind_some, (h.refreshed _).unindentTo_eq, hother]
  refine ⟨other, ⟨1, ?_, fun ending fuel ready => ?_⟩, hP⟩
  · rw [hrest, length_row, List.length_cons]
    omega
  · obtain ⟨later, hlater⟩ := h.ready?_eq (l.rest.head?.getD ending)
    refine ⟨later, ?_⟩
    rw [run, hlater, skip_eq hrest hc]
    simp only [hrest, row, hstep]

/-- At the end nothing is left open. -/
theorem At.finish_eq (h : l.At [] tokens depth) : l.finish = some tokens := by
  have hunindent : l.unindent = l := by
    rw [unindent, h.columns, closeColumns, ← h.columns, ite_self]
  have houter : l.outer.any (·.any Candidate.required) = false :=
    List.any_eq_false.mpr fun candidate hcandidate => by simp [h.outer candidate hcandidate]
  rw [finish, hunindent, h.dropCandidate_eq]
  simp only [Option.bind_eq_bind, Option.bind_some, houter, h.read, List.reverse_reverse]
  rfl

theorem At.run_eq (h : l.At [] tokens depth) (ending : Glyph) (fuel ready : Nat) :
    run ending (fuel + 1) ready l = tokens := by
  obtain ⟨start, hrest⟩ := h.rest
  obtain ⟨later, hlater⟩ := h.ready?_eq (l.rest.head?.getD ending)
  have hskip : l.skip = l := by
    rw [skip, hrest, row, skipFrom]
    rw [row] at hrest
    rw [← hrest]
  rw [run]
  simp only [hlater, hskip, h.finish_eq, Option.getD_some]
  rw [hrest, row]

theorem atMarker_of_char {g : Glyph} (hdash : g.char ≠ '-') (hdot : g.char ≠ '.')
    (rest : List Glyph) : atMarker (g :: rest) = false := by
  simp [atMarker, isTriple, hdash, hdot]

/-! ### Tokens of flow collections -/

theorem At.openFlow (h : l.At cs tokens depth) (g : Glyph) (token : Token) :
    ∃ opened, l.openFlow g token = some opened ∧ opened.At cs (tokens ++ [token]) (depth + 1) ∧
      opened.keyAllowed = true := by
  obtain ⟨saved, hsaved, hat, -⟩ := h.saveCandidate g
  have hemitted := hat.emit token
  have hopen : l.openFlow g token = some { saved.emit token with
      candidate := none, outer := saved.candidate :: saved.outer, keyAllowed := true } := by
    rw [Layout.openFlow, hsaved]
    rfl
  refine ⟨_, hopen, ⟨hemitted.rest, hemitted.read, hemitted.count, hemitted.columns, ?_, rfl, ?_⟩,
    rfl⟩
  · rw [List.length_cons, hat.depth]
  · exact List.forall_mem_cons.mpr ⟨hat.candidate, hat.outer⟩

theorem At.closeFlow (h : l.At cs tokens (depth + 1)) (token : Token) :
    ∃ closed, l.closeFlow token = some closed ∧ closed.At cs (tokens ++ [token]) depth := by
  have hemitted := h.emit token
  have hdepth := h.depth
  cases houter : l.outer with
  | nil => simp [houter] at hdepth
  | cons candidate outer =>
      obtain ⟨hfirst, hothers⟩ := List.forall_mem_cons.mp (houter ▸ h.outer)
      have hclose : l.closeFlow token =
          some { l.emit token with candidate, outer, keyAllowed := false } := by
        rw [Layout.closeFlow, h.dropCandidate_eq]
        simp only [Option.bind_eq_bind, Option.bind_some, houter]
        rfl
      refine ⟨_, hclose, ⟨hemitted.rest, hemitted.read, hemitted.count, hemitted.columns, ?_,
        hfirst, hothers⟩⟩
      rw [houter, List.length_cons] at hdepth
      exact Nat.succ.inj hdepth

theorem At.separate (h : l.At cs tokens depth) :
    ∃ separated, l.separate = some separated ∧ separated.At cs (tokens ++ [.comma]) depth ∧
      separated.keyAllowed = true := by
  have hseparate : l.separate =
      some { ({ l with candidate := none } : Layout).emit .comma with keyAllowed := true } := by
    rw [Layout.separate, h.dropCandidate_eq]
    rfl
  exact ⟨_, hseparate, ((h.propose rfl).emit .comma).allow true, rfl⟩

theorem At.valueToken (h : l.At cs tokens depth) (g : Glyph) (token : Token) (start : Nat)
    (others : List Char) :
    ∃ found, l.valueToken g (some (token, row start others)) = some found ∧
      found.At others (tokens ++ [token]) depth ∧ found.rest = row start others ∧
      (l.keyAllowed = true → found.candidate = some ⟨tokens.length, g, false⟩) := by
  obtain ⟨saved, hsaved, hat, hcandidate, -⟩ := h.saveCandidate g
  have hvalue : l.valueToken g (some (token, row start others)) =
      some { (saved.emit token).advance (row start others) with keyAllowed := false } := by
    rw [Layout.valueToken, hsaved]
    rfl
  rw [h.count] at hcandidate
  exact ⟨_, hvalue, ((hat.emit token).advance start others).allow false, rfl, hcandidate⟩

/-- A plain scalar is one word up to the next indicator. -/
theorem At.plainScalar (h : l.At cs tokens (depth + 1)) (g : Glyph) {word : List Char}
    (hword : ∀ c ∈ word, IsWordChar c) {stop : Char} (hstop : flowIndicators.contains stop = true)
    (start : Nat) (others : List Char) :
    ∃ found, l.plainScalar g (row start (word ++ stop :: others)) = some found ∧
      found.At (stop :: others) (tokens ++ [.scalar (String.ofList word) .plain]) (depth + 1) := by
  obtain ⟨saved, hsaved, hat, -, hflow, hmargin⟩ := h.saveCandidate g
  have hplain : l.plainScalar g (row start (word ++ stop :: others)) =
      some { (saved.emit (.scalar (String.ofList word) .plain)).advance
        (row (start + word.length) (stop :: others)) with keyAllowed := false } := by
    rw [Layout.plainScalar, hsaved]
    simp only [Option.bind_eq_bind, Option.bind_some, hat.inFlow, readPlain_word hword hstop]
    rfl
  exact ⟨_, hplain, ((hat.emit _).advance _ _).allow false⟩

/-- The colon behind a candidate puts the key in front of it. -/
theorem At.colon {name : Token} (h : l.At cs (tokens ++ [name]) (depth + 1)) (g place : Glyph)
    (hcandidate : l.candidate = some ⟨tokens.length, place, false⟩) :
    ∃ keyed, l.colon g = some keyed ∧ keyed.At cs (tokens ++ [.key, name, .value]) (depth + 1) := by
  have hread := h.read
  have hcount := h.count
  rw [List.reverse_append, List.reverse_singleton, List.singleton_append] at hread
  rw [List.length_append, List.length_singleton] at hcount
  have hcolon : l.colon g = some { (l.emitAt tokens.length .key).emit .value with
      candidate := none, keyAllowed := false } := by
    have hflow : (l.emitAt tokens.length .key).inFlow = true := h.inFlow
    simp only [Layout.colon, hcandidate, indentTo, hflow]
    rfl
  refine ⟨_, hcolon, ⟨h.rest, ?_, ?_, h.columns, h.depth, rfl, h.outer⟩⟩
  · simp only [emitAt, hread, hcount, Nat.add_sub_cancel_left, List.reverse_append]
    rfl
  · simp only [emitAt, hcount, List.length_append]
    rfl

/-! ### Steps inside of flow collections -/

theorem At.length_rest (h : l.At cs tokens depth) : l.rest.length = cs.length := by
  obtain ⟨start, hrest⟩ := h.rest
  rw [hrest, length_row]

def Opens (c : Char) (token : Token) : Prop :=
  c = '[' ∧ token = .openList ∨ c = '\x7b' ∧ token = .openMapping

def Closes (c : Char) (token : Token) : Prop :=
  c = ']' ∧ token = .closeList ∨ c = '\x7d' ∧ token = .closeMapping

theorem At.reaches_open {bracket : Token} (h : l.At (c :: cs) tokens depth) (hc : Opens c bracket) :
    ∃ other, l.Reaches other ∧ other.At cs (tokens ++ [bracket]) (depth + 1) ∧
      other.keyAllowed = true := by
  have hshown : IsShown c := by rcases hc with ⟨rfl, -⟩ | ⟨rfl, -⟩ <;> decide
  refine h.reaches hshown fun start _ => ?_
  obtain ⟨other, hother, hat, hallowed⟩ :=
    ((h.refreshed ⟨c, start, 0, start⟩).advance (start + 1) cs).openFlow
      ⟨c, start, 0, start⟩ bracket
  refine ⟨other, ?_, Nat.le_of_eq hat.length_rest, hat, hallowed⟩
  rcases hc with ⟨rfl, rfl⟩ | ⟨rfl, rfl⟩ <;> simpa [token, atMarker_of_char] using hother

theorem At.reaches_close {bracket : Token} (h : l.At (c :: cs) tokens (depth + 1))
    (hc : Closes c bracket) :
    ∃ other, l.Reaches other ∧ other.At cs (tokens ++ [bracket]) depth := by
  have hshown : IsShown c := by rcases hc with ⟨rfl, -⟩ | ⟨rfl, -⟩ <;> decide
  refine h.reaches hshown fun start _ => ?_
  obtain ⟨other, hother, hat⟩ :=
    ((h.refreshed ⟨c, start, 0, start⟩).advance (start + 1) cs).closeFlow bracket
  refine ⟨other, ?_, Nat.le_of_eq hat.length_rest, hat⟩
  rcases hc with ⟨rfl, rfl⟩ | ⟨rfl, rfl⟩ <;> simpa [token, atMarker_of_char] using hother

theorem At.reaches_comma (h : l.At (',' :: cs) tokens depth) :
    ∃ other, l.Reaches other ∧ other.At cs (tokens ++ [.comma]) depth ∧
      other.keyAllowed = true := by
  refine h.reaches (by decide) fun start _ => ?_
  obtain ⟨other, hother, hat, hallowed⟩ :=
    ((h.refreshed ⟨',', start, 0, start⟩).advance (start + 1) cs).separate
  refine ⟨other, ?_, Nat.le_of_eq hat.length_rest, hat, hallowed⟩
  simpa [token, atMarker_of_char] using hother

theorem token_letter {c : Char} (hc : c = 't' ∨ c = 'f') (start : Nat) (rest : List Glyph) :
    l.token ⟨c, start, 0, start⟩ rest =
      (l.advance rest).plainScalar ⟨c, start, 0, start⟩ (⟨c, start, 0, start⟩ :: rest) := by
  have hmarker : atMarker (⟨c, start, 0, start⟩ :: rest) = false := by
    have hchar : c ≠ '-' ∧ c ≠ '.' := by rcases hc with rfl | rfl <;> decide
    exact atMarker_of_char hchar.1 hchar.2 rest
  have hdirective : ¬ (decide (start = 0) && decide (c = '%')) = true := by
    rcases hc with rfl | rfl <;> simp
  rw [token, hmarker, if_neg hdirective, if_neg Bool.false_ne_true]
  rcases hc with rfl | rfl <;> rfl

/-- A truth value in front of an indicator. -/
theorem At.reaches_boolean (value : Bool) {stop : Char} {others : List Char}
    (hstop : flowIndicators.contains stop = true)
    (h : l.At ((Json.boolean value).chars ++ stop :: others) tokens (depth + 1)) :
    ∃ other, l.Reaches other ∧
      other.At (stop :: others) (tokens ++ tokensOf (.boolean value)) (depth + 1) := by
  have hletters : ∃ c word, (Json.boolean value).chars = c :: word ∧ (c = 't' ∨ c = 'f') ∧
      (∀ other ∈ c :: word, IsWordChar other) ∧
      tokensOf (.boolean value) = [.scalar (String.ofList (c :: word)) .plain] := by
    cases value with
    | true => exact ⟨'t', _, by rw [Json.chars], .inl rfl, by decide, by rw [tokensOf]⟩
    | false => exact ⟨'f', _, by rw [Json.chars], .inr rfl, by decide, by rw [tokensOf]⟩
  obtain ⟨c, word, hchars, hc, hword, htokens⟩ := hletters
  rw [hchars, List.cons_append] at h
  rw [htokens]
  have hshown : IsShown c := by rcases hc with rfl | rfl <;> decide
  refine h.reaches hshown fun start _ => ?_
  obtain ⟨other, hother, hat⟩ :=
    ((h.refreshed ⟨c, start, 0, start⟩).advance (start + 1) (word ++ stop :: others)).plainScalar
      ⟨c, start, 0, start⟩ hword hstop start others
  rw [List.cons_append, row] at hother
  refine ⟨other, by rw [token_letter hc, hother], ?_, hat⟩
  rw [hat.length_rest, List.length_append]
  omega

/-- A text between quotes; a key may have started in front of it. -/
theorem At.reaches_text {text : String} (htext : Text.AllGraphic text)
    (h : l.At (Json.textChars (some text) ++ cs) tokens depth) :
    ∃ other, l.Reaches other ∧ other.At cs (tokens ++ [.scalar text .quoted]) depth ∧
      ∃ start, other.rest = row (start + 1 + (text.toList.flatMap Json.escapeChar).length + 1) cs ∧
        (l.keyAllowed = true → other.candidate =
          some ⟨tokens.length, ⟨'"', start, 0, start⟩, false⟩) := by
  rw [Json.textChars_append] at h
  refine h.reaches (by decide) fun start _ => ?_
  have hread : readDouble .start (row (start + 1)
      (text.toList.flatMap Json.escapeChar ++ '"' :: cs)) =
        some (text.toList, row (start + 1 + (text.toList.flatMap Json.escapeChar).length + 1) cs) :=
    readDouble_escaped htext (Nat.succ_ne_zero start) [] cs
  obtain ⟨other, hother, hat, hrest, hcandidate⟩ :=
    ((h.refreshed ⟨'"', start, 0, start⟩).advance (start + 1)
      (text.toList.flatMap Json.escapeChar ++ '"' :: cs)).valueToken ⟨'"', start, 0, start⟩
        (.scalar text .quoted) (start + 1 + (text.toList.flatMap Json.escapeChar).length + 1) cs
  refine ⟨other, ?_, ?_, hat, start, hrest, hcandidate⟩
  · simpa [token, atMarker_of_char, hread, scalarToken] using hother
  · rw [hat.length_rest, List.length_append, List.length_cons]
    omega

/-- On one line a candidate can be made a key as long as the key is not too long. -/
theorem refresh_near {candidate : Candidate} {g : Glyph} (hline : candidate.glyph.line = g.line)
    (hnear : g.index ≤ candidate.glyph.index + maxKeyLength) :
    refresh g (some candidate) = some candidate := by
  have hfresh : candidate.isStale g = false := by
    simp [Candidate.isStale, hline, hnear]
  rw [refresh, Option.any_some, hfresh, if_neg Bool.false_ne_true]

/-- A colon behind a candidate that is near enough makes the key. -/
theorem At.reaches_colon {name : Token} {place index : Nat}
    (h : l.At (':' :: cs) (tokens ++ [name]) (depth + 1))
    (hrest : l.rest = row index (':' :: cs))
    (hcandidate : l.candidate = some ⟨tokens.length, ⟨'"', place, 0, place⟩, false⟩)
    (hnear : index ≤ place + maxKeyLength) :
    ∃ other, l.Reaches other ∧
      other.At cs (tokens ++ [.key, name, .value]) (depth + 1) := by
  refine h.reaches (by decide) fun start hstart => ?_
  have hsame : start = index := by
    rw [hrest, row, row] at hstart
    cases hstart
    rfl
  have hkept : (l.refreshed ⟨':', start, 0, start⟩).candidate =
      some ⟨tokens.length, ⟨'"', place, 0, place⟩, false⟩ := by
    rw [Layout.refreshed, hcandidate, hsame]
    exact refresh_near rfl hnear
  have hat := h.refreshed ⟨':', start, 0, start⟩
  obtain ⟨other, hother, hkeyed⟩ :=
    (hat.advance (start + 1) cs).colon ⟨':', start, 0, start⟩ _ hkept
  refine ⟨other, ?_, Nat.le_of_eq hkeyed.length_rest, hkeyed⟩
  simpa [token, atMarker_of_char, hat.inFlow] using hother

/-- The name of a member and the colon behind it. -/
theorem At.reaches_name {name : String} (hname : Text.AllGraphic name)
    (hlength : name.length < 500)
    (h : l.At (Json.textChars (some name) ++ ':' :: cs) tokens (depth + 1))
    (hallowed : l.keyAllowed = true) :
    ∃ other, l.Reaches other ∧
      other.At cs (tokens ++ [.key, .scalar name .quoted, .value]) (depth + 1) := by
  obtain ⟨named, hnamed, hat, start, hrest, hcandidate⟩ := h.reaches_text hname
  -- No escape takes more than two columns, so the colon is near enough to the first quote.
  have hescaped := length_escaped_le hname
  rw [String.length_toList] at hescaped
  have hnear : start + 1 + (name.toList.flatMap Json.escapeChar).length + 1 ≤
      start + maxKeyLength := by
    rw [maxKeyLength]
    omega
  obtain ⟨other, hother, hkeyed⟩ := hat.reaches_colon hrest (hcandidate hallowed) hnear
  exact ⟨other, hnamed.trans hother, hkeyed⟩

end Layout

end Protoscribe.Yaml
