import Mathlib.Data.List.Infix
import Protoscribe.Proofs.Proto.Layout

/-!
Indentation is scoped. What a writing program writes can be said without a writer: the
lines that it comes to before a step fails, each with the number of blocks open around
it. A run adds exactly these lines behind the text that is there, and it gives the
depth back on every way out, through any number of blocks and up to any attempt. In
between no depth is lower than the first one and no text is taken back.
-/

namespace Protoscribe

def margin (units : Nat) : String := String.ofList (List.replicate (4 * units) ' ')

/-- Lines that stand in some blocks, written by a writer of this depth. -/
def indented (depth : Nat) (lines : List (Nat × String)) : String :=
  linesText (lines.map fun line => margin (depth + line.1) ++ line.2)

/-- The indentation is four blanks for each unit. -/
theorem indentation_eq_margin (units : Nat) : Writer.indentation units = margin units := by
  induction units with
  | zero => rfl
  | succ units ih =>
      have hlength : 4 * (units + 1) = 4 + 4 * units := by omega
      rw [Writer.indentation, ih, margin, margin, hlength, List.replicate_add, String.ofList_append]
      rfl

theorem indented_append (depth : Nat) (first second : List (Nat × String)) :
    indented depth (first ++ second) = indented depth first ++ indented depth second := by
  rw [indented, List.map_append, linesText_append]
  rfl

namespace WriterStep

/-- The lines that some steps come to inside some blocks, and whether the steps get to
their end. A failure leaves out the steps behind it in all blocks around it, as far as
the nearest attempt. -/
inductive Executes : Nat → List WriterStep → Bool → List (Nat × String) → Prop where
  | done {blocks : Nat} : Executes blocks [] true []
  | line {blocks : Nat} {text : String} {rest : List WriterStep} {ok : Bool}
      {lines : List (Nat × String)} (hrest : Executes blocks rest ok lines) :
      Executes blocks (.line text :: rest) ok ((blocks, text) :: lines)
  | block {blocks : Nat} {body rest : List WriterStep} {ok : Bool}
      {inner lines : List (Nat × String)} (hbody : Executes (blocks + 1) body true inner)
      (hrest : Executes blocks rest ok lines) :
      Executes blocks (.block body :: rest) ok (inner ++ lines)
  | blockFails {blocks : Nat} {body rest : List WriterStep} {inner : List (Nat × String)}
      (hbody : Executes (blocks + 1) body false inner) :
      Executes blocks (.block body :: rest) false inner
  | attempt {blocks : Nat} {body rest : List WriterStep} {caught ok : Bool}
      {inner lines : List (Nat × String)} (hbody : Executes blocks body caught inner)
      (hrest : Executes blocks rest ok lines) :
      Executes blocks (.attempt body :: rest) ok (inner ++ lines)
  | snapshot {blocks : Nat} {rest : List WriterStep} {ok : Bool} {lines : List (Nat × String)}
      (hrest : Executes blocks rest ok lines) : Executes blocks (.snapshot :: rest) ok lines
  | fail {blocks : Nat} {rest : List WriterStep} : Executes blocks (.fail :: rest) false []

/-- Every program comes to an end or to a failure. -/
theorem exists_executes (blocks : Nat) :
    ∀ steps : List WriterStep, ∃ ok lines, Executes blocks steps ok lines
  | [] => ⟨true, [], .done⟩
  | .line text :: rest => by
      obtain ⟨ok, lines, hrest⟩ := exists_executes blocks rest
      exact ⟨ok, _, .line hrest⟩
  | .block body :: rest => by
      obtain ⟨inside, inner, hbody⟩ := exists_executes (blocks + 1) body
      obtain ⟨ok, lines, hrest⟩ := exists_executes blocks rest
      cases inside with
      | false => exact ⟨false, inner, .blockFails hbody⟩
      | true => exact ⟨ok, _, .block hbody hrest⟩
  | .attempt body :: rest => by
      obtain ⟨caught, inner, hbody⟩ := exists_executes blocks body
      obtain ⟨ok, lines, hrest⟩ := exists_executes blocks rest
      exact ⟨ok, _, .attempt hbody hrest⟩
  | .snapshot :: rest => by
      obtain ⟨ok, lines, hrest⟩ := exists_executes blocks rest
      exact ⟨ok, lines, .snapshot hrest⟩
  | .fail :: rest => ⟨false, [], .fail⟩

/-- A run ends as its program does, with the lines of the program behind the text and at
the depth at which it began. The blocks around the steps are part of that depth. -/
theorem Executes.runAll_eq {blocks : Nat} {steps : List WriterStep} {ok : Bool}
    {lines : List (Nat × String)} (h : Executes blocks steps ok lines) (depth : Nat)
    (code : String) :
    (runAll ⟨code, depth + blocks⟩ steps).ok = ok ∧
      (runAll ⟨code, depth + blocks⟩ steps).writer =
        ⟨code ++ indented depth lines, depth + blocks⟩ := by
  induction h generalizing code with
  | done => simp [runAll, indented, linesText]
  | @line blocks text rest ok lines _ ih =>
      have hline : Writer.line ⟨code, depth + blocks⟩ text =
          ⟨code ++ indented depth [(blocks, text)], depth + blocks⟩ := by
        simp [Writer.line, indented, linesText, indentation_eq_margin, String.append_assoc]
      have hlines : indented depth ((blocks, text) :: lines) =
          indented depth [(blocks, text)] ++ indented depth lines :=
        indented_append depth [(blocks, text)] lines
      simp [runAll, run, hline, ih, hlines, String.append_assoc]
  | block _ _ ihbody ihrest =>
      obtain ⟨hok, hwriter⟩ := ihbody code
      simp only [← Nat.add_assoc] at hok hwriter
      simp [runAll, run, Writer.enter, Writer.leave, hok, hwriter, ihrest, indented_append,
        String.append_assoc]
  | blockFails _ ih =>
      obtain ⟨hok, hwriter⟩ := ih code
      simp only [← Nat.add_assoc] at hok hwriter
      simp [runAll, run, Writer.enter, Writer.leave, hok, hwriter]
  | attempt _ _ ihbody ihrest =>
      simp [runAll, run, ihbody, ihrest, indented_append, String.append_assoc]
  | snapshot _ ih => simp [runAll, run, ih]
  | fail => simp [runAll, run, indented, linesText]

/-- What a run adds stands behind the text, and the depth is what it was. -/
theorem runAll_grows (writer : Writer) (steps : List WriterStep) :
    ∃ added, (runAll writer steps).writer = ⟨writer.code ++ added, writer.depth⟩ := by
  obtain ⟨ok, lines, h⟩ := exists_executes 0 steps
  exact ⟨_, (h.runAll_eq writer.depth writer.code).2⟩

/-- A step adds text and leaves the depth as it was. -/
theorem run_grows (writer : Writer) (step : WriterStep) :
    ∃ added, (step.run writer).writer = ⟨writer.code ++ added, writer.depth⟩ := by
  have halone : (runAll writer [step]).writer = (step.run writer).writer := by
    by_cases hok : (step.run writer).ok = true
    · simp [runAll, hok]
    · simp [runAll, hok]
  obtain ⟨added, hadded⟩ := runAll_grows writer [step]
  exact ⟨added, halone.symm.trans hadded⟩

/-! ### On the way -/

/-- The writers that a run passes through: the first and the last one, those inside each
block and attempt that it comes to, and those behind each step that succeeds. -/
inductive Passes : Writer → List WriterStep → Writer → Prop where
  | start {writer : Writer} {steps : List WriterStep} : Passes writer steps writer
  | finish {writer : Writer} {steps : List WriterStep} :
      Passes writer steps (runAll writer steps).writer
  | inBlock {writer passed : Writer} {body rest : List WriterStep}
      (h : Passes writer.enter body passed) : Passes writer (.block body :: rest) passed
  | inAttempt {writer passed : Writer} {body rest : List WriterStep}
      (h : Passes writer body passed) : Passes writer (.attempt body :: rest) passed
  | later {writer passed : Writer} {step : WriterStep} {rest : List WriterStep}
      (hok : (step.run writer).ok = true) (h : Passes (step.run writer).writer rest passed) :
      Passes writer (step :: rest) passed

/-- The first text is the beginning of the second one. -/
def Begins (first second : String) : Prop := first.toList <+: second.toList

theorem Begins.trans {first second third : String} (h : Begins first second)
    (hnext : Begins second third) : Begins first third :=
  List.IsPrefix.trans h hnext

theorem begins_append (text added : String) : Begins text (text ++ added) := by
  rw [Begins, String.toList_append]
  exact List.prefix_append _ _

/-- What was written stays in front. -/
theorem begins_runAll (writer : Writer) (steps : List WriterStep) :
    Begins writer.code (runAll writer steps).writer.code := by
  obtain ⟨added, hadded⟩ := runAll_grows writer steps
  rw [hadded]
  exact begins_append writer.code added

/-- What the first step leaves stays in front of what the others add. -/
theorem begins_runAll_cons (writer : Writer) (step : WriterStep) (rest : List WriterStep) :
    Begins (step.run writer).writer.code (runAll writer (step :: rest)).writer.code := by
  by_cases hok : (step.run writer).ok = true
  · simp only [runAll, hok, if_true]
    exact begins_runAll (step.run writer).writer rest
  · simp only [runAll, hok]
    exact List.prefix_refl _

/-- Wherever a run passes, the depth is no less than at its start, and the text only
grows. -/
theorem Passes.between {writer passed : Writer} {steps : List WriterStep}
    (h : Passes writer steps passed) :
    writer.depth ≤ passed.depth ∧ Begins writer.code passed.code ∧
      Begins passed.code (runAll writer steps).writer.code := by
  induction h with
  | @start writer steps => exact ⟨Nat.le_refl _, List.prefix_refl _, begins_runAll writer steps⟩
  | @finish writer steps =>
      obtain ⟨added, hadded⟩ := runAll_grows writer steps
      exact ⟨by rw [hadded], begins_runAll writer steps, List.prefix_refl _⟩
  | @inBlock writer passed body rest _ ih =>
      obtain ⟨hdepth, hfront, hback⟩ := ih
      have hcode : ((WriterStep.block body).run writer).writer.code =
          (runAll writer.enter body).writer.code := by
        simp only [run]
        split <;> rfl
      refine ⟨Nat.le_of_succ_le hdepth, hfront, hback.trans ?_⟩
      rw [← hcode]
      exact begins_runAll_cons writer (.block body) rest
  | @inAttempt writer passed body rest _ ih =>
      obtain ⟨hdepth, hfront, hback⟩ := ih
      have hcode : ((WriterStep.attempt body).run writer).writer.code =
          (runAll writer body).writer.code := by
        rw [run]
      refine ⟨hdepth, hfront, hback.trans ?_⟩
      rw [← hcode]
      exact begins_runAll_cons writer (.attempt body) rest
  | @later writer passed step rest hok _ ih =>
      obtain ⟨hdepth, hfront, hback⟩ := ih
      obtain ⟨added, hadded⟩ := run_grows writer step
      simp only [hadded] at hdepth hfront hback
      refine ⟨hdepth, (begins_append writer.code added).trans hfront, ?_⟩
      simp only [runAll, hok, if_true, hadded]
      exact hback

/-- Every program has its lines and its outcome. A run gives back this outcome, the depth
at which it began and the text with these lines behind it, each at the margin of the
blocks around it; every writer on the way is as deep at least, and holds a text between
the first and the last one. -/
theorem runAll_scoped (writer : Writer) (program : List WriterStep) :
    (∃ ok lines, Executes 0 program ok lines) ∧
      ∀ ok lines, Executes 0 program ok lines →
        (runAll writer program).ok = ok ∧
        (runAll writer program).writer =
          ⟨writer.code ++ indented writer.depth lines, writer.depth⟩ ∧
        ∀ passed, Passes writer program passed →
          writer.depth ≤ passed.depth ∧ Begins writer.code passed.code ∧
            Begins passed.code (runAll writer program).writer.code := by
  refine ⟨exists_executes 0 program, ?_⟩
  intro ok lines h
  obtain ⟨hok, hwriter⟩ := h.runAll_eq writer.depth writer.code
  exact ⟨hok, hwriter, fun passed hpassed => hpassed.between⟩

/-- A failure inside two blocks that is caught, and one that is not. -/
def twoFailures : List WriterStep :=
  [.line "first", .attempt [.block [.line "outer", .block [.line "inner", .fail], .line "lost"]],
    .block [.line "last", .fail], .line "lost"]

/-- One failure is caught inside a block, the other ends the run. -/
theorem runAll_scoped_twoFailures :
    Executes 0 twoFailures false [(0, "first"), (1, "outer"), (2, "inner"), (1, "last")] ∧
      Passes ⟨"title\n", 1⟩ twoFailures ⟨"title\n    first\n", 2⟩ ∧
      (runAll ⟨"title\n", 1⟩ twoFailures).ok = false ∧
      (runAll ⟨"title\n", 1⟩ twoFailures).writer =
        ⟨"title\n    first\n        outer\n            inner\n        last\n", 1⟩ ∧
      Begins "title\n    first\n" (runAll ⟨"title\n", 1⟩ twoFailures).writer.code := by
  have hexecutes : Executes 0 twoFailures false
      [(0, "first"), (1, "outer"), (2, "inner"), (1, "last")] :=
    .line (.attempt (.blockFails (.line (.blockFails (.line .fail))))
      (.blockFails (.line .fail)))
  have hpasses : Passes ⟨"title\n", 1⟩ twoFailures ⟨"title\n    first\n", 2⟩ :=
    .later rfl (.inAttempt (.inBlock .start))
  obtain ⟨-, hruns⟩ := runAll_scoped ⟨"title\n", 1⟩ twoFailures
  obtain ⟨hok, hwriter, hbetween⟩ := hruns _ _ hexecutes
  obtain ⟨-, -, hback⟩ := hbetween _ hpasses
  have hcode : "title\n" ++ indented 1 [(0, "first"), (1, "outer"), (2, "inner"), (1, "last")] =
      "title\n    first\n        outer\n            inner\n        last\n" := by decide
  rw [hcode] at hwriter
  exact ⟨hexecutes, hpasses, hok, hwriter, hback⟩

end WriterStep

end Protoscribe
