/-!
A line writer with a current depth of indentation, and the programs that drive
it. A block raises the depth for the steps inside it and gives the depth back
on every way out, also when a step inside fails.
-/

namespace Protoscribe

def indentUnit : String := "    "

structure Writer where
  code : String := ""
  depth : Nat := 0
  deriving DecidableEq, Repr, Inhabited

namespace Writer

def indentation : Nat → String
  | 0 => ""
  | depth + 1 => indentUnit ++ indentation depth

/-- Writes a line at the current depth; its text is taken as it is. -/
def line (writer : Writer) (text : String) : Writer :=
  { writer with code := writer.code ++ indentation writer.depth ++ text ++ "\n" }

def lines (writer : Writer) (texts : List String) : Writer := texts.foldl line writer

def enter (writer : Writer) : Writer := { writer with depth := writer.depth + 1 }

def leave (writer : Writer) : Writer := { writer with depth := writer.depth - 1 }

def block (writer : Writer) (body : Writer → Writer) : Writer :=
  (body writer.enter).leave

end Writer

inductive WriterStep where
  | line (text : String)
  | block (body : List WriterStep)
  | attempt (body : List WriterStep)
  | snapshot
  | fail
  deriving Repr

/-- What a run reports as it goes. -/
inductive WriterEvent where
  | depth (depth : Nat)
  | entered (depth : Nat)
  | attempted (ok : Bool)
  | code (text : String)
  | failed (depth : Nat)
  deriving DecidableEq, Repr

/-- Where a run stands: whether it goes on, the writer, and the events so far. -/
structure WriterRun where
  ok : Bool
  writer : Writer
  events : List WriterEvent
  deriving DecidableEq, Repr

mutual

/-- A finished step reports the depth after it; a snapshot and a failing step
do not. -/
def WriterStep.run (writer : Writer) : WriterStep → WriterRun
  | .line text =>
      let writer := writer.line text
      ⟨true, writer, [.depth writer.depth]⟩
  | .block body =>
      let inner := WriterStep.runAll writer.enter body
      let writer := inner.writer.leave
      let events := .entered (writer.depth + 1) :: inner.events
      if inner.ok then ⟨true, writer, events ++ [.depth writer.depth]⟩
      else ⟨false, writer, events⟩
  | .attempt body =>
      let inner := WriterStep.runAll writer body
      ⟨true, inner.writer,
        inner.events ++ [.attempted inner.ok, .depth inner.writer.depth]⟩
  | .snapshot => ⟨true, writer, [.code writer.code]⟩
  | .fail => ⟨false, writer, [.failed writer.depth]⟩

/-- Steps run in order until one fails. -/
def WriterStep.runAll (writer : Writer) : List WriterStep → WriterRun
  | [] => ⟨true, writer, []⟩
  | step :: rest =>
      let first := step.run writer
      if first.ok then
        let others := WriterStep.runAll first.writer rest
        ⟨others.ok, others.writer, first.events ++ others.events⟩
      else first

end

end Protoscribe
