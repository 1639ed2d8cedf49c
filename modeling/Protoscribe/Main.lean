import Protoscribe.CommandLine.Run

/-!
The program: the command line on the real file system.
-/

namespace Protoscribe

open Files

def systemFault : IO.Error → Fault
  | .noFileOrDirectory .. => .missing
  | .alreadyExists .. => .exists
  | .inappropriateType _ 20 _ => .notDirectory
  | .inappropriateType _ 21 _ => .isDirectory
  | .invalidArgument _ 36 _ => .nameTooLong
  | error => .other (toString error)

def onSystem {α : Type} (action : IO α) : ExceptT Fault IO α :=
  ExceptT.mk do
    try return .ok (← action)
    catch error => return .error (systemFault error)

instance : Store IO where
  read path := onSystem (IO.FS.readBinFile path)
  write path content := onSystem (IO.FS.writeBinFile path content)
  makeDirectory path := onSystem (IO.FS.createDir path)
  isDirectory path := do
    match ← (onSystem (IO.FS.readBinFile path)).run with
    | .error .isDirectory => return true
    | _ => return false

/-- Colours are shown if they are forced, or on a terminal unless they are refused. -/
def colorsWanted : IO Bool := do
  match ← IO.getEnv "CLICOLOR_FORCE" with
  | some value => if value ≠ "0" then return true
  | none => pure ()
  if (← IO.getEnv "NO_COLOR").isSome then return false
  if (← IO.getEnv "CLICOLOR") = some "0" then return false
  (← IO.getStdout).isTty

end Protoscribe

def main (arguments : List String) : IO UInt32 := do
  let outcome ← Protoscribe.CommandLine.run (← Protoscribe.colorsWanted) arguments
  (← IO.getStdout).putStr outcome.stdout
  (← IO.getStderr).putStr outcome.stderr
  return outcome.code.toUInt32
