import Protoscribe.Files.Path

/-!
Where documents are read from and written to. A store offers a few operations on
paths, each of which may fail; making a directory together with those around it
is built from them.
-/

namespace Protoscribe.Files

inductive Fault where
  | missing
  | exists
  | notDirectory
  | isDirectory
  | nameTooLong
  | nulCharacter
  /-- The content of the file is not text. -/
  | notText
  | other (detail : String)
  deriving DecidableEq, Repr

def Fault.message : Fault → String
  | .missing => "No such file or directory (os error 2)"
  | .exists => "File exists (os error 17)"
  | .notDirectory => "Not a directory (os error 20)"
  | .isDirectory => "Is a directory (os error 21)"
  | .nameTooLong => "File name too long (os error 36)"
  | .nulCharacter => "file name contained an unexpected NUL byte"
  | .notText => "stream did not contain valid UTF-8"
  | .other detail => detail

class Store (m : Type → Type) where
  read : String → ExceptT Fault m ByteArray
  /-- Replaces the content of a file, or makes a new one. -/
  write : String → ByteArray → ExceptT Fault m Unit
  makeDirectory : String → ExceptT Fault m Unit
  isDirectory : String → m Bool

variable {m : Type → Type} [Monad m] [Store m]

def readText (path : String) : ExceptT Fault m String := do
  match String.fromUTF8? (← Store.read path) with
  | some text => return text
  | none => throw .notText

def writeText (path text : String) : ExceptT Fault m Unit := Store.write path text.toUTF8

/-- Makes a directory that may be there already. -/
def ensureDirectory (path : String) : ExceptT Fault m Unit := do
  try Store.makeDirectory path
  catch fault =>
    if ← (Store.isDirectory path : m Bool) then return else throw fault

/-- Makes a directory, and where those around it are missing these first. -/
def makeOutward : List String → ExceptT Fault m Unit
  | [] => throw (.other "failed to create whole tree")
  | path :: outer => do
      if path = "" then return
      try Store.makeDirectory path
      catch
        | .missing => do
            makeOutward outer
            ensureDirectory path
        | fault => if ← (Store.isDirectory path : m Bool) then return else throw fault

def makeDirectories (path : String) : ExceptT Fault m Unit := makeOutward (outward path)

end Protoscribe.Files
