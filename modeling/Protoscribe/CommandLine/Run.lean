import Protoscribe.CommandLine.Arguments
import Protoscribe.CommandLine.Inspect
import Protoscribe.Plan
import Protoscribe.Registry.Parse

/-!
What the command does with its arguments: its exit code and the two texts that
it prints. An error is reported with what was being done in front and its causes
below.
-/

namespace Protoscribe.CommandLine

/-- An error with its causes, each the cause of the one before. -/
structure Report where
  context : String
  causes : List String := []
  deriving DecidableEq, Repr

namespace Report

/-- The lines of a cause, all but the first behind `indent`. -/
def indentLines (indent : String) (text : String) : String :=
  String.ofList (text.toList.flatMap fun c => if c = '\n' then c :: indent.toList else [c])

/-- Several causes are numbered. -/
def causeText (several : Bool) (position : Nat) (cause : String) : String :=
  if several then "\n    " ++ toString position ++ ": " ++ indentLines "       " cause
  else "\n    " ++ indentLines "    " cause

def causesFrom (several : Bool) : Nat → List String → String
  | _, [] => ""
  | position, cause :: rest =>
      causeText several position cause ++ causesFrom several (position + 1) rest

def text (report : Report) : String :=
  let causes :=
    if report.causes = [] then ""
    else "\n\nCaused by:" ++ causesFrom (1 < report.causes.length) 0 report.causes
  "Error: " ++ report.context ++ causes ++ "\n"

/-- An error, and below it the fault of the document that it comes from. -/
def causesOf (error : Error) : List String :=
  error.message ::
    (match error with
    | .json fault | .yaml fault => [fault.message]
    | _ => [])

def ofError (context : String) (error : Error) : Report := ⟨context, causesOf error⟩

end Report

structure Outcome where
  code : Nat := 0
  stdout : String := ""
  stderr : String := ""
  deriving DecidableEq, Repr

def programName : String := "model-proto-generator"

def versionText : String := programName ++ " 0.1.0\n"

def helpText : String :=
  "Usage: " ++ programName ++ " [-v] <generate|inspect> --registry <REGISTRY> " ++
    "[--format <json|yaml>] [--app <APP>] [--model <MODEL>] [--output <OUTPUT>]\n"

def Stop.outcome : Stop → Outcome
  | .usage => { code := 2, stderr := helpText }
  | .help => { stdout := helpText }
  | .version => { stdout := versionText }

def Outcome.failed (stdout : String) (report : Report) : Outcome :=
  { code := 1, stdout, stderr := report.text }

def printed (lines : List String) : String := String.join (lines.map (· ++ "\n"))

variable {m : Type → Type} [Monad m] [Files.Store m]

/-- Goes on with the registry of a file, or reports why there is none. -/
def withRegistry (path : String) (format : Option Format) (go : Registry → m Outcome) :
    m Outcome := do
  match ← (Registry.load path format).run with
  | .ok registry => go registry
  | .error error => return .failed "" (.ofError s!"Failed to load model registry {path}" error)

/-- What is printed before a document is written to a file. -/
def startLines (colors verbose : Bool) (scope : Scope) (registry output : String) :
    List String :=
  (Style.cyan.paint colors "→" ++ " Generating proto for " ++
      Style.yellow.paint colors scope.text ++ " from " ++ registry) ::
    (if verbose then ["  Output: " ++ output] else [])

def doneLine (colors : Bool) (output : String) : String :=
  Style.green.paint colors "✓" ++ " Wrote " ++ output

def generateFailed (stdout : String) (scope : Scope) (error : Error) : Outcome :=
  .failed stdout (.ofError s!"Failed to generate proto for {scope.text}" error)

def runGenerate (colors verbose : Bool) (path : String) (format : Option Format)
    (scope : Scope) (output : Option String) : m Outcome :=
  withRegistry path format fun registry => do
    match output with
    | none =>
        match generate registry scope with
        | .ok text => return { stdout := text }
        | .error error => return generateFailed "" scope error
    | some output =>
        let start := startLines colors verbose scope path output
        match ← (generateToFile registry scope output).run with
        | .ok () => return { stdout := printed (start ++ [doneLine colors output]) }
        | .error error => return generateFailed (printed start) scope error

def shownApps (registry : Registry) : Option String → Except Report (List App)
  | none => .ok registry.apps
  | some name =>
      match registry.app? name with
      | some app => .ok [app]
      | none => .error ⟨s!"Unknown application: {name}", []⟩

def runInspect (colors verbose : Bool) (path : String) (format : Option Format)
    (app : Option String) : m Outcome :=
  withRegistry path format fun registry =>
    match shownApps registry app with
    | .ok apps => return { stdout := printed (apps.flatMap (appLines colors verbose)) }
    | .error report => return .failed "" report

def Request.run (colors : Bool) (request : Request) : m Outcome :=
  match request.command with
  | .generate registry format app model output =>
      runGenerate colors request.verbose registry format ⟨app, model⟩ output
  | .inspect registry format app => runInspect colors request.verbose registry format app

def run (colors : Bool) (arguments : List String) : m Outcome :=
  match Request.read arguments with
  | .ok request => request.run colors
  | .error stop => return stop.outcome

end Protoscribe.CommandLine
