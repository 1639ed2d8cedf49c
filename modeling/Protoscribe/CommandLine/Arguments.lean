import Protoscribe.Registry.Parse

/-!
The arguments of the command line. Switches and keys may be given in any order;
a key takes its value from behind an equals sign, from the rest of its cluster of
letters, or from the next argument, which then must not look like a switch. The
first argument that does not fit ends the reading, and so does a request for
help or for the version.
-/

namespace Protoscribe.CommandLine

inductive Switch where
  | verbose
  | help
  | version
  deriving DecidableEq, Repr

inductive Key where
  | registry
  | format
  | app
  | model
  | output
  deriving DecidableEq, Repr

def Switch.name : Switch → String
  | .verbose => "verbose"
  | .help => "help"
  | .version => "version"

def Switch.letter : Switch → Char
  | .verbose => 'v'
  | .help => 'h'
  | .version => 'V'

def Key.name : Key → String
  | .registry => "registry"
  | .format => "format"
  | .app => "app"
  | .model => "model"
  | .output => "output"

def Key.letter (key : Key) : Char := key.name.toList.headD ' '

/-- A path names something. -/
def Key.allowsEmpty : Key → Bool
  | .registry | .output => false
  | _ => true

/-- What may be given in front of a command, or behind it. -/
structure Level where
  switches : List Switch
  keys : List Key
  deriving Repr

/-- Why arguments are not a request to do something. -/
inductive Stop where
  | usage
  | help
  | version
  deriving DecidableEq, Repr

structure Given where
  verbose : Bool := false
  values : List (Key × String) := []
  deriving DecidableEq, Repr

namespace Given

def value? (given : Given) (key : Key) : Option String := given.values.lookup key

def switchOn (given : Given) : Switch → Except Stop Given
  | .verbose => if given.verbose then .error .usage else .ok { given with verbose := true }
  | .help => .error .help
  | .version => .error .version

def formatNamed? : String → Option Format
  | "json" => some .json
  | "yaml" => some .yaml
  | _ => none

/-- Each key is given at most once, with a value that it can take. -/
def put (given : Given) (key : Key) (value : String) : Except Stop Given :=
  let fits :=
    match key with
    | .format => (formatNamed? value).isSome
    | key => key.allowsEmpty || value ≠ ""
  if fits && (given.value? key).isNone then
    .ok { given with values := (key, value) :: given.values }
  else .error .usage

def format? (given : Given) : Option Format := (given.value? .format).bind formatNamed?

end Given

inductive Word where
  | positional
  /-- Everything behind it is positional. -/
  | separator
  | long (name : List Char) (value : Option (List Char))
  | cluster (letters : List Char)
  deriving DecidableEq, Repr

def Word.ofArgument (argument : String) : Word :=
  match argument.toList with
  | ['-', '-'] => .separator
  | '-' :: '-' :: rest =>
      let name := rest.takeWhile (· ≠ '=')
      match rest.dropWhile (· ≠ '=') with
      | [] => .long name none
      | _ :: value => .long name (some value)
  | ['-'] => .positional
  | '-' :: letters => .cluster letters
  | _ => .positional

/-- The switches of a cluster, up to a key. A key takes what follows it in the
cluster as its value, or else is given back. -/
def readCluster (level : Level) (given : Given) : List Char → Except Stop (Given × Option Key)
  | [] => .ok (given, none)
  | letter :: rest =>
      match level.switches.find? (·.letter = letter), level.keys.find? (·.letter = letter) with
      | some switch, _ => do readCluster level (← given.switchOn switch) rest
      | none, some key =>
          match rest with
          | [] => .ok (given, some key)
          | '=' :: value | value => do return (← given.put key (String.ofList value), none)
      | none, none => .error .usage

/-- A key in a long form, given back if its value does not stand behind an equals
sign. -/
def readLong (level : Level) (given : Given) (name : List Char) (value : Option (List Char)) :
    Except Stop (Given × Option Key) :=
  let name := String.ofList name
  match level.switches.find? (·.name = name), level.keys.find? (·.name = name), value with
  | some switch, _, none => do return (← given.switchOn switch, none)
  | none, some key, none => .ok (given, some key)
  | none, some key, some value => do return (← given.put key (String.ofList value), none)
  | _, _, _ => .error .usage

/-- Reads arguments up to the first positional one. -/
def readArguments (level : Level) (given : Given) :
    List String → Except Stop (Given × List String)
  | [] => .ok (given, [])
  | argument :: rest => do
      let read :=
        match Word.ofArgument argument with
        | .long name value => some (readLong level given name value)
        | .cluster letters => some (readCluster level given letters)
        | .positional | .separator => none
      match read, rest with
      | none, rest =>
          if Word.ofArgument argument = .positional then return (given, argument :: rest)
          else if rest = [] then return (given, [])
          else throw .usage
      | some read, rest =>
          match ← read, rest with
          | (given, none), rest => readArguments level given rest
          | (given, some key), value :: rest =>
              if Word.ofArgument value = .positional then
                readArguments level (← given.put key value) rest
              else throw .usage
          | (_, some _), [] => throw .usage

inductive Command where
  | generate (registry : String) (format : Option Format) (app : String)
      (model output : Option String)
  | inspect (registry : String) (format : Option Format) (app : Option String)
  deriving DecidableEq, Repr

structure Request where
  command : Command
  verbose : Bool
  deriving DecidableEq, Repr

def outerLevel : Level := ⟨[.verbose, .help, .version], []⟩

def generateLevel : Level := ⟨[.verbose, .help], [.registry, .format, .app, .model, .output]⟩

def inspectLevel : Level := ⟨[.verbose, .help], [.registry, .format, .app]⟩

/-- Reads what stands behind a command, where nothing positional may stand. -/
def readBehind (level : Level) (arguments : List String) : Except Stop Given := do
  match ← readArguments level {} arguments with
  | (given, []) => return given
  | (_, _ :: _) => throw .usage

/-- The help on a command, or on all of them. -/
def readHelp : List String → Stop
  | [] | ["generate"] | ["inspect"] | ["help"] => .help
  | _ => .usage

def Request.read (arguments : List String) : Except Stop Request := do
  let (outer, rest) ← readArguments outerLevel {} arguments
  match rest with
  | "generate" :: rest =>
      let given ← readBehind generateLevel rest
      match given.value? .registry, given.value? .app with
      | some registry, some app =>
          let command := .generate registry given.format? app
            (given.value? .model) (given.value? .output)
          return ⟨command, outer.verbose || given.verbose⟩
      | _, _ => throw .usage
  | "inspect" :: rest =>
      let given ← readBehind inspectLevel rest
      match given.value? .registry with
      | some registry =>
          return ⟨.inspect registry given.format? (given.value? .app),
            outer.verbose || given.verbose⟩
      | none => throw .usage
  | "help" :: rest => throw (readHelp rest)
  | _ => throw .usage

end Protoscribe.CommandLine
