import Protoscribe.Files.Store

/-!
A file system as a value: what stands at each location, and a working directory
from which relative paths lead. A path is walked segment by segment; every step
needs a directory to start from, also one that leads nowhere.
-/

namespace Protoscribe.Files

inductive Entry where
  | directory
  | file (content : ByteArray)

def Entry.isDirectory : Entry → Bool
  | .directory => true
  | .file _ => false

abbrev Location := List String

structure Tree where
  /-- Everything but the root; of two entries at one location the first counts. -/
  entries : List (Location × Entry) := []
  working : Location := []

namespace Tree

/-- The root is always there. -/
def at? (tree : Tree) (location : Location) : Option Entry :=
  if location = [] then some .directory else tree.entries.lookup location

def put (tree : Tree) (location : Location) (entry : Entry) : Tree :=
  { tree with
    entries := (location, entry) :: tree.entries.filter (·.1 ≠ location) }

theorem lookup_filter_ne (entries : List (Location × Entry)) {location other : Location}
    (h : other ≠ location) :
    (entries.filter (·.1 ≠ location)).lookup other = entries.lookup other := by
  induction entries with
  | nil => rfl
  | cons entry rest ih =>
      obtain ⟨place, content⟩ := entry
      by_cases hp : place = location
      · subst hp
        have hne : (other == place) = false := by simpa using h
        simpa [List.lookup_cons, hne] using ih
      · by_cases ho : other = place
        · subst ho
          simp [hp]
        · have hne : (other == place) = false := by simpa using ho
          simpa [hp, List.lookup_cons, hne] using ih

theorem at?_put (tree : Tree) {location : Location} (entry : Entry) (other : Location)
    (h : location ≠ []) :
    (tree.put location entry).at? other =
      if other = location then some entry else tree.at? other := by
  by_cases ho : other = location
  · subst ho
    simp [at?, put, h]
  · by_cases hr : other = []
    · simp [at?, hr, Ne.symm h]
    · have hne : (other == location) = false := by simpa using ho
      simp only [at?, put, hr, ho, if_false, List.lookup_cons, hne]
      exact lookup_filter_ne tree.entries ho

def isDirectoryAt (tree : Tree) (location : Location) : Bool :=
  (tree.at? location).any Entry.isDirectory

def maxName : Nat := 255

def maxPath : Nat := 4095

def step (tree : Tree) (location : Location) (segment : List Char) : Except Fault Location :=
  if !tree.isDirectoryAt location then .error .notDirectory
  else if isTrivial segment then .ok location
  else if segment = ['.', '.'] then .ok location.dropLast
  else
    let name := String.ofList segment
    if maxName < name.utf8ByteSize then .error .nameTooLong
    else if (tree.at? (location ++ [name])).isSome then .ok (location ++ [name])
    else .error .missing

def walk (tree : Tree) : Location → List (List Char) → Except Fault Location
  | location, [] => .ok location
  | location, segment :: rest => do tree.walk (← tree.step location segment) rest

/-- Paths that cannot be walked whatever the tree holds. -/
def requirePath (path : String) : Except Fault Unit :=
  if path.toList.contains '\x00' then .error .nulCharacter
  else if path = "" then .error .missing
  else if maxPath < path.utf8ByteSize then .error .nameTooLong
  else .ok ()

/-- Where the walk of a path starts. -/
def start (tree : Tree) (path : String) : Location :=
  if path.toList.head? = some '/' then [] else tree.working

def find (tree : Tree) (path : String) : Except Fault Location := do
  requirePath path
  tree.walk (tree.start path) (segments path.toList)

/-- Where a path would put a new entry: the directory that it goes into, the name,
and whether slashes follow it; no place if the path does not end in a name. -/
structure Target where
  parent : Location
  name : String
  slashed : Bool
  deriving DecidableEq, Repr

def Target.location (target : Target) : Location := target.parent ++ [target.name]

/-- The walk of a path up to its last name. -/
def target (tree : Tree) (path : String) : Except Fault (Option Target) := do
  requirePath path
  let backward := (segments path.toList).reverse
  let trimmed := backward.dropWhile (· = [])
  match trimmed with
  | [] => return none
  | last :: outer =>
      if isTrivial last || last = ['.', '.'] then
        let _ ← tree.find path
        return none
      else
        let parent ← tree.walk (tree.start path) outer.reverse
        if !tree.isDirectoryAt parent then .error .notDirectory
        else return some ⟨parent, String.ofList last, trimmed.length < backward.length⟩

def read (tree : Tree) (path : String) : Except Fault ByteArray := do
  match tree.at? (← tree.find path) with
  | some (.file content) => return content
  | some .directory => .error .isDirectory
  | none => .error .missing

def write (tree : Tree) (path : String) (content : ByteArray) : Except Fault Tree := do
  match ← tree.target path with
  | none => .error .isDirectory
  | some target =>
      if target.slashed then .error .isDirectory
      else if maxName < target.name.utf8ByteSize then .error .nameTooLong
      else if tree.isDirectoryAt target.location then .error .isDirectory
      else return tree.put target.location (.file content)

def makeDirectory (tree : Tree) (path : String) : Except Fault Tree := do
  match ← tree.target path with
  | none => .error .exists
  | some target =>
      if maxName < target.name.utf8ByteSize then .error .nameTooLong
      else if (tree.at? target.location).isSome then .error .exists
      else return tree.put target.location .directory

def isDirectory (tree : Tree) (path : String) : Bool :=
  match tree.find path with
  | .ok location => tree.isDirectoryAt location
  | .error _ => false

/-- Runs an operation that gives the tree after it; a failing one changes nothing. -/
def change (operation : Tree → Except Fault Tree) : ExceptT Fault (StateM Tree) Unit := do
  match operation (← get) with
  | .ok tree => set tree
  | .error fault => throw fault

instance : Store (StateM Tree) where
  read path := do
    match (← get).read path with
    | .ok content => return content
    | .error fault => throw fault
  write path content := change (·.write path content)
  makeDirectory path := change (·.makeDirectory path)
  isDirectory path := return (← get).isDirectory path

/-- The path of a location below the working directory, directories with a slash
behind them. -/
def relative? (tree : Tree) (location : Location) (entry : Entry) : Option String :=
  if tree.working.isPrefixOf location && tree.working ≠ location then
    let names := location.drop tree.working.length
    let path := String.ofList (joinSegments (names.map String.toList))
    some (if entry.isDirectory then path ++ "/" else path)
  else none

def listing (tree : Tree) : List (String × Entry) :=
  let found := tree.entries.filterMap fun (location, entry) =>
    (tree.relative? location entry).map (·, entry)
  found.mergeSort fun a b => decide (a.1 ≤ b.1)

end Tree

end Protoscribe.Files
