import Protoscribe.CommandLine.Run
import Protoscribe.Proofs.Files.Growth

/-!
What is left of a document in a tree of files. A scope without a document leaves
the tree as it is, whatever it holds and wherever the document was to go. A file
that was written holds the text of the document and nothing else; around it only
directories are new. The command line prints that same text, or writes it.
-/

namespace Protoscribe

open Files

/-! ### One file -/

/-- The directories that a path goes through. -/
def directoriesTo (path : String) : List String := ((parent? path).map outward).getD []

theorem onlyMakes_prepareOutput (path : String) :
    Tree.OnlyMakes (directoriesTo path) (prepareOutput path : ExceptT Error (StateM Tree) Unit) := by
  unfold prepareOutput directoriesTo
  cases parent? path with
  | none => exact .pure _
  | some parent =>
      split
      · exact .pure _
      · exact .pure _
      · next found hfound =>
          cases hfound
          exact .adapt _ (.makeOutward fun _ h => h)

/-- The text stands in the file at a path, and what else is new are directories on
the way. -/
structure Written (tree : Tree) (path text : String) (later : Tree) (place : Location) : Prop where
  leads : later.find path = .ok place
  content : later.at? place = some (.file text.toUTF8)
  reads : later.perform (readText path) = (.ok text, later)
  /-- A directory is not replaced. -/
  replaced : tree.at? place ≠ some .directory
  kept : ∀ location entry, location ≠ place → tree.at? location = some entry →
    later.at? location = some entry
  made : ∀ location, location ≠ place → tree.at? location = none →
    (later.at? location).isSome = true →
      later.at? location = some .directory ∧
        ∃ directory ∈ directoriesTo path, later.find directory = .ok location
  working : later.working = tree.working

/-- Once the directories are there, writing puts the text into the file and touches nothing
else. -/
theorem written_of_write {tree middle later : Tree} {path text : String}
    (hgrows : Tree.GrowsBy (directoriesTo path) tree middle)
    (h : middle.write path text.toUTF8 = .ok later) :
    ∃ place, Written tree path text later place := by
  obtain ⟨place, hplace, hdirectory, rfl, hleads⟩ := Tree.write_eq_ok h
  have hkeeps := Tree.keeps_put hplace hdirectory (.file text.toUTF8)
  have hcontent : (middle.put place (.file text.toUTF8)).at? place = some (.file text.toUTF8) := by
    rw [Tree.at?_put middle _ _ hplace, if_pos rfl]
  refine ⟨place, hleads, hcontent, Tree.perform_readText_of_file hleads hcontent, ?_, ?_, ?_,
    hgrows.working⟩
  · intro hbefore
    have hafter := hgrows.kept place .directory hbefore
    rw [← Tree.isDirectoryAt_iff, hdirectory] at hafter
    cases hafter
  · intro location entry hne hentry
    rw [Tree.at?_put middle _ _ hplace, if_neg hne]
    exact hgrows.kept location entry hentry
  · intro location hne hnone hsome
    rw [Tree.at?_put middle _ _ hplace, if_neg hne] at hsome ⊢
    obtain ⟨hmade, directory, hin, hfind⟩ := hgrows.made location hnone hsome
    exact ⟨hmade, directory, hin, hkeeps.find hfind⟩

/-- Writing puts the text into the file, or leaves at most new directories. -/
theorem perform_writeOutput (tree : Tree) (path text : String) :
    match tree.perform (writeOutput path text) with
    | (.ok (), later) => ∃ place, Written tree path text later place
    | (.error _, later) => Tree.GrowsBy (directoriesTo path) tree later := by
  have hgrows := onlyMakes_prepareOutput path tree
  rw [writeOutput, Tree.perform_bind]
  generalize tree.perform (prepareOutput path) = outcome at hgrows ⊢
  obtain ⟨error | ⟨⟩, middle⟩ := outcome
  · exact hgrows
  · simp only [Tree.perform_adapt, writeText, Tree.perform_write]
    cases hwrite : middle.write path text.toUTF8 with
    | error fault => exact hgrows
    | ok later => exact written_of_write hgrows hwrite

theorem generateToFile_of_error {registry : Registry} {scope : Scope} {sources : Sources}
    {error : Error} (h : generate registry scope sources = .error error) (path : String) :
    (generateToFile registry scope path sources : ExceptT Error (StateM Tree) Unit) =
      throw error := by
  rw [generateToFile, h]

theorem generateToFile_of_ok {registry : Registry} {scope : Scope} {sources : Sources}
    {text : String} (h : generate registry scope sources = .ok text) (path : String) :
    (generateToFile registry scope path sources : ExceptT Error (StateM Tree) Unit) =
      writeOutput path text := by
  rw [generateToFile, h]

/-! ### The command line -/

/-- What comes out of the registry in a file. -/
def documentOf (tree : Tree) (file : String) (format : Option Format) (scope : Scope) :
    Except Error String := do
  let registry ← (tree.perform (Registry.load file format)).1
  generate registry scope

theorem perform_load (tree : Tree) (file : String) (format : Option Format) :
    (tree.perform (Registry.load file format)).2 = tree := by
  rw [Registry.load, Tree.perform_bind, Tree.perform_adapt, Tree.perform_readText]
  cases tree.read file with
  | error fault => rfl
  | ok content =>
      simp only
      cases String.fromUTF8? content with
      | none => rfl
      | some text =>
          simp only [Except.mapError]
          cases Registry.parse (format.getD (.detect file text)) text <;> rfl

namespace CommandLine

theorem run_withRegistry (tree : Tree) (file : String) (format : Option Format)
    (go : Registry → StateM Tree Outcome) :
    (withRegistry file format go).run tree =
      match (tree.perform (Registry.load file format)).1 with
      | .ok registry => (go registry).run tree
      | .error error =>
          (.failed "" (.ofError s!"Failed to load model registry {file}" error), tree) := by
  rw [withRegistry, Tree.run_bind_perform, perform_load]
  cases (tree.perform (Registry.load file format)).1 <;> rfl

/-- What the command line does to a tree. -/
def runOn (tree : Tree) (colors : Bool) (arguments : List String) : Outcome × Tree :=
  (run colors arguments : StateM Tree Outcome).run tree

theorem runOn_generate {colors verbose : Bool} {arguments : List String} {file : String}
    {format : Option Format} {app : String} {model output : Option String}
    (h : Request.read arguments = .ok ⟨.generate file format app model output, verbose⟩)
    (tree : Tree) :
    runOn tree colors arguments =
      (runGenerate colors verbose file format ⟨app, model⟩ output : StateM Tree Outcome).run tree := by
  rw [runOn, run, h]
  rfl

section

variable {tree : Tree} {file : String} {format : Option Format} {scope : Scope}

/-- Where there is no document nothing is touched, whether a file was asked for or
not. -/
theorem runGenerate_of_error {error : Error} (h : documentOf tree file format scope = .error error)
    (colors verbose : Bool) (output : Option String) :
    ∃ stdout report,
      (runGenerate colors verbose file format scope output : StateM Tree Outcome).run tree =
        (.failed stdout report, tree) := by
  rw [runGenerate, run_withRegistry]
  rw [documentOf] at h
  cases hload : (tree.perform (Registry.load file format)).1 with
  | error found => exact ⟨_, _, rfl⟩
  | ok registry =>
      rw [hload] at h
      change generate registry scope = .error error at h
      simp only
      cases output with
      | none =>
          simp only [h]
          exact ⟨_, _, rfl⟩
      | some path =>
          simp only [generateToFile_of_error h]
          exact ⟨_, _, rfl⟩

theorem runGenerate_print {text : String} (h : documentOf tree file format scope = .ok text)
    (colors verbose : Bool) :
    (runGenerate colors verbose file format scope none : StateM Tree Outcome).run tree =
      ({ stdout := text }, tree) := by
  obtain ⟨registry, hload, hgenerate⟩ := bind_eq_ok_iff.mp h
  rw [runGenerate, run_withRegistry, hload]
  simp only [hgenerate]
  rfl

theorem runGenerate_write {text : String} (h : documentOf tree file format scope = .ok text)
    (colors verbose : Bool) (path : String) :
    ∃ start,
      (runGenerate colors verbose file format scope (some path) : StateM Tree Outcome).run tree =
        match tree.perform (writeOutput path text) with
        | (.ok (), later) => ({ stdout := printed (start ++ [doneLine colors path]) }, later)
        | (.error error, later) => (generateFailed (printed start) scope error, later) := by
  obtain ⟨registry, hload, hgenerate⟩ := bind_eq_ok_iff.mp h
  refine ⟨startLines colors verbose scope file path, ?_⟩
  rw [runGenerate, run_withRegistry, hload]
  simp only [generateToFile_of_ok hgenerate, Tree.run_bind_perform]
  generalize tree.perform (writeOutput path text) = outcome
  obtain ⟨error | ⟨⟩, later⟩ := outcome <;> rfl

end

end CommandLine

open CommandLine

/-- Output is all or nothing. Where there is no document nothing changes, and where
a file is written it holds the document; a document that is not to be written is
printed. -/
theorem output_all_or_nothing (tree : Tree) (scope : Scope) :
    (∀ registry sources path,
      (∀ error, generate registry scope sources = .error error →
        tree.perform (generateToFile registry scope path sources) = (.error error, tree)) ∧
      ∀ later, tree.perform (generateToFile registry scope path sources) = (.ok (), later) →
        ∃ text place, generate registry scope sources = .ok text ∧
          Written tree path text later place) ∧
    ∀ colors arguments file format output verbose,
      Request.read arguments =
          .ok ⟨.generate file format scope.app scope.model output, verbose⟩ →
        (∀ error, documentOf tree file format scope = .error error → ∃ stdout report,
          runOn tree colors arguments = (.failed stdout report, tree)) ∧
        ∀ text, documentOf tree file format scope = .ok text →
          (output = none → runOn tree colors arguments = ({ stdout := text }, tree)) ∧
          ∀ path, output = some path → (runOn tree colors arguments).1.code = 0 →
            ∃ place, Written tree path text (runOn tree colors arguments).2 place := by
  constructor
  · intro registry sources path
    constructor
    · intro error hgenerate
      rw [generateToFile_of_error hgenerate]
      rfl
    · intro later hlater
      cases hgenerate : generate registry scope sources with
      | error error =>
          rw [generateToFile_of_error hgenerate] at hlater
          cases hlater
      | ok text =>
          rw [generateToFile_of_ok hgenerate] at hlater
          have hwritten := perform_writeOutput tree path text
          rw [hlater] at hwritten
          obtain ⟨place, hplace⟩ := hwritten
          exact ⟨text, place, rfl, hplace⟩
  · intro colors arguments file format output verbose hread
    rw [runOn_generate hread]
    refine ⟨fun error herror => runGenerate_of_error herror colors verbose output, ?_⟩
    intro text htext
    refine ⟨?_, ?_⟩
    · rintro rfl
      exact runGenerate_print htext colors verbose
    · rintro path rfl hcode
      obtain ⟨start, hrun⟩ := runGenerate_write htext colors verbose path
      have hwritten := perform_writeOutput tree path text
      rw [hrun] at hcode ⊢
      generalize tree.perform (writeOutput path text) = result at hcode hwritten ⊢
      obtain ⟨error | ⟨⟩, later⟩ := result
      · cases hcode
      · exact hwritten

def shelf : Registry :=
  ⟨[⟨"shelf", [{ name := "Book", key := "title", fields := [⟨"title", "CharField"⟩] }]⟩]⟩

def shelved : Tree where
  entries :=
    [(["books.yaml"], .file (String.toUTF8 (CommandLine.printed
      ["apps:",
        "- name: shelf",
        "  models:",
        "  - name: Book",
        "    pk: title",
        "    fields:",
        "    - name: title",
        "      type: CharField"])))]

def toShelf (app : String) (output : Option String) : List String :=
  ["generate", "--registry", "books.yaml", "--app", app] ++
    output.elim [] fun path => ["--output", path]

theorem output_all_or_nothing_shelved :
    (shelved.perform (generateToFile shelf ⟨"desk", none⟩ "shelf.proto") =
      (.error (.unknownScope "desk"), shelved)) ∧
    (∃ text place, generate shelf ⟨"shelf", none⟩ = .ok text ∧
      Written shelved "shelf.proto" text
        (shelved.perform (generateToFile shelf ⟨"shelf", none⟩ "shelf.proto")).2 place) ∧
    (∃ stdout report,
      runOn shelved false (toShelf "desk" (some "out/shelf.proto")) =
        (.failed stdout report, shelved)) ∧
    ∃ text, documentOf shelved "books.yaml" none ⟨"shelf", none⟩ = .ok text ∧
      runOn shelved false (toShelf "shelf" none) = ({ stdout := text }, shelved) ∧
      ∃ place, Written shelved "out/shelf.proto" text
        (runOn shelved false (toShelf "shelf" (some "out/shelf.proto"))).2 place := by
  have hread : ∀ app ∈ ["desk", "shelf"], ∀ output ∈ [none, some "out/shelf.proto"],
      Request.read (toShelf app output) =
        .ok ⟨.generate "books.yaml" none app none output, false⟩ := by
    decide +kernel
  have hread_desk := hread "desk" (by decide)
  have hread_shelf := hread "shelf" (by decide)
  refine ⟨?_, ?_, ?_, ?_⟩
  · exact ((output_all_or_nothing shelved ⟨"desk", none⟩).1 shelf {} "shelf.proto").1 _ rfl
  · exact ((output_all_or_nothing shelved ⟨"shelf", none⟩).1 shelf {} "shelf.proto").2 _ rfl
  · have hdocument : documentOf shelved "books.yaml" none ⟨"desk", none⟩ =
        .error (.unknownScope "desk") := by decide +kernel
    exact ((output_all_or_nothing shelved ⟨"desk", none⟩).2 false _ _ _ _ _
      (hread_desk (some "out/shelf.proto") (by decide))).1 _ hdocument
  · have hdocument : ∃ text, documentOf shelved "books.yaml" none ⟨"shelf", none⟩ = .ok text := by
      have hsome : (documentOf shelved "books.yaml" none ⟨"shelf", none⟩).toOption.isSome = true := by
        decide +kernel
      obtain ⟨text, htext⟩ := Option.isSome_iff_exists.mp hsome
      exact ⟨text, eq_ok_of_toOption htext⟩
    obtain ⟨text, htext⟩ := hdocument
    refine ⟨text, htext, ?_, ?_⟩
    · exact (((output_all_or_nothing shelved ⟨"shelf", none⟩).2 false _ _ _ _ _
        (hread_shelf none (by decide))).2 text htext).1 rfl
    · exact (((output_all_or_nothing shelved ⟨"shelf", none⟩).2 false _ _ _ _ _
        (hread_shelf (some "out/shelf.proto") (by decide))).2 text htext).2 _ rfl (by decide +kernel)

end Protoscribe
