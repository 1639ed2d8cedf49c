import Protoscribe.Files.Tree
import Protoscribe.Proofs.FirstFault
import Mathlib.Data.List.TakeWhile

/-!
How a tree changes while directories and files are made in it. A path that leads
somewhere leads to the same place as long as nothing vanishes and no directory
stops being one. Making a directory adds it at the place to which its path leads
from then on, and making those around it first adds nothing but directories on
the way, whether the whole succeeds or stops half-way.
-/

namespace Protoscribe.Files

namespace Tree

/-! ### Walks -/

/-- Whatever stands in the one tree stands in the other, and directories are still
directories. The content of files may be another one. -/
structure Keeps (tree later : Tree) : Prop where
  working : later.working = tree.working
  present : ∀ location, (tree.at? location).isSome = true → (later.at? location).isSome = true
  directory : ∀ location, tree.isDirectoryAt location = true → later.isDirectoryAt location = true

theorem isDirectoryAt_iff {tree : Tree} {location : Location} :
    tree.isDirectoryAt location = true ↔ tree.at? location = some .directory := by
  unfold isDirectoryAt
  cases tree.at? location with
  | none => simp
  | some entry => cases entry <;> simp [Entry.isDirectory]

theorem step_of_directory {tree : Tree} {location : Location}
    (hdirectory : tree.isDirectoryAt location = true) (segment : List Char) :
    tree.step location segment =
      if isTrivial segment then .ok location
      else if segment = ['.', '.'] then .ok location.dropLast
      else if maxName < (String.ofList segment).utf8ByteSize then .error .nameTooLong
      else if (tree.at? (location ++ [String.ofList segment])).isSome then
        .ok (location ++ [String.ofList segment])
      else .error .missing := by
  simp [step, hdirectory]

theorem isDirectoryAt_of_step {tree : Tree} {location place : Location} {segment : List Char}
    (h : tree.step location segment = .ok place) : tree.isDirectoryAt location = true := by
  by_contra hnone
  rw [Bool.not_eq_true] at hnone
  simp [step, hnone] at h

theorem Keeps.step {tree later : Tree} (hkeeps : Keeps tree later) {location place : Location}
    {segment : List Char} (h : tree.step location segment = .ok place) :
    later.step location segment = .ok place := by
  have hdirectory := isDirectoryAt_of_step h
  rw [step_of_directory hdirectory] at h
  rw [step_of_directory (hkeeps.directory location hdirectory)]
  split_ifs at h ⊢ with htrivial hparent hlong hlater hpresent hpresent
  · exact h
  · exact h
  · exact h
  · exact absurd (hkeeps.present _ hpresent) hlater

theorem Keeps.walk {tree later : Tree} (hkeeps : Keeps tree later) {location place : Location}
    {segments : List (List Char)} (h : tree.walk location segments = .ok place) :
    later.walk location segments = .ok place := by
  induction segments generalizing location with
  | nil => exact h
  | cons segment rest ih =>
      obtain ⟨next, hstep, hrest⟩ := bind_eq_ok_iff.mp h
      exact bind_eq_ok_iff.mpr ⟨next, hkeeps.step hstep, ih hrest⟩

theorem Keeps.start {tree later : Tree} (hkeeps : Keeps tree later) (path : String) :
    later.start path = tree.start path := by
  unfold Tree.start
  rw [hkeeps.working]

/-- A path that leads somewhere leads there for good. -/
theorem Keeps.find {tree later : Tree} (hkeeps : Keeps tree later) {path : String}
    {place : Location} (h : tree.find path = .ok place) : later.find path = .ok place := by
  obtain ⟨_, hrequired, hwalk⟩ := bind_eq_ok_iff.mp h
  refine bind_eq_ok_iff.mpr ⟨(), hrequired, ?_⟩
  rw [hkeeps.start]
  exact hkeeps.walk hwalk

theorem walk_append (tree : Tree) (location : Location) (first second : List (List Char)) :
    tree.walk location (first ++ second) =
      (tree.walk location first >>= fun place => tree.walk place second) := by
  induction first generalizing location with
  | nil => rfl
  | cons segment rest ih =>
      simp only [List.cons_append, walk, bind_assoc, ih]

/-- Slashes behind a directory change nothing. -/
theorem walk_blanks {tree : Tree} {place : Location} (h : tree.isDirectoryAt place = true)
    {blanks : List (List Char)} (hblanks : ∀ segment ∈ blanks, segment = []) :
    tree.walk place blanks = .ok place := by
  induction blanks with
  | nil => rfl
  | cons segment rest ih =>
      obtain ⟨rfl, hrest⟩ := List.forall_mem_cons.mp hblanks
      have hstep : tree.step place [] = .ok place := step_of_directory h []
      exact bind_eq_ok_iff.mpr ⟨place, hstep, ih hrest⟩

/-! ### The place of a new entry -/

/-- How a path ends in the name of a new entry: what stands before the name leads
to a directory, and at most slashes stand behind it. -/
structure Names (tree : Tree) (path : String) (target : Target) (before : List (List Char))
    (last : List Char) (blanks : List (List Char)) : Prop where
  required : requirePath path = .ok ()
  segments : segments path.toList = before ++ last :: blanks
  blank : ∀ segment ∈ blanks, segment = []
  slashed : target.slashed = false → blanks = []
  walk : tree.walk (tree.start path) before = .ok target.parent
  parent : tree.isDirectoryAt target.parent = true
  named : isTrivial last = false ∧ last ≠ ['.', '.']
  name : target.name = String.ofList last

/-- What is cut off behind the last segment that is not empty. -/
theorem split_at_last {segments outer : List (List Char)} {last : List Char}
    (h : segments.reverse.dropWhile (· = []) = last :: outer) :
    ∃ blanks, segments = outer.reverse ++ last :: blanks ∧ ∀ segment ∈ blanks, segment = [] := by
  have hsplit := List.takeWhile_append_dropWhile (p := fun segment : List Char => segment = [])
    (l := segments.reverse)
  rw [h] at hsplit
  refine ⟨(segments.reverse.takeWhile (· = [])).reverse, ?_, ?_⟩
  · simpa using (congrArg List.reverse hsplit).symm
  · intro segment hin
    have hblank := List.mem_takeWhile_imp (List.mem_reverse.mp hin)
    exact of_decide_eq_true hblank

theorem exists_names {tree : Tree} {path : String} {target : Target}
    (h : tree.target path = .ok (some target)) :
    ∃ before last blanks, tree.Names path target before last blanks := by
  obtain ⟨_, hrequired, h⟩ := bind_eq_ok_iff.mp h
  cases htrimmed : (segments path.toList).reverse.dropWhile (· = []) with
  | nil =>
      simp only [htrimmed] at h
      cases h
  | cons last outer =>
      obtain ⟨blanks, hsegments, hblank⟩ := split_at_last htrimmed
      simp only [htrimmed] at h
      split_ifs at h with hstep
      · obtain ⟨_, _, h⟩ := bind_eq_ok_iff.mp h
        cases h
      · obtain ⟨parent, hwalk, h⟩ := bind_eq_ok_iff.mp h
        split_ifs at h with hparent
        cases h
        refine ⟨outer.reverse, last, blanks, hrequired, hsegments, hblank, ?_, hwalk, ?_, ?_, rfl⟩
        · intro hslashed
          have hlength := of_decide_eq_false hslashed
          rw [hsegments] at hlength
          simpa using hlength
        · simpa using hparent
        · simpa using hstep

/-- A path leads to its new entry once that is there, and over slashes only if it
is a directory. -/
theorem Keeps.find_target {tree later : Tree} (hkeeps : Keeps tree later) {path : String}
    {target : Target} (h : tree.target path = .ok (some target))
    (hshort : ¬maxName < target.name.utf8ByteSize)
    (hpresent : (later.at? target.location).isSome = true)
    (hslashed : target.slashed = true → later.isDirectoryAt target.location = true) :
    later.find path = .ok target.location := by
  obtain ⟨before, last, blanks, hnames⟩ := exists_names h
  have hparent := hkeeps.directory _ hnames.parent
  have hstep : later.step target.parent last = .ok target.location := by
    have hlocation : target.location = target.parent ++ [String.ofList last] := by
      rw [Target.location, hnames.name]
    rw [step_of_directory hparent, ← hlocation, ← hnames.name]
    simp [hnames.named, hshort, hpresent]
  have hblanks : later.walk target.location blanks = .ok target.location := by
    cases hslash : target.slashed with
    | true => exact walk_blanks (hslashed hslash) hnames.blank
    | false => rw [hnames.slashed hslash]; rfl
  refine bind_eq_ok_iff.mpr ⟨(), hnames.required, ?_⟩
  rw [hkeeps.start, hnames.segments, walk_append]
  refine bind_eq_ok_iff.mpr ⟨target.parent, hkeeps.walk hnames.walk, ?_⟩
  exact bind_eq_ok_iff.mpr ⟨target.location, hstep, hblanks⟩

theorem Target.location_ne_nil (target : Target) : target.location ≠ [] := by
  simp [Target.location]

/-- Another entry at a place that holds no directory. -/
theorem keeps_put {tree : Tree} {location : Location} (hlocation : location ≠ [])
    (hdirectory : tree.isDirectoryAt location = false) (entry : Entry) :
    Keeps tree (tree.put location entry) where
  working := rfl
  present := by
    intro other hother
    rw [at?_put tree entry other hlocation]
    split_ifs
    · rfl
    · exact hother
  directory := by
    intro other hother
    have hne : other ≠ location := by
      rintro rfl
      rw [hdirectory] at hother
      cases hother
    rw [isDirectoryAt_iff, at?_put tree entry other hlocation, if_neg hne]
    exact isDirectoryAt_iff.mp hother

/-- A new directory stands at a place that was free, to which its path leads then. -/
theorem makeDirectory_eq_ok {tree later : Tree} {path : String}
    (h : tree.makeDirectory path = .ok later) :
    ∃ place, place ≠ [] ∧ tree.at? place = none ∧ later = tree.put place .directory ∧
      later.find path = .ok place := by
  obtain ⟨found, htarget, h⟩ := bind_eq_ok_iff.mp h
  cases found with
  | none => cases h
  | some target =>
      simp only at h
      split_ifs at h with hlong hpresent
      cases h
      have hfree : tree.at? target.location = none := by simpa using hpresent
      have hkeeps : Keeps tree (tree.put target.location .directory) :=
        keeps_put target.location_ne_nil (by simp [isDirectoryAt, hfree]) .directory
      have hmade : (tree.put target.location .directory).at? target.location = some .directory := by
        rw [at?_put tree _ _ target.location_ne_nil, if_pos rfl]
      refine ⟨target.location, target.location_ne_nil, hfree, rfl, ?_⟩
      exact hkeeps.find_target htarget hlong (by rw [hmade]; rfl)
        fun _ => isDirectoryAt_iff.mpr hmade

/-- A written file stands at a place that held no directory, to which its path leads
then. -/
theorem write_eq_ok {tree later : Tree} {path : String} {content : ByteArray}
    (h : tree.write path content = .ok later) :
    ∃ place, place ≠ [] ∧ tree.isDirectoryAt place = false ∧
      later = tree.put place (.file content) ∧ later.find path = .ok place := by
  obtain ⟨found, htarget, h⟩ := bind_eq_ok_iff.mp h
  cases found with
  | none => cases h
  | some target =>
      simp only at h
      split_ifs at h with hslashed hlong hdirectory
      cases h
      rw [Bool.not_eq_true] at hdirectory
      have hkeeps : Keeps tree (tree.put target.location (.file content)) :=
        keeps_put target.location_ne_nil hdirectory (.file content)
      refine ⟨target.location, target.location_ne_nil, hdirectory, rfl, ?_⟩
      refine hkeeps.find_target htarget hlong ?_ fun hslash => absurd hslash hslashed
      rw [at?_put tree _ _ target.location_ne_nil, if_pos rfl]
      rfl

/-! ### Growth -/

/-- All entries stay as they are, and what is new are directories to which one of
the paths leads. -/
structure GrowsBy (paths : List String) (tree later : Tree) : Prop where
  working : later.working = tree.working
  kept : ∀ location entry, tree.at? location = some entry → later.at? location = some entry
  made : ∀ location, tree.at? location = none → (later.at? location).isSome = true →
    later.at? location = some .directory ∧ ∃ path ∈ paths, later.find path = .ok location

namespace GrowsBy

variable {paths : List String} {tree middle later : Tree}

theorem refl (paths : List String) (tree : Tree) : GrowsBy paths tree tree where
  working := rfl
  kept _ _ h := h
  made location hnone hsome := by simp [hnone] at hsome

theorem keeps (h : GrowsBy paths tree later) : Keeps tree later where
  working := h.working
  present location hsome := by
    obtain ⟨entry, hentry⟩ := Option.isSome_iff_exists.mp hsome
    rw [h.kept location entry hentry]
    rfl
  directory location hdirectory :=
    isDirectoryAt_iff.mpr (h.kept location .directory (isDirectoryAt_iff.mp hdirectory))

theorem trans (h : GrowsBy paths tree middle) (hlater : GrowsBy paths middle later) :
    GrowsBy paths tree later where
  working := hlater.working.trans h.working
  kept location entry hentry := hlater.kept location entry (h.kept location entry hentry)
  made location hnone hsome := by
    cases hmiddle : middle.at? location with
    | none => exact hlater.made location hmiddle hsome
    | some entry =>
        obtain ⟨hdirectory, path, hpath, hfind⟩ := h.made location hnone (by rw [hmiddle]; rfl)
        exact ⟨hlater.kept location .directory hdirectory, path, hpath, hlater.keeps.find hfind⟩

/-- One more directory. -/
theorem of_makeDirectory {path : String} (hpath : path ∈ paths)
    (h : tree.makeDirectory path = .ok later) : GrowsBy paths tree later := by
  obtain ⟨place, hplace, hnone, rfl, hfind⟩ := makeDirectory_eq_ok h
  refine ⟨rfl, ?_, ?_⟩
  · intro location entry hentry
    have hne : location ≠ place := by
      rintro rfl
      rw [hnone] at hentry
      cases hentry
    rw [at?_put tree _ _ hplace, if_neg hne]
    exact hentry
  · intro location hfree hsome
    rw [at?_put tree _ _ hplace] at hsome ⊢
    split_ifs at hsome ⊢ with heq
    · exact ⟨rfl, path, hpath, heq ▸ hfind⟩
    · simp [hfree] at hsome

end GrowsBy

/-! ### Operations in a row -/

section

variable {ε ε' α β : Type}

/-- What an operation gives on a tree, and the tree behind it. -/
def perform (tree : Tree) (action : ExceptT ε (StateM Tree) α) : Except ε α × Tree :=
  action.run.run tree

/-- What goes on behind an operation that may have failed. -/
theorem run_bind_perform (tree : Tree) (action : ExceptT ε (StateM Tree) α)
    (next : Except ε α → StateM Tree β) :
    (action.run >>= next).run tree = (next (tree.perform action).1).run (tree.perform action).2 :=
  rfl

theorem perform_bind (tree : Tree) (action : ExceptT ε (StateM Tree) α)
    (next : α → ExceptT ε (StateM Tree) β) :
    tree.perform (action >>= next) =
      match tree.perform action with
      | (.ok value, later) => later.perform (next value)
      | (.error fault, later) => (.error fault, later) := by
  rw [perform, ExceptT.run_bind, run_bind_perform]
  generalize tree.perform action = outcome
  obtain ⟨fault | value, later⟩ := outcome <;> rfl

theorem perform_tryCatch (tree : Tree) (action : ExceptT ε (StateM Tree) α)
    (handle : ε → ExceptT ε (StateM Tree) α) :
    tree.perform (MonadExcept.tryCatch action handle) =
      match tree.perform action with
      | (.ok value, later) => (.ok value, later)
      | (.error fault, later) => later.perform (handle fault) := by
  change (ExceptT.tryCatch action handle).run.run tree = _
  rw [ExceptT.tryCatch, ExceptT.run_mk]
  refine (run_bind_perform tree action _).trans ?_
  generalize tree.perform action = outcome
  obtain ⟨fault | value, later⟩ := outcome <;> rfl

theorem perform_adapt (tree : Tree) (f : ε → ε') (action : ExceptT ε (StateM Tree) α) :
    tree.perform (action.adapt f) = ((tree.perform action).1.mapError f, (tree.perform action).2) :=
  rfl

/-- An operation that fails leaves the tree as it is. -/
theorem perform_change (tree : Tree) (operation : Tree → Except Fault Tree) :
    tree.perform (change operation) =
      match operation tree with
      | .ok later => (.ok (), later)
      | .error fault => (.error fault, tree) := by
  change (match operation tree with
    | .ok later => set later
    | .error fault => throw fault : ExceptT Fault (StateM Tree) Unit).run.run tree = _
  cases operation tree <;> rfl

theorem perform_makeDirectory (tree : Tree) (path : String) :
    tree.perform (Store.makeDirectory path) =
      match tree.makeDirectory path with
      | .ok later => (.ok (), later)
      | .error fault => (.error fault, tree) :=
  perform_change tree (·.makeDirectory path)

theorem perform_write (tree : Tree) (path : String) (content : ByteArray) :
    tree.perform (Store.write path content) =
      match tree.write path content with
      | .ok later => (.ok (), later)
      | .error fault => (.error fault, tree) :=
  perform_change tree (·.write path content)

theorem perform_readText (tree : Tree) (path : String) :
    tree.perform (readText path) =
      match tree.read path with
      | .ok content =>
          match String.fromUTF8? content with
          | some text => (.ok text, tree)
          | none => (.error .notText, tree)
      | .error fault => (.error fault, tree) := by
  have hread : tree.perform (Store.read path) =
      match tree.read path with
      | .ok content => (.ok content, tree)
      | .error fault => (.error fault, tree) := by
    change (match tree.read path with
      | .ok content => pure content
      | .error fault => throw fault : ExceptT Fault (StateM Tree) ByteArray).run.run tree = _
    cases tree.read path <;> rfl
  rw [readText, perform_bind, hread]
  cases tree.read path with
  | error fault => rfl
  | ok content =>
      simp only
      cases String.fromUTF8? content <;> rfl

/-- A file that holds the bytes of a text is read as the text. -/
theorem perform_readText_of_file {tree : Tree} {path text : String} {place : Location}
    (hleads : tree.find path = .ok place) (hcontent : tree.at? place = some (.file text.toUTF8)) :
    tree.perform (readText path) = (.ok text, tree) := by
  have hread : tree.read path = .ok text.toUTF8 := by
    refine bind_eq_ok_iff.mpr ⟨place, hleads, ?_⟩
    rw [hcontent]
    rfl
  have htext : String.fromUTF8? text.toUTF8 = some text := dif_pos text.isValidUTF8
  rw [perform_readText, hread]
  simp only [htext]

/-- Whatever tree the operation starts from, and whether it succeeds or not, it
adds nothing but directories on the paths. -/
def OnlyMakes (paths : List String) (action : ExceptT ε (StateM Tree) α) : Prop :=
  ∀ tree : Tree, GrowsBy paths tree (tree.perform action).2

namespace OnlyMakes

variable {paths : List String}

theorem pure (value : α) :
    OnlyMakes paths (Pure.pure value : ExceptT ε (StateM Tree) α) :=
  fun tree => .refl paths tree

theorem throw (fault : ε) :
    OnlyMakes paths (MonadExcept.throw fault : ExceptT ε (StateM Tree) α) :=
  fun tree => .refl paths tree

theorem bind {action : ExceptT ε (StateM Tree) α} {next : α → ExceptT ε (StateM Tree) β}
    (h : OnlyMakes paths action) (hnext : ∀ value, OnlyMakes paths (next value)) :
    OnlyMakes paths (action >>= next) := by
  intro tree
  have hfirst := h tree
  rw [perform_bind]
  generalize tree.perform action = outcome at hfirst ⊢
  obtain ⟨fault | value, middle⟩ := outcome
  · exact hfirst
  · exact hfirst.trans (hnext value middle)

theorem tryCatch {action : ExceptT ε (StateM Tree) α} {handle : ε → ExceptT ε (StateM Tree) α}
    (h : OnlyMakes paths action) (hhandle : ∀ fault, OnlyMakes paths (handle fault)) :
    OnlyMakes paths (MonadExcept.tryCatch action handle) := by
  intro tree
  have hfirst := h tree
  rw [perform_tryCatch]
  generalize tree.perform action = outcome at hfirst ⊢
  obtain ⟨fault | value, middle⟩ := outcome
  · exact hfirst.trans (hhandle fault middle)
  · exact hfirst

theorem ite {condition : Prop} [Decidable condition] {first second : ExceptT ε (StateM Tree) α}
    (hfirst : OnlyMakes paths first) (hsecond : OnlyMakes paths second) :
    OnlyMakes paths (if condition then first else second) := by
  split
  · exact hfirst
  · exact hsecond

theorem adapt {action : ExceptT ε (StateM Tree) α} (f : ε → ε') (h : OnlyMakes paths action) :
    OnlyMakes paths (action.adapt f) :=
  fun tree => h tree

theorem isDirectory (path : String) :
    OnlyMakes paths (liftM (Store.isDirectory path : StateM Tree Bool) :
      ExceptT ε (StateM Tree) Bool) :=
  fun tree => .refl paths tree

theorem makeDirectory {path : String} (hpath : path ∈ paths) :
    OnlyMakes paths (Store.makeDirectory path : ExceptT Fault (StateM Tree) Unit) := by
  intro tree
  rw [perform_makeDirectory]
  cases hmade : tree.makeDirectory path with
  | error fault => exact .refl paths tree
  | ok later => exact .of_makeDirectory hpath hmade

theorem ensureDirectory {path : String} (hpath : path ∈ paths) :
    OnlyMakes paths (Files.ensureDirectory path : ExceptT Fault (StateM Tree) Unit) := by
  refine bind (tryCatch (bind (makeDirectory hpath) fun _ => pure _) fun fault => ?_) fun result => ?_
  · exact bind (isDirectory path) fun _ => ite (pure _) (bind (throw fault) fun _ => pure _)
  · cases result <;> exact pure _

theorem makeOutward {outer : List String} (houter : outer ⊆ paths) :
    OnlyMakes paths (Files.makeOutward outer : ExceptT Fault (StateM Tree) Unit) := by
  induction outer with
  | nil => exact throw _
  | cons path rest ih =>
      obtain ⟨hpath, hrest⟩ := List.cons_subset.mp houter
      rw [Files.makeOutward]
      refine ite (pure _) (bind (tryCatch (bind (makeDirectory hpath) fun _ => pure _)
        fun fault => ?_) fun result => ?_)
      · split
        · exact bind (ih hrest) fun _ => bind (ensureDirectory hpath) fun _ => pure _
        · exact bind (isDirectory path) fun _ => ite (pure _) (bind (throw _) fun _ => pure _)
      · cases result <;> exact pure _

end OnlyMakes

end

end Tree

end Protoscribe.Files
