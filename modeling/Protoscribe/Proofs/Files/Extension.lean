import Mathlib.Data.List.Induction
import Mathlib.Data.List.TakeWhile
import Protoscribe.Files.Path

/-!
The extension of a path, said without cutting it into segments. A path ends in a name
behind which at most slashes and single dots stand, and the extension of this name is
what follows its last dot, where something stands in front of that dot.
-/

namespace Protoscribe.Files

/-- What may stand behind the last name of a path: slashes, each perhaps with a single
dot after it. -/
inductive Trailing : List Char → Prop where
  | nil : Trailing []
  | slash {rest : List Char} (h : Trailing rest) : Trailing ('/' :: rest)
  | dot {rest : List Char} (h : Trailing rest) : Trailing ('/' :: '.' :: rest)

/-- The path ends in a name, which is neither the place itself nor the step to the parent. -/
structure EndsIn (path name : List Char) : Prop where
  split : ∃ front behind, path = front ++ name ++ behind ∧
    (front = [] ∨ ∃ outer, front = outer ++ ['/']) ∧ Trailing behind
  slash : '/' ∉ name
  ne_nil : name ≠ []
  ne_dot : name ≠ ['.']
  ne_parent : name ≠ ['.', '.']

/-- The name that a path ends in has something in front of its last dot, and the
extension behind it. -/
def HasExtension (path extension : String) : Prop :=
  ∃ stem, stem ≠ [] ∧ '.' ∉ extension.toList ∧
    EndsIn path.toList (stem ++ '.' :: extension.toList)

/-! ### Segments -/

theorem segments_ne_nil (cs : List Char) : segments cs ≠ [] := by
  induction cs with
  | nil => simp [segments]
  | cons c rest ih =>
      by_cases hslash : c = '/'
      · subst hslash
        simp [segments]
      · rw [segments]
        · cases segments rest <;> simp
        · exact hslash

/-- A character that is no slash goes to the first segment of what follows it. -/
theorem segments_cons {c : Char} (h : c ≠ '/') (rest : List Char) :
    ∃ first others, segments rest = first :: others ∧
      segments (c :: rest) = (c :: first) :: others := by
  obtain ⟨first, others, hrest⟩ := List.exists_cons_of_ne_nil (segments_ne_nil rest)
  refine ⟨first, others, hrest, ?_⟩
  rw [segments, hrest]
  exact h

theorem segments_of_not_mem {cs : List Char} (h : '/' ∉ cs) : segments cs = [cs] := by
  induction cs with
  | nil => rfl
  | cons c rest ih =>
      rw [List.mem_cons, not_or] at h
      obtain ⟨first, others, hrest, hcons⟩ := segments_cons (Ne.symm h.1) rest
      rw [ih h.2] at hrest
      cases hrest
      exact hcons

theorem segments_slash (first second : List Char) :
    segments (first ++ '/' :: second) = segments first ++ segments second := by
  induction first with
  | nil => rfl
  | cons c rest ih =>
      by_cases hslash : c = '/'
      · subst hslash
        rw [List.cons_append, segments, segments, ih, List.cons_append]
      · obtain ⟨segment, others, hrest, hcons⟩ := segments_cons hslash rest
        obtain ⟨_, _, hlonger, hlongerCons⟩ := segments_cons hslash (rest ++ '/' :: second)
        rw [ih, hrest] at hlonger
        cases hlonger
        rw [List.cons_append, hlongerCons, hcons]
        rfl

theorem slash_not_mem_segment {cs segment : List Char} (h : segment ∈ segments cs) :
    '/' ∉ segment := by
  induction cs generalizing segment with
  | nil =>
      rw [segments, List.mem_singleton] at h
      simp [h]
  | cons c rest ih =>
      by_cases hslash : c = '/'
      · subst hslash
        rw [segments, List.mem_cons] at h
        rcases h with rfl | hlater
        · simp
        · exact ih hlater
      · obtain ⟨first, others, hrest, hcons⟩ := segments_cons hslash rest
        rw [hrest] at ih
        rw [hcons, List.mem_cons] at h
        rcases h with rfl | hlater
        · rw [List.mem_cons, not_or]
          exact ⟨Ne.symm hslash, ih List.mem_cons_self⟩
        · exact ih (List.mem_cons_of_mem first hlater)

theorem joinSegments_cons (segment : List Char) {others : List (List Char)} (h : others ≠ []) :
    joinSegments (segment :: others) = segment ++ '/' :: joinSegments others := by
  obtain ⟨next, rest, rfl⟩ := List.exists_cons_of_ne_nil h
  rfl

theorem joinSegments_segments (cs : List Char) : joinSegments (segments cs) = cs := by
  induction cs with
  | nil => rfl
  | cons c rest ih =>
      by_cases hslash : c = '/'
      · subst hslash
        rw [segments, joinSegments_cons [] (segments_ne_nil rest), ih, List.nil_append]
      · obtain ⟨first, others, hrest, hcons⟩ := segments_cons hslash rest
        rw [hrest] at ih
        rw [hcons, ← ih]
        cases others <;> rfl

/-- Segments around one of them, as text. -/
theorem joinSegments_around (before : List (List Char)) (segment : List Char)
    (after : List (List Char)) :
    joinSegments (before ++ segment :: after) =
      before.flatMap (· ++ ['/']) ++ segment ++ after.flatMap ('/' :: ·) := by
  induction before with
  | nil =>
      induction after generalizing segment with
      | nil => simp [joinSegments]
      | cons next after ih =>
          have hnext := ih next
          simp only [List.nil_append, List.flatMap_nil] at hnext ⊢
          rw [joinSegments_cons segment (List.cons_ne_nil next after), hnext, List.flatMap_cons,
            List.cons_append]
  | cons first before ih =>
      rw [List.cons_append, joinSegments_cons first (by simp), ih]
      simp

/-! ### The last name -/

theorem isTrivial_iff {segment : List Char} :
    isTrivial segment = true ↔ segment = [] ∨ segment = ['.'] := by
  simp [isTrivial]

theorem trailing_flatMap {after : List (List Char)}
    (h : ∀ segment ∈ after, isTrivial segment = true) : Trailing (after.flatMap ('/' :: ·)) := by
  induction after with
  | nil => exact .nil
  | cons segment after ih =>
      obtain ⟨hsegment, hafter⟩ := List.forall_mem_cons.mp h
      rcases isTrivial_iff.mp hsegment with rfl | rfl
      · exact .slash (ih hafter)
      · exact .dot (ih hafter)

theorem Trailing.segments {name behind : List Char} (h : Trailing behind) (hname : '/' ∉ name) :
    ∃ after, segments (name ++ behind) = name :: after ∧
      ∀ segment ∈ after, isTrivial segment = true := by
  induction h generalizing name with
  | nil => exact ⟨[], by rw [List.append_nil, segments_of_not_mem hname], by simp⟩
  | slash _ ih =>
      have hnone : '/' ∉ ([] : List Char) := by simp
      obtain ⟨after, hafter, htrivial⟩ := ih hnone
      refine ⟨[] :: after, ?_, List.forall_mem_cons.mpr ⟨rfl, htrivial⟩⟩
      rw [segments_slash, segments_of_not_mem hname, ← hafter]
      rfl
  | dot _ ih =>
      have hdot : '/' ∉ ['.'] := by decide
      obtain ⟨after, hafter, htrivial⟩ := ih hdot
      refine ⟨['.'] :: after, ?_, List.forall_mem_cons.mpr ⟨rfl, htrivial⟩⟩
      rw [segments_slash, segments_of_not_mem hname, ← hafter]
      rfl

theorem EndsIn.segments {path name : List Char} (h : EndsIn path name) :
    ∃ before after, segments path = before ++ name :: after ∧
      ∀ segment ∈ after, isTrivial segment = true := by
  obtain ⟨front, behind, rfl, hfront, hbehind⟩ := h.split
  obtain ⟨after, hafter, htrivial⟩ := hbehind.segments h.slash
  rcases hfront with rfl | ⟨outer, rfl⟩
  · exact ⟨[], after, by simpa using hafter, htrivial⟩
  · refine ⟨Files.segments outer, after, ?_, htrivial⟩
    rw [List.append_assoc, List.append_assoc, List.singleton_append, segments_slash, hafter]

theorem getLast?_filter_eq_some_iff {α : Type} {p : α → Bool} {items : List α} {item : α} :
    (items.filter p).getLast? = some item ↔
      p item = true ∧ ∃ before after, items = before ++ item :: after ∧
        ∀ other ∈ after, p other = false := by
  rw [List.getLast?_eq_head?_reverse, ← List.filter_reverse, List.head?_filter,
    List.find?_eq_some_iff_append]
  refine and_congr_right fun _ => ?_
  constructor
  · rintro ⟨after, before, hitems, hafter⟩
    refine ⟨before.reverse, after.reverse, ?_, by simpa using hafter⟩
    simpa using congrArg List.reverse hitems
  · rintro ⟨before, after, rfl, hafter⟩
    exact ⟨after.reverse, before.reverse, by simp, by simpa using hafter⟩

theorem EndsIn.not_trivial {path name : List Char} (h : EndsIn path name) :
    isTrivial name = false := by
  rw [Bool.eq_false_iff, Ne, isTrivial_iff, not_or]
  exact ⟨h.ne_nil, h.ne_dot⟩

/-- The name of a path is its last segment that says something, unless that leads to the
parent. -/
theorem fileName?_eq_some_iff {path name : List Char} :
    fileName? path = some name ↔ EndsIn path name := by
  have hlast : fileName? path = some name ↔
      ((segments path).filter (!isTrivial ·)).getLast? = some name ∧ name ≠ ['.', '.'] := by
    unfold fileName?
    split
    · next hparent => simp [hparent, eq_comm]
    · next hother =>
        refine ⟨fun h => ⟨h, ?_⟩, fun h => h.1⟩
        rintro rfl
        exact hother h
  rw [hlast, getLast?_filter_eq_some_iff]
  constructor
  · rintro ⟨⟨hname, before, after, hsegments, hafter⟩, hparent⟩
    rw [Bool.not_eq_true', Bool.eq_false_iff, Ne, isTrivial_iff, not_or] at hname
    refine ⟨⟨before.flatMap (· ++ ['/']), after.flatMap ('/' :: ·), ?_, ?_, ?_⟩, ?_, hname.1,
      hname.2, hparent⟩
    · rw [← joinSegments_around, ← hsegments, joinSegments_segments]
    · cases before using List.reverseRecOn with
      | nil => exact .inl rfl
      | append_singleton before last =>
          exact .inr ⟨before.flatMap (· ++ ['/']) ++ last, by simp⟩
    · exact trailing_flatMap fun segment hsegment => by simpa using hafter segment hsegment
    · have hin : name ∈ segments path := by simp [hsegments]
      exact slash_not_mem_segment hin
  · intro h
    obtain ⟨before, after, hsegments, hafter⟩ := h.segments
    refine ⟨⟨by rw [h.not_trivial]; rfl, before, after, hsegments, ?_⟩, h.ne_parent⟩
    exact fun segment hsegment => by simp [hafter segment hsegment]

/-! ### What stands behind the last dot -/

theorem takeWhile_dropWhile_of_not_mem {front : List Char} (h : '.' ∉ front) (behind : List Char) :
    (front ++ '.' :: behind).takeWhile (· ≠ '.') = front ∧
      (front ++ '.' :: behind).dropWhile (· ≠ '.') = '.' :: behind := by
  have hall : ∀ c ∈ front, decide (c ≠ '.') = true := by
    intro c hc
    rw [decide_eq_true_eq]
    exact fun hdot => h (hdot ▸ hc)
  rw [List.takeWhile_append_of_pos hall, List.dropWhile_append_of_pos hall]
  simp

theorem extension?_of_name {path : String} {stem behind : List Char}
    (hname : fileName? path.toList = some (stem ++ '.' :: behind)) (hdot : '.' ∉ behind) :
    extension? path = if stem = [] then none else some (String.ofList behind) := by
  obtain ⟨htake, hdrop⟩ := takeWhile_dropWhile_of_not_mem
    (fun hin => hdot (List.mem_reverse.mp hin)) stem.reverse
  simp only [extension?, hname, Option.bind_eq_bind, Option.bind_some, List.reverse_append,
    List.reverse_cons, List.append_assoc, List.singleton_append, htake, hdrop, List.reverse_reverse]
  cases hstem : stem.reverse with
  | nil =>
      rw [if_pos (List.reverse_eq_nil_iff.mp hstem)]
      rfl
  | cons c rest =>
      have hne : stem ≠ [] := fun h => by simp [h] at hstem
      rw [if_neg hne]
      rfl

theorem extension?_of_no_dot {path : String} {name : List Char}
    (hname : fileName? path.toList = some name) (hdot : '.' ∉ name) : extension? path = none := by
  have hdrop : name.reverse.dropWhile (· ≠ '.') = [] := by
    rw [List.dropWhile_eq_nil_iff]
    intro c hc
    rw [decide_eq_true_eq]
    rintro rfl
    exact hdot (List.mem_reverse.mp hc)
  simp only [extension?, hname, Option.bind_eq_bind, Option.bind_some, hdrop]

/-- The extension of a path is what its name has behind the last dot. -/
theorem extension?_eq_some_iff {path extension : String} :
    extension? path = some extension ↔ HasExtension path extension := by
  constructor
  · intro h
    obtain ⟨name, hname, -⟩ := Option.bind_eq_some_iff.mp h
    by_cases hdot : '.' ∈ name
    · obtain ⟨front, behind, hreversed, hfront⟩ :=
        List.eq_append_cons_of_mem (List.mem_reverse.mpr hdot)
      obtain rfl : name = behind.reverse ++ '.' :: front.reverse := by
        simpa using congrArg List.reverse hreversed
      have hbehind : '.' ∉ front.reverse := fun hin => hfront (List.mem_reverse.mp hin)
      rw [extension?_of_name hname hbehind] at h
      split at h
      · cases h
      · next hstem =>
          cases h
          rw [← String.toList_ofList (l := front.reverse)] at hname hbehind
          exact ⟨behind.reverse, hstem, hbehind, fileName?_eq_some_iff.mp hname⟩
    · rw [extension?_of_no_dot hname hdot] at h
      cases h
  · rintro ⟨stem, hstem, hdot, hends⟩
    rw [extension?_of_name (fileName?_eq_some_iff.mpr hends) hdot, if_neg hstem,
      String.ofList_toList]

end Protoscribe.Files
