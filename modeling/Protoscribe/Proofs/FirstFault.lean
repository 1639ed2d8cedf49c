import Mathlib.Data.List.Forall2

/-!
Results that report the first of several faults. A check lists its faults in the
order in which they count; a result agrees with the list if it fails with the
first fault, or succeeds where there is none. Checks that run one after the
other list their faults one after the other.
-/

namespace Protoscribe

/-- The result fails with the first of the faults and succeeds without any. -/
def Reports {ε α : Type} (result : Except ε α) (faults : List ε) : Prop :=
  match result with
  | .error fault => faults.head? = some fault
  | .ok _ => faults = []

namespace Reports

variable {ε α β : Type}

/-- The error is the first of the faults. -/
theorem error_iff {result : Except ε α} {faults : List ε} (h : Reports result faults)
    (fault : ε) : result = .error fault ↔ faults.head? = some fault := by
  cases result with
  | error found =>
      change faults.head? = some found at h
      rw [h, Except.error.injEq, Option.some.injEq]
  | ok value =>
      change faults = [] at h
      simp [h]

/-- There is a result exactly if there is no fault. -/
theorem ok_iff {result : Except ε α} {faults : List ε} (h : Reports result faults) :
    (∃ value, result = .ok value) ↔ faults = [] := by
  cases result with
  | error found =>
      change faults.head? = some found at h
      constructor
      · rintro ⟨value, hvalue⟩
        cases hvalue
      · rintro rfl
        cases h
  | ok value => exact ⟨fun _ => h, fun _ => ⟨value, rfl⟩⟩

/-- What runs behind a check only counts where the check has no fault. -/
theorem bind {result : Except ε α} {next : α → Except ε β} {faults others : List ε}
    (h : Reports result faults) (hnext : ∀ value, result = .ok value → Reports (next value) others) :
    Reports (result >>= next) (faults ++ others) := by
  cases result with
  | error found =>
      change (faults ++ others).head? = some found
      change faults.head? = some found at h
      rw [List.head?_append, h, Option.some_or]
  | ok value =>
      change faults = [] at h
      rw [h, List.nil_append]
      exact hnext value rfl

/-- What is done with a result adds no fault. -/
theorem bind_pure {result : Except ε α} {faults : List ε} (h : Reports result faults)
    (f : α → β) : Reports (result >>= fun value => pure (f value)) faults := by
  cases result with
  | error found => exact h
  | ok value => exact h

/-- Items are checked from left to right. -/
theorem mapM {items : List α} {check : α → Except ε β} {faults : α → List ε}
    (h : ∀ item ∈ items, Reports (check item) (faults item)) :
    Reports (items.mapM check) (items.flatMap faults) := by
  induction items with
  | nil => exact rfl
  | cons item rest ih =>
      have hrest := ih fun other hother => h other (List.mem_cons_of_mem item hother)
      rw [List.mapM_cons, List.flatMap_cons]
      refine bind (h item List.mem_cons_self) ?_
      intro value _
      exact bind_pure hrest (value :: ·)

end Reports

/-! ### What succeeds -/

section

variable {ε α β : Type}

theorem eq_ok_of_toOption {result : Except ε α} {value : α} (h : result.toOption = some value) :
    result = .ok value := by
  cases result with
  | error fault => cases h
  | ok found => rw [Option.some.inj h]

/-- Two steps succeed exactly if the first does and the second does on its value. -/
theorem bind_eq_ok_iff {result : Except ε α} {next : α → Except ε β} {final : β} :
    (result >>= next) = .ok final ↔ ∃ value, result = .ok value ∧ next value = .ok final := by
  cases result with
  | error fault =>
      constructor
      · intro h
        cases h
      · rintro ⟨value, h, -⟩
        cases h
  | ok value =>
      constructor
      · intro h
        exact ⟨value, rfl, h⟩
      · rintro ⟨other, h, hfinal⟩
        cases h
        exact hfinal

/-- Items that all pass give their results one by one. -/
theorem mapM_eq_ok_iff {check : α → Except ε β} {items : List α} {results : List β} :
    items.mapM check = .ok results ↔
      List.Forall₂ (fun item result => check item = .ok result) items results := by
  induction items generalizing results with
  | nil =>
      rw [List.mapM_nil, List.forall₂_nil_left_iff]
      exact ⟨fun h => (Except.ok.inj h).symm, fun h => congrArg Except.ok h.symm⟩
  | cons item rest ih =>
      rw [List.mapM_cons, bind_eq_ok_iff, List.forall₂_cons_left_iff]
      constructor
      · rintro ⟨first, hfirst, h⟩
        obtain ⟨others, hothers, h⟩ := bind_eq_ok_iff.mp h
        exact ⟨first, others, hfirst, ih.mp hothers, (Except.ok.inj h).symm⟩
      · rintro ⟨first, others, hfirst, hothers, rfl⟩
        exact ⟨first, hfirst, bind_eq_ok_iff.mpr ⟨others, ih.mpr hothers, rfl⟩⟩

/-- What each result shares with its item, all results share with all items. -/
theorem map_eq_of_mapM {γ : Type} {check : α → Except ε β} {items : List α} {results : List β}
    {ofItem : α → γ} {ofResult : β → γ}
    (hshare : ∀ item result, check item = .ok result → ofResult result = ofItem item)
    (h : items.mapM check = .ok results) : results.map ofResult = items.map ofItem := by
  have hall := mapM_eq_ok_iff.mp h
  induction hall with
  | nil => rfl
  | cons hfirst hrest ih =>
      rw [List.map_cons, List.map_cons, hshare _ _ hfirst, ih (mapM_eq_ok_iff.mpr hrest)]

end

end Protoscribe
