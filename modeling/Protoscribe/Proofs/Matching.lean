import Mathlib.Data.List.Forall2

/-!
Lists that match item by item: each item of the one stands for the item of the
other in the same place.
-/

namespace Protoscribe

variable {α β γ : Type}

theorem exists_right_of_mem {relate : α → β → Prop} {items : List α} {results : List β}
    (h : List.Forall₂ relate items results) {item : α} (hitem : item ∈ items) :
    ∃ result ∈ results, relate item result := by
  induction h with
  | nil => cases hitem
  | cons hfirst _ ih =>
      cases List.mem_cons.mp hitem with
      | inl hsame => exact ⟨_, List.mem_cons_self, hsame ▸ hfirst⟩
      | inr hlater =>
          obtain ⟨result, hresult, hrelate⟩ := ih hlater
          exact ⟨result, List.mem_cons_of_mem _ hresult, hrelate⟩

theorem exists_left_of_mem {relate : α → β → Prop} {items : List α} {results : List β}
    (h : List.Forall₂ relate items results) {result : β} (hresult : result ∈ results) :
    ∃ item ∈ items, relate item result := by
  have hflip : List.Forall₂ (fun result item => relate item result) results items := h.flip
  exact exists_right_of_mem hflip hresult

/-- Items can be matched with results exactly if each of them can. -/
theorem exists_forall₂_iff {relate : α → β → Prop} {items : List α} :
    (∃ results, List.Forall₂ relate items results) ↔
      ∀ item ∈ items, ∃ result, relate item result := by
  constructor
  · rintro ⟨results, h⟩ item hitem
    obtain ⟨result, -, hrelate⟩ := exists_right_of_mem h hitem
    exact ⟨result, hrelate⟩
  · intro h
    induction items with
    | nil => exact ⟨[], .nil⟩
    | cons item rest ih =>
        obtain ⟨hitem, hrest⟩ := List.forall_mem_cons.mp h
        obtain ⟨first, hfirst⟩ := hitem
        obtain ⟨others, hothers⟩ := ih hrest
        exact ⟨first :: others, .cons hfirst hothers⟩

/-- Items that each stand for several match what they stand for, part by part. -/
theorem forall₂_flatMap_iff {relate : β → γ → Prop} {expand : α → List β} {items : List α}
    {results : List γ} :
    List.Forall₂ relate (items.flatMap expand) results ↔
      ∃ parts, List.Forall₂ (fun item part => List.Forall₂ relate (expand item) part) items parts ∧
        results = parts.flatten := by
  induction items generalizing results with
  | nil =>
      rw [List.flatMap_nil, List.forall₂_nil_left_iff]
      constructor
      · rintro rfl
        exact ⟨[], .nil, rfl⟩
      · rintro ⟨parts, hparts, rfl⟩
        cases hparts
        rfl
  | cons item rest ih =>
      rw [List.flatMap_cons]
      constructor
      · intro h
        have hflip : List.Forall₂ (flip relate) results (expand item ++ rest.flatMap expand) :=
          h.flip
        have hfirst := (List.forall₂_take_append _ _ _ hflip).flip
        obtain ⟨parts, hparts, hlast⟩ := ih.mp (List.forall₂_drop_append _ _ _ hflip).flip
        refine ⟨results.take (expand item).length :: parts, .cons hfirst hparts, ?_⟩
        rw [List.flatten_cons, ← hlast, List.take_append_drop]
      · rintro ⟨parts, hparts, rfl⟩
        obtain ⟨part, others, hpart, hothers, rfl⟩ := List.forall₂_cons_left_iff.mp hparts
        exact List.rel_append hpart (ih.mpr ⟨others, hothers, rfl⟩)

/-- Results that are images of something their items stand for are the images of a list. -/
theorem forall₂_exists_map_iff {relate : α → β → Prop} {image : β → γ} {items : List α}
    {results : List γ} :
    List.Forall₂ (fun item result => ∃ middle, relate item middle ∧ result = image middle)
        items results ↔
      ∃ middles, List.Forall₂ relate items middles ∧ results = middles.map image := by
  constructor
  · intro h
    induction h with
    | nil => exact ⟨[], .nil, rfl⟩
    | cons hfirst _ ih =>
        obtain ⟨middle, hmiddle, rfl⟩ := hfirst
        obtain ⟨middles, hmiddles, rfl⟩ := ih
        exact ⟨middle :: middles, .cons hmiddle hmiddles, rfl⟩
  · rintro ⟨middles, hmiddles, rfl⟩
    rw [List.forall₂_map_right_iff]
    exact hmiddles.imp fun _ middle hmiddle => ⟨middle, hmiddle, rfl⟩

/-- What is kept of the results stands for some of the items, in their order. -/
theorem exists_sublist_filterMap {relate : α → β → Prop} {items : List α} {results : List β}
    (h : List.Forall₂ relate items results) (keep : β → Option γ) :
    ∃ kept : List α, kept.Sublist items ∧
      List.Forall₂ (fun item one => ∃ result, relate item result ∧ keep result = some one) kept
        (results.filterMap keep) := by
  induction h with
  | nil => exact ⟨[], List.Sublist.refl [], .nil⟩
  | @cons item result _ _ hfirst _ ih =>
      obtain ⟨kept, hsublist, hkept⟩ := ih
      cases hkeep : keep result with
      | none =>
          rw [List.filterMap_cons_none hkeep]
          exact ⟨kept, hsublist.cons item, hkept⟩
      | some one =>
          rw [List.filterMap_cons_some hkeep]
          exact ⟨item :: kept, hsublist.cons_cons item, .cons ⟨result, hfirst, hkeep⟩ hkept⟩

/-- An item may give way to one that stands for what it stood for. -/
theorem forall₂_replace {relate : α → β → Prop} {before behind : List α} {item other : α}
    {results : List β}
    (hother : ∀ result, results[before.length]? = some result → relate item result →
      relate other result)
    (h : List.Forall₂ relate (before ++ item :: behind) results) :
    List.Forall₂ relate (before ++ other :: behind) results := by
  induction before generalizing results with
  | nil =>
      obtain ⟨result, rest, hitem, hrest, rfl⟩ := List.forall₂_cons_left_iff.mp h
      exact .cons (hother result rfl hitem) hrest
  | cons first before ih =>
      obtain ⟨result, rest, hfirst, hrest, rfl⟩ := List.forall₂_cons_left_iff.mp h
      exact .cons hfirst (ih hother hrest)

/-- Where matching items give the same, the lists give the same. -/
theorem flatMap_eq_of_forall₂ {relate : α → β → Prop} {ofItem : α → List γ} {ofResult : β → List γ}
    (hsame : ∀ item result, relate item result → ofResult result = ofItem item) {items : List α}
    {results : List β} (h : List.Forall₂ relate items results) :
    results.flatMap ofResult = items.flatMap ofItem := by
  induction h with
  | nil => rfl
  | cons hfirst _ ih => rw [List.flatMap_cons, List.flatMap_cons, hsame _ _ hfirst, ih]

/-! ### Traversals where no item fails -/

/-- Reading item by item succeeds if each reading does. -/
theorem mapM_eq_some_map {read : α → Option β} {result : α → β} {items : List α}
    (h : ∀ item ∈ items, read item = some (result item)) :
    items.mapM read = some (items.map result) := by
  induction items with
  | nil => rfl
  | cons item items ih =>
      obtain ⟨hitem, hitems⟩ := List.forall_mem_cons.mp h
      rw [List.mapM_cons, hitem, ih hitems]
      rfl

/-- Items that are each read back are read back together. -/
theorem mapM_map_eq_some {read : β → Option α} {write : α → β} {items : List α}
    (h : ∀ item ∈ items, read (write item) = some item) :
    (items.map write).mapM read = some items := by
  have hread : items.mapM (read ∘ write) = some (items.map id) := mapM_eq_some_map h
  rw [List.mapM_map, hread, List.map_id]

end Protoscribe
