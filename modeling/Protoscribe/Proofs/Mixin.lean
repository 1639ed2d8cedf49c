import Protoscribe.Mixin
import Protoscribe.Proto.Identifier
import Protoscribe.Proofs.OrderedMap.Writes

/-!
Sources of methods and messages, and what merging them leaves of each.
-/

namespace Protoscribe

theorem unites_mergeMethods (sources : List Defaults) (model : Model) :
    (mergeMethods sources model).Unites (sources.map fun source => source.methods model) := by
  have h := OrderedMap.unites_foldl_merge (sources.map fun source => source.methods model)
  rw [List.foldl_map] at h
  exact h

theorem unites_mergeMessages (sources : List Defaults) (model : Model) :
    (mergeMessages sources model).Unites (sources.map fun source => source.messages model) := by
  have h := OrderedMap.unites_foldl_merge (sources.map fun source => source.messages model)
  rw [List.foldl_map] at h
  exact h

theorem mem_mergeMessages {sources : List Defaults} {model : Model} {entry : String × MessageSpec}
    (h : entry ∈ (mergeMessages sources model).toList) :
    ∃ source ∈ sources, entry ∈ (source.messages model).toList := by
  rw [(unites_mergeMessages sources model).collects, OrderedMap.toList_ofList] at h
  obtain ⟨messages, hmessages, hentry⟩ := List.mem_flatMap.mp (mem_of_mem_spread h)
  obtain ⟨source, hsource, rfl⟩ := List.mem_map.mp hmessages
  exact ⟨source, hsource, hentry⟩

namespace Mixin

/-! ### Names from models -/

/-- What stands behind the name of a model in the names of the messages of a mixin. -/
def suffixes (mixin : Mixin) : List String :=
  [mixin.verb ++ "Request", mixin.verb ++ "Response"]

def allSuffixes : List String := "Controller" :: methodOrder.flatMap suffixes

theorem mem_methodOrder (mixin : Mixin) : mixin ∈ methodOrder := by
  cases mixin <;> decide

theorem suffix_mem_allSuffixes {mixin : Mixin} {suffix : String} (h : suffix ∈ mixin.suffixes) :
    suffix ∈ allSuffixes :=
  List.mem_cons_of_mem _ (List.mem_flatMap.mpr ⟨mixin, mem_methodOrder mixin, h⟩)

theorem suffixes_disjoint {mixin other : Mixin} {suffix : String} (h : suffix ∈ mixin.suffixes)
    (hother : suffix ∈ other.suffixes) : mixin = other := by
  have hall : ∀ mixin ∈ methodOrder, ∀ other ∈ methodOrder, ∀ suffix ∈ mixin.suffixes,
      suffix ∈ other.suffixes → mixin = other := by decide
  exact hall mixin (mem_methodOrder mixin) other (mem_methodOrder other) suffix h hother

/-- No suffix ends in another one, so a name shows the model and the suffix it is made of. -/
theorem append_suffix_inj {model other suffix ending : String} (hsuffix : suffix ∈ allSuffixes)
    (hending : ending ∈ allSuffixes) (h : model ++ suffix = other ++ ending) :
    model = other ∧ suffix = ending := by
  have hfree : ∀ suffix ∈ allSuffixes, ∀ ending ∈ allSuffixes,
      suffix.toList <:+ ending.toList → suffix = ending := by decide
  have hchars : model.toList ++ suffix.toList = other.toList ++ ending.toList := by
    rw [← String.toList_append, ← String.toList_append, h]
  have hfirst : suffix.toList <:+ model.toList ++ suffix.toList := List.suffix_append _ _
  have hsecond : ending.toList <:+ model.toList ++ suffix.toList :=
    hchars ▸ List.suffix_append _ _
  have hsame : suffix = ending := by
    cases List.suffix_or_suffix_of_suffix hfirst hsecond with
    | inl hend => exact hfree suffix hsuffix ending hending hend
    | inr hend => exact (hfree ending hending suffix hsuffix hend).symm
  subst hsame
  exact ⟨(String.append_left_inj suffix).mp h, rfl⟩

theorem methodName_inj {mixin other : Mixin} {model : String}
    (h : mixin.methodName model = other.methodName model) : mixin = other := by
  have hverb : mixin.verb = other.verb := (String.append_left_inj model).mp h
  have hall : ∀ mixin ∈ methodOrder, ∀ other ∈ methodOrder, mixin.verb = other.verb →
      mixin = other := by decide
  exact hall mixin (mem_methodOrder mixin) other (mem_methodOrder other) hverb

theorem mem_keys_messageEntries {mixin : Mixin} {model : Model} {key : String}
    (h : key ∈ (mixin.messageEntries model).map Prod.fst) :
    ∃ suffix ∈ mixin.suffixes, key = model.name ++ suffix := by
  have hkey : key = mixin.requestName model.name ∨ key = mixin.responseName model.name := by
    cases mixin with
    | list =>
        rw [messageEntries, List.map_append, List.mem_append] at h
        cases h with
        | inl hrequest =>
            split at hrequest
            · exact .inl (List.mem_singleton.mp hrequest)
            · cases hrequest
        | inr hresponse => exact .inr (List.mem_singleton.mp hresponse)
    | create => exact .inl (List.mem_singleton.mp h)
    | retrieve => exact .inl (List.mem_singleton.mp h)
    | update => cases h
    | destroy => exact .inl (List.mem_singleton.mp h)
  obtain rfl | rfl := hkey
  · exact ⟨_, List.mem_cons_self, String.append_assoc⟩
  · exact ⟨_, List.mem_cons_of_mem _ List.mem_cons_self, String.append_assoc⟩

/-- The name of a default message shows its model and its mixin. -/
theorem key_inj {mixin other : Mixin} {model another : Model} {key : String}
    (h : key ∈ (mixin.messageEntries model).map Prod.fst)
    (hother : key ∈ (other.messageEntries another).map Prod.fst) :
    model.name = another.name ∧ mixin = other := by
  obtain ⟨suffix, hsuffix, rfl⟩ := mem_keys_messageEntries h
  obtain ⟨ending, hending, hsame⟩ := mem_keys_messageEntries hother
  obtain ⟨hname, rfl⟩ := append_suffix_inj (suffix_mem_allSuffixes hsuffix)
    (suffix_mem_allSuffixes hending) hsame
  exact ⟨hname, suffixes_disjoint hsuffix hending⟩

theorem nodup_keys_messageEntries (mixin : Mixin) (model : Model) :
    ((mixin.messageEntries model).map Prod.fst).Nodup := by
  have hne : Mixin.list.requestName model.name ≠ Mixin.list.responseName model.name := by
    intro h
    have hsuffix := (String.append_right_inj _).mp h
    exact absurd hsuffix (by decide)
  cases mixin with
  | list =>
      rw [messageEntries]
      split
      · exact List.nodup_cons.mpr ⟨fun h => hne (List.mem_singleton.mp h), List.nodup_singleton _⟩
      · exact List.nodup_singleton _
  | create => exact List.nodup_singleton _
  | retrieve => exact List.nodup_singleton _
  | update => exact List.nodup_nil
  | destroy => exact List.nodup_singleton _

theorem toList_messages (mixin : Mixin) (model : Model) :
    (mixin.messages model).toList = mixin.messageEntries model := by
  have hmap := OrderedMap.ofList_toList
    ⟨mixin.messageEntries model, nodup_keys_messageEntries mixin model⟩
  change OrderedMap.ofList (mixin.messageEntries model) = _ at hmap
  rw [messages, hmap]
  rfl

/-- A default message shows all fields, the primary key, or free-form structures and no field. -/
theorem spec_of_mem_messageEntries {mixin : Mixin} {model : Model} {entry : String × MessageSpec}
    (h : entry ∈ mixin.messageEntries model) :
    entry.2 = ⟨.all, []⟩ ∨ entry.2 = ⟨.listed [model.key], []⟩ ∨
      entry.2 = ⟨.listed [], requestStructs model⟩ := by
  cases mixin with
  | list =>
      obtain hrequest | hresponse := List.mem_append.mp h
      · split at hrequest
        · cases List.mem_singleton.mp hrequest
          exact .inr (.inr rfl)
        · cases hrequest
      · cases List.mem_singleton.mp hresponse
        exact .inl rfl
  | create =>
      cases List.mem_singleton.mp h
      exact .inl rfl
  | retrieve =>
      cases List.mem_singleton.mp h
      exact .inr (.inl rfl)
  | update => cases h
  | destroy =>
      cases List.mem_singleton.mp h
      exact .inr (.inl rfl)

theorem mem_requestStructs {model : Model} {name : String} (h : name ∈ requestStructs model) :
    name = filtersField ∨ name = paginationField := by
  unfold requestStructs at h
  cases hfilter : model.filterRequest <;> cases hpagination : model.paginationRequest <;>
    simp_all

theorem nodup_requestStructs (model : Model) : (requestStructs model).Nodup := by
  unfold requestStructs
  cases model.filterRequest <;> cases model.paginationRequest <;> decide

/-- The free-form structures of a built-in message bear one of two fixed names. -/
theorem structFields_messages {mixin : Mixin} {model : Model} {entry : String × MessageSpec}
    (h : entry ∈ (mixin.messages model).toList) :
    ∀ name ∈ entry.2.structFields, name = filtersField ∨ name = paginationField := by
  have hentry : entry ∈ mixin.messageEntries model := toList_messages mixin model ▸ h
  intro name hname
  rcases spec_of_mem_messageEntries hentry with hspec | hspec | hspec <;> rw [hspec] at hname
  · cases hname
  · cases hname
  · exact mem_requestStructs hname

/-! ### Several mixins -/

/-- Each mixin in a list gives its method once, where it is listed first. -/
theorem toList_mergeMethods (mixins : List Mixin) (model : Model) :
    (mergeMethods (mixins.map defaults) model).toList =
      mixins.eraseDups.map fun mixin =>
        (mixin.methodName model.name, mixin.signature model.name) := by
  let entries (mixin : Mixin) : List (String × Signature) :=
    [(mixin.methodName model.name, mixin.signature model.name)]
  have hnodup : ∀ mixin, ((entries mixin).map Prod.fst).Nodup := fun _ => List.nodup_singleton _
  have hapart : ∀ mixin other, mixin ≠ other →
      ((entries mixin).map Prod.fst).Disjoint ((entries other).map Prod.fst) := by
    intro mixin other hne key hkey hother
    have hsame : mixin.methodName model.name = other.methodName model.name :=
      (List.mem_singleton.mp hkey).symm.trans (List.mem_singleton.mp hother)
    exact hne (methodName_inj hsame)
  rw [(unites_mergeMethods _ model).collects, List.map_map, List.flatMap_map]
  change (OrderedMap.ofList (mixins.flatMap entries)).toList = _
  rw [OrderedMap.toList_ofList_flatMap hnodup hapart, List.map_eq_flatMap]

/-- Each mixin in a list gives its messages once, where it is listed first. -/
theorem toList_mergeMessages (mixins : List Mixin) (model : Model) :
    (mergeMessages (mixins.map defaults) model).toList =
      mixins.eraseDups.flatMap fun mixin => mixin.messageEntries model := by
  have hentries : ∀ mixin : Mixin, (mixin.defaults.messages model).toList =
      mixin.messageEntries model := fun mixin => toList_messages mixin model
  rw [(unites_mergeMessages _ model).collects, List.map_map, List.flatMap_map]
  simp only [Function.comp_apply, hentries]
  refine OrderedMap.toList_ofList_flatMap (nodup_keys_messageEntries · model) ?_ mixins
  intro mixin other hne key hkey hother
  exact hne (key_inj hkey hother).2

end Mixin

end Protoscribe
