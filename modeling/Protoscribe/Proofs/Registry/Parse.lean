import Protoscribe.Proofs.Registry.Check
import Protoscribe.Registry.Parse

/-!
What a registry that was read is good for. It is refused with its first violation, or
it passes, and then every name leads back to the one item that bears it.
-/

namespace Protoscribe

/-- Names lead to items and items to their names, for applications, models and fields. -/
structure Registry.FindsByName (registry : Registry) : Prop where
  apps : ∀ name app, registry.app? name = some app ↔ app ∈ registry.apps ∧ app.name = name
  models : ∀ app ∈ registry.apps, ∀ name model,
    app.model? name = some model ↔ model ∈ app.models ∧ model.name = name
  fields : ∀ app ∈ registry.apps, ∀ model ∈ app.models, ∀ name field,
    model.field? name = some field ↔ field ∈ model.fields ∧ field.name = name

/-- Consistency is what makes every look-up by name unique. -/
theorem Registry.Consistent.findsByName {registry : Registry} (h : registry.Consistent) :
    registry.FindsByName where
  apps := fun _ _ => find?_eq_some_iff_of_nodup h.names
  models := fun app happ _ _ => find?_eq_some_iff_of_nodup (h.apps app happ).names
  fields := fun app happ model hmodel _ _ =>
    find?_eq_some_iff_of_nodup ((h.apps app happ).models model hmodel).fields

/-- What was decoded is only checked any more. -/
theorem Registry.parse_of_decode {format : Format} {document : String} {registry : Registry}
    (h : format.decode decode document = .ok registry) :
    parse format document = registry.checked := by
  rw [parse, h]
  rfl

theorem Registry.checked_eq_ok_iff {registry : Registry} :
    registry.checked = .ok registry ↔ registry.check = .ok () := by
  rw [checked]
  cases registry.check with
  | ok passed => simp
  | error violation => simp

/-- A refusal is worded as the violation is. -/
theorem Registry.checked_eq_error_iff {registry : Registry} {error : Error} :
    registry.checked = .error error ↔
      ∃ violation, registry.check = .error violation ∧ error = .parse violation.message := by
  rw [checked]
  cases registry.check with
  | ok passed => simp
  | error violation => simp [eq_comm]

/-- A registry that was read is consistent. -/
theorem Registry.consistent_of_parse {format : Format} {document : String} {registry : Registry}
    (h : parse format document = .ok registry) : registry.Consistent := by
  obtain ⟨found, -, hchecked⟩ := bind_eq_ok_iff.mp h
  rw [checked] at hchecked
  split at hchecked
  · next hcheck =>
      cases hchecked
      exact Registry.check_eq_ok_iff.mp hcheck
  · cases hchecked

/-- A check passes exactly on consistent registries and fails with the first violation
in reading order, which a registry that was read is refused with. In a registry that
passes, a look-up by name gives exactly the item that bears the name. -/
theorem Registry.check_first_violation (registry : Registry) :
    (registry.check = .ok () ↔ registry.Consistent) ∧
      (∀ violation, registry.check = .error violation ↔
        registry.violations.head? = some violation) ∧
      (∀ error, registry.checked = .error error ↔
        ∃ violation, registry.violations.head? = some violation ∧
          error = .parse violation.message) ∧
      (registry.check = .ok () → registry.checked = .ok registry ∧ registry.FindsByName) := by
  have herror := registry.reports_check.error_iff
  refine ⟨Registry.check_eq_ok_iff, herror, ?_, ?_⟩
  · intro error
    simp only [← herror, checked]
    cases registry.check with
    | error violation => simp [eq_comm]
    | ok passed => simp
  · intro hcheck
    refine ⟨?_, (Registry.check_eq_ok_iff.mp hcheck).findsByName⟩
    rw [checked, hcheck]

/-- An application whose models keep every rule; the abstract one needs no key. -/
def orderly : App :=
  ⟨"shop", [{ name := "Stamped", isAbstract := true, fields := [⟨"made", "DateField"⟩] },
    { name := "Item", key := "sku", fields := [⟨"made", "DateField"⟩, ⟨"sku", "CharField"⟩] }]⟩

/-- An application with a repeated field, a missing key and a repeated model, in this order. -/
def strained : App :=
  ⟨"shop", [{ name := "Item", key := "sku", fields := [⟨"made", "DateField"⟩, ⟨"made", "Field"⟩] },
    { name := "Item", isAbstract := true }]⟩

/-- Of four violations the repeated field comes first. -/
theorem Registry.check_first_violation_shops :
    Registry.violations ⟨[strained, orderly]⟩ =
        [.repeatedField "made" "shop" "Item", .missingKey "sku" "shop" "Item",
          .repeatedModel "Item" "shop", .repeatedApp "shop"] ∧
      Registry.check ⟨[strained, orderly]⟩ = .error (.repeatedField "made" "shop" "Item") ∧
      Registry.check ⟨[orderly]⟩ = .ok () ∧ Registry.FindsByName ⟨[orderly]⟩ := by
  have hviolations : Registry.violations ⟨[strained, orderly]⟩ =
      [.repeatedField "made" "shop" "Item", .missingKey "sku" "shop" "Item",
        .repeatedModel "Item" "shop", .repeatedApp "shop"] := by decide
  have hpass : Registry.check ⟨[orderly]⟩ = .ok () := by decide
  obtain ⟨-, hfirst, -, -⟩ := Registry.check_first_violation ⟨[strained, orderly]⟩
  obtain ⟨-, -, -, hfinds⟩ := Registry.check_first_violation ⟨[orderly]⟩
  refine ⟨hviolations, (hfirst _).mpr ?_, hpass, (hfinds hpass).2⟩
  rw [hviolations]
  rfl

end Protoscribe
