import Protoscribe.Proofs.Files.Extension
import Protoscribe.Proofs.Registry.Parse
import Protoscribe.Proofs.Registry.RoundTrip

/-!
How the format of a document is found out. An extension that names a format settles it
whatever the document holds. Without one, the compact JSON of a registry is taken for
JSON, also behind blanks, so that it is read back and refused only for its violations.
-/

namespace Protoscribe

def Files.HasExtensionLike (path extension : String) : Prop :=
  ∃ found, HasExtension path found ∧
    found.toList.map Char.toLower = extension.toList.map Char.toLower

namespace Format

/-! ### Extensions -/

/-- The case of the letters does not matter. -/
theorem ofExtension?_eq_json {found : String}
    (h : found.toList.map Char.toLower = "json".toList.map Char.toLower) :
    ofExtension? found = some .json := by
  rw [ofExtension?, h]
  rfl

theorem ofExtension?_eq_yaml {found : String}
    (h : found.toList.map Char.toLower = "yaml".toList.map Char.toLower ∨
      found.toList.map Char.toLower = "yml".toList.map Char.toLower) :
    ofExtension? found = some .yaml := by
  rcases h with h | h <;> rw [ofExtension?, h] <;> rfl

/-- Only two extensions stand for YAML. -/
theorem lower_of_ofExtension? {found : String} (h : ofExtension? found = some .yaml) :
    found.toList.map Char.toLower = "yaml".toList.map Char.toLower ∨
      found.toList.map Char.toLower = "yml".toList.map Char.toLower := by
  have hlist := String.toList_ofList (l := found.toList.map Char.toLower)
  rw [ofExtension?] at h
  split at h
  · cases h
  · next heq =>
      rw [heq] at hlist
      exact .inl hlist.symm
  · next heq =>
      rw [heq] at hlist
      exact .inr hlist.symm
  · cases h

/-- A known extension settles the format, whatever the document holds. -/
theorem detect_of_extension {path found : String} {format : Format}
    (hfound : Files.HasExtension path found) (hformat : ofExtension? found = some format)
    (content : String) : detect path content = format := by
  rw [detect, Files.extension?_eq_some_iff.mpr hfound, Option.bind_some, hformat, Option.getD_some]

/-! ### First characters -/

theorem isBlank_of_isSpace {c : Char} (h : Json.isSpace c = true) : Text.isBlank c = true := by
  simp only [Json.isSpace, Bool.or_eq_true, decide_eq_true_eq] at h
  rcases h with ((rfl | rfl) | rfl) | rfl <;> rfl

/-- Blanks in front do not change what a document is taken for. -/
theorem sniff_blanks {blanks content : String}
    (hblanks : ∀ c ∈ blanks.toList, Json.isSpace c = true) :
    sniff (blanks ++ content) = sniff content := by
  have htrim : Text.trimStart (blanks ++ content).toList = Text.trimStart content.toList := by
    rw [String.toList_append]
    exact List.dropWhile_append_of_pos fun c hc => isBlank_of_isSpace (hblanks c hc)
  rw [sniff, sniff, htrim]

/-- An object starts with its brace. -/
theorem sniff_record (members : List (String × Json)) :
    sniff (Json.record members).compact = .json := by
  rw [sniff, Json.compact, String.toList_ofList, Json.record]
  cases members with
  | nil =>
      rw [List.map_nil, Json.chars]
      rfl
  | cons member members =>
      rw [List.map_cons, Json.chars]
      rfl

/-- Only an extension of YAML keeps a registry from being taken for JSON. -/
theorem detect_encode {path blanks : String} (registry : Registry)
    (hblanks : ∀ c ∈ blanks.toList, Json.isSpace c = true)
    (hyaml : ¬ Files.HasExtensionLike path "yaml") (hyml : ¬ Files.HasExtensionLike path "yml") :
    detect path (blanks ++ registry.encode) = .json := by
  have hsniff : sniff (blanks ++ registry.encode) = .json := by
    rw [sniff_blanks hblanks]
    exact sniff_record _
  rw [detect, hsniff]
  cases hformat : (Files.extension? path).bind ofExtension? with
  | none => rfl
  | some format =>
      obtain ⟨found, hfound, hnamed⟩ := Option.bind_eq_some_iff.mp hformat
      have hextension := Files.extension?_eq_some_iff.mp hfound
      cases format with
      | json => rfl
      | yaml =>
          rcases lower_of_ofExtension? hnamed with hlower | hlower
          · exact absurd ⟨found, hextension, hlower⟩ hyaml
          · exact absurd ⟨found, hextension, hlower⟩ hyml

end Format

/-! ### Reading what was detected -/

namespace Registry

/-- Behind blanks a registry reads back from its compact JSON. -/
theorem json_decode_encode (registry : Registry) {blanks : String}
    (hblanks : ∀ c ∈ blanks.toList, Json.isSpace c = true) :
    Json.decode decode (blanks ++ registry.encode) = .ok registry := by
  have hworded := Registry.worded 119 registry
  have hchars : Json.scanChars (blanks.toList ++ registry.toJson.chars ++ []) =
      .ok registry.toJson := hworded.scanChars_chars hblanks (by simp)
  have hread : Json.read? (blanks ++ registry.encode) = some registry.toJson := by
    rw [List.append_nil] at hchars
    rw [Json.read?, Json.scan, encode, Json.compact, String.toList_append, String.toList_ofList,
      hchars]
    rfl
  have hvalue : decode (Json.Cursor.root registry.toJson) = .ok registry :=
    decode_undoes Json.mirrors_shows ⟨rfl, hworded⟩
  exact Json.decode_eq_ok_iff.mpr ⟨_, hread, hvalue⟩

theorem decode_blanks_encode (registry : Registry) {blanks : String}
    (hblanks : ∀ c ∈ blanks.toList, Json.isSpace c = true) :
    Format.json.decode decode (blanks ++ registry.encode) = .ok registry := by
  rw [Format.decode, json_decode_encode registry hblanks]
  rfl

theorem decode_encode (registry : Registry) :
    Format.json.decode decode registry.encode = .ok registry := by
  have hblanks : ∀ c ∈ "".toList, Json.isSpace c = true := by simp
  simpa only [String.empty_append] using decode_blanks_encode registry hblanks

/-- A path with an extension of JSON or YAML has its format whatever the document is. Of
a path without an extension of YAML, the compact JSON of a registry behind any blanks is
taken for JSON; it gives the registry exactly if its check passes, and otherwise the
violation that the check finds. -/
theorem detect_then_parse :
    (∀ path content, Files.HasExtensionLike path "json" → Format.detect path content = .json) ∧
      (∀ path content, Files.HasExtensionLike path "yaml" ∨ Files.HasExtensionLike path "yml" →
        Format.detect path content = .yaml) ∧
      (∀ (registry : Registry) (path blanks : String),
        (∀ c ∈ blanks.toList, Json.isSpace c = true) →
        ¬ Files.HasExtensionLike path "yaml" → ¬ Files.HasExtensionLike path "yml" →
        let content := blanks ++ registry.encode
        Format.detect path content = .json ∧
          (parse (Format.detect path content) content = .ok registry ↔ registry.check = .ok ()) ∧
          ∀ error, parse (Format.detect path content) content = .error error ↔
            ∃ violation, registry.check = .error violation ∧
              error = .parse violation.message) := by
  refine ⟨?json, ?yaml, ?registry⟩
  case json =>
    rintro path content ⟨found, hfound, hlower⟩
    exact Format.detect_of_extension hfound (Format.ofExtension?_eq_json hlower) content
  case yaml =>
    rintro path content (⟨found, hfound, hlower⟩ | ⟨found, hfound, hlower⟩)
    · exact Format.detect_of_extension hfound (Format.ofExtension?_eq_yaml (.inl hlower)) content
    · exact Format.detect_of_extension hfound (Format.ofExtension?_eq_yaml (.inr hlower)) content
  case registry =>
    intro registry path blanks hblanks hyaml hyml
    have hdetect := Format.detect_encode registry hblanks hyaml hyml
    dsimp only
    rw [hdetect, parse_of_decode (decode_blanks_encode registry hblanks)]
    exact ⟨rfl, checked_eq_ok_iff, fun _ => checked_eq_error_iff⟩

/-- A path with an extension in capitals, and one whose last name has none. -/
theorem detect_then_parse_shops :
    Format.detect "a/shop.YmL" "" = .yaml ∧
      Format.detect "models.yaml/shop/." ("\n" ++ encode ⟨[orderly]⟩) = .json ∧
      parse .json ("\n" ++ encode ⟨[orderly]⟩) = .ok ⟨[orderly]⟩ ∧
      parse .json ("\n" ++ encode ⟨[strained]⟩) =
        .error (.parse "Duplicate field 'made' on model 'shop.Item'") := by
  obtain ⟨-, hyaml, hregistry⟩ := detect_then_parse
  have hpath : Files.HasExtensionLike "a/shop.YmL" "yml" :=
    ⟨"YmL", Files.extension?_eq_some_iff.mp rfl, rfl⟩
  have hnone : ∀ extension, ¬ Files.HasExtensionLike "models.yaml/shop/." extension := by
    rintro extension ⟨found, hfound, -⟩
    have hsome := Files.extension?_eq_some_iff.mpr hfound
    cases hsome
  have hblank : ∀ c ∈ "\n".toList, Json.isSpace c = true := by simp [Json.isSpace]
  obtain ⟨hdetect, hparse, -⟩ := hregistry ⟨[orderly]⟩ _ _ hblank (hnone "yaml") (hnone "yml")
  obtain ⟨hother, -, hrefuse⟩ := hregistry ⟨[strained]⟩ _ _ hblank (hnone "yaml") (hnone "yml")
  rw [hdetect] at hparse
  rw [hother] at hrefuse
  refine ⟨hyaml _ _ (.inr hpath), hdetect, hparse.mpr (by decide), (hrefuse _).mpr ?_⟩
  exact ⟨.repeatedField "made" "shop" "Item", by decide, by decide⟩

end Registry

end Protoscribe
