import Protoscribe.Files.Store
import Protoscribe.Json.Source
import Protoscribe.Registry.Check
import Protoscribe.Registry.Decode
import Protoscribe.Text
import Protoscribe.Yaml.Source

/-!
From the text of a document to a registry that is consistent, and the same for a
file of a store. A document whose format is not given is recognised by the extension
of its file, and without one that is known by its first character.
-/

namespace Protoscribe

inductive Format where
  | json
  | yaml
  deriving DecidableEq, Repr, Inhabited

namespace Format

/-- The format that an extension names, in letters of any case. -/
def ofExtension? (extension : String) : Option Format :=
  match String.ofList (extension.toList.map Char.toLower) with
  | "json" => some .json
  | "yaml" | "yml" => some .yaml
  | _ => none

/-- A document that starts with an object is JSON. -/
def sniff (content : String) : Format :=
  if (Text.trimStart content.toList).head? = some '\x7b' then .json else .yaml

def detect (path content : String) : Format :=
  ((Files.extension? path).bind ofExtension?).getD (sniff content)

def decode {α : Type} (format : Format)
    (read : {ν : Type} → {m : Type → Type} → [Monad m] → [Decode.Source ν m] → ν → m α)
    (document : String) : Except Error α :=
  match format with
  | .json => (Json.decode read document).mapError .json
  | .yaml => (Yaml.decode read document).mapError .yaml

end Format

namespace Registry

def checked (registry : Registry) : Except Error Registry :=
  match registry.check with
  | .ok () => .ok registry
  | .error violation => .error (.parse violation.message)

/-- A document that does not fit is reported before any inconsistency. -/
def parse (format : Format) (document : String) : Except Error Registry := do
  (← format.decode Registry.decode document).checked

variable {m : Type → Type} [Monad m] [Files.Store m]

/-- Without a format the one is taken that the path or the content shows. -/
def load (path : String) (format : Option Format := none) : ExceptT Error m Registry := do
  let content ← (Files.readText path).adapt fun fault =>
    .parse s!"Failed to read registry file {path}: {fault.message}"
  match parse (format.getD (.detect path content)) content with
  | .ok registry => return registry
  | .error error => throw error

end Registry

end Protoscribe
