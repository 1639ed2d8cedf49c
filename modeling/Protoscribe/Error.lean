/-!
What can go wrong between reading a registry and writing a proto document, and
the one place that words it.
-/

namespace Protoscribe

/-- Why a document gives no registry: it breaks the grammar of its format, or in
front of any break it holds something else. -/
inductive DocumentFault where
  | malformed
  | mistyped (detail : String)
  deriving DecidableEq, Repr

/-- The wording of a fault; where the grammar is broken it names no place. -/
def DocumentFault.message : DocumentFault → String
  | .malformed => "malformed document"
  | .mistyped detail => detail

inductive Error where
  | unknownScope (scope : String)
  | unknownField (model message field : String)
  | invalidIdentifier (role name : String)
  | duplicateMessage (name : String)
  | parse (detail : String)
  | generation (detail : String)
  | io (detail : String)
  | json (fault : DocumentFault)
  | yaml (fault : DocumentFault)
  deriving DecidableEq, Repr

def Error.message : Error → String
  | .unknownScope scope => s!"Unknown scope: {scope}"
  | .unknownField model message field =>
      s!"Field '{field}' referenced by message '{message}' does not exist on model '{model}'"
  | .invalidIdentifier role name => s!"Invalid {role} identifier: '{name}'"
  | .duplicateMessage name => s!"Duplicate message definition: {name}"
  | .parse detail => s!"Parse error: {detail}"
  | .generation detail => s!"Generation error: {detail}"
  | .io detail => s!"IO error: {detail}"
  | .json fault => s!"JSON error: {fault.message}"
  | .yaml fault => s!"YAML error: {fault.message}"

end Protoscribe
