import Protoscribe.OrderedMap

/-!
The registry: applications, each a list of models. A model lists its typed
fields, names its primary key and may override the methods and messages that
are otherwise derived for it. Lookups by name find the first match.
-/

namespace Protoscribe

/-- A model field and the tag of its type, such as `CharField`. -/
structure Field where
  name : String
  tag : String
  deriving DecidableEq, Repr, Inhabited

/-- The message that a method takes or gives back. Without a name it is the
message named like the model. -/
structure MessageRef where
  message : Option String := none
  streamed : Bool := false
  deriving DecidableEq, Repr, Inhabited

def MessageRef.named (message : String) : MessageRef := ⟨some message, false⟩

def MessageRef.stream (message : String) : MessageRef := ⟨some message, true⟩

structure Signature where
  request : MessageRef := {}
  response : MessageRef := {}
  deriving DecidableEq, Repr, Inhabited

inductive FieldSelection where
  | all
  | listed (names : List String)
  deriving DecidableEq, Repr, Inhabited

/-- A message to derive from a model: the selected fields, then further fields
that each hold a free-form structure. -/
structure MessageSpec where
  selection : FieldSelection
  structFields : List String := []
  deriving DecidableEq, Repr, Inhabited

/-- The primary key of a model that names none. -/
def defaultKey : String := "id"

structure Model where
  name : String
  isAbstract : Bool := false
  key : String := defaultKey
  fields : List Field := []
  methods : Option (OrderedMap Signature) := none
  messages : Option (OrderedMap FieldSelection) := none
  filterRequest : Bool := false
  paginationRequest : Bool := false
  deriving DecidableEq, Repr, Inhabited

structure App where
  name : String
  models : List Model := []
  deriving DecidableEq, Repr, Inhabited

structure Registry where
  apps : List App := []
  deriving DecidableEq, Repr, Inhabited

namespace Model

def field? (model : Model) (name : String) : Option Field :=
  model.fields.find? (·.name = name)

def fieldNames (model : Model) : List String := model.fields.map Field.name

/-- The list request of the model carries free-form structures. -/
def hasStructRequest (model : Model) : Bool :=
  model.filterRequest || model.paginationRequest

end Model

namespace App

def model? (app : App) (name : String) : Option Model :=
  app.models.find? (·.name = name)

def concreteModels (app : App) : List Model :=
  app.models.filter (!·.isAbstract)

end App

def Registry.app? (registry : Registry) (name : String) : Option App :=
  registry.apps.find? (·.name = name)

end Protoscribe
