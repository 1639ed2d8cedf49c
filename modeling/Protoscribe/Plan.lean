import Protoscribe.Error
import Protoscribe.Files.Store
import Protoscribe.Mixin
import Protoscribe.Registry.Check
import Protoscribe.Proto.Document
import Protoscribe.Proto.Identifier
import Protoscribe.Proto.ScalarType

/-!
From a registry to a proto document. The document is resolved as a whole before
any of it is written: first the models in scope, then the services of all of
them, then their messages, model by model. The first fault found on that way is
the answer, so a scope that has one leaves no trace in a store.
-/

namespace Protoscribe

/-- What one document covers: an application, or one model of it. -/
structure Scope where
  app : String
  model : Option String := none
  deriving DecidableEq, Repr

def Scope.text (scope : Scope) : String :=
  match scope.model with
  | some model => scope.app ++ "." ++ model
  | none => scope.app

/-- The sources that stand in for absent overrides. -/
structure Sources where
  methods : List Defaults := Mixin.methodOrder.map Mixin.defaults
  messages : List Defaults := Mixin.messageOrder.map Mixin.defaults

/-- The name itself, if it is an identifier. -/
def requireIdentifier (role name : String) : Except Error Unit :=
  if Proto.isIdentifier name then .ok () else .error (.invalidIdentifier role name)

/-- The text of a request or response type: an optional `stream` and the name
of the message, which may be qualified. -/
def MessageRef.rpcType (ref : MessageRef) (model : Model) : Except Error String :=
  let target := ref.message.getD model.name
  if Proto.isQualified target then
    .ok ((if ref.streamed then "stream " else "") ++ target)
  else .error (.invalidIdentifier "message reference" target)

namespace Plan

/-- The models in scope that produce output. An abstract model that is asked
for by name produces none. -/
def resolve (registry : Registry) (scope : Scope) : Except Error (List Model) :=
  match registry.app? scope.app with
  | none => .error (.unknownScope scope.app)
  | some app =>
      match scope.model with
      | none => .ok app.concreteModels
      | some name =>
          match app.model? name with
          | none => .error (.unknownScope scope.text)
          | some model => .ok (if model.isAbstract then [] else [model])

/-- The override of a model where there is one, even an empty one. -/
def methodsOf (sources : Sources) (model : Model) : OrderedMap Signature :=
  model.methods.getD (mergeMethods sources.methods model)

/-- The override of a model where there is one, even an empty one. -/
def messagesOf (sources : Sources) (model : Model) : OrderedMap MessageSpec :=
  match model.messages with
  | some overrides => overrides.mapValues fun selection => ⟨selection, []⟩
  | none => mergeMessages sources.messages model

def rpc (model : Model) (name : String) (signature : Signature) : Except Error Proto.Rpc := do
  requireIdentifier "method" name
  let request ← signature.request.rpcType model
  let response ← signature.response.rpcType model
  return ⟨name, request, response⟩

def serviceName (model : Model) : String := model.name ++ "Controller"

/-- A model without methods has no service. -/
def service (sources : Sources) (model : Model) : Except Error (Option Proto.Service) :=
  let methods := methodsOf sources model
  if methods.isEmpty then .ok none
  else do
    requireIdentifier "model" model.name
    let rpcs ← methods.toList.mapM fun entry => rpc model entry.1 entry.2
    return some ⟨serviceName model, rpcs⟩

def selectedNames (model : Model) : FieldSelection → List String
  | .all => model.fieldNames
  | .listed names => names

def selectedField (model : Model) (message name : String) :
    Except Error (String × String) :=
  match model.field? name with
  | some field => .ok (Proto.scalarType field.tag, field.name)
  | none => .error (.unknownField model.name message name)

/-- The selected fields, then the free-form structures, numbered from one. -/
def message (model : Model) (name : String) (spec : MessageSpec) :
    Except Error Proto.Message := do
  requireIdentifier "message" name
  let fields ← (selectedNames model spec.selection).mapM (selectedField model name)
  return .numbered name (fields ++ spec.structFields.map fun field => (Proto.structType, field))

def messages (sources : Sources) (model : Model) : Except Error (List Proto.Message) :=
  (messagesOf sources model).toList.mapM fun entry => message model entry.1 entry.2

/-- The messages of each model are resolved before their names are held against
those of the models before it. -/
def allMessages (sources : Sources) :
    List String → List Model → Except Error (List Proto.Message)
  | _, [] => .ok []
  | seen, model :: rest => do
      let own ← messages sources model
      let names := own.map Proto.Message.name
      match firstRepeated seen names with
      | some name => throw (.duplicateMessage name)
      | none =>
          let others ← allMessages sources (names ++ seen) rest
          return own ++ others

/-- The import of free-form structures is there exactly if some message field
holds one. -/
def imports (messages : List Proto.Message) : List String :=
  Proto.emptyImport :: (if messages.any Proto.Message.usesStruct then [Proto.structImport] else [])

end Plan

def plan (registry : Registry) (scope : Scope) (sources : Sources := {}) :
    Except Error Proto.Document := do
  let models ← Plan.resolve registry scope
  let services ← models.mapM (Plan.service sources)
  let messages ← Plan.allMessages sources [] models
  return ⟨scope.app, Plan.imports messages, services.filterMap id, messages⟩

def generate (registry : Registry) (scope : Scope) (sources : Sources := {}) :
    Except Error String :=
  (plan registry scope sources).map Proto.Document.render

/-! ### Into a file -/

variable {m : Type → Type} [Monad m] [Files.Store m]

def prepareOutput (path : String) : ExceptT Error m Unit :=
  match Files.parent? path with
  | none | some "" => return
  | some parent =>
      (Files.makeDirectories parent).adapt fun fault =>
        .generation s!"Failed to create output directory {parent}: {fault.message}"

def writeOutput (path text : String) : ExceptT Error m Unit := do
  prepareOutput path
  (Files.writeText path text).adapt fun fault =>
    .generation s!"Failed to write {path}: {fault.message}"

def generateToFile (registry : Registry) (scope : Scope) (path : String)
    (sources : Sources := {}) : ExceptT Error m Unit := do
  match generate registry scope sources with
  | .ok text => writeOutput path text
  | .error error => throw error

end Protoscribe
