import Protoscribe.Registry.Basic

/-!
The consistency that a registry must have before anything is derived from it:
names are unique among applications, among the models of one application and
among the fields of one model, and the primary key of a concrete model is one
of its fields. The first violation in reading order is reported.
-/

namespace Protoscribe

inductive Violation where
  | repeatedApp (app : String)
  | repeatedModel (model app : String)
  | repeatedField (field app model : String)
  | missingKey (key app model : String)
  deriving DecidableEq, Repr

def Violation.message : Violation → String
  | .repeatedApp app => s!"Duplicate application '{app}'"
  | .repeatedModel model app => s!"Duplicate model '{model}' in application '{app}'"
  | .repeatedField field app model => s!"Duplicate field '{field}' on model '{app}.{model}'"
  | .missingKey key app model =>
      s!"Primary key '{key}' is not a field of model '{app}.{model}'"

/-- The first name that occurs in `seen` or earlier in the list. -/
def firstRepeated (seen : List String) : List String → Option String
  | [] => none
  | name :: rest => if name ∈ seen then some name else firstRepeated (name :: seen) rest

namespace Model

/-- Repeated field names come before a missing key, and only a concrete model
needs its key. -/
def check (app : String) (model : Model) : Except Violation Unit :=
  match firstRepeated [] model.fieldNames with
  | some field => .error (.repeatedField field app model.name)
  | none =>
      if !model.isAbstract && (model.field? model.key).isNone then
        .error (.missingKey model.key app model.name)
      else .ok ()

end Model

namespace App

/-- Each model is held against the names of the models before it, then checked
by itself. -/
def checkModels (app : String) : List String → List Model → Except Violation Unit
  | _, [] => .ok ()
  | seen, model :: rest =>
      if model.name ∈ seen then .error (.repeatedModel model.name app)
      else do
        model.check app
        checkModels app (model.name :: seen) rest

def check (app : App) : Except Violation Unit := checkModels app.name [] app.models

end App

namespace Registry

def checkApps : List String → List App → Except Violation Unit
  | _, [] => .ok ()
  | seen, app :: rest =>
      if app.name ∈ seen then .error (.repeatedApp app.name)
      else do
        app.check
        checkApps (app.name :: seen) rest

/-- The first violation in reading order, if there is one. -/
def check (registry : Registry) : Except Violation Unit := checkApps [] registry.apps

end Registry

end Protoscribe
