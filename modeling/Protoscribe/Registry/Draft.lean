import Protoscribe.Registry.Basic

/-!
Building a registry by hand: models are drafted one after the other, the latest
can still be changed, and an application takes all drafted models.
-/

namespace Protoscribe

structure Draft where
  models : List Model := []
  registry : Registry := {}
  deriving DecidableEq, Repr, Inhabited

/-- A change of the latest drafted model. -/
inductive Amendment where
  | field (field : Field)
  | key (name : String)
  | methods (methods : OrderedMap Signature)
  | messages (messages : OrderedMap FieldSelection)
  | abstract
  | requests (filter pagination : Bool)
  deriving DecidableEq, Repr

/-- A new field goes to the end; everything else replaces what was there. -/
def Amendment.apply (model : Model) : Amendment → Model
  | .field added => { model with fields := model.fields ++ [added] }
  | .key name => { model with key := name }
  | .methods given => { model with methods := some given }
  | .messages given => { model with messages := some given }
  | .abstract => { model with isAbstract := true }
  | .requests filter pagination =>
      { model with filterRequest := filter, paginationRequest := pagination }

namespace Draft

def addModel (draft : Draft) (model : Model) : Draft :=
  { draft with models := draft.models ++ [model] }

def latest? (draft : Draft) : Option Model := draft.models.getLast?

def amend (draft : Draft) (amendment : Amendment) : Draft :=
  match draft.latest? with
  | none => draft
  | some model => { draft with models := draft.models.dropLast ++ [amendment.apply model] }

/-- Moves the drafted models into a new application. -/
def addApp (draft : Draft) (name : String) : Draft :=
  ⟨[], ⟨draft.registry.apps ++ [⟨name, draft.models⟩]⟩⟩

end Draft

end Protoscribe
