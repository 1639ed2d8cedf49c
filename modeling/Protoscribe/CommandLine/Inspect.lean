import Protoscribe.CommandLine.Style
import Protoscribe.Plan

/-!
What a registry holds, line by line: applications, their models with what is
special about them, and the fields with the types that they map to. The fields
of abstract models are shown only on demand.
-/

namespace Protoscribe.CommandLine

structure FieldLine where
  name : String
  tag : String
  type : String
  known : Bool
  isKey : Bool
  deriving DecidableEq, Repr

namespace FieldLine

def ofField (model : Model) (field : Field) : FieldLine where
  name := field.name
  tag := field.tag
  type := Proto.scalarType field.tag
  known := Proto.isKnownTag field.tag
  isKey := field.name = model.key

def text (colors : Bool) (line : FieldLine) : String :=
  "    " ++ line.name ++ " " ++ line.tag ++ " -> " ++ line.type ++
    (if line.known then "" else " " ++ Style.dimmed.paint colors "(unmapped)") ++
    (if line.isKey then " [pk]" else "")

end FieldLine

/-- What is special about a model. -/
def markers (model : Model) : List String :=
  (if model.isAbstract then ["abstract"] else []) ++
    (if model.methods.isSome then ["methods override"] else []) ++
    (if model.messages.isSome then ["messages override"] else []) ++
    (if model.hasStructRequest then ["struct list request"] else [])

def modelLine (colors : Bool) (model : Model) : String :=
  let name := "  • " ++ Style.cyan.paint colors model.name
  match markers model with
  | [] => name
  | found => name ++ " (" ++ ", ".intercalate found ++ ")"

def fieldLines (verbose : Bool) (model : Model) : List FieldLine :=
  if model.isAbstract && !verbose then [] else model.fields.map (.ofField model)

def modelLines (colors verbose : Bool) (model : Model) : List String :=
  modelLine colors model :: (fieldLines verbose model).map (FieldLine.text colors)

/-- An application ends with an empty line. -/
def appLines (colors verbose : Bool) (app : App) : List String :=
  (Style.bold.paint colors "Application:" ++ " " ++ Style.yellow.paint colors app.name) ::
    app.models.flatMap (modelLines colors verbose) ++ [""]

end Protoscribe.CommandLine
