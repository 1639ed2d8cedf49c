import Protoscribe.Json.Compact
import Protoscribe.Registry.Decode

/-!
The parts of a registry as JSON. Fields stand in the order of declaration under
the names that reading expects; an absent name or override is left out, every
other field is written even at its default.
-/

namespace Protoscribe

def OrderedMap.toJson {α : Type} (encode : α → Json) (map : OrderedMap α) : Json :=
  .record (map.entries.map fun entry => (entry.1, encode entry.2))

def FieldSelection.toJson : FieldSelection → Json
  | .all => .text "*"
  | .listed names => .array (names.map Json.text)

def optionalMember {α : Type} (name : String) (encode : α → Json) (value : Option α) :
    List (String × Json) :=
  match value with
  | none => []
  | some present => [(name, encode present)]

def MessageRef.toJson (ref : MessageRef) : Json :=
  .record (optionalMember "message" Json.text ref.message ++
    [("is_stream", .boolean ref.streamed)])

def Signature.toJson (signature : Signature) : Json :=
  .record [("request", signature.request.toJson), ("response", signature.response.toJson)]

def Field.toJson (field : Field) : Json :=
  .record [("name", .text field.name), ("type", .text field.tag)]

def Model.toJson (model : Model) : Json :=
  .record ([("name", .text model.name), ("abstract", .boolean model.isAbstract),
      ("pk", .text model.key), ("fields", .array (model.fields.map Field.toJson))] ++
    optionalMember "grpc_methods" (OrderedMap.toJson Signature.toJson) model.methods ++
    optionalMember "grpc_messages" (OrderedMap.toJson FieldSelection.toJson) model.messages ++
    [("use_struct_filter_request", .boolean model.filterRequest),
      ("use_struct_pagination_request", .boolean model.paginationRequest)])

def App.toJson (app : App) : Json :=
  .record [("name", .text app.name), ("models", .array (app.models.map Model.toJson))]

def Registry.toJson (registry : Registry) : Json :=
  .record [("apps", .array (registry.apps.map App.toJson))]

def Registry.encode (registry : Registry) : String := registry.toJson.compact

end Protoscribe
