import Protoscribe.Decode.Record
import Protoscribe.Registry.Basic

/-!
Reading the parts of a registry from a document of any format. Each record is
given by its fields, their names in documents and their readers; absent fields
take the defaults of the type.
-/

namespace Protoscribe

open Decode

section

variable {ν : Type} {m : Type → Type} [Monad m] [Source ν m]

/-- A map from names: a name may repeat, the last value counts. -/
def OrderedMap.decode {α : Type} (read : ν → m α) (value : ν) : m (OrderedMap α) :=
  here ν do return .ofList (← readEntries read (← Source.entries value))

/-- The wildcard or a list of names. The failure of any other value is placed at
the map that holds it. -/
def FieldSelection.decode (value : ν) : m FieldSelection := do
  match ← Source.selection value with
  | .text "*" => return .all
  | .text other => Source.fail ν { cause := .strangeSelection other }
  | .names names => return .listed names
  | .other => Source.fail ν { cause := .noSelection }

end

inductive MessageRef.Key where
  | message
  | streamed
  deriving DecidableEq, Repr

namespace MessageRef

def Key.Value : Key → Type
  | .message => Option String
  | .streamed => Bool

def shape : Shape Key where
  name := "MessageRef"
  fields := [.message, .streamed]
  label
    | .message => "message"
    | .streamed => "is_stream"

variable {ν : Type} {m : Type → Type} [Monad m] [Source ν m]

def readKey : (field : Key) → ν → m field.Value
  | .message => readOptional Source.text
  | .streamed => Source.boolean

def decode (value : ν) : m MessageRef :=
  here ν do
    let reading ← shape.read readKey value
    return ⟨reading.getD .message none, reading.getD .streamed false⟩

end MessageRef

inductive Signature.Key where
  | request
  | response
  deriving DecidableEq, Repr

namespace Signature

def Key.Value : Key → Type := fun _ => MessageRef

def shape : Shape Key where
  name := "MethodSpec"
  fields := [.request, .response]
  label
    | .request => "request"
    | .response => "response"

variable {ν : Type} {m : Type → Type} [Monad m] [Source ν m]

def readKey : (field : Key) → ν → m field.Value := fun _ => MessageRef.decode

def decode (value : ν) : m Signature :=
  here ν do
    let reading ← shape.read readKey value
    return ⟨reading.getD .request {}, reading.getD .response {}⟩

end Signature

inductive Field.Key where
  | name
  | tag
  deriving DecidableEq, Repr

namespace Field

def Key.Value : Key → Type := fun _ => String

def shape : Shape Key where
  name := "FieldDescriptor"
  fields := [.name, .tag]
  label
    | .name => "name"
    | .tag => "type"

variable {ν : Type} {m : Type → Type} [Monad m] [Source ν m]

def readKey : (field : Key) → ν → m field.Value := fun _ => Source.text

def decode (value : ν) : m Field :=
  here ν do
    let reading ← shape.read readKey value
    let name ← reading.require ν shape .name
    let tag ← reading.require ν shape .tag
    return ⟨name, tag⟩

end Field

inductive Model.Key where
  | name
  | isAbstract
  | key
  | fields
  | methods
  | messages
  | filterRequest
  | paginationRequest
  deriving DecidableEq, Repr

namespace Model

def Key.Value : Key → Type
  | .name | .key => String
  | .isAbstract | .filterRequest | .paginationRequest => Bool
  | .fields => List Field
  | .methods => Option (OrderedMap Signature)
  | .messages => Option (OrderedMap FieldSelection)

def shape : Shape Key where
  name := "ModelDescriptor"
  fields := [.name, .isAbstract, .key, .fields, .methods, .messages, .filterRequest,
    .paginationRequest]
  label
    | .name => "name"
    | .isAbstract => "abstract"
    | .key => "pk"
    | .fields => "fields"
    | .methods => "grpc_methods"
    | .messages => "grpc_messages"
    | .filterRequest => "use_struct_filter_request"
    | .paginationRequest => "use_struct_pagination_request"

variable {ν : Type} {m : Type → Type} [Monad m] [Source ν m]

def readKey : (field : Key) → ν → m field.Value
  | .name | .key => Source.text
  | .isAbstract | .filterRequest | .paginationRequest => Source.boolean
  | .fields => readList Field.decode
  | .methods => readOptional (OrderedMap.decode Signature.decode)
  | .messages => readOptional (OrderedMap.decode FieldSelection.decode)

def decode (value : ν) : m Model :=
  here ν do
    let reading ← shape.read readKey value
    let name ← reading.require ν shape .name
    return {
      name
      isAbstract := reading.getD .isAbstract false
      key := reading.getD .key defaultKey
      fields := reading.getD .fields []
      methods := reading.getD .methods none
      messages := reading.getD .messages none
      filterRequest := reading.getD .filterRequest false
      paginationRequest := reading.getD .paginationRequest false }

end Model

inductive App.Key where
  | name
  | models
  deriving DecidableEq, Repr

namespace App

def Key.Value : Key → Type
  | .name => String
  | .models => List Model

def shape : Shape Key where
  name := "AppDescriptor"
  fields := [.name, .models]
  label
    | .name => "name"
    | .models => "models"

variable {ν : Type} {m : Type → Type} [Monad m] [Source ν m]

def readKey : (field : Key) → ν → m field.Value
  | .name => Source.text
  | .models => readList Model.decode

def decode (value : ν) : m App :=
  here ν do
    let reading ← shape.read readKey value
    let name ← reading.require ν shape .name
    return ⟨name, reading.getD .models []⟩

end App

inductive Registry.Key where
  | apps
  deriving DecidableEq, Repr

namespace Registry

def Key.Value : Key → Type := fun _ => List App

def shape : Shape Key where
  name := "ModelRegistry"
  fields := [.apps]
  label := fun _ => "apps"

variable {ν : Type} {m : Type → Type} [Monad m] [Source ν m]

def readKey : (field : Key) → ν → m field.Value := fun _ => readList App.decode

def decode (value : ν) : m Registry :=
  here ν do
    let reading ← shape.read readKey value
    return ⟨reading.getD .apps []⟩

end Registry

end Protoscribe
