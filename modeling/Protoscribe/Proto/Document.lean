import Protoscribe.Writer

/-!
A resolved proto3 document and its text: the header, then all services, then
all messages. Fields are numbered from one in the order in which they stand.
-/

namespace Protoscribe.Proto

def emptyImport : String := "google/protobuf/empty.proto"

def structImport : String := "google/protobuf/struct.proto"

def structType : String := "google.protobuf.Struct"

structure Rpc where
  name : String
  request : String
  response : String
  deriving DecidableEq, Repr, Inhabited

structure Service where
  name : String
  methods : List Rpc
  deriving DecidableEq, Repr, Inhabited

structure MessageField where
  type : String
  name : String
  number : Nat
  deriving DecidableEq, Repr, Inhabited

structure Message where
  name : String
  fields : List MessageField
  deriving DecidableEq, Repr, Inhabited

/-- Numbers typed names in order, the first with `start`. -/
def numberFrom (start : Nat) : List (String × String) → List MessageField
  | [] => []
  | (type, name) :: rest => ⟨type, name, start⟩ :: numberFrom (start + 1) rest

/-- A message whose typed names are numbered from one. -/
def Message.numbered (name : String) (fields : List (String × String)) : Message :=
  ⟨name, numberFrom 1 fields⟩

def Message.usesStruct (message : Message) : Bool :=
  message.fields.any (·.type = structType)

structure Document where
  package : String
  imports : List String
  services : List Service
  messages : List Message
  deriving DecidableEq, Repr, Inhabited

def Rpc.text (rpc : Rpc) : String :=
  "rpc " ++ rpc.name ++ "(" ++ rpc.request ++ ") returns (" ++ rpc.response ++ ") \x7b\x7d"

def MessageField.text (field : MessageField) : String :=
  field.type ++ " " ++ field.name ++ " = " ++ toString field.number ++ ";"

/-- A named block with one line per entry, and an empty line after it. -/
def writeBlock (writer : Writer) (keyword name : String) (entries : List String) : Writer :=
  (((writer.line (keyword ++ " " ++ name ++ " \x7b")).block (·.lines entries)).line "\x7d").line ""

def Service.write (writer : Writer) (service : Service) : Writer :=
  writeBlock writer "service" service.name (service.methods.map Rpc.text)

def Message.write (writer : Writer) (message : Message) : Writer :=
  writeBlock writer "message" message.name (message.fields.map MessageField.text)

def Document.header (document : Document) : List String :=
  ["syntax = \"proto3\";", "", "package " ++ document.package ++ ";", ""] ++
    document.imports.map (fun path => "import \"" ++ path ++ "\";") ++ [""]

def Document.write (document : Document) (writer : Writer) : Writer :=
  document.messages.foldl Message.write
    (document.services.foldl Service.write (writer.lines document.header))

def Document.render (document : Document) : String := (document.write {}).code

end Protoscribe.Proto
