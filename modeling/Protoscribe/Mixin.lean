import Protoscribe.Registry.Basic

/-!
Where the methods and messages of a model come from when the model does not
override them. Each source offers a map of methods and a map of messages; the
maps of several sources are merged in order, so that a later source replaces an
earlier entry of the same name without moving it. Five mixins are built in.
-/

namespace Protoscribe

/-- A source of methods and messages for any model. -/
structure Defaults where
  methods : Model → OrderedMap Signature
  messages : Model → OrderedMap MessageSpec

/-- A source that offers the same entries for every model. -/
def Defaults.constant (methods : OrderedMap Signature) (messages : OrderedMap MessageSpec) :
    Defaults :=
  ⟨fun _ => methods, fun _ => messages⟩

inductive Mixin where
  | list
  | create
  | retrieve
  | update
  | destroy
  deriving DecidableEq, Repr

namespace Mixin

def methodOrder : List Mixin := [.list, .create, .retrieve, .update, .destroy]

def messageOrder : List Mixin := [.create, .list, .retrieve, .update, .destroy]

def verb : Mixin → String
  | .list => "List"
  | .create => "Create"
  | .retrieve => "Retrieve"
  | .update => "Update"
  | .destroy => "Destroy"

def methodName (mixin : Mixin) (model : String) : String := mixin.verb ++ model

def requestName (mixin : Mixin) (model : String) : String :=
  model ++ mixin.verb ++ "Request"

def responseName (mixin : Mixin) (model : String) : String :=
  model ++ mixin.verb ++ "Response"

/-- Only the list operation gives back a stream. -/
def response (mixin : Mixin) (model : String) : MessageRef :=
  match mixin with
  | .list => .stream (mixin.responseName model)
  | _ => .named (mixin.responseName model)

def signature (mixin : Mixin) (model : String) : Signature :=
  ⟨.named (mixin.requestName model), mixin.response model⟩

def methods (mixin : Mixin) (model : Model) : OrderedMap Signature :=
  .ofList [(mixin.methodName model.name, mixin.signature model.name)]

def filtersField : String := "_filters"

def paginationField : String := "_pagination"

/-- The free-form structures that the list request of a model carries. -/
def requestStructs (model : Model) : List String :=
  (if model.filterRequest then [filtersField] else []) ++
    (if model.paginationRequest then [paginationField] else [])

/-- The request of a list is a message only if it carries a structure; an
update contributes no message. -/
def messageEntries (mixin : Mixin) (model : Model) : List (String × MessageSpec) :=
  match mixin with
  | .list =>
      (if model.hasStructRequest then
        [(mixin.requestName model.name, ⟨.listed [], requestStructs model⟩)]
      else []) ++ [(mixin.responseName model.name, ⟨.all, []⟩)]
  | .create => [(mixin.requestName model.name, ⟨.all, []⟩)]
  | .retrieve | .destroy => [(mixin.requestName model.name, ⟨.listed [model.key], []⟩)]
  | .update => []

def messages (mixin : Mixin) (model : Model) : OrderedMap MessageSpec :=
  .ofList (mixin.messageEntries model)

def defaults (mixin : Mixin) : Defaults := ⟨mixin.methods, mixin.messages⟩

end Mixin

def mergeMethods (sources : List Defaults) (model : Model) : OrderedMap Signature :=
  sources.foldl (fun merged source => merged.merge (source.methods model)) .empty

def mergeMessages (sources : List Defaults) (model : Model) : OrderedMap MessageSpec :=
  sources.foldl (fun merged source => merged.merge (source.messages model)) .empty

end Protoscribe
