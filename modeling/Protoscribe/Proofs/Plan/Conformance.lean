import Protoscribe.Registry.Parse
import Protoscribe.Proofs.Mixin
import Protoscribe.Proofs.Plan.Outcome
import Protoscribe.Proofs.Proto.Grammar

/-!
Which generated texts are proto3 documents. Planning looks at the names of
models, methods and messages and at every reference, but takes the name of the
application and the names of fields as they are. A text is therefore what its
document says exactly if these are valid as well; else they can break a line or
add lines and whole blocks.
-/

namespace Protoscribe

namespace Proto

/-- Every tag, known or not, has one of the types that a field may have. -/
theorem scalarType_mem (tag : String) : scalarType tag ∈ fieldTypes := by
  have htable : ∀ entry ∈ scalarTypes, entry.2 ∈ fieldTypes := by decide
  have hdefault : defaultScalarType ∈ fieldTypes := by decide
  exact scalarType_of_table (p := (· ∈ fieldTypes)) htable hdefault tag

end Proto

namespace Plan

/-! ### What planning checks -/

/-- What a reference resolves to stands in the grammar of request types. -/
theorem isRpcType_rpcType {model : Model} {ref : MessageRef} {text : String}
    (h : ref.rpcType model = .ok text) : Proto.IsRpcType text := by
  obtain ⟨htarget, rfl⟩ := rpcType_eq_ok_iff.mp h
  refine ⟨_, htarget, ?_⟩
  cases ref.streamed with
  | true => exact .inr rfl
  | false => exact .inl String.empty_append

/-- A resolved service is a service of the grammar, line by line. -/
theorem isService_service {sources : Sources} {model : Model} {own : Proto.Service}
    (h : service sources model = .ok (some own)) :
    Proto.IsService own.methods.length own.lines := by
  obtain ⟨-, hname, hservice, hrpcs⟩ := service_eq_some_iff.mp h
  refine ⟨model.name, (own.methods.map Proto.Rpc.text).map (indentUnit ++ ·), hname,
    Proto.isIdentifier_append hname (by decide), by simp, ?_, ?_⟩
  · intro line hline
    obtain ⟨text, htext, rfl⟩ := List.mem_map.mp hline
    obtain ⟨planned, hplanned, rfl⟩ := List.mem_map.mp htext
    obtain ⟨entry, -, hrpc⟩ := exists_left_of_mem hrpcs hplanned
    obtain ⟨hmethod, hsame, hrequest, hresponse⟩ := rpc_eq_ok_iff.mp hrpc
    refine ⟨planned.name, planned.request, planned.response, hsame ▸ hmethod,
      isRpcType_rpcType hrequest, isRpcType_rpcType hresponse, ?_⟩
    simp only [Proto.Rpc.text, ← String.append_assoc]
    rfl
  · rw [Proto.Service.lines, Proto.blockLines, hservice, serviceName]
    simp only [String.append_assoc]
    rfl

theorem type_message {model : Model} {name : String} {spec : MessageSpec} {own : Proto.Message}
    (h : message model name spec = .ok own) {field : Proto.MessageField} (hfield : field ∈ own.fields) :
    field.type ∈ Proto.fieldTypes := by
  obtain ⟨-, shown, hshown, rfl⟩ := message_eq_ok_iff.mp h
  have hin := List.mem_map_of_mem (f := fun one => (one.type, one.name)) hfield
  change _ ∈ (Proto.numberFrom 1 _).map _ at hin
  rw [Proto.map_typed_numberFrom] at hin
  cases List.mem_append.mp hin with
  | inl hselected =>
      obtain ⟨one, -, hone⟩ := exists_left_of_mem hshown hselected
      obtain ⟨found, -, hsame⟩ := selectedField_eq_ok_iff.mp hone
      rw [(Prod.mk.inj hsame).1]
      exact Proto.scalarType_mem found.tag
  | inr hstruct =>
      obtain ⟨one, -, hsame⟩ := List.mem_map.mp hstruct
      rw [← (Prod.mk.inj hsame).1]
      decide

/-- Planning checks all of a document but the application name and the field names. -/
theorem checked_plan {registry : Registry} {scope : Scope} {sources : Sources}
    {document : Proto.Document} (h : plan registry scope sources = .ok document) :
    document.Checked where
  imports := by
    obtain ⟨models, shares, -, -, -, rfl⟩ := plan_eq_ok_iff.mp h
    change imports _ = _ ∨ imports _ = _
    unfold imports
    split
    · exact .inr rfl
    · exact .inl rfl
  services := by
    intro own hown
    obtain ⟨model, -, hservice⟩ := mem_services h hown
    exact isService_service hservice
  names := by
    intro own hown
    obtain ⟨model, -, entry, -, hmessage⟩ := mem_messages h hown
    obtain ⟨hname, shown, -, rfl⟩ := message_eq_ok_iff.mp hmessage
    exact hname
  types := by
    intro own hown field hfield
    obtain ⟨model, -, entry, -, hmessage⟩ := mem_messages h hown
    exact type_message hmessage hfield
  numbers := by
    intro own hown
    obtain ⟨model, -, entry, -, hmessage⟩ := mem_messages h hown
    obtain ⟨-, shown, -, rfl⟩ := message_eq_ok_iff.mp hmessage
    change (Proto.numberFrom 1 _).map _ = List.range' 1 (Proto.numberFrom 1 _).length
    rw [Proto.map_number_numberFrom, Proto.length_numberFrom]

/-! ### What planning does not check -/

def shownNames (registry : Registry) (scope : Scope) (sources : Sources) : List String :=
  (inScope registry scope).flatMap fun model =>
    (messagesOf sources model).toList.flatMap fun entry => selectedNames model entry.2.selection

/-- The structures that the built-in mixins add have valid names. -/
theorem structFields_default {model : Model} {entry : String × MessageSpec}
    (h : entry ∈ (messagesOf {} model).toList) :
    ∀ name ∈ entry.2.structFields, Proto.isIdentifier name = true := by
  cases hmessages : model.messages with
  | some overrides =>
      obtain ⟨selection, -, hspec⟩ := (mem_messagesOf_override hmessages {}).mp h
      intro name hname
      rw [hspec] at hname
      cases hname
  | none =>
      rw [messagesOf, hmessages] at h
      obtain ⟨source, hsource, hentry⟩ := mem_mergeMessages h
      obtain ⟨mixin, -, rfl⟩ := List.mem_map.mp hsource
      intro name hname
      obtain rfl | rfl := Mixin.structFields_messages hentry name hname
      · decide
      · decide

/-- The field names of a document are valid exactly if those that models show are. -/
theorem names_document_iff {registry : Registry} {scope : Scope} {document : Proto.Document}
    (h : plan registry scope = .ok document) :
    (∀ own ∈ document.messages, ∀ field ∈ own.fields, Proto.isIdentifier field.name = true) ↔
      ∀ name ∈ shownNames registry scope {}, Proto.isIdentifier name = true := by
  constructor
  · intro hvalid name hname
    obtain ⟨model, hmodel, hin⟩ := List.mem_flatMap.mp hname
    obtain ⟨entry, hentry, hselected⟩ := List.mem_flatMap.mp hin
    obtain ⟨own, hown, hmessage⟩ := exists_message h hmodel hentry
    have hshown : name ∈ own.fields.map Proto.MessageField.name := by
      rw [map_name_message hmessage]
      exact List.mem_append_left _ hselected
    obtain ⟨field, hfield, rfl⟩ := List.mem_map.mp hshown
    exact hvalid own hown field hfield
  · intro hvalid own hown field hfield
    obtain ⟨model, hmodel, entry, hentry, hmessage⟩ := mem_messages h hown
    have hshown : field.name ∈ own.fields.map Proto.MessageField.name :=
      List.mem_map_of_mem hfield
    rw [map_name_message hmessage] at hshown
    cases List.mem_append.mp hshown with
    | inl hselected =>
        refine hvalid field.name (List.mem_flatMap.mpr ⟨model, hmodel, ?_⟩)
        exact List.mem_flatMap.mpr ⟨entry, hentry, hselected⟩
    | inr hstruct => exact structFields_default hentry field.name hstruct

/-- A generated text is a proto3 document of the shape that was planned exactly
if the name of its application is a dotted name and the names of all fields that
it shows are identifiers. Every other name has been checked on the way. -/
theorem generate_isFile_iff {registry : Registry} {scope : Scope} {text : String}
    (h : generate registry scope = .ok text) :
    ∃ document, plan registry scope = .ok document ∧
      (Proto.IsFile document.shape text ↔
        Proto.isQualified scope.app = true ∧
          ∀ name ∈ shownNames registry scope {}, Proto.isIdentifier name = true) := by
  obtain ⟨document, hplan, rfl⟩ := generate_eq_ok_iff.mp h
  have hpackage : document.package = scope.app := by
    obtain ⟨models, shares, -, -, -, rfl⟩ := plan_eq_ok_iff.mp hplan
    rfl
  refine ⟨document, hplan, ?_⟩
  rw [Proto.isFile_render_iff (checked_plan hplan), hpackage, names_document_iff hplan]

theorem generate_isFile_iff_library :
    ∃ text document,
      generate ⟨[⟨"library", [{ name := "Book", fields := [⟨"id", "AutoField"⟩] }]⟩]⟩
        ⟨"library", none⟩ = .ok text ∧
      plan ⟨[⟨"library", [{ name := "Book", fields := [⟨"id", "AutoField"⟩] }]⟩]⟩
        ⟨"library", none⟩ = .ok document ∧
      Proto.IsFile document.shape text := by
  obtain ⟨text, htext⟩ : ∃ text,
      generate ⟨[⟨"library", [{ name := "Book", fields := [⟨"id", "AutoField"⟩] }]⟩]⟩
        ⟨"library", none⟩ = .ok text := ⟨_, rfl⟩
  obtain ⟨document, hdocument, hiff⟩ := generate_isFile_iff htext
  exact ⟨text, document, htext, hdocument, hiff.mpr ⟨by decide, by decide⟩⟩

/-- A registry whose application has a name of two words. -/
def spacedDocument : String := "\x7b\"apps\":[\x7b\"name\":\"a b\"\x7d]\x7d"

/-- The name of a field that ends its message and opens another. -/
def closingName : String := "x = 1;\n\x7d\n\nmessage B \x7b\n    string y"

def closingDocument : String :=
  "\x7b\"apps\":[\x7b\"name\":\"shop\",\"models\":[\x7b\"name\":\"Item\",\"fields\":[" ++
    "\x7b\"name\":\"id\",\"type\":\"AutoField\"\x7d," ++
    "\x7b\"name\":\"x = 1;\\n\x7d\\n\\nmessage B \x7b\\n    string y\",\"type\":\"CharField\"\x7d]," ++
    "\"grpc_methods\":\x7b\x7d,\"grpc_messages\":\x7b\"A\":[" ++
    "\"x = 1;\\n\x7d\\n\\nmessage B \x7b\\n    string y\"]\x7d\x7d]\x7d]\x7d"

def closingRegistry : Registry :=
  ⟨[⟨"shop", [
    { name := "Item", fields := [⟨"id", "AutoField"⟩, ⟨closingName, "CharField"⟩],
      methods := some .empty, messages := some (.ofList [("A", .listed [closingName])]) }]⟩]⟩

/-- A name with a space breaks the line of the package, so that the text has no
shape at all; the name of a field can add a message that nothing declares. -/
theorem unchecked_names_break_documents :
    (∃ registry text, Registry.parse .json spacedDocument = .ok registry ∧
      generate registry ⟨"a b", none⟩ = .ok text ∧ ∀ shape, ¬ Proto.IsFile shape text) ∧
    (∃ registry document text, Registry.parse .json closingDocument = .ok registry ∧
      plan registry ⟨"shop", none⟩ = .ok document ∧ generate registry ⟨"shop", none⟩ = .ok text ∧
      document.messages.map Proto.Message.name = ["A"] ∧ ¬ Proto.IsFile document.shape text ∧
      text = Proto.Document.render ⟨"shop", [Proto.emptyImport], [],
        [.numbered "A" [("string", "x")], .numbered "B" [("string", "y")]]⟩) := by
  refine ⟨?_, ?_⟩
  · have hparse : (Registry.parse .json spacedDocument).toOption = some ⟨[⟨"a b", []⟩]⟩ := by
      decide +kernel
    refine ⟨_, _, eq_ok_of_toOption hparse, rfl, ?_⟩
    intro shape hfile
    have hlines : ∀ line ∈ (⟨"a b", [Proto.emptyImport], [], []⟩ : Proto.Document).lines,
        OneLine line := by decide
    exact absurd (Proto.isQualified_package_of_isFile hlines hfile) (by decide)
  · have hparse : (Registry.parse .json closingDocument).toOption = some closingRegistry := by
      decide +kernel
    have hplan : plan closingRegistry ⟨"shop", none⟩ =
        .ok ⟨"shop", [Proto.emptyImport], [], [.numbered "A" [("string", closingName)]]⟩ := rfl
    refine ⟨_, _, _, eq_ok_of_toOption hparse, hplan, by rw [generate, hplan]; rfl, rfl, ?_, ?_⟩
    · rw [Proto.isFile_render_iff (checked_plan hplan)]
      decide
    · decide +kernel

end Plan

end Protoscribe
