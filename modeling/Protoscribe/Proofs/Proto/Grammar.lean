import Protoscribe.Proofs.Matching
import Protoscribe.Proofs.Proto.Identifier
import Protoscribe.Proofs.Proto.Layout

/-!
The texts that are proto3 documents of the kind that is written here, told
without the writer: a header, services and messages, line by line, with a valid
name in every place that takes one. A shape says how many entries each block
has. A document whose parts have been checked, apart from its package and the
names of its fields, has a text of its own shape exactly if these are valid too.
-/

namespace Protoscribe.Proto

/-! ### Productions -/

def fieldTypes : List String := ["int32", "int64", "float", "bool", "string", structType]

/-- An optional `stream` and a dotted name. -/
def IsRpcType (text : String) : Prop :=
  ∃ name, isQualified name = true ∧ (text = name ∨ text = "stream " ++ name)

def IsRpcLine (line : String) : Prop :=
  ∃ name request response, isIdentifier name = true ∧ IsRpcType request ∧ IsRpcType response ∧
    line = "    rpc " ++ name ++ "(" ++ request ++ ") returns (" ++ response ++ ") \x7b\x7d"

def IsFieldLine (number : Nat) (line : String) : Prop :=
  ∃ type ∈ fieldTypes, ∃ name, isIdentifier name = true ∧
    line = "    " ++ type ++ " " ++ name ++ " = " ++ toString number ++ ";"

def IsService (methods : Nat) (lines : List String) : Prop :=
  ∃ model body, isIdentifier model = true ∧ isIdentifier (model ++ "Controller") = true ∧
    body.length = methods ∧ (∀ line ∈ body, IsRpcLine line) ∧
    lines = ("service " ++ model ++ "Controller \x7b") :: body ++ ["\x7d", ""]

def IsMessage (fields : Nat) (lines : List String) : Prop :=
  ∃ name body, isIdentifier name = true ∧ List.Forall₂ IsFieldLine (List.range' 1 fields) body ∧
    lines = ("message " ++ name ++ " \x7b") :: body ++ ["\x7d", ""]

def IsHeader (structs : Bool) (lines : List String) : Prop :=
  ∃ package, isQualified package = true ∧
    lines = ["syntax = \"proto3\";", "", "package " ++ package ++ ";", "",
      "import \"google/protobuf/empty.proto\";"] ++
      (if structs then ["import \"google/protobuf/struct.proto\";"] else []) ++ [""]

/-- The blocks of a text and the number of entries in each, and whether the text
imports free-form structures. -/
structure Shape where
  structs : Bool
  services : List Nat
  messages : List Nat
  deriving DecidableEq, Repr

def IsFile (shape : Shape) (text : String) : Prop :=
  ∃ header services messages, IsHeader shape.structs header ∧
    List.Forall₂ IsService shape.services services ∧
    List.Forall₂ IsMessage shape.messages messages ∧
    text = linesText (header ++ services.flatten ++ messages.flatten)

def Document.shape (document : Document) : Shape where
  structs := document.imports.contains structImport
  services := document.services.map (·.methods.length)
  messages := document.messages.map (·.fields.length)

/-! ### Valid names stay on their line -/

/-- An identifier cannot break its line. -/
theorem oneLine_of_isIdentifier {name : String} (h : isIdentifier name = true) : OneLine name :=
  not_mem_of_isIdentifier h rfl

theorem oneLine_of_isQualified {name : String} (h : isQualified name = true) : OneLine name :=
  not_mem_of_isQualified h rfl (by decide)

theorem not_mem_toString (number : Nat) {c : Char} (h : c.isDigit = false) :
    c ∉ (toString number).toList := by
  intro hin
  have hdigit := Nat.isDigit_of_mem_toDigits (by decide) (by decide) (Nat.toList_repr ▸ hin)
  rw [h] at hdigit
  cases hdigit

theorem oneLine_toString (number : Nat) : OneLine (toString number) := not_mem_toString number rfl

/-- A request type holds nothing but identifiers, dots and a blank. -/
theorem not_mem_of_isRpcType {text : String} (h : IsRpcType text) {c : Char}
    (hc : isIdentifierChar c = false) (hmarks : c ∉ ['.', ' ']) : c ∉ text.toList := by
  have hname : ∀ name, isQualified name = true → c ∉ name.toList := by
    intro name hname
    refine not_mem_of_isQualified hname hc ?_
    rintro rfl
    exact hmarks List.mem_cons_self
  obtain ⟨name, hqualified, rfl | rfl⟩ := h
  · exact hname _ hqualified
  · rw [String.toList_append, List.mem_append, not_or]
    refine ⟨?_, hname _ hqualified⟩
    intro hin
    have hstream : "stream ".toList.all (fun c => isIdentifierChar c || c ∈ ['.', ' ']) = true := by
      decide
    have hchar := List.all_eq_true.mp hstream c hin
    rw [hc, Bool.false_or] at hchar
    exact hmarks (of_decide_eq_true hchar)

theorem oneLine_of_isRpcType {text : String} (h : IsRpcType text) : OneLine text :=
  not_mem_of_isRpcType h rfl (by decide)

/-- A method line stands on one line. -/
theorem oneLine_of_isRpcLine {line : String} (h : IsRpcLine line) : OneLine line := by
  obtain ⟨name, request, response, hname, hrequest, hresponse, rfl⟩ := h
  have hnamed : OneLine ("    rpc " ++ name ++ "(") :=
    oneLine_between (by decide) (oneLine_of_isIdentifier hname) (by decide)
  have hasked : OneLine ("    rpc " ++ name ++ "(" ++ request ++ ") returns (") :=
    oneLine_between hnamed (oneLine_of_isRpcType hrequest) (by decide)
  exact oneLine_between hasked (oneLine_of_isRpcType hresponse) (by decide)

theorem oneLine_of_isFieldLine {number : Nat} {line : String} (h : IsFieldLine number line) :
    OneLine line := by
  obtain ⟨type, htype, name, hname, rfl⟩ := h
  have honeLine : ∀ type ∈ fieldTypes, OneLine type := by decide
  have htyped : OneLine ("    " ++ type ++ " ") :=
    oneLine_between (by decide) (honeLine type htype) (by decide)
  have hnamed : OneLine ("    " ++ type ++ " " ++ name ++ " = ") :=
    oneLine_between htyped (oneLine_of_isIdentifier hname) (by decide)
  exact oneLine_between hnamed (oneLine_toString number) (by decide)

theorem oneLine_of_isHeader {structs : Bool} {lines : List String} (h : IsHeader structs lines) :
    ∀ line ∈ lines, OneLine line := by
  obtain ⟨package, hpackage, rfl⟩ := h
  have hline : OneLine ("package " ++ package ++ ";") :=
    oneLine_between (by decide) (oneLine_of_isQualified hpackage) (by decide)
  have hsyntax : OneLine "syntax = \"proto3\";" := by decide
  have hempty : OneLine "import \"google/protobuf/empty.proto\";" := by decide
  have hstruct : OneLine "import \"google/protobuf/struct.proto\";" := by decide
  have hblank : OneLine "" := by decide
  cases structs <;> simp [hline, hsyntax, hempty, hstruct, hblank]

theorem oneLine_of_isService {methods : Nat} {lines : List String} (h : IsService methods lines) :
    ∀ line ∈ lines, OneLine line := by
  obtain ⟨model, body, hmodel, -, -, hbody, rfl⟩ := h
  have hhead : OneLine ("service " ++ model ++ "Controller \x7b") :=
    oneLine_between (by decide) (oneLine_of_isIdentifier hmodel) (by decide)
  simp only [List.forall_mem_append, List.forall_mem_cons]
  exact ⟨⟨hhead, fun line hline => oneLine_of_isRpcLine (hbody line hline)⟩, by decide, by decide,
    fun _ hnone => absurd hnone List.not_mem_nil⟩

theorem oneLine_of_isMessage {fields : Nat} {lines : List String} (h : IsMessage fields lines) :
    ∀ line ∈ lines, OneLine line := by
  obtain ⟨name, body, hname, hbody, rfl⟩ := h
  have hhead : OneLine ("message " ++ name ++ " \x7b") :=
    oneLine_between (by decide) (oneLine_of_isIdentifier hname) (by decide)
  have hfields : ∀ line ∈ body, OneLine line := by
    intro line hline
    obtain ⟨number, -, hfield⟩ := exists_left_of_mem hbody hline
    exact oneLine_of_isFieldLine hfield
  simp only [List.forall_mem_append, List.forall_mem_cons]
  exact ⟨⟨hhead, hfields⟩, by decide, by decide, fun _ hnone => absurd hnone List.not_mem_nil⟩

/-- Every line of a file is one line, so the text shows where each ends. -/
theorem oneLine_of_isFile {shape : Shape} {header : List String}
    {services messages : List (List String)} (hheader : IsHeader shape.structs header)
    (hservices : List.Forall₂ IsService shape.services services)
    (hmessages : List.Forall₂ IsMessage shape.messages messages) :
    ∀ line ∈ header ++ services.flatten ++ messages.flatten, OneLine line := by
  simp only [List.forall_mem_append, List.forall_mem_flatten]
  refine ⟨⟨oneLine_of_isHeader hheader, ?_⟩, ?_⟩
  · intro block hblock
    obtain ⟨count, -, hservice⟩ := exists_left_of_mem hservices hblock
    exact oneLine_of_isService hservice
  · intro block hblock
    obtain ⟨count, -, hmessage⟩ := exists_left_of_mem hmessages hblock
    exact oneLine_of_isMessage hmessage

/-! ### Documents -/

/-- What is known of a document when its package and the names of its fields have
not been looked at. -/
structure Document.Checked (document : Document) : Prop where
  imports : document.imports = [emptyImport] ∨ document.imports = [emptyImport, structImport]
  services : ∀ service ∈ document.services, IsService service.methods.length service.lines
  names : ∀ message ∈ document.messages, isIdentifier message.name = true
  types : ∀ message ∈ document.messages, ∀ field ∈ message.fields, field.type ∈ fieldTypes
  numbers : ∀ message ∈ document.messages,
    message.fields.map MessageField.number = List.range' 1 message.fields.length

theorem length_isHeader {structs : Bool} {lines : List String} (h : IsHeader structs lines) :
    lines.length = if structs then 7 else 6 := by
  obtain ⟨package, -, rfl⟩ := h
  cases structs <;> rfl

/-- A service has a head, its methods, a closing brace and an empty line. -/
theorem length_isService {methods : Nat} {lines : List String} (h : IsService methods lines) :
    lines.length = methods + 3 := by
  obtain ⟨model, body, -, -, rfl, -, rfl⟩ := h
  simp

theorem length_isMessage {fields : Nat} {lines : List String} (h : IsMessage fields lines) :
    lines.length = fields + 3 := by
  obtain ⟨name, body, -, hbody, rfl⟩ := h
  have hlength := hbody.length_eq
  rw [List.length_range'] at hlength
  simp [← hlength]

/-- With a known type a field stands in the grammar exactly if its name is valid. -/
theorem isFieldLine_text_iff {field : MessageField} (htype : field.type ∈ fieldTypes) :
    IsFieldLine field.number (indentUnit ++ field.text) ↔ isIdentifier field.name = true := by
  have hspace : ∀ type ∈ fieldTypes, ' ' ∉ type.toList := by decide
  let tail := " = " ++ toString field.number ++ ";"
  constructor
  · rintro ⟨type, htype', name, hname, h⟩
    have hline : indentUnit ++ (field.type ++ " " ++ (field.name ++ tail)) =
        indentUnit ++ (type ++ " " ++ (name ++ tail)) := by
      simpa only [MessageField.text, indentUnit, tail, String.append_assoc] using h
    have htext := (String.append_right_inj indentUnit).mp hline
    -- no type holds a space, so the first space ends the type on both sides
    obtain ⟨-, hsame⟩ := append_mark_inj rfl (hspace _ htype) (hspace _ htype') htext
    rw [(String.append_left_inj tail).mp hsame]
    exact hname
  · intro hname
    refine ⟨field.type, htype, field.name, hname, ?_⟩
    simp only [MessageField.text, indentUnit, String.append_assoc]

/-- A numbered message stands in the grammar exactly if its field names are valid. -/
theorem isMessage_lines_iff {message : Message} (hname : isIdentifier message.name = true)
    (htypes : ∀ field ∈ message.fields, field.type ∈ fieldTypes)
    (hnumbers : message.fields.map MessageField.number = List.range' 1 message.fields.length) :
    IsMessage message.fields.length message.lines ↔
      ∀ field ∈ message.fields, isIdentifier field.name = true := by
  have hfields : List.Forall₂ IsFieldLine (List.range' 1 message.fields.length)
      ((message.fields.map MessageField.text).map (indentUnit ++ ·)) ↔
      ∀ field ∈ message.fields, isIdentifier field.name = true := by
    rw [← hnumbers, List.map_map, List.forall₂_map_left_iff, List.forall₂_map_right_iff,
      List.forall₂_same]
    exact forall₂_congr fun field hfield => isFieldLine_text_iff (htypes field hfield)
  rw [← hfields]
  constructor
  · rintro ⟨name, body, -, hbody, h⟩
    have hentries := (List.cons.inj (List.append_cancel_right h)).2
    rw [hentries]
    exact hbody
  · intro hbody
    exact ⟨message.name, _, hname, hbody, rfl⟩

/-- The header of a document with one of the two lists of imports. -/
theorem header_eq {document : Document}
    (h : document.imports = [emptyImport] ∨ document.imports = [emptyImport, structImport]) :
    document.header = ["syntax = \"proto3\";", "", "package " ++ document.package ++ ";", "",
      "import \"google/protobuf/empty.proto\";"] ++
      (if document.shape.structs then ["import \"google/protobuf/struct.proto\";"] else []) ++
      [""] := by
  unfold Document.header Document.shape
  cases h with
  | inl himports =>
      rw [himports]
      rfl
  | inr himports =>
      rw [himports]
      rfl

/-- The package line tells the package. -/
theorem package_line_inj {package other : String}
    (h : "package " ++ package ++ ";" = "package " ++ other ++ ";") : package = other :=
  (String.append_right_inj _).mp ((String.append_left_inj _).mp h)

/-- A header stands in the grammar exactly if the package is a qualified name. -/
theorem isHeader_header_iff {document : Document}
    (h : document.imports = [emptyImport] ∨ document.imports = [emptyImport, structImport]) :
    IsHeader document.shape.structs document.header ↔ isQualified document.package = true := by
  rw [header_eq h]
  constructor
  · rintro ⟨package, hpackage, hsame⟩
    obtain ⟨hline, -⟩ := List.cons.inj (List.cons.inj (List.cons.inj hsame).2).2
    rw [package_line_inj hline]
    exact hpackage
  · intro hpackage
    exact ⟨document.package, hpackage, rfl⟩

/-- A block has three lines around its entries. -/
theorem lengths_blocks {IsBlock : Nat → List String → Prop} {counts : List Nat}
    {blocks : List (List String)}
    (hlength : ∀ count lines, IsBlock count lines → lines.length = count + 3)
    (h : List.Forall₂ IsBlock counts blocks) :
    blocks.map List.length = counts.map (· + 3) := by
  induction h with
  | nil => rfl
  | cons hfirst _ ih => rw [List.map_cons, List.map_cons, hlength _ _ hfirst, ih]

theorem length_blockLines (keyword name : String) (entries : List String) :
    (blockLines keyword name entries).length = entries.length + 3 := by
  simp [blockLines]

/-- The text of a document is split into its lines in one way only, block by block. -/
theorem Document.Checked.isFile_iff {document : Document} (h : document.Checked) :
    IsFile document.shape document.render ↔
      IsHeader document.shape.structs document.header ∧
        List.Forall₂ IsService document.shape.services (document.services.map Service.lines) ∧
        List.Forall₂ IsMessage document.shape.messages (document.messages.map Message.lines) := by
  rw [render_eq]
  constructor
  · rintro ⟨header, services, messages, hheader, hservices, hmessages, htext⟩
    have hlengthHeader : document.header.length = header.length := by
      rw [length_isHeader hheader, header_eq h.imports]
      cases document.shape.structs <;> rfl
    have hlengthServices : (document.services.map Service.lines).map List.length =
        services.map List.length := by
      rw [lengths_blocks (fun _ _ => length_isService) hservices]
      simp [Document.shape, Service.lines, length_blockLines]
    have hlengthMessages : (document.messages.map Message.lines).map List.length =
        messages.map List.length := by
      rw [lengths_blocks (fun _ _ => length_isMessage) hmessages]
      simp [Document.shape, Message.lines, length_blockLines]
    -- equally many lines on both sides, so no name of the document ends a line
    have hlines : document.lines = header ++ services.flatten ++ messages.flatten := by
      refine eq_of_linesText_eq ?_ (oneLine_of_isFile hheader hservices hmessages) htext
      simp only [Document.lines, Document.serviceLines, Document.messageLines, List.flatMap_def,
        List.length_append, List.length_flatten, hlengthHeader, hlengthServices, hlengthMessages]
    have hlengthHead : (document.header ++ document.serviceLines).length =
        (header ++ services.flatten).length := by
      simp only [Document.serviceLines, List.flatMap_def, List.length_append, List.length_flatten,
        hlengthHeader, hlengthServices]
    obtain ⟨hhead, hmessageLines⟩ := List.append_inj hlines hlengthHead
    obtain ⟨rfl, hserviceLines⟩ := List.append_inj hhead hlengthHeader
    have hsameServices : document.services.map Service.lines = services :=
      List.eq_iff_flatten_eq.mpr ⟨hserviceLines, hlengthServices⟩
    have hsameMessages : document.messages.map Message.lines = messages :=
      List.eq_iff_flatten_eq.mpr ⟨hmessageLines, hlengthMessages⟩
    rw [hsameServices, hsameMessages]
    exact ⟨hheader, hservices, hmessages⟩
  · rintro ⟨hheader, hservices, hmessages⟩
    exact ⟨_, _, _, hheader, hservices, hmessages, rfl⟩

/-- A checked document is rendered as a file exactly if its package and its field names
are valid. -/
theorem isFile_render_iff {document : Document} (h : document.Checked) :
    IsFile document.shape document.render ↔
      isQualified document.package = true ∧
        ∀ message ∈ document.messages, ∀ field ∈ message.fields, isIdentifier field.name = true := by
  have hservices : List.Forall₂ IsService document.shape.services
      (document.services.map Service.lines) := by
    unfold Document.shape
    rw [List.forall₂_map_left_iff, List.forall₂_map_right_iff, List.forall₂_same]
    exact h.services
  have hmessages : List.Forall₂ IsMessage document.shape.messages
      (document.messages.map Message.lines) ↔
      ∀ message ∈ document.messages, ∀ field ∈ message.fields, isIdentifier field.name = true := by
    unfold Document.shape
    rw [List.forall₂_map_left_iff, List.forall₂_map_right_iff, List.forall₂_same]
    exact forall₂_congr fun message hmessage =>
      isMessage_lines_iff (h.names message hmessage) (h.types message hmessage)
        (h.numbers message hmessage)
  rw [h.isFile_iff, isHeader_header_iff h.imports, hmessages]
  constructor
  · rintro ⟨hpackage, -, hfields⟩
    exact ⟨hpackage, hfields⟩
  · rintro ⟨hpackage, hfields⟩
    exact ⟨hpackage, hservices, hfields⟩

/-- Where no name breaks its line, a text of any shape needs a valid package. -/
theorem isQualified_package_of_isFile {document : Document} {shape : Shape}
    (hlines : ∀ line ∈ document.lines, OneLine line) (h : IsFile shape document.render) :
    isQualified document.package = true := by
  obtain ⟨header, services, messages, hheader, hservices, hmessages, htext⟩ := h
  have hsame := linesText_injective hlines (oneLine_of_isFile hheader hservices hmessages)
    ((render_eq document).symm.trans htext)
  obtain ⟨package, hpackage, rfl⟩ := hheader
  obtain ⟨hline, -⟩ := List.cons.inj (List.cons.inj (List.cons.inj hsame).2).2
  rw [package_line_inj hline]
  exact hpackage

end Protoscribe.Proto
