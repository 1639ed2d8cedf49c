import Mathlib.Data.List.Basic
import Protoscribe.Proofs.Proto.Grammar

/-!
A reader for the texts of documents. A text is cut into lines, each line shows by
itself what it is, and the lines are put together from the last one to the
first: the entries of a block wait until the line comes that opens it. Names
that are valid hold none of the marks at which a line is cut, so the reader gets
back every document from its text.
-/

namespace Protoscribe.Proto

/-! ### Lines -/

inductive Line where
  | edition
  | blank
  | package (name : String)
  | imported (path : String)
  | service (name : String)
  | message (name : String)
  | rpc (method : Rpc)
  | field (shown : MessageField)
  | close
  deriving DecidableEq, Repr

def Line.text : Line → String
  | .edition => "syntax = \"proto3\";"
  | .blank => ""
  | .package name => "package " ++ name ++ ";"
  | .imported path => "import \"" ++ path ++ "\";"
  | .service name => "service " ++ name ++ " \x7b"
  | .message name => "message " ++ name ++ " \x7b"
  | .rpc method => indentUnit ++ method.text
  | .field shown => indentUnit ++ shown.text
  | .close => "\x7d"

/-- What stands between the two ends of a text. -/
def between? (front back : String) (text : List Char) : Option (List Char) :=
  (text.dropPrefix? front.toList).bind fun rest => rest.dropSuffix? back.toList

def readRpc? (text : List Char) : Option Rpc := do
  let inner ← between? "    rpc " ") \x7b\x7d" text
  match inner.splitOn '(' with
  | [name, request, response] =>
      let request ← request.dropSuffix? ") returns ".toList
      return ⟨.ofList name, .ofList request, .ofList response⟩
  | _ => none

def readField? (text : List Char) : Option MessageField := do
  let inner ← between? "    " ";" text
  match inner.splitOn ' ' with
  | [type, name, ['='], digits] =>
      return ⟨.ofList type, .ofList name, Nat.ofDigitChars 10 digits 0⟩
  | _ => none

/-- A line shows what it is by its first characters, and an entry by its end. -/
def Line.read? (text : List Char) : Option Line :=
  match text with
  | [] => some .blank
  | 's' :: 'y' :: _ => if text = Line.edition.text.toList then some .edition else none
  | 'p' :: _ => (between? "package " ";" text).map fun name => .package (.ofList name)
  | 'i' :: _ => (between? "import \"" "\";" text).map fun path => .imported (.ofList path)
  | 's' :: 'e' :: _ => (between? "service " " \x7b" text).map fun name => .service (.ofList name)
  | 'm' :: _ => (between? "message " " \x7b" text).map fun name => .message (.ofList name)
  | ' ' :: _ => ((readRpc? text).map Line.rpc).or ((readField? text).map Line.field)
  | _ => if text = Line.close.text.toList then some .close else none

/-- What is read between two texts is all that stands there. -/
theorem between?_eq_some_iff {front back : String} {text inner : List Char} :
    between? front back text = some inner ↔ text = front.toList ++ inner ++ back.toList := by
  unfold between?
  simp only [Option.bind_eq_some_iff, List.dropPrefix?_eq_some_iff, List.dropSuffix?_eq_some_iff,
    beq_iff_eq]
  constructor
  · rintro ⟨rest, ⟨_, rfl, rfl⟩, _, rfl, rfl⟩
    exact (List.append_assoc _ _ _).symm
  · rintro rfl
    exact ⟨inner ++ back.toList, ⟨_, List.append_assoc _ _ _, rfl⟩, _, rfl, rfl⟩

/-! ### Valid names -/

structure Rpc.Named (rpc : Rpc) : Prop where
  name : isIdentifier rpc.name = true
  request : IsRpcType rpc.request
  response : IsRpcType rpc.response

structure MessageField.Named (field : MessageField) : Prop where
  type : isQualified field.type = true
  name : isIdentifier field.name = true

structure Service.Named (service : Service) : Prop where
  name : isIdentifier service.name = true
  methods : ∀ rpc ∈ service.methods, rpc.Named

structure Message.Named (message : Message) : Prop where
  name : isIdentifier message.name = true
  fields : ∀ field ∈ message.fields, field.Named

/-- Every name of a document is valid; an import only has to stay on its line. -/
structure Document.Named (document : Document) : Prop where
  package : isQualified document.package = true
  imports : ∀ path ∈ document.imports, OneLine path
  services : ∀ service ∈ document.services, service.Named
  messages : ∀ message ∈ document.messages, message.Named

/-! ### Reading a line -/

/-- A method with valid names is read back from its line. -/
theorem readRpc?_text {rpc : Rpc} (h : rpc.Named) :
    readRpc? (indentUnit ++ rpc.text).toList = some rpc := by
  have hline : (indentUnit ++ rpc.text).toList = "    rpc ".toList ++
      (rpc.name.toList ++ '(' :: (rpc.request.toList ++ ") returns ".toList ++
        '(' :: rpc.response.toList)) ++ ") \x7b\x7d".toList := by
    simp only [Rpc.text, indentUnit, String.toList_append, List.append_assoc, List.cons_append]
    rfl
  -- the only opening brackets are those in front of the request and the response
  have hname : '(' ∉ rpc.name.toList := not_mem_of_isIdentifier h.name rfl
  have hrequest : '(' ∉ rpc.request.toList ++ ") returns ".toList := by
    rw [List.mem_append, not_or]
    exact ⟨not_mem_of_isRpcType h.request rfl (by decide), by decide⟩
  have hresponse : '(' ∉ rpc.response.toList :=
    not_mem_of_isRpcType h.response rfl (by decide)
  have hsuffix : (rpc.request.toList ++ ") returns ".toList).dropSuffix? ") returns ".toList =
      some rpc.request.toList :=
    List.dropSuffix?_eq_some_iff.mpr ⟨_, rfl, beq_self_eq_true _⟩
  rw [readRpc?, between?_eq_some_iff.mpr hline]
  simp only [Option.bind_eq_bind, Option.bind_some]
  rw [List.splitOn_append_cons_self_of_not_mem hname,
    List.splitOn_append_cons_self_of_not_mem hrequest, List.splitOn_eq_singleton hresponse]
  simp only [hsuffix, Option.bind_some, String.ofList_toList]
  rfl

/-- A field with valid names is read back from its line. -/
theorem readField?_text {field : MessageField} (h : field.Named) :
    readField? (indentUnit ++ field.text).toList = some field := by
  have hline : (indentUnit ++ field.text).toList = "    ".toList ++
      (field.type.toList ++ ' ' :: (field.name.toList ++ ' ' :: (['='] ++
        ' ' :: (toString field.number).toList))) ++ ";".toList := by
    simp only [MessageField.text, indentUnit, String.toList_append, List.append_assoc,
      List.cons_append]
    rfl
  have htype : ' ' ∉ field.type.toList := not_mem_of_isQualified h.type rfl (by decide)
  have hname : ' ' ∉ field.name.toList := not_mem_of_isIdentifier h.name rfl
  have hmark : ' ' ∉ ['='] := by decide
  have hnumber : ' ' ∉ (toString field.number).toList := not_mem_toString field.number rfl
  have hdigits : Nat.ofDigitChars 10 (toString field.number).toList 0 = field.number :=
    Nat.toList_repr ▸ Nat.ofDigitChars_ten_toDigits
  rw [readField?, between?_eq_some_iff.mpr hline]
  simp only [Option.bind_eq_bind, Option.bind_some]
  rw [List.splitOn_append_cons_self_of_not_mem htype,
    List.splitOn_append_cons_self_of_not_mem hname,
    List.splitOn_append_cons_self_of_not_mem hmark, List.splitOn_eq_singleton hnumber]
  simp only [hdigits, String.ofList_toList]
  rfl

/-- A method ends with a brace, a field does not. -/
theorem readRpc?_field (field : MessageField) :
    readRpc? (indentUnit ++ field.text).toList = none := by
  have hend : (indentUnit ++ field.text).toList.getLast? = some ';' := by
    rw [MessageField.text, ← String.append_assoc, String.toList_append]
    exact List.getLast?_concat
  cases hread : between? "    rpc " ") \x7b\x7d" (indentUnit ++ field.text).toList with
  | none =>
      rw [readRpc?, hread]
      rfl
  | some inner =>
      rw [between?_eq_some_iff.mp hread, List.getLast?_append] at hend
      cases hend

def Line.Legible : Line → Prop
  | .package name => isQualified name = true
  | .imported path => OneLine path
  | .service name | .message name => isIdentifier name = true
  | .rpc method => method.Named
  | .field shown => shown.Named
  | _ => True

theorem map_between? (front back name : String) (line : String → Line) :
    (between? front back (front.toList ++ name.toList ++ back.toList)).map
      (fun inner => line (.ofList inner)) = some (line name) := by
  rw [between?_eq_some_iff.mpr rfl, Option.map_some, String.ofList_toList]

/-- Each line shows what it is. -/
theorem Line.read?_text {line : Line} (h : line.Legible) :
    Line.read? line.text.toList = some line := by
  cases line with
  | edition => rfl
  | blank => rfl
  | package name =>
      rw [Line.text, String.toList_append, String.toList_append]
      exact map_between? "package " ";" name .package
  | imported path =>
      rw [Line.text, String.toList_append, String.toList_append]
      exact map_between? "import \"" "\";" path .imported
  | service name =>
      rw [Line.text, String.toList_append, String.toList_append]
      exact map_between? "service " " \x7b" name .service
  | message name =>
      rw [Line.text, String.toList_append, String.toList_append]
      exact map_between? "message " " \x7b" name .message
  | rpc method =>
      have hread := readRpc?_text (show method.Named from h)
      rw [String.toList_append] at hread
      rw [Line.text, String.toList_append]
      change ((readRpc? _).map Line.rpc).or _ = _
      rw [hread]
      rfl
  | field shown =>
      have hread := readField?_text (show shown.Named from h)
      have hnone := readRpc?_field shown
      rw [String.toList_append] at hread hnone
      rw [Line.text, String.toList_append]
      change ((readRpc? _).map Line.rpc).or ((readField? _).map Line.field) = _
      rw [hnone, hread]
      rfl
  | close => rfl

theorem Line.oneLine_text {line : Line} (h : line.Legible) : OneLine line.text := by
  cases line with
  | edition => decide
  | blank => decide
  | package name => exact oneLine_between (by decide) (oneLine_of_isQualified h) (by decide)
  | imported path => exact oneLine_between (by decide) h (by decide)
  | service name => exact oneLine_between (by decide) (oneLine_of_isIdentifier h) (by decide)
  | message name => exact oneLine_between (by decide) (oneLine_of_isIdentifier h) (by decide)
  | rpc method =>
      obtain ⟨hname, hrequest, hresponse⟩ := h
      refine oneLine_of_isRpcLine ⟨_, _, _, hname, hrequest, hresponse, ?_⟩
      simp only [Line.text, Rpc.text, ← String.append_assoc]
      rfl
  | field shown =>
      obtain ⟨htype, hname⟩ := h
      have htyped := oneLine_between (oneLine_of_isQualified htype) (show OneLine " " by decide)
        (oneLine_of_isIdentifier hname)
      have hnumbered := oneLine_between htyped (show OneLine " = " by decide)
        (oneLine_toString shown.number)
      have hindent : OneLine indentUnit := by decide
      exact oneLine_append.mpr ⟨hindent, oneLine_append.mpr ⟨hnumbered, by decide⟩⟩
  | close => decide

/-! ### Reading a document -/

/-- What has been read of a document from its end, and the entries whose block is
still to come. -/
structure Draft where
  methods : List Rpc := []
  fields : List MessageField := []
  document : Document := ⟨"", [], [], []⟩

def Line.before : Line → Draft → Draft
  | .package name, ⟨methods, fields, document⟩ =>
      ⟨methods, fields, { document with package := name }⟩
  | .imported path, ⟨methods, fields, document⟩ =>
      ⟨methods, fields, { document with imports := path :: document.imports }⟩
  | .service name, ⟨methods, fields, document⟩ =>
      ⟨[], fields, { document with services := ⟨name, methods⟩ :: document.services }⟩
  | .message name, ⟨methods, fields, document⟩ =>
      ⟨methods, [], { document with messages := ⟨name, fields⟩ :: document.messages }⟩
  | .rpc method, draft => { draft with methods := method :: draft.methods }
  | .field shown, draft => { draft with fields := shown :: draft.fields }
  | _, draft => draft

def Document.read? (text : String) : Option Document := do
  let lines ← (text.toList.splitOn '\n').dropLast.mapM Line.read?
  return (lines.foldr Line.before {}).document

/-- A block from the line that opens it to the empty line behind it. -/
def block (head : Line) (entries : List Line) : List Line := head :: entries ++ [.close, .blank]

def Service.content (service : Service) : List Line :=
  block (.service service.name) (service.methods.map .rpc)

def Message.content (message : Message) : List Line :=
  block (.message message.name) (message.fields.map .field)

def Document.content (document : Document) : List Line :=
  [.edition, .blank, .package document.package, .blank] ++ document.imports.map .imported ++
    [.blank] ++ document.services.flatMap Service.content ++
    document.messages.flatMap Message.content

theorem Service.map_text_content (service : Service) :
    service.content.map Line.text = service.lines := by
  simp [Service.content, block, Service.lines, blockLines, Line.text]

theorem Message.map_text_content (message : Message) :
    message.content.map Line.text = message.lines := by
  simp [Message.content, block, Message.lines, blockLines, Line.text]

/-- The typed lines of a document have the texts of its lines. -/
theorem Document.map_text_content (document : Document) :
    document.content.map Line.text = document.lines := by
  simp [Document.content, Document.lines, Document.header, Document.serviceLines,
    Document.messageLines, List.map_flatMap, Service.map_text_content, Message.map_text_content,
    Line.text]

/-- A block is legible if its head and its entries are. -/
theorem legible_block {head : Line} {entries : List Line} (hhead : head.Legible)
    (hentries : ∀ line ∈ entries, line.Legible) : ∀ line ∈ block head entries, line.Legible := by
  simp only [block, List.mem_append, List.mem_cons, List.not_mem_nil, or_false]
  rintro line ((rfl | hline) | rfl | rfl)
  · exact hhead
  · exact hentries line hline
  · trivial
  · trivial

theorem Service.legible_content {service : Service} (h : service.Named) :
    ∀ line ∈ service.content, line.Legible :=
  legible_block (show isIdentifier service.name = true from h.name)
    (List.forall_mem_map.mpr h.methods)

theorem Message.legible_content {message : Message} (h : message.Named) :
    ∀ line ∈ message.content, line.Legible :=
  legible_block (show isIdentifier message.name = true from h.name)
    (List.forall_mem_map.mpr h.fields)

/-- A document with valid names has legible lines only. -/
theorem Document.legible_content {document : Document} (h : document.Named) :
    ∀ line ∈ document.content, line.Legible := by
  simp only [Document.content, List.mem_append, List.mem_cons, List.mem_map, List.mem_flatMap,
    List.not_mem_nil, or_false]
  rintro line (((((rfl | rfl | rfl | rfl) | ⟨path, hpath, rfl⟩) | rfl) |
    ⟨service, hservice, hline⟩) | ⟨message, hmessage, hline⟩)
  · trivial
  · trivial
  · exact h.package
  · trivial
  · exact h.imports path hpath
  · trivial
  · exact Service.legible_content (h.services service hservice) line hline
  · exact Message.legible_content (h.messages message hmessage) line hline

/-- Splitting at line feeds gives the lines back, and an empty end. -/
theorem splitOn_linesText {lines : List String} (h : ∀ line ∈ lines, OneLine line) :
    (linesText lines).toList.splitOn '\n' = lines.map String.toList ++ [[]] := by
  induction lines with
  | nil => rfl
  | cons line rest ih =>
      obtain ⟨hline, hrest⟩ := List.forall_mem_cons.mp h
      rw [toList_linesText_cons, List.splitOn_append_cons_self_of_not_mem hline, ih hrest]
      rfl

/-- Legible lines are all read back. -/
theorem mapM_read?_text {lines : List Line} (h : ∀ line ∈ lines, line.Legible) :
    ((lines.map Line.text).map String.toList).mapM Line.read? = some lines := by
  rw [List.map_map]
  exact mapM_map_eq_some fun line hline => Line.read?_text (h line hline)

/-! ### What the lines put together -/

/-- Items that each add themselves in front are added in their order. -/
theorem foldr_flatMap {α : Type} (content : α → List Line) (add : List α → Draft)
    (hcons : ∀ item rest, (content item).foldr Line.before (add rest) = add (item :: rest))
    (items : List α) : (items.flatMap content).foldr Line.before (add []) = add items := by
  induction items with
  | nil => rfl
  | cons item rest ih => rw [List.flatMap_cons, List.foldr_append, ih, hcons]

/-- A block takes the entries up to its head. -/
theorem foldr_block (head : Line) (entries : List Line) (draft : Draft) :
    (block head entries).foldr Line.before draft =
      head.before (entries.foldr Line.before draft) := by
  rw [block, List.foldr_append]
  rfl

theorem Service.foldr_content (service : Service) (document : Document) :
    service.content.foldr Line.before ⟨[], [], document⟩ =
      ⟨[], [], { document with services := service :: document.services }⟩ := by
  have hmethods := foldr_flatMap (fun method => [Line.rpc method])
    (fun methods => ⟨methods, [], document⟩) (fun _ _ => rfl) service.methods
  rw [Service.content, foldr_block, List.map_eq_flatMap, hmethods]
  rfl

theorem Message.foldr_content (message : Message) (document : Document) :
    message.content.foldr Line.before ⟨[], [], document⟩ =
      ⟨[], [], { document with messages := message :: document.messages }⟩ := by
  have hfields := foldr_flatMap (fun shown => [Line.field shown])
    (fun fields => ⟨[], fields, document⟩) (fun _ _ => rfl) message.fields
  rw [Message.content, foldr_block, List.map_eq_flatMap, hfields]
  rfl

/-- From its typed lines a document is built up again. -/
theorem Document.foldr_content (document : Document) :
    document.content.foldr Line.before {} = ⟨[], [], document⟩ := by
  have hmessages := foldr_flatMap Message.content (fun messages => ⟨[], [], ⟨"", [], [], messages⟩⟩)
    (fun message rest => Message.foldr_content message ⟨"", [], [], rest⟩) document.messages
  have hservices := foldr_flatMap Service.content
    (fun services => ⟨[], [], ⟨"", [], services, document.messages⟩⟩)
    (fun service rest => Service.foldr_content service ⟨"", [], rest, document.messages⟩)
    document.services
  have himports : (document.imports.map Line.imported).foldr Line.before
      ⟨[], [], ⟨"", [], document.services, document.messages⟩⟩ =
      ⟨[], [], ⟨"", document.imports, document.services, document.messages⟩⟩ := by
    rw [List.map_eq_flatMap]
    exact foldr_flatMap (fun path => [Line.imported path])
      (fun imports => ⟨[], [], ⟨"", imports, document.services, document.messages⟩⟩)
      (fun _ _ => rfl) document.imports
  simp only [Document.content, List.foldr_append]
  -- the fold starts at the messages, which stand last
  change List.foldr Line.before (List.foldr Line.before (List.foldr Line.before
    (List.foldr Line.before (List.foldr Line.before ⟨[], [], ⟨"", [], [], []⟩⟩ _) _) _) _) _ = _
  rw [hmessages, hservices]
  change List.foldr Line.before (List.foldr Line.before
    ⟨[], [], ⟨"", [], document.services, document.messages⟩⟩ _) _ = _
  rw [himports]
  rfl

/-- A reader gets every document back from its text, as long as its names are
valid; so no two documents of valid names have one text. -/
theorem Document.read?_render {document : Document} (h : document.Named) :
    Document.read? document.render = some document ∧
      ∀ other : Document, other.Named → other.render = document.render → other = document := by
  have hread : ∀ document : Document, document.Named →
      Document.read? document.render = some document := by
    intro document h
    have hlines : ∀ line ∈ document.lines, OneLine line := by
      rw [← Document.map_text_content, List.forall_mem_map]
      exact fun line hline => Line.oneLine_text (Document.legible_content h line hline)
    rw [Document.read?, render_eq, splitOn_linesText hlines, List.dropLast_concat,
      ← Document.map_text_content, mapM_read?_text (Document.legible_content h)]
    change some (document.content.foldr Line.before {}).document = some document
    rw [Document.foldr_content]
  refine ⟨hread document h, ?_⟩
  intro other hother hsame
  have hboth := hread other hother
  rw [hsame, hread document h] at hboth
  exact (Option.some.inj hboth).symm

/-- A document with empty blocks, further imports, and a field whose type could be
taken for the start of a method. -/
def ledger : Document where
  package := "bank.v1"
  imports := ["google/protobuf/empty.proto", "money and time.proto"]
  services := [⟨"IdleController", []⟩,
    ⟨"EntryController", [⟨"ListEntry", "google.protobuf.Empty", "stream EntryListResponse"⟩]⟩]
  messages := [⟨"Nothing", []⟩, ⟨"Entry", [⟨"int64", "id", 12⟩, ⟨"rpc", "id", 0⟩]⟩]

theorem read?_render_ledger :
    ledger.Named ∧ Document.read? ledger.render = some ledger := by
  have hrpc : Rpc.Named ⟨"ListEntry", "google.protobuf.Empty", "stream EntryListResponse"⟩ :=
    ⟨by decide, ⟨"google.protobuf.Empty", by decide, .inl rfl⟩,
      ⟨"EntryListResponse", by decide, .inr rfl⟩⟩
  have hfields : ∀ field ∈ [(⟨"int64", "id", 12⟩ : MessageField), ⟨"rpc", "id", 0⟩],
      field.Named := by
    simp only [List.forall_mem_cons]
    exact ⟨⟨by decide, by decide⟩, ⟨by decide, by decide⟩, by simp⟩
  have hnamed : ledger.Named := by
    refine ⟨by decide, by decide, ?_, ?_⟩
    · simp only [ledger, List.forall_mem_cons]
      exact ⟨⟨by decide, by simp⟩, ⟨by decide, by simpa using hrpc⟩, by simp⟩
    · simp only [ledger, List.forall_mem_cons]
      exact ⟨⟨by decide, by simp⟩, ⟨by decide, hfields⟩, by simp⟩
  exact ⟨hnamed, (Document.read?_render hnamed).1⟩

end Protoscribe.Proto
