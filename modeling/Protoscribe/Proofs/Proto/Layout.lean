import Mathlib.Data.List.Basic
import Protoscribe.Proto.Document

/-!
The text of a document line by line. A rendered document is its header, then the
lines of its services, then the lines of its messages, whatever state of the
writer they pass through on the way; sections of lines that follow one another
give texts that follow one another.
-/

namespace Protoscribe

def linesText : List String → String
  | [] => ""
  | line :: rest => line ++ "\n" ++ linesText rest

theorem linesText_append (first second : List String) :
    linesText (first ++ second) = linesText first ++ linesText second := by
  induction first with
  | nil => rw [List.nil_append, linesText, String.empty_append]
  | cons line rest ih =>
      rw [List.cons_append, linesText, linesText, ih]
      simp only [String.append_assoc]

/-! ### Lines without a line end inside -/

def OneLine (text : String) : Prop := '\n' ∉ text.toList

instance (text : String) : Decidable (OneLine text) :=
  inferInstanceAs (Decidable ('\n' ∉ text.toList))

theorem oneLine_append {first second : String} :
    OneLine (first ++ second) ↔ OneLine first ∧ OneLine second := by
  rw [OneLine, String.toList_append, List.mem_append, not_or]
  rfl

theorem oneLine_between {front text back : String} (hfront : OneLine front) (htext : OneLine text)
    (hback : OneLine back) : OneLine (front ++ text ++ back) :=
  oneLine_append.mpr ⟨oneLine_append.mpr ⟨hfront, htext⟩, hback⟩

/-- Two texts that do not hold a mark are told by what stands in front of it. -/
theorem split_at_mark {mark : Char} {first second rest more : List Char} (hfirst : mark ∉ first)
    (hsecond : mark ∉ second) (h : first ++ mark :: rest = second ++ mark :: more) :
    first = second ∧ rest = more := by
  induction first generalizing second with
  | nil =>
      cases second with
      | nil => exact ⟨rfl, (List.cons.inj h).2⟩
      | cons c others => exact absurd ((List.cons.inj h).1 ▸ List.mem_cons_self) hsecond
  | cons c others ih =>
      cases second with
      | nil => exact absurd ((List.cons.inj h).1 ▸ List.mem_cons_self) hfirst
      | cons d others =>
          obtain ⟨rfl, hlater⟩ := List.cons.inj h
          obtain ⟨hsame, hrest⟩ := ih (fun hin => hfirst (List.mem_cons_of_mem _ hin))
            (fun hin => hsecond (List.mem_cons_of_mem _ hin)) hlater
          exact ⟨by rw [hsame], hrest⟩

/-- Texts that meet the same mark first are the same up to it. -/
theorem append_mark_inj {mark : String} {c : Char} (hmark : mark.toList = [c])
    {first second rest more : String} (hfirst : c ∉ first.toList) (hsecond : c ∉ second.toList)
    (h : first ++ mark ++ rest = second ++ mark ++ more) : first = second ∧ rest = more := by
  have hchars := congrArg String.toList h
  simp only [String.toList_append, hmark, List.append_assoc, List.singleton_append] at hchars
  obtain ⟨hsame, hlater⟩ := split_at_mark hfirst hsecond hchars
  exact ⟨String.toList_injective hsame, String.toList_injective hlater⟩

theorem toList_linesText_cons (line : String) (rest : List String) :
    (linesText (line :: rest)).toList = line.toList ++ '\n' :: (linesText rest).toList := by
  rw [linesText, String.toList_append, String.toList_append, List.append_assoc]
  rfl

/-- Line feeds stand behind the lines and inside of them. -/
theorem count_linesText (lines : List String) :
    (linesText lines).toList.count '\n' =
      lines.length + (lines.flatMap String.toList).count '\n' := by
  induction lines with
  | nil => rfl
  | cons line rest ih =>
      rw [toList_linesText_cons, List.count_append, List.count_cons_self, ih, List.length_cons,
        List.flatMap_cons, List.count_append]
      omega

theorem count_flatMap_eq_zero_iff {lines : List String} :
    (lines.flatMap String.toList).count '\n' = 0 ↔ ∀ line ∈ lines, OneLine line := by
  rw [List.count_eq_zero, List.mem_flatMap]
  constructor
  · intro h line hline hend
    exact h ⟨line, hline, hend⟩
  · rintro h ⟨line, hline, hend⟩
    exact h line hline hend

/-- A text shows the lines that it is made of. -/
theorem linesText_injective {lines others : List String} (hlines : ∀ line ∈ lines, OneLine line)
    (hothers : ∀ line ∈ others, OneLine line) (h : linesText lines = linesText others) :
    lines = others := by
  induction lines generalizing others with
  | nil =>
      cases others with
      | nil => rfl
      | cons other more =>
          have htext := congrArg String.toList h
          rw [toList_linesText_cons] at htext
          simp [linesText] at htext
  | cons line rest ih =>
      cases others with
      | nil =>
          have htext := congrArg String.toList h
          rw [toList_linesText_cons] at htext
          simp [linesText] at htext
      | cons other more =>
          obtain ⟨hline, hrest⟩ := List.forall_mem_cons.mp hlines
          obtain ⟨hother, hmore⟩ := List.forall_mem_cons.mp hothers
          obtain ⟨rfl, hlater⟩ := append_mark_inj rfl hline hother h
          rw [ih hrest hmore hlater]

/-- Texts of equally many lines have the same lines, if the lines of one of them
have no line end inside: an end inside a line would be one end too many. -/
theorem eq_of_linesText_eq {lines others : List String} (hlength : lines.length = others.length)
    (hothers : ∀ line ∈ others, OneLine line) (h : linesText lines = linesText others) :
    lines = others := by
  have hcount := congrArg (fun text => text.toList.count '\n') h
  have hnone := count_flatMap_eq_zero_iff.mpr hothers
  simp only [count_linesText, hlength, hnone] at hcount
  exact linesText_injective (count_flatMap_eq_zero_iff.mp (by omega)) hothers h

/-! ### What the writer adds -/

namespace Writer

/-- Lines are written behind the indentation of the depth. -/
theorem lines_eq (writer : Writer) (texts : List String) :
    writer.lines texts =
      ⟨writer.code ++ linesText (texts.map (indentation writer.depth ++ ·)), writer.depth⟩ := by
  induction texts generalizing writer with
  | nil => rw [List.map_nil, linesText, String.append_empty]; rfl
  | cons text rest ih =>
      change (writer.line text).lines rest = _
      rw [ih, List.map_cons, linesText]
      simp only [line, String.append_assoc]

end Writer

namespace Proto

/-- A named block with its entries one level deeper, and the empty line behind. -/
def blockLines (keyword name : String) (entries : List String) : List String :=
  (keyword ++ " " ++ name ++ " \x7b") :: entries.map (indentUnit ++ ·) ++ ["\x7d", ""]

def Service.lines (service : Service) : List String :=
  blockLines "service" service.name (service.methods.map Rpc.text)

def Message.lines (message : Message) : List String :=
  blockLines "message" message.name (message.fields.map MessageField.text)

namespace Document

def serviceLines (document : Document) : List String := document.services.flatMap Service.lines

def messageLines (document : Document) : List String := document.messages.flatMap Message.lines

def lines (document : Document) : List String :=
  document.header ++ document.serviceLines ++ document.messageLines

end Document

/-- At the top level a block is its head, its entries one unit in, and its end. -/
theorem writeBlock_top (code keyword name : String) (entries : List String) :
    writeBlock ⟨code, 0⟩ keyword name entries =
      ⟨code ++ linesText (blockLines keyword name entries), 0⟩ := by
  simp only [writeBlock, Writer.block, Writer.enter, Writer.leave, Writer.lines_eq, Writer.line,
    Writer.indentation, blockLines, linesText_append, linesText, String.append_assoc,
    String.empty_append, String.append_empty, Nat.zero_add, Nat.sub_self, List.cons_append]

/-- Blocks are written one behind the other. -/
theorem foldl_writeBlock {α : Type} (write : Writer → α → Writer) (lines : α → List String)
    (hwrite : ∀ code item, write ⟨code, 0⟩ item = ⟨code ++ linesText (lines item), 0⟩)
    (items : List α) (code : String) :
    items.foldl write ⟨code, 0⟩ = ⟨code ++ linesText (items.flatMap lines), 0⟩ := by
  induction items generalizing code with
  | nil => rw [List.foldl_nil, List.flatMap_nil, linesText, String.append_empty]
  | cons item rest ih =>
      rw [List.foldl_cons, hwrite, ih, List.flatMap_cons, linesText_append, String.append_assoc]

/-- The text of a document is the text of its lines. -/
theorem render_eq (document : Document) : document.render = linesText document.lines := by
  have hheader : Writer.lines {} document.header = ⟨linesText document.header, 0⟩ := by
    rw [Writer.lines_eq]
    simp [Writer.indentation]
  have hservice : ∀ code (service : Service),
      Service.write ⟨code, 0⟩ service = ⟨code ++ linesText service.lines, 0⟩ :=
    fun code service => writeBlock_top code "service" service.name _
  have hmessage : ∀ code (message : Message),
      Message.write ⟨code, 0⟩ message = ⟨code ++ linesText message.lines, 0⟩ :=
    fun code message => writeBlock_top code "message" message.name _
  rw [Document.render, Document.write, hheader, foldl_writeBlock _ _ hservice,
    foldl_writeBlock _ _ hmessage, Document.lines, linesText_append, linesText_append]
  rfl

end Proto

end Protoscribe
