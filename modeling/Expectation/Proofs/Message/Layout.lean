import Expectation.Proofs.Document.Rows
import Expectation.Proofs.Engine.Printing
import Expectation.Proofs.Message.Standard

/-!
# Layout of standard messages

A standard message puts the inspection of the subject on the line of `expected` and the name, or
indented between the two if it has several lines, and the arguments behind the name. What divides
two arguments depends on whether one of them is a document. The two words stand out, inspections and
documents bring their own styles, and the rest has none.
-/

namespace Expectation

/-- The glyphs of a text in one style. -/
def Text.glyphs (t : Text) (style : Option Style := none) : List Glyph := t.map (·, style)

/-- A value is a document. -/
def Store.isDocument (s : Store) (value : Ref) : Bool :=
  match s.node value with
  | .document _ => true
  | _ => false

/-- What divides two arguments: a comma and a space if neither is a document, else a space. -/
def Store.separator (s : Store) (previous next : Ref) : Text :=
  if s.isDocument previous || s.isDocument next then " " else ", "

/-- What stands in front of each argument: a space, or what divides it from the one before. -/
def Store.separators (s : Store) (arguments : List Ref) : List Text :=
  " " :: List.zipWith s.separator arguments arguments.tail

namespace Document

/-- Documents in order, each behind its separator. -/
def separated (separators : List Text) (documents : List Document) : List Glyph :=
  (List.zipWith (fun separator d => separator.glyphs ++ d.glyphs) separators documents).flatten

/-- The texts of documents in order, each behind its separator. -/
def separatedText (separators : List Text) (documents : List Document) : Text :=
  (List.zipWith (fun separator d => separator ++ d.plain) separators documents).flatten

@[simp] theorem separated_cons (separator : Text) (separators : List Text) (d : Document)
    (documents : List Document) : separated (separator :: separators) (d :: documents) =
      separator.glyphs ++ d.glyphs ++ separated separators documents := by
  simp [separated]

end Document

/-- The characters of a text in a style are those of the text. -/
@[simp] theorem Text.map_fst_glyphs (t : Text) (style : Option Style) :
    (t.glyphs style).map Prod.fst = t := by
  simp [glyphs, Function.comp_def]

/-- The text of separated documents. -/
theorem Document.map_fst_separated (separators : List Text) (documents : List Document) :
    (separated separators documents).map Prod.fst = separatedText separators documents := by
  simp [separated, separatedText, List.map_flatten, List.map_zipWith, plain_eq_glyphs]

namespace Engine

variable (e : Engine) (s : Store)

/-- What a standard message shows of an argument: a document itself, any other value inspected. -/
def shownArgument (argument : Ref) : Traced Document :=
  match s.node argument with
  | .document d => pure d
  | _ => e.inspected s argument

/-- Documents are what is shown of arguments. -/
def ShowsArguments (arguments : List Ref) (written : List Document) : Prop :=
  List.Forall₂ (fun argument d => (e.shownArgument s argument).outcome = .ok d) arguments written

/-! ### Arguments -/

variable {e s}

-- An argument is written behind what divides it from the one before.
private theorem outcome_writeMore_cons {argument : Ref} {d : Document}
    (h : (e.shownArgument s argument).outcome = .ok d) (output : Document) (afterDocument : Bool)
    (arguments : List Ref) :
    (e.writeMore s output afterDocument (argument :: arguments)).outcome =
      (e.writeMore s
        ((if afterDocument || s.isDocument argument then output
          else output.text ",").spaces.append d)
        (s.isDocument argument) arguments).outcome := by
  unfold shownArgument at h
  rw [writeMore, Store.isDocument]
  cases hnode : s.node argument with
  | document d' =>
    rw [hnode] at h
    cases h
    rw [Bool.or_true, if_pos rfl]
  | _ =>
    simp only [hnode] at h
    rw [Traced.outcome_bind, h, Bool.or_false]
    rfl

-- The flag that is carried along tells whether the argument before is a document.
private theorem exists_writeMore {arguments : List Ref} {written : List Document}
    (h : e.ShowsArguments s arguments written) (output : Document) (previous : Ref) :
    ∃ message, (e.writeMore s output (s.isDocument previous) arguments).outcome = .ok message ∧
      message.glyphs = output.glyphs ++ Document.separated
        (List.zipWith s.separator (previous :: arguments) arguments) written := by
  induction h generalizing output previous with
  | nil => exact ⟨output, rfl, by simp [Document.separated]⟩
  | @cons argument d arguments written hshown _ ih =>
    rw [List.zipWith_cons_cons, Document.separated_cons, outcome_writeMore_cons hshown]
    obtain ⟨message, hmessage, hglyphs⟩ := ih _ argument
    refine ⟨message, hmessage, ?_⟩
    rw [hglyphs, Document.glyphs_append, Document.glyphs_spaces, Store.separator]
    split
    · simp [Text.glyphs, Glyph.blanks]
    · simp [Text.glyphs, Glyph.blanks, Document.glyphs_text, Document.isDropped]

private theorem exists_writeArguments {arguments : List Ref} {written : List Document}
    (h : e.ShowsArguments s arguments written) (output : Document) :
    ∃ message, (e.writeArguments s output arguments).outcome = .ok message ∧
      message.glyphs =
        output.glyphs ++ Document.separated (s.separators arguments) written := by
  rw [writeArguments_eq_writeMore]
  cases h with
  | nil => exact ⟨output, rfl, by simp [Document.separated]⟩
  | @cons argument d arguments written hshown hrest =>
    rw [outcome_writeMore_cons hshown, Bool.true_or, if_pos rfl]
    obtain ⟨message, hmessage, hglyphs⟩ := exists_writeMore hrest (output.spaces.append d) argument
    refine ⟨message, hmessage, ?_⟩
    rw [hglyphs, Document.glyphs_append, Document.glyphs_spaces, Store.separators,
      Document.separated_cons]
    simp [Text.glyphs, Glyph.blanks]

/-! ### The subject -/

private theorem glyphs_error (d : Document) (content : Text) :
    (d.error content).glyphs = d.glyphs ++
      Text.glyphs (content.filter (!Document.isDropped ·)) (some Document.errorStyle) := by
  rw [Document.error, Document.glyphs_text]
  rfl

/-- A subject of one line stands between spaces. -/
theorem glyphs_writeSubject_of_eq_one (output : Document) {shown : Document}
    (h : shown.height = 1) :
    (writeSubject output shown).glyphs =
      output.glyphs ++ Text.glyphs " " ++ shown.glyphs ++ Text.glyphs " " := by
  rw [writeSubject, if_neg (by omega), Document.glyphs_spaces, Document.glyphs_append,
    Document.glyphs_spaces]
  rfl

/-- A subject of several lines stands on lines of its own, aligned to the indentation. -/
theorem glyphs_writeSubject_of_one_lt {output shown : Document} (hl : output.level = 0)
    {width : Nat} (hw : output.indentWidth = width) (h : 1 < shown.height) :
    (writeSubject output shown).glyphs = output.glyphs ++ Text.glyphs "\n" ++ Glyph.blanks width ++
      shown.glyphs.flatMap (Glyph.aligned width) ++ Text.glyphs "\n" := by
  rw [writeSubject, if_pos h, Document.glyphs_newlines, Document.glyphs_outdent,
    Document.glyphs_newlines_block _ _ hl hw]
  simp [Text.glyphs]

/-- The text above the name is the lines of a document and those of a subject of several lines,
each behind the indentation. -/
theorem plain_writeSubject_of_one_lt {output shown : Document} (hl : output.level = 0)
    {width : Nat} (hw : output.indentWidth = width) (h : 1 < shown.height) :
    (writeSubject output shown).plain = Text.joinWith ['\n']
      (output.lines ++ shown.lines.map (List.replicate width ' ' ++ ·)) ++ ['\n'] := by
  have hlines : (output.newlines.indent.indentation.block shown).lines =
      output.lines ++ shown.lines.map (List.replicate width ' ' ++ ·) := by
    rw [Document.lines_eq_rows, Document.rows_newlines_block _ _ hl hw, List.map_append,
      ← Document.lines_eq_rows, Document.lines_eq_rows shown]
    simp [Glyph.blanks, Function.comp_def]
  rw [writeSubject, if_pos h, Document.newlines, Document.plain_text, ← hlines, Document.lines,
    Text.lines, Text.joinWith_splitOn]
  rfl

/-! ### The message -/

variable (e s)

/-- A standard message for a subject whose inspection is one line has it between `expected` and the
name, and else, line by line, behind the indentation below `expected` and above the name. The
arguments come after the name, each behind its separator. The word `expected` and the name are red.
What an inspection or a document brings keeps its style, unless it is a newline of a subject of
several lines, and everything else has none. -/
theorem standardMessage_layout (name : Text) {subject : Ref} {shown : Document}
    (hs : (e.inspected s subject).outcome = .ok shown) {arguments : List Ref}
    {written : List Document} (hargs : e.ShowsArguments s arguments written) :
    let width := e.settings.indentWidth
    let taken := name.filter (!Document.isDropped ·)
    let closing := taken ++ Document.separatedText (s.separators arguments) written
    let closingGlyphs := Text.glyphs taken (some "red") ++
      Document.separated (s.separators arguments) written
    ∃ message, (e.standardMessage s subject name arguments).outcome = .ok message ∧
      (shown.height = 1 ∧
          message.plain = ("expected " : Text) ++ shown.plain ++ [' '] ++ closing ∧
          message.glyphs = Text.glyphs "expected" (some "red") ++ Text.glyphs " " ++ shown.glyphs ++
            Text.glyphs " " ++ closingGlyphs ∨
        1 < shown.height ∧
          message.plain = Text.joinWith ['\n']
            (("expected" : Text) :: shown.lines.map (List.replicate width ' ' ++ ·) ++ [closing]) ∧
          message.glyphs = Text.glyphs "expected" (some "red") ++ Text.glyphs "\n" ++
            Glyph.blanks width ++ shown.glyphs.flatMap (Glyph.aligned width) ++ Text.glyphs "\n" ++
            closingGlyphs) := by
  intro width taken closing closingGlyphs
  have hexpected : (e.newDocument.error "expected").glyphs =
      Text.glyphs "expected" (some "red") := by
    rw [glyphs_error]
    rfl
  obtain ⟨message, hmessage, hglyphs⟩ := exists_writeArguments hargs
    ((writeSubject (e.newDocument.error "expected") shown).error name)
  rw [glyphs_error, List.append_assoc] at hglyphs
  have hplain : message.plain =
      (writeSubject (e.newDocument.error "expected") shown).plain ++ closing := by
    rw [Document.plain_eq_glyphs, hglyphs, List.map_append, ← Document.plain_eq_glyphs,
      List.map_append, Text.map_fst_glyphs, Document.map_fst_separated]
  refine ⟨message, Traced.outcome_bind_eq_ok.2 ⟨shown, hs, hmessage⟩, ?_⟩
  have hheight : 1 ≤ shown.height :=
    List.length_pos_of_ne_nil (Text.splitOn_ne_nil '\n' shown.plain)
  rcases Nat.eq_or_lt_of_le hheight with hone | hseveral
  · have hsubject := glyphs_writeSubject_of_eq_one (e.newDocument.error "expected") hone.symm
    refine .inl ⟨hone.symm, ?_, ?_⟩
    · rw [hplain, Document.plain_eq_glyphs, hsubject, hexpected]
      simp [← Document.plain_eq_glyphs]
    · rw [hglyphs, hsubject, hexpected]
      rfl
  · refine .inr ⟨hseveral, ?_, ?_⟩
    · have hlines : (e.newDocument.error "expected").lines = [("expected" : Text)] := rfl
      rw [hplain, plain_writeSubject_of_one_lt rfl rfl hseveral, hlines, List.append_assoc]
      exact (Text.joinWith_concat (List.cons_ne_nil _ _) '\n' closing).symm
    · rw [hglyphs, glyphs_writeSubject_of_one_lt rfl rfl hseveral, hexpected]
      rfl

-- Texts are written in bold.
private def boldEngine : Engine :=
  { Engine.create .default with
    classifiers :=
      .ofList [Printing.typeOfKind "text" .text (Inspect.tag [] [] (some "bold")) 0, .universal] }

-- A text of two lines and a document.
private def subjects : Store :=
  ⟨#[.text "a\nb", .document ⟨[⟨"d", some "green"⟩], 2, 0⟩], #[]⟩

/-- A comma stands between the first two arguments, and none beside the document. -/
theorem standardMessage_bold :
    (∃ message, (boldEngine.standardMessage subjects (.char 'x') "to be"
        [.small 1, .small 2, .cell 1, .small 3]).outcome = .ok message ∧
      message.plain = ("expected x to be 1, 2 d 3" : Text)) ∧
    ∃ message, (boldEngine.standardMessage subjects (.cell 0) "to be"
        [.cell 1, .char 'x']).outcome = .ok message ∧
      message.plain = ("expected\n  a\n  b\nto be d x" : Text) := by
  constructor
  · have hs : (boldEngine.inspected subjects (.char 'x')).outcome = .ok _ := rfl
    have hargs : boldEngine.ShowsArguments subjects [.small 1, .small 2, .cell 1, .small 3] _ :=
      .cons rfl (.cons rfl (.cons rfl (.cons rfl .nil)))
    obtain ⟨message, hmessage, ⟨-, hplain, -⟩ | ⟨hheight, -⟩⟩ :=
      standardMessage_layout boldEngine subjects "to be" hs hargs
    · exact ⟨message, hmessage, hplain⟩
    · exact absurd hheight (by decide)
  · have hs : (boldEngine.inspected subjects (.cell 0)).outcome = .ok _ := rfl
    have hargs : boldEngine.ShowsArguments subjects [.cell 1, .char 'x'] _ :=
      .cons rfl (.cons rfl .nil)
    obtain ⟨message, hmessage, ⟨hheight, -⟩ | ⟨-, hplain, -⟩⟩ :=
      standardMessage_layout boldEngine subjects "to be" hs hargs
    · exact absurd hheight (by decide)
    · exact ⟨message, hmessage, hplain⟩

/-- A newline of a subject in bold is not in bold in the message. -/
theorem standardMessage_newline :
    ∃ shown message, (boldEngine.inspected subjects (.cell 0)).outcome = .ok shown ∧
      (boldEngine.standardMessage subjects (.cell 0) "to be" []).outcome = .ok message ∧
      shown.plain = ("a\nb" : Text) ∧ shown.spans = [⟨0, 3, "bold"⟩] ∧
      message.plain = ("expected\n  a\n  b\nto be" : Text) ∧
      message.spans = [⟨0, 8, "red"⟩, ⟨11, 12, "bold"⟩, ⟨15, 16, "bold"⟩, ⟨17, 22, "red"⟩] ∧
      ¬ ∀ g ∈ shown.glyphs, g ∈ message.glyphs :=
  ⟨_, _, rfl, rfl, rfl, rfl, rfl, rfl, by decide⟩

end Engine

end Expectation
