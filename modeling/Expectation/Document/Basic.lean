import Expectation.Text.Basic

/-!
# Documents

A document is styled text that is written from front to back: a list of runs, each with a style or
none, and the indentation that is in force for the lines to come. A document may be appended to
another or set as a block, whose lines all begin at the column where the other document ends.
-/

namespace Expectation

/-- The name of a style, such as `red` or `bold red`. -/
abbrev Style := Text

/-- A piece of text written in one style, or in none. -/
structure Run where
  text : Text
  style : Option Style
  deriving Repr, DecidableEq

/-- A styled range of positions, from `start` up to but not including `stop`. -/
structure Span where
  start : Nat
  stop : Nat
  style : Style
  deriving Repr, DecidableEq

/-- Styled text and the indentation in force at its end. Follows `Output`, `assertive.output:22–40`.
-/
structure Document where
  runs : List Run
  indentWidth : Int
  level : Nat
  deriving Repr, DecidableEq

namespace Document

/-- The document without text. -/
def empty (indentWidth : Int) : Document := ⟨[], indentWidth, 0⟩

/-- The text of runs. -/
def textOf (runs : List Run) : Text := runs.flatMap Run.text

/-- The text of a document. -/
def plain (d : Document) : Text := textOf d.runs

/-- The lines of a document's text; there is always at least one. Follows `Output.lines`,
`assertive.output:87–89`. -/
def lines (d : Document) : List Text := Text.lines d.plain

/-- The number of lines. Follows `Output.height`, `assertive.output:91–93`. -/
def height (d : Document) : Nat := d.lines.length

/-- The document has no text. Follows `Output.is_empty`, `assertive.output:95–97`. -/
def isEmpty (d : Document) : Bool := d.plain.isEmpty

/-- The ranges that runs style when they start at a position; empty runs style none. -/
def spansFrom (start : Nat) : List Run → List Span
  | [] => []
  | ⟨text, style⟩ :: rest =>
    let stop := start + text.length
    match style with
    | some name =>
      if text = [] then spansFrom stop rest else ⟨start, stop, name⟩ :: spansFrom stop rest
    | none => spansFrom stop rest

/-- The styled ranges of a document, in the order written. -/
def spans (d : Document) : List Span := spansFrom 0 d.runs

/-- Characters that documents do not take: bell, backspace, vertical tab, form feed, return. -/
def isDropped (c : Char) : Bool :=
  c = '\x07' || c = '\x08' || c = '\x0B' || c = '\x0C' || c = '\x0D'

/-- Write text in a style; an empty style is none. Follows `Output.text`, `assertive.output:42–45`.
-/
def text (d : Document) (content : Text) (style : Option Style := none) : Document :=
  { d with runs := d.runs ++ [⟨content.filter (!isDropped ·), style.filter (· ≠ [])⟩] }

/-- The style of what went wrong. -/
def errorStyle : Style := "red"

/-- Write text in the style of what went wrong. Follows `Output.error`, `assertive.output:47–48`. -/
def error (d : Document) (content : Text) : Document := d.text content (some errorStyle)

/-- Write spaces. Follows `Output.sp`, `assertive.output:50–51`. -/
def spaces (d : Document) (count : Int := 1) : Document := d.text (Text.repeated ' ' count)

/-- Write newlines. Follows `Output.nl`, `assertive.output:53–54`. -/
def newlines (d : Document) (count : Int := 1) : Document := d.text (Text.repeated '\n' count)

/-- Indent the lines to come one level more. Follows `Output.indent_lines`,
`assertive.output:56–58`. -/
def indent (d : Document) : Document := { d with level := d.level + 1 }

/-- Indent the lines to come one level less, but never less than none. Follows
`Output.outdent_lines`, `assertive.output:60–62`. -/
def outdent (d : Document) : Document := { d with level := d.level - 1 }

/-- Write the indentation of the level in force. Follows `Output.i`, `assertive.output:64–66`. -/
def indentation (d : Document) : Document := d.spaces (d.level * d.indentWidth)

/-- Write another document at the end, in its own styles. Follows `Output.append`,
`assertive.output:68–71`. -/
def append (d other : Document) : Document := { d with runs := d.runs ++ other.runs }

/-- Put the pieces of a cut run in front of the lines of what follows it. -/
def prependPieces (style : Option Style) : List Text → List (List Run) → List (List Run)
  | [], lines => lines
  | [piece], [] => [[⟨piece, style⟩]]
  | [piece], line :: lines => (⟨piece, style⟩ :: line) :: lines
  | piece :: pieces, lines => [⟨piece, style⟩] :: prependPieces style pieces lines

/-- Runs cut at their newlines, line by line; the newlines are gone. -/
def runLines : List Run → List (List Run)
  | [] => [[]]
  | run :: rest => prependPieces run.style (Text.lines run.text) (runLines rest)

/-- The column at which the next character is written. -/
def column (d : Document) : Nat := (Text.lastLine d.plain).length

/-- Write another document with each of its lines beginning at the present column. Follows
`Output.block`, `assertive.output:73–80`. -/
def block (d other : Document) : Document :=
  let margin := ⟨'\n' :: List.replicate d.column ' ', none⟩
  match runLines other.runs with
  | [] => d
  | first :: rest => { d with runs := d.runs ++ first ++ rest.flatMap (margin :: ·) }

theorem plain_append (d other : Document) : (d.append other).plain = d.plain ++ other.plain := by
  simp [plain, textOf, append]

theorem plain_text (d : Document) (content : Text) (style : Option Style) :
    (d.text content style).plain = d.plain ++ content.filter (!isDropped ·) := by
  simp [plain, textOf, text]

end Document

end Expectation
