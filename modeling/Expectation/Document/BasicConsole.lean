import Expectation.Text.Blank
import Expectation.Text.CellWidth
import Expectation.Document.Console

/-!
# A basic console

A console that knows a few styles. It goes line by line: first tabs become spaces, and a run is cut
after each of them. A tab becomes one space and as many more as lead to the next column that is a
multiple of eight, counted in terminal cells; text and space are measured together, since the space
takes no cell after a joiner. For a terminal every styled run stands between escape sequences. In
HTML neighbouring runs of one look are joined, the five characters with a meaning in HTML are
escaped, and every styled run stands in a span. A style without a look is rendered as no style, and
a style may link to something. Lines are never wrapped, but at a width below one nothing is written,
and blanks at the end of a line may be cut off beyond the width.
-/

namespace Expectation

/-- How a style looks: its codes for a terminal, its rule in HTML and what it links to. -/
structure Look where
  codes : Text
  rule : Text
  link : Option Text
  deriving Repr, DecidableEq

namespace Look

/-- The look of a coloured text: the code of the colour and its value in HTML. -/
def coloured (code value : Text) : Look :=
  ⟨code, ("color: " : Text) ++ value ++ "; text-decoration-color: " ++ value, none⟩

/-- The look of red text. -/
def red : Look := coloured "31" "#800000"

/-- The styles that have a look. -/
def styles : List (Style × Look) :=
  [("red", red), ("green", coloured "32" "#008000"), ("blue", coloured "34" "#000080"),
    ("bold", ⟨"1", "font-weight: bold", none⟩),
    ("bold red", ⟨"1;31", red.rule ++ "; font-weight: bold", none⟩)]

/-- What a style links to: the word `link` and an address make a style. -/
def linkOf? (style : Style) : Option Text :=
  match Text.splitOn ' ' style with
  | [word, address] => if word = "link" ∧ address ≠ [] then some address else none
  | _ => none

/-- The look of a style, if it has one. -/
def ofStyle? (style : Style) : Option Look :=
  match linkOf? style with
  | some address => some ⟨[], [], some address⟩
  | none => (styles.find? (·.1 = style)).map Prod.snd

end Look

/-- A piece of a line as it is shown. -/
structure ShownRun where
  text : Text
  look : Option Look
  deriving Repr, DecidableEq

namespace Document

/-- The columns between tab stops. -/
def tabWidth : Nat := 8

/-- The spaces that a tab becomes after the text since the last stop. -/
def tabSpaces (sinceStop : Text) : Text :=
  let column := Text.cells (sinceStop ++ [' '])
  List.replicate (1 + (tabWidth - column % tabWidth) % tabWidth) ' '

/-- A text with its tabs replaced, cut after each of them, and the text since the last stop. -/
def expandTabs (sinceStop : Text) : Text → List Text × Text
  | [] => ([[]], sinceStop)
  | c :: rest =>
    if c = '\t' then
      let (pieces, after) := expandTabs [] rest
      (tabSpaces sinceStop :: pieces, after)
    else
      match expandTabs (sinceStop ++ [c]) rest with
      | ([], after) => ([[c]], after)
      | (piece :: pieces, after) => ((c :: piece) :: pieces, after)

/-- The runs of a line as they are shown, without empty ones. -/
def shownLine (sinceStop : Text) : List Run → List ShownRun
  | [] => []
  | run :: rest =>
    let (pieces, after) := expandTabs sinceStop run.text
    ((pieces.filter (· ≠ [])).map fun piece => ⟨piece, run.style.bind Look.ofStyle?⟩) ++
      shownLine after rest

/-- The lines of a document as they are shown. -/
def shownLines (d : Document) : List (List ShownRun) := (runLines d.runs).map (shownLine [])

/-- The first characters of a line as it is shown. -/
def shownStart : (count : Nat) → List ShownRun → List ShownRun
  | _, [] => []
  | count, run :: rest =>
    ⟨run.text.take count, run.look⟩ :: shownStart (count - run.text.length) rest

/-- A line as it is shown, without the blanks at its end beyond a width. -/
def cutEnd (width : Int) (line : List ShownRun) : List ShownRun :=
  let text := line.flatMap ShownRun.text
  let blanks := (text.reverse.takeWhile isBlank).length
  let excess := (text.length - width).toNat
  (shownStart (text.length - min blanks excess) line).filter (·.text ≠ [])

/-- The lines of a document as they are written at a width, with or without the blanks at their ends
beyond it. -/
def writtenLines (cuts : Bool) (d : Document) (width : Int) : List (List ShownRun) :=
  if width < 1 then [] else if cuts then d.shownLines.map (cutEnd width) else d.shownLines

/-- The escape character that begins a control sequence of a terminal. -/
def escape : Char := '\x1B'

/-- What tells a terminal to use codes. -/
def sequence (codes : Text) : Text := escape :: '[' :: codes ++ ['m']

/-- What tells a terminal what the text that follows links to. -/
def linkSequence (address : Text) : Text := (escape :: "]8;;".toList) ++ address ++ [escape, '\\']

/-- A text that a terminal shows in a look. -/
def ansiIn (look : Look) (text : Text) : Text :=
  let shown := if look.codes = [] then text else sequence look.codes ++ text ++ sequence "0"
  match look.link with
  | some address => linkSequence address ++ shown ++ linkSequence []
  | none => shown

/-- A run for a terminal. -/
def ansiRun (run : ShownRun) : Text :=
  match run.look with
  | some look => ansiIn look run.text
  | none => run.text

/-- Join neighbouring runs of one look. -/
def joinLooks : List ShownRun → List ShownRun
  | [] => []
  | run :: rest =>
    match joinLooks rest with
    | [] => [run]
    | next :: others =>
      if run.look = next.look then ⟨run.text ++ next.text, run.look⟩ :: others
      else run :: next :: others

/-- A character of text in HTML. -/
def htmlChar (c : Char) : Text :=
  if c = '&' then "&amp;"
  else if c = '<' then "&lt;"
  else if c = '>' then "&gt;"
  else if c = '"' then "&quot;"
  else if c = '\'' then "&#x27;"
  else [c]

/-- What HTML shows in a look: an element that links, in a span with a rule. -/
def htmlIn (look : Look) (body : Text) : Text :=
  let linked :=
    match look.link with
    | some address => ("<a href=\"" : Text) ++ address ++ "\">" ++ body ++ "</a>"
    | none => body
  if look.rule = [] then linked
  else ("<span style=\"" : Text) ++ look.rule ++ "\">" ++ linked ++ "</span>"

/-- A run in HTML. -/
def htmlRun (run : ShownRun) : Text :=
  match run.look with
  | some look => htmlIn look (run.text.flatMap htmlChar)
  | none => run.text.flatMap htmlChar

end Document

/-- The console that knows a few styles, and cuts off blanks at the ends of lines or does not. -/
def Console.basic (cuts : Bool) : Console where
  ansi d width :=
    Text.joinWith ['\n'] ((d.writtenLines cuts width).map (·.flatMap Document.ansiRun))
  html d width :=
    Text.joinWith ['\n'] ((d.writtenLines cuts width).map fun line =>
      (Document.joinLooks line).flatMap Document.htmlRun)
  isLink style := (Look.linkOf? style).isSome

end Expectation
