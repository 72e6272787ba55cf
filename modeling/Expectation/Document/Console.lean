import Expectation.Document.Basic
import Expectation.Document.Format

/-!
# Consoles

A document is written for a terminal and in HTML by a console, which the library does not bring with
it. The library writes plain text itself, hands the document and a width to the console for the
other two formats, and sets what comes back in HTML as a preformatted block.
-/

namespace Expectation

/-- What writes documents for a terminal and in HTML at a width, and takes some styles for links. -/
structure Console where
  ansi : Document → (width : Int) → Text
  html : Document → (width : Int) → Text
  isLink : Style → Bool

namespace Console

/-- A preformatted block in HTML. Follows `_HTML_FORMAT`, `assertive.output:19`. -/
def preformatted (body : Text) : Text :=
  ("<pre style=\"font-family: monospace\">" : Text) ++ body ++ "</pre>"

/-- A document in a format, written at a width. Follows `Output.render`, `assertive.output:102–133`.
-/
def render (console : Console) (d : Document) (width : Int) : Format → Text
  | .text => d.plain
  | .ansi => console.ansi d width
  | .html => preformatted (console.html d width)

/-- No run of a document links to anything. -/
def Unlinked (console : Console) (d : Document) : Prop :=
  ∀ run ∈ d.runs, ∀ style, run.style = some style → console.isLink style = false

end Console

end Expectation
