import Expectation.Document.Basic

/-!
# Edits of a document

An edit is one step of writing a document, as data. Its contents may be of any type that can be
shown as text. A document to be appended or set as a block is given by the edits that write it.
-/

namespace Expectation

/-- The indentation width of documents that are written apart from any engine. -/
def defaultIndentWidth : Int := 2

/-- One step of writing a document with contents in `α`. -/
inductive Edit (α : Type) where
  | text (content : α) (style : Option Style)
  | spaces (count : Int)
  | newlines (count : Int)
  | indent
  | outdent
  | indentation
  | append (edits : List (Edit α))
  | block (edits : List (Edit α))
  | appendDocument (document : Document)
  | blockDocument (document : Document)

namespace Edit

variable {α : Type}

mutual

/-- The document after an edit. -/
def apply (shown : α → Text) (d : Document) : Edit α → Document
  | text content style => d.text (shown content) style
  | spaces count => d.spaces count
  | newlines count => d.newlines count
  | indent => d.indent
  | outdent => d.outdent
  | indentation => d.indentation
  | append edits => d.append (applyAll shown (.empty defaultIndentWidth) edits)
  | block edits => d.block (applyAll shown (.empty defaultIndentWidth) edits)
  | appendDocument document => d.append document
  | blockDocument document => d.block document

/-- The document after edits, in order. -/
def applyAll (shown : α → Text) (d : Document) : List (Edit α) → Document
  | [] => d
  | edit :: edits => applyAll shown (apply shown d edit) edits

end

end Edit

end Expectation
