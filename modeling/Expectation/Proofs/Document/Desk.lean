import Mathlib.Data.List.Induction
import Expectation.Proofs.Document.Ranges

/-!
# Documents that are written together

Documents lie on a desk and are written in any order. Each may be copied, appended to another or to
itself, and set as a block in another or in itself. The same can be done with documents that keep
ranges instead of runs, where every position has to be moved or cut, and whose level of indentation
may be any integer. Both desks show the same documents after every history, so the ranges that are
kept are well formed and no level falls below zero.
-/

namespace Expectation

namespace Desk

/-- An operation on one document. Another document is given by its number. -/
inductive Operation where
  | text (content : Text) (style : Option Style)
  | error (content : Text)
  | spaces (count : Int)
  | newlines (count : Int)
  | indent
  | outdent
  | indentation
  | append (other : Nat)
  | block (other : Nat)
  deriving Repr, DecidableEq

/-- A step. Documents have numbers in the order in which they come. -/
inductive Step where
  | new (indentWidth : Int)
  | clone (source : Nat)
  | write (target : Nat) (operation : Operation)
  deriving Repr, DecidableEq

variable {δ : Type}

/-- The desk after a step, where documents begin as `empty` and are written by `operate`, which
sees all documents there are. -/
def step (empty : Int → δ) (operate : List δ → δ → Operation → δ) (desk : List δ) :
    Step → List δ
  | .new indentWidth => desk ++ [empty indentWidth]
  | .clone source => desk ++ desk[source]?.toList
  | .write target operation => desk.modify target (operate desk · operation)

/-- The desk after steps, in order, from an empty one. -/
def after (empty : Int → δ) (operate : List δ → δ → Operation → δ) (history : List Step) : List δ :=
  history.foldl (step empty operate) []

theorem after_concat (empty : Int → δ) (operate : List δ → δ → Operation → δ)
    (history : List Step) (last : Step) :
    after empty operate (history ++ [last]) =
      step empty operate (after empty operate history) last :=
  List.foldl_concat _ _ _ _

end Desk

namespace Document

open Desk (Operation Step)

/-- The document after an operation, which does nothing if it needs a document that is not there. -/
def operate (desk : List Document) (d : Document) : Operation → Document
  | .text content style => d.text content style
  | .error content => d.error content
  | .spaces count => d.spaces count
  | .newlines count => d.newlines count
  | .indent => d.indent
  | .outdent => d.outdent
  | .indentation => d.indentation
  | .append other => desk[other]?.elim d d.append
  | .block other => desk[other]?.elim d d.block

/-- The documents after steps, beginning with none. -/
def desk (history : List Step) : List Document := Desk.after empty operate history

end Document

/-- A document that keeps ranges instead of runs. -/
structure RangedDocument where
  content : RangedText
  indentWidth : Int
  level : Int
  deriving Repr, DecidableEq

namespace RangedDocument

open Desk (Operation Step)

/-- The document without text. -/
def empty (indentWidth : Int) : RangedDocument := ⟨.empty, indentWidth, 0⟩

/-- Write text in a style; an empty style is none. -/
def text (d : RangedDocument) (content : Text) (style : Option Style := none) : RangedDocument :=
  { d with content := d.content.write content style }

/-- Write text in the style of what went wrong. -/
def error (d : RangedDocument) (content : Text) : RangedDocument :=
  d.text content (some Document.errorStyle)

/-- Write spaces. -/
def spaces (d : RangedDocument) (count : Int) : RangedDocument := d.text (Text.repeated ' ' count)

/-- Write newlines. -/
def newlines (d : RangedDocument) (count : Int) : RangedDocument :=
  d.text (Text.repeated '\n' count)

/-- Indent the lines to come one level more. -/
def indent (d : RangedDocument) : RangedDocument := { d with level := d.level + 1 }

/-- Indent the lines to come one level less, but never less than none. -/
def outdent (d : RangedDocument) : RangedDocument := { d with level := max (d.level - 1) 0 }

/-- Write the indentation of the level in force. -/
def indentation (d : RangedDocument) : RangedDocument := d.spaces (d.level * d.indentWidth)

/-- Write another document at the end, in its own styles. -/
def append (d other : RangedDocument) : RangedDocument :=
  { d with content := d.content.append other.content }

/-- Write another document with each of its lines beginning at the present column. -/
def block (d other : RangedDocument) : RangedDocument :=
  { d with content := d.content.block other.content }

/-- The document after an operation, which does nothing if it needs a document that is not there. -/
def operate (desk : List RangedDocument) (d : RangedDocument) : Operation → RangedDocument
  | .text content style => d.text content style
  | .error content => d.error content
  | .spaces count => d.spaces count
  | .newlines count => d.newlines count
  | .indent => d.indent
  | .outdent => d.outdent
  | .indentation => d.indentation
  | .append other => desk[other]?.elim d d.append
  | .block other => desk[other]?.elim d d.block

/-- The documents after steps, beginning with none. -/
def desk (history : List Step) : List RangedDocument := Desk.after empty operate history

/-- The document without its empty ranges. -/
def solid (d : RangedDocument) : RangedDocument := { d with content := d.content.solid }

/-- The document with the ranges of its runs. -/
def ofDocument (d : Document) : RangedDocument := ⟨.ofRuns d.runs, d.indentWidth, d.level⟩

variable {r r' : RangedDocument} {d d' : Document} {ranged : List RangedDocument}
  {documents : List Document}

theorem solid_eq_ofDocument_iff :
    r.solid = ofDocument d ↔
      r.content.solid = .ofRuns d.runs ∧ r.indentWidth = d.indentWidth ∧ r.level = d.level := by
  simp [solid, ofDocument]

/-- Writing text keeps the two documents alike. -/
theorem solid_text (h : r.solid = ofDocument d) (content : Text) (style : Option Style) :
    (r.text content style).solid = ofDocument (d.text content style) := by
  rw [solid_eq_ofDocument_iff] at h ⊢
  exact ⟨RangedText.solid_write h.1 content style, h.2⟩

/-- Appending keeps the two documents alike. -/
theorem solid_append (h : r.solid = ofDocument d) (h' : r'.solid = ofDocument d') :
    (r.append r').solid = ofDocument (d.append d') := by
  rw [solid_eq_ofDocument_iff] at h h' ⊢
  exact ⟨RangedText.solid_append h.1 h'.1, h.2⟩

/-- Setting a block keeps the two documents alike. -/
theorem solid_block (h : r.solid = ofDocument d) (h' : r'.solid = ofDocument d') :
    (r.block r').solid = ofDocument (d.block d') := by
  have hlayout : (d.block d').indentWidth = d.indentWidth ∧ (d.block d').level = d.level := by
    rw [Document.block]
    split <;> exact ⟨rfl, rfl⟩
  rw [solid_eq_ofDocument_iff] at h h' ⊢
  rw [hlayout.1, hlayout.2]
  exact ⟨RangedText.solid_block h.1 h'.1, h.2⟩

/-- On desks that are alike a number stands for no document, or for documents that are alike. -/
theorem getElem?_alike (h : ranged.map solid = documents.map ofDocument) (number : Nat) :
    (ranged[number]? = none ∧ documents[number]? = none) ∨
      ∃ r d, ranged[number]? = some r ∧ documents[number]? = some d ∧ r.solid = ofDocument d := by
  have hat : ranged[number]?.map solid = documents[number]?.map ofDocument := by
    rw [← List.getElem?_map, h, List.getElem?_map]
  cases hr : ranged[number]? with
  | none =>
    rw [hr, Option.map_none, eq_comm, Option.map_eq_none_iff] at hat
    exact .inl ⟨rfl, hat⟩
  | some r =>
    rw [hr, Option.map_some, eq_comm, Option.map_eq_some_iff] at hat
    obtain ⟨d, hd, hlook⟩ := hat
    exact .inr ⟨r, d, rfl, hd, hlook.symm⟩

/-- An operation keeps two documents alike on desks that are alike. -/
theorem solid_operate (hs : ranged.map solid = documents.map ofDocument)
    (h : r.solid = ofDocument d) (operation : Operation) :
    (r.operate ranged operation).solid = ofDocument (d.operate documents operation) := by
  have hlayout := (solid_eq_ofDocument_iff.1 h).2
  cases operation with
  | text content style => exact solid_text h content style
  | error content => exact solid_text h content _
  | spaces count => exact solid_text h _ none
  | newlines count => exact solid_text h _ none
  | indentation =>
    rw [operate, indentation, hlayout.1, hlayout.2]
    exact solid_text h _ none
  | indent =>
    rw [solid_eq_ofDocument_iff] at h ⊢
    exact ⟨h.1, h.2.1, congrArg (· + 1) h.2.2⟩
  | outdent =>
    rw [solid_eq_ofDocument_iff] at h ⊢
    refine ⟨h.1, h.2.1, ?_⟩
    change max (r.level - 1) 0 = ((d.level - 1 : Nat) : Int)
    omega
  | append other =>
    rcases getElem?_alike hs other with ⟨hr, hd⟩ | ⟨r', d', hr, hd, h'⟩
    · simpa only [operate, Document.operate, hr, hd, Option.elim_none] using h
    · simpa only [operate, Document.operate, hr, hd, Option.elim_some] using solid_append h h'
  | block other =>
    rcases getElem?_alike hs other with ⟨hr, hd⟩ | ⟨r', d', hr, hd, h'⟩
    · simpa only [operate, Document.operate, hr, hd, Option.elim_none] using h
    · simpa only [operate, Document.operate, hr, hd, Option.elim_some] using solid_block h h'

/-- A step keeps desks alike. -/
theorem map_solid_step (h : ranged.map solid = documents.map ofDocument) (step : Step) :
    (Desk.step empty operate ranged step).map solid =
      (Desk.step Document.empty Document.operate documents step).map ofDocument := by
  cases step with
  | new indentWidth =>
    rw [Desk.step, Desk.step, List.map_append, List.map_append, h]
    rfl
  | clone source =>
    rw [Desk.step, Desk.step, List.map_append, List.map_append, h]
    rcases getElem?_alike h source with ⟨hr, hd⟩ | ⟨r, d, hr, hd, hlook⟩
    · rw [hr, hd]
      rfl
    · rw [hr, hd, Option.toList_some, Option.toList_some, List.map_singleton, List.map_singleton,
        hlook]
  | write target operation =>
    refine List.ext_getElem? fun number => ?_
    rw [Desk.step, Desk.step, List.getElem?_map, List.getElem?_map, List.getElem?_modify,
      List.getElem?_modify]
    rcases getElem?_alike h number with ⟨hr, hd⟩ | ⟨r, d, hr, hd, hlook⟩
    · rw [hr, hd]
      rfl
    · rw [hr, hd]
      by_cases hnumber : target = number
      · simp [hnumber, solid_operate h hlook operation]
      · simp [hnumber, hlook]

/-- Documents that keep ranges show after every history what documents of runs show. -/
theorem map_solid_desk (history : List Step) :
    (desk history).map solid = (Document.desk history).map ofDocument := by
  induction history using List.reverseRecOn with
  | nil => rfl
  | append_singleton history last ih =>
    rw [desk, Document.desk, Desk.after_concat, Desk.after_concat]
    exact map_solid_step ih last

/-- What is kept of a document with runs is well formed. -/
theorem wellFormed_of_solid (h : r.solid = ofDocument d) :
    Span.WellFormed r.content.plain.length (r.content.spans.filter Span.isNonempty) ∧
      0 ≤ r.level := by
  obtain ⟨hcontent, -, hlevel⟩ := solid_eq_ofDocument_iff.1 h
  rw [RangedText.solid, RangedText.ofRuns, RangedText.mk.injEq] at hcontent
  rw [hcontent.1, hcontent.2, hlevel]
  exact ⟨d.wellFormed_spans, Int.natCast_nonneg d.level⟩

end RangedDocument

namespace Document

open Desk (Step)

/-- After every history, in which a document may also be appended to itself and set as a block in
itself, the documents that keep ranges are those of runs, but for empty ranges. Their other ranges
are listed in increasing order, have no position in common and lie within the text, and their level
of indentation is not negative. Appending a document of the desk to another one or to itself joins
the texts, and moves the ranges that come behind those that are there. -/
theorem desk_wellFormed (history : List Step) :
    (RangedDocument.desk history).map RangedDocument.solid =
        (desk history).map RangedDocument.ofDocument ∧
      (∀ r ∈ RangedDocument.desk history,
        Span.WellFormed r.content.plain.length (r.content.spans.filter Span.isNonempty) ∧
          0 ≤ r.level) ∧
      (∀ d ∈ desk history, Span.WellFormed d.plain.length d.spans) ∧
      ∀ target other d o, (desk history)[target]? = some d → (desk history)[other]? = some o →
        ∃ d', (desk (history ++ [.write target (.append other)]))[target]? = some d' ∧
          d'.plain = d.plain ++ o.plain ∧
          d'.spans = d.spans ++ o.spans.map (Span.shift d.plain.length) := by
  have halike := RangedDocument.map_solid_desk history
  refine ⟨halike, fun r hr => ?_, fun d _ => d.wellFormed_spans, fun target other d o hd ho => ?_⟩
  · have hmem : r.solid ∈ (desk history).map RangedDocument.ofDocument :=
      halike ▸ List.mem_map_of_mem hr
    obtain ⟨d, -, hd⟩ := List.mem_map.1 hmem
    exact RangedDocument.wellFormed_of_solid hd.symm
  · refine ⟨d.append o, ?_, plain_append d o, spans_append d o⟩
    rw [desk, Desk.after_concat, ← desk, Desk.step, List.getElem?_modify, hd]
    simp [operate, ho]

/-- A document is written in two lines and with text that it does not take, and copied. It is
appended to itself, and its copy is set as a block in itself. -/
def selfWriting : List Step :=
  [.new 2, .write 0 (.text "a\nb\x07" (some "red")), .write 0 (.error "\x07"), .write 0 .outdent,
    .clone 0, .write 0 (.append 0), .write 1 (.block 1)]

/-- The document that is appended to itself. -/
def selfAppended : Document :=
  ⟨[⟨"a\nb", some "red"⟩, ⟨[], some "red"⟩, ⟨"a\nb", some "red"⟩, ⟨[], some "red"⟩], 2, 0⟩

/-- The document that is set as a block in itself, with its ranges. -/
def selfBlocked : RangedDocument :=
  ⟨⟨"a\nba\n b", [⟨0, 3, "red"⟩, ⟨3, 3, "red"⟩, ⟨3, 4, "red"⟩, ⟨6, 7, "red"⟩]⟩, 2, 0⟩

/-- Both documents are well formed, and the first one can be appended to itself again. -/
theorem desk_wellFormed_selfWriting :
    (selfBlocked ∈ RangedDocument.desk selfWriting ∧ selfAppended ∈ desk selfWriting ∧
        (desk selfWriting)[0]? = some selfAppended) ∧
      (Span.WellFormed selfBlocked.content.plain.length
          (selfBlocked.content.spans.filter Span.isNonempty) ∧
        0 ≤ selfBlocked.level) ∧
      Span.WellFormed selfAppended.plain.length selfAppended.spans ∧
      ∃ d, (desk (selfWriting ++ [.write 0 (.append 0)]))[0]? = some d ∧
        d.plain = selfAppended.plain ++ selfAppended.plain ∧
        d.spans = selfAppended.spans ++
          selfAppended.spans.map (Span.shift selfAppended.plain.length) := by
  have hblocked : selfBlocked ∈ RangedDocument.desk selfWriting := by decide
  have happended : selfAppended ∈ desk selfWriting := by decide
  have hfirst : (desk selfWriting)[0]? = some selfAppended := by decide
  obtain ⟨-, hranged, hdocuments, hjoined⟩ := desk_wellFormed selfWriting
  exact ⟨⟨hblocked, happended, hfirst⟩, hranged _ hblocked, hdocuments _ happended,
    hjoined 0 0 _ _ hfirst hfirst⟩

end Document

end Expectation
