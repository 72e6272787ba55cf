import Expectation.Proofs.Document.Emission
import Expectation.Proofs.Text.Replacement

/-!
# Reading a rendered document

Rendering adds to a text and never changes it. What a terminal is told stands in escape sequences,
and what HTML is told in the tags of spans; with these deleted, and in HTML with the entities read
as the characters they stand for, the text of the document is left. Nothing but the tags of spans
has an angle bracket, so no text can open or close an element, whatever it looks like. All this is
so at every width at which there is room, for documents without links, up to blanks at the ends of
lines beyond the width.
-/

namespace Expectation

/-- What is left of a text, line by line, at a width. -/
def Text.CutLines (width : Int) (whole left : Text) : Prop :=
  List.Forall₂ (CutAt width) whole.lines left.lines

/-- No blank stands at the end of a line beyond a width. -/
def Text.FitsIn (width : Int) (line : Text) : Prop :=
  line.length ≤ width ∨ ∀ c ∈ line.getLast?, isBlank c = false

/-- Nothing is missing of a line that has no blank at its end beyond the width. -/
theorem Text.CutAt.eq_of_fitsIn {width : Int} {line left : Text} (h : CutAt width line left)
    (hfits : line.FitsIn width) : left = line := by
  obtain ⟨blanks, rfl, hblank, hwidth⟩ := h
  by_cases hnone : blanks = []
  · rw [hnone, List.append_nil]
  · rcases hfits with hlength | hlast
    · have hleft := hwidth hnone
      have hpos : 0 < blanks.length := List.length_pos_of_ne_nil hnone
      rw [List.length_append] at hlength
      omega
    · have hin : blanks.getLast hnone ∈ (left ++ blanks).getLast? := by
        rw [List.getLast?_append, List.getLast?_eq_getLast_of_ne_nil hnone]
        rfl
      have hfalse := hlast _ hin
      rw [hblank _ (List.getLast_mem hnone)] at hfalse
      cases hfalse

/-- Nothing is missing of a text whose lines have no blanks at their ends beyond the width. -/
theorem Text.CutLines.eq_of_fitsIn {width : Int} {whole left : Text} (h : CutLines width whole left)
    (hfits : ∀ line ∈ whole.lines, line.FitsIn width) : left = whole := by
  have hlines : ∀ {lines lefts : List Text}, List.Forall₂ (CutAt width) lines lefts →
      (∀ line ∈ lines, line.FitsIn width) → lefts = lines := by
    intro lines lefts hall
    induction hall with
    | nil => exact fun _ => rfl
    | cons hcut _ ih =>
      intro hfits
      rw [hcut.eq_of_fitsIn (hfits _ List.mem_cons_self),
        ih fun line hline => hfits line (List.mem_cons_of_mem _ hline)]
  rw [← joinWith_splitOn '\n' left, ← joinWith_splitOn '\n' whole]
  exact congrArg _ (hlines h hfits)

namespace Document.Lays

variable {d : Document} {width : Int} {IsMark : Text → Prop} {lines : List (List Piece)}

/-- The text of a piece is text of the document. -/
theorem text_subset (h : d.Lays width IsMark lines) {pieces : List Piece} (hpieces : pieces ∈ lines)
    {piece : Piece} (hpiece : piece ∈ pieces) : piece.text ⊆ d.plain := by
  obtain ⟨line, hline, blanks, rfl, -⟩ : ∃ line ∈ d.lines,
      Text.CutAt width line (pieces.flatMap Piece.text) := by
    obtain ⟨n, hn, hget⟩ := List.getElem_of_mem hpieces
    have hlength : n < d.lines.length := by rwa [h.text.length_eq]
    have hat := h.text.get hlength hn
    rw [List.get_eq_getElem, List.get_eq_getElem, hget] at hat
    exact ⟨d.lines[n], List.getElem_mem hlength, hat⟩
  exact fun c hc => subset_plain_of_mem_lines hline
    (List.mem_append_left _ (List.mem_flatMap.2 ⟨piece, hpiece, hc⟩))

/-- The texts of the pieces, line by line, are what is left of the document. -/
theorem cutLines (h : d.Lays width IsMark lines) :
    Text.CutLines width d.plain
      (Text.joinWith ['\n'] (lines.map (·.flatMap Piece.text))) := by
  have hcut : List.Forall₂ (Text.CutAt width) d.lines (lines.map (·.flatMap Piece.text)) :=
    List.forall₂_map_right_iff.2 h.text
  have hne : lines.map (·.flatMap Piece.text) ≠ [] := by
    intro hnil
    rw [hnil] at hcut
    exact Text.splitOn_ne_nil '\n' d.plain (List.forall₂_nil_right_iff.1 hcut)
  have hself : ∀ text ∈ lines.map (·.flatMap Piece.text), '\n' ∉ text := by
    intro text htext hmem
    obtain ⟨n, hn, hget⟩ := List.getElem_of_mem htext
    have hlength : n < d.lines.length := by rwa [hcut.length_eq]
    obtain ⟨blanks, hline, -⟩ := hcut.get hlength hn
    have hbreak : '\n' ∈ d.lines.get ⟨n, hlength⟩ := by
      rw [hline]
      exact List.mem_append_left _ (by simpa [hget] using hmem)
    exact Text.notMem_of_mem_splitOn (List.get_mem _ _) hbreak
  rw [Text.CutLines, Text.lines_joinWith hne, Text.flatMap_lines_eq_self_iff.2 hself]
  exact hcut

end Document.Lays

namespace Document

/-! ### The terminal -/

/-- Recognises an escape sequence, which becomes nothing. -/
def sequence? : Text.Reader
  | c :: bracket :: rest =>
    if c = escape ∧ bracket = '[' ∧ 'm' ∈ rest then
      some ((rest.takeWhile (· ≠ 'm')).length + 3, [])
    else none
  | _ => none

/-- A text for a terminal without its escape sequences. -/
def withoutSequences (t : Text) : Text := t.replaced sequence?

/-- A sequence is deleted. -/
theorem replaced_sequence {codes : Text} (h : Piece.IsCodes codes) (rest : Text) :
    (sequence codes ++ rest).replaced sequence? = rest.replaced sequence? := by
  have hall : ∀ c ∈ codes, decide (c ≠ 'm') = true := by
    intro c hc
    have hcode := List.all_eq_true.1 h c hc
    refine decide_eq_true fun hm => ?_
    rw [hm] at hcode
    exact absurd hcode (by decide)
  have hcodes : (codes ++ 'm' :: rest).takeWhile (· ≠ 'm') = codes := by
    rw [List.takeWhile_append_of_pos hall, List.takeWhile_cons_of_neg (by decide), List.append_nil]
  have hwritten : sequence codes ++ rest = escape :: '[' :: (codes ++ 'm' :: rest) := by
    simp [sequence]
  have hread : sequence? (sequence codes ++ rest) = some ((sequence codes).length, []) := by
    rw [hwritten, sequence?, if_pos ⟨rfl, rfl, by simp⟩, hcodes]
    simp [sequence]
  exact Text.replaced_append (by simp [sequence]) hread

/-- A text without escape characters stays for a terminal. -/
theorem replaced_append_of_escape_notMem {t : Text} (h : escape ∉ t) (rest : Text) :
    (t ++ rest).replaced sequence? = t ++ rest.replaced sequence? := by
  refine Text.replaced_append_of_none fun c hc rest => ?_
  cases rest with
  | nil => rfl
  | cons d rest =>
    rw [sequence?, if_neg]
    exact fun hread => h (hread.1 ▸ hc)

/-- Of a piece for a terminal, its text is left. -/
theorem replaced_ansi {piece : Piece}
    (hmark : ∀ codes, piece.mark = some codes → Piece.IsCodes codes)
    (htext : escape ∉ piece.text) (rest : Text) :
    (piece.ansi ++ rest).replaced sequence? = piece.text ++ rest.replaced sequence? := by
  obtain ⟨text, mark⟩ := piece
  cases mark with
  | none => exact replaced_append_of_escape_notMem htext rest
  | some codes =>
    have hreset : Piece.IsCodes "0" := rfl
    rw [Piece.ansi, List.append_assoc, List.append_assoc, replaced_sequence (hmark codes rfl),
      replaced_append_of_escape_notMem htext, replaced_sequence hreset]

/-- Of lines for a terminal, their texts are left. -/
theorem withoutSequences_of_lays {d : Document} {width : Int} {lines : List (List Piece)}
    (h : d.Lays width Piece.IsCodes lines) (hescape : escape ∉ d.plain) :
    withoutSequences (Text.joinWith ['\n'] (lines.map (·.flatMap Piece.ansi))) =
      Text.joinWith ['\n'] (lines.map (·.flatMap Piece.text)) :=
  Text.replaced_joinWith (fun rest => by cases rest <;> rfl) fun pieces hpieces piece hpiece =>
    replaced_ansi (h.mark pieces hpieces piece hpiece)
      fun hmem => hescape (h.text_subset hpieces hpiece hmem)

/-! ### HTML -/

/-- The entities that stand for characters. -/
def entities : List (Text × Text) :=
  [("&amp;", "&"), ("&lt;", "<"), ("&gt;", ">"), ("&quot;", "\""), ("&#x27;", "'")]

theorem head?_of_mem_entities : ∀ entry ∈ entities, entry.1.head? = some '&' := by decide

/-- No entity begins another. -/
theorem entities_apart : entities.Pairwise fun a b => ¬ a.1 <+: b.1 ∧ ¬ b.1 <+: a.1 := by
  decide +kernel

/-- A text in HTML with the characters that its entities stand for. -/
def decoded (t : Text) : Text := t.replaced (Text.ofTable entities)

/-- A character in HTML is its entity, or it begins none and is no angle bracket. -/
theorem htmlChar_cases (c : Char) : (htmlChar c, [c]) ∈ entities ∨
    c ≠ '&' ∧ c ≠ '<' ∧ c ≠ '>' ∧ htmlChar c = [c] := by
  by_cases hentity : c = '&' ∨ c = '<' ∨ c = '>' ∨ c = '"' ∨ c = '\''
  · left
    rcases hentity with rfl | rfl | rfl | rfl | rfl <;> decide
  · right
    simp only [not_or] at hentity
    obtain ⟨hamp, hlt, hgt, hquote, hapostrophe⟩ := hentity
    simp [htmlChar, hamp, hlt, hgt, hquote, hapostrophe]

/-- The entities of a text are read as its characters. -/
theorem decoded_flatMap_htmlChar (t : Text) : decoded (t.flatMap htmlChar) = t := by
  have hchar : ∀ c ∈ t, ∀ rest, (htmlChar c ++ rest).replaced (Text.ofTable entities) =
      [c] ++ rest.replaced (Text.ofTable entities) := by
    -- Every entity begins with an ampersand, and none is written but at the front of an entity.
    intro c _ rest
    rcases htmlChar_cases c with hentity | ⟨hamp, -, -, hself⟩
    · exact Text.replaced_entry_append head?_of_mem_entities entities_apart hentity rest
    · rw [hself]
      exact Text.replaced_append_of_notMem head?_of_mem_entities (by simpa using Ne.symm hamp) rest
  have hall := Text.replaced_flatMap hchar []
  simpa [decoded] using hall

/-- A text in HTML has no angle brackets. -/
theorem bracket_notMem_flatMap_htmlChar (t : Text) :
    '<' ∉ t.flatMap htmlChar ∧ '>' ∉ t.flatMap htmlChar := by
  have hchar : ∀ c, '<' ∉ htmlChar c ∧ '>' ∉ htmlChar c := by
    intro c
    rcases htmlChar_cases c with hentity | ⟨-, hlt, hgt, hself⟩
    · exact (by decide : ∀ entry ∈ entities, '<' ∉ entry.1 ∧ '>' ∉ entry.1) _ hentity
    · simp [hself, Ne.symm hlt, Ne.symm hgt]
  simp only [List.mem_flatMap, not_exists, not_and]
  exact ⟨fun c _ => (hchar c).1, fun c _ => (hchar c).2⟩

/-- Recognises a tag of a span, which becomes nothing: one that closes a span, or one that opens a
span and ends at the next angle bracket. -/
def tag? : Text.Reader := fun t =>
  if Piece.spanEnd.isPrefixOf t then some (Piece.spanEnd.length, [])
  else if Piece.spanOpening.isPrefixOf t ∧ '>' ∈ t then
    some ((t.takeWhile (· ≠ '>')).length + 1, [])
  else none

/-- A text in HTML without the tags of spans. -/
def withoutTags (t : Text) : Text := t.replaced tag?

/-- No tag begins with another character than an angle bracket. -/
theorem tag?_cons_of_ne {c : Char} (h : c ≠ '<') (rest : Text) : tag? (c :: rest) = none := by
  have hfirst : ∀ tail : Text, ('<' :: tail).isPrefixOf (c :: rest) = false := by
    intro tail
    rw [List.isPrefixOf, beq_eq_false_iff_ne.2 (Ne.symm h), Bool.false_and]
  have hclosing : Piece.spanEnd.isPrefixOf (c :: rest) = false := hfirst "/span>"
  have hopening : Piece.spanOpening.isPrefixOf (c :: rest) = false := hfirst "span style=\""
  rw [tag?, if_neg (ne_true_of_eq_false hclosing),
    if_neg fun hread => ne_true_of_eq_false hopening hread.1]

/-- A text without angle brackets stays in HTML. -/
theorem replaced_append_of_bracket_notMem {t : Text} (h : '<' ∉ t) (rest : Text) :
    (t ++ rest).replaced tag? = t ++ rest.replaced tag? :=
  Text.replaced_append_of_none fun _ hc => tag?_cons_of_ne fun hsame => h (hsame ▸ hc)

/-- The tag that closes a span is deleted. -/
theorem replaced_spanEnd (rest : Text) :
    (Piece.spanEnd ++ rest).replaced tag? = rest.replaced tag? := by
  have hprefix : Piece.spanEnd.isPrefixOf (Piece.spanEnd ++ rest) = true :=
    List.isPrefixOf_iff_prefix.2 (List.prefix_append _ _)
  have hread : tag? (Piece.spanEnd ++ rest) = some (Piece.spanEnd.length, []) := by
    rw [tag?, if_pos hprefix]
  exact Text.replaced_append (by decide) hread

/-- The tag that opens a span with a rule is deleted. -/
theorem replaced_spanStart {rule : Text} (h : Piece.IsRule rule) (rest : Text) :
    (Piece.spanStart rule ++ rest).replaced tag? = rest.replaced tag? := by
  obtain ⟨front, hfront⟩ : ∃ front, front = Piece.spanOpening ++ rule ++ ['"'] := ⟨_, rfl⟩
  have hstart : Piece.spanStart rule = front ++ ['>'] := by
    rw [Piece.spanStart, hfront, List.append_assoc (_ ++ rule)]
    rfl
  have hwritten : Piece.spanStart rule ++ rest = front ++ '>' :: rest := by
    rw [hstart, List.append_assoc, List.singleton_append]
  have hclosing : Piece.spanEnd.isPrefixOf (front ++ '>' :: rest) = false := by
    rw [hfront]
    rfl
  have hopening : Piece.spanOpening.isPrefixOf (front ++ '>' :: rest) = true := by
    rw [List.isPrefixOf_iff_prefix, hfront, List.append_assoc, List.append_assoc]
    exact List.prefix_append _ _
  have hall : ∀ c ∈ front, decide (c ≠ '>') = true := by
    intro c hc
    refine decide_eq_true fun hbracket => ?_
    subst hbracket
    rw [hfront, List.mem_append, List.mem_append] at hc
    rcases hc with (hc | hc) | hc
    · exact absurd hc (by decide)
    · exact h.2.2 hc
    · exact absurd hc (by decide)
  have hread : tag? (Piece.spanStart rule ++ rest) =
      some ((Piece.spanStart rule).length, []) := by
    rw [hwritten, tag?, if_neg (ne_true_of_eq_false hclosing),
      if_pos ⟨hopening, List.mem_append_right _ List.mem_cons_self⟩,
      List.takeWhile_append_of_pos hall, List.takeWhile_cons_of_neg (by decide), List.append_nil,
      hstart, List.length_append, List.length_singleton]
  have hne : Piece.spanStart rule ≠ [] := by
    rw [hstart]
    exact List.append_ne_nil_of_right_ne_nil _ (List.cons_ne_nil _ _)
  exact Text.replaced_append hne hread

/-- Of a piece in HTML, its text in HTML is left. -/
theorem replaced_html {piece : Piece} (hmark : ∀ rule, piece.mark = some rule → Piece.IsRule rule)
    (rest : Text) :
    (piece.html ++ rest).replaced tag? = piece.text.flatMap htmlChar ++ rest.replaced tag? := by
  obtain ⟨text, mark⟩ := piece
  have hbody := replaced_append_of_bracket_notMem (bracket_notMem_flatMap_htmlChar text).1
  cases mark with
  | none => exact hbody rest
  | some rule =>
    rw [Piece.html, List.append_assoc, List.append_assoc, replaced_spanStart (hmark rule rfl),
      hbody, replaced_spanEnd]

/-- Of lines in HTML, their texts in HTML are left. -/
theorem withoutTags_of_lays {d : Document} {width : Int} {lines : List (List Piece)}
    (h : d.Lays width Piece.IsRule lines) :
    withoutTags (Text.joinWith ['\n'] (lines.map (·.flatMap Piece.html))) =
      (Text.joinWith ['\n'] (lines.map (·.flatMap Piece.text))).flatMap htmlChar := by
  have htexts : lines.map (·.flatMap fun piece => piece.text.flatMap htmlChar) =
      (lines.map (·.flatMap Piece.text)).map (·.flatMap htmlChar) := by
    rw [List.map_map]
    refine List.map_congr_left fun pieces _ => ?_
    rw [Function.comp_apply, List.flatMap_assoc]
  calc withoutTags (Text.joinWith ['\n'] (lines.map (·.flatMap Piece.html)))
      = Text.joinWith ['\n']
          (lines.map (·.flatMap fun piece => piece.text.flatMap htmlChar)) :=
        Text.replaced_joinWith (tag?_cons_of_ne (by decide)) fun pieces hpieces piece hpiece =>
          replaced_html (h.mark pieces hpieces piece hpiece)
    _ = (Text.joinWith ['\n'] (lines.map (·.flatMap Piece.text))).flatMap htmlChar := by
        rw [htexts, Text.joinWith_map_flatMap rfl]

/-! ### Every format -/

/-- Rendering a document without tabs, escape characters and links neither alters its text nor lets
it through as markup, at every width at which there is room. As text it is the plain text. For a
terminal it is the plain text once the escape sequences are deleted. In HTML it is a preformatted
block whose body, without the tags of its spans, has no angle brackets and is the plain text with
entities for some characters. Only blanks at the ends of lines beyond the width may be missing, and
where there are none, nothing is. -/
theorem render_legible {console : Console} (hc : console.Emits) {d : Document}
    (htab : '\t' ∉ d.plain) (hescape : escape ∉ d.plain) (hlinks : console.Unlinked d) {width : Int}
    (hw : 1 ≤ width) :
    console.render d width .text = d.plain ∧
      Text.CutLines width d.plain (withoutSequences (console.render d width .ansi)) ∧
      (∃ body, console.render d width .html = Console.preformatted body ∧
        Text.CutLines width d.plain (decoded (withoutTags body)) ∧
        ((∀ line ∈ d.lines, line.FitsIn width) → decoded (withoutTags body) = d.plain) ∧
        '<' ∉ withoutTags body ∧ '>' ∉ withoutTags body) ∧
      ((∀ line ∈ d.lines, line.FitsIn width) →
        withoutSequences (console.render d width .ansi) = d.plain) := by
  obtain ⟨ansiLines, hansi, hansiWritten⟩ := hc.ansi d width hw htab hlinks
  obtain ⟨htmlLines, hhtml, hhtmlWritten⟩ := hc.html d width hw htab hlinks
  have hterminal :
      Text.CutLines width d.plain (withoutSequences (console.render d width .ansi)) := by
    rw [Console.render, hansiWritten, withoutSequences_of_lays hansi hescape]
    exact hansi.cutLines
  have hbody : withoutTags (console.html d width) =
      (Text.joinWith ['\n'] (htmlLines.map (·.flatMap Piece.text))).flatMap htmlChar := by
    rw [hhtmlWritten, withoutTags_of_lays hhtml]
  have hread : Text.CutLines width d.plain (decoded (withoutTags (console.html d width))) := by
    rw [hbody, decoded_flatMap_htmlChar]
    exact hhtml.cutLines
  have hbrackets := bracket_notMem_flatMap_htmlChar
    (Text.joinWith ['\n'] (htmlLines.map (·.flatMap Piece.text)))
  rw [← hbody] at hbrackets
  exact ⟨rfl, hterminal, ⟨console.html d width, rfl, hread, hread.eq_of_fitsIn, hbrackets⟩,
    hterminal.eq_of_fitsIn⟩

/-- A document whose text looks like tags and entities, in a style, in an unknown style and in
none, over two lines, the second with a blank at its end. -/
def markupDocument : Document :=
  ⟨[⟨"<b>&amp;", some "red"⟩, ⟨"</span>\n[0m", some "red"⟩, ⟨"it's", some "no-such-style"⟩,
    ⟨"\x22> ", none⟩], 2, 0⟩

/-- Such a document is legible in every format, also where the console cuts off the blank. -/
theorem render_legible_markupDocument :
    ((Console.basic true).Emits ∧ '\t' ∉ markupDocument.plain ∧ escape ∉ markupDocument.plain ∧
      (Console.basic true).Unlinked markupDocument) ∧
    Text.CutLines 3 markupDocument.plain
      (withoutSequences ((Console.basic true).render markupDocument 3 .ansi)) ∧
    withoutSequences ((Console.basic true).render markupDocument 20 .ansi) =
      markupDocument.plain := by
  have hc := Console.emits_basic true
  have htab : '\t' ∉ markupDocument.plain := by decide +kernel
  have hescape : escape ∉ markupDocument.plain := by decide +kernel
  have hlinks : (Console.basic true).Unlinked markupDocument := by
    unfold Console.Unlinked
    decide +kernel
  have hfits : ∀ line ∈ markupDocument.lines, line.FitsIn 20 := by
    unfold Text.FitsIn
    decide +kernel
  exact ⟨⟨hc, htab, hescape, hlinks⟩, (render_legible hc htab hescape hlinks (by decide)).2.1,
    (render_legible hc htab hescape hlinks (by decide)).2.2.2 hfits⟩

/-- A document with a link. -/
def linkedDocument : Document := ⟨[⟨['a'], some "link b"⟩], 2, 0⟩

/-- A link stands in tags that are no tags of spans; at a width without room nothing is written; and
a console may cut off blanks beyond the width. -/
theorem render_illegible :
    '<' ∈ withoutTags ((Console.basic false).html linkedDocument 100) ∧
      (Console.basic false).render ⟨[⟨['a'], none⟩], 2, 0⟩ 0 .ansi = [] ∧
      (Console.basic true).render ⟨[⟨['a', ' '], none⟩], 2, 0⟩ 1 .ansi = ['a'] := by
  decide +kernel

end Document

end Expectation
