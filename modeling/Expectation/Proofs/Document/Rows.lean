import Expectation.Document.Basic
import Expectation.Proofs.Text.Lines

/-!
# Rows of a document

A document is a sequence of characters each of which has a style or none, cut into rows at the
newlines. Rows tell what a document shows: its lines with the style of every character. Appending
concatenates, and a block goes on in the row where it begins and pads every further one.
-/

namespace Expectation

/-- A character with its style. -/
abbrev Glyph := Char × Option Style

namespace Glyph

/-- A character that ends a row. -/
def isBreak (g : Glyph) : Bool := g.1 = '\n'

/-- Spaces without style. -/
def blanks (n : Nat) : List Glyph := List.replicate n (' ', none)

/-- What a glyph becomes in a block: a break loses its style and is followed by the margin of the
next row, and every other glyph stays. -/
def aligned (margin : Nat) (g : Glyph) : List Glyph :=
  if g.isBreak then ('\n', none) :: blanks margin else [g]

end Glyph

/-- The glyphs of a run. -/
def Run.glyphs (run : Run) : List Glyph := run.text.map (·, run.style)

namespace Document

/-- The glyphs of runs. -/
def glyphsOf (runs : List Run) : List Glyph := runs.flatMap Run.glyphs

/-- The glyphs of a document. -/
def glyphs (d : Document) : List Glyph := glyphsOf d.runs

/-- The rows of a document; there is always at least one. -/
def rows (d : Document) : List (List Glyph) := d.glyphs.splitOnP Glyph.isBreak

/-- The text of a document is the text of its glyphs. -/
theorem plain_eq_glyphs (d : Document) : d.plain = d.glyphs.map Prod.fst := by
  simp [plain, textOf, glyphs, glyphsOf, List.map_flatMap, Run.glyphs, Function.comp_def]

private theorem splitOn_eq_splitOnP (t : Text) :
    Text.splitOn '\n' t = t.splitOnP (· = '\n') := by
  induction t with
  | nil => rfl
  | cons c rest ih =>
    rw [List.splitOnP_cons_eq_if_modifyHead, Text.splitOn, ih]
    by_cases h : c = '\n'
    · simp [h]
    · obtain ⟨piece, pieces, hp⟩ :=
        List.exists_cons_of_ne_nil (List.splitOnP_ne_nil (· = '\n') rest)
      simp [h, hp]

private theorem map_splitOnP (glyphs : List Glyph) :
    (glyphs.splitOnP Glyph.isBreak).map (List.map Prod.fst) =
      (glyphs.map Prod.fst).splitOnP (· = '\n') := by
  induction glyphs with
  | nil => rfl
  | cons g rest ih =>
    rw [List.map_cons, List.splitOnP_cons_eq_if_modifyHead, List.splitOnP_cons_eq_if_modifyHead,
      ← ih]
    obtain ⟨row, others, hr⟩ :=
      List.exists_cons_of_ne_nil (List.splitOnP_ne_nil Glyph.isBreak rest)
    by_cases h : g.1 = '\n'
    · simp [Glyph.isBreak, h]
    · simp [Glyph.isBreak, h, hr]

/-- The lines of a document are the texts of its rows. -/
theorem lines_eq_rows (d : Document) : d.lines = d.rows.map (List.map Prod.fst) := by
  rw [lines, Text.lines, splitOn_eq_splitOnP, plain_eq_glyphs, rows, map_splitOnP]

@[simp] theorem glyphs_append (d other : Document) :
    (d.append other).glyphs = d.glyphs ++ other.glyphs := by
  simp [glyphs, glyphsOf, append]

/-- Written text comes at the end, without the characters that documents do not take. -/
theorem glyphs_text (d : Document) (content : Text) (style : Option Style) :
    (d.text content style).glyphs =
      d.glyphs ++ (content.filter (!isDropped ·)).map (·, style.filter (· ≠ [])) := by
  simp [glyphs, glyphsOf, text, Run.glyphs]

@[simp] theorem glyphs_spaces (d : Document) (count : Int) :
    (d.spaces count).glyphs = d.glyphs ++ Glyph.blanks count.toNat := by
  rw [spaces, glyphs_text]
  simp [Text.repeated, Glyph.blanks, isDropped]

@[simp] theorem glyphs_newlines (d : Document) (count : Int) :
    (d.newlines count).glyphs = d.glyphs ++ List.replicate count.toNat ('\n', none) := by
  rw [newlines, glyphs_text]
  simp [Text.repeated, isDropped]

@[simp] theorem glyphs_indent (d : Document) : d.indent.glyphs = d.glyphs := rfl

@[simp] theorem glyphs_outdent (d : Document) : d.outdent.glyphs = d.glyphs := rfl

-- A run is cut where its text is, and its last piece begins the row that follows.
private theorem glyphsOf_prependPieces (style : Option Style) (t : Text) (lines : List (List Run))
    (rest : List Glyph) (h : lines.map glyphsOf = rest.splitOnP Glyph.isBreak) :
    (prependPieces style (Text.splitOn '\n' t) lines).map glyphsOf =
      (t.map (·, style) ++ rest).splitOnP Glyph.isBreak := by
  obtain ⟨line, others, rfl⟩ := List.exists_cons_of_ne_nil (l := lines) (by
    rintro rfl
    exact List.splitOnP_ne_nil _ _ h.symm)
  induction t with
  | nil => simpa [Text.splitOn, prependPieces, glyphsOf, Run.glyphs] using h
  | cons c tail ih =>
    obtain ⟨piece, pieces, hp⟩ := List.exists_cons_of_ne_nil (Text.splitOn_ne_nil '\n' tail)
    rw [List.map_cons, List.cons_append, List.splitOnP_cons_eq_if_modifyHead, ← ih]
    by_cases hc : c = '\n'
    · simp [Text.splitOn, hc, hp, prependPieces, glyphsOf, Run.glyphs, Glyph.isBreak]
    · cases pieces with
      | nil => simp [Text.splitOn, hc, hp, prependPieces, glyphsOf, Run.glyphs, Glyph.isBreak]
      | cons next pieces =>
        simp [Text.splitOn, hc, hp, prependPieces, glyphsOf, Run.glyphs, Glyph.isBreak]

/-- Runs cut line by line are cut where their glyphs are. -/
theorem glyphsOf_runLines (runs : List Run) :
    (runLines runs).map glyphsOf = (glyphsOf runs).splitOnP Glyph.isBreak := by
  induction runs with
  | nil => rfl
  | cons run rest ih =>
    rw [runLines, Text.lines, glyphsOf_prependPieces _ _ _ _ ih]
    rfl

/-- Runs have at least one line. -/
theorem runLines_ne_nil (runs : List Run) : runLines runs ≠ [] := by
  intro hnil
  have hrows := glyphsOf_runLines runs
  rw [hnil] at hrows
  exact List.splitOnP_ne_nil _ _ hrows.symm

/-- The texts of the cut runs of a document are its lines. -/
theorem map_textOf_runLines (d : Document) : (runLines d.runs).map textOf = d.lines := by
  have hrows : (runLines d.runs).map glyphsOf = d.rows := glyphsOf_runLines d.runs
  have htext : ∀ line : List Run, textOf line = (glyphsOf line).map Prod.fst :=
    fun line => plain_eq_glyphs ⟨line, 0, 0⟩
  rw [lines_eq_rows, ← hrows, List.map_map]
  exact List.map_congr_left fun line _ => htext line

private theorem glyphs_block_intercalate (d other : Document) :
    (d.block other).glyphs =
      d.glyphs ++ List.intercalate (('\n', none) :: Glyph.blanks d.column) other.rows := by
  have hrows : (runLines other.runs).map glyphsOf = other.rows := glyphsOf_runLines other.runs
  rw [block, ← hrows]
  cases hl : runLines other.runs with
  | nil => exact absurd hl (runLines_ne_nil other.runs)
  | cons first rest =>
    clear hrows hl
    simp only [glyphs, glyphsOf, List.flatMap_append, List.append_assoc, List.append_cancel_left_eq]
    induction rest generalizing first with
    | nil => simp [glyphsOf]
    | cons next rest ih =>
      have hn := ih next
      simp only [List.flatMap_cons, List.flatMap_append, List.map_cons] at hn ⊢
      rw [List.intercalate_cons_cons, ← hn]
      simp [Run.glyphs, Glyph.blanks, glyphsOf]

/-- A block writes the glyphs of a document as they are, but for the breaks. -/
theorem glyphs_block (d other : Document) :
    (d.block other).glyphs = d.glyphs ++ other.glyphs.flatMap (Glyph.aligned d.column) := by
  rw [glyphs_block_intercalate, rows, List.append_cancel_left_eq]
  induction other.glyphs with
  | nil => rfl
  | cons g rest ih =>
    obtain ⟨row, others, hr⟩ :=
      List.exists_cons_of_ne_nil (List.splitOnP_ne_nil Glyph.isBreak rest)
    rw [hr] at ih
    rw [List.splitOnP_cons_eq_if_modifyHead, List.flatMap_cons, ← ih, hr, Glyph.aligned]
    split
    · rw [List.intercalate_cons_cons, List.nil_append]
    · rw [List.modifyHead_cons]
      cases others with
      | nil => rfl
      | cons next others => rw [List.intercalate_cons_cons, List.intercalate_cons_cons]; rfl

private theorem isBreak_of_mem_blanks {n : Nat} {g : Glyph} (h : g ∈ Glyph.blanks n) :
    g.isBreak = false := by
  rw [(List.mem_replicate.1 h).2]
  rfl

private theorem exists_splitOnP_eq_append (glyphs : List Glyph) :
    ∃ above last, glyphs.splitOnP Glyph.isBreak = above ++ [last] := by
  rcases List.eq_nil_or_concat (glyphs.splitOnP Glyph.isBreak) with hnil | ⟨above, last, hrows⟩
  · exact absurd hnil (List.splitOnP_ne_nil _ _)
  · exact ⟨above, last, by rw [hrows, List.concat_eq_append]⟩

-- The last row of the first glyphs and the first row of the others become one.
private theorem splitOnP_append {glyphs others last first : List Glyph}
    {above below : List (List Glyph)} (h : glyphs.splitOnP Glyph.isBreak = above ++ [last])
    (h' : others.splitOnP Glyph.isBreak = first :: below) :
    (glyphs ++ others).splitOnP Glyph.isBreak = above ++ (last ++ first) :: below := by
  induction glyphs generalizing above last with
  | nil =>
    rw [List.splitOnP_nil, ← List.nil_append [([] : List Glyph)], List.append_singleton_inj] at h
    obtain ⟨rfl, rfl⟩ := h
    exact h'
  | cons g rest ih =>
    obtain ⟨init, final, hrest⟩ := exists_splitOnP_eq_append rest
    rw [List.cons_append, List.splitOnP_cons_eq_if_modifyHead, ih hrest]
    rw [List.splitOnP_cons_eq_if_modifyHead, hrest] at h
    split at h
    · next hbreak =>
      rw [← List.cons_append, List.append_singleton_inj] at h
      obtain ⟨rfl, rfl⟩ := h
      rw [if_pos hbreak, List.cons_append]
    · next hbreak =>
      rw [if_neg hbreak]
      cases init with
      | nil =>
        rw [List.nil_append, List.modifyHead_cons, ← List.nil_append [g :: final],
          List.append_singleton_inj] at h
        obtain ⟨rfl, rfl⟩ := h
        rfl
      | cons row init =>
        rw [List.cons_append, List.modifyHead_cons, ← List.cons_append,
          List.append_singleton_inj] at h
        obtain ⟨rfl, rfl⟩ := h
        rfl

private theorem splitOnP_flatMap_aligned (margin : Nat) {glyphs first : List Glyph}
    {below : List (List Glyph)} (h : glyphs.splitOnP Glyph.isBreak = first :: below) :
    (glyphs.flatMap (Glyph.aligned margin)).splitOnP Glyph.isBreak =
      first :: below.map (Glyph.blanks margin ++ ·) := by
  induction glyphs generalizing first below with
  | nil =>
    cases h
    rfl
  | cons g rest ih =>
    obtain ⟨row, others, hr⟩ :=
      List.exists_cons_of_ne_nil (List.splitOnP_ne_nil Glyph.isBreak rest)
    rw [List.splitOnP_cons_eq_if_modifyHead, hr] at h
    rw [List.flatMap_cons, Glyph.aligned]
    split at h
    · next hbreak =>
      cases h
      have hmargin : (Glyph.blanks margin).splitOnP Glyph.isBreak = [] ++ [Glyph.blanks margin] :=
        List.splitOnP_eq_singleton fun _ => isBreak_of_mem_blanks
      rw [if_pos hbreak, List.cons_append, List.splitOnP_cons_eq_if_modifyHead,
        splitOnP_append hmargin (ih hr)]
      rfl
    · next hbreak =>
      rw [List.modifyHead_cons] at h
      cases h
      rw [if_neg hbreak, List.singleton_append, List.splitOnP_cons_eq_if_modifyHead,
        if_neg hbreak, ih hr]
      rfl

/-- The rows of a block are those of the document, the last one going on as the first row of the
other, and then the further rows of the other, each behind spaces up to the column. -/
theorem rows_block {d other : Document} {above below : List (List Glyph)} {last first : List Glyph}
    (h : d.rows = above ++ [last]) (h' : other.rows = first :: below) :
    (d.block other).rows =
      above ++ (last ++ first) :: below.map (Glyph.blanks d.column ++ ·) := by
  rw [rows, glyphs_block]
  exact splitOnP_append h (splitOnP_flatMap_aligned _ h')

/-- A document has a last row. -/
theorem exists_rows_eq_append (d : Document) : ∃ above last, d.rows = above ++ [last] :=
  exists_splitOnP_eq_append d.glyphs

/-- A document has a first row. -/
theorem exists_rows_eq_cons (d : Document) : ∃ first below, d.rows = first :: below :=
  List.exists_cons_of_ne_nil (List.splitOnP_ne_nil _ _)

/-- The column is the length of the last row. -/
theorem column_eq {d : Document} {above : List (List Glyph)} {last : List Glyph}
    (h : d.rows = above ++ [last]) : d.column = last.length := by
  have hlines : d.lines = above.map (List.map Prod.fst) ++ [last.map Prod.fst] := by
    rw [lines_eq_rows, h, List.map_append, List.map_cons, List.map_nil]
  rw [column, Text.lastLine_eq_of_lines hlines, List.length_map]

/-- Indentation below a document that is not indented is a break and a margin. -/
theorem glyphs_newlines_indentation (d : Document) (hl : d.level = 0) {width : Nat}
    (hw : d.indentWidth = width) :
    d.newlines.indent.indentation.glyphs = d.glyphs ++ ('\n', none) :: Glyph.blanks width := by
  rw [indentation, glyphs_spaces, glyphs_indent, glyphs_newlines]
  simp [indent, newlines, text, hl, hw]

/-- An indented row of spaces comes below the rows of a document that is not indented. -/
theorem rows_newlines_indentation (d : Document) (hl : d.level = 0) {width : Nat}
    (hw : d.indentWidth = width) :
    d.newlines.indent.indentation.rows = d.rows ++ [Glyph.blanks width] := by
  rw [rows, d.glyphs_newlines_indentation hl hw, List.splitOnP_append_cons _ _ rfl,
    List.splitOnP_eq_singleton fun _ => isBreak_of_mem_blanks]
  rfl

/-- Indentation below a document that is not indented ends at the indentation width. -/
theorem column_newlines_indentation (d : Document) (hl : d.level = 0) {width : Nat}
    (hw : d.indentWidth = width) : d.newlines.indent.indentation.column = width := by
  rw [column_eq (d.rows_newlines_indentation hl hw), Glyph.blanks, List.length_replicate]

/-- A document that is set as a block on an indented row of its own is aligned to the
indentation. -/
theorem glyphs_newlines_block (d other : Document) (hl : d.level = 0) {width : Nat}
    (hw : d.indentWidth = width) :
    (d.newlines.indent.indentation.block other).glyphs = d.glyphs ++
      ('\n', none) :: Glyph.blanks width ++ other.glyphs.flatMap (Glyph.aligned width) := by
  rw [glyphs_block, d.column_newlines_indentation hl hw, d.glyphs_newlines_indentation hl hw]

/-- The rows of a document that is set as a block on an indented row of its own come after the
rows above, each behind the indentation. -/
theorem rows_newlines_block (d other : Document) (hl : d.level = 0) {width : Nat}
    (hw : d.indentWidth = width) :
    (d.newlines.indent.indentation.block other).rows =
      d.rows ++ other.rows.map (Glyph.blanks width ++ ·) := by
  obtain ⟨first, below, hbelow⟩ := other.exists_rows_eq_cons
  rw [rows_block (d.rows_newlines_indentation hl hw) hbelow, hbelow,
    d.column_newlines_indentation hl hw, List.map_cons]

/-- The rows of a text in one style that is written on rows of its own below a document, with an
empty row above and below. -/
theorem rows_heading_append (d other : Document) (heading : Text) (style : Style)
    (hs : style ≠ []) (hh : ∀ c ∈ heading, c ≠ '\n' ∧ isDropped c = false) :
    ((((d.newlines 2).text heading (some style)).newlines 2).append other).rows =
      d.rows ++ [[], heading.map (·, some style), []] ++ other.rows := by
  have hfilter : heading.filter (!isDropped ·) = heading :=
    List.filter_eq_self.2 fun c hc => by simp [(hh c hc).2]
  have hplain : ∀ g ∈ heading.map (·, some style), Glyph.isBreak g = false := by
    intro g hg
    obtain ⟨c, hc, rfl⟩ := List.mem_map.1 hg
    simp [Glyph.isBreak, (hh c hc).1]
  have hglyphs : ((((d.newlines 2).text heading (some style)).newlines 2).append other).glyphs =
      d.glyphs ++ ('\n', none) :: ([] ++ ('\n', none) :: (heading.map (·, some style) ++
        ('\n', none) :: ([] ++ ('\n', none) :: other.glyphs))) := by
    rw [glyphs_append, glyphs_newlines, glyphs_text, glyphs_newlines, hfilter]
    simp [hs]
  rw [rows, hglyphs, List.splitOnP_append_cons _ _ rfl, List.splitOnP_append_cons _ _ rfl,
    List.splitOnP_append_cons_of_forall_mem hplain _ rfl, List.splitOnP_append_cons _ _ rfl]
  simp [rows]

end Document

end Expectation
