import Mathlib.Data.List.Basic
import Expectation.Proofs.Document.Rows

/-!
# Alignment of blocks

A character has the style of the range that covers its position. A document that is set as a block
has its first line on the line where the other document ends, and each further one behind spaces up
to that column. Its characters keep their styles at their new positions, except for the newlines,
which lose them.
-/

namespace Expectation

/-- The range covers a position. -/
def Span.covers (span : Span) (position : Nat) : Bool :=
  span.start ≤ position && position < span.stop

/-- The style of the first range that covers a position, if there is one. -/
def Span.styleAmong (spans : List Span) (position : Nat) : Option Style :=
  (spans.find? (·.covers position)).map Span.style

namespace Document

/-- The style of the character at a position. -/
def styleAt (d : Document) (position : Nat) : Option Style := Span.styleAmong d.spans position

/-- The position at which a block has the character of a document that is at some position: one
margin further for each newline before. -/
def alignedPosition (d other : Document) (position : Nat) : Nat :=
  d.plain.length + position + d.column * (other.plain.take position).count '\n'

/-! ### Styles and ranges -/

private theorem styleAmong_spansFrom_cons (start position : Nat) (run : Run) (rest : List Run) :
    Span.styleAmong (spansFrom start (run :: rest)) position =
      if start ≤ position ∧ position < start + run.text.length then
        run.style.or (Span.styleAmong (spansFrom (start + run.text.length) rest) position)
      else Span.styleAmong (spansFrom (start + run.text.length) rest) position := by
  obtain ⟨text, style⟩ := run
  cases style with
  | none => simp [spansFrom]
  | some name =>
    by_cases hempty : text = []
    · rw [if_neg (by simp [hempty])]
      simp [spansFrom, hempty]
    · rw [spansFrom, if_neg hempty, Span.styleAmong, List.find?_cons]
      by_cases hcovers : start ≤ position ∧ position < start + text.length
      · simp [Span.covers, hcovers]
      · have hnot : Span.covers ⟨start, start + text.length, name⟩ position = false := by
          simpa [Span.covers] using hcovers
        rw [if_neg hcovers, hnot]
        rfl

private theorem styleAmong_spansFrom_of_lt {start position : Nat} (h : position < start)
    (runs : List Run) : Span.styleAmong (spansFrom start runs) position = none := by
  induction runs generalizing start with
  | nil => rfl
  | cons run rest ih =>
    rw [styleAmong_spansFrom_cons, if_neg (by omega)]
    exact ih (by omega)

private theorem getElem?_glyphsOf (runs : List Run) (start i : Nat) :
    (glyphsOf runs)[i]? =
      (textOf runs)[i]?.map (·, Span.styleAmong (spansFrom start runs) (start + i)) := by
  induction runs generalizing start i with
  | nil => rfl
  | cons run rest ih =>
    rw [glyphsOf, textOf, List.flatMap_cons, List.flatMap_cons, styleAmong_spansFrom_cons]
    by_cases hi : i < run.text.length
    · -- No range of a later run covers a position of this one.
      have hlater : Span.styleAmong (spansFrom (start + run.text.length) rest) (start + i) = none :=
        styleAmong_spansFrom_of_lt (by omega) rest
      rw [if_pos (by omega), hlater, Option.or_none, List.getElem?_append_left hi,
        List.getElem?_append_left (by simpa [Run.glyphs] using hi), Run.glyphs, List.getElem?_map]
    · have hpos : start + i = start + run.text.length + (i - run.text.length) := by omega
      have hlength : run.glyphs.length = run.text.length := List.length_map _
      rw [if_neg (by omega), List.getElem?_append_right (by omega),
        List.getElem?_append_right (by omega), hlength, hpos]
      exact ih _ _

/-- A glyph is the character at its position in the style of the range that covers it. -/
theorem getElem?_glyphs (d : Document) (i : Nat) :
    d.glyphs[i]? = d.plain[i]?.map (·, d.styleAt i) := by
  have h := getElem?_glyphsOf d.runs 0 i
  rw [Nat.zero_add] at h
  exact h

/-! ### Positions in a block -/

private theorem getElem?_flatMap_aligned (margin : Nat) {glyphs : List Glyph} {k j : Nat}
    {g : Glyph} (h : glyphs[k]? = some g) (hj : j < (Glyph.aligned margin g).length) :
    (glyphs.flatMap (Glyph.aligned margin))[
      k + margin * (glyphs.take k).countP Glyph.isBreak + j]? = (Glyph.aligned margin g)[j]? := by
  induction glyphs generalizing k with
  | nil => simp at h
  | cons first rest ih =>
    rw [List.flatMap_cons]
    cases k with
    | zero =>
      obtain rfl : first = g := by simpa using h
      rw [List.take_zero, List.countP_nil, Nat.mul_zero, Nat.add_zero, Nat.zero_add,
        List.getElem?_append_left hj]
    | succ k =>
      have hlength : (Glyph.aligned margin first).length =
          1 + margin * if first.isBreak then 1 else 0 := by
        rw [Glyph.aligned]
        split <;> simp [Glyph.blanks, Nat.add_comm]
      rw [List.take_succ_cons, List.countP_cons, Nat.mul_add,
        List.getElem?_append_right (by rw [hlength]; omega), ← ih h, hlength]
      congr 1
      omega

private theorem getElem?_block (d other : Document) {k j : Nat} {g : Glyph}
    (h : other.glyphs[k]? = some g) (hj : j < (Glyph.aligned d.column g).length) :
    (d.block other).glyphs[alignedPosition d other k + j]? = (Glyph.aligned d.column g)[j]? := by
  have hlength : d.glyphs.length = d.plain.length := by
    rw [plain_eq_glyphs, List.length_map]
  have hcount : (other.plain.take k).count '\n' = (other.glyphs.take k).countP Glyph.isBreak := by
    rw [plain_eq_glyphs, ← List.map_take, List.count_eq_countP, List.countP_map]
    rfl
  rw [glyphs_block, alignedPosition, hcount, Nat.add_assoc, Nat.add_assoc,
    List.getElem?_append_right (by omega), hlength, Nat.add_sub_cancel_left, ← Nat.add_assoc,
    getElem?_flatMap_aligned _ h hj]

private theorem plain_styleAt_of_glyphs {d : Document} {i : Nat} {g : Glyph}
    (h : d.glyphs[i]? = some g) : d.plain[i]? = some g.1 ∧ d.styleAt i = g.2 := by
  rw [getElem?_glyphs, Option.map_eq_some_iff] at h
  obtain ⟨c, hc, rfl⟩ := h
  exact ⟨hc, rfl⟩

private theorem exists_glyphs_of_plain {d : Document} {i : Nat} {c : Char}
    (h : d.plain[i]? = some c) : d.glyphs[i]? = some (c, d.styleAt i) := by
  rw [getElem?_glyphs, h]
  rfl

/-- What a document shows at a position stays when another is set as a block behind it. -/
theorem block_stays {d : Document} (other : Document) {i : Nat} {c : Char}
    (h : d.plain[i]? = some c) :
    (d.block other).plain[i]? = some c ∧ (d.block other).styleAt i = d.styleAt i := by
  have hg := exists_glyphs_of_plain h
  refine plain_styleAt_of_glyphs (g := (c, d.styleAt i)) ?_
  rw [glyphs_block, List.getElem?_append_left (List.getElem?_eq_some_iff.1 hg).1, hg]

/-- A character that is no newline keeps its style in a block. -/
theorem block_moves (d : Document) {other : Document} {k : Nat} {c : Char}
    (h : other.plain[k]? = some c) (hc : c ≠ '\n') :
    (d.block other).plain[d.alignedPosition other k]? = some c ∧
      (d.block other).styleAt (d.alignedPosition other k) = other.styleAt k := by
  have haligned : Glyph.aligned d.column (c, other.styleAt k) = [(c, other.styleAt k)] :=
    if_neg (by simp [Glyph.isBreak, hc])
  have hat := getElem?_block d other (j := 0) (exists_glyphs_of_plain h) (by simp [haligned])
  rw [haligned] at hat
  exact plain_styleAt_of_glyphs hat

/-- A newline has no style in a block, and neither have the spaces that are put behind it. -/
theorem block_breaks (d : Document) {other : Document} {k : Nat}
    (h : other.plain[k]? = some '\n') :
    ((d.block other).plain[d.alignedPosition other k]? = some '\n' ∧
      (d.block other).styleAt (d.alignedPosition other k) = none) ∧
    ∀ j < d.column,
      (d.block other).plain[d.alignedPosition other k + (j + 1)]? = some ' ' ∧
        (d.block other).styleAt (d.alignedPosition other k + (j + 1)) = none := by
  have haligned : Glyph.aligned d.column ('\n', other.styleAt k) =
      ('\n', none) :: Glyph.blanks d.column := if_pos rfl
  have hat : ∀ j < d.column + 1, (d.block other).glyphs[d.alignedPosition other k + j]? =
      (('\n', none) :: Glyph.blanks d.column)[j]? := by
    intro j hj
    have hlength : j < (Glyph.aligned d.column ('\n', other.styleAt k)).length := by
      simpa [haligned, Glyph.blanks] using hj
    rw [getElem?_block d other (exists_glyphs_of_plain h) hlength, haligned]
  refine ⟨plain_styleAt_of_glyphs (hat 0 (by omega)), fun j hj => ?_⟩
  refine plain_styleAt_of_glyphs (g := (' ', none)) ?_
  rw [hat (j + 1) (by omega), List.getElem?_cons_succ, Glyph.blanks,
    List.getElem?_replicate_of_lt hj]

/-- A block has the lines of a document with the last one extended by the first line of the other,
and each further line of the other behind spaces up to the column where the document ended. Every
character of the document stays as it is. A character of the other, which may be the document
itself, has its style at its new position, unless it is a newline: newlines have no style there,
and the spaces behind them have none. -/
theorem block_alignsLines (d other : Document) :
    ∃ above last first below,
      d.lines = above ++ [last] ∧ other.lines = first :: below ∧ d.column = last.length ∧
      (d.block other).lines =
        above ++ (last ++ first) :: below.map (List.replicate last.length ' ' ++ ·) ∧
      (d.block other).height = d.height + other.height - 1 ∧
      (∀ i c, d.plain[i]? = some c →
        (d.block other).plain[i]? = some c ∧ (d.block other).styleAt i = d.styleAt i) ∧
      (∀ k c, other.plain[k]? = some c → c ≠ '\n' →
        (d.block other).plain[d.alignedPosition other k]? = some c ∧
          (d.block other).styleAt (d.alignedPosition other k) = other.styleAt k) ∧
      ∀ k, other.plain[k]? = some '\n' →
        ((d.block other).plain[d.alignedPosition other k]? = some '\n' ∧
          (d.block other).styleAt (d.alignedPosition other k) = none) ∧
        ∀ j < d.column,
          (d.block other).plain[d.alignedPosition other k + (j + 1)]? = some ' ' ∧
            (d.block other).styleAt (d.alignedPosition other k + (j + 1)) = none := by
  obtain ⟨above, last, habove⟩ := d.exists_rows_eq_append
  obtain ⟨first, below, hbelow⟩ := other.exists_rows_eq_cons
  have hlines : d.lines = above.map (List.map Prod.fst) ++ [last.map Prod.fst] := by
    rw [lines_eq_rows, habove, List.map_append, List.map_cons, List.map_nil]
  have hothers : other.lines = first.map Prod.fst :: below.map (List.map Prod.fst) := by
    rw [lines_eq_rows, hbelow, List.map_cons]
  have hcolumn : d.column = (last.map Prod.fst).length := by
    rw [column_eq habove, List.length_map]
  have hblock : (d.block other).lines = above.map (List.map Prod.fst) ++
      (last.map Prod.fst ++ first.map Prod.fst) ::
        (below.map (List.map Prod.fst)).map
          (List.replicate (last.map Prod.fst).length ' ' ++ ·) := by
    rw [lines_eq_rows, rows_block habove hbelow, hcolumn]
    simp [Glyph.blanks, Function.comp_def]
  refine ⟨_, _, _, _, hlines, hothers, hcolumn, hblock, ?_, fun _ _ => block_stays other,
    fun _ _ => block_moves d, fun _ => block_breaks d⟩
  rw [height, height, height, hblock, hlines, hothers]
  simp
  omega

-- A document of two lines that is set as a block behind itself.
example :
    let d := (empty 2).text "a\nb"
    (d.block d).lines = ["a", "ba", " b"].map String.toList := by
  decide

end Document

end Expectation
