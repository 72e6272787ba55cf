import Expectation.Proofs.Document.Alignment

/-!
# Ranges of a text

Instead of its runs a text may keep the ranges that are styled in it. What is written comes at the
end with its range; an appended text brings its ranges, moved by the length of the text before it;
and a text that is cut into lines has its ranges cut where the lines are. What is kept so are the
ranges of the runs, except that a range may be empty where a run has no text.
-/

namespace Expectation

namespace Span

/-- The range has a position. -/
def isNonempty (span : Span) : Bool := span.start < span.stop

/-- The range between two positions in a style, if there is one. -/
def rangeOf (start stop : Nat) (style : Option Style) : List Span :=
  (style.map fun name => ⟨start, stop, name⟩).toList

/-- The range moved further on. -/
def shift (offset : Nat) (span : Span) : Span :=
  ⟨span.start + offset, span.stop + offset, span.style⟩

/-- What a range has of the positions from `first` up to but not including `past`, counted from
`first`, if it has any of them. -/
def clip? (first past : Nat) (span : Span) : Option Span :=
  let start := span.start - first
  let stop := min span.stop past - first
  if start < stop then some ⟨start, stop, span.style⟩ else none

/-- Ranges as a text of some length may have them: listed in increasing order, no two with a
position in common, and each with a position and within the text. -/
structure WellFormed (length : Nat) (spans : List Span) : Prop where
  increasing : spans.Pairwise fun a b => a.start < b.start
  disjoint : spans.Pairwise fun a b => ∀ position, a.covers position → b.covers position = false
  within : ∀ span ∈ spans, span.start < span.stop ∧ span.stop ≤ length

theorem bounds_of_mem_rangeOf {start stop : Nat} {style : Option Style} {span : Span}
    (h : span ∈ rangeOf start stop style) : span.start = start ∧ span.stop = stop := by
  obtain ⟨name, -, rfl⟩ := Option.map_eq_some_iff.1 (Option.mem_toList.1 h)
  exact ⟨rfl, rfl⟩

theorem rangeOf_add (start stop offset : Nat) (style : Option Style) :
    rangeOf (start + offset) (stop + offset) style =
      (rangeOf start stop style).map (shift offset) := by
  cases style <;> rfl

/-- Ranges that move stay empty or not. -/
theorem filter_isNonempty_map_shift (offset : Nat) (spans : List Span) :
    (spans.map (shift offset)).filter isNonempty =
      (spans.filter isNonempty).map (shift offset) := by
  have hsame : isNonempty ∘ shift offset = isNonempty := by
    funext span
    simp [isNonempty, shift]
  rw [List.filter_map, hsame]

/-- A range that ends before a piece has no part in it. -/
theorem clip?_of_stop_le {span : Span} {first : Nat} (h : span.stop ≤ first) (past : Nat) :
    span.clip? first past = none :=
  if_neg (by omega)

/-- A range that starts behind a piece has no part in it. -/
theorem clip?_of_le_start {span : Span} {past : Nat} (h : past ≤ span.start) (first : Nat) :
    span.clip? first past = none :=
  if_neg (by omega)

/-- An empty range has no part in any piece. -/
theorem clip?_of_empty {span : Span} (h : span.isNonempty = false) (first past : Nat) :
    span.clip? first past = none := by
  have hle : span.stop ≤ span.start := by simpa [isNonempty] using h
  exact if_neg (by omega)

/-- Where a range starts before a piece does not matter. -/
theorem clip?_start {start start' first : Nat} (h : start ≤ first) (h' : start' ≤ first)
    (stop past : Nat) (style : Style) :
    clip? first past ⟨start, stop, style⟩ = clip? first past ⟨start', stop, style⟩ := by
  rw [clip?, clip?, Nat.sub_eq_zero_of_le h, Nat.sub_eq_zero_of_le h']

/-- The part of a range in a piece that begins earlier is the same part, only further on. -/
theorem clip?_earlier {span : Span} {first later : Nat} (h : first ≤ later)
    (hstart : later ≤ span.start) (past : Nat) :
    span.clip? first past = (span.clip? later past).map (shift (later - first)) := by
  rw [clip?, clip?]
  by_cases hlt : span.start < min span.stop past
  · have hstart' : span.start - first = span.start - later + (later - first) := by omega
    have hstop : min span.stop past - first = min span.stop past - later + (later - first) := by
      omega
    rw [if_pos (by omega), if_pos (by omega), Option.map_some, shift, hstart', hstop]
  · rw [if_neg (by omega), if_neg (by omega), Option.map_none]

/-- Leaving out empty ranges leaves no part out. -/
theorem filterMap_clip?_filter (spans : List Span) (first past : Nat) :
    (spans.filter isNonempty).filterMap (clip? first past) =
      spans.filterMap (clip? first past) := by
  rw [List.filterMap_filter]
  refine List.filterMap_congr fun span _ => ?_
  split
  · rfl
  · next hempty => exact (clip?_of_empty (by simpa using hempty) first past).symm

/-- The part of a range in a piece that begins with it. -/
theorem filterMap_clip?_rangeOf (start stop past : Nat) (style : Option Style) :
    (rangeOf start stop style).filterMap (clip? start past) =
      (rangeOf 0 (min stop past - start) style).filter isNonempty := by
  cases style with
  | none => rfl
  | some name =>
    by_cases hlt : 0 < min stop past - start
    · simp [rangeOf, clip?, isNonempty, hlt]
    · simp [rangeOf, clip?, isNonempty, hlt]

/-- The parts of ranges in a piece that begins earlier are the same parts, only further on. -/
theorem filterMap_clip?_earlier {spans : List Span} {first later : Nat} (h : first ≤ later)
    (hspans : ∀ span ∈ spans, later ≤ span.start) (past : Nat) :
    spans.filterMap (clip? first past) =
      (spans.filterMap (clip? later past)).map (shift (later - first)) := by
  rw [List.map_filterMap]
  exact List.filterMap_congr fun span hspan => clip?_earlier h (hspans span hspan) past

end Span

/-- A text with the ranges that are styled in it, among which there may be empty ones. -/
structure RangedText where
  plain : Text
  spans : List Span
  deriving Repr, DecidableEq

namespace RangedText

/-- The text without characters. -/
def empty : RangedText := ⟨[], []⟩

/-- Write text at the end; in a style it makes a range there. -/
def write (t : RangedText) (content : Text) (style : Option Style) : RangedText :=
  let written := content.filter (!Document.isDropped ·)
  ⟨t.plain ++ written, t.spans ++
    Span.rangeOf t.plain.length (t.plain.length + written.length) (style.filter (· ≠ []))⟩

/-- Write another text at the end; its ranges move behind the text that is there. -/
def append (t other : RangedText) : RangedText :=
  ⟨t.plain ++ other.plain, t.spans ++ other.spans.map (Span.shift t.plain.length)⟩

/-- Lines, of which the first begins at a position, with what they have of some ranges. -/
def cut (spans : List Span) (start : Nat) : List Text → List RangedText
  | [] => []
  | line :: rest =>
    ⟨line, spans.filterMap (Span.clip? start (start + line.length))⟩ ::
      cut spans (start + line.length + 1) rest

/-- The lines of a text, each with its part of the ranges; the newlines are gone. -/
def lines (t : RangedText) : List RangedText := cut t.spans 0 (Text.lines t.plain)

/-- Write another text with each of its lines beginning at the present column. -/
def block (t other : RangedText) : RangedText :=
  let margin := '\n' :: List.replicate (Text.lastLine t.plain).length ' '
  match other.lines with
  | [] => t
  | first :: rest => rest.foldl (fun t line => (t.write margin none).append line) (t.append first)

/-- The text without its empty ranges. -/
def solid (t : RangedText) : RangedText := ⟨t.plain, t.spans.filter Span.isNonempty⟩

/-- The text of runs with their ranges. -/
def ofRuns (runs : List Run) : RangedText := ⟨Document.textOf runs, Document.spansFrom 0 runs⟩

end RangedText

namespace Document

/-! ### The ranges of runs -/

/-- The ranges of runs are that of the first run, unless it is empty, and those of the others. -/
theorem spansFrom_cons (start : Nat) (run : Run) (rest : List Run) :
    spansFrom start (run :: rest) =
      (Span.rangeOf start (start + run.text.length) run.style).filter Span.isNonempty ++
        spansFrom (start + run.text.length) rest := by
  obtain ⟨text, style⟩ := run
  cases style with
  | none => rfl
  | some name =>
    by_cases hempty : text = []
    · simp [spansFrom, Span.rangeOf, Span.isNonempty, hempty]
    · have hpos : 0 < text.length := List.length_pos_iff.2 hempty
      simp [spansFrom, Span.rangeOf, Span.isNonempty, hempty, hpos]

/-- The text of runs is that of the first run and of the others. -/
theorem textOf_cons (run : Run) (rest : List Run) :
    textOf (run :: rest) = run.text ++ textOf rest := rfl

/-- The ranges of runs are those of the first ones and, behind their text, of the others. -/
theorem spansFrom_append (start : Nat) (runs others : List Run) :
    spansFrom start (runs ++ others) =
      spansFrom start runs ++ spansFrom (start + (textOf runs).length) others := by
  induction runs generalizing start with
  | nil => rfl
  | cons run rest ih =>
    rw [List.cons_append, spansFrom_cons, spansFrom_cons, ih, List.append_assoc, textOf_cons,
      List.length_append, Nat.add_assoc]

/-- Runs that start further on have their ranges further on. -/
theorem spansFrom_add (start offset : Nat) (runs : List Run) :
    spansFrom (start + offset) runs = (spansFrom start runs).map (Span.shift offset) := by
  induction runs generalizing start with
  | nil => rfl
  | cons run rest ih =>
    rw [spansFrom_cons, spansFrom_cons, List.map_append, ← Span.filter_isNonempty_map_shift,
      ← Span.rangeOf_add, ← ih, Nat.add_right_comm start offset]

/-- The ranges of a document are those of what was written first and, moved behind its text, of
what was written then. -/
theorem spansFrom_zero_append (runs others : List Run) :
    spansFrom 0 (runs ++ others) =
      spansFrom 0 runs ++ (spansFrom 0 others).map (Span.shift (textOf runs).length) := by
  rw [spansFrom_append, spansFrom_add]

/-- The ranges of a first run and, moved behind its text, of the others. -/
theorem spansFrom_zero_cons (text : Text) (style : Option Style) (rest : List Run) :
    spansFrom 0 (⟨text, style⟩ :: rest) =
      (Span.rangeOf 0 text.length style).filter Span.isNonempty ++
        (spansFrom 0 rest).map (Span.shift text.length) := by
  rw [spansFrom_cons, ← spansFrom_add, Nat.zero_add]

/-- A range of runs has a position, and all its positions are in the text of the runs. -/
theorem bounds_of_mem_spansFrom {start : Nat} {runs : List Run} {span : Span}
    (h : span ∈ spansFrom start runs) :
    start ≤ span.start ∧ span.start < span.stop ∧ span.stop ≤ start + (textOf runs).length := by
  induction runs generalizing start with
  | nil => exact absurd h List.not_mem_nil
  | cons run rest ih =>
    rw [textOf_cons, List.length_append]
    rw [spansFrom_cons, List.mem_append, List.mem_filter] at h
    rcases h with ⟨hrange, hpos⟩ | hrest
    · have hbounds := Span.bounds_of_mem_rangeOf hrange
      have hlt : span.start < span.stop := of_decide_eq_true hpos
      omega
    · have hbounds := ih hrest
      omega

/-- A range of runs ends before every later one starts. -/
theorem pairwise_spansFrom (start : Nat) (runs : List Run) :
    (spansFrom start runs).Pairwise fun a b => a.stop ≤ b.start := by
  induction runs generalizing start with
  | nil => exact List.Pairwise.nil
  | cons run rest ih =>
    rw [spansFrom_cons, List.pairwise_append]
    refine ⟨?_, ih _, fun a ha b hb => ?_⟩
    · cases run.style with
      | none => exact List.Pairwise.nil
      | some name => exact (List.pairwise_singleton _ _).sublist List.filter_sublist
    · rw [(Span.bounds_of_mem_rangeOf (List.mem_of_mem_filter ha)).2]
      exact (bounds_of_mem_spansFrom hb).1

/-- A document that is appended brings its ranges, moved behind the text that is there. -/
theorem spans_append (d other : Document) :
    (d.append other).spans = d.spans ++ other.spans.map (Span.shift d.plain.length) :=
  spansFrom_zero_append d.runs other.runs

/-- The ranges of a document are well formed in its text. -/
theorem wellFormed_spans (d : Document) : Span.WellFormed d.plain.length d.spans where
  increasing := by
    refine (pairwise_spansFrom 0 d.runs).imp_of_mem fun ha _ hle => ?_
    have hbounds := bounds_of_mem_spansFrom ha
    omega
  disjoint := by
    refine (pairwise_spansFrom 0 d.runs).imp fun hle position hcovers => ?_
    simp only [Span.covers, Bool.and_eq_true, decide_eq_true_eq] at hcovers
    simp only [Span.covers, Bool.and_eq_false_iff, decide_eq_false_iff_not]
    omega
  within span hspan := by
    have hbounds := bounds_of_mem_spansFrom hspan
    rw [plain]
    omega

end Document

namespace RangedText

open Document (spansFrom textOf prependPieces runLines)

/-! ### Cutting -/

/-- Only what ranges have of a line and of what follows it matters for the lines. -/
theorem cut_congr {spans others : List Span} {start : Nat}
    (h : ∀ first, start ≤ first → ∀ past, spans.filterMap (Span.clip? first past) =
      others.filterMap (Span.clip? first past)) (texts : List Text) :
    cut spans start texts = cut others start texts := by
  induction texts generalizing start with
  | nil => rfl
  | cons line rest ih =>
    rw [cut, cut, h start (Nat.le_refl start),
      ih fun first hfirst => h first (by omega)]

/-- Ranges that end before a line are in no further line. -/
theorem cut_append_of_stop_le {before : List Span} {start : Nat}
    (h : ∀ span ∈ before, span.stop ≤ start) (spans : List Span) (texts : List Text) :
    cut (before ++ spans) start texts = cut spans start texts := by
  refine cut_congr (fun first hfirst past => ?_) texts
  have hnone : before.filterMap (Span.clip? first past) = [] :=
    List.filterMap_eq_nil_iff.2 fun span hspan =>
      Span.clip?_of_stop_le (by have := h span hspan; omega) past
  rw [List.filterMap_append, hnone, List.nil_append]

/-- A range that goes on over a line may as well start with the line. -/
theorem cut_rangeOf_append {start first : Nat} (h : start ≤ first) (stop : Nat)
    (style : Option Style) (spans : List Span) (texts : List Text) :
    cut (Span.rangeOf start stop style ++ spans) first texts =
      cut (Span.rangeOf first stop style ++ spans) first texts := by
  refine cut_congr (fun later hlater past => ?_) texts
  rw [List.filterMap_append, List.filterMap_append]
  cases style with
  | none => rfl
  | some name =>
    have hclip := Span.clip?_start (Nat.le_trans h hlater) hlater stop past name
    simp only [Span.rangeOf, Option.map_some, Option.toList_some, List.filterMap_cons,
      List.filterMap_nil, hclip]

-- The last piece of a cut run begins the line that follows it.
private theorem cut_lastPiece {style : Option Style} {piece : Text} {start : Nat}
    {spans : List Span} {line : List Run} {others : List (List Run)}
    (hspans : ∀ span ∈ spans, start + piece.length ≤ span.start)
    (h : cut spans (start + piece.length) ((line :: others).map textOf) =
      (line :: others).map ofRuns) :
    cut (Span.rangeOf start (start + piece.length) style ++ spans) start
        (((⟨piece, style⟩ :: line) :: others).map textOf) =
      ((⟨piece, style⟩ :: line) :: others).map ofRuns := by
  rw [List.map_cons, List.map_cons, cut, List.cons.injEq, ofRuns, mk.injEq] at h
  obtain ⟨⟨-, hline⟩, hothers⟩ := h
  have hfirst : (Span.rangeOf start (start + piece.length) style ++ spans).filterMap
      (Span.clip? start (start + (piece.length + (textOf line).length))) =
      spansFrom 0 (⟨piece, style⟩ :: line) := by
    rw [List.filterMap_append, Span.filterMap_clip?_rangeOf,
      Span.filterMap_clip?_earlier (Nat.le_add_right start piece.length) hspans, ← Nat.add_assoc,
      hline, Nat.min_eq_left (Nat.le_add_right _ _), Nat.add_sub_cancel_left,
      Document.spansFrom_zero_cons]
  have hends : ∀ span ∈ Span.rangeOf start (start + piece.length) style,
      span.stop ≤ start + (piece.length + (textOf line).length) + 1 := by
    intro span hspan
    have hbounds := Span.bounds_of_mem_rangeOf hspan
    omega
  rw [List.map_cons, List.map_cons, cut, Document.textOf_cons, List.length_append, hfirst,
    cut_append_of_stop_le hends, ← Nat.add_assoc, hothers]
  rfl

-- A piece of a cut run that another one follows is a line of its own.
private theorem cut_innerPiece {style : Option Style} {piece : Text} {start stop : Nat}
    {spans : List Span} {others : List (List Run)} (hstop : start + piece.length + 1 ≤ stop)
    (hspans : ∀ span ∈ spans, stop ≤ span.start)
    (h : cut (Span.rangeOf (start + piece.length + 1) stop style ++ spans)
      (start + piece.length + 1) (others.map textOf) = others.map ofRuns) :
    cut (Span.rangeOf start stop style ++ spans) start (([⟨piece, style⟩] :: others).map textOf) =
      ([⟨piece, style⟩] :: others).map ofRuns := by
  have hlater : spans.filterMap (Span.clip? start (start + piece.length)) = [] :=
    List.filterMap_eq_nil_iff.2 fun span hspan =>
      Span.clip?_of_le_start (by have := hspans span hspan; omega) start
  have hfirst : (Span.rangeOf start stop style ++ spans).filterMap
      (Span.clip? start (start + piece.length)) = spansFrom 0 [⟨piece, style⟩] := by
    rw [List.filterMap_append, Span.filterMap_clip?_rangeOf, hlater, Nat.min_eq_right (by omega),
      Nat.add_sub_cancel_left, Document.spansFrom_zero_cons]
    rfl
  have htext : textOf [⟨piece, style⟩] = piece := List.append_nil piece
  rw [List.map_cons, List.map_cons, cut, htext, hfirst, cut_rangeOf_append (by omega), h, ofRuns,
    htext]

-- The range of a cut run is cut as its text is, and the ranges behind it stand in its last piece
-- and in the lines that follow.
private theorem cut_prependPieces {style : Option Style} {pieces : List Text} (hp : pieces ≠ [])
    {start : Nat} {spans : List Span} {lines : List (List Run)} (hl : lines ≠ [])
    (hspans : ∀ span ∈ spans, start + (Text.joinWith ['\n'] pieces).length ≤ span.start)
    (h : cut spans (start + (Text.joinWith ['\n'] pieces).length) (lines.map textOf) =
      lines.map ofRuns) :
    cut (Span.rangeOf start (start + (Text.joinWith ['\n'] pieces).length) style ++ spans) start
        ((prependPieces style pieces lines).map textOf) =
      (prependPieces style pieces lines).map ofRuns := by
  induction pieces generalizing start with
  | nil => exact absurd rfl hp
  | cons piece pieces ih =>
    cases pieces with
    | nil =>
      obtain ⟨line, others, rfl⟩ := List.exists_cons_of_ne_nil hl
      exact cut_lastPiece hspans h
    | cons next pieces =>
      have hlength : start + (Text.joinWith ['\n'] (piece :: next :: pieces)).length =
          start + piece.length + 1 + (Text.joinWith ['\n'] (next :: pieces)).length := by
        rw [Text.joinWith_cons_of_ne_nil (List.cons_ne_nil next pieces), List.length_append,
          List.length_cons]
        omega
      rw [hlength] at hspans h ⊢
      exact cut_innerPiece (by omega) hspans (ih (List.cons_ne_nil next pieces) hspans h)

/-- Runs cut line by line have the ranges of their text cut line by line. -/
theorem cut_spansFrom (start : Nat) (runs : List Run) :
    cut (spansFrom start runs) start ((runLines runs).map textOf) = (runLines runs).map ofRuns := by
  induction runs generalizing start with
  | nil => rfl
  | cons run rest ih =>
    have hjoin : (Text.joinWith ['\n'] (Text.lines run.text)).length = run.text.length :=
      congrArg List.length (Text.joinWith_splitOn '\n' run.text)
    -- The range of an empty run may be kept, as it has no part in any line.
    have hranges (texts : List Text) : cut (spansFrom start (run :: rest)) start texts =
        cut (Span.rangeOf start (start + run.text.length) run.style ++
          spansFrom (start + run.text.length) rest) start texts := by
      refine cut_congr (fun first _ past => ?_) texts
      rw [Document.spansFrom_cons, List.filterMap_append, List.filterMap_append,
        Span.filterMap_clip?_filter]
    rw [hranges, runLines, ← hjoin]
    refine cut_prependPieces (Text.splitOn_ne_nil '\n' run.text)
      (Document.runLines_ne_nil rest) (fun span hspan => ?_) (ih _)
    exact (Document.bounds_of_mem_spansFrom hspan).1

/-! ### Texts and runs -/

/-- Text that is written comes to the end as a text with one range. -/
theorem write_eq_append (t : RangedText) (content : Text) (style : Option Style) :
    t.write content style =
      let written := content.filter (!Document.isDropped ·)
      t.append ⟨written, Span.rangeOf 0 written.length (style.filter (· ≠ []))⟩ := by
  rw [write, append, ← Span.rangeOf_add, Nat.zero_add, Nat.add_comm]

theorem solid_ofRuns (runs : List Run) : (ofRuns runs).solid = ofRuns runs := by
  have hall : ∀ span ∈ spansFrom 0 runs, Span.isNonempty span = true := fun span hspan =>
    decide_eq_true (Document.bounds_of_mem_spansFrom hspan).2.1
  rw [solid, ofRuns, List.filter_eq_self.2 hall]

/-- A text that is appended brings its runs. -/
theorem solid_append {t other : RangedText} {runs others : List Run} (h : t.solid = ofRuns runs)
    (h' : other.solid = ofRuns others) : (t.append other).solid = ofRuns (runs ++ others) := by
  rw [solid, ofRuns, mk.injEq] at h h'
  obtain ⟨hplain, hspans⟩ := h
  obtain ⟨hplain', hspans'⟩ := h'
  have htext : textOf (runs ++ others) = t.plain ++ other.plain := by
    rw [hplain, hplain', textOf, List.flatMap_append]
    rfl
  rw [solid, append, ofRuns, List.filter_append, Span.filter_isNonempty_map_shift, hspans, hspans',
    htext, hplain, Document.spansFrom_zero_append]

/-- Text that is written makes a run at the end. -/
theorem solid_write {t : RangedText} {runs : List Run} (h : t.solid = ofRuns runs)
    (content : Text) (style : Option Style) :
    (t.write content style).solid =
      ofRuns (runs ++ [⟨content.filter (!Document.isDropped ·), style.filter (· ≠ [])⟩]) := by
  rw [write_eq_append]
  refine solid_append h ?_
  rw [ofRuns, Document.spansFrom_zero_cons]
  simp [solid, spansFrom, textOf]

/-- The lines of a text are the lines of its runs. -/
theorem lines_of_solid {t : RangedText} {runs : List Run} (h : t.solid = ofRuns runs) :
    t.lines = (runLines runs).map ofRuns := by
  rw [solid, ofRuns, mk.injEq] at h
  obtain ⟨hplain, hspans⟩ := h
  have hlines : Text.lines t.plain = (runLines runs).map textOf := by
    rw [hplain]
    exact (Document.map_textOf_runLines ⟨runs, 0, 0⟩).symm
  rw [lines, hlines, ← cut_spansFrom 0, ← hspans]
  exact cut_congr (fun first _ past => (Span.filterMap_clip?_filter t.spans first past).symm) _

-- The lines that follow the first one are written each behind the margin.
private theorem solid_foldl {t : RangedText} {runs : List Run} (h : t.solid = ofRuns runs)
    {margin : Text} (hm : ∀ c ∈ margin, Document.isDropped c = false) (lines : List (List Run)) :
    ((lines.map ofRuns).foldl (fun t line => (t.write margin none).append line) t).solid =
      ofRuns (runs ++ lines.flatMap (⟨margin, none⟩ :: ·)) := by
  induction lines generalizing t runs with
  | nil => rw [List.flatMap_nil, List.append_nil, List.map_nil, List.foldl_nil, h]
  | cons line lines ih =>
    have hmargin : margin.filter (!Document.isDropped ·) = margin :=
      List.filter_eq_self.2 fun c hc => by simp [hm c hc]
    have hwritten := solid_append (solid_write h margin none) (solid_ofRuns line)
    rw [hmargin] at hwritten
    rw [List.map_cons, List.foldl_cons, ih hwritten, List.flatMap_cons]
    simp

/-- A block brings the lines of its runs, each but the first behind a margin. -/
theorem solid_block {t other : RangedText} {d o : Document} (h : t.solid = ofRuns d.runs)
    (h' : other.solid = ofRuns o.runs) : (t.block other).solid = ofRuns (d.block o).runs := by
  have hplain : t.plain = d.plain := congrArg plain h
  have hm : ∀ c ∈ '\n' :: List.replicate d.column ' ', Document.isDropped c = false := by
    intro c hc
    rcases List.mem_cons.1 hc with rfl | hc
    · rfl
    · rw [(List.mem_replicate.1 hc).2]
      rfl
  rw [block, lines_of_solid h', Document.block, hplain]
  cases hl : runLines o.runs with
  | nil => exact absurd hl (Document.runLines_ne_nil o.runs)
  | cons first rest => exact solid_foldl (solid_append h (solid_ofRuns first)) hm rest

end RangedText

end Expectation
