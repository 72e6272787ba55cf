import Mathlib.Data.List.Forall2
import Expectation.Document.BasicConsole
import Expectation.Proofs.Document.Rows

/-!
# What a console emits

A console emits a document line by line, and each line in pieces: a piece that is styled stands
between escape sequences for a terminal and in a span in HTML, where the characters with a meaning
in HTML are escaped. Blanks at the end of a line may be missing beyond the width. The basic console
is such a console.
-/

namespace Expectation

/-- What is left of a line at a width: nothing is missing but blanks at its end beyond the width. -/
def Text.CutAt (width : Int) (line left : Text) : Prop :=
  ∃ blanks, line = left ++ blanks ∧ (∀ c ∈ blanks, isBlank c = true) ∧
    (blanks ≠ [] → width ≤ left.length)

/-- A piece of a line as it is emitted: a text, and what marks it as styled. -/
structure Piece where
  text : Text
  mark : Option Text

namespace Piece

/-- A piece for a terminal: the codes of a styled one stand in front, and none behind it. -/
def ansi (piece : Piece) : Text :=
  match piece.mark with
  | some codes => Document.sequence codes ++ piece.text ++ Document.sequence "0"
  | none => piece.text

/-- How a tag that opens a span begins. -/
def spanOpening : Text := "<span style=\""

/-- What opens a span with a rule. -/
def spanStart (rule : Text) : Text := spanOpening ++ rule ++ "\">"

/-- What closes a span. -/
def spanEnd : Text := "</span>"

/-- A piece in HTML: a styled one stands in a span with its rule. -/
def html (piece : Piece) : Text :=
  match piece.mark with
  | some rule => spanStart rule ++ piece.text.flatMap Document.htmlChar ++ spanEnd
  | none => piece.text.flatMap Document.htmlChar

/-- Codes for a terminal are numbers and semicolons. -/
def IsCodes (codes : Text) : Prop := codes.all (fun c => c.isDigit || c == ';') = true

/-- A rule holds no quotation mark and no angle brackets. -/
def IsRule (rule : Text) : Prop := '"' ∉ rule ∧ '<' ∉ rule ∧ '>' ∉ rule

end Piece

/-- The lines of a document at a width as they are emitted, in pieces that are marked in one way. -/
structure Document.Lays (d : Document) (width : Int) (IsMark : Text → Prop)
    (lines : List (List Piece)) : Prop where
  text : List.Forall₂ (fun line pieces => Text.CutAt width line (pieces.flatMap Piece.text)) d.lines
    lines
  mark : ∀ pieces ∈ lines, ∀ piece ∈ pieces, ∀ mark, piece.mark = some mark → IsMark mark

/-- A console emits documents line by line and in pieces, at every width at which there is room:
those without tabs, which become blanks, and without links, which stand in other tags. -/
structure Console.Emits (console : Console) : Prop where
  ansi : ∀ d width, 1 ≤ width → '\t' ∉ d.plain → console.Unlinked d →
    ∃ lines, d.Lays width Piece.IsCodes lines ∧
      console.ansi d width = Text.joinWith ['\n'] (lines.map (·.flatMap Piece.ansi))
  html : ∀ d width, 1 ≤ width → '\t' ∉ d.plain → console.Unlinked d →
    ∃ lines, d.Lays width Piece.IsRule lines ∧
      console.html d width = Text.joinWith ['\n'] (lines.map (·.flatMap Piece.html))

namespace Text

/-- A whole line is left of it. -/
theorem CutAt.refl (width : Int) (line : Text) : CutAt width line line :=
  ⟨[], (List.append_nil line).symm, by simp, fun h => absurd rfl h⟩

end Text

namespace Look

/-- The looks of styles that link to nothing. -/
def known : List Look := styles.map Prod.snd

/-- The look of a style that links to nothing is one of the known looks. -/
theorem mem_known_of_ofStyle? {style : Style} {look : Look} (hlink : linkOf? style = none)
    (h : ofStyle? style = some look) : look ∈ known := by
  simp only [ofStyle?, hlink] at h
  obtain ⟨entry, hentry, rfl⟩ := Option.map_eq_some_iff.1 h
  exact List.mem_map_of_mem (List.mem_of_find?_eq_some hentry)

end Look

namespace Document

/-! ### The lines that the basic console shows -/

/-- The lines of a document make its text. -/
theorem joinWith_lines (d : Document) : Text.joinWith ['\n'] d.lines = d.plain :=
  Text.joinWith_splitOn '\n' d.plain

/-- The characters of a line are characters of the document. -/
theorem subset_plain_of_mem_lines {d : Document} {line : Text} (h : line ∈ d.lines) :
    line ⊆ d.plain :=
  d.joinWith_lines ▸ Text.subset_joinWith h ['\n']

/-- A text without tabs is not cut. -/
theorem expandTabs_of_notMem {t : Text} (h : '\t' ∉ t) (sinceStop : Text) :
    expandTabs sinceStop t = ([t], sinceStop ++ t) := by
  induction t generalizing sinceStop with
  | nil => simp [expandTabs]
  | cons c t ih =>
    obtain ⟨hc, ht⟩ := not_or.1 (List.mem_cons.not.1 h)
    rw [expandTabs, if_neg (Ne.symm hc), ih ht, List.append_assoc, List.singleton_append]

/-- A line without tabs is shown with the text it has. -/
theorem flatMap_text_shownLine {line : List Run} (h : '\t' ∉ textOf line) (sinceStop : Text) :
    (shownLine sinceStop line).flatMap ShownRun.text = textOf line := by
  induction line generalizing sinceStop with
  | nil => rfl
  | cons run line ih =>
    rw [textOf, List.flatMap_cons, List.mem_append, not_or] at h
    rw [shownLine, expandTabs_of_notMem h.1, List.flatMap_append, ih h.2]
    by_cases hempty : run.text = []
    · simp [hempty, textOf]
    · simp [hempty, textOf]

/-- A document without tabs is shown line by line with the text it has. -/
theorem map_flatMap_text_shownLines {d : Document} (h : '\t' ∉ d.plain) :
    d.shownLines.map (·.flatMap ShownRun.text) = d.lines := by
  rw [shownLines, List.map_map, ← map_textOf_runLines]
  refine List.map_congr_left fun line hline => flatMap_text_shownLine (fun htab => h ?_) []
  have hin : textOf line ∈ d.lines := map_textOf_runLines d ▸ List.mem_map_of_mem hline
  exact subset_plain_of_mem_lines hin htab

/-- A line that is shown in part has the first characters of its text. -/
theorem flatMap_text_shownStart (count : Nat) (line : List ShownRun) :
    (shownStart count line).flatMap ShownRun.text =
      (line.flatMap ShownRun.text).take count := by
  induction line generalizing count with
  | nil => simp [shownStart]
  | cons run line ih => rw [shownStart, List.flatMap_cons, ih, List.flatMap_cons, List.take_append]

/-- Runs without text have no text. -/
private theorem flatMap_text_filter (line : List ShownRun) :
    (line.filter (·.text ≠ [])).flatMap ShownRun.text = line.flatMap ShownRun.text := by
  induction line with
  | nil => rfl
  | cons run line ih =>
    by_cases hempty : run.text = []
    · rw [List.filter_cons_of_neg (by simpa using hempty), ih, List.flatMap_cons, hempty,
        List.nil_append]
    · rw [List.filter_cons_of_pos (by simpa using hempty), List.flatMap_cons, ih, List.flatMap_cons]

/-- Only blanks beyond the width are cut off a line. -/
theorem cutAt_cutEnd (width : Int) (line : List ShownRun) :
    Text.CutAt width (line.flatMap ShownRun.text)
      ((cutEnd width line).flatMap ShownRun.text) := by
  set text := line.flatMap ShownRun.text with htext
  set blanks := (text.reverse.takeWhile isBlank).length with hblanks
  set excess := ((text.length : Int) - width).toNat with hexcess
  have hle : blanks ≤ text.length :=
    Nat.le_trans (List.takeWhile_sublist isBlank).length_le (Nat.le_of_eq List.length_reverse)
  have hleft : (cutEnd width line).flatMap ShownRun.text =
      text.take (text.length - min blanks excess) := by
    rw [cutEnd, flatMap_text_filter, flatMap_text_shownStart]
  rw [hleft]
  refine ⟨text.drop (text.length - min blanks excess), (List.take_append_drop _ _).symm, ?_, ?_⟩
  · -- What is cut off is the end of the blanks, read from the back.
    intro c hc
    have hend : text.drop (text.length - min blanks excess) =
        (text.reverse.take (min blanks excess)).reverse := by
      rw [List.take_reverse, List.reverse_reverse]
    rw [hend, List.mem_reverse] at hc
    have hends : text.reverse.take (min blanks excess) <+: text.reverse.takeWhile isBlank := by
      refine List.prefix_of_prefix_length_le (List.take_prefix _ _) (List.takeWhile_prefix _) ?_
      rw [List.length_take]
      omega
    exact List.all_eq_true.1 List.all_takeWhile c (hends.subset hc)
  · intro hne
    have hcut : 0 < min blanks excess := by
      refine Nat.pos_of_ne_zero fun hzero => hne ?_
      rw [hzero, Nat.sub_zero, List.drop_length]
    rw [List.length_take]
    omega

/-- The lines of a document as they are written have its text, but for blanks beyond the width. -/
theorem cutAt_writtenLines {d : Document} (htab : '\t' ∉ d.plain) {width : Int} (hw : 1 ≤ width)
    (cuts : Bool) :
    List.Forall₂ (fun line written => Text.CutAt width line (written.flatMap ShownRun.text)) d.lines
      (d.writtenLines cuts width) := by
  have hshown : List.Forall₂ (fun line shown => shown.flatMap ShownRun.text = line) d.lines
      d.shownLines := by
    rw [← map_flatMap_text_shownLines htab, List.forall₂_map_left_iff, List.forall₂_same]
    exact fun _ _ => rfl
  rw [writtenLines, if_neg (by omega)]
  cases cuts with
  | false => exact hshown.imp fun _ _ h => h ▸ .refl width _
  | true =>
    rw [if_pos rfl, List.forall₂_map_right_iff]
    exact hshown.imp fun _ shown h => h ▸ cutAt_cutEnd width shown

/-! ### The looks that the basic console shows -/

/-- A look of a line as it is shown is one that a style of the line has. -/
theorem exists_style_of_mem_shownLine {line : List Run} {sinceStop : Text} {run : ShownRun}
    (h : run ∈ shownLine sinceStop line) {look : Look} (hl : run.look = some look) :
    ∃ given ∈ line, ∃ style, given.style = some style ∧ Look.ofStyle? style = some look := by
  induction line generalizing sinceStop with
  | nil => exact absurd h List.not_mem_nil
  | cons first line ih =>
    rcases List.mem_append.1 h with h | h
    · obtain ⟨piece, -, rfl⟩ := List.mem_map.1 h
      obtain ⟨style, hstyle, hlook⟩ := Option.bind_eq_some_iff.1 hl
      exact ⟨first, List.mem_cons_self, style, hstyle, hlook⟩
    · obtain ⟨given, hgiven, hstyle⟩ := ih h
      exact ⟨given, List.mem_cons_of_mem _ hgiven, hstyle⟩

/-- The pieces of a run that is cut have its style. -/
private theorem style_of_mem_prependPieces {style : Option Style} {pieces : List Text}
    {lines : List (List Run)} {line : List Run} (h : line ∈ prependPieces style pieces lines)
    {run : Run} (hrun : run ∈ line) :
    run.style = style ∨ ∃ other ∈ lines, run ∈ other := by
  fun_induction prependPieces style pieces lines with
  | case1 lines => exact Or.inr ⟨line, h, hrun⟩
  | case2 piece =>
    obtain rfl := List.mem_singleton.1 h
    obtain rfl := List.mem_singleton.1 hrun
    exact Or.inl rfl
  | case3 piece first lines =>
    rcases List.mem_cons.1 h with rfl | h
    · rcases List.mem_cons.1 hrun with rfl | hrun
      · exact Or.inl rfl
      · exact Or.inr ⟨first, List.mem_cons_self, hrun⟩
    · exact Or.inr ⟨line, List.mem_cons_of_mem _ h, hrun⟩
  | case4 piece pieces lines _ _ ih =>
    rcases List.mem_cons.1 h with rfl | h
    · obtain rfl := List.mem_singleton.1 hrun
      exact Or.inl rfl
    · exact ih h

/-- The styles of the lines of runs are styles of the runs. -/
theorem exists_style_of_mem_runLines {runs : List Run} {line : List Run} (h : line ∈ runLines runs)
    {run : Run} (hrun : run ∈ line) {style : Style} (hs : run.style = some style) :
    ∃ given ∈ runs, given.style = some style := by
  induction runs generalizing line with
  | nil =>
    obtain rfl := List.mem_singleton.1 h
    exact absurd hrun List.not_mem_nil
  | cons first runs ih =>
    rcases style_of_mem_prependPieces h hrun with hsame | ⟨other, hother, hin⟩
    · exact ⟨first, List.mem_cons_self, hsame ▸ hs⟩
    · obtain ⟨given, hgiven, hstyle⟩ := ih hother hin
      exact ⟨given, List.mem_cons_of_mem _ hgiven, hstyle⟩

/-- A line that is shown in part has no look that it did not have. -/
private theorem look_of_mem_shownStart {count : Nat} {line : List ShownRun} {run : ShownRun}
    (h : run ∈ shownStart count line) : ∃ other ∈ line, other.look = run.look := by
  induction line generalizing count with
  | nil => exact absurd h (by simp [shownStart])
  | cons first line ih =>
    rw [shownStart] at h
    rcases List.mem_cons.1 h with rfl | h
    · exact ⟨first, List.mem_cons_self, rfl⟩
    · obtain ⟨other, hother, hlook⟩ := ih h
      exact ⟨other, List.mem_cons_of_mem _ hother, hlook⟩

/-- The lines of a document without links are written in known looks or in none. -/
theorem look_known_of_mem_writtenLines {d : Document} {cuts : Bool}
    (hlinks : (Console.basic cuts).Unlinked d) {width : Int} {line : List ShownRun}
    (hline : line ∈ d.writtenLines cuts width) {run : ShownRun} (hrun : run ∈ line) {look : Look}
    (hl : run.look = some look) : look ∈ Look.known := by
  obtain ⟨shown, hshown, other, hother, hlook⟩ :
      ∃ shown ∈ d.shownLines, ∃ other ∈ shown, other.look = run.look := by
    rw [writtenLines] at hline
    split_ifs at hline with hwidth hcuts
    · exact absurd hline List.not_mem_nil
    · obtain ⟨shown, hshown, rfl⟩ := List.mem_map.1 hline
      exact ⟨shown, hshown, look_of_mem_shownStart (List.mem_filter.1 hrun).1⟩
    · exact ⟨line, hline, run, hrun, rfl⟩
  obtain ⟨runs, hruns, rfl⟩ := List.mem_map.1 hshown
  obtain ⟨given, hgiven, style, hstyle, hof⟩ :=
    exists_style_of_mem_shownLine hother (hlook.trans hl)
  obtain ⟨first, hfirst, hsame⟩ := exists_style_of_mem_runLines hruns hgiven hstyle
  have hlink : (Look.linkOf? style).isSome = false := hlinks first hfirst style hsame
  rw [Option.isSome_eq_false_iff, Option.isNone_iff_eq_none] at hlink
  exact Look.mem_known_of_ofStyle? hlink hof

/-- Joining runs of one look leaves the text. -/
theorem flatMap_text_joinLooks (line : List ShownRun) :
    (joinLooks line).flatMap ShownRun.text = line.flatMap ShownRun.text := by
  fun_induction joinLooks line with
  | case1 => rfl
  | case2 run rest hnone ih => simpa [hnone] using ih
  | case3 run rest next others hsome hlook ih => simpa [hsome] using ih
  | case4 run rest next others hsome hlook ih => simpa [hsome] using ih

/-- Joining runs of one look adds no look. -/
theorem look_of_mem_joinLooks {line : List ShownRun} {run : ShownRun} (h : run ∈ joinLooks line) :
    ∃ other ∈ line, other.look = run.look := by
  have later {first : ShownRun} {rest : List ShownRun} :
      (∃ other ∈ rest, other.look = run.look) → ∃ other ∈ first :: rest, other.look = run.look :=
    fun ⟨other, hother, hlook⟩ => ⟨other, List.mem_cons_of_mem first hother, hlook⟩
  fun_induction joinLooks line with
  | case1 => exact absurd h List.not_mem_nil
  | case2 first rest hnone ih =>
    rw [List.mem_singleton.1 h]
    exact ⟨first, List.mem_cons_self, rfl⟩
  | case3 first rest next others hsome hlook ih =>
    rcases List.mem_cons.1 h with rfl | h
    · exact ⟨first, List.mem_cons_self, rfl⟩
    · exact later (ih (hsome ▸ List.mem_cons_of_mem next h))
  | case4 first rest next others hsome hlook ih =>
    rcases List.mem_cons.1 h with rfl | h
    · exact ⟨run, List.mem_cons_self, rfl⟩
    · exact later (ih (hsome ▸ h))

end Document

/-! ### The basic console -/

/-- A run as a piece, marked by its look. -/
def ShownRun.piece (mark : Look → Text) (run : ShownRun) : Piece := ⟨run.text, run.look.map mark⟩

namespace Look

/-- A known look has codes. -/
theorem isCodes_of_mem_known : ∀ look ∈ known, look.codes ≠ [] ∧ Piece.IsCodes look.codes := by
  unfold Piece.IsCodes
  decide +kernel

/-- A known look has a rule. -/
theorem isRule_of_mem_known : ∀ look ∈ known, look.rule ≠ [] ∧ Piece.IsRule look.rule := by
  unfold Piece.IsRule
  decide +kernel

/-- A known look links to nothing. -/
theorem link_of_mem_known : ∀ look ∈ known, look.link = none := by
  decide

end Look

namespace Document

/-- A run in a known look or in none is emitted for a terminal as a piece. -/
private theorem ansiRun_eq {run : ShownRun} (h : ∀ look, run.look = some look → look ∈ Look.known) :
    ansiRun run = (run.piece Look.codes).ansi := by
  obtain ⟨text, look?⟩ := run
  cases look? with
  | none => rfl
  | some look =>
    have hcodes := (Look.isCodes_of_mem_known look (h look rfl)).1
    have hlink := Look.link_of_mem_known look (h look rfl)
    have hin : ∀ shown, ansiIn look shown = sequence look.codes ++ shown ++ sequence "0" := by
      intro shown
      rw [ansiIn, if_neg hcodes, hlink]
    exact hin text

/-- A run in a known look or in none is emitted in HTML as a piece. -/
private theorem htmlRun_eq {run : ShownRun} (h : ∀ look, run.look = some look → look ∈ Look.known) :
    htmlRun run = (run.piece Look.rule).html := by
  obtain ⟨text, look?⟩ := run
  cases look? with
  | none => rfl
  | some look =>
    have hrule := (Look.isRule_of_mem_known look (h look rfl)).1
    have hlink := Look.link_of_mem_known look (h look rfl)
    have hin : ∀ body, htmlIn look body = Piece.spanStart look.rule ++ body ++ Piece.spanEnd := by
      intro body
      rw [htmlIn, if_neg hrule, hlink]
      rfl
    exact hin _

/-- Lines with the texts that are written lay out a document, if their looks are known. -/
private theorem lays_map {d : Document} (htab : '\t' ∉ d.plain) {width : Int} (hw : 1 ≤ width)
    {cuts : Bool} {mark : Look → Text} {IsMark : Text → Prop}
    (hmark : ∀ look ∈ Look.known, IsMark (mark look)) {change : List ShownRun → List ShownRun}
    (htext : ∀ line, (change line).flatMap ShownRun.text = line.flatMap ShownRun.text)
    (hlook : ∀ line ∈ (d.writtenLines cuts width).map change, ∀ run ∈ line, ∀ look,
      run.look = some look → look ∈ Look.known) :
    d.Lays width IsMark
      (((d.writtenLines cuts width).map change).map (·.map (ShownRun.piece mark))) where
  text := by
    rw [List.forall₂_map_right_iff, List.forall₂_map_right_iff]
    refine (cutAt_writtenLines htab hw cuts).imp fun line written h => ?_
    rw [List.flatMap_map]
    exact (htext written).symm ▸ h
  mark := by
    intro pieces hpieces piece hpiece given hgiven
    obtain ⟨line, hline, rfl⟩ := List.mem_map.1 hpieces
    obtain ⟨run, hrun, rfl⟩ := List.mem_map.1 hpiece
    obtain ⟨look, hrunlook, rfl⟩ := Option.map_eq_some_iff.1 hgiven
    exact hmark look (hlook line hline run hrun look hrunlook)

end Document

/-- The basic console emits documents line by line and in pieces. -/
theorem Console.emits_basic (cuts : Bool) : (Console.basic cuts).Emits where
  ansi d width hw htab hlinks := by
    have hlook : ∀ line ∈ (d.writtenLines cuts width).map id, ∀ run ∈ line, ∀ look,
        run.look = some look → look ∈ Look.known := by
      rw [List.map_id]
      intro line hline run hrun look hl
      exact Document.look_known_of_mem_writtenLines hlinks hline hrun hl
    refine ⟨_, Document.lays_map htab hw (fun look h => (Look.isCodes_of_mem_known look h).2)
      (fun _ => rfl) hlook, ?_⟩
    rw [List.map_map, List.map_map]
    refine congrArg (Text.joinWith ['\n']) (List.map_congr_left fun line hline => ?_)
    rw [Function.comp_apply, Function.comp_apply, List.flatMap_map]
    exact List.flatMap_congr fun run hrun =>
      Document.ansiRun_eq (hlook _ (List.mem_map_of_mem hline) run hrun)
  html d width hw htab hlinks := by
    have hlook : ∀ line ∈ (d.writtenLines cuts width).map Document.joinLooks, ∀ run ∈ line,
        ∀ look, run.look = some look → look ∈ Look.known := by
      intro joined hjoined run hrun look hl
      obtain ⟨line, hline, rfl⟩ := List.mem_map.1 hjoined
      obtain ⟨other, hother, hsame⟩ := Document.look_of_mem_joinLooks hrun
      exact Document.look_known_of_mem_writtenLines hlinks hline hother (hsame.trans hl)
    refine ⟨_, Document.lays_map htab hw (fun look h => (Look.isRule_of_mem_known look h).2)
      Document.flatMap_text_joinLooks hlook, ?_⟩
    rw [List.map_map, List.map_map]
    refine congrArg (Text.joinWith ['\n']) (List.map_congr_left fun line hline => ?_)
    rw [Function.comp_apply, Function.comp_apply, List.flatMap_map]
    exact List.flatMap_congr fun run hrun =>
      Document.htmlRun_eq (hlook _ (List.mem_map_of_mem hline) run hrun)

end Expectation
