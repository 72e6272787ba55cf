import Mathlib.Data.List.Chain
import Mathlib.Data.List.DropRight
import Expectation.Message.Body

/-!
# Substitution of placeholders

A message is read in exactly one way as placeholders and literal text between them: from left to
right, a placeholder wherever one begins. The body of the message has, in order, the literal text,
the arguments that the placeholders number and the placeholders that number none; what takes the
place of a placeholder is not read again. No body is written if a placeholder has more digits than
are read as a number.
-/

namespace Expectation

/-- Text that is written as digits in braces. -/
structure IsPlaceholder (digits written : Text) : Prop where
  braces : written = '\x7b' :: digits ++ ['\x7d']
  nonempty : digits ≠ []
  digits : ∀ c ∈ digits, isDigit c = true

/-- A text begins with a placeholder. -/
def StartsPlaceholder (t : Text) : Prop :=
  ∃ digits written after, IsPlaceholder digits written ∧ t = written ++ after

namespace MessagePiece

/-- The piece is literal text. -/
def IsLiteral : MessagePiece → Prop
  | literal _ => True
  | slot _ _ => False

/-- A message reads as pieces: it is what they are written as, and placeholders are wherever they
begin, from left to right. -/
structure Reads (template : Text) (pieces : List MessagePiece) : Prop where
  source : pieces.flatMap source = template
  slots : ∀ position written, slot position written ∈ pieces →
    ∃ digits, IsPlaceholder digits written ∧ position = Text.number digits
  leftmost : ∀ before text after, pieces = before ++ literal text :: after →
    ∀ k < text.length, ¬ StartsPlaceholder (text.drop k ++ after.flatMap MessagePiece.source)
  nonempty : ∀ text, literal text ∈ pieces → text ≠ []
  maximal : pieces.IsChain fun piece next => piece.IsLiteral → ¬ next.IsLiteral

/-! ### Reading placeholders -/

private theorem isDigit_closingBrace : isDigit '\x7d' = false := by
  decide

/-- A placeholder that is written is read. -/
theorem readSlot?_append {digits written : Text} (h : IsPlaceholder digits written)
    (after : Text) : readSlot? (written ++ after) = some (digits, after) := by
  obtain ⟨d, digits, rfl⟩ := List.exists_cons_of_ne_nil h.nonempty
  have htake : (d :: digits ++ '\x7d' :: after).takeWhile isDigit = d :: digits := by
    rw [List.takeWhile_append_of_pos h.digits, List.takeWhile_cons_of_neg
      (by simp [isDigit_closingBrace]), List.append_nil]
  have hdrop : (d :: digits ++ '\x7d' :: after).dropWhile isDigit = '\x7d' :: after := by
    rw [List.dropWhile_append_of_pos h.digits, List.dropWhile_cons_of_neg
      (by simp [isDigit_closingBrace])]
  have hwritten : written ++ after = '\x7b' :: (d :: digits ++ '\x7d' :: after) := by
    simp [h.braces]
  rw [hwritten, readSlot?, htake, hdrop]
  rfl

/-- What is read as a placeholder is one. -/
theorem isPlaceholder_of_readSlot? {t digits after : Text}
    (h : readSlot? t = some (digits, after)) :
    IsPlaceholder digits ('\x7b' :: digits ++ ['\x7d']) ∧
      t = '\x7b' :: digits ++ ['\x7d'] ++ after := by
  unfold readSlot? at h
  split at h
  · next rest =>
    split at h
    · next d digits after htake hdrop =>
      cases h
      have hsplit := List.takeWhile_append_dropWhile (p := isDigit) (l := rest)
      rw [htake, hdrop] at hsplit
      refine ⟨⟨rfl, List.cons_ne_nil _ _, fun c hc => ?_⟩, ?_⟩
      · rw [← htake] at hc
        exact List.mem_takeWhile_imp hc
      · rw [← hsplit]
        simp
    · cases h
  · cases h

/-- A text begins with a placeholder exactly if one is read. -/
theorem startsPlaceholder_iff {t : Text} : StartsPlaceholder t ↔ readSlot? t ≠ none := by
  constructor
  · rintro ⟨digits, written, after, h, rfl⟩
    rw [readSlot?_append h]
    simp
  · intro h
    obtain ⟨⟨digits, after⟩, hread⟩ := Option.ne_none_iff_exists'.1 h
    obtain ⟨hplaceholder, heq⟩ := isPlaceholder_of_readSlot? hread
    exact ⟨digits, _, after, hplaceholder, heq⟩

/-- A placeholder at the front is a slot. -/
theorem ofText_append {digits written : Text} (h : IsPlaceholder digits written) (after : Text) :
    ofText (written ++ after) = slot (Text.number digits) written :: ofText after := by
  have hread := readSlot?_append h after
  have hcons : written ++ after = '\x7b' :: (digits ++ '\x7d' :: after) := by simp [h.braces]
  rw [hcons] at hread ⊢
  rw [ofText]
  split
  · next heq =>
    rw [hread] at heq
    cases heq
    rw [h.braces]
  · next heq =>
    rw [hread] at heq
    cases heq

/-- A character where no placeholder begins is literal. -/
theorem ofText_cons {c : Char} {rest : Text} (h : ¬ StartsPlaceholder (c :: rest)) :
    ofText (c :: rest) = prepend c (ofText rest) := by
  have hread : readSlot? (c :: rest) = none := not_not.1 fun hne => h (startsPlaceholder_iff.2 hne)
  rw [ofText]
  split
  · next heq =>
    rw [hread] at heq
    cases heq
  · rfl

/-! ### One reading -/

namespace Reads

/-- The empty message has no pieces. -/
protected theorem nil : Reads [] [] where
  source := rfl
  slots _ _ h := by cases h
  leftmost _ _ _ h := by simp at h
  nonempty _ h := by cases h
  maximal := .nil

/-- What follows the first piece is read as the other pieces. -/
theorem tail {template : Text} {piece : MessagePiece} {pieces : List MessagePiece}
    (h : Reads template (piece :: pieces)) : Reads (pieces.flatMap MessagePiece.source) pieces where
  source := rfl
  slots position written hmem := h.slots position written (List.mem_cons_of_mem _ hmem)
  leftmost before text after heq :=
    h.leftmost (piece :: before) text after (by rw [heq, List.cons_append])
  nonempty text hmem := h.nonempty text (List.mem_cons_of_mem _ hmem)
  maximal := h.maximal.tail

/-- One more piece in front: a placeholder, or literal text that goes on up to the next one. -/
private theorem cons {rest : Text} {pieces : List MessagePiece} (h : Reads rest pieces)
    (piece : MessagePiece)
    (hslot : ∀ position written, piece = slot position written →
      ∃ digits, IsPlaceholder digits written ∧ position = Text.number digits)
    (hliteral : ∀ text, piece = literal text →
      text ≠ [] ∧ (∀ k < text.length, ¬ StartsPlaceholder (text.drop k ++ rest)) ∧
        ∀ next ∈ pieces.head?, ¬ next.IsLiteral) :
    Reads (piece.source ++ rest) (piece :: pieces) where
  source := by rw [List.flatMap_cons, h.source]
  slots position written hmem := by
    rcases List.mem_cons.1 hmem with heq | hmem
    · exact hslot position written heq.symm
    · exact h.slots position written hmem
  leftmost before text after heq := by
    cases before with
    | nil =>
      obtain ⟨hpiece, rfl⟩ := List.cons.inj heq
      rw [h.source]
      exact (hliteral text hpiece).2.1
    | cons first before => exact h.leftmost before text after (List.cons.inj heq).2
  nonempty text hmem := by
    rcases List.mem_cons.1 hmem with heq | hmem
    · exact (hliteral text heq.symm).1
    · exact h.nonempty text hmem
  maximal := by
    refine List.isChain_cons.2 ⟨fun next hnext hl => ?_, h.maximal⟩
    cases piece with
    | literal text => exact (hliteral text rfl).2.2 next hnext
    | slot position written => exact hl.elim

/-- A placeholder in front is one more piece. -/
theorem slot_cons {digits written rest : Text} {pieces : List MessagePiece}
    (hp : IsPlaceholder digits written) (h : Reads rest pieces) :
    Reads (written ++ rest) (slot (Text.number digits) written :: pieces) := by
  refine h.cons (slot (Text.number digits) written) (fun position written' heq => ?_)
    fun text heq => ?_
  · cases heq
    exact ⟨digits, hp, rfl⟩
  · cases heq

private theorem literal_cons {text rest : Text} {pieces : List MessagePiece} (hne : text ≠ [])
    (hfree : ∀ k < text.length, ¬ StartsPlaceholder (text.drop k ++ rest))
    (hnext : ∀ next ∈ pieces.head?, ¬ next.IsLiteral) (h : Reads rest pieces) :
    Reads (text ++ rest) (literal text :: pieces) := by
  refine h.cons (literal text) (fun position written heq => ?_) fun text' heq => ?_
  · cases heq
  · cases heq
    exact ⟨hne, hfree, hnext⟩

/-- A character in front where no placeholder begins. -/
theorem prepend {c : Char} {rest : Text} {pieces : List MessagePiece}
    (hc : ¬ StartsPlaceholder (c :: rest)) (h : Reads rest pieces) :
    Reads (c :: rest) (MessagePiece.prepend c pieces) := by
  have hsingle (hnext : ∀ next ∈ pieces.head?, ¬ next.IsLiteral) :
      Reads ([c] ++ rest) (literal [c] :: pieces) := by
    refine literal_cons (List.cons_ne_nil _ _) (fun k hk => ?_) hnext h
    obtain rfl : k = 0 := by simpa using hk
    exact hc
  cases pieces with
  | nil => exact hsingle (by simp)
  | cons piece others =>
    cases piece with
    | slot position written => exact hsingle (by simp [IsLiteral])
    | literal text =>
      have hsource : text ++ others.flatMap MessagePiece.source = rest := h.source
      have hnext := (List.isChain_cons.1 h.maximal).1
      rw [← hsource] at hc ⊢
      refine literal_cons (List.cons_ne_nil c text) (fun k hk => ?_)
        (fun next hmem => hnext next hmem trivial) h.tail
      cases k with
      | zero => exact hc
      | succ k => exact h.leftmost [] text others rfl k (Nat.lt_of_succ_lt_succ hk)

end Reads

/-- A message reads as its pieces. -/
theorem reads_ofText (template : Text) : Reads template (ofText template) := by
  induction template using ofText.induct with
  | case1 =>
    rw [ofText]
    exact .nil
  | case2 c rest digits after hread ih =>
    obtain ⟨hp, heq⟩ := isPlaceholder_of_readSlot? hread
    rw [heq, ofText_append hp]
    exact ih.slot_cons hp
  | case3 c rest hread ih =>
    have hc : ¬ StartsPlaceholder (c :: rest) := fun h => startsPlaceholder_iff.1 h hread
    rw [ofText_cons hc]
    exact ih.prepend hc

-- Along the literal text, up to the placeholder that follows it.
private theorem ofText_literal {text rest : Text} (hne : text ≠ [])
    (hfree : ∀ k < text.length, ¬ StartsPlaceholder (text.drop k ++ rest))
    (hnext : ∀ next ∈ (ofText rest).head?, ¬ next.IsLiteral) :
    ofText (text ++ rest) = literal text :: ofText rest := by
  induction text with
  | nil => exact absurd rfl hne
  | cons c text ih =>
    have hcons : ofText (c :: (text ++ rest)) = MessagePiece.prepend c (ofText (text ++ rest)) :=
      ofText_cons (hfree 0 (Nat.zero_lt_succ _))
    rw [List.cons_append, hcons]
    cases text with
    | nil =>
      rw [List.nil_append]
      cases hrest : ofText rest with
      | nil => rfl
      | cons piece pieces =>
        cases piece with
        | slot position written => rfl
        | literal text => exact absurd trivial (hnext (literal text) (by rw [hrest]; rfl))
    | cons c' text =>
      rw [ih (List.cons_ne_nil _ _) fun k hk => hfree (k + 1) (Nat.succ_lt_succ hk)]
      rfl

/-- A message reads as its pieces only. -/
theorem Reads.eq_ofText {template : Text} {pieces : List MessagePiece}
    (h : Reads template pieces) : pieces = ofText template := by
  induction pieces generalizing template with
  | nil =>
    rw [← h.source, List.flatMap_nil, ofText]
  | cons piece pieces ih =>
    have hrest := ih h.tail
    rw [← h.source, List.flatMap_cons]
    cases piece with
    | slot position written =>
      obtain ⟨digits, hp, rfl⟩ := h.slots position written List.mem_cons_self
      rw [MessagePiece.source, ofText_append hp, ← hrest]
    | literal text =>
      have hnext := (List.isChain_cons.1 h.maximal).1
      rw [MessagePiece.source, ofText_literal (h.nonempty text List.mem_cons_self)
        (h.leftmost [] text pieces rfl)
        (fun next hmem => hnext next (by rwa [hrest]) trivial), ← hrest]

/-! ### Writing pieces -/

/-- The run of a text as documents take it, without style. -/
def unstyled (text : Text) : Run := ⟨text.filter (!Document.isDropped ·), none⟩

/-- Why a piece cannot be written: the number of a slot has more digits than are read, or the
argument that a slot numbers is no document and has no text. -/
def fault? (s : Store) (arguments : List Ref) : MessagePiece → Option Fault
  | literal _ => none
  | slot position written =>
    let digits := (slot position written).digitCount
    if longestNumeral < digits then some (.oversizedNumeral (some digits))
    else
      match arguments[position]? with
      | none => none
      | some argument =>
        match s.node argument, s.plain argument with
        | .document _, _ | _, .ok _ => none
        | _, .error cause => some cause

/-- What stands for a piece: literal text itself; the argument that a slot numbers, a document with
its runs and any other value by its text, if it has one; a slot as it is written if it numbers no
argument. -/
def filling (s : Store) (arguments : List Ref) : MessagePiece → List Run
  | literal text => [unstyled text]
  | slot position written =>
    match arguments[position]? with
    | none => [unstyled written]
    | some argument =>
      match s.node argument, s.plain argument with
      | .document d, _ => d.runs
      | _, .ok text => [unstyled text]
      | _, .error _ => []

/-- A piece is written as what stands for it, unless it cannot be written. -/
theorem write_eq (s : Store) (arguments : List Ref) (output : Document) (piece : MessagePiece) :
    piece.write s arguments output =
      match piece.fault? s arguments with
      | some cause => .error cause
      | none => .ok { output with runs := output.runs ++ piece.filling s arguments } := by
  cases piece with
  | literal text => rfl
  | slot position written =>
    simp only [write, fault?, filling]
    split_ifs with hdigits
    · rfl
    · cases arguments[position]? with
      | none => rfl
      | some argument =>
        cases hnode : s.node argument <;> cases hplain : s.plain argument <;>
          simp [hnode, hplain, Except.map, Document.text, Document.append, unstyled]

/-- Pieces that can be written are written in order. -/
theorem foldlM_write {s : Store} {arguments : List Ref} {pieces : List MessagePiece}
    (h : pieces.findSome? (fault? s arguments) = none) (output : Document) :
    pieces.foldlM (write s arguments) output =
      .ok { output with runs := output.runs ++ pieces.flatMap (filling s arguments) } := by
  induction pieces generalizing output with
  | nil => simp [Pure.pure, Except.pure]
  | cons piece pieces ih =>
    obtain ⟨hpiece, hpieces⟩ := List.forall_mem_cons.1 (List.findSome?_eq_none_iff.1 h)
    rw [List.foldlM_cons, write_eq, hpiece]
    refine (ih (List.findSome?_eq_none_iff.2 hpieces) _).trans ?_
    rw [List.flatMap_cons, List.append_assoc]

/-- The first of some pieces that cannot be written is the fault of them all. -/
theorem foldlM_write_eq_error {s : Store} {arguments : List Ref} {pieces : List MessagePiece}
    {cause : Fault} (h : pieces.findSome? (fault? s arguments) = some cause) (output : Document) :
    pieces.foldlM (write s arguments) output = .error cause := by
  induction pieces generalizing output with
  | nil => cases h
  | cons piece pieces ih =>
    rw [List.foldlM_cons, write_eq]
    rw [List.findSome?_cons] at h
    cases hpiece : piece.fault? s arguments with
    | some raised =>
      rw [hpiece] at h
      cases h
      rfl
    | none =>
      rw [hpiece] at h
      exact ih h _

/-- The digits of a placeholder are counted. -/
theorem digitCount_slot {digits written : Text} (h : IsPlaceholder digits written)
    (position : Nat) : (slot position written).digitCount = digits.length := by
  simp [digitCount, h.braces]

end MessagePiece

namespace Engine

open MessagePiece

/-- A message that is a text reads as pieces in one way, and its body has what stands for each of
them, in order. If a placeholder has more digits than are read as a number, or an argument that it
numbers has no text, there is no body, and the fault is that of the first such placeholder. -/
theorem body_template (e : Engine) (s : Store) {message : Ref} {template : Text}
    (hm : s.node message = .text template) (hne : template ≠ []) (arguments : List Ref) :
    ∃ pieces, Reads template pieces ∧ (∀ others, Reads template others → others = pieces) ∧
      (pieces.findSome? (fault? s arguments) = none →
        e.body s message arguments =
          .ok { e.newDocument with runs := pieces.flatMap (filling s arguments) }) ∧
      ∀ cause, pieces.findSome? (fault? s arguments) = some cause →
        e.body s message arguments = .error cause := by
  have htruth : (Node.text template).truth = true := by simpa [Node.truth] using hne
  have hplain : s.plain message = .ok template := by simp [Store.plain, hm]
  have hbody : e.body s message arguments = e.newDocument.template s template arguments := by
    simp only [body, hm, htruth, if_true, hplain]
    rfl
  refine ⟨_, reads_ofText template, fun others h => h.eq_ofText, fun hnone => ?_,
    fun cause hfirst => ?_⟩
  · rw [hbody, Document.template, foldlM_write hnone]
    rfl
  · rw [hbody, Document.template, foldlM_write_eq_error hfirst]

-- As many zeros as are given, and one more, in braces.
private def zeros (n : Nat) : Text := '\x7b' :: List.replicate (n + 1) '0' ++ ['\x7d']

private theorem isPlaceholder_zeros (n : Nat) :
    IsPlaceholder (List.replicate (n + 1) '0') (zeros n) where
  braces := rfl
  nonempty := List.cons_ne_nil _ _
  digits c hc := by
    rw [List.eq_of_mem_replicate hc]
    decide

private theorem digitCount_zeros (n position : Nat) :
    (MessagePiece.slot position (zeros n)).digitCount = n + 1 :=
  (MessagePiece.digitCount_slot (isPlaceholder_zeros n) position).trans List.length_replicate

-- An argument that looks like a placeholder, one that is a document, one that has no text, and
-- messages for them.
private def messages : Store :=
  ⟨#[.text "{01}\x7b{0}\x7d{2}", .text "{1}", .document ⟨[⟨"d", some "red"⟩], 2, 0⟩,
    .text (zeros 4300), .integer (leastBeyond longestNumeral), .text "{0}"], #[]⟩

private theorem plain_oversized : messages.plain (.cell 4) = .error (.oversizedNumeral none) := by
  have hform : messages.plain (.cell 4) = numeral (leastBeyond longestNumeral) := rfl
  rw [hform]
  exact numeral_eq_error (Nat.le_of_eq (Int.natAbs_natCast _).symm)

/-- Arguments take the places of the placeholders that number them and are not read again, and the
placeholder that numbers none stays. A placeholder of one digit too many is a fault, and so is an
integer with too many digits in its place. -/
theorem body_template_zeros :
    (Engine.create .default).body messages (.cell 0) [.cell 1, .cell 2] =
        .ok ⟨[⟨"d", some "red"⟩, ⟨['\x7b'], none⟩, ⟨"{1}", none⟩, ⟨['\x7d'], none⟩, ⟨"{2}", none⟩],
          2, 0⟩ ∧
      (Engine.create .default).body messages (.cell 3) [.cell 1] =
        .error (.oversizedNumeral (some 4301)) ∧
      (Engine.create .default).body messages (.cell 5) [.cell 4] =
        .error (.oversizedNumeral none) := by
  refine ⟨?_, ?_, ?_⟩
  · have hm : messages.node (.cell 0) = .text "{01}\x7b{0}\x7d{2}" := rfl
    obtain ⟨pieces, hreads, -, hwritten, -⟩ :=
      body_template (Engine.create .default) messages hm (List.cons_ne_nil _ _)
        [.cell 1, .cell 2]
    have hpieces : pieces =
        [slot 1 "{01}", literal ['\x7b'], slot 0 "{0}", literal ['\x7d'], slot 2 "{2}"] :=
      hreads.eq_ofText.trans (by cbv)
    rw [hpieces] at hwritten
    rw [hwritten rfl]
    rfl
  · have hm : messages.node (.cell 3) = .text (zeros 4300) := rfl
    obtain ⟨pieces, -, honly, -, hfault⟩ :=
      body_template (Engine.create .default) messages hm (List.cons_ne_nil _ _) [.cell 1]
    have hreads : Reads (zeros 4300 ++ [])
        [slot (Text.number (List.replicate 4301 '0')) (zeros 4300)] :=
      Reads.nil.slot_cons (isPlaceholder_zeros 4300)
    have hlarge (position : Nat) :
        (slot position (zeros 4300)).fault? messages [.cell 1] =
          some (.oversizedNumeral (some 4301)) := by
      rw [MessagePiece.fault?, digitCount_zeros]
      exact if_pos (by decide)
    rw [List.append_nil] at hreads
    rw [← honly _ hreads] at hfault
    refine hfault _ ?_
    rw [List.findSome?_cons, hlarge]
  · have hm : messages.node (.cell 5) = .text "{0}" := rfl
    obtain ⟨pieces, hreads, -, -, hfault⟩ :=
      body_template (Engine.create .default) messages hm (List.cons_ne_nil _ _) [.cell 4]
    have hpieces : pieces = [slot 0 "{0}"] := hreads.eq_ofText.trans (by cbv)
    have hform : (slot 0 "{0}").fault? messages [.cell 4] = some (.oversizedNumeral none) := by
      have hnode : messages.node (.cell 4) = .integer (leastBeyond longestNumeral) := rfl
      have hplace : [Ref.cell 4][0]? = some (.cell 4) := rfl
      simp only [fault?, hplace, hnode, plain_oversized]
      decide
    rw [hpieces] at hfault
    refine hfault _ ?_
    rw [List.findSome?_cons, hform]

end Engine

end Expectation
