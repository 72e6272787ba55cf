import Mathlib.Data.List.Infix
import Expectation.Pattern.Validity
import Expectation.Proofs.Pattern.Grammar

/-!
# The balance of patterns

Reading a pattern, at most one flag or one choice is open at any time: once two delimiters are open
together, or one twice, some later character is an offence or the pattern ends unbalanced. A valid
pattern that closes nothing before it opens it therefore reads as segments.
-/

namespace Expectation

namespace Pattern

/-- Nothing is closed before it is opened: no beginning of the pattern closes more brackets or
parentheses than it opens. -/
def OpensFirst (pattern : Text) : Prop :=
  ∀ before ∈ pattern.inits,
    before.count ']' ≤ before.count '[' ∧ before.count ')' ≤ before.count '('

instance (pattern : Text) : Decidable (OpensFirst pattern) :=
  inferInstanceAs (Decidable (∀ before ∈ pattern.inits,
    before.count ']' ≤ before.count '[' ∧ before.count ')' ≤ before.count '('))

namespace Tally

/-- The tally after a character. -/
def read (tally : Tally) (c : Char) : Tally := { tally.count c with previous := some c }

/-- Nothing is open. -/
def Level (tally : Tally) : Prop :=
  tally.openBrackets = tally.closeBrackets ∧ tally.openParens = tally.closeParens

/-- One bracket is open and no parenthesis. -/
def InFlag (tally : Tally) : Prop :=
  tally.openBrackets = tally.closeBrackets + 1 ∧ tally.openParens = tally.closeParens

/-- One parenthesis is open and no bracket. -/
def InChoice (tally : Tally) : Prop :=
  tally.openBrackets = tally.closeBrackets ∧ tally.openParens = tally.closeParens + 1

/-- Two delimiters are open. -/
def Tangled (tally : Tally) : Prop :=
  tally.closeBrackets + 2 ≤ tally.openBrackets ∨ tally.closeParens + 2 ≤ tally.openParens ∨
    (tally.closeBrackets < tally.openBrackets ∧ tally.closeParens < tally.openParens)

/-- Nothing in the rest of a pattern is closed before it is opened. -/
def Ahead (tally : Tally) (rest : Text) : Prop :=
  ∀ before, before <+: rest →
    tally.closeBrackets + before.count ']' ≤ tally.openBrackets + before.count '[' ∧
      tally.closeParens + before.count ')' ≤ tally.openParens + before.count '('

@[simp] theorem openBrackets_read (tally : Tally) (c : Char) :
    (tally.read c).openBrackets = tally.openBrackets + if c = '[' then 1 else 0 := by
  simp only [read, count]
  split_ifs <;> simp_all

@[simp] theorem closeBrackets_read (tally : Tally) (c : Char) :
    (tally.read c).closeBrackets = tally.closeBrackets + if c = ']' then 1 else 0 := by
  simp only [read, count]
  split_ifs <;> simp_all

@[simp] theorem openParens_read (tally : Tally) (c : Char) :
    (tally.read c).openParens = tally.openParens + if c = '(' then 1 else 0 := by
  simp only [read, count]
  split_ifs <;> simp_all

@[simp] theorem closeParens_read (tally : Tally) (c : Char) :
    (tally.read c).closeParens = tally.closeParens + if c = ')' then 1 else 0 := by
  simp only [read, count]
  split_ifs <;> simp_all

theorem firstOffence?_cons_eq_none {pattern : Text} {tally : Tally} {c : Char} {rest : Text} :
    firstOffence? pattern tally (c :: rest) = none ↔
      offence? pattern (tally.count c) c = none ∧
        firstOffence? pattern (tally.read c) rest = none := by
  simp [firstOffence?, read]

theorem firstOffence?_nil_eq_none {pattern : Text} {tally : Tally} :
    firstOffence? pattern tally [] = none ↔ tally.Level := by
  simp only [firstOffence?, imbalance?, Level]
  split_ifs <;> simp_all

theorem Ahead.now {tally : Tally} {rest : Text} (h : tally.Ahead rest) :
    tally.closeBrackets ≤ tally.openBrackets ∧ tally.closeParens ≤ tally.openParens := by
  simpa using h [] List.nil_prefix

theorem Ahead.read {tally : Tally} {c : Char} {rest : Text} (h : tally.Ahead (c :: rest)) :
    (tally.read c).Ahead rest := by
  intro before hbefore
  have := h (c :: before) (List.cons_prefix_cons.2 ⟨rfl, hbefore⟩)
  simp only [List.count_cons, beq_iff_eq, openBrackets_read, closeBrackets_read, openParens_read,
    closeParens_read] at this ⊢
  omega

/-- Where no bracket is open, none is closed. -/
theorem Ahead.ne_closeBracket {tally : Tally} {c : Char} {rest : Text}
    (ha : tally.Ahead (c :: rest)) (h : tally.openBrackets = tally.closeBrackets) : c ≠ ']' := by
  rintro rfl
  have := ha.read.now
  simp only [closeBrackets_read, openBrackets_read, Char.reduceEq, ↓reduceIte] at this
  omega

/-- Where no parenthesis is open, none is closed. -/
theorem Ahead.ne_closeParen {tally : Tally} {c : Char} {rest : Text}
    (ha : tally.Ahead (c :: rest)) (h : tally.openParens = tally.closeParens) : c ≠ ')' := by
  rintro rfl
  have := ha.read.now
  simp only [closeParens_read, openParens_read, Char.reduceEq, ↓reduceIte] at this
  omega

/-- A closing bracket is no offence only where one flag is open and has a name. -/
theorem offence?_closeBracket {pattern : Text} {tally : Tally}
    (hle : tally.closeBrackets < tally.openBrackets)
    (h : offence? pattern (tally.count ']') ']' = none) :
    tally.openBrackets ≠ tally.closeBrackets + 2 ∧ tally.openParens = tally.closeParens ∧
      tally.previous ≠ some '[' := by
  simp only [offence?, closingBracket?, count, Char.reduceEq, ↓reduceIte,
    not_lt.2 (Nat.succ_le_of_lt hle)] at h
  split_ifs at h
  simp_all

/-- A closing parenthesis is no offence only where one choice is open and its last alternative is
not empty. -/
theorem offence?_closeParen {pattern : Text} {tally : Tally}
    (hle : tally.closeParens < tally.openParens)
    (h : offence? pattern (tally.count ')') ')' = none) :
    tally.openParens ≠ tally.closeParens + 2 ∧ tally.openBrackets = tally.closeBrackets ∧
      tally.previous ≠ some '(' ∧ tally.previous ≠ some '|' := by
  simp only [offence?, closingParen?, endOfAlternative?, count, Char.reduceEq, ↓reduceIte,
    not_lt.2 (Nat.succ_le_of_lt hle), Option.orElse_eq_orElse, Option.orElse_eq_or,
    Option.or_eq_none_iff] at h
  have hnesting := h.1
  have halternative := h.2
  split_ifs at hnesting halternative
  simp_all

/-- A bar is no offence only after another character than a bar and an opening parenthesis. -/
theorem offence?_bar {pattern : Text} {tally : Tally} (hle : tally.closeParens ≤ tally.openParens)
    (h : offence? pattern (tally.count '|') '|' = none) :
    tally.previous ≠ some '(' ∧ tally.previous ≠ some '|' := by
  simp only [offence?, endOfAlternative?, count, Char.reduceEq, ↓reduceIte, not_lt.2 hle] at h
  split_ifs at h
  simp_all

/-- Once two delimiters are open, there is no way back. -/
theorem Tangled.read {pattern : Text} {tally : Tally} {c : Char} {rest : Text}
    (h : tally.Tangled) (ha : tally.Ahead (c :: rest))
    (hc : offence? pattern (tally.count c) c = none) : (tally.read c).Tangled := by
  have hnow := ha.now
  have hnext := ha.read.now
  simp only [Tangled, openBrackets_read, closeBrackets_read, openParens_read,
    closeParens_read] at h hnext ⊢
  by_cases hbracket : c = ']'
  · subst hbracket
    have hlt : tally.closeBrackets < tally.openBrackets := by
      simp only [Char.reduceEq, ↓reduceIte] at hnext
      omega
    have := offence?_closeBracket hlt hc
    simp only [Char.reduceEq, ↓reduceIte]
    omega
  · by_cases hparen : c = ')'
    · subst hparen
      have hlt : tally.closeParens < tally.openParens := by
        simp only [Char.reduceEq, ↓reduceIte] at hnext
        omega
      have := offence?_closeParen hlt hc
      simp only [Char.reduceEq, ↓reduceIte]
      omega
    · rw [if_neg hbracket, if_neg hparen]
      omega

/-- Where two delimiters are open, the rest of a pattern holds an offence. -/
theorem Tangled.firstOffence?_ne_none {pattern : Text} {tally : Tally} {rest : Text}
    (h : tally.Tangled) (ha : tally.Ahead rest) : firstOffence? pattern tally rest ≠ none := by
  induction rest generalizing tally with
  | nil =>
    intro hnone
    have hlevel := firstOffence?_nil_eq_none.1 hnone
    simp only [Tangled, Level] at h hlevel
    omega
  | cons c rest ih =>
    intro hnone
    have hstep := firstOffence?_cons_eq_none.1 hnone
    exact ih (h.read ha hstep.1) ha.read hstep.2

/-- A second delimiter tangles. -/
theorem tangled_read {tally : Tally} (h : tally.InFlag ∨ tally.InChoice) {c : Char}
    (hc : c = '[' ∨ c = '(') : (tally.read c).Tangled := by
  simp only [InFlag, InChoice] at h
  simp only [Tangled, openBrackets_read, closeBrackets_read, openParens_read, closeParens_read]
  rcases hc with rfl | rfl
  · simp only [Char.reduceEq, ↓reduceIte]
    omega
  · simp only [Char.reduceEq, ↓reduceIte]
    omega

/-- An open flag has its name up to a bracket that closes it. -/
theorem InFlag.exists_name {pattern : Text} {tally : Tally} {rest : Text} (h : tally.InFlag)
    (ha : tally.Ahead rest) (hnone : firstOffence? pattern tally rest = none) :
    ∃ name after tally', rest = name ++ ']' :: after ∧ Free name ∧
      (tally.previous = some '[' → name ≠ []) ∧
      Level tally' ∧ tally'.Ahead after ∧ firstOffence? pattern tally' after = none := by
  induction rest generalizing tally with
  | nil =>
    have hlevel := firstOffence?_nil_eq_none.1 hnone
    simp only [InFlag, Level] at h hlevel
    omega
  | cons c rest ih =>
    have hstep := firstOffence?_cons_eq_none.1 hnone
    have hcounts := h
    simp only [InFlag] at hcounts
    by_cases hclose : c = ']'
    · subst hclose
      have hprevious := (offence?_closeBracket (by omega) hstep.1).2.2
      refine ⟨[], rest, tally.read ']', rfl, by simp [Free], fun hp => absurd hp hprevious, ?_,
        ha.read, hstep.2⟩
      simp only [Level, openBrackets_read, closeBrackets_read, openParens_read, closeParens_read,
        Char.reduceEq, ↓reduceIte]
      omega
    · by_cases hopen : c = '[' ∨ c = '('
      · have htangled := tangled_read (.inl h) hopen
        exact absurd hstep.2 (htangled.firstOffence?_ne_none ha.read)
      · have hparen := ha.ne_closeParen hcounts.2
        rw [not_or] at hopen
        have hin : (tally.read c).InFlag := by
          simp [InFlag, hclose, hopen, hparen, hcounts]
        obtain ⟨name, after, tally', hrest, hfree, -, hlater⟩ := ih hin ha.read hstep.2
        refine ⟨c :: name, after, tally', by rw [hrest]; rfl, ?_, by simp, hlater⟩
        intro d hd
        rcases List.mem_cons.1 hd with rfl | hd
        · simp [delimiters, hclose, hopen, hparen]
        · exact hfree d hd

/-- An open choice has its alternatives up to a parenthesis that closes it. -/
theorem InChoice.exists_alternatives {pattern : Text} {tally : Tally} {rest : Text}
    (h : tally.InChoice) (ha : tally.Ahead rest)
    (hnone : firstOffence? pattern tally rest = none) :
    ∃ first others after tally', rest = Text.joinWith ['|'] (first :: others) ++ ')' :: after ∧
      (Free first ∧ '|' ∉ first) ∧
      (tally.previous = some '(' ∨ tally.previous = some '|' → first ≠ []) ∧
      (∀ text ∈ others, text ≠ [] ∧ Free text ∧ '|' ∉ text) ∧
      Level tally' ∧ tally'.Ahead after ∧ firstOffence? pattern tally' after = none := by
  induction rest generalizing tally with
  | nil =>
    have hlevel := firstOffence?_nil_eq_none.1 hnone
    simp only [InChoice, Level] at h hlevel
    omega
  | cons c rest ih =>
    have hstep := firstOffence?_cons_eq_none.1 hnone
    have hcounts := h
    simp only [InChoice] at hcounts
    by_cases hclose : c = ')'
    · subst hclose
      have hprevious := (offence?_closeParen (by omega) hstep.1).2.2
      refine ⟨[], [], rest, tally.read ')', rfl, by simp [Free], by simp [hprevious], by simp, ?_,
        ha.read, hstep.2⟩
      simp only [Level, openBrackets_read, closeBrackets_read, openParens_read, closeParens_read,
        Char.reduceEq, ↓reduceIte]
      omega
    · by_cases hopen : c = '[' ∨ c = '('
      · have htangled := tangled_read (.inr h) hopen
        exact absurd hstep.2 (htangled.firstOffence?_ne_none ha.read)
      · have hbracket := ha.ne_closeBracket hcounts.1
        rw [not_or] at hopen
        have hin : (tally.read c).InChoice := by
          simp [InChoice, hclose, hopen, hbracket, hcounts]
        obtain ⟨first, others, after, tally', hrest, hfirst, hne, hothers, hlater⟩ :=
          ih hin ha.read hstep.2
        by_cases hbar : c = '|'
        · -- The bar ends an empty beginning and the next alternative starts after it.
          subst hbar
          have hprevious := offence?_bar (by omega) hstep.1
          refine ⟨[], first :: others, after, tally', ?_, by simp [Free], by simp [hprevious], ?_,
            hlater⟩
          · rw [hrest]
            simp [Text.joinWith]
          · intro text ht
            rcases List.mem_cons.1 ht with rfl | ht
            · exact ⟨hne (.inr rfl), hfirst⟩
            · exact hothers text ht
        · refine ⟨c :: first, others, after, tally', ?_, ⟨?_, ?_⟩, by simp, hothers, hlater⟩
          · rw [hrest]
            cases others <;> simp [Text.joinWith]
          · intro d hd
            rcases List.mem_cons.1 hd with rfl | hd
            · simp [delimiters, hclose, hopen, hbracket]
            · exact hfirst.1 d hd
          · simp [Ne.symm hbar, hfirst.2]

end Tally

namespace Reads

/-- A flag or a choice in front of a pattern is read in front of its segments. -/
theorem cons_source {after : Text} {parts : List Segment} {part : Segment}
    (h : Reads after parts) (hp : part.Proper) (hl : ¬ part.IsLiteral) :
    Reads (part.source ++ after) (part :: parts) where
  source := by rw [List.flatMap_cons, h.source]
  proper := List.forall_mem_cons.2 ⟨hp, h.proper⟩
  maximal := List.isChain_cons.2 ⟨fun _ _ hpart => absurd hpart hl, h.maximal⟩

/-- A character in front of a pattern belongs to literal text if it is no delimiter. -/
theorem exists_cons_char {rest : Text} {parts : List Segment} (h : Reads rest parts) {c : Char}
    (hc : c ∉ delimiters) : ∃ parts', Reads (c :: rest) parts' := by
  have hnew : Segment.Proper (.literal [c]) := by
    simp [Segment.Proper, Free, hc]
  match parts, h with
  | [], h =>
    refine ⟨[.literal [c]], ?_, by simpa using hnew, by simp⟩
    simp [Segment.source, ← h.source]
  | .literal text :: parts, h =>
    have htext : Segment.Proper (.literal text) := h.proper _ (by simp)
    refine ⟨.literal (c :: text) :: parts, ?_, ?_, ?_⟩
    · simp [Segment.source, ← h.source]
    · refine List.forall_mem_cons.2 ⟨⟨by simp, ?_⟩, fun p hp => h.proper p (by simp [hp])⟩
      exact List.forall_mem_cons.2 ⟨hc, htext.2⟩
    · have := List.isChain_cons.1 h.maximal
      exact List.isChain_cons.2 ⟨fun next hn _ => this.1 next hn trivial, this.2⟩
  | .flag name :: parts, h =>
    refine ⟨.literal [c] :: .flag name :: parts, ?_, ?_, ?_⟩
    · simp [Segment.source, ← h.source]
    · exact List.forall_mem_cons.2 ⟨hnew, h.proper⟩
    · refine List.isChain_cons.2 ⟨?_, h.maximal⟩
      intro next hn _
      cases hn
      exact id
  | .choice texts :: parts, h =>
    refine ⟨.literal [c] :: .choice texts :: parts, ?_, ?_, ?_⟩
    · simp [Segment.source, ← h.source]
    · exact List.forall_mem_cons.2 ⟨hnew, h.proper⟩
    · refine List.isChain_cons.2 ⟨?_, h.maximal⟩
      intro next hn _
      cases hn
      exact id

end Reads

/-- From where nothing is open, the rest of a pattern without offence reads as segments. -/
theorem exists_reads_of_level {pattern : Text} {tally : Tally} {rest : Text}
    (h : tally.Level) (ha : tally.Ahead rest)
    (hnone : Tally.firstOffence? pattern tally rest = none) : ∃ parts, Reads rest parts := by
  match rest, ha, hnone with
  | [], _, _ => exact ⟨[], rfl, by simp, by simp⟩
  | c :: rest, ha, hnone =>
    have hstep := Tally.firstOffence?_cons_eq_none.1 hnone
    simp only [Tally.Level] at h
    by_cases hflag : c = '['
    · subst hflag
      have hin : (tally.read '[').InFlag := by simp [Tally.InFlag, h]
      obtain ⟨name, after, tally', hrest, hfree, hne, hlevel, hahead, hlater⟩ :=
        hin.exists_name ha.read hstep.2
      have hproper : Segment.Proper (.flag name) := ⟨hne rfl, hfree⟩
      have hlen : after.length < rest.length + 1 := by
        rw [hrest]
        simp
        omega
      obtain ⟨parts, hparts⟩ := exists_reads_of_level hlevel hahead hlater
      have := hparts.cons_source hproper id
      exact ⟨_, by simpa [Segment.source, hrest] using this⟩
    · by_cases hchoice : c = '('
      · subst hchoice
        have hin : (tally.read '(').InChoice := by simp [Tally.InChoice, h]
        obtain ⟨first, others, after, tally', hrest, hfirst, hne, hothers, hlevel, hahead,
          hlater⟩ := hin.exists_alternatives ha.read hstep.2
        have hproper : Segment.Proper (.choice (first :: others)) :=
          ⟨by simp, List.forall_mem_cons.2 ⟨⟨hne (.inl rfl), hfirst⟩, hothers⟩⟩
        have hlen : after.length < rest.length + 1 := by
          rw [hrest]
          simp
          omega
        obtain ⟨parts, hparts⟩ := exists_reads_of_level hlevel hahead hlater
        have := hparts.cons_source hproper id
        exact ⟨_, by simpa [Segment.source, hrest] using this⟩
      · -- Nothing is open, so the character closes nothing.
        have hclose : c ≠ ']' ∧ c ≠ ')' := ⟨ha.ne_closeBracket h.1, ha.ne_closeParen h.2⟩
        have hlevel : (tally.read c).Level := by simp [Tally.Level, hflag, hchoice, hclose, h]
        obtain ⟨parts, hparts⟩ := exists_reads_of_level hlevel ha.read hstep.2
        exact hparts.exists_cons_char (by simp [delimiters, hflag, hchoice, hclose])
termination_by rest.length

/-- A pattern is valid if it holds something, is stripped, and is scanned without an offence. -/
theorem valid_iff {pattern : Text} :
    Valid pattern ↔ pattern ≠ [] ∧ pattern = pattern.strip ∧
      Tally.firstOffence? pattern .start pattern = none := by
  rw [Valid, fault?]
  split_ifs with hempty hblank
  · exact ⟨fun h => absurd h (by simp), fun h => absurd hempty h.1⟩
  · exact ⟨fun h => absurd h (by simp), fun h => absurd h.2.1 hblank⟩
  · exact ⟨fun h => ⟨hempty, not_not.1 hblank, h⟩, fun h => h.2.2⟩

/-- To close nothing before it is opened is to do so from the start of the pattern on. -/
theorem opensFirst_iff_ahead {pattern : Text} : OpensFirst pattern ↔ Tally.start.Ahead pattern := by
  simp only [OpensFirst, Tally.Ahead, Tally.start, List.mem_inits, Nat.zero_add]

/-- A pattern that closes nothing before it opens it does not from its start on. -/
theorem OpensFirst.ahead {pattern : Text} (ho : OpensFirst pattern) : Tally.start.Ahead pattern :=
  opensFirst_iff_ahead.1 ho

/-- A valid pattern that closes nothing before it opens it reads as segments. -/
theorem exists_reads_of_valid {pattern : Text} (hv : Valid pattern) (ho : OpensFirst pattern) :
    ∃ parts, Reads pattern parts :=
  exists_reads_of_level ⟨rfl, rfl⟩ ho.ahead (valid_iff.1 hv).2.2

end Pattern
end Expectation
