import Expectation.Classifier.Standard
import Expectation.Proofs.Trace
import Expectation.Proofs.Value.Likeness

/-!
# Courses of inspections

What an inspection has printed decides how it goes on: two courses that are alike apart from the
values they have printed end alike if these values are written alike. The standard inspections print
parts of the value only, and do so alike for values of the same shape.
-/

namespace Expectation

namespace Inspection

/-- An inspection has only values of a list printed. -/
def PrintsOnly (parts : List Ref) : Inspection → Prop
  | done .. => True
  | fault _ => True
  | record _ next => next.PrintsOnly parts
  | print _ value next => value ∈ parts ∧ ∀ written result, (next written result).PrintsOnly parts

/-- An inspection may raise a fault by itself, whatever becomes of the values it has printed. -/
def Raises (cause : Fault) : Inspection → Prop
  | done .. => False
  | fault raised => raised = cause
  | record _ next => next.Raises cause
  | print _ _ next => ∃ written result, (next written result).Raises cause

/-- Two inspections are the same apart from the values they have printed, which are related. -/
inductive Alike (R : Ref → Ref → Prop) : Inspection → Inspection → Prop
  | done (written : Document) (result : Option Document) :
      Alike R (.done written result) (.done written result)
  | fault (cause : Fault) : Alike R (.fault cause) (.fault cause)
  | record {entries : List LogEntry} {next next' : Inspection} (h : Alike R next next') :
      Alike R (.record entries next) (.record entries next')
  | print {target : Document} {a b : Ref}
      {next next' : Document → Option Document → Inspection} (hab : R a b)
      (h : ∀ written result, Alike R (next written result) (next' written result)) :
      Alike R (.print target a next) (.print target b next')

variable {R : Ref → Ref → Prop} {parts : List Ref} {c c' : Inspection}
  {write write' : Document → Ref → Traced (Document × Option Document)}

/-- Inspections that are alike end alike where the values they have printed are written alike. -/
theorem Alike.run_eq (h : c.Alike R c')
    (hwrite : ∀ a b, R a b → ∀ target, write target a = write' target b) :
    c.run write = c'.run write' := by
  induction h with
  | done => rfl
  | fault => rfl
  | record _ ih => rw [run, run, ih]
  | print hab _ ih =>
    rw [run, run, hwrite _ _ hab]
    apply Traced.bind_congr_of_ok
    rintro ⟨written, result⟩ -
    exact ih written result

/-- An inspection is like itself in that it has only values of a list printed. -/
theorem PrintsOnly.alike (h : c.PrintsOnly parts) : c.Alike (fun a b => a = b ∧ a ∈ parts) c := by
  induction c with
  | done written result => exact .done written result
  | fault cause => exact .fault cause
  | record entries next ih => exact .record (ih h)
  | print target value next ih =>
    exact .print ⟨rfl, h.1⟩ fun written result => ih written result (h.2 written result)

/-- What an inspection has printed is related to something. -/
theorem Alike.printsOnly (h : c.Alike R c') (hR : ∀ a b, R a b → a ∈ parts) :
    c.PrintsOnly parts := by
  induction h with
  | done => exact trivial
  | fault => exact trivial
  | record _ ih => exact ih
  | print hab _ ih => exact ⟨hR _ _ hab, ih⟩

/-- A fault of an inspection is one of its own or that of a value it has printed. -/
theorem exists_of_run_eq_error (hc : c.PrintsOnly parts) {cause : Fault}
    (h : (c.run write).outcome = .error cause) :
    c.Raises cause ∨ ∃ value ∈ parts, ∃ target, (write target value).outcome = .error cause := by
  induction c with
  | done written result => cases h
  | fault raised =>
    cases h
    exact .inl rfl
  | record entries next ih =>
    rw [run, Traced.outcome_bind] at h
    exact ih hc h
  | print target value next ih =>
    rw [run, Traced.outcome_bind] at h
    cases hwritten : (write target value).outcome with
    | error raised =>
      rw [hwritten] at h
      cases h
      exact .inr ⟨value, hc.1, target, hwritten⟩
    | ok answer =>
      rw [hwritten] at h
      rcases ih answer.1 answer.2 (hc.2 _ _) h with hraises | hpart
      · exact .inl ⟨answer.1, answer.2, hraises⟩
      · exact .inr hpart

section Standard

variable {s : Store} {a b : Ref} {next next' : Document → Inspection}

/-- Inspections that go on alike from a form are alike. -/
theorem alike_withForm {next next' : Text → Inspection} (form : Except Fault Text)
    (h : ∀ text, (next text).Alike R (next' text)) :
    (withForm form next).Alike R (withForm form next') := by
  cases form with
  | ok text => exact h text
  | error cause => exact .fault cause

/-- Items at equal positions are printed alike. -/
theorem alike_printItems {xs ys : List Ref} (separator : Text) (h : List.Forall₂ R xs ys)
    (hnext : ∀ output, (next output).Alike R (next' output)) (output : Document) :
    (printItems separator next output xs).Alike R (printItems separator next' output ys) := by
  induction h generalizing output with
  | nil => exact hnext output
  | cons hab hrest ih =>
    cases hrest with
    | nil => exact .print hab fun written _ => hnext written
    | cons => exact .print hab fun written _ => ih _

/-- Entries at equal positions with keys of the same text are printed alike. -/
theorem alike_printEntries {xs ys : List (Ref × Ref)}
    (h : List.Forall₂ (fun x y => s.plain x.1 = s.plain y.1 ∧ R x.2 y.2) xs ys)
    (hnext : ∀ output, (next output).Alike R (next' output)) (output : Document) :
    (printEntries s next output xs).Alike R (printEntries s next' output ys) := by
  induction h generalizing output with
  | nil => exact hnext output
  | @cons x y xs ys hxy hrest ih =>
    cases hrest with
    | nil =>
      rw [printEntries, printEntries, hxy.1]
      exact alike_withForm _ fun _ => .print hxy.2 fun written _ => hnext written
    | cons =>
      rw [printEntries, printEntries, hxy.1]
      · exact alike_withForm _ fun _ => .print hxy.2 fun written _ => ih _
      · simp
      · simp

/-- Items at equal positions are printed alike, each after a space. -/
theorem alike_printSpaced {xs ys : List Ref} (h : List.Forall₂ R xs ys)
    (hnext : ∀ output, (next output).Alike R (next' output)) (output : Document) :
    (printSpaced next output xs).Alike R (printSpaced next' output ys) := by
  induction h generalizing output with
  | nil => exact hnext output
  | cons hab _ ih => exact .print hab fun written _ => ih written

/-- The parts of a value and of another one that have the same place. -/
abbrev InPlace (s : Store) (a b x y : Ref) : Prop := (x, y) ∈ (s.parts a).zip (s.parts b)

private theorem forall₂_inPlace {xs ys : List Ref} (ha : s.node a = .list xs)
    (hb : s.node b = .list ys) (hlength : xs.length = ys.length) :
    List.Forall₂ (InPlace s a b) xs ys := by
  refine List.forall₂_iff_zip.2 ⟨hlength, fun hmem => ?_⟩
  simpa [InPlace, Store.parts, ha, hb] using hmem

private theorem forall₂_entries {xs ys : List (Ref × Ref)} (ha : s.node a = .dict xs)
    (hb : s.node b = .dict ys)
    (hkeys : List.Forall₂
      (fun x y => s.node x.1 = s.node y.1 ∧ (s.node x.1).isContainer = false) xs ys) :
    List.Forall₂ (fun x y => s.plain x.1 = s.plain y.1 ∧ InPlace s a b x.2 y.2) xs ys := by
  obtain ⟨hlength, hzip⟩ := List.forall₂_iff_zip.1 hkeys
  refine List.forall₂_iff_zip.2 ⟨hlength, fun {x y} hmem => ⟨?_, ?_⟩⟩
  · obtain ⟨hnode, hatom⟩ := hzip hmem
    exact Store.plain_congr hnode hatom
  · simp only [InPlace, Store.parts, ha, hb]
    rw [List.zip_append (by simpa using hlength)]
    apply List.mem_append_right
    rw [List.zip_map]
    exact List.mem_map.2 ⟨(x, y), hmem, rfl⟩

variable {xs ys : List Ref} (output : Document) (depth depth' : Depth)

/-- Lists of the same length are written alike between brackets. -/
theorem alike_items (ha : s.node a = .list xs) (hb : s.node b = .list ys)
    (hlength : xs.length = ys.length) :
    (Inspect.items s output a depth).Alike (InPlace s a b) (Inspect.items s output b depth') := by
  unfold Inspect.items withElements Store.elements
  rw [ha, hb]
  exact alike_printItems _ (forall₂_inPlace ha hb hlength) (fun _ => .done _ _) _

/-- Lists of the same length are written alike between angles with the same number of levels
left. -/
theorem alike_depths (ha : s.node a = .list xs) (hb : s.node b = .list ys)
    (hlength : xs.length = ys.length) :
    (Inspect.depths s output a depth).Alike (InPlace s a b) (Inspect.depths s output b depth) := by
  unfold Inspect.depths withElements Store.elements
  rw [ha, hb]
  refine alike_withForm _ fun levels => ?_
  exact alike_printSpaced (forall₂_inPlace ha hb hlength) (fun _ => .done _ _) _

/-- Dictionaries with the same keys are written alike between braces. -/
theorem alike_entries {xs ys : List (Ref × Ref)} (ha : s.node a = .dict xs)
    (hb : s.node b = .dict ys)
    (hkeys : List.Forall₂
      (fun x y => s.node x.1 = s.node y.1 ∧ (s.node x.1).isContainer = false) xs ys) :
    (Inspect.entries s output a depth).Alike (InPlace s a b)
      (Inspect.entries s output b depth') := by
  unfold Inspect.entries
  rw [ha, hb]
  exact alike_printEntries (forall₂_entries ha hb hkeys) (fun _ => .done _ _) _

/-- A part in the place of another one is a part of its value. -/
theorem InPlace.mem_parts {x y : Ref} (h : InPlace s a b x y) : x ∈ s.parts a :=
  (List.of_mem_zip h).1

/-- Parts of one value that have the same place are the same. -/
theorem InPlace.eq {x y : Ref} (h : InPlace s a a x y) : x = y := by
  obtain ⟨i, hi, heq⟩ := List.getElem_of_mem h
  rw [List.getElem_zip] at heq
  cases heq
  rfl

/-- A dictionary is written with its values printed only. -/
theorem printsOnly_entries (s : Store) (a : Ref) :
    (Inspect.entries s output a depth).PrintsOnly (s.parts a) := by
  unfold Inspect.entries
  split
  · next entries hn =>
    have hvalues : List.Forall₂ (fun x y : Ref × Ref => s.plain x.1 = s.plain y.1 ∧ x.2 ∈ s.parts a)
        entries entries := by
      refine List.forall₂_same.2 fun entry hentry => ⟨rfl, ?_⟩
      simp only [Store.parts, hn]
      exact List.mem_append_right _ (List.mem_map_of_mem hentry)
    have hparts : ∀ x y : Ref, x ∈ s.parts a → x ∈ s.parts a := fun _ _ h => h
    exact (alike_printEntries hvalues (fun _ => .done _ _) _).printsOnly hparts
  · exact trivial

/-- The universal type has no value printed. -/
theorem printsOnly_universal (s : Store) (a : Ref) :
    (Behaviour.universal.inspect s output a depth).PrintsOnly parts := by
  simp only [Behaviour.universal]
  unfold withForm
  split
  · exact trivial
  · exact trivial

end Standard

end Inspection

end Expectation
