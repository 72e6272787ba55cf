/-!
# Text

Text is a list of characters, so positions and lengths count code points. String literals are
read as text where text is expected. The module holds the cutting and joining that the library
shares: lines, separators and the decimal writing of integers.
-/

namespace Expectation

/-- A finite sequence of characters; positions count code points. -/
abbrev Text := List Char

/-- A string literal stands for its characters. -/
instance : Coe String Text := ⟨String.toList⟩

/-- The test for equality of texts is equality. -/
instance : LawfulBEq Text := inferInstance

namespace Text

/-- Cut a text at every separator; there is always at least one piece, possibly empty. -/
def splitOn (separator : Char) : Text → List Text
  | [] => [[]]
  | c :: rest =>
    if c = separator then [] :: splitOn separator rest
    else
      match splitOn separator rest with
      | [] => [[c]]
      | piece :: pieces => (c :: piece) :: pieces

/-- The lines of a text, without their newlines; an empty text has one empty line. -/
def lines (t : Text) : List Text := splitOn '\n' t

/-- The text after the last newline. -/
def lastLine : Text → Text
  | [] => []
  | c :: rest => if '\n' ∈ c :: rest then lastLine rest else c :: rest

/-- Join pieces with a separator between neighbours. -/
def joinWith (separator : Text) : List Text → Text
  | [] => []
  | [piece] => piece
  | piece :: pieces => piece ++ separator ++ joinWith separator pieces

/-- Remove the longest run at either end whose characters satisfy `p`. -/
def trimBoth (p : Char → Bool) (t : Text) : Text :=
  ((t.dropWhile p).reverse.dropWhile p).reverse

/-- A character repeated; a negative count gives the empty text. -/
def repeated (c : Char) (count : Int) : Text := List.replicate count.toNat c

/-- The decimal digits of a natural number. -/
def ofNat (n : Nat) : Text := Nat.toDigits 10 n

/-- The decimal digits of an integer, after a minus sign if it is negative. -/
def ofInt : Int → Text
  | .ofNat n => ofNat n
  | .negSucc n => '-' :: ofNat (n + 1)

/-- `part` occurs in `whole` as a contiguous piece. -/
def occursIn (part : Text) : Text → Bool
  | [] => part.isEmpty
  | c :: rest => part.isPrefixOf (c :: rest) || occursIn part rest

/-- Lower-case the ASCII letters and keep every other character. -/
def lowerAscii (t : Text) : Text := t.map Char.toLower

/-- Strict order by code point, a proper beginning coming first. -/
def precedes : Text → Text → Bool
  | _, [] => false
  | [], _ :: _ => true
  | a :: s, b :: t => a.val < b.val || (a.val == b.val && precedes s t)

theorem splitOn_ne_nil (separator : Char) (t : Text) : splitOn separator t ≠ [] := by
  cases t with
  | nil => simp [splitOn]
  | cons c rest =>
    by_cases h : c = separator
    · simp [splitOn, h]
    · cases hs : splitOn separator rest <;> simp [splitOn, h, hs]

theorem joinWith_splitOn (separator : Char) (t : Text) :
    joinWith [separator] (splitOn separator t) = t := by
  induction t with
  | nil => rfl
  | cons c rest ih =>
    by_cases h : c = separator
    · cases hs : splitOn separator rest with
      | nil => exact absurd hs (splitOn_ne_nil separator rest)
      | cons piece pieces =>
        rw [hs] at ih
        simp [splitOn, h, hs, joinWith, ih]
    · cases hs : splitOn separator rest with
      | nil => exact absurd hs (splitOn_ne_nil separator rest)
      | cons piece pieces =>
        cases pieces with
        | nil => simp_all [splitOn, joinWith]
        | cons next others => simp_all [splitOn, joinWith]

end Text

end Expectation
