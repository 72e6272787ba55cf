import Expectation.Text.Digit

/-!
# Placeholders

A message may hold placeholders: a number in braces, in the digits of any script. From left to
right each of them is read where it begins; what lies between is literal. What takes the place of
a placeholder is not read again.
-/

namespace Expectation

/-- A piece of a message. -/
inductive MessagePiece where
  | literal (text : Text)
  | slot (position : Nat) (written : Text)
  deriving Repr, DecidableEq

namespace MessagePiece

/-- The text of a piece as it is written. -/
def source : MessagePiece → Text
  | literal text => text
  | slot _ written => written

/-- The number of digits between the braces of a placeholder; a literal piece has none. -/
def digitCount : MessagePiece → Nat
  | literal _ => 0
  | slot _ written => written.length - 2

/-- Read a placeholder from the front of a text: the digits in it and what follows it. -/
def readSlot? : Text → Option (Text × Text)
  | '\x7b' :: rest =>
    match rest.takeWhile isDigit, rest.dropWhile isDigit with
    | d :: digits, '\x7d' :: after => some (d :: digits, after)
    | _, _ => none
  | _ => none

theorem length_lt_of_readSlot? {t digits after : Text} (h : readSlot? t = some (digits, after)) :
    after.length < t.length := by
  unfold readSlot? at h
  split at h
  · rename_i rest
    split at h
    · rename_i hdrop
      have hle := (List.dropWhile_suffix isDigit (l := rest)).length_le
      rw [hdrop] at hle
      cases h
      simp only [List.length_cons] at hle ⊢
      omega
    · cases h
  · cases h

/-- Put a character in front of pieces, as a part of a literal one. -/
def prepend (c : Char) : List MessagePiece → List MessagePiece
  | literal text :: pieces => literal (c :: text) :: pieces
  | pieces => literal [c] :: pieces

/-- The pieces of a message. Follows `_PLACEHOLDER_SPLIT` and `_PLACEHOLDER`,
`assertive.engine:23–24`. -/
def ofText : Text → List MessagePiece
  | [] => []
  | c :: rest =>
    match _h : readSlot? (c :: rest) with
    | some (digits, after) =>
      slot (Text.number digits) ('\x7b' :: digits ++ ['\x7d']) :: ofText after
    | none => prepend c (ofText rest)
termination_by t => t.length
decreasing_by
  · exact length_lt_of_readSlot? _h
  · simp

end MessagePiece

end Expectation
