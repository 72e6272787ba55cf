import Expectation.Text.Blank
import Expectation.Pattern.Delimited

/-!
# Flag markers

A name that is evaluated inside an assertion may hold markers: `[flag]` becomes the word `flag`
and a space if the flag is set, `[!flag]` if it is not, and nothing otherwise. One space after a
marker belongs to it. The ends of the name are stripped.
-/

namespace Expectation

/-- A marker of a name: a flag and whether the marker asks for its absence. -/
structure Marker where
  flag : Text
  negated : Bool
  deriving Repr, DecidableEq

namespace Marker

/-- The marker that stands between brackets; a lone exclamation mark is a flag. -/
def ofInner : Text → Marker
  | '!' :: c :: rest => ⟨c :: rest, true⟩
  | inner => ⟨inner, false⟩

/-- What a marker becomes. Follows `substitute`, `assertive.context:87–89`. -/
def written (isSet : Text → Bool) (marker : Marker) : Text :=
  if isSet marker.flag != marker.negated then marker.flag ++ [' '] else []

/-- A text without one space at its front. -/
def skipSpace : Text → Text
  | ' ' :: rest => rest
  | t => t

theorem length_skipSpace_le (t : Text) : (skipSpace t).length ≤ t.length := by
  unfold skipSpace
  split <;> simp

/-- Replace every marker of a name, from left to right. -/
def replaceAll (isSet : Text → Bool) : Text → Text
  | [] => []
  | c :: rest =>
    match _h : Delimited.read? '[' ']' (c :: rest) with
    | some run => written isSet (ofInner run.inner) ++ replaceAll isSet (skipSpace run.after)
    | none => c :: replaceAll isSet rest
termination_by t => t.length
decreasing_by
  · exact Nat.lt_of_le_of_lt (length_skipSpace_le _) (Delimited.length_after_lt _h)
  · simp

/-- The name that a marked name stands for under an assignment of flags. Follows
`AssertionContext.expand_flags`, `assertive.context:84–91`. -/
def unmark (isSet : Text → Bool) (name : Text) : Text := (replaceAll isSet name).strip

end Marker

end Expectation
