import Lectern.Text.Basic

/-!
# Control codes

A terminal takes some sequences of characters for a command, for instance to change the colour: an escape character and
a bracket, then parameters, then marks, then one character that says which command it is. What the command prints may be
read by something else, so such codes are left out. **`Text.withoutCodes`** is a text without them;
`withoutCodes_of_plain` says that a text without an escape character stays.
-/

set_option autoImplicit false

namespace Lectern.Text

/-- A character of the parameters of a code. -/
def isCodeParameter (c : Char) : Bool := '0' ≤ c && c ≤ '?'

/-- A mark behind the parameters of a code. -/
def isCodeMark (c : Char) : Bool := ' ' ≤ c && c ≤ '/'

/-- The character that a code ends with. -/
def isCodeEnd (c : Char) : Bool := '@' ≤ c && c ≤ '~'

/-- What follows the code that a text starts with. -/
def afterCode? : Text → Option Text
  | '\x1B' :: '[' :: s =>
    match (s.dropWhile isCodeParameter).dropWhile isCodeMark with
    | c :: rest => if isCodeEnd c then some rest else none
    | [] => none
  | _ => none

/-- A code has some length. -/
theorem length_of_afterCode? {s rest : Text} (h : afterCode? s = some rest) : rest.length < s.length := by
  unfold afterCode? at h
  split at h
  · next s =>
    split at h
    · next c t hd =>
      have := (((s.dropWhile isCodeParameter).dropWhile_suffix isCodeMark).trans
        (s.dropWhile_suffix isCodeParameter)).length_le
      split at h
      · cases h
        rw [hd] at this
        simp only [List.length_cons] at this ⊢
        omega
      · cases h
    · cases h
  · cases h

/-- The text without the codes in it. -/
def withoutCodes : Text → Text
  | [] => []
  | c :: s =>
    match _h : afterCode? (c :: s) with
    | some rest => withoutCodes rest
    | none => c :: withoutCodes s
termination_by s => s.length
decreasing_by
  · exact length_of_afterCode? _h
  · simp

/-- A text without an escape character stays. -/
theorem withoutCodes_of_plain {s : Text} (h : '\x1B' ∉ s) : withoutCodes s = s := by
  induction s with
  | nil => simp [withoutCodes]
  | cons c s ih =>
    have hc : afterCode? (c :: s) = none := by
      unfold afterCode?
      split
      · simp_all
      · rfl
    rw [withoutCodes]
    split
    · next hs => rw [hc] at hs; cases hs
    · rw [ih fun hm => h (List.mem_cons_of_mem _ hm)]

end Lectern.Text
