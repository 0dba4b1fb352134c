import Lectern.Text.Basic
import Lectern.Text.Printable

/-!
# Quoted text

Messages show a text between quotes. Single quotes are used unless the text holds a single quote and no double one;
a backslash, the quote in use and every character that is not printable are escaped. **`Text.quote`** is the quoted
form and `mem_quote_of_isPrintable` says that other characters stay.
-/

set_option autoImplicit false

namespace Lectern.Text

/-- The lower-case hexadecimal digits of a number, at least `width` of them. -/
def hexadecimal (width n : Nat) : Text :=
  let digits := Nat.toDigits 16 n
  List.replicate (width - digits.length) '0' ++ digits

/-- The form of one character between quotes. -/
def escape (quoteMark c : Char) : Text :=
  if c = quoteMark ∨ c = '\\' then ['\\', c]
  else if c = '\t' then ['\\', 't']
  else if c = '\n' then ['\\', 'n']
  else if c = '\r' then ['\\', 'r']
  else if isPrintable c then [c]
  else if c.toNat < 0x100 then ['\\', 'x'] ++ hexadecimal 2 c.toNat
  else if c.toNat < 0x10000 then ['\\', 'u'] ++ hexadecimal 4 c.toNat
  else ['\\', 'U'] ++ hexadecimal 8 c.toNat

/-- The quote that a text is put in. -/
def quoteMark (s : Text) : Char := if '\'' ∈ s ∧ '"' ∉ s then '"' else '\''

/-- The text between quotes. -/
def quote (s : Text) : Text := [quoteMark s] ++ s.flatMap (escape (quoteMark s)) ++ [quoteMark s]

/-- A printable character of the text stands in its quoted form. -/
theorem mem_quote_of_isPrintable {s : Text} {c : Char} (hc : c ∈ s) (hp : isPrintable c) : c ∈ quote s := by
  have : c ∈ escape (quoteMark s) c := by
    by_cases hm : c = quoteMark s ∨ c = '\\'
    · simp [escape, hm]
    · have ht : c ≠ '\t' := by rintro rfl; exact absurd hp (by decide)
      have hn : c ≠ '\n' := by rintro rfl; exact absurd hp (by decide)
      have hr : c ≠ '\r' := by rintro rfl; exact absurd hp (by decide)
      simp [escape, hm, ht, hn, hr, hp]
  simp only [quote, List.mem_append, List.mem_flatMap]
  exact .inl (.inr ⟨c, hc, this⟩)

end Lectern.Text
