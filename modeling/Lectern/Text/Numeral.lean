import Lectern.Text.Basic
import Lectern.Text.Digit
import Lectern.Text.Quoted

/-!
# Numerals

An integer is written in decimal: blanks, a sign, digits of any script with single underscores between them, blanks.
**`Numeral.read`** gives its value and says why a text has none; `Numeral.write` is the plain form of a number.
-/

set_option autoImplicit false

namespace Lectern.Numeral

/-- The largest count of digits that is still read. -/
def maxDigits : Nat := 4300

/-- Why a text is no numeral. -/
inductive Failure where
  /-- The text does not have the form of a numeral. -/
  | malformed (text : Text)
  /-- There are more digits than `maxDigits`. -/
  | tooLong (digits : Nat)
deriving DecidableEq, Repr

/-- What a message says of a text that is no numeral; it shows 200 characters of the text at most. -/
def Failure.message : Failure → Text
  | .malformed text => "invalid literal for int() with base 10: ".toList ++ (Text.quote text).take 200
  | .tooLong digits =>
    s!"Exceeds the limit ({maxDigits} digits) for integer string conversion: value has {digits} digits; ".toList ++
      "use sys.set_int_max_str_digits() to increase the limit".toList

/-- A number in decimal digits. -/
def write (n : Nat) : Text := Nat.toDigits 10 n

/-- An integer in decimal digits, a negative one behind a minus. -/
def writeInt : Int → Text
  | .ofNat n => write n
  | .negSucc n => '-' :: write (n + 1)

/-- The number that a row of digits stands for, most significant first. -/
def ofDigits (digits : List Nat) : Nat := digits.foldl (fun n d => 10 * n + d) 0

/-- The blanks that may surround a numeral: all but the four information separators. -/
def isMargin (c : Char) : Bool := Text.isBlank c && !(28 ≤ c.toNat && c.toNat ≤ 31)

/-- The values of the digits in a row where underscores stand only singly between two digits. -/
def digitRow? (row : Text) : Option (List Nat) :=
  match row with
  | [] => none
  | [c] => (Text.digitValue? c).map fun d => [d]
  | c :: '_' :: rest => do
    let d ← Text.digitValue? c
    return d :: (← digitRow? rest)
  | c :: rest => do
    let d ← Text.digitValue? c
    return d :: (← digitRow? rest)

/-- The sign in front of a text, as whether it is a minus, and the text behind it. -/
def splitSign : Text → Bool × Text
  | '-' :: s => (true, s)
  | '+' :: s => (false, s)
  | s => (false, s)

/-- The integer that a text is the numeral of. -/
def read (text : Text) : Except Failure Int :=
  let (negative, s) := splitSign (text.dropWhile isMargin)
  let inRow (c : Char) : Bool := Text.isDigit c || c == '_'
  match digitRow? (s.takeWhile inRow) with
  | none => .error (.malformed text)
  | some digits =>
    if maxDigits < digits.length then .error (.tooLong digits.length)
    else if (s.dropWhile inRow).all isMargin then
      .ok (if negative then -(ofDigits digits : Int) else ofDigits digits)
    else .error (.malformed text)

end Lectern.Numeral
