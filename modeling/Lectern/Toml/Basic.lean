import Lectern.Value.Basic

/-!
# Tables in text

Configuration files are tables in TOML. A reader takes a part from the front of a text and gives what it read with the
rest, or says why the file is no table: **`Toml.Failure`**. This module holds what all readers share: blanks, comments
and rows of digits.
-/

set_option autoImplicit false

namespace Lectern.Toml

/-- Why a text is no table. -/
inductive Failure where
  /-- The text does not have the form of a table, or defines something twice. -/
  | malformed
  /-- A decimal integer has more digits than can be read. -/
  | tooLong (digits : Nat)
  /-- Values are inside of each other more deeply than the stack has room for. -/
  | tooDeep
deriving DecidableEq, Repr

/-- The end of a reader that finds something else than it needs. -/
def malformed {α : Type} : Except Failure α := .error .malformed

/-- Blanks inside a line. -/
def isSpace (c : Char) : Bool := c == ' ' || c == '\t'

/-- Blanks and line ends. -/
def isSpaceOrNewline (c : Char) : Bool := isSpace c || c == '\n'

/-- Control characters, which stand neither in comments nor in texts; the tab is none of them. -/
def isControl (c : Char) : Bool := (c.toNat < 32 && c != '\t') || c.toNat == 127

/-- The text without the blanks in front of it. -/
def skipSpace (s : Text) : Text := s.dropWhile isSpace

/-- Takes `lead` from the front of a text. -/
def expect (lead s : Text) : Except Failure Text :=
  match Text.after? lead s with
  | some rest => .ok rest
  | none => malformed

/-- The text before the first `delimiter`, in which no character may be `illegal`, and the text after it. -/
def readUntil (illegal : Char → Bool) (delimiter s : Text) : Except Failure (Text × Text) :=
  match Text.splitAt? delimiter s with
  | some (content, rest) => if content.any illegal then malformed else .ok (content, rest)
  | none => malformed

/-- Skips a comment up to the end of its line. -/
def skipComment : Text → Except Failure Text
  | '#' :: s =>
    if (s.takeWhile (· != '\n')).any isControl then malformed else .ok (s.dropWhile (· != '\n'))
  | s => .ok s

/-- Skips blanks, line ends and comments; each round skips at least one character. -/
def skipGaps (rounds : Nat) (s : Text) : Except Failure Text :=
  match rounds with
  | 0 => .ok s
  | rounds + 1 => do
    let rest ← skipComment (s.dropWhile isSpaceOrNewline)
    if rest.length < s.length then skipGaps rounds rest else return s

/-- Skips all blanks, line ends and comments in front of a text. -/
def skipAllGaps (s : Text) : Except Failure Text := skipGaps s.length s

/-- A digit from `0` to `9`. -/
def isDecimal (c : Char) : Bool := '0' ≤ c && c ≤ '9'

/-- The value of a digit in hexadecimal. -/
def hexValue? (c : Char) : Option Nat :=
  if '0' ≤ c ∧ c ≤ '9' then some (c.toNat - 48)
  else if 'a' ≤ c ∧ c ≤ 'f' then some (c.toNat - 87)
  else if 'A' ≤ c ∧ c ≤ 'F' then some (c.toNat - 55)
  else none

/-- The value of a row of digits. -/
def valueOf (base : Nat) (digits : Text) : Nat := digits.foldl (fun n c => base * n + (hexValue? c).getD 0) 0

/-- The digits that go on a row, where a single underscore may stand in front of each, and the rest. -/
def digitsAfter (isDigit : Char → Bool) : Text → Text × Text
  | '_' :: c :: s =>
    if isDigit c then
      let (digits, rest) := digitsAfter isDigit s
      (c :: digits, rest)
    else ([], '_' :: c :: s)
  | c :: s =>
    if isDigit c then
      let (digits, rest) := digitsAfter isDigit s
      (c :: digits, rest)
    else ([], c :: s)
  | [] => ([], [])

/-- A row of digits with single underscores between them, and the rest. -/
def digitRow? (isDigit : Char → Bool) : Text → Option (Text × Text)
  | c :: s =>
    if isDigit c then
      let (digits, rest) := digitsAfter isDigit s
      some (c :: digits, rest)
    else none
  | [] => none

end Lectern.Toml
