import Lectern.Decimal.Reading
import Lectern.Toml.Basic

/-!
# Scalars

Texts between quotes, numbers, dates and times as they stand in a file. **`Toml.text`** reads what starts with a quote,
and **`Toml.scalar`** what starts with neither a quote nor a bracket: a truth value, a date or a number, tried in this
order.
-/

set_option autoImplicit false

namespace Lectern.Toml

/-! ## Texts -/

/-- The character that a number of hexadecimal digits in front of a text stands for. -/
def hexCharacter (width : Nat) (s : Text) : Except Failure (Char × Text) :=
  let digits := s.take width
  let code := valueOf 16 digits
  if digits.length = width ∧ digits.all (fun c => (hexValue? c).isSome) ∧ (code < 0xD800 ∨ 0xDFFF < code) ∧
      code ≤ 0x10FFFF then
    .ok (Char.ofNat code, s.drop width)
  else malformed

/-- What follows the line end that a backslash takes away: the text from its next character that is no blank. -/
def continued (s : Text) : Except Failure Text :=
  match skipSpace s with
  | [] => .ok []
  | '\n' :: rest => .ok (rest.dropWhile isSpaceOrNewline)
  | _ => malformed

/-- What an escape stands for; the text starts behind the backslash. In a text of several lines a backslash takes a
line end away with the blanks that follow. -/
def escaped (multiline : Bool) : Text → Except Failure (Text × Text)
  | 'b' :: s => .ok (['\x08'], s)
  | 't' :: s => .ok (['\t'], s)
  | 'n' :: s => .ok (['\n'], s)
  | 'f' :: s => .ok (['\x0C'], s)
  | 'r' :: s => .ok (['\r'], s)
  | '"' :: s => .ok (['"'], s)
  | '\\' :: s => .ok (['\\'], s)
  | 'u' :: s => (hexCharacter 4 s).map fun (c, rest) => ([c], rest)
  | 'U' :: s => (hexCharacter 8 s).map fun (c, rest) => ([c], rest)
  | c :: s => if multiline && isSpaceOrNewline c then (continued (c :: s)).map fun rest => ([], rest) else malformed
  | [] => malformed

/-- The rest of a text in double quotes; each round reads at least one character. -/
def basicText (multiline : Bool) : Nat → Text → Except Failure (Text × Text)
  | 0, _ => malformed
  | _ + 1, [] => malformed
  | rounds + 1, c :: s =>
    let next (front rest : Text) : Except Failure (Text × Text) :=
      (basicText multiline rounds rest).map fun (text, rest) => (front ++ text, rest)
    if c = '"' then
      if !multiline then .ok ([], s)
      else
        match s with
        | '"' :: '"' :: rest => .ok ([], rest)
        | rest => next ['"'] rest
    else if c = '\\' then do
      let (text, rest) ← escaped multiline s
      next text rest
    else if isControl c && !(multiline && c == '\n') then malformed
    else next [c] s

/-- Up to two quotes that still belong to a text of several lines. -/
def trailingQuotes (c : Char) : Text × Text → Text × Text
  | (text, a :: b :: rest) =>
    if a = c then if b = c then (text ++ [c, c], rest) else (text ++ [c], b :: rest) else (text, a :: b :: rest)
  | (text, [a]) => if a = c then (text ++ [c], []) else (text, [a])
  | (text, []) => (text, [])

/-- The text without a line end in front of it. -/
def dropNewline : Text → Text
  | '\n' :: s => s
  | s => s

/-- A text on one line, in single or double quotes. -/
def lineText : Text → Except Failure (Text × Text)
  | '\'' :: s => readUntil isControl ['\''] s
  | '"' :: s => basicText false (s.length + 1) s
  | _ => malformed

/-- A text in single or double quotes, or in three of them. -/
def text : Text → Except Failure (Text × Text)
  | '\'' :: '\'' :: '\'' :: s =>
    (readUntil (fun c => isControl c && c != '\n') "'''".toList (dropNewline s)).map (trailingQuotes '\'')
  | '"' :: '"' :: '"' :: s => (basicText true (s.length + 1) (dropNewline s)).map (trailingQuotes '"')
  | s => lineText s

/-! ## Dates and times -/

/-- The number that digits in front of a text stand for, exactly `width` of them. -/
def fixedNumber? (width : Nat) (s : Text) : Option (Nat × Text) :=
  let digits := s.take width
  if digits.length = width ∧ digits.all isDecimal then some (valueOf 10 digits, s.drop width) else none

/-- A number of two digits within bounds. -/
def twoDigits? (low high : Nat) (s : Text) : Option (Nat × Text) := do
  let (n, rest) ← fixedNumber? 2 s
  if low ≤ n ∧ n ≤ high then some (n, rest) else none

/-- The fraction of a second in millionths; further digits do not count. -/
def fraction : Text → Nat × Text
  | '.' :: s =>
    match s.takeWhile isDecimal with
    | [] => (0, '.' :: s)
    | digits => (valueOf 10 ((digits ++ List.replicate 6 '0').take 6), s.dropWhile isDecimal)
  | s => (0, s)

/-- A time of day. -/
def time? (s : Text) : Option (Time × Text) := do
  let (hour, s) ← twoDigits? 0 23 s
  let s ← Text.after? [':'] s
  let (minute, s) ← twoDigits? 0 59 s
  let s ← Text.after? [':'] s
  let (second, s) ← twoDigits? 0 59 s
  let (micros, s) := fraction s
  return (⟨hour, minute, second, micros⟩, s)

/-- The distance of a zone from universal time in minutes. -/
def offset? : Text → Option (Int × Text)
  | 'Z' :: s | 'z' :: s => some (0, s)
  | sign :: s => do
    let factor : Int ← if sign = '+' then some 1 else if sign = '-' then some (-1) else none
    let (hours, s) ← twoDigits? 0 23 s
    let s ← Text.after? [':'] s
    let (minutes, s) ← twoDigits? 0 59 s
    return (factor * (60 * hours + minutes : Nat), s)
  | [] => none

/-- A date. -/
def date? (s : Text) : Option (Date × Text) := do
  let (year, s) ← fixedNumber? 4 s
  let s ← Text.after? ['-'] s
  let (month, s) ← twoDigits? 1 12 s
  let s ← Text.after? ['-'] s
  let (day, s) ← twoDigits? 1 31 s
  return (⟨year, month, day⟩, s)

/-- The time of day that may follow a date. -/
def timeAfter? : Text → Option (Time × Text)
  | 'T' :: s | 't' :: s | ' ' :: s => time? s
  | _ => none

/-- A date, perhaps with a time of day. -/
def dateTime? (s : Text) : Option (Except Failure (Value × Text)) := do
  let (date, s) ← date? s
  let valid {α : Type} (a : α) : Except Failure α := if date.isValid then .ok a else malformed
  match timeAfter? s with
  | none => return valid (.date date, s)
  | some (time, s) =>
    match offset? s with
    | none => return valid (.dateTime date time none, s)
    | some (offset, s) => return valid (.dateTime date time (some offset), s)

/-! ## Numbers -/

/-- An integer in hexadecimal, octal or binary. -/
def basedInteger? : Text → Option (Int × Text)
  | '0' :: 'x' :: s => read 16 s
  | '0' :: 'o' :: s => read 8 s
  | '0' :: 'b' :: s => read 2 s
  | _ => none
where
  read (base : Nat) (s : Text) : Option (Int × Text) :=
    (digitRow? (fun c => (hexValue? c).any (· < base)) s).map fun (digits, rest) => (valueOf base digits, rest)

/-- The digits in front of the point of a decimal number; only zero starts with a zero. -/
def wholePart? : Text → Option (Text × Text)
  | '0' :: s => some (['0'], s)
  | s => digitRow? isDecimal s

/-- The digits behind the point of a decimal number, if there is one. -/
def fractionPart : Text → Option Text × Text
  | '.' :: s =>
    match digitRow? isDecimal s with
    | some (digits, rest) => (some digits, rest)
    | none => (none, '.' :: s)
  | s => (none, s)

/-- The power of ten of a decimal number, if there is one. -/
def exponentPart (s : Text) : Option Int × Text :=
  match s with
  | c :: rest =>
    if c = 'e' ∨ c = 'E' then
      let (negative, digits) := Numeral.splitSign rest
      match digitRow? isDecimal digits with
      | some (digits, rest) =>
        (some (if negative then -(valueOf 10 digits : Int) else valueOf 10 digits), rest)
      | none => (none, s)
    else (none, s)
  | [] => (none, s)

/-- A decimal number: an integer unless it has a point or a power of ten. -/
def decimal? (s : Text) : Option (Except Failure (Value × Text)) := do
  let (negative, s) := Numeral.splitSign s
  let (whole, s) ← wholePart? s
  let (fraction, s) := fractionPart s
  let (exponent, s) := exponentPart s
  match fraction, exponent with
  | none, none =>
    if Numeral.maxDigits < whole.length then return .error (.tooLong whole.length)
    else
      let n := valueOf 10 whole
      return .ok (.int (if negative then -(n : Int) else n), s)
  | fraction, exponent =>
    let fraction := fraction.getD []
    let decimal : Decimal := ⟨valueOf 10 (whole ++ fraction), exponent.getD 0 - fraction.length⟩
    return .ok (.float (decimal.toFloat negative), s)

/-- Infinity, or what is no number, perhaps behind a sign. -/
def specialNumber? (s : Text) : Option (Value × Text) := do
  let (negative, s) := Numeral.splitSign s
  let (x, s) ←
    match Text.after? "inf".toList s with
    | some rest => some ((1.0 / 0.0 : Float), rest)
    | none => (Text.after? "nan".toList s).map fun rest => ((0.0 / 0.0 : Float), rest)
  return (.float (if negative then -x else x), s)

/-- A truth value. -/
def truthValue? (s : Text) : Option (Value × Text) :=
  match Text.after? "true".toList s with
  | some rest => some (.bool true, rest)
  | none => (Text.after? "false".toList s).map fun rest => (.bool false, rest)

/-- A value that is neither a text nor made of other values. -/
def scalar (s : Text) : Except Failure (Value × Text) :=
  match truthValue? s with
  | some found => .ok found
  | none =>
  match dateTime? s with
  | some found => found
  | none =>
  match time? s with
  | some (time, rest) => .ok (.time time, rest)
  | none =>
  match basedInteger? s with
  | some (n, rest) => .ok (.int n, rest)
  | none =>
  match decimal? s with
  | some found => found
  | none =>
  match specialNumber? s with
  | some found => .ok found
  | none => malformed

end Lectern.Toml
