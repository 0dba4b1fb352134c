import Lectern.Text.Numeral

/-!
# UTF-8

Files hold bytes. **`Utf8.decode`** reads bytes as a text, or says which of them are no character and why;
`Utf8.encode` gives the bytes of a text. A character has one to four bytes: the first tells how many there are, and the
bounds of the second rule out characters that need fewer bytes, surrogates and numbers beyond the last character.
-/

set_option autoImplicit false

namespace Lectern.Utf8

/-- Why bytes are no character. -/
inductive Reason where
  /-- No character starts with this byte. -/
  | invalidStart
  /-- The byte behind is not one that goes on the character. -/
  | invalidContinuation
  /-- The bytes end before the character does. -/
  | unexpectedEnd
deriving DecidableEq, Repr

/-- What a message says of a reason. -/
def Reason.text : Reason → Text
  | .invalidStart => "invalid start byte".toList
  | .invalidContinuation => "invalid continuation byte".toList
  | .unexpectedEnd => "unexpected end of data".toList

/-- Bytes that are no character. -/
structure Failure where
  /-- The first of them. -/
  first : UInt8
  /-- How many bytes stand before them. -/
  position : Nat
  /-- How many they are. -/
  count : Nat
  reason : Reason
deriving DecidableEq, Repr

/-- What a message says of bytes that are no character. -/
def Failure.message (failure : Failure) : Text :=
  let place :=
    if failure.count = 1 then
      "byte 0x".toList ++ Text.hexadecimal 2 failure.first.toNat ++ " in position ".toList ++
        Numeral.write failure.position
    else
      "bytes in position ".toList ++ Numeral.write failure.position ++ ['-'] ++
        Numeral.write (failure.position + failure.count - 1)
  "'utf-8' codec can't decode ".toList ++ place ++ ": ".toList ++ failure.reason.text

/-- A character of which not all bytes have been read. -/
structure Pending where
  first : UInt8
  /-- How many bytes have been read. -/
  count : Nat
  /-- The number that they stand for. -/
  value : Nat
  /-- How many bytes are missing. -/
  missing : Nat
  /-- The least byte that can be the next one. -/
  low : UInt8
  /-- The greatest byte that can be the next one. -/
  high : UInt8
deriving DecidableEq, Repr

/-- The end of reading inside a character. -/
def Pending.failure (pending : Pending) (position : Nat) (reason : Reason) : Failure :=
  ⟨pending.first, position - pending.count, pending.count, reason⟩

/-- The character that starts with a byte of 128 or more. -/
def start? (b : UInt8) : Option Pending :=
  if 0xC2 ≤ b ∧ b ≤ 0xDF then some ⟨b, 1, b.toNat - 0xC0, 1, 0x80, 0xBF⟩
  else if 0xE0 ≤ b ∧ b ≤ 0xEF then
    some ⟨b, 1, b.toNat - 0xE0, 2, if b = 0xE0 then 0xA0 else 0x80, if b = 0xED then 0x9F else 0xBF⟩
  else if 0xF0 ≤ b ∧ b ≤ 0xF4 then
    some ⟨b, 1, b.toNat - 0xF0, 3, if b = 0xF0 then 0x90 else 0x80, if b = 0xF4 then 0x8F else 0xBF⟩
  else none

/-- Reads the bytes behind `position` others; `done` are the characters before them, the last one first. -/
def decodeFrom (done : Text) (position : Nat) (pending : Option Pending) : List UInt8 → Except Failure Text
  | [] =>
    match pending with
    | none => .ok done.reverse
    | some pending => .error (pending.failure position .unexpectedEnd)
  | b :: bytes =>
    match pending with
    | none =>
      if b < 0x80 then decodeFrom (Char.ofNat b.toNat :: done) (position + 1) none bytes
      else
        match start? b with
        | some pending => decodeFrom done (position + 1) (some pending) bytes
        | none => .error ⟨b, position, 1, .invalidStart⟩
    | some pending =>
      if pending.low ≤ b ∧ b ≤ pending.high then
        let value := 64 * pending.value + (b.toNat - 0x80)
        if pending.missing = 1 then decodeFrom (Char.ofNat value :: done) (position + 1) none bytes
        else
          decodeFrom done (position + 1)
            (some ⟨pending.first, pending.count + 1, value, pending.missing - 1, 0x80, 0xBF⟩) bytes
      else .error (pending.failure position .invalidContinuation)

/-- The text that bytes stand for. -/
def decode (bytes : List UInt8) : Except Failure Text := decodeFrom [] 0 none bytes

/-- The bytes of a text. -/
def encode (s : Text) : List UInt8 := s.flatMap String.utf8EncodeChar

end Lectern.Utf8
