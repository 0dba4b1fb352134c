import Lectern.Settings.Basic
import Lectern.Text.Numeral

/-!
# Limits from the environment

A variable of the environment can set the size of a file and the length of a line, whatever the settings say.
**`Limit.inEffect`** is the number that counts: a variable has to be a positive integer if it is there.
-/

set_option autoImplicit false

namespace Lectern

/-- The variables that surround a program, by name. -/
abbrev Environment := List (Text × Text)

/-- A number that the environment can set. -/
inductive Limit where
  | fileSize
  | lineLength
deriving DecidableEq, Repr

/-- Why a variable sets no limit. -/
inductive LimitError where
  | notInteger (limit : Limit) (text : Text)
  | notPositive (limit : Limit) (n : Int)
deriving DecidableEq, Repr

namespace Limit

/-- The variable that sets a limit. -/
def variableName : Limit → Text
  | .fileSize => "SPARKDOWN_MAX_FILE_SIZE".toList
  | .lineLength => "SPARKDOWN_MAX_LINE_LENGTH".toList

/-- The limit that counts, which is `default` if the environment sets none. -/
def inEffect (environment : Environment) (limit : Limit) (default : Int) : Except LimitError Int :=
  match environment.lookup limit.variableName with
  | none => .ok default
  | some text =>
    match Numeral.read text with
    | .error _ => .error (.notInteger limit text)
    | .ok n => if n ≤ 0 then .error (.notPositive limit n) else .ok n

end Limit

/-- What a message says of a variable that sets no limit. -/
def LimitError.message : LimitError → Text
  | .notInteger limit text =>
    "Invalid value for ".toList ++ limit.variableName ++ ": ".toList ++ text ++ " (expected positive integer)".toList
  | .notPositive limit n =>
    limit.variableName ++ " must be a positive integer, got ".toList ++ Numeral.writeInt n ++ ".".toList

/-- The settings with the limits that the environment sets. -/
def Settings.limitedBy (environment : Environment) (settings : Settings) : Except LimitError Settings := do
  let maxFileSize ← Limit.fileSize.inEffect environment settings.maxFileSize
  let maxLineLength ← Limit.lineLength.inEffect environment settings.maxLineLength
  return { settings with maxFileSize, maxLineLength }

end Lectern
