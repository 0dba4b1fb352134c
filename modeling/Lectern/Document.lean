import Lectern.Converter

/-!
# Whole documents

**`Document.convert`** turns notes into a document: it checks the settings, then the length of the lines, and feeds
the lines to a converter. The head of the notes is looked for only if their first line starts with a dollar.
-/

set_option autoImplicit false

namespace Lectern.Document

/-- Why notes cannot be converted. -/
inductive Failure where
  | settings (failure : SettingsError)
  /-- A line, counted from one, is longer than the settings allow. -/
  | lineTooLong (number : Nat) (limit : Int)
  | conversion (failure : Lectern.Failure)
deriving DecidableEq, Repr

/-- What a message says of notes that cannot be converted. -/
def Failure.message : Failure → Text
  | .settings failure => failure.message
  | .lineTooLong number limit =>
    "Line ".toList ++ Numeral.write number ++ " exceeds maximum allowed length of ".toList ++ Numeral.writeInt limit ++
      " characters".toList
  | .conversion failure => failure.message

/-- What comes of notes: the warnings, and the document unless the conversion fails. -/
structure Outcome where
  warnings : List Text
  document : Except Failure Text

/-- The text without a carriage return at its end. -/
def dropReturn (line : Text) : Text := (Text.before? ['\r'] line).getD line

/-- The lines of notes; a line end at the very end begins no line. -/
def lines (content : Text) : List Text :=
  let lines := (Text.splitLines content).map dropReturn
  if lines.getLast? = some [] then lines.dropLast else lines

/-- The number of the first line that is longer than the limit, if lines are counted from `number`. -/
def tooLong? (limit : Int) (number : Nat) : List Text → Option Nat
  | [] => none
  | line :: lines => if limit < line.length then some number else tooLong? limit (number + 1) lines

variable [Memory]

/-- Feeds a line to a converter; a line of the head leaves no line of the document. -/
def feed (line : Text) (converter : Converter) : Converter × Except Lectern.Failure (Option Text) :=
  if converter.progress.mode.head then
    let (converter, written) := converter.headLine line
    (converter, written.map fun written => written.map converter.print)
  else
    let (converter, text) := converter.line line
    (converter, text.map some)

/-- Feeds lines to a converter and gives the lines of the document. -/
def feedAll : List Text → Converter → Converter × Except Lectern.Failure (List Text)
  | [], converter => (converter, .ok [])
  | line :: lines, converter =>
    match feed line converter with
    | (converter, .error failure) => (converter, .error failure)
    | (converter, .ok text) =>
      match feedAll lines converter with
      | (converter, .error failure) => (converter, .error failure)
      | (converter, .ok texts) => (converter, .ok (text.toList ++ texts))

/-- The converter that the lines of notes are fed to. -/
def start (settings : Settings) (lines : List Text) : Converter :=
  let converter := Converter.new settings
  match lines with
  | ('$' :: _) :: _ => converter
  | _ => converter.endHead

/-- Converts lines with settings that have been checked. -/
def convertLines (settings : Settings) (lines : List Text) : Outcome :=
  match tooLong? settings.maxLineLength 1 lines with
  | some number => ⟨[], .error (.lineTooLong number settings.maxLineLength)⟩
  | none =>
    match feedAll lines (start settings lines) with
    | (_, .error failure) => ⟨[], .error (.conversion failure)⟩
    | (converter, .ok body) =>
      let (converter, ending) := converter.close
      ⟨ending.warnings, (ending.text.mapError .conversion).map fun text =>
        List.intercalate ['\n'] ([converter.preamble] ++ body ++ [text]) ++ ['\n']⟩

/-- Converts notes. -/
def convert (raw : RawSettings) (content : Text) : Outcome :=
  match raw.check with
  | .error failure => ⟨[], .error (.settings failure)⟩
  | .ok settings => convertLines settings (lines content)

end Lectern.Document
