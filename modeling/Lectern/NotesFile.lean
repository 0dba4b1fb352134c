import Lectern.Document
import Lectern.Files.Notes

/-!
# Converting a file

**`NotesFile.convert`** reads a file of notes and converts it. The settings are checked before the file is looked for.
What goes wrong with the file is told with its path, but for errors that name it already.
-/

set_option autoImplicit false

namespace Lectern.NotesFile

/-- Why a file of notes has no document. -/
inductive Failure where
  | settings (error : SettingsError)
  | unreadable (error : FileError)
  | undecodable (path : Text) (failure : Utf8.Failure)
  | lineTooLong (path : Text) (number : Nat) (limit : Int)
  | unterminated (path : Text) (block : Block)
  | conversion (failure : Lectern.Failure)

/-- What a message says of a file of notes that has no document. -/
def Failure.message : Failure → Text
  | .settings error => error.message
  | .unreadable error => error.message
  | .undecodable path failure => "Invalid UTF-8 sequence in ".toList ++ path ++ ": ".toList ++ failure.message
  | .lineTooLong path number limit =>
    path ++ " contains a line at line ".toList ++ Numeral.write number ++
      " exceeding the maximum allowed length of ".toList ++ Numeral.writeInt limit ++ " characters.".toList
  | .unterminated path block => path ++ ": ".toList ++ (Lectern.Failure.unterminated block).message
  | .conversion failure => failure.message

/-- A failure to convert the text of a file. -/
def Failure.ofDocument (path : Text) : Document.Failure → Failure
  | .settings error => .settings error
  | .lineTooLong number limit => .lineTooLong path number limit
  | .conversion (.unterminated block) => .unterminated path block
  | .conversion failure => .conversion failure

/-- A failure to read a file. -/
def Failure.ofFile (path : Text) : FileError → Failure
  | .undecodable failure => .undecodable path failure
  | error => .unreadable error

/-- What comes of a file of notes: the warnings, and the document unless there is none. -/
structure Outcome where
  warnings : List Text
  document : Except Failure Text

variable [Memory]

/-- Converts the file of notes at the end of a path with settings that have been checked. -/
def convertChecked (site : Site) (settings : Settings) (path : Path) : Outcome :=
  match site.readText path with
  | .error error => ⟨[], .error (.ofFile path.text error)⟩
  | .ok content =>
    let outcome := Document.convertLines settings (Document.lines content)
    ⟨outcome.warnings, outcome.document.mapError (.ofDocument path.text)⟩

/-- Converts the file of notes at the end of a path. -/
def convert (site : Site) (raw : RawSettings) (path : Path) : Outcome :=
  match raw.check with
  | .error error => ⟨[], .error (.settings error)⟩
  | .ok settings => convertChecked site settings path

end Lectern.NotesFile
