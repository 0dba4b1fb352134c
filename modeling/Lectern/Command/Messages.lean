import Lectern.Command.Toolkit
import Lectern.Converter
import Lectern.Files.Notes
import Lectern.Settings.Search

/-!
# Why the command ends

The command ends without a document for an error that it leaves to its toolkit as a complaint, or for one that it does
not catch, which is a **`Fault`**. **`Stop`** is every reason to end without a document.
-/

set_option autoImplicit false

namespace Lectern.Command

/-- What is wrong with the parameters of the command. -/
inductive UsageError where
  | notes (error : NotesError)
  | settings (error : SettingsError)
  /-- The document would take the place of the notes. -/
  | sameFile
deriving DecidableEq, Repr

/-- What a message says of wrong parameters. -/
def UsageError.message : UsageError → Text
  | .notes error => error.message
  | .settings error => error.message
  | .sameFile => "The output file must differ from the input file.".toList

/-- An error that the command does not catch. -/
inductive Fault where
  | path (error : PathError)
  | resolve (error : ResolveError)
  | notes (error : NotesError)
  | search (error : SearchError)
  | conversion (failure : Failure)
  /-- A text cannot be encoded to be printed or written. -/
  | unencodable (error : Unencodable)
deriving DecidableEq, Repr

/-- What a message says of an error that is not caught. -/
def Fault.message : Fault → Text
  | .path error => error.message
  | .resolve error => error.message
  | .notes error => error.message
  | .search error => error.message
  | .conversion failure => failure.message
  | .unencodable error => error.message

/-- How the command ends. -/
inductive Ending where
  | exit (code : Nat)
  | fault (error : Fault)
deriving DecidableEq, Repr

/-- Why the command ends without a document. -/
inductive Stop where
  | complaint (complaint : Complaint)
  | fault (error : Fault)
deriving DecidableEq, Repr

namespace Stop

/-- Wrong parameters. -/
def usage (error : UsageError) : Stop := .complaint (.badParameter error.message)

/-- An error of a file is shown, unless it is one of a text. -/
def ofFileError : FileError → Stop
  | .unfit reason => .fault (.path (.unfit reason))
  | .unencodable error => .fault (.unencodable error)
  | error => .complaint (.failure error.message)

/-- A path that leads to no notes is a wrong parameter, unless there is no telling where it leads. -/
def ofNotesError (error : NotesError) : Stop :=
  match error with
  | .missing _ | .unresolved _ _ | .irregular _ | .unfit _ => .usage (.notes error)
  | .noHome | .circular _ | .tooDeep | .refused _ => .fault (.notes error)

/-- Wrong settings are a wrong parameter; that there is no telling what they are is not caught. -/
def ofSearchError : SearchError → Stop
  | .settings error => .usage (.settings error)
  | error => .fault (.search error)

end Stop

end Lectern.Command
