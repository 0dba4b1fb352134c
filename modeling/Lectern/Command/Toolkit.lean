import Lectern.Files.Site
import Lectern.Settings.Limits

/-!
# Toolkits

The command does not take its arguments apart by itself, nor does it put texts, questions and errors on a terminal: a
**`Toolkit`** does this for it. Nothing is assumed of it but **`Toolkit.Documented`**: the notes are something that is
there and no directory, an argument that is wrong is told with an exit code of its own, complaints are shown, and a
question is answered in the affirmative only by a user who says yes.
-/

set_option autoImplicit false

namespace Lectern

/-- What the arguments of the command say. -/
structure Parameters where
  notes : Text
  /-- The file that the document is written to, unless it is printed. -/
  output? : Option Text
  /-- Whether the document may take the place of a file. -/
  overwrite : Bool
  title? : Option Text
  author? : Option Text
  date? : Option Text
  strict : Bool
deriving DecidableEq, Repr

/-- What a toolkit makes of arguments. -/
inductive Parsed where
  | parameters (parameters : Parameters)
  /-- The program has come to its end, with an exit code, what it printed, and what it printed of errors. -/
  | ended (code : Nat) (output errors : Text)
  /-- An argument is to be a path, but it is none. -/
  | unfit (reason : Unfit)
deriving DecidableEq, Repr

/-- Why a command gives up, for its user to read. -/
inductive Complaint where
  | badParameter (message : Text)
  | failure (message : Text)
  /-- The user does not agree. -/
  | aborted
deriving DecidableEq, Repr

/-- What a command needs to be run from a terminal. -/
structure Toolkit where
  /-- What the arguments say. -/
  parse : Site → Environment → List Text → Parsed
  /-- What is printed to ask a question, and whether the user agrees, who replies with the text that comes second; the
  question may not be one that can be printed, nor the reply one that can be read. -/
  confirm : Text → Text → Except Unencodable (Text × Bool)
  /-- What is printed for a text. -/
  echo : Text → Except Unencodable Text
  /-- What is printed for a text among the errors. -/
  echoError : Text → Text
  /-- What is printed among the errors for a complaint. -/
  complain : Complaint → Text
  /-- The exit code for a complaint. -/
  code : Complaint → Nat

/-! ## Replies -/

/-- The lines of what a user replies, whichever line ends there are. -/
def replies (input : Text) : List Text :=
  let lines := Text.splitLines (Text.universalLines input)
  if lines.getLast? = some [] then lines.dropLast else lines

/-- A reply without the blanks around it, in small letters. -/
def replyWord (reply : Text) : Text := (Text.trim reply).map Char.toLower

/-- Whether a reply says yes. -/
def saysYes (reply : Text) : Bool := replyWord reply == "y".toList || replyWord reply == "yes".toList

/-- The user has said yes. -/
def Agreed (input : Text) : Prop := ∃ reply ∈ replies input, saysYes reply = true

/-! ## Promises -/

/-- A character that every terminal shows as it is. -/
def isPlain (c : Char) : Bool := c.val < 128 && c != '\x1B'

/-- What the documentation of a toolkit promises. -/
structure Toolkit.Documented (kit : Toolkit) : Prop where
  /-- The notes are something that is there and no directory. -/
  notes : ∀ {site environment arguments parameters}, kit.parse site environment arguments = .parameters parameters →
    ∃ node, site.status parameters.notes = .ok node ∧ node.isDirectory = false
  /-- The output is named by the arguments. -/
  output : ∀ {site environment arguments parameters s}, kit.parse site environment arguments = .parameters parameters →
    parameters.output? = some s → ∀ c ∈ s, ∃ argument ∈ arguments, c ∈ argument
  /-- A program that has come to its end says so if it has failed. -/
  ended : ∀ {site environment arguments code printed errors},
    kit.parse site environment arguments = .ended code printed errors → code = 0 ∨ code ≤ 2 ∧ errors ≠ []
  /-- An argument is no path only for a character in it. -/
  unfit : ∀ {site environment arguments reason}, kit.parse site environment arguments = .unfit reason →
    ∃ argument ∈ arguments, ∃ c ∈ argument, site.fits c = false
  code_badParameter : ∀ message, kit.code (.badParameter message) = 2
  code_failure : ∀ message, kit.code (.failure message) = 1
  code_aborted : kit.code .aborted = 1
  /-- A hint on how the command is used may stand in front of the message. -/
  complain_badParameter : ∀ message, ∃ hint,
    kit.complain (.badParameter message) = hint ++ kit.echoError ("Error: Invalid value: ".toList ++ message ++ ['\n'])
  complain_failure : ∀ message,
    kit.complain (.failure message) = kit.echoError ("Error: ".toList ++ message ++ ['\n'])
  complain_aborted : kit.complain .aborted = kit.echoError "Aborted!\n".toList
  echoError_nil : kit.echoError [] = []
  /-- Plain characters are printed as they are. -/
  echoError_plain : ∀ {front : Text}, (∀ c ∈ front, isPlain c = true) → ∀ s,
    kit.echoError (front ++ s) = front ++ kit.echoError s
  /-- Only one who says yes agrees. -/
  confirm : ∀ {question input printed}, kit.confirm question input = .ok (printed, true) → Agreed input

end Lectern
