import Lectern.Command.Toolkit
import Lectern.Program.Options
import Lectern.Program.Terminal

/-!
# The toolkit of the program

**`Program.toolkit`** is the toolkit that the program is run with. It answers a request for help or for the version,
checks the paths among the arguments, and asks a question until the reply means yes or no. What it prints may be read by
something else than a terminal, so control codes are left out.
-/

set_option autoImplicit false

namespace Lectern.Program

/-! ## Answers -/

/-- The version of the command. -/
def versionText : Text := "sparkdown, version 0.4.0\n".toList

/-- The line that shows how the command is used. -/
def usageLine : Text := "Usage: sparkdown [OPTIONS] FILEPATH\n".toList

/-- The description of the command. -/
def helpText : Text := usageLine ++ (String.intercalate "\n" [
  "",
  "  Entry point for converting notes to LaTeX.",
  "",
  "  Args:     filepath: Path to the notes file to convert.     output:",
  "  Destination file; stdout when omitted.     overwrite: Replace an existing",
  "  destination without confirmation.     title: Override for the default",
  "  document title.     author: Override for the default document author.",
  "  date: Override for the default document date.     strict: Treat unterminated",
  "  verbatim or math blocks as errors.",
  "",
  "  Returns:     None.",
  "",
  "  Raises:     click.BadParameter: If CLI parameters reference invalid paths or",
  "  the         configuration is invalid.     click.ClickException: If a limit",
  "  is exceeded, conversion fails, or the         output cannot be written.",
  "  click.Abort: If the user declines to replace an existing output file.",
  "",
  "  Examples:     sparkdown lecture.sd -o lecture.tex --title \"Lecture 3\"",
  "",
  "Options:",
  "  -v, --version      Show the version and exit.",
  "  -o, --output FILE  Write the LaTeX document to this file instead of stdout",
  "  -w, --overwrite    Replace the output file without asking",
  "  --title TEXT       Default document title",
  "  --author TEXT      Default document author",
  "  --date TEXT        Default document date",
  "  --strict           Fail on unterminated verbatim or math blocks",
  "  -h, --help         Show this message and exit.",
  ""]).toList

/-- The answer to a request for help or for the version: the first one counts. -/
def answer? (invocation : Invocation) : Option Text :=
  invocation.given.findSome? fun given =>
    match given.switch with
    | .help => some helpText
    | .version => some versionText
    | _ => none

/-! ## Errors -/

/-- What is wrong with the path of a file. -/
inductive PathProblem where
  | missing
  | directory
  | unreadable
  | unwritable
deriving DecidableEq, Repr

/-- What a message says of the path of a file. -/
def PathProblem.text : PathProblem → Text
  | .missing => " does not exist.".toList
  | .directory => " is a directory.".toList
  | .unreadable => " is not readable.".toList
  | .unwritable => " is not writable.".toList

/-- A parameter that is the path of a file. -/
structure PathParameter where
  /-- How a message names the parameter. -/
  name : Text
  mustExist : Bool
  mustBeWritable : Bool
deriving DecidableEq, Repr

/-- The path of the notes. -/
def notesParameter : PathParameter := ⟨"'FILEPATH'".toList, true, false⟩

/-- The path of the document. -/
def outputParameter : PathParameter := ⟨"'-o' / '--output'".toList, false, true⟩

/-- What is wrong with the arguments. -/
inductive ArgumentError where
  | option (error : OptionError)
  | noOperand
  | extraOperands (operands : List Text)
  | path (parameter : PathParameter) (s : Text) (problem : PathProblem)
deriving DecidableEq, Repr

namespace ArgumentError

/-- What a message says of wrong arguments. -/
def message : ArgumentError → Text
  | .option error => error.message
  | .noOperand => "Missing argument 'FILEPATH'.".toList
  | .extraOperands [operand] => "Got unexpected extra argument (".toList ++ operand ++ ")".toList
  | .extraOperands operands =>
    "Got unexpected extra arguments (".toList ++ List.intercalate [' '] operands ++ ")".toList
  | .path parameter s problem =>
    "Invalid value for ".toList ++ parameter.name ++ ": File ".toList ++ Text.quote s ++ problem.text

/-- Whether the message comes with a hint on how the command is used; it does not if an option has its value wrong. -/
def hasHint : ArgumentError → Bool
  | .option (.missingValue _) | .option (.unexpectedValue _) => false
  | _ => true

end ArgumentError

/-- The line that shows an error. -/
def errorLine (message : Text) : Text := Text.withoutCodes ("Error: ".toList ++ message ++ ['\n'])

/-- A hint on how the command is used. -/
def hint : Text := usageLine ++ "Try 'sparkdown --help' for help.\n\n".toList

/-- The end of a program whose arguments are wrong. -/
def ArgumentError.ended (error : ArgumentError) : Parsed :=
  .ended 2 [] ((if error.hasHint then hint else []) ++ errorLine error.message)

/-! ## Arguments -/

/-- What is wrong with what there is at the end of a path, if it is not allowed. -/
def PathParameter.problem? (parameter : PathParameter) (site : Site) (s : Text) : Except Unfit (Option PathProblem) :=
  match site.status s with
  | .error (.unfit reason) => .error reason
  | .error (.refused _) => .ok (if parameter.mustExist then some .missing else none)
  | .ok node =>
    let barred (barrier? : Place → Option Barrier) : Bool :=
      ((site.locate true s).toOption.bind barrier?).isSome
    .ok <|
      if node.isDirectory then some .directory
      else if barred site.system.rights.read then some .unreadable
      else if parameter.mustBeWritable && barred site.system.rights.write then some .unwritable
      else none

/-- The path of a file must be allowed. -/
def PathParameter.check (parameter : PathParameter) (site : Site) (s : Text) : Except Parsed Unit :=
  match parameter.problem? site s with
  | .error reason => .error (.unfit reason)
  | .ok (some problem) => .error (ArgumentError.path parameter s problem).ended
  | .ok none => .ok ()

/-- The path of the document must be allowed, if there is one. -/
def checkOutput (site : Site) : Option Text → Except Parsed Unit
  | none => .ok ()
  | some s => outputParameter.check site s

/-- There must be one operand, which names the notes. -/
def checkOperands (site : Site) : List Text → Except Parsed Text
  | [] => .error ArgumentError.noOperand.ended
  | s :: extra => do
    notesParameter.check site s
    if extra = [] then .ok s else .error (ArgumentError.extraOperands extra).ended

/-- The parameters that arguments give. -/
def parameters (site : Site) (arguments : List Text) : Except Parsed Parameters := do
  let invocation ← (Invocation.read arguments).mapError fun error => (ArgumentError.option error).ended
  match answer? invocation with
  | some text => .error (.ended 0 text [])
  | none =>
    checkOutput site (invocation.value? .output)
    let notes ← checkOperands site invocation.operands
    return ⟨notes, invocation.value? .output, invocation.has .overwrite, invocation.value? .title,
      invocation.value? .author, invocation.value? .date, invocation.has .strict⟩

/-- What arguments say. -/
def parse (site : Site) (arguments : List Text) : Parsed :=
  match parameters site arguments with
  | .ok parameters => .parameters parameters
  | .error parsed => parsed

/-! ## Questions -/

/-- What a reply means, if it means anything; an empty one means no. -/
def meaning? (reply : Text) : Option Bool :=
  let word := replyWord reply
  if saysYes reply then some true
  else if word = "n".toList ∨ word = "no".toList ∨ word = [] then some false
  else none

/-- Asks until a reply means something, and gives what is printed and whether the user agrees; one who does not reply
does not agree. -/
def ask (question : Text) : List Text → Text × Bool
  | [] => (question, false)
  | reply :: replies =>
    match meaning? reply with
    | some agreed => (question, agreed)
    | none =>
      let (printed, agreed) := ask question replies
      (question ++ errorLine "invalid input".toList ++ printed, agreed)

/-! ## The toolkit -/

/-- What is printed for a complaint. -/
def complain : Complaint → Text
  | .badParameter message => hint ++ errorLine ("Invalid value: ".toList ++ message)
  | .failure message => errorLine message
  | .aborted => "Aborted!\n".toList

/-- The exit code for a complaint. -/
def code : Complaint → Nat
  | .badParameter _ => 2
  | .failure _ | .aborted => 1

/-- The toolkit of the program. -/
def toolkit : Toolkit where
  parse := fun site _ arguments => parse site arguments
  confirm := fun question input => .ok (ask (Text.withoutCodes (question ++ " [y/N]: ".toList)) (replies input))
  echo := fun s => .ok (Text.withoutCodes s)
  echoError := Text.withoutCodes
  complain := complain
  code := code

end Lectern.Program
