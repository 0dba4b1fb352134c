import Lectern.Command.Messages
import Lectern.NotesFile

/-!
# The command

**`Command.run`** converts the file of notes that its parameters name and prints the document, or writes it to a file.
It first makes a **`Plan`**: where the notes are, with which settings they are converted and where the document goes;
only then it asks whether a file may be replaced, converts the notes and writes. `site_run_of_ne_exit_zero` says that
files change only if the command succeeds.
-/

set_option autoImplicit false

namespace Lectern.Command

/-- What the command is run with. -/
structure Request where
  site : Site
  environment : Environment
  arguments : List Text
  /-- What the user replies to questions. -/
  input : Text

/-- What comes of a run of the command. -/
structure Result where
  site : Site
  output : Text
  errors : Text
  ending : Ending

/-! ## Plans -/

/-- Where a document goes. -/
structure Destination where
  path : Path
  /-- Whether the user has to agree, because there is something already. -/
  mustAsk : Bool
deriving DecidableEq, Repr

/-- How notes are converted. -/
structure Plan where
  notes : Path
  settings : Settings
  /-- The file that the document is written to, unless it is printed. -/
  destination? : Option Destination
deriving DecidableEq, Repr

/-- The settings that parameters choose. -/
def changes (parameters : Parameters) : List (Text × Value) :=
  let text (s? : Option Text) (setting : Setting) : List (Text × Value) :=
    s?.toList.map fun s => (setting.key, .text s)
  text parameters.title? .title ++ text parameters.author? .author ++ text parameters.date? .date ++
    if parameters.strict then [(Setting.strictBlocks.key, .bool true)] else []

/-- Where the document goes if a file is named for it, which must not be that of the notes. -/
def destination (site : Site) (notes : Path) (overwrite : Bool) (s : Text) : Except Stop Destination := do
  let path ← ((site.expand (.parse s)).bind (site.resolve false)).mapError fun error => .fault (.resolve error)
  if path = notes then .error (.usage .sameFile)
  else do
    let occupied ← (site.occupied path.text).mapError fun error => .fault (.path (.refused error))
    return ⟨path, occupied && !overwrite⟩

/-- Where the document goes; it is printed if no file is named for it. -/
def destination? (site : Site) (notes : Path) (overwrite : Bool) : Option Text → Except Stop (Option Destination)
  | none => .ok none
  | some s => (destination site notes overwrite s).map some

/-- How the notes are converted that parameters name. -/
def plan (site : Site) (environment : Environment) (parameters : Parameters) : Except Stop Plan := do
  let notes ← (site.findNotes parameters.notes).mapError .ofNotesError
  let settings ← (site.buildSettings notes.parent (changes parameters)).mapError .ofSearchError
  let settings ← (settings.limitedBy environment).mapError fun error => .complaint (.failure error.message)
  let _ ← (site.sizeWithin notes settings.maxFileSize).mapError .ofFileError
  let place ← destination? site notes parameters.overwrite parameters.output?
  return ⟨notes, settings, place⟩

/-! ## Runs -/

/-- The question whether a file may be replaced. -/
def question (path : Path) : Text := path.text ++ " already exists. Overwrite it?".toList

/-- What is printed to ask the user, and whether a plan may be carried out. -/
def consent (kit : Toolkit) (input : Text) (plan : Plan) : Except Unencodable (Text × Bool) :=
  match plan.destination? with
  | some ⟨path, true⟩ => kit.confirm (question path) input
  | _ => .ok ([], true)

/-- The warnings, one on each line. -/
def warningLines (kit : Toolkit) (warnings : List Text) : Text :=
  warnings.flatMap fun warning => kit.echoError (warning ++ ['\n'])

/-- Why the command ends when a file has no document. -/
def Stop.ofNotesFailure : NotesFile.Failure → Stop
  | .unreadable error => .ofFileError error
  | .conversion failure => .fault (.conversion failure)
  | failure => .complaint (.failure failure.message)

/-- Prints the document or writes it. -/
def deliver (kit : Toolkit) (site : Site) (document : Text) : Option Destination → Except Stop (Site × Text)
  | none =>
    match kit.echo document with
    | .ok printed => .ok (site, printed)
    | .error error => .error (.fault (.unencodable error))
  | some destination =>
    match site.write destination.path document with
    | .ok written => .ok (written, [])
    | .error error => .error (.ofFileError error)

/-- What comes of a run that stops, when some things have been printed. -/
def halt (kit : Toolkit) (site : Site) (printed errors : Text) : Stop → Result
  | .complaint complaint => ⟨site, printed, errors ++ kit.complain complaint, .exit (kit.code complaint)⟩
  | .fault error => ⟨site, printed, errors, .fault error⟩

variable [Memory]

/-- Carries a plan out when the user has been asked; `printed` is what was printed so far. -/
def carryOut (kit : Toolkit) (site : Site) (plan : Plan) (printed : Text) : Result :=
  let outcome := NotesFile.convertChecked site plan.settings plan.notes
  let warnings := warningLines kit outcome.warnings
  match outcome.document with
  | .error failure => halt kit site printed warnings (.ofNotesFailure failure)
  | .ok document =>
    match deliver kit site document plan.destination? with
    | .error stop => halt kit site printed warnings stop
    | .ok (written, output) => ⟨written, printed ++ output, warnings, .exit 0⟩

/-- Converts the notes that parameters name. -/
def convert (kit : Toolkit) (request : Request) (parameters : Parameters) : Result :=
  match plan request.site request.environment parameters with
  | .error stop => halt kit request.site [] [] stop
  | .ok plan =>
    match consent kit request.input plan with
    | .error error => halt kit request.site [] [] (.fault (.unencodable error))
    | .ok (printed, true) => carryOut kit request.site plan printed
    | .ok (printed, false) => halt kit request.site printed [] (.complaint .aborted)

/-- What the arguments of a request say. -/
def Request.parsed (kit : Toolkit) (request : Request) : Parsed :=
  kit.parse request.site request.environment request.arguments

/-- Runs the command. -/
def run (kit : Toolkit) (request : Request) : Result :=
  match request.parsed kit with
  | .ended code output errors => ⟨request.site, output, errors, .exit code⟩
  | .unfit reason => ⟨request.site, [], [], .fault (.path (.unfit reason))⟩
  | .parameters parameters => convert kit request parameters

/-! ## Files -/

omit [Memory] in
theorem site_halt (kit : Toolkit) (site : Site) (printed errors : Text) (stop : Stop) :
    (halt kit site printed errors stop).site = site := by
  cases stop <;> rfl

/-- A plan that is not carried out to its end changes no file. -/
theorem site_carryOut_of_ne_exit_zero {kit : Toolkit} {site : Site} {plan : Plan} {printed : Text}
    (h : (carryOut kit site plan printed).ending ≠ .exit 0) : (carryOut kit site plan printed).site = site := by
  revert h
  unfold carryOut
  dsimp only
  split
  · exact fun _ => site_halt ..
  · split
    · exact fun _ => site_halt ..
    · exact fun h => absurd rfl h

/-- Files change only if the command succeeds. -/
theorem site_run_of_ne_exit_zero {kit : Toolkit} {request : Request} (h : (run kit request).ending ≠ .exit 0) :
    (run kit request).site = request.site := by
  revert h
  unfold run
  split
  · exact fun _ => rfl
  · exact fun _ => rfl
  · unfold convert
    split
    · exact fun _ => site_halt ..
    · split
      · exact fun _ => site_halt ..
      · exact site_carryOut_of_ne_exit_zero
      · exact fun _ => site_halt ..

end Lectern.Command
