import Lectern.Command.Run
import Lectern.Program.Toolkit

/-!
# Program

**`main`** runs the command on the files of a computer with the toolkit of the program. It looks at the files that the
arguments lead to, gives the command what it saw, and prints and writes what the command says.
-/

set_option autoImplicit false

namespace Lectern.Program

/-! ## Looking at files -/

/-- The text of the path of a place. -/
def pathOf (place : Place) : String := String.ofList (⟨.top, place⟩ : Path).text

/-- What keeps the program from something, if an error says so. -/
def barrierOf : IO.Error → Barrier
  | .permissionDenied .. => .denied
  | _ => .broken

/-- What can be seen at a place. -/
inductive Sight where
  | nothing
  /-- The directory around it cannot be searched. -/
  | hidden (barrier : Barrier)
  /-- There is something, which cannot be read if there is a barrier. -/
  | node (node : Node) (barrier? : Option Barrier)

/-- What there is at a place; a link leads to the file at the very end of it, and one that leads nowhere is nothing. -/
def look (place : Place) : IO Sight := do
  let path := (← IO.currentDir) / pathOf place
  match ← path.symlinkMetadata.toBaseIO with
  | .error (.permissionDenied ..) => return .hidden .denied
  | .error _ => return .nothing
  | .ok data =>
    match data.type with
    | .dir => return .node .directory none
    | .other => return .node .device none
    | .file =>
      match ← (IO.FS.readBinFile path).toBaseIO with
      | .ok bytes => return .node (.file bytes.toList Site.newFileMode) none
      | .error error => return .node (.file [] Site.newFileMode) (some (barrierOf error))
    | .symlink =>
      match ← (IO.FS.realPath path).toBaseIO with
      | .ok target => return .node (.link target.toString.toList) none
      | .error (.noFileOrDirectory _ _ _) => return .nothing
      | .error _ => return .node (.link (pathOf place).toList) none

/-- The site with what was seen at a place. -/
def learn (site : Site) (place : Place) : Sight → Site
  | .nothing => site
  | .hidden barrier =>
    let search := fun other => if other = place.dropLast then some barrier else site.system.rights.search other
    { site with system := { site.system with rights := { site.system.rights with search } } }
  | .node node barrier? =>
    let read := fun other => if other = place then barrier? else site.system.rights.read other
    { site with
      tree := site.tree.put place node
      system := { site.system with rights := { site.system.rights with read } } }

/-- The site with what there is on a way without links. -/
def seeStraight (site : Site) (place : Place) : List Text → IO Site
  | [] => return site
  | name :: names => do
    let next := place ++ [name]
    let sight ← look next
    match sight with
    | .node _ _ => seeStraight (learn site next sight) next names
    | _ => return learn site next sight

/-- The site with what there is on the way along names from a place. -/
def seeNames (site : Site) (place : Place) : List Text → IO Site
  | [] => return site
  | name :: names => do
    if name.isIdle then seeNames site place names
    else if name = ['.', '.'] then seeNames site place.dropLast names
    else
      let next := place ++ [name]
      let sight ← look next
      match sight with
      | .node (.link target) _ =>
        let real := (Path.parse target).names
        seeNames (← seeStraight (learn site next sight) [] real) real names
      | .node _ _ => seeNames (learn site next sight) next names
      | _ => return learn site next sight

/-- The site with what there is on the way that a text leads along. -/
def see (site : Site) (path : Text) : IO Site := seeNames site (path.origin site.directory) path.splitSlashes

/-- The site with what there is on the ways that arguments lead along. -/
def seeArguments (site : Site) (arguments : List Text) : IO Site := do
  match Invocation.read arguments with
  | .error _ => return site
  | .ok invocation =>
    let mut site := site
    for word in invocation.operands.take 1 ++ (invocation.value? .output).toList do
      site ← see site word
      match site.expand (.parse word) with
      | .ok path => site ← see site path.text
      | .error _ => pure ()
    match (invocation.operands.head?).map site.findNotes with
    | some (.ok notes) =>
      for directory in notes.parent.around do
        for file in SettingsFile.all do
          site ← see site (directory.child file.name).text
      return site
    | _ => return site

/-- The directories of users, by name, in the form that a computer keeps them. -/
def homesOf (users : String) : List (Text × Text) :=
  (users.splitOn "\n").filterMap fun line =>
    match line.splitOn ":" with
    | [name, _, _, _, _, home, _] => some (name.toList, home.toList)
    | _ => none

/-- The variables that the command is about. -/
def environment : IO Environment := do
  let names := [Limit.fileSize.variableName, Limit.lineLength.variableName]
  names.filterMapM fun name => do
    return (← IO.getEnv (String.ofList name)).map fun value => (name, value.toList)

/-- The site that a program runs in, before it looks at any file but its own directory. -/
def start : IO Site := do
  let directory := (← IO.currentDir).toString.toList
  let users ← (IO.FS.readFile "/etc/passwd").toBaseIO
  let home := ((← IO.getEnv "HOME").getD "/").toList
  see ⟨.empty, (Path.parse directory).names, home, homesOf (users.toOption.getD ""), .free⟩ directory

/-! ## Running the command -/

/-- The question that a run asks, if it asks one. -/
def question? (site : Site) (environment : Environment) (arguments : List Text) : Option Text :=
  match toolkit.parse site environment arguments with
  | .parameters parameters =>
    match Command.plan site environment parameters with
    | .ok ⟨_, _, some ⟨path, true⟩⟩ => some (Command.question path)
    | _ => none
  | _ => none

/-- What is printed to ask a question, if the user replies `input`. -/
def asked (question input : Text) : Text := ((toolkit.confirm question input).toOption.map Prod.fst).getD []

/-- Asks the user until a reply means something, and gives all that was replied; `shown` characters of the questions
have been printed. -/
partial def listen (question input : Text) (shown : Nat) : IO Text := do
  let printed := asked question input
  IO.print (String.ofList (printed.drop shown))
  (← IO.getStdout).flush
  if (replies input).any fun reply => (meaning? reply).isSome then return input
  let line ← (← IO.getStdin).getLine
  if line.isEmpty then return input else listen question (input ++ line.toList) printed.length

/-- Writes the files that a run changed. -/
def save (before after : Site) : IO Unit := do
  for (place, node) in after.tree.entries do
    match node with
    | .file bytes _ =>
      if before.tree.get? place ≠ some node then
        let isNew := (before.tree.get? place).isNone
        IO.FS.writeBinFile (pathOf place) ⟨bytes.toArray⟩
        if isNew then
          IO.setAccessRights (pathOf place) ⟨⟨true, true, false⟩, ⟨true, false, false⟩, ⟨true, false, false⟩⟩
    | _ => pure ()

/-- Runs the command with some arguments and gives its exit code. -/
def run (arguments : List Text) : IO UInt32 := do
  let site ← seeArguments (← start) arguments
  let environment ← environment
  let question? := question? site environment arguments
  let input ← match question? with
    | some question => listen question [] 0
    | none => pure []
  let shown := (question?.map fun question => (asked question input).length).getD 0
  let result := Command.run toolkit ⟨site, environment, arguments, input⟩
  save site result.site
  IO.print (String.ofList (result.output.drop shown))
  IO.eprint (String.ofList result.errors)
  match result.ending with
  | .exit code => return UInt32.ofNat code
  | .fault error =>
    IO.eprintln (String.ofList error.message)
    return 1

end Lectern.Program

/-- Runs the command. -/
def main (arguments : List String) : IO UInt32 := Lectern.Program.run (arguments.map String.toList)
