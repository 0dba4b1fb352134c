import Lectern.Files.Resolve
import Lectern.Settings.Basic
import Lectern.Text.Utf8
import Lectern.Toml.Document

/-!
# Looking for settings

Settings stand in files in the directory of the notes or around it. **`Site.loadSettings`** goes from a directory to the
top and takes the first table that it finds; a table counts even if it is empty, and nothing above it is looked at. A
file that cannot be opened, or whose text is no table, has none. **`Site.buildSettings`** changes what was found as the
user asks and checks the result.
-/

set_option autoImplicit false

namespace Lectern

/-- Why there are no settings. -/
inductive SearchError where
  | unresolved (error : ResolveError)
  | refused (error : AccessError)
  | undecodable (failure : Utf8.Failure)
  | numeral (failure : Numeral.Failure)
  /-- Values in a file are inside of each other more deeply than the stack has room for. -/
  | tooDeep
  | settings (error : SettingsError)
  | badKey (error : BadKey)
deriving DecidableEq, Repr

/-- What a message says when there are no settings. -/
def SearchError.message : SearchError → Text
  | .unresolved error => error.message
  | .refused error => error.message
  | .undecodable failure => failure.message
  | .numeral failure => failure.message
  | .tooDeep => recursionMessage
  | .settings error => error.message
  | .badKey error => error.message

/-- A file that settings may stand in. -/
structure SettingsFile where
  name : Text
  /-- The paths of its tables of settings; the first that is there counts. -/
  tables : List (List Text)
deriving DecidableEq, Repr

namespace SettingsFile

/-- The file of a whole project, which keeps the tables of tools in one table. -/
def project : SettingsFile where
  name := "pyproject.toml".toList
  tables := [["tool".toList, "sparkdown".toList]]

/-- The file of this tool alone. -/
def own : SettingsFile where
  name := ".sparkdown.toml".toList
  tables := [["sparkdown".toList], ["tool".toList, "sparkdown".toList]]

/-- The files in a directory, in the order in which they are looked at. -/
def all : List SettingsFile := [project, own]

end SettingsFile

/-- The value at the end of a path of keys. -/
def Value.at? (keys : List Text) (value : Value) : Option Value :=
  match keys, value with
  | [], value => some value
  | key :: keys, .table entries => (entries.lookup key).bind (Value.at? keys)
  | _ :: _, _ => none

/-- The settings that a value stands for, which `table` and `file` are the place of. -/
def RawSettings.ofValue (table file : Text) : Value → Except SettingsError RawSettings
  | .table entries => (RawSettings.ofEntries? entries).mapError fun _ => .badTable table file
  | _ => .error (.badTable table file)

/-- The settings of the first table that is there. -/
def RawSettings.firstOf? (file : Text) (value : Value) (tables : List (List Text)) :
    Option (Except SettingsError RawSettings) :=
  tables.findSome? fun keys => (value.at? keys).map (RawSettings.ofValue (List.intercalate ['.'] keys) file)

/-- The path and all that it lies in, up to the top directory. -/
def Path.around (path : Path) : List Path :=
  (List.range (path.names.length + 1)).map fun n => { path with names := path.names.take (path.names.length - n) }

namespace Site

/-- The table of a file, unless it has none. -/
def table? (site : Site) (path : Path) : Except SearchError (Option Value) := do
  match site.occupied path.text with
  | .error error => throw (.refused error)
  | .ok false => return none
  | .ok true =>
    match site.read path.text with
    | .error _ => return none
    | .ok bytes =>
      match Utf8.decode bytes with
      | .error failure => throw (.undecodable failure)
      | .ok s =>
        match Toml.read site.system.valueDepth s with
        | .error .malformed => return none
        | .error (.tooLong digits) => throw (.numeral (.tooLong digits))
        | .error .tooDeep => throw .tooDeep
        | .ok entries => return some (.table entries)

/-- The settings in a file, if there are any. -/
def settingsIn? (site : Site) (directory : Path) (file : SettingsFile) : Except SearchError (Option RawSettings) := do
  let path := directory.child file.name
  match ← site.table? path with
  | none => return none
  | some value =>
    match RawSettings.firstOf? path.text value file.tables with
    | none => return none
    | some (.ok raw) => return some raw
    | some (.error error) => throw (.settings error)

/-- The first settings in files of some directories. -/
def firstSettings? (site : Site) : List (Path × SettingsFile) → Except SearchError (Option RawSettings)
  | [] => .ok none
  | (directory, file) :: others =>
    match site.settingsIn? directory file with
    | .ok none => site.firstSettings? others
    | found => found

/-- The settings for notes in a directory. -/
def loadSettings (site : Site) (directory : Path) : Except SearchError RawSettings :=
  match site.resolve false directory with
  | .error error => .error (.unresolved error)
  | .ok resolved =>
    (site.firstSettings? (resolved.around.flatMap fun path => SettingsFile.all.map fun file => (path, file))).map
      fun found => found.getD .default

/-- Who takes the entries that change settings which have to be looked for. -/
def settingsBuilder : Receiver := ⟨"build_config".toList, "search_path".toList⟩

/-- The settings for notes in a directory with changes to them. -/
def buildSettings (site : Site) (directory : Path) (changes : List (Text × Value)) : Except SearchError Settings := do
  (settingsBuilder.guard changes).mapError .badKey
  let raw ← site.loadSettings directory
  let raw ← (raw.override? changes).mapError .badKey
  raw.check.mapError .settings

end Site

end Lectern
