import Lectern.Entries
import Lectern.Value.Basic

/-!
# Settings

**`Settings`** are the ten properties of a conversion that its user can choose. They come as **`RawSettings`**, a value
of any type for each **`Setting`**, and `RawSettings.check` turns them into settings or says what is wrong: texts
first, then the packages and the truth value, then whether numbers are integers, then whether these are positive.
`value_of_check` says that a check changes no value, and `valid_of_check` that what passes it is **`Settings.Valid`**.
-/

set_option autoImplicit false

namespace Lectern

/-- The name of a property that can be set. -/
inductive Setting where
  | title
  | author
  | date
  | documentClass
  | classOptions
  | packages
  | indentWidth
  | strictBlocks
  | maxFileSize
  | maxLineLength
deriving DecidableEq, Repr

namespace Setting

/-- All settings. -/
def all : List Setting :=
  [.title, .author, .date, .documentClass, .classOptions, .packages, .indentWidth, .strictBlocks, .maxFileSize,
    .maxLineLength]

/-- The key of a setting. -/
def key : Setting → Text
  | .title => "title".toList
  | .author => "author".toList
  | .date => "date".toList
  | .documentClass => "document_class".toList
  | .classOptions => "class_options".toList
  | .packages => "packages".toList
  | .indentWidth => "indent_width".toList
  | .strictBlocks => "strict_blocks".toList
  | .maxFileSize => "max_file_size".toList
  | .maxLineLength => "max_line_length".toList

/-- The setting with a given key. -/
def ofKey? (key : Text) : Option Setting := all.find? fun setting => setting.key == key

end Setting

/-- The properties of a conversion. -/
structure Settings where
  /-- The title of a document that does not give one. -/
  title : Text
  /-- The author of a document that does not give one. -/
  author : Text
  /-- The date of a document that does not give one. -/
  date : Text
  documentClass : Text
  classOptions : Text
  /-- Packages that every document loads besides the base packages. -/
  packages : List Text
  /-- The number of spaces that a line is indented by for each list around it. -/
  indentWidth : Int
  /-- Whether a block that is open at the end is an error. -/
  strictBlocks : Bool
  /-- The size in bytes that the notes may have. -/
  maxFileSize : Int
  /-- The number of characters that a line of notes may have. -/
  maxLineLength : Int
deriving DecidableEq, Repr

namespace Settings

/-- The settings of a user who chooses nothing. -/
def default : Settings where
  title := "Notes".toList
  author := "Cayden Lund".toList
  date := []
  documentClass := "article".toList
  classOptions := "12pt, letterpaper".toList
  packages := []
  indentWidth := 4
  strictBlocks := false
  maxFileSize := 10 * 1024 * 1024
  maxLineLength := 10000

/-- The value of a setting. -/
def value (settings : Settings) : Setting → Value
  | .title => .text settings.title
  | .author => .text settings.author
  | .date => .text settings.date
  | .documentClass => .text settings.documentClass
  | .classOptions => .text settings.classOptions
  | .packages => .array (settings.packages.map .text)
  | .indentWidth => .int settings.indentWidth
  | .strictBlocks => .bool settings.strictBlocks
  | .maxFileSize => .int settings.maxFileSize
  | .maxLineLength => .int settings.maxLineLength

/-- Settings that a document can be converted with. -/
structure Valid (settings : Settings) : Prop where
  documentClass_ne_nil : settings.documentClass ≠ []
  packages_ne_nil : ∀ package ∈ settings.packages, package ≠ []
  indentWidth_pos : 0 < settings.indentWidth
  maxFileSize_pos : 0 < settings.maxFileSize
  maxLineLength_pos : 0 < settings.maxLineLength

end Settings

/-! ## Checking -/

/-- What is wrong with settings. -/
inductive SettingsError where
  | notText (setting : Setting)
  | emptyDocumentClass
  | badPackages
  | notTruthValue (setting : Setting)
  | notInteger (setting : Setting)
  | notPositive (setting : Setting)
  /-- A table of a configuration file is no table or has an unknown key. -/
  | badTable (table file : Text)
deriving DecidableEq, Repr

/-- What a message says of wrong settings. -/
def SettingsError.message : SettingsError → Text
  | .notText setting => "`".toList ++ setting.key ++ "` must be a string".toList
  | .emptyDocumentClass => "`document_class` must not be empty".toList
  | .badPackages => "`packages` must be a list of package names".toList
  | .notTruthValue setting => "`".toList ++ setting.key ++ "` must be a boolean".toList
  | .notInteger setting => "`".toList ++ setting.key ++ "` must be an integer".toList
  | .notPositive setting => "`".toList ++ setting.key ++ "` must be a positive integer".toList
  | .badTable table file => "Invalid `[".toList ++ table ++ "]` settings in ".toList ++ file

/-- A value of any type for each setting. -/
def RawSettings := Setting → Value

namespace RawSettings

/-- The settings of a user who chooses nothing. -/
def default : RawSettings := Settings.default.value

/-- One setting gets another value. -/
def set (setting : Setting) (value : Value) (raw : RawSettings) : RawSettings :=
  fun other => if other = setting then value else raw other

/-- Some settings get other values. -/
def setAll (changes : List (Setting × Value)) (raw : RawSettings) : RawSettings :=
  changes.foldl (fun raw change => raw.set change.1 change.2) raw

/-- Who takes the entries of settings. -/
def receiver : Receiver := ⟨"SparkdownConfig.__init__".toList, "self".toList⟩

/-- The changes that entries ask for, if every key is that of a setting. -/
def changes? (entries : List (Text × Value)) : Except BadKey (List (Setting × Value)) :=
  entries.mapM fun (key, value) =>
    match Setting.ofKey? key with
    | some setting => .ok (setting, value)
    | none => .error (receiver.refuse key)

/-- The settings that the entries of a table choose; the others have their defaults. -/
def ofEntries? (entries : List (Text × Value)) : Except BadKey RawSettings :=
  (changes? entries).map fun changes => default.setAll changes

/-- The entries of a table without those that have no value. -/
def chosen (entries : List (Text × Value)) : List (Text × Value) :=
  entries.filter fun entry => match entry.2 with | .null => false | _ => true

/-- Who takes the entries that change settings. -/
def changer : Receiver := ⟨"apply_overrides".toList, "config".toList⟩

/-- The settings with the values that the entries of a table choose; an entry without a value changes nothing, whatever
setting it is for. -/
def override? (entries : List (Text × Value)) (raw : RawSettings) : Except BadKey RawSettings := do
  changer.guard entries
  let changes ← changes? (chosen entries)
  return raw.setAll changes

/-- The text of a setting. -/
def text (raw : RawSettings) (setting : Setting) : Except SettingsError Text :=
  match (raw setting).text? with
  | some s => .ok s
  | none => .error (.notText setting)

/-- The integer of a setting. -/
def int (raw : RawSettings) (setting : Setting) : Except SettingsError Int :=
  match (raw setting).int? with
  | some n => .ok n
  | none => .error (.notInteger setting)

/-- The truth value of a setting. -/
def bool (raw : RawSettings) (setting : Setting) : Except SettingsError Bool :=
  match (raw setting).bool? with
  | some b => .ok b
  | none => .error (.notTruthValue setting)

/-- The names of the packages. -/
def packages (raw : RawSettings) : Except SettingsError (List Text) :=
  match (raw .packages).names? with
  | some names => .ok names
  | none => .error .badPackages

/-- An error unless a document class has a name. -/
def named (documentClass : Text) : Except SettingsError Unit :=
  if documentClass = [] then .error .emptyDocumentClass else .ok ()

/-- An error unless a number is positive. -/
def positive (setting : Setting) (n : Int) : Except SettingsError Unit :=
  if n ≤ 0 then .error (.notPositive setting) else .ok ()

/-- The settings, if there is nothing wrong with them. -/
def check (raw : RawSettings) : Except SettingsError Settings := do
  let title ← raw.text .title
  let author ← raw.text .author
  let date ← raw.text .date
  let documentClass ← raw.text .documentClass
  let classOptions ← raw.text .classOptions
  named documentClass
  let packages ← raw.packages
  let strictBlocks ← raw.bool .strictBlocks
  let indentWidth ← raw.int .indentWidth
  let maxFileSize ← raw.int .maxFileSize
  let maxLineLength ← raw.int .maxLineLength
  positive .indentWidth indentWidth
  positive .maxFileSize maxFileSize
  positive .maxLineLength maxLineLength
  return { title, author, date, documentClass, classOptions, packages, indentWidth, strictBlocks, maxFileSize,
           maxLineLength }

/-! ## What a check says -/

theorem eq_of_text_eq_ok {raw : RawSettings} {setting : Setting} {s : Text} (h : raw.text setting = .ok s) :
    raw setting = .text s := by
  unfold text at h
  split at h
  · next hs =>
    cases h
    exact Value.eq_of_text?_eq_some hs
  · cases h

theorem eq_of_int_eq_ok {raw : RawSettings} {setting : Setting} {n : Int} (h : raw.int setting = .ok n) :
    raw setting = .int n := by
  unfold int at h
  split at h
  · next hn =>
    cases h
    exact Value.eq_of_int?_eq_some hn
  · cases h

theorem eq_of_bool_eq_ok {raw : RawSettings} {setting : Setting} {b : Bool} (h : raw.bool setting = .ok b) :
    raw setting = .bool b := by
  unfold bool at h
  split at h
  · next hb =>
    cases h
    exact Value.eq_of_bool?_eq_some hb
  · cases h

theorem eq_of_packages_eq_ok {raw : RawSettings} {names : List Text} (h : raw.packages = .ok names) :
    raw .packages = .array (names.map .text) := by
  unfold packages at h
  split at h
  · next hn =>
    cases h
    exact Value.eq_of_names?_eq_some hn
  · cases h

theorem exists_of_bind_eq_ok {ε α β : Type} {x : Except ε α} {f : α → Except ε β} {b : β}
    (h : (x >>= f) = .ok b) : ∃ a, x = .ok a ∧ f a = .ok b := by
  cases x with
  | error e => cases h
  | ok a => exact ⟨a, rfl, h⟩

theorem pos_of_positive_eq_ok {setting : Setting} {n : Int} (h : positive setting n = .ok ()) : 0 < n := by
  unfold positive at h
  split at h
  · cases h
  · omega

theorem ne_nil_of_named_eq_ok {documentClass : Text} (h : named documentClass = .ok ()) : documentClass ≠ [] := by
  unfold named at h
  split at h
  · cases h
  · assumption

theorem ne_nil_of_packages_eq_ok {raw : RawSettings} {names : List Text} (h : raw.packages = .ok names) :
    ∀ name ∈ names, name ≠ [] := by
  unfold packages at h
  split at h
  · next hn =>
    cases h
    exact Value.ne_nil_of_mem_names? hn
  · cases h

/-- Settings that pass the check are valid. -/
theorem valid_of_check {raw : RawSettings} {settings : Settings} (h : raw.check = .ok settings) : settings.Valid := by
  unfold check at h
  obtain ⟨title, -, h⟩ := exists_of_bind_eq_ok h
  obtain ⟨author, -, h⟩ := exists_of_bind_eq_ok h
  obtain ⟨date, -, h⟩ := exists_of_bind_eq_ok h
  obtain ⟨documentClass, -, h⟩ := exists_of_bind_eq_ok h
  obtain ⟨classOptions, -, h⟩ := exists_of_bind_eq_ok h
  obtain ⟨⟨⟩, hclass, h⟩ := exists_of_bind_eq_ok h
  obtain ⟨packages, hpackages, h⟩ := exists_of_bind_eq_ok h
  obtain ⟨strictBlocks, -, h⟩ := exists_of_bind_eq_ok h
  obtain ⟨indentWidth, -, h⟩ := exists_of_bind_eq_ok h
  obtain ⟨maxFileSize, -, h⟩ := exists_of_bind_eq_ok h
  obtain ⟨maxLineLength, -, h⟩ := exists_of_bind_eq_ok h
  obtain ⟨⟨⟩, hindent, h⟩ := exists_of_bind_eq_ok h
  obtain ⟨⟨⟩, hsize, h⟩ := exists_of_bind_eq_ok h
  obtain ⟨⟨⟩, hlength, h⟩ := exists_of_bind_eq_ok h
  cases h
  exact ⟨ne_nil_of_named_eq_ok hclass, ne_nil_of_packages_eq_ok hpackages, pos_of_positive_eq_ok hindent,
    pos_of_positive_eq_ok hsize, pos_of_positive_eq_ok hlength⟩

/-- A check changes no value. -/
theorem value_of_check {raw : RawSettings} {settings : Settings} (h : raw.check = .ok settings) :
    settings.value = raw := by
  unfold check at h
  obtain ⟨title, htitle, h⟩ := exists_of_bind_eq_ok h
  obtain ⟨author, hauthor, h⟩ := exists_of_bind_eq_ok h
  obtain ⟨date, hdate, h⟩ := exists_of_bind_eq_ok h
  obtain ⟨documentClass, hdocumentClass, h⟩ := exists_of_bind_eq_ok h
  obtain ⟨classOptions, hclassOptions, h⟩ := exists_of_bind_eq_ok h
  obtain ⟨-, -, h⟩ := exists_of_bind_eq_ok h
  obtain ⟨packages, hpackages, h⟩ := exists_of_bind_eq_ok h
  obtain ⟨strictBlocks, hstrictBlocks, h⟩ := exists_of_bind_eq_ok h
  obtain ⟨indentWidth, hindentWidth, h⟩ := exists_of_bind_eq_ok h
  obtain ⟨maxFileSize, hmaxFileSize, h⟩ := exists_of_bind_eq_ok h
  obtain ⟨maxLineLength, hmaxLineLength, h⟩ := exists_of_bind_eq_ok h
  obtain ⟨-, -, h⟩ := exists_of_bind_eq_ok h
  obtain ⟨-, -, h⟩ := exists_of_bind_eq_ok h
  obtain ⟨-, -, h⟩ := exists_of_bind_eq_ok h
  cases h
  funext setting
  cases setting
  · exact (eq_of_text_eq_ok htitle).symm
  · exact (eq_of_text_eq_ok hauthor).symm
  · exact (eq_of_text_eq_ok hdate).symm
  · exact (eq_of_text_eq_ok hdocumentClass).symm
  · exact (eq_of_text_eq_ok hclassOptions).symm
  · exact (eq_of_packages_eq_ok hpackages).symm
  · exact (eq_of_int_eq_ok hindentWidth).symm
  · exact (eq_of_bool_eq_ok hstrictBlocks).symm
  · exact (eq_of_int_eq_ok hmaxFileSize).symm
  · exact (eq_of_int_eq_ok hmaxLineLength).symm

end RawSettings

end Lectern
