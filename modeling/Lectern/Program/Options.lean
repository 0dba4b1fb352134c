import Lectern.Text.Basic
import Lectern.Text.Quoted

/-!
# Options

The arguments of the command are options and operands in any order. **`Invocation.read`** tells them apart: a word with
two dashes in front is one option, whose value may stand behind an equals sign; a word with one dash is a row of options
of one letter each; `--` ends the options. An option that takes a value takes all that is left of its word, or the next
argument whatever that looks like. `read_of_plain` says that words without dashes are operands.
-/

set_option autoImplicit false

namespace Lectern.Program

/-- An option of the command. -/
inductive Switch where
  | version
  | output
  | overwrite
  | title
  | author
  | date
  | strict
  | help
deriving DecidableEq, Repr

namespace Switch

/-- All options. -/
def all : List Switch := [.version, .output, .overwrite, .title, .author, .date, .strict, .help]

/-- The name of an option with its two dashes. -/
def longName : Switch → Text
  | .version => "--version".toList
  | .output => "--output".toList
  | .overwrite => "--overwrite".toList
  | .title => "--title".toList
  | .author => "--author".toList
  | .date => "--date".toList
  | .strict => "--strict".toList
  | .help => "--help".toList

/-- The letter of an option, if it has one. -/
def letter? : Switch → Option Char
  | .version => some 'v'
  | .output => some 'o'
  | .overwrite => some 'w'
  | .help => some 'h'
  | .title | .author | .date | .strict => none

/-- Whether an option takes a value. -/
def takesValue : Switch → Bool
  | .output | .title | .author | .date => true
  | .version | .overwrite | .strict | .help => false

/-- The option with a name of two dashes. -/
def ofLongName? (name : Text) : Option Switch := all.find? fun switch => switch.longName == name

/-- The option with a letter. -/
def ofLetter? (c : Char) : Option Switch := all.find? fun switch => switch.letter? == some c

end Switch

/-- Why words are no options. -/
inductive OptionError where
  | unknown (name : Text)
  | missingValue (name : Text)
  | unexpectedValue (name : Text)
deriving DecidableEq, Repr

/-- What a message says of words that are no options. -/
def OptionError.message : OptionError → Text
  | .unknown name => "No such option ".toList ++ Text.quote name ++ ".".toList
  | .missingValue name => "Option ".toList ++ Text.quote name ++ " requires an argument.".toList
  | .unexpectedValue name => "Option ".toList ++ Text.quote name ++ " does not take a value.".toList

/-- An option with its value, if it takes one. -/
structure Given where
  switch : Switch
  value? : Option Text
deriving DecidableEq, Repr

/-- The options of one word. -/
structure Word where
  given : List Given
  /-- The option that takes the next argument as its value, and its name in this word. -/
  waiting? : Option (Switch × Text)
deriving DecidableEq, Repr

namespace Word

/-- A word that holds one option. -/
def ofLong (switch : Switch) (name : Text) (value? : Option Text) : Except OptionError Word :=
  match switch.takesValue, value? with
  | true, none => .ok ⟨[], some (switch, name)⟩
  | false, some _ => .error (.unexpectedValue name)
  | _, value? => .ok ⟨[⟨switch, value?⟩], none⟩

/-- A word that is a row of letters. -/
def ofLetters : Text → Except OptionError Word
  | [] => .ok ⟨[], none⟩
  | c :: letters =>
    match Switch.ofLetter? c with
    | none => .error (.unknown ['-', c])
    | some switch =>
      if switch.takesValue then
        .ok (if letters = [] then ⟨[], some (switch, ['-', c])⟩ else ⟨[⟨switch, some letters⟩], none⟩)
      else (ofLetters letters).map fun word => { word with given := ⟨switch, none⟩ :: word.given }

/-- The options of a word with a dash in front. -/
def read (s : Text) : Except OptionError Word :=
  let (name, value?) :=
    match Text.splitAt? ['='] s with
    | some (name, value) => (name, some value)
    | none => (s, none)
  match Switch.ofLongName? name with
  | some switch => ofLong switch name value?
  | none =>
    match s with
    | '-' :: '-' :: _ => .error (.unknown name)
    | _ => ofLetters s.tail

end Word

/-- The arguments of the command, told apart. -/
structure Invocation where
  /-- The options in the order in which they are given. -/
  given : List Given
  operands : List Text
deriving DecidableEq, Repr

namespace Invocation

/-- Whether a word holds options; a dash alone does not. -/
def isOption : Text → Bool
  | '-' :: _ :: _ => true
  | _ => false

/-- The end of the options. -/
def terminator : Text := ['-', '-']

/-- Tells options and operands apart. -/
def read : List Text → Except OptionError Invocation
  | [] => .ok ⟨[], []⟩
  | word :: words =>
    if word = terminator then .ok ⟨[], words⟩
    else if isOption word then
      match Word.read word with
      | .error error => .error error
      | .ok ⟨given, none⟩ => (read words).map fun inner => { inner with given := given ++ inner.given }
      | .ok ⟨given, some (switch, name)⟩ =>
        match words with
        | [] => .error (.missingValue name)
        | value :: words =>
          (read words).map fun inner => { inner with given := given ++ ⟨switch, some value⟩ :: inner.given }
    else (read words).map fun inner => { inner with operands := word :: inner.operands }

/-- Words without dashes in front are operands. -/
theorem read_of_plain {words : List Text} (h : ∀ word ∈ words, word.head? ≠ some '-') :
    read words = .ok ⟨[], words⟩ := by
  induction words with
  | nil => rfl
  | cons word words ih =>
    have hw := h word List.mem_cons_self
    have ht : word ≠ terminator := by rintro rfl; exact hw rfl
    have ho : isOption word = false := by
      unfold isOption
      split
      · simp at hw
      · rfl
    rw [read.eq_def]
    simp [ht, ho, ih fun word hm => h word (List.mem_cons_of_mem _ hm), Except.map]

/-- Whether an option is given. -/
def has (invocation : Invocation) (switch : Switch) : Bool := invocation.given.any fun given => given.switch == switch

/-- The value of an option; the last one counts. -/
def value? (invocation : Invocation) (switch : Switch) : Option Text :=
  invocation.given.reverse.findSome? fun given => if given.switch = switch then given.value? else none

end Invocation

end Lectern.Program
