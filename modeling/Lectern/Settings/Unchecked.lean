import Lectern.Latex.Indentation
import Lectern.Particulars
import Lectern.Settings.Basic

/-!
# Settings that have not been checked

A document can be begun with any settings. **`RawSettings.unchecked`** takes each value for what it is closest to: every
value has a text and counts as true or false, and numbers need not be positive. `unchecked_of_check` says that settings
that pass a check are taken as they are.
-/

set_option autoImplicit false

namespace Lectern

/-- A value is not a list or anything else that has elements. -/
structure NotIterable where
  typeName : Text
deriving DecidableEq, Repr

/-- What a message says of a value that has no elements. -/
def NotIterable.message (failure : NotIterable) : Text :=
  ['\''] ++ failure.typeName ++ "' object is not iterable".toList

namespace Value

/-- A multiple of a value: a text or a list is repeated. -/
def times (n : Nat) : Value → Except Unindentable Value
  | .int m => .ok (.int (m * n))
  | .bool b => .ok (.int (if b then n else 0))
  | .float x => .ok (.float (x * n.toFloat))
  | .text s => .ok (.text (List.replicate n s).flatten)
  | .array items => .ok (.array (List.replicate n items).flatten)
  | value => .error (.notMultipliable value.typeName)

/-- A value as a number that counts something. -/
def count? : Value → Option Int
  | .int n => some n
  | .bool b => some (if b then 1 else 0)
  | _ => none

/-- A value as what lines are indented by. -/
def indentation (value : Value) : Indentation :=
  match value.count?, value.times 1 with
  | some width, _ => .spaces width
  | none, .ok _ => .impossible (.notCount value.typeName)
  | none, .error reason => .impossible reason

end Value

namespace RawSettings

/-- The packages, whatever they are listed in. -/
def packageValues (raw : RawSettings) : Except NotIterable (List Value) :=
  match (raw .packages).elements? with
  | some items => .ok items
  | none => .error ⟨(raw .packages).typeName⟩

/-- The settings that a document is begun with. Where a number is called for and there is none, it is zero. -/
def unchecked (raw : RawSettings) : Except NotIterable Settings :=
  raw.packageValues.map fun packages => {
    title := (raw .title).display
    author := (raw .author).display
    date := (raw .date).display
    documentClass := (raw .documentClass).display
    classOptions := (raw .classOptions).display
    packages := packages.map Value.display
    indentWidth := (raw .indentWidth).indentation.width
    strictBlocks := (raw .strictBlocks).isTruthy
    maxFileSize := (raw .maxFileSize).count?.getD 0
    maxLineLength := (raw .maxLineLength).count?.getD 0 }

/-- What the settings say of a document. -/
def particulars (raw : RawSettings) : Except NotIterable Particulars :=
  raw.packageValues.map fun packages => ⟨raw .title, raw .author, raw .date, packages, []⟩

/-- Settings that pass a check are taken as they are. -/
theorem unchecked_of_check {raw : RawSettings} {settings : Settings} (h : raw.check = .ok settings) :
    raw.unchecked = .ok settings := by
  rw [← value_of_check h]
  simp [unchecked, packageValues, Settings.value, Value.elements?, Value.display, Value.count?, Value.indentation,
    Indentation.width, Value.isTruthy, Except.map, Function.comp_def]

end RawSettings

end Lectern
