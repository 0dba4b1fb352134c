import Lectern.Converter
import Lectern.Settings.Unchecked

/-!
# Drafts

A document can be begun with settings that nobody has checked. **`Draft`** is a converter with such settings, which
keeps those values that are shown as they were given. What its lines are indented by need not be a number of spaces; then
no line can be indented, and no list can open. `converter_of_check` says that with settings that pass a check the converter
of a draft is the one of these settings.
-/

set_option autoImplicit false

namespace Lectern

/-- A conversion with settings that have not been checked. -/
structure Draft where
  converter : Converter
  /-- What the settings say of the document. -/
  particulars : Particulars
  /-- What a line is indented by for each list around it. -/
  indentWidth : Value

namespace Draft

/-- A draft before the first line. -/
def new (raw : RawSettings) : Except NotIterable Draft := do
  let settings ← raw.unchecked
  let particulars ← raw.particulars
  let converter := { Converter.new settings with indentation := (raw .indentWidth).indentation }
  return ⟨converter, particulars, raw .indentWidth⟩

/-- What is known of the document by now. -/
def known (draft : Draft) : Particulars := draft.particulars.under draft.converter.front

/-- What the next line is indented by. -/
def indentation (draft : Draft) : Except Unindentable Value :=
  draft.indentWidth.times draft.converter.progress.outline.depth

/-- Settings that pass a check begin a draft with the converter that is made of them. -/
theorem converter_of_check {raw : RawSettings} {settings : Settings} (h : raw.check = .ok settings) :
    (new raw).map Draft.converter = .ok (.new settings) := by
  have hw : (raw .indentWidth).indentation = .spaces settings.indentWidth := by
    rw [← RawSettings.value_of_check h]
    rfl
  have hp : ∃ particulars, raw.particulars = .ok particulars := by
    rw [← RawSettings.value_of_check h]
    exact ⟨_, rfl⟩
  obtain ⟨particulars, hp⟩ := hp
  unfold new
  rw [RawSettings.unchecked_of_check h, hp, hw]
  rfl

end Draft

end Lectern
