import Lectern.Proofs.MathBlocks
import Lectern.Proofs.Reachability

/-!
# The end of a document

Settings that are not strict let a document end anywhere: all that is open is closed, and behind the end there is
nothing left to close (`Sound.close_lenient_fst`). Strict settings let it end outside of blocks only, and where it
cannot end nothing is changed (`Sound.close_of_open`), so the lines that are missing can still be given
(`Sound.after_missing`). **`close_atomic`** says so of every converter that can be reached, and that a second end is the
end of the document alone.
-/

set_option autoImplicit false

namespace Lectern

/-- The mode in which no block is open. -/
def Mode.outside (mode : Mode) : Mode := { mode with verbatim := false, delimiter := [] }

theorem Mode.outside_of_inBlock {mode : Mode} (h : mode.inBlock = false) : mode.outside = mode := by
  obtain ⟨head, verbatim, delimiter⟩ := mode
  obtain ⟨hv, hm⟩ := inBlock_eq_false.1 h
  have hd : delimiter = [] := by simpa [math] using hm
  cases hv
  rw [hd]
  rfl

namespace Converter

/-- The converter with no block and no list open, and with nothing that waits to be written. -/
def cleared (converter : Converter) : Converter :=
  { converter with progress := ⟨converter.progress.mode.outside, .empty, []⟩ }

/-! ## Ends -/

section Ends

variable {converter : Converter}

theorem progress_finish (settings : Settings) (closing : Text) (progress : Progress) :
    (finish settings closing progress).1 = ⟨progress.mode, .empty, []⟩ := by
  simp only [finish, Progress.take, Progress.setLine, Progress.closeTo, Progress.mapOutline]
  rw [show (0 : Int).toNat = 0 from rfl, Outline.levels_closeTo_zero]
  rfl

/-- Behind the end nothing is left to close. -/
theorem progress_closeMath {settings : Settings} (h : settings.strictBlocks = false) (warnings : List Text)
    (closing : Text) {progress : Progress} (hc : progress.mode.Closable) :
    (closeMath settings warnings closing progress).1 = ⟨{ progress.mode with delimiter := [] }, .empty, []⟩ := by
  cases hm : progress.mode.math with
  | true =>
    obtain ⟨closer, hcloser⟩ := Option.isSome_iff_exists.1 (hc hm)
    have hmode : (progress.mapMode (Mode.toggleMath "$$".toList)).mode = { progress.mode with delimiter := [] } :=
      Mode.toggleMath_of_math hm
    simp only [closeMath, hm, hcloser, h, progress_finish, hmode]
    rfl
  | false =>
    have hd : progress.mode.delimiter = [] := by simpa [Mode.math] using hm
    simp only [closeMath, hm, progress_finish, Bool.false_eq_true, if_false, ← hd]

theorem Sound.close_lenient_fst [Memory] (hs : converter.Sound) (h : converter.settings.strictBlocks = false) :
    converter.close.1 = converter.cleared := by
  have hc := hs.coherent.closable
  cases hv : converter.progress.mode.verbatim with
  | true =>
    have hc' : (closeVerbatim converter.progress).1.mode.Closable := hc
    rw [close_of_verbatim hv h, progress_closeMath h _ _ hc']
    simp [closeVerbatim, Progress.mapMode, Mode.toggleVerbatim, hv, cleared, Mode.outside]
  | false =>
    rw [close_of_not_verbatim hv, progress_closeMath h _ _ hc]
    simp [cleared, Mode.outside, ← hv]

/-- Outside of blocks the settings do not matter. -/
theorem close_outside_fst (hb : converter.progress.mode.inBlock = false) : converter.close.1 = converter.cleared := by
  obtain ⟨hv, hm⟩ := Mode.inBlock_eq_false.1 hb
  have hclose : (closeMath converter.settings [] [] converter.progress).1 = ⟨converter.progress.mode, .empty, []⟩ := by
    rw [closeMath, hm]
    exact progress_finish converter.settings [] converter.progress
  rw [close_of_not_verbatim hv, hclose, cleared, Mode.outside_of_inBlock hb]

/-- Where a document cannot end, nothing is changed. -/
theorem Sound.close_of_open [Memory] (hs : converter.Sound) (h : converter.settings.strictBlocks = true)
    (hb : converter.progress.mode.verbatim = true ∨ converter.progress.mode.math = true) :
    ∃ block, converter.close = (converter, ⟨[], .error (.unterminated block)⟩) := by
  cases hv : converter.progress.mode.verbatim with
  | true => exact ⟨.verbatim, by simp only [Converter.close, hv, h, if_true]⟩
  | false =>
    have hm : converter.progress.mode.math = true := by simpa [hv] using hb
    obtain ⟨closer, hcloser⟩ := Option.isSome_iff_exists.1 (hs.coherent.closable hm)
    refine ⟨.math, ?_⟩
    rw [close_of_not_verbatim hv]
    simp only [closeMath, hm, hcloser, h, if_true]

/-- Behind an end there is nothing to write but the end of the document. -/
theorem close_cleared (converter : Converter) : converter.cleared.close = (converter.cleared, ⟨[], .ok documentEnd⟩) :=
  rfl

end Ends

/-! ## Missing lines -/

/-- The calls that close what is open in a mode. -/
def missing (mode : Mode) (fence closer : Text) : List Call :=
  (if mode.verbatim then [.line fence] else []) ++ if mode.math then [.line closer] else []

section Missing

variable [Memory] {converter : Converter} {fence closer : Text}

theorem Sound.obey_closer_fst (hs : converter.Sound) (hv : converter.progress.mode.verbatim = false)
    (hm : converter.progress.mode.math = true)
    (hc : mathCloser? converter.progress.mode.delimiter = some (Text.trim closer)) :
    (converter.obey (.line closer)).1 = converter.cleared := by
  rw [hs.obey_closer hv hm hc rfl]
  simp [cleared, Mode.outside, ← hv]

/-- A fence closes the verbatim block and leaves the math block around it open, which its delimiter closes. -/
theorem Sound.after_missing (hs : converter.Sound) (hf : isFence (splitTerminator fence).1 = true)
    (hc : converter.progress.mode.math = true →
      mathCloser? converter.progress.mode.delimiter = some (Text.trim closer))
    (hb : converter.progress.mode.verbatim = true ∨ converter.progress.mode.math = true) :
    converter.after (missing converter.progress.mode fence closer) = converter.cleared := by
  cases hv : converter.progress.mode.verbatim with
  | false =>
    have hm : converter.progress.mode.math = true := by simpa [hv] using hb
    simp only [missing, hv, hm]
    exact hs.obey_closer_fst hv hm (hc hm)
  | true =>
    have hfence := congrArg Prod.fst (hs.obey_fence (hs.coherent.head_of_block (.inl hv)) hf)
    have hclosed : converter.progress.mode.toggleVerbatim = { converter.progress.mode with verbatim := false } := by
      rw [Mode.toggleVerbatim, hv]
      rfl
    have hsound := hs.obey (.line fence)
    rw [hclosed] at hfence
    rw [hfence] at hsound
    cases hm : converter.progress.mode.math with
    | false =>
      have hd : converter.progress.mode.delimiter = [] := by simpa [Mode.math] using hm
      simp only [missing, hv, hm, if_true, Bool.false_eq_true, if_false, List.append_nil, Converter.after]
      rw [hfence, cleared, Mode.outside]
      simp only [hd]
    | true =>
      simp only [missing, hv, hm, if_true, List.cons_append, List.nil_append, Converter.after]
      rw [hfence, hsound.obey_closer_fst rfl hm (hc hm)]
      rfl

end Missing

/-! ## All converters -/

theorem Reachable.settings_eq [Memory] {settings : Settings} {converter : Converter}
    (h : Reachable settings converter) : converter.settings = settings := by
  induction h with
  | new => rfl
  | endHead _ ih => exact ih
  | obey call _ ih =>
    obtain ⟨front, progress, h⟩ := obey_eq_with call _
    rw [h, ih]
  | close _ ih => exact ih

/-- **The end of a document is complete, can be repeated, and changes nothing where it fails.** Behind it no block and
no list is open and nothing waits to be written, and ending the document once more gives the end of the document without
a warning. Settings that are not strict always let a document end. Strict settings never give a warning; they let a
document end if and only if no block is open, and there is no other failure than an open block. A failure leaves the
converter as it was, so the document can end behind the lines that are missing: a fence if a verbatim block is open, and
the delimiter that belongs to the math block if one is. -/
theorem close_atomic [Memory] {settings : Settings} {converter : Converter} (hr : Reachable settings converter) :
    (∀ text, converter.close.2.text = .ok text →
      converter.close.1 =
        { converter with progress := ⟨⟨converter.progress.mode.head, false, []⟩, .empty, []⟩ } ∧
      converter.close.1.close = (converter.close.1, ⟨[], .ok documentEnd⟩)) ∧
    (settings.strictBlocks = false → ∃ text, converter.close.2.text = .ok text) ∧
    (settings.strictBlocks = true →
      converter.close.2.warnings = [] ∧
      ((∃ failure, converter.close.2.text = .error failure) ↔
        converter.progress.mode.verbatim = true ∨ converter.progress.mode.math = true) ∧
      ∀ failure, converter.close.2.text = .error failure →
        (∃ block, failure = .unterminated block) ∧ converter.close.1 = converter ∧
        ∀ fence closer : Text, isFence (splitTerminator fence).1 = true →
          (converter.progress.mode.math = true →
            mathCloser? converter.progress.mode.delimiter = some (Text.trim closer)) →
          (converter.close.1.after (missing converter.progress.mode fence closer)).close.2 =
            ⟨[], .ok documentEnd⟩) := by
  have hs := hr.sound
  have hstrict := hr.settings_eq
  by_cases hb : converter.progress.mode.verbatim = true ∨ converter.progress.mode.math = true
  · cases h : settings.strictBlocks with
    | false =>
      rw [← hstrict] at h
      have hfst := hs.close_lenient_fst h
      refine ⟨fun _ _ => ⟨hfst, by rw [hfst, close_cleared]⟩, fun _ => ⟨_, by rw [hs.close_eq, h]⟩, fun hon => ?_⟩
      cases hon
    | true =>
      rw [← hstrict] at h
      obtain ⟨block, hclose⟩ := hs.close_of_open h hb
      rw [hclose]
      refine ⟨?_, ?_, fun _ => ⟨rfl, iff_of_true ⟨_, rfl⟩ hb, ?_⟩⟩
      · intro text htext
        cases htext
      · intro hoff
        cases hoff
      · intro failure hf
        cases hf
        refine ⟨⟨block, rfl⟩, rfl, fun fence closer hfence hcloser => ?_⟩
        rw [hs.after_missing hfence hcloser hb, close_cleared]
  · rw [not_or, Bool.not_eq_true, Bool.not_eq_true] at hb
    have hfst := close_outside_fst (Mode.inBlock_eq_false.2 hb)
    have hclose : converter.close.2 = ⟨[], .ok (Part.printAll converter.closeParts)⟩ := by
      have hopen : converter.progress.mode.openBlocks = [] := by simp [Mode.openBlocks, hb]
      rw [hs.close_eq, hopen]
      cases converter.settings.strictBlocks <;> rfl
    refine ⟨fun _ _ => ⟨hfst, by rw [hfst, close_cleared]⟩, fun _ => ⟨_, by rw [hclose]⟩, fun _ => ?_⟩
    rw [hclose]
    refine ⟨rfl, iff_of_false ?_ (by simp [hb]), ?_⟩
    · rintro ⟨failure, hf⟩
      cases hf
    · intro failure hf
      cases hf

/-- A verbatim block is open in a math block. The document cannot end, neither there nor behind a fence, and it ends
behind the fence and the delimiter. -/
theorem close_atomic_both :
    let settings := { Settings.default with strictBlocks := true }
    let converter := ((((Converter.new settings).obey (.line "* a".toList)).1.obey (.line "\\[".toList)).1.obey
      (.line "```".toList)).1
    Reachable settings converter ∧
      converter.close.2 = ⟨[], .error (.unterminated .verbatim)⟩ ∧ converter.close.1 = converter ∧
      (converter.obey (.line "```".toList)).1.close.2 = ⟨[], .error (.unterminated .math)⟩ ∧
      (converter.after [.line "```".toList, .line " \\]\n".toList]).close.2 = ⟨[], .ok documentEnd⟩ := by
  intro settings converter
  have hreach : Reachable settings converter := .obey _ (.obey _ (.obey _ .new))
  have hmode : converter.progress.mode = ⟨false, true, "\\[".toList⟩ := by decide +kernel
  have hopen : ∀ {other : Converter} {block : Block} {blocks : List Block}, Reachable settings other →
      other.progress.mode.openBlocks = block :: blocks → other.close.2 = ⟨[], .error (.unterminated block)⟩ := by
    intro other block blocks hother hblocks
    rw [hother.sound.close_eq, hother.settings_eq, hblocks]
  have hclose : converter.close.2 = ⟨[], .error (.unterminated .verbatim)⟩ := hopen hreach (by rw [hmode]; rfl)
  have hbehind : (converter.obey (.line "```".toList)).1.close.2 = ⟨[], .error (.unterminated .math)⟩ :=
    hopen (.obey _ hreach) (show _ = [Block.math] by decide +kernel)
  obtain ⟨-, -, hstrict⟩ := close_atomic hreach
  obtain ⟨-, -, hfailure⟩ := hstrict rfl
  obtain ⟨-, hsame, hretry⟩ := hfailure _ (by rw [hclose])
  have hlast := hretry "```".toList " \\]\n".toList (by decide +kernel) (fun _ => by rw [hmode]; decide +kernel)
  rw [hsame, hmode] at hlast
  exact ⟨hreach, hclose, hsame, hbehind, hlast⟩

end Converter

end Lectern
