import Lectern.Proofs.Nesting

/-!
# Converters that can be reached

A converter may be told that the head has ended at any time, and it may be used again behind the end of a document.
**`Converter.Reachable`** are the converters that come of all that can be done with one, in any order;
`Reachable.sound` says that they are all sound. **`Converter.Intact`** are those that have never failed to convert a
line; `Intact.settled` says that nothing is pending in them.
-/

set_option autoImplicit false

namespace Lectern

/-! ## The end of a document -/

theorem Progress.Coherent.toggleVerbatim {progress : Progress} (h : progress.Coherent)
    (hv : progress.mode.verbatim = true) : (progress.mapMode Mode.toggleVerbatim).Coherent where
  delimiter := h.delimiter
  block := fun _ => h.block (.inl hv)
  head := fun hh => by
    have := (h.head hh).1
    rw [hv] at this
    cases this
  outside := h.outside

theorem Progress.Coherent.toggleMath {progress : Progress} (h : progress.Coherent) (delimiter : Text)
    (hm : progress.mode.math = true) : (progress.mapMode (Mode.toggleMath delimiter)).Coherent where
  delimiter := by
    rw [mapMode, Mode.toggleMath_of_math hm]
    exact .inl rfl
  block := fun _ => h.block (.inr hm)
  head := fun hh => by
    have := (h.head hh).2.1
    rw [hm] at this
    cases this
  outside := h.outside

namespace Converter

/-- Behind the end of a document no list is open. -/
theorem coherent_finish (settings : Settings) (closing : Text) {progress : Progress} (h : progress.Coherent) :
    (finish settings closing progress).1.Coherent where
  delimiter := h.delimiter
  block := fun _ => Outline.levels_closeTo_zero _
  head := fun hh => ⟨(h.head hh).1, (h.head hh).2.1, Outline.levels_closeTo_zero _⟩
  outside := fun _ => ⟨rfl, rfl⟩

theorem coherent_closeMath (settings : Settings) (warnings : List Text) (closing : Text) {progress : Progress}
    (h : progress.Coherent) : (closeMath settings warnings closing progress).1.Coherent := by
  unfold closeMath
  split
  · next hm =>
    split
    · exact h
    · next closer _ =>
      split
      · exact h
      · exact coherent_finish settings (closing ++ closer ++ ['\n']) (h.toggleMath _ hm)
  · exact coherent_finish settings closing h

theorem progress_close (converter : Converter) : converter.close.1.progress =
    (if converter.progress.mode.verbatim then
      if converter.settings.strictBlocks then (converter.progress, ⟨[], .error (.unterminated .verbatim)⟩)
      else closeMath converter.settings [Block.verbatim.warning] (closeVerbatim converter.progress).2
        (closeVerbatim converter.progress).1
    else closeMath converter.settings [] [] converter.progress).1 := rfl

section

variable [Memory]

/-- A converter can be used again behind the end of a document. -/
theorem Sound.close {converter : Converter} (hs : converter.Sound) : converter.close.1.Sound where
  coherent := by
    rw [progress_close]
    split
    · next hv =>
      split
      · exact hs.coherent
      · exact coherent_closeMath _ _ _ (hs.coherent.toggleVerbatim hv)
    · exact coherent_closeMath _ _ _ hs.coherent
  outermost := hs.outermost

theorem Sound.endHead {converter : Converter} (hs : converter.Sound) : converter.endHead.Sound where
  coherent := hs.coherent.endHead
  outermost := hs.outermost

/-! ## All converters -/

/-- A converter as its settings, its calls and the ends of its documents have made it. -/
inductive Reachable (settings : Settings) : Converter → Prop
  | new : Reachable settings (.new settings)
  | endHead {converter : Converter} : Reachable settings converter → Reachable settings converter.endHead
  | obey {converter : Converter} (call : Call) :
      Reachable settings converter → Reachable settings (converter.obey call).1
  | close {converter : Converter} : Reachable settings converter → Reachable settings converter.close.1

theorem Reachable.sound {settings : Settings} {converter : Converter} (h : Reachable settings converter) :
    converter.Sound := by
  induction h with
  | new => exact (ready_fresh settings false).sound
  | endHead _ ih => exact ih.endHead
  | obey call _ ih => exact ih.obey call
  | close _ ih => exact ih.close

/-- Its settings say by how many spaces a converter indents lines. -/
theorem Reachable.indentation_eq {settings : Settings} {converter : Converter} (h : Reachable settings converter) :
    converter.indentation = .spaces settings.indentWidth := by
  induction h with
  | new => rfl
  | endHead _ ih => exact ih
  | obey call h ih => rw [indentation_obey h.sound.coherent, ih]
  | close _ ih => exact ih

/-! ## Calls that have all succeeded -/

/-- A converter as calls that succeeded, and the ends of its documents, have made it. -/
inductive Intact (settings : Settings) : Converter → Prop
  | new : Intact settings (.new settings)
  | endHead {converter : Converter} : Intact settings converter → Intact settings converter.endHead
  | obey {converter : Converter} (call : Call) : Intact settings converter →
      (∃ text?, (converter.obey call).2 = .ok text?) → Intact settings (converter.obey call).1
  | close {converter : Converter} : Intact settings converter → Intact settings converter.close.1

end

section Intact

variable {settings : Settings} {converter : Converter}

theorem Intact.reachable [Memory] (h : Intact settings converter) : Reachable settings converter := by
  induction h with
  | new => exact .new
  | endHead _ ih => exact .endHead ih
  | obey call _ _ ih => exact .obey call ih
  | close _ ih => exact .close ih

theorem nothing_pending_closeMath (settings : Settings) (warnings : List Text) (closing : Text) {progress : Progress}
    (hp : progress.outline.pending = []) (hl : progress.line = []) :
    (closeMath settings warnings closing progress).1.outline.pending = [] ∧
      (closeMath settings warnings closing progress).1.line = [] := by
  unfold closeMath
  split
  · split
    · exact ⟨hp, hl⟩
    · split
      · exact ⟨hp, hl⟩
      · exact ⟨rfl, rfl⟩
  · exact ⟨rfl, rfl⟩

/-- Where nothing was pending, nothing is behind the end of a document or where it cannot end. -/
theorem nothing_pending_close (hp : converter.progress.outline.pending = []) (hl : converter.progress.line = []) :
    converter.close.1.progress.outline.pending = [] ∧ converter.close.1.progress.line = [] := by
  rw [progress_close]
  split
  · split
    · exact ⟨hp, hl⟩
    · exact nothing_pending_closeMath _ _ _ hp hl
  · exact nothing_pending_closeMath _ _ _ hp hl

/-- As long as every call succeeds, nothing is pending between two of them. -/
theorem Intact.settled [Memory] (h : Intact settings converter) : converter.progress.Settled := by
  induction h with
  | new => exact (ready_fresh settings false).settled
  | endHead _ ih => exact { ih.toCoherent.endHead with pending := ih.pending, line := ih.line }
  | obey call hi ho ih =>
    obtain ⟨result, print, hstep, hp⟩ := lineStep_obey ih.toCoherent call
    rw [hp, exists_ok_map] at ho
    obtain ⟨written?, rfl⟩ := ho
    exact hstep.settled ih hi.reachable.sound.outermost
  | close hi ih =>
    obtain ⟨hp, hl⟩ := nothing_pending_close ih.pending ih.line
    exact { hi.reachable.sound.close.coherent with pending := hp, line := hl }

end Intact

end Converter

end Lectern
