import Lectern.Proofs.Outcomes
import Lectern.Proofs.Passages

/-!
# Indentation is layout

How far the lines of a document are indented for each list around them changes nothing but the spaces that they begin
with. Every run is compared with the one in which no line is indented (`Converter.flat`): a line that can be written at
all is written as it is there (`Progress.write_flat`), and what is printed for it differs in spaces at the beginning of
lines (`WrittenLine.unindented_print`). So does the whole document (`Document.convertLines_flat`), and two widths give
the same lines without their indentation because there is one run without it (`Document.convert_layout`).
-/

set_option autoImplicit false

namespace Lectern

/-! ## Lines without indentation -/

namespace Text

/-- The lines of a text without the spaces that they begin with. -/
def unindented (s : Text) : List Text := (splitLines s).map fun line => line.dropWhile (· == ' ')

theorem splitLines_ne_nil (s : Text) : splitLines s ≠ [] := by
  cases s with
  | nil => exact List.cons_ne_nil _ _
  | cons c s =>
    rw [splitLines]
    split
    · exact List.cons_ne_nil _ _
    · split <;> exact List.cons_ne_nil _ _

theorem splitLines_cons {c : Char} (hc : c ≠ '\n') {s line : Text} {lines : List Text}
    (h : splitLines s = line :: lines) : splitLines (c :: s) = (c :: line) :: lines := by
  rw [splitLines, if_neg hc, h]

/-- A line feed ends one line and begins another. -/
theorem splitLines_append (s t : Text) : splitLines (s ++ '\n' :: t) = splitLines s ++ splitLines t := by
  induction s with
  | nil => rfl
  | cons c s ih =>
    by_cases hc : c = '\n'
    · rw [List.cons_append, splitLines, splitLines, if_pos hc, if_pos hc, ih, List.cons_append]
    · cases hs : splitLines s with
      | nil => exact absurd hs (splitLines_ne_nil s)
      | cons line lines =>
        rw [hs, List.cons_append] at ih
        rw [List.cons_append, splitLines_cons hc ih, splitLines_cons hc hs, List.cons_append]

theorem unindented_append (s t : Text) : unindented (s ++ '\n' :: t) = unindented s ++ unindented t := by
  rw [unindented, splitLines_append, List.map_append, unindented, unindented]

theorem unindented_space (s : Text) : unindented (' ' :: s) = unindented s := by
  cases hs : splitLines s with
  | nil => exact absurd hs (splitLines_ne_nil s)
  | cons line lines =>
    rw [unindented, unindented, splitLines_cons (by decide) hs, hs, List.map_cons, List.map_cons,
      List.dropWhile_cons_of_pos (by decide)]

/-- Spaces in front of a text are in front of its first line. -/
theorem unindented_spaces (n : Nat) (s : Text) : unindented (spaces n ++ s) = unindented s := by
  induction n with
  | zero => rfl
  | succ n ih => exact (unindented_space _).trans ih

/-- Texts that are put on lines of their own keep their lines. -/
theorem unindented_intercalate (first : Text) (texts : List Text) :
    unindented (List.intercalate ['\n'] (first :: texts)) = (first :: texts).flatMap unindented := by
  induction texts generalizing first with
  | nil => simp [List.intercalate]
  | cons text texts ih =>
    rw [List.intercalate_cons_cons, List.append_assoc, List.singleton_append, unindented_append, ih]
    exact List.flatMap_cons.symm

end Text

open Text

section Printing

theorem unindented_tags (width : Int) (lines : List TagLine) (rest : Text) :
    unindented (lines.flatMap (TagLine.print width) ++ rest) =
      lines.flatMap (fun line => unindented line.tag.print) ++ unindented rest := by
  induction lines with
  | nil => rfl
  | cons line lines ih =>
    have hprint : (line :: lines).flatMap (TagLine.print width) ++ rest =
        indentAt width line.depth ++ (line.tag.print ++ '\n' :: (lines.flatMap (TagLine.print width) ++ rest)) := by
      simp [TagLine.print]
    rw [hprint, indentAt, unindented_spaces, unindented_append, ih, List.flatMap_cons, List.append_assoc]

/-- Whatever the width is, it shows in the indentation of lines only. -/
theorem WrittenLine.unindented_print (width : Int) (line : WrittenLine) (rest : Text) :
    unindented (line.print width ++ rest) =
      line.tags.flatMap (fun line => unindented line.tag.print) ++ unindented (line.text ++ rest) := by
  have hindent : ∀ s, unindented (line.depth?.elim [] (indentAt width) ++ s) = unindented s := by
    intro s
    cases line.depth? with
    | none => rfl
    | some depth => exact unindented_spaces _ s
  rw [WrittenLine.print, List.append_assoc, List.append_assoc, unindented_tags, hindent]

end Printing

/-! ## Runs without indentation -/

/-- No line is indented. -/
def Indentation.flat : Indentation := .spaces 0

theorem Indentation.allows_flat [Memory] (depth : Nat) : Indentation.flat.allows depth = .ok () := by
  rw [flat, Indentation.allows_spaces_eq_ok_iff, Int.zero_mul]
  exact ⟨by decide, Int.natCast_nonneg _⟩

/-- The settings with which no line is indented. -/
def Settings.flat (settings : Settings) : Settings := { settings with indentWidth := 0 }

/-- The converter that indents no line. -/
def Converter.flat (converter : Converter) : Converter :=
  { converter with settings := converter.settings.flat, indentation := .flat }

namespace Progress

variable [Memory] {indentation : Indentation} {progress next : Progress} {line : Text} {written : WrittenLine}

theorem render_flat {t : Token} {fragment : Fragment} (h : progress.render indentation t = (next, .ok fragment)) :
    progress.render .flat t = (next, .ok fragment) := by
  cases t with
  | item kind depth =>
    rcases Outline.reconcileWithin_cases indentation depth kind progress.outline with
      ⟨hr, -⟩ | ⟨opened, reason, -, -, -, hr⟩
    · have hflat := @Outline.reconcileWithin_of_allows _ .flat depth kind progress.outline
        (Indentation.allows_flat depth)
      simp only [render, reconcile, hr] at h
      simp only [render, reconcile, hflat]
      exact h
    · simp only [render, reconcile, hr] at h
      cases h
  | _ => exact h

theorem renderAll_flat {tokens : List Token} {fragments : List Fragment}
    (h : progress.renderAll indentation tokens = (next, .ok fragments)) :
    progress.renderAll .flat tokens = (next, .ok fragments) := by
  induction tokens generalizing progress fragments with
  | nil => exact h
  | cons t tokens ih =>
    rw [renderAll] at h ⊢
    split at h
    · cases h
    · next reached fragment hfirst =>
      split at h
      · cases h
      · next hrest =>
        cases h
        simp only [render_flat hfirst, ih hrest]

/-- A line that can be written is written as it is where no line is indented. -/
theorem write_flat {tokens : List Token} (h : progress.write indentation line tokens = (next, .ok written)) :
    progress.write .flat line tokens = (next, .ok written) := by
  unfold write at h ⊢
  split at h
  · cases h
  · next reached fragments hr =>
    simp only [takeWithin] at h
    simp only [renderAll_flat hr, takeWithin_of_allows (Indentation.allows_flat _)]
    split at h
    · exact h
    · cases h

end Progress

namespace Converter

variable {converter next : Converter} {line : Text} {written? : Option WrittenLine}

theorem written_flat [Memory] {tokens : List Token}
    (h : ((converter.write line tokens).1, (converter.write line tokens).2.map some) = (next, .ok written?)) :
    ((converter.flat.write line tokens).1, (converter.flat.write line tokens).2.map some) =
      (next.flat, .ok written?) := by
  cases hw : converter.progress.write converter.indentation line tokens with
  | mk reached result =>
    cases result with
    | error failure => simp [write, hw, Except.map] at h
    | ok written =>
      have hflat : converter.flat.progress.write converter.flat.indentation line tokens = (reached, .ok written) :=
        Progress.write_flat hw
      simp only [write, hw, Except.map] at h
      simp only [write, hflat, Except.map]
      cases h
      rfl

theorem headLine_flat [Memory] (h : converter.headLine line = (next, .ok written?)) :
    converter.flat.headLine line = (next.flat, .ok written?) := by
  have hread : converter.flat.read line = ((converter.read line).1.flat, (converter.read line).2) := rfl
  cases hr : converter.read line with
  | mk reached result =>
    rw [hr] at hread
    cases result with
    | error failure =>
      simp only [headLine, hr] at h
      cases h
    | ok tokens =>
      cases tokens with
      | nil =>
        simp only [headLine, hr] at h
        simp only [headLine, hread]
        cases h
        rfl
      | cons t tokens =>
        by_cases hc : ∃ assignment, t = .command assignment
        · obtain ⟨assignment, rfl⟩ := hc
          simp only [headLine, hr] at h
          simp only [headLine, hread]
          cases h
          rfl
        · have ht : ∀ assignment, t ≠ .command assignment := fun assignment he => hc ⟨assignment, he⟩
          rw [headLine_eq_write hr ht] at h
          rw [headLine_eq_write hread ht]
          exact written_flat h

theorem contentLine_flat [Memory] (h : converter.contentLine line = (next, .ok written?)) :
    converter.flat.contentLine line = (next.flat, .ok written?) := by
  have hhead : converter.flat.progress.mode.head = converter.progress.mode.head := rfl
  have hread : converter.flat.read line = ((converter.read line).1.flat, (converter.read line).2) := rfl
  unfold contentLine at h ⊢
  rw [hhead]
  split at h
  · next hh => rw [if_pos hh, headLine_flat h]
  · next hh =>
    rw [if_neg hh]
    cases hr : converter.read line with
    | mk reached result =>
      rw [hr] at hread
      cases result with
      | error failure =>
        simp only [bodyLine, hr] at h
        cases h
      | ok tokens =>
        simp only [bodyLine, hr] at h
        simp only [bodyLine, hread]
        exact written_flat h

theorem unindented_print_flat (written : WrittenLine) (rest : Text) (converter : Converter) :
    unindented (converter.flat.print written ++ rest) = unindented (converter.print written ++ rest) := by
  rw [print, print, WrittenLine.unindented_print, WrittenLine.unindented_print]

theorem unindented_printLine_flat (terminator : Text) (written? : Option WrittenLine) (converter : Converter) :
    unindented (converter.flat.printLine terminator written?) =
      unindented (converter.printLine terminator written?) := by
  cases written? with
  | none => rfl
  | some written => exact unindented_print_flat written terminator converter

/-! ## Ends -/

/-- Ends of documents that differ in the indentation of their lines at most. -/
def Ending.Alike (first second : Ending) : Prop :=
  first.warnings = second.warnings ∧ first.text.map unindented = second.text.map unindented

section Ends

variable {closing : Text}

theorem unindented_finish_flat (settings : Settings) (hc : closing = [] ∨ ∃ front, closing = front ++ ['\n'])
    (progress : Progress) :
    unindented (finish settings.flat closing progress).2 = unindented (finish settings closing progress).2 := by
  have hprint : ∀ rest width other,
      unindented ((((progress.closeTo 0).setLine []).take.1).print width ++ rest) =
        unindented ((((progress.closeTo 0).setLine []).take.1).print other ++ rest) := fun rest width other => by
    rw [WrittenLine.unindented_print, WrittenLine.unindented_print]
  rcases hc with rfl | ⟨front, rfl⟩
  · exact hprint _ _ _
  · simp only [finish, List.append_assoc, List.cons_append, List.nil_append, unindented_append]
    exact congrArg (_ ++ ·) (hprint _ _ _)

theorem closeMath_flat (settings : Settings) (warnings : List Text)
    (hc : closing = [] ∨ ∃ front, closing = front ++ ['\n']) (progress : Progress) :
    (closeMath settings.flat warnings closing progress).1 = (closeMath settings warnings closing progress).1 ∧
      (closeMath settings.flat warnings closing progress).2.Alike (closeMath settings warnings closing progress).2 := by
  have hstrict : settings.flat.strictBlocks = settings.strictBlocks := rfl
  unfold closeMath
  rw [hstrict]
  split
  · split
    · exact ⟨rfl, rfl, rfl⟩
    · split
      · exact ⟨rfl, rfl, rfl⟩
      · exact ⟨rfl, rfl, congrArg Except.ok (unindented_finish_flat settings (.inr ⟨_, rfl⟩) _)⟩
  · exact ⟨rfl, rfl, congrArg Except.ok (unindented_finish_flat settings hc progress)⟩

theorem close_flat (converter : Converter) :
    converter.flat.close.1 = converter.close.1.flat ∧ converter.flat.close.2.Alike converter.close.2 := by
  have hflat : converter.flat.progress = converter.progress := rfl
  cases hv : converter.progress.mode.verbatim with
  | false =>
    obtain ⟨hnext, halike⟩ := closeMath_flat converter.settings [] (.inl rfl) converter.progress
    rw [close_of_not_verbatim hv, close_of_not_verbatim (by rw [hflat, hv])]
    exact ⟨congrArg (fun progress => { converter.flat with progress }) hnext, halike⟩
  | true =>
    cases hs : converter.settings.strictBlocks with
    | true =>
      have hs' : converter.flat.settings.strictBlocks = true := hs
      simp only [close, hflat, hv, hs, hs']
      exact ⟨rfl, rfl, rfl⟩
    | false =>
      obtain ⟨hnext, halike⟩ := closeMath_flat converter.settings [Block.verbatim.warning]
        (.inr ⟨Fragment.command "end" "verbatim".toList, rfl⟩) (closeVerbatim converter.progress).1
      have hv' : converter.flat.progress.mode.verbatim = true := hv
      have hs' : converter.flat.settings.strictBlocks = false := hs
      rw [close_of_verbatim hv hs, close_of_verbatim hv' hs']
      exact ⟨congrArg (fun progress => { converter.flat with progress }) hnext, halike⟩

end Ends

end Converter

/-! ## Documents -/

namespace Document

section Feeding

variable [Memory] {converter next : Converter} {line : Text} {lines : List Text}

theorem feed_flat {text? : Option Text} (h : feed line converter = (next, .ok text?)) :
    ∃ flat?, feed line converter.flat = (next.flat, .ok flat?) ∧ flat?.map unindented = text?.map unindented := by
  have hhead : converter.flat.progress.mode.head = converter.progress.mode.head := rfl
  unfold feed at h ⊢
  rw [hhead]
  split at h
  · next hh =>
    rw [if_pos hh]
    cases hl : converter.headLine line with
    | mk reached result =>
      rw [hl] at h
      cases result with
      | error failure => cases h
      | ok written? =>
        cases h
        refine ⟨written?.map next.flat.print, by rw [Converter.headLine_flat hl]; rfl, ?_⟩
        cases written? with
        | none => rfl
        | some written =>
          have hprint := Converter.unindented_print_flat written [] next
          rw [List.append_nil, List.append_nil] at hprint
          exact congrArg some hprint
  · next hh =>
    rw [if_neg hh]
    cases hl : converter.contentLine (splitTerminator line).1 with
    | mk reached result =>
      simp only [Converter.line, hl] at h
      cases result with
      | error failure => cases h
      | ok written? =>
        cases h
        refine ⟨some (next.flat.printLine (splitTerminator line).2 written?), ?_, ?_⟩
        · simp only [Converter.line, Converter.contentLine_flat hl]
          rfl
        · exact congrArg some (Converter.unindented_printLine_flat _ _ _)

/-- Lines that can all be fed give the same lines where no line is indented. -/
theorem feedAll_flat {texts : List Text} (h : feedAll lines converter = (next, .ok texts)) :
    ∃ flats, feedAll lines converter.flat = (next.flat, .ok flats) ∧
      flats.flatMap unindented = texts.flatMap unindented := by
  induction lines generalizing converter texts with
  | nil =>
    cases h
    exact ⟨[], rfl, rfl⟩
  | cons line lines ih =>
    rw [feedAll] at h
    split at h
    · cases h
    · next reached text? hfeed =>
      obtain ⟨flat?, hfirst, hsame⟩ := feed_flat hfeed
      split at h
      · cases h
      · next rest hrest =>
        cases h
        obtain ⟨flats, hflats, hall⟩ := ih hrest
        refine ⟨flat?.toList ++ flats, by simp only [feedAll, hfirst, hflats], ?_⟩
        have hfront : flat?.toList.flatMap unindented = text?.toList.flatMap unindented := by
          rw [List.flatMap_def, List.flatMap_def, ← Option.toList_map, ← Option.toList_map, hsame]
        rw [List.flatMap_append, List.flatMap_append, hall, hfront]

end Feeding

section Documents

variable {settings : Settings} {lines : List Text}

/-- Outcomes that differ in the indentation of the lines of the document at most. -/
def Outcome.Alike (first second : Outcome) : Prop :=
  first.warnings = second.warnings ∧ first.document.map unindented = second.document.map unindented

theorem unindented_document (preamble : Text) (texts : List Text) (text : Text) :
    unindented (List.intercalate ['\n'] ([preamble] ++ texts ++ [text]) ++ ['\n']) =
      unindented preamble ++ texts.flatMap unindented ++ unindented text ++ [[]] := by
  have hlast : unindented [] = [[]] := rfl
  rw [unindented_append, hlast, List.singleton_append, List.cons_append, unindented_intercalate]
  simp only [List.flatMap_cons, List.flatMap_append, List.flatMap_nil, List.append_nil, List.append_assoc]

theorem assemble_flat {texts flats : List Text} (h : flats.flatMap unindented = texts.flatMap unindented)
    (behind : Converter) :
    (assemble behind.flat.close.1 flats behind.flat.close.2).Alike
      (assemble behind.close.1 texts behind.close.2) := by
  obtain ⟨hnext, hwarnings, htext⟩ := behind.close_flat
  refine ⟨hwarnings, ?_⟩
  have hpreamble : behind.flat.close.1.preamble = behind.close.1.preamble := by rw [hnext]; rfl
  simp only [assemble]
  cases hf : behind.flat.close.2.text with
  | error failure =>
    cases hs : behind.close.2.text with
    | error other =>
      rw [hf, hs] at htext
      cases htext
      rfl
    | ok text =>
      rw [hf, hs] at htext
      cases htext
  | ok flat =>
    cases hs : behind.close.2.text with
    | error other =>
      rw [hf, hs] at htext
      cases htext
    | ok text =>
      rw [hf, hs] at htext
      have hsame : unindented flat = unindented text := Except.ok.inj htext
      refine congrArg Except.ok ?_
      rw [unindented_document, unindented_document, hpreamble, h, hsame]

/-- No line of a document is indented further than there are spaces for, if it comes to that. -/
def Indentable [Memory] (settings : Settings) (lines : List Text) : Prop :=
  (∀ line ∈ lines, (line.length : Int) ≤ settings.maxLineLength) → spacesNeeded settings lines ≤ Memory.size

theorem start_flat (settings : Settings) (lines : List Text) :
    start settings.flat lines = (start settings lines).flat := by
  unfold start
  split <;> rfl

/-- A document is what it is without indentation but for the spaces that its lines begin with. -/
theorem convertLines_flat [Memory] (hwidth : 0 < settings.indentWidth) (hl : ∀ line ∈ lines, '\n' ∉ line)
    (hi : Indentable settings lines) :
    (convertLines settings.flat lines).Alike (convertLines settings lines) := by
  have hlimit : settings.flat.maxLineLength = settings.maxLineLength := rfl
  unfold convertLines
  rw [hlimit]
  split
  · exact ⟨rfl, rfl⟩
  · next hn =>
    have hshort := (tooLong?_eq_none_iff 1).1 hn
    obtain ⟨texts, htexts⟩ := (feedAll_start_succeeds_iff hwidth hl).2 (hi hshort)
    cases hf : feedAll lines (start settings lines) with
    | mk behind result =>
      rw [hf] at htexts
      cases htexts
      obtain ⟨flats, hflats, hsame⟩ := feedAll_flat hf
      rw [start_flat, hflats]
      exact assemble_flat hsame behind

/-- Settings that differ in the width of the indentation only are the same without it. -/
theorem flat_eq_of_check {raw other : RawSettings} {settings otherSettings : Settings}
    (h : raw.check = .ok settings) (ho : other.check = .ok otherSettings)
    (hsame : ∀ setting, setting ≠ .indentWidth → raw setting = other setting) :
    settings.flat = otherSettings.flat := by
  have hvalue : ∀ setting, setting ≠ .indentWidth → settings.value setting = otherSettings.value setting := by
    rw [RawSettings.value_of_check h, RawSettings.value_of_check ho]
    exact hsame
  have hpackages : settings.packages = otherSettings.packages := by
    have hmap := Value.array.inj (hvalue .packages (by decide))
    exact (List.map_inj_right fun _ _ => Value.text.inj).1 hmap
  obtain ⟨⟩ := settings
  obtain ⟨⟩ := otherSettings
  cases Value.text.inj (hvalue .title (by decide))
  cases Value.text.inj (hvalue .author (by decide))
  cases Value.text.inj (hvalue .date (by decide))
  cases Value.text.inj (hvalue .documentClass (by decide))
  cases Value.text.inj (hvalue .classOptions (by decide))
  cases Value.bool.inj (hvalue .strictBlocks (by decide))
  cases Value.int.inj (hvalue .maxFileSize (by decide))
  cases Value.int.inj (hvalue .maxLineLength (by decide))
  cases hpackages
  rfl

end Documents

/-- **Indentation is layout.** With settings that pass the check and differ in the width of the indentation only, either
both conversions fail alike or both give documents of the same lines but for the spaces in front of them, with the same
warnings, unless a line of one is to be indented by more spaces than the memory holds. That conversion then fails for
this reason. -/
theorem convert_layout [Memory] {raw other : RawSettings} {settings otherSettings : Settings}
    (h : raw.check = .ok settings) (ho : other.check = .ok otherSettings)
    (hsame : ∀ setting, setting ≠ .indentWidth → raw setting = other setting) (content : Text) :
    (Indentable settings (lines content) → Indentable otherSettings (lines content) →
      (convert raw content).warnings = (convert other content).warnings ∧
        (convert raw content).document.map unindented = (convert other content).document.map unindented) ∧
    (¬ Indentable settings (lines content) →
      ∃ reason, convert raw content = ⟨[], .error (.conversion (.unindentable (.unrepeatable reason)))⟩) := by
  have hl : ∀ line ∈ lines content, '\n' ∉ line := fun line hline => not_mem_of_mem_lines hline
  have hwidth := (RawSettings.valid_of_check h).indentWidth_pos
  have hwidth' := (RawSettings.valid_of_check ho).indentWidth_pos
  constructor
  · intro hi hi'
    obtain ⟨hwarnings, hdocument⟩ := convertLines_flat hwidth hl hi
    obtain ⟨hwarnings', hdocument'⟩ := convertLines_flat hwidth' hl hi'
    rw [flat_eq_of_check h ho hsame] at hwarnings hdocument
    simp only [convert, h, ho]
    exact ⟨hwarnings.symm.trans hwarnings', hdocument.symm.trans hdocument'⟩
  · intro hi
    obtain ⟨hshort, hwide⟩ := Classical.not_imp.1 hi
    have hdecided := decided_convert h content
    generalize convert raw content = outcome at hdecided ⊢
    cases hdecided with
    | lineTooLong number hfirst => exact absurd hfirst (Decided.not_lineTooLong hshort)
    | unindentable reason _ _ => exact ⟨reason, rfl⟩
    | unterminated block _ hneeded => exact absurd hneeded hwide
    | document middle _ hneeded => exact absurd hneeded hwide

/-- Lines of two lists are indented, and those of a verbatim block are not. -/
theorem convert_layout_two :
    let other := RawSettings.default.set .indentWidth (.int 2)
    let content := "* a\n  1. b\n\n  c\n```\n  d".toList
    RawSettings.default.check = .ok Settings.default ∧
      other.check = .ok { Settings.default with indentWidth := 2 } ∧
      (∀ setting, setting ≠ .indentWidth → RawSettings.default setting = other setting) ∧
      Indentable Settings.default (lines content) ∧
      Indentable { Settings.default with indentWidth := 2 } (lines content) ∧
      (convert RawSettings.default content).document.toOption ≠ (convert other content).document.toOption ∧
      (convert RawSettings.default content).warnings = (convert other content).warnings ∧
      (convert RawSettings.default content).document.map unindented =
        (convert other content).document.map unindented := by
  intro other content
  have hcheck : RawSettings.default.check = .ok Settings.default := rfl
  have hother : other.check = .ok { Settings.default with indentWidth := 2 } := rfl
  have hsame : ∀ setting, setting ≠ .indentWidth → RawSettings.default setting = other setting :=
    fun setting hne => (if_neg hne).symm
  have hneeded : spacesNeeded Settings.default (lines content) ≤ Memory.size := by decide +kernel
  have hneeded' : spacesNeeded { Settings.default with indentWidth := 2 } (lines content) ≤ Memory.size := by
    decide +kernel
  have hdiffer :
      (convert RawSettings.default content).document.toOption ≠ (convert other content).document.toOption := by
    decide +kernel
  exact ⟨hcheck, hother, hsame, fun _ => hneeded, fun _ => hneeded', hdiffer,
    (convert_layout hcheck hother hsame content).1 (fun _ => hneeded) fun _ => hneeded'⟩

/-- One list item is enough if one of the widths is no index. -/
theorem not_convert_layout :
    ¬ ∀ (raw other : RawSettings) (settings otherSettings : Settings), raw.check = .ok settings →
      other.check = .ok otherSettings → (∀ setting, setting ≠ .indentWidth → raw setting = other setting) →
      ∀ content, (convert raw content).document.map unindented = (convert other content).document.map unindented := by
  intro h
  have hcheck : (RawSettings.default.set .indentWidth (.int 9223372036854775808)).check =
      .ok { Settings.default with indentWidth := 9223372036854775808 } := rfl
  have hsame := h _ _ _ _ (show RawSettings.default.check = .ok Settings.default from rfl) hcheck
    (fun setting hne => (if_neg hne).symm) "* a".toList
  have hdocument : (convert RawSettings.default "* a".toList).document.toOption.isSome = true := by decide +kernel
  have hfails : (convert (RawSettings.default.set .indentWidth (.int 9223372036854775808))
      "* a".toList).document.toOption = none := by decide +kernel
  have hmap : ∀ document : Except Failure Text,
      (document.map unindented).toOption.isSome = document.toOption.isSome := by
    intro document
    cases document <;> rfl
  rw [← hmap, hsame, hmap, hfails] at hdocument
  cases hdocument

end Document

end Lectern
