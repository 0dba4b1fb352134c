import Lectern.Proofs.Indents
import Lectern.Proofs.ListStructure
import Mathlib.Data.List.Forall2

/-!
# Tab stops

A tab in the indentation of a line stands for the spaces up to the next tab stop, and `Text.expandIndent` writes these.
The indentation is as wide as before, and that is all that tells (`Text.expandIndent_cases`): a line leaves the same
converter behind either indentation, and it is written behind the same tags; its text begins with its own indentation
if no list is open, and is the same otherwise (`Sound.contentLine_indents`). So it goes line by line (`SameLine`), and a
run of lines goes through the same states (**`Converter.sameLines_expandIndent`**).
-/

set_option autoImplicit false

namespace Lectern

/-! ## Columns -/

namespace Text

/-- The text with spaces in the place of the tabs that it is indented by, if it begins in a given column. -/
def expandFrom (column : Nat) : Text → Text
  | ' ' :: s => ' ' :: expandFrom (column + 1) s
  | '\t' :: s =>
    spaces (tabWidth - column % tabWidth) ++ expandFrom (column + (tabWidth - column % tabWidth)) s
  | s => s

/-- The text with spaces in the place of the tabs that it is indented by. -/
def expandIndent (s : Text) : Text := expandFrom 0 s

theorem le_columnsFrom (column : Nat) (s : Text) : column ≤ columnsFrom column s := by
  fun_induction columnsFrom column s with
  | case1 column s ih => omega
  | case2 column s ih => omega
  | case3 s column hspace htab => exact Nat.le_refl _

/-- A tab stop is always ahead. -/
theorem lt_columnsFrom {c : Char} (hc : c = ' ' ∨ c = '\t') (column : Nat) (s : Text) :
    column < columnsFrom column (c :: s) := by
  rcases hc with rfl | rfl
  · exact le_columnsFrom (column + 1) s
  · have hstop := Nat.mod_lt column (show 0 < tabWidth by decide)
    have hle := le_columnsFrom (column + (tabWidth - column % tabWidth)) s
    rw [columnsFrom]
    omega

/-- A text that does not start with a space or a tab is not indented. -/
theorem columnsFrom_of_head? {s : Text} (h : s.head? ≠ some ' ' ∧ s.head? ≠ some '\t') (column : Nat) :
    columnsFrom column s = column := by
  rw [columnsFrom]
  · rintro rest rfl
    exact h.1 rfl
  · rintro rest rfl
    exact h.2 rfl

theorem trimIndent_of_head? {s : Text} (h : s.head? ≠ some ' ' ∧ s.head? ≠ some '\t') : trimIndent s = s := by
  cases s with
  | nil => rfl
  | cons c s =>
    have hc : c ≠ ' ' ∧ c ≠ '\t' := ⟨fun he => h.1 (he ▸ rfl), fun he => h.2 (he ▸ rfl)⟩
    exact List.dropWhile_cons_of_neg (by simpa using hc)

theorem columnsFrom_spaces (n column : Nat) (s : Text) :
    columnsFrom column (spaces n ++ s) = columnsFrom (column + n) s := by
  induction n generalizing column with
  | zero => rfl
  | succ n ih =>
    have hnext := ih (column + 1)
    rw [Nat.add_assoc, Nat.add_comm 1 n] at hnext
    exact hnext

/-- The spaces reach as far as the spaces and tabs did. -/
theorem expandFrom_eq (column : Nat) (s : Text) :
    expandFrom column s = spaces (columnsFrom column s - column) ++ trimIndent s := by
  fun_induction columnsFrom column s with
  | case1 column s ih =>
    have hle := le_columnsFrom (column + 1) s
    have hwidth : columnsFrom (column + 1) s - column = columnsFrom (column + 1) s - (column + 1) + 1 := by omega
    rw [expandFrom, ih, hwidth]
    rfl
  | case2 column s ih =>
    have hle := le_columnsFrom (column + (tabWidth - column % tabWidth)) s
    have hwidth : columnsFrom (column + (tabWidth - column % tabWidth)) s - column = tabWidth - column % tabWidth +
        (columnsFrom (column + (tabWidth - column % tabWidth)) s - (column + (tabWidth - column % tabWidth))) := by
      omega
    rw [expandFrom, ih, hwidth, spaces, spaces, spaces, ← List.replicate_append_replicate, List.append_assoc]
    rfl
  | case3 s column hspace htab =>
    have hhead : s.head? ≠ some ' ' ∧ s.head? ≠ some '\t' := by
      constructor
      · intro h
        obtain ⟨rest, he⟩ := List.head?_eq_some_iff.1 h
        exact hspace rest he
      · intro h
        obtain ⟨rest, he⟩ := List.head?_eq_some_iff.1 h
        exact htab rest he
    rw [trimIndent_of_head? hhead, Nat.sub_self, expandFrom]
    · rfl
    · exact fun rest he => hspace rest he
    · exact fun rest he => htab rest he

theorem expandIndent_eq (s : Text) : expandIndent s = spaces s.columns ++ trimIndent s := expandFrom_eq 0 s

/-- A text is indented as far with spaces in the place of tabs. -/
theorem columns_spaces_trimIndent (n : Nat) (s : Text) : (spaces n ++ trimIndent s).columns = n := by
  rw [columns, columnsFrom_spaces, columnsFrom_of_head? (Progress.head?_trimIndent s), Nat.zero_add]

/-- **Only the indentation changes**, and both reach the same column. -/
theorem expandIndent_cases (s : Text) :
    expandIndent s = s ∨ ∃ rest indent spaces : Text, s = indent ++ rest ∧ expandIndent s = spaces ++ rest ∧
      Indents s.columns rest indent ∧ Indents s.columns rest spaces := by
  have hwhole := List.takeWhile_append_dropWhile (p := fun c => c == ' ' || c == '\t') (l := s)
  rw [← trimIndent] at hwhole
  cases hindent : s.takeWhile fun c => c == ' ' || c == '\t' with
  | nil =>
    rw [hindent, List.nil_append] at hwhole
    have hnone : s.columns = 0 := by
      rw [columns, ← hwhole, columnsFrom_of_head? (Progress.head?_trimIndent s)]
    rw [expandIndent_eq, hnone, hwhole]
    exact .inl rfl
  | cons c tail =>
    have hblank : ∀ d ∈ c :: tail, d = ' ' ∨ d = '\t' := by
      rw [← hindent]
      intro d hd
      simpa using List.all_eq_true.1 List.all_takeWhile d hd
    rw [hindent] at hwhole
    have hpositive : 0 < s.columns := by
      rw [← hwhole, List.cons_append]
      exact lt_columnsFrom (hblank c List.mem_cons_self) 0 _
    refine .inr ⟨trimIndent s, c :: tail, spaces s.columns, hwhole.symm, expandIndent_eq s,
      ⟨⟨List.cons_ne_nil c tail, hblank⟩, by rw [hwhole]⟩,
      ⟨⟨?_, fun d hd => .inl (List.eq_of_mem_replicate hd)⟩, columns_spaces_trimIndent _ s⟩⟩
    rw [spaces, ne_eq, List.replicate_eq_nil_iff]
    exact Nat.ne_of_gt hpositive

theorem not_mem_expandIndent {s : Text} (h : '\n' ∉ s) : '\n' ∉ expandIndent s := by
  rw [expandIndent_eq, List.mem_append, not_or]
  refine ⟨fun hc => ?_, fun hc => h ((List.dropWhile_suffix _).mem hc)⟩
  have hspace := List.eq_of_mem_replicate hc
  cases hspace

end Text

/-! ## Lines behind an indentation -/

/-- The written line without the spaces and tabs that its text starts with. -/
def WrittenLine.trimIndent (line : WrittenLine) : WrittenLine := { line with text := Text.trimIndent line.text }

section Writing

variable {column : Nat} {s : Text}

/-- How many lists a line leaves open depends on the width of its indentation. -/
theorem Progress.settleLists_congr {line other : Text} (hc : line.columns = other.columns)
    (hb : Text.allBlank line = Text.allBlank other) :
    settleLists line = settleLists other := by
  funext tokens progress
  simp only [settleLists, hc, hb]

/-- Where a line that is no item continues none, no list is open. -/
theorem Progress.levels_of_continuesItem {progress : Progress} {t : Token} {tokens : List Token}
    (ht : t.isItem = false) (hblock : progress.mode.inBlock = true → progress.outline.levels = [])
    (hc : progress.continuesItem (t :: tokens) = false) : progress.outline.levels = [] := by
  cases hb : progress.mode.inBlock with
  | true => exact hblock hb
  | false =>
    have hdepth : progress.outline.depth = 0 := by simpa [continuesItem, hb, ht] using hc
    exact List.length_eq_zero_iff.1 hdepth

/-- A line that is read as text behind its indentation: it is written with the indentation if no list is open, and
without it otherwise. -/
theorem Progress.write_indent [Memory] {indentation : Indentation} {progress : Progress}
    (h0 : indentation.allows 0 = .ok ())
    (hblock : progress.mode.inBlock = true → progress.outline.levels = []) {tokens : List Token}
    (ht : ∀ t ∈ tokens, t.isInline = true) (rest : Text) :
    (∃ result, ∀ indent, Text.Indents column s indent →
      progress.write indentation (indent ++ s) (.text (indent ++ rest) :: tokens) = result) ∨
    ∃ (next : Progress) (written : WrittenLine), next.outline.levels = [] ∧ ∀ indent, Text.Indents column s indent →
      progress.write indentation (indent ++ s) (.text (indent ++ rest) :: tokens) =
        (next, .ok { written with text := indent ++ written.text }) := by
  let settled := if !progress.mode.inBlock && !Text.allBlank s then progress.closeTo (column / levelWidth : Nat)
    else progress
  have hsettled : ∀ indent, Text.Indents column s indent →
      progress.settleLists (indent ++ s) (.text (indent ++ rest) :: tokens) = settled := fun indent hi => by
    simp [settleLists, Token.isBlockTag, Token.isItem, hi.columns, hi.allBlank_append, settled]
  obtain ⟨fragments, hfragments⟩ : ∃ fragments, settled.renderAll indentation tokens = (settled, .ok fragments) :=
    renderAll_of_plain fun t hmem => Token.isPlain_of_isInline (ht t hmem)
  have hrender : ∀ indent, Text.Indents column s indent →
      (progress.settleLists (indent ++ s) (.text (indent ++ rest) :: tokens)).renderAll indentation
        (.text (indent ++ rest) :: tokens) = (settled, .ok (.text (indent ++ rest) :: fragments)) := fun indent hi => by
    have hfirst : settled.render indentation (.text (indent ++ rest)) = (settled, .ok (.text (indent ++ rest))) := rfl
    simp only [hsettled indent hi, renderAll, hfirst, hfragments]
  have hprint : ∀ indent : Text, Fragment.printAll (.text (indent ++ rest) :: fragments) =
      indent ++ (rest ++ Fragment.printAll fragments) := fun indent =>
    (Fragment.printAll_cons rfl fragments).trans (List.append_assoc indent rest _)
  cases hc : settled.continuesItem (.text rest :: tokens) with
  | true =>
    refine .inl ⟨(((settled.setLine (Text.trimIndent (rest ++ Fragment.printAll fragments))).takeWithin indentation).1,
      ((settled.setLine (Text.trimIndent (rest ++ Fragment.printAll fragments))).takeWithin indentation).2.mapError
        .unindentable), fun indent hi => ?_⟩
    obtain ⟨text, -, htrim, hwrite⟩ := write_of_renderAll (hrender indent hi)
    rw [hwrite, htrim hc, hprint, hi.trimIndent_append]
  | false =>
    have hlevels : settled.outline.levels = [] := levels_of_continuesItem rfl (fun hb => by
      have hmode : settled.mode = progress.mode := by simp only [settled]; split <;> rfl
      rw [hmode] at hb
      have hsame : settled = progress := by simp [settled, hb]
      rw [hsame, hblock hb]) hc
    refine .inr ⟨⟨settled.mode, ⟨settled.outline.levels, []⟩, []⟩,
      ⟨settled.outline.pending, if settled.mode.verbatim then none else some settled.outline.depth,
        rest ++ Fragment.printAll fragments⟩, hlevels, fun indent hi => ?_⟩
    obtain ⟨text, hwhole, -, hwrite⟩ := write_of_renderAll (hrender indent hi)
    have hdepth : indentation.allows (settled.setLine text).outline.depth = .ok () := by
      show indentation.allows settled.outline.levels.length = .ok ()
      rw [hlevels]
      exact h0
    have hne : indent ++ (rest ++ Fragment.printAll fragments) ≠ [] :=
      List.append_ne_nil_of_left_ne_nil hi.ne_nil _
    rw [hwrite, takeWithin_of_allows hdepth, hwhole hc, hprint]
    simp [take, setLine, hne, Except.mapError]

end Writing

namespace Converter

section Lines

variable [Memory] {converter : Converter} {line other : Text}

/-- Lines that are read alike and are indented as far are converted alike. -/
theorem contentLine_congr (hread : readLine converter.progress.mode line = readLine converter.progress.mode other)
    (hc : line.columns = other.columns) (hb : Text.allBlank line = Text.allBlank other) :
    converter.contentLine line = converter.contentLine other := by
  have hwrite : Converter.write line = Converter.write other := by
    funext tokens converter
    simp only [Converter.write, Progress.write, Progress.settleLists_congr hc hb]
  simp only [contentLine, headLine, bodyLine, read, hread, hwrite]

/-- A line that is not empty and no command is written, wherever it is read. -/
theorem contentLine_of_read {mode : Mode} {t : Token} {tokens : List Token}
    (hread : readLine converter.progress.mode line = (mode, .ok (t :: tokens)))
    (ht : ∀ assignment, t ≠ .command assignment) :
    converter.contentLine line = (((converter.withMode mode).write line (t :: tokens)).1,
      ((converter.withMode mode).write line (t :: tokens)).2.map some) := by
  have hfound := read_of_readLine hread
  unfold contentLine
  split
  · exact headLine_eq_write hfound ht
  · simp only [bodyLine, hfound]

end Lines

/-! ## Steps -/

/-- Two ways to convert a line that end alike: they leave the same converter, and they fail alike or write the same, but
for the spaces and tabs that the text starts with. Nothing at all tells them apart if a list is open behind the line, or
if the text is that of a list item. -/
structure SameLine (first second : Converter × Except Failure (Option WrittenLine)) : Prop where
  converter : second.1 = first.1
  written : second.2.map (Option.map WrittenLine.trimIndent) = first.2.map (Option.map WrittenLine.trimIndent)
  list : first.1.progress.outline.levels ≠ [] → second.2 = first.2
  item : ∀ written, first.2 = .ok (some written) → "\\item".toList <+: written.text → second.2 = first.2

theorem SameLine.refl (step : Converter × Except Failure (Option WrittenLine)) : SameLine step step :=
  ⟨rfl, rfl, fun _ => rfl, fun _ _ _ => rfl⟩

/-- What begins with text is nothing but inline text, and ends the head. -/
theorem eq_of_text_cons {mode mode' : Mode} {content : Text} {tokens : List Token}
    (h : LineReading mode mode' (.text content :: tokens)) :
    mode' = mode.endHead ∧ ∀ t ∈ tokens, t.isInline = true := by
  cases h with
  | body hb =>
    cases hb with
    | inline _ ht => exact ⟨rfl, fun t hmem => ht t (List.mem_cons_of_mem _ hmem)⟩

section

variable [Memory]

/-- A line is converted alike behind all indentations that reach the same column. -/
theorem Sound.sameLine_indents {converter : Converter} (hs : converter.Sound) {column : Nat} {s first second : Text}
    (hf : Text.Indents column s first) (hi : Text.Indents column s second) :
    SameLine (converter.contentLine (first ++ s)) (converter.contentLine (second ++ s)) := by
  have hcolumns : (second ++ s).columns = (first ++ s).columns := hi.columns.trans hf.columns.symm
  have hblank : Text.allBlank (second ++ s) = Text.allBlank (first ++ s) := by
    rw [hi.allBlank_append, hf.allBlank_append]
  rcases exists_readLine_indent converter.progress.mode column s with ⟨result, hread⟩ | ⟨mode, rest, tokens, hread⟩
  · rw [contentLine_congr ((hread second hi).trans (hread first hf).symm) hcolumns hblank]
    exact .refl _
  · have hcommand : ∀ (indent : Text) (assignment : Text), Token.text (indent ++ rest) ≠ .command assignment :=
      fun _ _ h => by cases h
    obtain ⟨mode', tokens', hr, hshape⟩ := readLine_cases hs.coherent.closable (first ++ s)
    rw [hread first hf] at hr
    cases hr
    obtain ⟨rfl, ht⟩ := eq_of_text_cons hshape
    have hended : converter.withMode converter.progress.mode.endHead = converter.endHead := rfl
    have hblock : converter.endHead.progress.mode.inBlock = true → converter.endHead.progress.outline.levels = [] :=
      fun hb => hs.endHead.coherent.block (by rwa [Mode.inBlock, Bool.or_eq_true] at hb)
    rw [contentLine_of_read (hread first hf) (hcommand first), contentLine_of_read (hread second hi) (hcommand second),
      hended, Converter.write, Converter.write]
    rcases Progress.write_indent hs.endHead.outermost hblock ht rest with
      ⟨result, hwrite⟩ | ⟨next, written, hlevels, hwrite⟩
    · rw [hwrite first hf, hwrite second hi]
      exact .refl _
    · rw [hwrite first hf, hwrite second hi]
      refine ⟨rfl, ?_, fun hlist => absurd hlevels hlist, fun line hline hprefix => ?_⟩
      · simp only [Except.map, Option.map_some, WrittenLine.trimIndent, hf.trimIndent_append, hi.trimIndent_append]
      · cases hline
        obtain ⟨c, tail, rfl, hc⟩ := hf.exists_cons
        obtain ⟨rfl, -⟩ := List.cons_prefix_cons.1 hprefix
        rcases hc with hc | hc <;> cases hc

/-- **A tab is what the spaces up to the next tab stop are**: a line is converted alike with these. -/
theorem Sound.sameLine_expandIndent {converter : Converter} (hs : converter.Sound) (line : Text) :
    SameLine (converter.contentLine line) (converter.contentLine line.expandIndent) := by
  rcases Text.expandIndent_cases line with hsame | ⟨rest, first, second, hline, hexpanded, hf, hi⟩
  · rw [hsame]
    exact .refl _
  · have hboth := hs.sameLine_indents hf hi
    rwa [← hline, ← hexpanded] at hboth

/-! ## Runs -/

/-- What comes of each of a list of lines without line ends, with the converter that it leaves. -/
def runLines : List Text → Converter → List (Converter × Except Failure (Option WrittenLine))
  | [], _ => []
  | line :: lines, converter => converter.contentLine line :: runLines lines (converter.contentLine line).1

/-- The text of a line that was converted. -/
def printStep (step : Converter × Except Failure (Option WrittenLine)) :
    Converter × Except Failure (Option Text) :=
  (step.1, step.2.map fun written? => some (step.1.printLine [] written?))

theorem run_lines (converter : Converter) {lines : List Text} (h : ∀ line ∈ lines, '\n' ∉ line) :
    converter.run (lines.map .line) = (converter.runLines lines).map printStep := by
  induction lines generalizing converter with
  | nil => rfl
  | cons line lines ih =>
    obtain ⟨hline, hlines⟩ := List.forall_mem_cons.1 h
    have hstep : converter.obey (.line line) = printStep (converter.contentLine line) := by
      rw [obey_line, splitTerminator_of_not_mem hline, printStep]
    rw [List.map_cons, run, hstep, runLines, List.map_cons, ← ih _ hlines]
    rfl

/-- The states of the two runs are the same, so that each line is converted by the same converter. -/
theorem Sound.sameLines {converter : Converter} (hs : converter.Sound) (lines : List Text) :
    List.Forall₂ SameLine (converter.runLines lines) (converter.runLines (lines.map Text.expandIndent)) := by
  induction lines generalizing converter with
  | nil => exact .nil
  | cons line lines ih =>
    have hline := hs.sameLine_expandIndent line
    rw [List.map_cons, runLines, runLines, hline.converter]
    exact .cons hline (ih ((lineStep_contentLine hs.coherent line).sound hs))

/-- **Tabs are equivalent to the spaces that they stand for.** Lines and the same lines with spaces in the place of the
tabs that they are indented by lead a converter through the same states, with the same front matter, modes and lists.
Each line is written behind the same tags or fails alike, and its text is the same but for the spaces and tabs that it
starts with; these are the same too in a list and in front of the text of an item. -/
theorem sameLines_expandIndent {settings : Settings} {converter : Converter} (hr : Reachable settings converter)
    {lines : List Text} (hl : ∀ line ∈ lines, '\n' ∉ line) :
    converter.run (lines.map .line) = (converter.runLines lines).map printStep ∧
      converter.run ((lines.map Text.expandIndent).map .line) =
        (converter.runLines (lines.map Text.expandIndent)).map printStep ∧
      List.Forall₂ SameLine (converter.runLines lines) (converter.runLines (lines.map Text.expandIndent)) := by
  refine ⟨run_lines converter hl, run_lines converter ?_, hr.sound.sameLines lines⟩
  exact List.forall_mem_map.2 fun line hmem => Text.not_mem_expandIndent (hl line hmem)

end

/-- Tabs in front of a line that ends the head, of a list item, of a line that continues it, and of a fence and a line
in its block. -/
theorem sameLines_expandIndent_lists :
    let lines := ["$title: T".toList, " \t$x: y".toList, "* a".toList, "\t1. b".toList, "  \tc".toList,
      "\t```".toList, " \t * d".toList]
    let spaced := ["$title: T".toList, "    $x: y".toList, "* a".toList, "    1. b".toList, "    c".toList,
      "    ```".toList, "     * d".toList]
    let texts := ["\\begin\x7bitemize\x7d\n  \\item a".toList,
      "  \\begin\x7benumerate\x7d\n    \\begin\x7benumerate\x7d\n      \\item b".toList,
      "    \\end\x7benumerate\x7d\n    c".toList,
      "  \\end\x7benumerate\x7d\n\\end\x7bitemize\x7d\n\\begin\x7bverbatim\x7d".toList]
    let settings := { Settings.default with indentWidth := 2 }
    Reachable settings (.new settings) ∧ (∀ line ∈ lines, '\n' ∉ line) ∧ lines.map Text.expandIndent = spaced ∧
      List.Forall₂ SameLine ((new settings).runLines lines) ((new settings).runLines spaced) ∧
      ((new settings).run (lines.map .line)).map (fun step => printed step.2) =
        [] :: " \t$x: y".toList :: (texts ++ [" \t * d".toList]) ∧
      ((new settings).run (spaced.map .line)).map (fun step => printed step.2) =
        [] :: "    $x: y".toList :: (texts ++ ["     * d".toList]) := by
  intro lines spaced texts settings
  have hspaced : lines.map Text.expandIndent = spaced := by decide
  have hlines : ∀ line ∈ lines, '\n' ∉ line := by decide
  obtain ⟨-, -, hsame⟩ := sameLines_expandIndent (@Reachable.new _ settings) hlines
  rw [hspaced] at hsame
  exact ⟨.new, hlines, hspaced, hsame, by decide +kernel, by decide +kernel⟩

end Converter

end Lectern
