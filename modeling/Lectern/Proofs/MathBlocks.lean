import Lectern.Proofs.MathText
import Lectern.Proofs.VerbatimBlocks
import Mathlib.Data.List.Forall2

/-!
# Math blocks

A math delimiter stands alone on its line, with any blanks around it (`mathDelimiter?_eq_some_iff`), and no rule before
its own finds anything in such a line (`readLine_delimiter`). It closes the block that it belongs to, and every other
line of the block that is no fence is read as a heading or as text and glyphs (**`MathReading`**): list markers, spans
and the other delimiters are ordinary text there. So a converter stays in the block, without lists, up to the line that
closes it (**`math_block`**), and glyphs become bare control words.
-/

set_option autoImplicit false

namespace Lectern

/-! ## Delimiters -/

section Delimiters

variable {mode : Mode} {s tail line delimiter closer : Text}

theorem Text.trimEnd_append (ht : allBlank tail = true) : trimEnd (s ++ tail) = trimEnd s := by
  have hall : ∀ c ∈ tail.reverse, isBlank c = true := fun c hc => List.all_eq_true.1 ht c (List.mem_reverse.1 hc)
  rw [trimEnd, List.reverse_append, List.dropWhile_append_of_pos hall, trimEnd]

/-- Blanks behind a text are trimmed away. -/
theorem Text.trim_append (ht : allBlank tail = true) : trim (s ++ tail) = trim s := by
  rw [trim, trim, trimStart, List.dropWhile_append]
  split
  · next hs =>
    rw [← trimStart, trimStart_of_allBlank ht, trimStart, List.isEmpty_iff.1 hs]
  · exact trimEnd_append ht

/-- A line is its content and its line end. -/
theorem splitTerminator_append (line : Text) : (splitTerminator line).1 ++ (splitTerminator line).2 = line ∧
    Text.allBlank (splitTerminator line).2 = true := by
  unfold splitTerminator
  split
  · next content h => exact ⟨(Text.before?_eq_some.1 h).symm, rfl⟩
  · split
    · next content h => exact ⟨(Text.before?_eq_some.1 h).symm, rfl⟩
    · exact ⟨List.append_nil line, rfl⟩

theorem trim_splitTerminator (line : Text) : Text.trim (splitTerminator line).1 = Text.trim line := by
  obtain ⟨hline, hblank⟩ := splitTerminator_append line
  rw [← Text.trim_append hblank, hline]

/-- A delimiter is found where nothing but blanks stands around it. -/
theorem mathDelimiter?_eq_some_iff :
    mathDelimiter? s = some delimiter ↔
      delimiter ∈ ["$$".toList, "\\[".toList, "\\]".toList] ∧ Text.trim s = delimiter := by
  constructor
  · intro h
    exact ⟨(prefix_of_mathDelimiter? h).1, by simpa using List.find?_some h⟩
  · rintro ⟨hmem, htrim⟩
    rw [mathDelimiter?, htrim]
    simp only [List.mem_cons, List.not_mem_nil, or_false] at hmem
    rcases hmem with rfl | rfl | rfl <;> decide

/-- What opens a block and what closes it are delimiters. -/
theorem mem_of_mathCloser? (h : mathCloser? delimiter = some closer) :
    delimiter ∈ ["$$".toList, "\\[".toList, "\\]".toList] ∧ closer ∈ ["$$".toList, "\\[".toList, "\\]".toList] := by
  rcases eq_of_mathCloser?_isSome (Option.isSome_of_eq_some h) with rfl | rfl
  · cases h
    decide
  · cases h
    decide

theorem ne_nil_of_mathCloser? (h : mathCloser? delimiter = some closer) : delimiter ≠ [] := by
  rintro rfl
  cases h

/-- The first character of a text is blank, or its first one that is not. -/
theorem head_of_trimStart {c d : Char} (h : Text.trimStart (c :: s) = d :: tail) : Text.isBlank c = true ∨ c = d := by
  cases hb : Text.isBlank c with
  | true => exact .inl rfl
  | false =>
    rw [trimStart_cons hb] at h
    exact .inr (List.cons.inj h).1

/-- A line with a delimiter begins like no fence and no heading. -/
theorem starts_of_mathDelimiter? (h : mathDelimiter? s = some delimiter) :
    isFence s = false ∧ heading? s = none ∧ escapedHeading? s = none := by
  obtain ⟨hmem, rest, hrest⟩ := prefix_of_mathDelimiter? h
  obtain ⟨c, tail, htrim, hc⟩ : ∃ c tail, Text.trimStart s = c :: tail ∧
      (c = '$' ∨ c = '\\' ∧ tail.head? ≠ some '#') := by
    rw [← hrest]
    simp only [List.mem_cons, List.not_mem_nil, or_false] at hmem
    rcases hmem with rfl | rfl | rfl
    · exact ⟨'$', '$' :: rest, rfl, .inl rfl⟩
    · exact ⟨'\\', '[' :: rest, rfl, .inr ⟨rfl, by simp⟩⟩
    · exact ⟨'\\', ']' :: rest, rfl, .inr ⟨rfl, by simp⟩⟩
  have hblank : Text.isBlank c = false := by rcases hc with rfl | ⟨rfl, -⟩ <;> decide
  refine ⟨?_, ?_, ?_⟩
  · cases hf : isFence s with
    | false => rfl
    | true =>
      obtain ⟨rest', hrest'⟩ := exists_trimStart_of_isFence hf
      rw [htrim] at hrest'
      obtain ⟨rfl, -⟩ := List.cons.inj hrest'
      rcases hc with hc | ⟨hc, -⟩ <;> cases hc
  · cases s with
    | nil => rfl
    | cons d s =>
      refine heading?_cons ?_
      rintro rfl
      rcases head_of_trimStart htrim with hd | rfl
      · cases hd
      · rcases hc with hc | ⟨hc, -⟩ <;> cases hc
  · unfold escapedHeading?
    split
    · next s =>
      rw [trimStart_cons (by decide)] at htrim
      obtain ⟨rfl, rfl⟩ := List.cons.inj htrim
      rcases hc with hc | ⟨-, hc⟩
      · cases hc
      · exact absurd rfl hc
    · rfl

/-- A delimiter opens a math block outside of blocks, and the one that belongs to it closes it. -/
theorem readLine_delimiter (hh : mode.head = false) (hv : mode.verbatim = false)
    (hd : mathDelimiter? line = some delimiter)
    (hm : mode.math = false ∧ (mathCloser? delimiter).isSome ∨
      mode.math = true ∧ mathCloser? mode.delimiter = some delimiter) :
    readLine mode line = (mode.toggleMath delimiter, .ok [.delimiter delimiter]) := by
  obtain ⟨hfence, hheading, hescaped⟩ := starts_of_mathDelimiter? hd
  have hne : line ≠ [] := by
    rintro rfl
    cases hd
  have hhead : LineRule.readHeadLine mode line = (mode, Token.rawIfAny line) := by
    simp [LineRule.readHeadLine, hh]
  have hleaves : LineRule.heading.read mode line = (mode, .ok (Token.rawIfAny line)) := by
    simp [LineRule.read, LineRule.readHeading, hv, hheading, hescaped]
  have hnone : LineRule.fence.read mode line = (mode, .ok (Token.rawIfAny line)) := by
    simp [LineRule.read, LineRule.readFence, hfence, hv]
  have hmath : LineRule.mathBlock.read mode line = (mode.toggleMath delimiter, .ok [.delimiter delimiter]) := by
    rcases hm with ⟨hm, ho⟩ | ⟨hm, hc⟩
    · simp [LineRule.read, LineRule.readMathBlock, hv, hd, hm, ho]
    · simp [LineRule.read, LineRule.readMathBlock, hv, hd, hm, hc]
  have hstart : readStart mode LineRule.behindHead (Token.rawIfAny line) =
      (mode.toggleMath delimiter, .ok [.delimiter delimiter]) := by
    rw [LineRule.behindHead, readStart_of_leaves hleaves hne, readStart_of_leaves hnone hne]
    exact readStart_of_finds hmath (fun _ h => by cases h) hne
  rw [readLine_of_headLine hhead hstart, settle_cons (fun _ h => by cases h), settle]

end Delimiters

/-! ## Other lines -/

/-- What a line of a math block is read as, with the fragments that its tokens become. -/
inductive MathReading : List Token → List Fragment → Prop
  | heading (level : Nat) (title : Text) : MathReading [.heading level title] [.heading level title]
  /-- Text and glyphs; these become bare control words. -/
  | glyphs (tokens : List Token) : (∀ t ∈ tokens, t.isMath = true) → MathReading tokens (tokens.map Token.inMath)

section Within

variable {mode : Mode} {s line closer : Text}

theorem isMath_of_mem_readInline (hv : mode.verbatim = false) (hm : mode.math = true) :
    ∀ t ∈ readInline mode s, t.isMath = true := by
  rw [readInline_eq_blockTokens hm hv]
  exact isMath_of_mem_blockTokens s

theorem mathReading_text_cons {content : Text} (hc : content ≠ []) (hv : mode.verbatim = false)
    (hm : mode.math = true) :
    ∃ fragments, MathReading (.text content :: readInline mode s) fragments :=
  ⟨_, .glyphs _ (List.forall_mem_cons.2 ⟨by simpa [Token.isMath] using hc, isMath_of_mem_readInline hv hm⟩)⟩

/-- Where there is no rule, a text stays as it is. -/
theorem readStart_no_rule (tokens : List Token) : readStart mode [] tokens = (mode, .ok tokens) := by
  cases tokens <;> simp [readStart]

/-- Neither the rule for math blocks nor those for list markers find anything in a line that closes no block. -/
theorem readStart_within_math (hv : mode.verbatim = false) (hm : mode.math = true)
    (hc : mathCloser? mode.delimiter = some closer) (hf : isFence line = false) (ht : Text.trim line ≠ closer)
    (hne : line ≠ []) :
    readStart mode [.fence, .mathBlock, .listMarker .itemize, .listMarker .enumerate] (Token.rawIfAny line) =
      (mode, .ok (Token.rawIfAny line)) := by
  have hfence : LineRule.fence.read mode line = (mode, .ok (Token.rawIfAny line)) := by
    simp [LineRule.read, LineRule.readFence, hf, hv]
  have hmath : LineRule.mathBlock.read mode line = (mode, .ok (Token.rawIfAny line)) := by
    cases hd : mathDelimiter? line with
    | none => simp [LineRule.read, LineRule.readMathBlock, hd]
    | some delimiter =>
      have hother : delimiter ≠ closer := (mathDelimiter?_eq_some_iff.1 hd).2 ▸ ht
      simp [LineRule.read, LineRule.readMathBlock, hv, hd, hm, hc, hother]
  have hblock : mode.inBlock = true := by simp [Mode.inBlock, hm]
  have hmarker : ∀ kind, (LineRule.listMarker kind).read mode line = (mode, .ok (Token.rawIfAny line)) := fun kind => by
    simp [LineRule.read, LineRule.readListMarker, hblock]
  rw [readStart_of_leaves hfence hne, readStart_of_leaves hmath hne, readStart_of_leaves (hmarker _) hne,
    readStart_of_leaves (hmarker _) hne, readStart_no_rule]

/-- In a math block every line but a fence and the one that closes it is a heading, or text and glyphs. -/
theorem readLine_within_math (hh : mode.head = false) (hv : mode.verbatim = false) (hm : mode.math = true)
    (hc : mathCloser? mode.delimiter = some closer) (hf : isFence line = false) (ht : Text.trim line ≠ closer) :
    ∃ tokens fragments, readLine mode line = (mode, .ok tokens) ∧ MathReading tokens fragments := by
  have hhead : LineRule.readHeadLine mode line = (mode, Token.rawIfAny line) := by
    simp [LineRule.readHeadLine, hh]
  by_cases hne : line = []
  · subst hne
    refine ⟨[], [], ?_, .glyphs [] fun _ h => by cases h⟩
    rw [readLine_of_headLine hhead readStart_nil, settle]
  · cases hheading : heading? line with
    | some found =>
      have hread : LineRule.heading.read mode line = (mode, .ok [.heading found.1 found.2]) := by
        simp [LineRule.read, LineRule.readHeading, hv, hheading]
      refine ⟨_, _, ?_, .heading found.1 found.2⟩
      rw [readLine_of_headLine hhead (readStart_of_finds hread (fun _ h => by cases h) hne),
        settle_cons (fun _ h => by cases h), settle]
    | none =>
      cases hescaped : escapedHeading? line with
      | some found =>
        have hread : LineRule.heading.read mode line = (mode, .ok (.text found.1 :: Token.rawIfAny found.2)) := by
          simp [LineRule.read, LineRule.readHeading, hv, hheading, hescaped]
        have hhashes : found.1 ≠ [] := by
          unfold escapedHeading? at hescaped
          split at hescaped
          · cases hescaped
            exact List.cons_ne_nil _ _
          · cases hescaped
        obtain ⟨fragments, hreading⟩ := mathReading_text_cons (s := found.2) hhashes hv hm
        refine ⟨_, fragments, ?_, hreading⟩
        rw [readLine_of_headLine hhead (readStart_of_finds hread (fun _ h => by cases h) hne),
          settle_cons (fun _ h => by cases h)]
        rfl
      | none =>
        have hread : LineRule.heading.read mode line = (mode, .ok (Token.rawIfAny line)) := by
          simp [LineRule.read, LineRule.readHeading, hv, hheading, hescaped]
        have hstart : readStart mode LineRule.behindHead (Token.rawIfAny line) = (mode, .ok (Token.rawIfAny line)) := by
          rw [LineRule.behindHead, readStart_of_leaves hread hne]
          exact readStart_within_math hv hm hc hf ht hne
        refine ⟨_, _, readLine_of_headLine hhead hstart, .glyphs _ ?_⟩
        exact isMath_of_mem_readInline hv hm

/-- In a math block the tokens of a line become their fragments, and nothing else happens. -/
theorem MathReading.renderAll [Memory] {tokens : List Token} {fragments : List Fragment}
    (h : MathReading tokens fragments) {progress : Progress} (hm : progress.mode.math = true)
    (indentation : Indentation) :
    progress.renderAll indentation tokens = (progress, .ok fragments) := by
  cases h with
  | heading level title => rfl
  | glyphs tokens ht => exact Progress.renderAll_of_isMath hm indentation ht

end Within

namespace Converter

/-! ## One line -/

section OneLine

variable [Memory] {converter : Converter} {source delimiter closer : Text}

/-- A delimiter that opens a math block, or closes the open one, closes all lists. -/
theorem Sound.obey_delimiter (hs : converter.Sound) (hh : converter.progress.mode.head = false)
    (hv : converter.progress.mode.verbatim = false)
    (hmem : delimiter ∈ ["$$".toList, "\\[".toList, "\\]".toList]) (ht : Text.trim source = delimiter)
    (hm : converter.progress.mode.math = false ∧ (mathCloser? delimiter).isSome ∨
      converter.progress.mode.math = true ∧ mathCloser? converter.progress.mode.delimiter = some delimiter) :
    converter.obey (.line source) =
      ({ converter with progress := ⟨converter.progress.mode.toggleMath delimiter, .empty, []⟩ },
        .ok (some ((converter.progress.outline.pending ++ closingTags converter.progress.outline.levels).flatMap
          (TagLine.print converter.indentation.width) ++ delimiter ++ (splitTerminator source).2))) := by
  have hd : mathDelimiter? (splitTerminator source).1 = some delimiter :=
    mathDelimiter?_eq_some_iff.2 ⟨hmem, by rw [trim_splitTerminator, ht]⟩
  have hread := readLine_delimiter hh hv hd hm
  obtain ⟨fragment, hfragment, hwrite⟩ := Progress.write_blockTag
    (converter.withMode (converter.progress.mode.toggleMath delimiter)).progress
    (t := .delimiter delimiter) rfl hs.outermost (splitTerminator source).1
  cases hfragment
  rw [obey_line_of_read hh hread hwrite, print_outermost, Outline.pending_closeTo_zero]
  rfl

/-- The delimiter that belongs to the open math block closes it. -/
theorem Sound.obey_closer (hs : converter.Sound) (hv : converter.progress.mode.verbatim = false)
    (hm : converter.progress.mode.math = true) (hc : mathCloser? converter.progress.mode.delimiter = some closer)
    (ht : Text.trim source = closer) :
    converter.obey (.line source) =
      ({ converter with progress := ⟨{ converter.progress.mode with delimiter := [] }, .empty, []⟩ },
        .ok (some (closer ++ (splitTerminator source).2))) := by
  have hh := hs.coherent.head_of_block (.inr hm)
  have hlevels := hs.coherent.block (.inr hm)
  rw [hs.obey_delimiter hh hv (mem_of_mathCloser? hc).2 ht (.inr ⟨hm, hc⟩), Mode.toggleMath_of_math hm, hlevels,
    (hs.coherent.outside hlevels).1]
  rfl

/-- What comes of a line in a math block: the converter stays as it is, and the line is written as what it is read
as. -/
structure MathLine (inside : Converter) (line : Text) (step : Converter × Except Failure (Option Text)) : Prop where
  stays : step.1 = inside
  written : ∃ tokens fragments, readLine inside.progress.mode line = (inside.progress.mode, .ok tokens) ∧
    MathReading tokens fragments ∧ step.2 = .ok (some (Fragment.printAll fragments))

theorem Sound.mathLine (hs : converter.Sound) (hv : converter.progress.mode.verbatim = false)
    (hm : converter.progress.mode.math = true) (hc : mathCloser? converter.progress.mode.delimiter = some closer)
    (hn : '\n' ∉ source) (hf : isFence source = false) (ht : Text.trim source ≠ closer) :
    MathLine converter source (converter.obey (.line source)) := by
  have hh := hs.coherent.head_of_block (.inr hm)
  obtain ⟨tokens, fragments, hread, hreading⟩ := readLine_within_math hh hv hm hc hf ht
  have hsplit := splitTerminator_of_not_mem hn
  have hlevels := hs.coherent.block (.inr hm)
  obtain ⟨hpending, hline⟩ := hs.coherent.outside hlevels
  obtain ⟨depth?, hdepth, hwrite⟩ := Progress.write_outermost hs.outermost hlevels hpending hline source
    (hreading.renderAll hm converter.indentation)
  have hread' : readLine converter.progress.mode (splitTerminator source).1 =
      (converter.progress.mode, .ok tokens) := by
    rw [hsplit, hread]
  rw [obey_line_of_read hh hread' (by rw [hsplit]; exact hwrite), print_of_depth_zero hdepth, hsplit]
  exact ⟨rfl, tokens, fragments, hread, hreading, by simp⟩

end OneLine

/-! ## Runs -/

/-- In a math block all lines are read alike up to the one that closes it. -/
theorem Sound.mathLines [Memory] {converter : Converter} (hs : converter.Sound)
    (hv : converter.progress.mode.verbatim = false) (hm : converter.progress.mode.math = true) {closer : Text}
    (hc : mathCloser? converter.progress.mode.delimiter = some closer) {lines : List Text}
    (hlines : ∀ line ∈ lines, '\n' ∉ line ∧ isFence line = false ∧ Text.trim line ≠ closer) :
    List.Forall₂ (MathLine converter) lines (converter.run (lines.map .line)) ∧
      converter.after (lines.map .line) = converter := by
  induction lines with
  | nil => exact ⟨.nil, rfl⟩
  | cons line lines ih =>
    obtain ⟨⟨hn, hf, ht⟩, htail⟩ := List.forall_mem_cons.1 hlines
    obtain ⟨hrun, hafter⟩ := ih htail
    have hline := hs.mathLine hv hm hc hn hf ht
    rw [List.map_cons, run, Converter.after, hline.stays]
    exact ⟨.cons hline hrun, hafter⟩

/-! ## Blocks -/

/-- **A math block stays open until its own closing delimiter**, and nothing of the notes around it is found in it.
Behind the head and outside of blocks, a line with a delimiter closes all lists and opens a block. No fence and no line
with the delimiter that belongs to it among them, the lines that follow leave the converter in that block without lists;
a line is read as a heading or as text and glyphs, glyphs are written as bare control words, and no tags are written.
The delimiter that belongs to the first one closes the block, and then the converter is as it was before, but no list is
open. -/
theorem math_block [Memory] {settings : Settings} {converter : Converter} (hr : Reachable settings converter)
    (hh : converter.progress.mode.head = false) (hb : converter.progress.mode.inBlock = false)
    {delimiter closer : Text} (hd : mathCloser? delimiter = some closer) {first last : Text} {lines : List Text}
    (hfirst : Text.trim first = delimiter)
    (hlines : ∀ line ∈ lines, '\n' ∉ line ∧ isFence line = false ∧ Text.trim line ≠ closer)
    (hlast : Text.trim last = closer) :
    let outside : Converter := { converter with progress := ⟨converter.progress.mode, .empty, []⟩ }
    let inside : Converter := { converter with progress := ⟨{ converter.progress.mode with delimiter }, .empty, []⟩ }
    ∃ steps, List.Forall₂ (MathLine inside) lines steps ∧
      converter.run (.line first :: (lines.map .line ++ [.line last])) =
        (inside, .ok (some ((converter.progress.outline.pending ++
          closingTags converter.progress.outline.levels).flatMap (TagLine.print converter.indentation.width) ++
          delimiter ++ (splitTerminator first).2))) ::
        (steps ++ [(outside, .ok (some (closer ++ (splitTerminator last).2)))]) := by
  intro outside inside
  obtain ⟨hv, hm⟩ := Mode.inBlock_eq_false.1 hb
  have hopen := hr.sound.obey_delimiter hh hv (mem_of_mathCloser? hd).1 hfirst
    (.inl ⟨hm, Option.isSome_of_eq_some hd⟩)
  rw [Mode.toggleMath_of_outside hm] at hopen
  have hsound : inside.Sound := by
    have := hr.sound.obey (.line first)
    rwa [hopen] at this
  have hmath : inside.progress.mode.math = true := by
    show (delimiter != []) = true
    simpa using ne_nil_of_mathCloser? hd
  obtain ⟨hrun, hafter⟩ := hsound.mathLines hv hmath hd hlines
  have hclose := hsound.obey_closer hv hmath hd hlast
  have hback : { inside with progress := ⟨{ inside.progress.mode with delimiter := [] }, .empty, []⟩ } = outside := by
    have hnone : { converter.progress.mode with delimiter := [] } = converter.progress.mode := by
      have hdelimiter : converter.progress.mode.delimiter = [] := by simpa [Mode.math] using hm
      rw [← hdelimiter]
    exact congrArg (fun mode => { converter with progress := ⟨mode, .empty, []⟩ }) hnone
  rw [hback] at hclose
  refine ⟨inside.run (lines.map .line), hrun, ?_⟩
  rw [run, hopen, run_append, hafter, run, hclose]
  rfl

/-- Two lists are open in front of the block, and in it stands what is markup elsewhere. -/
theorem math_block_markup :
    let converter := (((Converter.new Settings.default).endHead.obey (.line "* a".toList)).1.obey
      (.line "  1. b".toList)).1
    let lines := ["* c -> d".toList, "$$".toList, "1. *e* >=f |g|\r".toList, "# h".toList, "$i: j".toList, [],
      "\\# <=> \\] k".toList]
    Reachable Settings.default converter ∧ converter.progress.outline.levels = [.enumerate, .itemize] ∧
      ∃ steps, List.Forall₂ (MathLine { converter with progress := ⟨⟨false, false, "\\[".toList⟩, .empty, []⟩ }) lines
          steps ∧
        converter.run (.line " \\[\t\n".toList :: (lines.map .line ++ [.line "\\]\r\n".toList])) =
          ({ converter with progress := ⟨⟨false, false, "\\[".toList⟩, .empty, []⟩ },
            .ok (some "    \\end\x7benumerate\x7d\n\\end\x7bitemize\x7d\n\\[\n".toList)) ::
          (steps ++ [({ converter with progress := ⟨⟨false, false, []⟩, .empty, []⟩ },
            .ok (some "\\]\r\n".toList))]) ∧
        steps.map Prod.snd = ["* c \\rightarrow d".toList, "$$".toList, "1. *e* \\geq f |g|".toList,
          "\\section*\x7bh\x7d".toList, "$i: j".toList, [], "# \\Leftrightarrow \\] k".toList].map
            fun text => .ok (some text) := by
  intro converter lines
  have hreach : Reachable Settings.default converter := .obey _ (.obey _ (.endHead .new))
  have hlevels : converter.progress.outline.levels = [.enumerate, .itemize] := by decide +kernel
  have hpending : converter.progress.outline.pending = [] := by decide +kernel
  have hmode : converter.progress.mode = ⟨false, false, []⟩ := by decide +kernel
  have hindentation : converter.indentation = .spaces 4 := by decide +kernel
  have hfirst : Text.trim " \\[\t\n".toList = "\\[".toList := by decide +kernel
  have hlast : Text.trim "\\]\r\n".toList = "\\]".toList := by decide +kernel
  obtain ⟨steps, hsteps, hrun⟩ := math_block hreach (by rw [hmode]) (by rw [hmode]; rfl)
    (show mathCloser? "\\[".toList = some "\\]".toList from rfl) hfirst
    (show ∀ line ∈ lines, _ by decide +kernel) hlast
  have hopening : ([] ++ closingTags [.enumerate, .itemize]).flatMap (TagLine.print (Indentation.spaces 4).width) ++
      "\\[".toList ++ (splitTerminator " \\[\t\n".toList).2 =
        "    \\end\x7benumerate\x7d\n\\end\x7bitemize\x7d\n\\[\n".toList := by
    decide +kernel
  have hclosing : "\\]".toList ++ (splitTerminator "\\]\r\n".toList).2 = "\\]\r\n".toList := by decide +kernel
  rw [hmode] at hsteps
  rw [hmode, hlevels, hpending, hindentation, hopening, hclosing, ← hindentation] at hrun
  refine ⟨hreach, hlevels, steps, hsteps, hrun, ?_⟩
  have hall : (converter.run (.line " \\[\t\n".toList :: (lines.map .line ++ [.line "\\]\r\n".toList]))).map Prod.snd =
      .ok (some "    \\end\x7benumerate\x7d\n\\end\x7bitemize\x7d\n\\[\n".toList) ::
        (["* c \\rightarrow d".toList, "$$".toList, "1. *e* \\geq f |g|".toList,
          "\\section*\x7bh\x7d".toList, "$i: j".toList, [], "# \\Leftrightarrow \\] k".toList].map
            (fun text => .ok (some text)) ++ [.ok (some "\\]\r\n".toList)]) := by
    decide +kernel
  rw [hrun, List.map_cons, List.map_append] at hall
  exact List.append_cancel_right (List.cons.inj hall).2

end Converter

end Lectern
