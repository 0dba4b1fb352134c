import Lectern.Proofs.EscapedLines
import Lectern.Proofs.Passages

/-!
# Verbatim blocks

A fence is a fence wherever it stands: no rule before its own finds anything in it (`readLine_fence`), and no other line
opens or closes a verbatim block (`verbatim_readLine`). Within a block a line is read as the text that it is
(`readLine_within`). So a converter copies a block (**`verbatim_block`**): the opening fence closes all lists, the lines
up to the next fence are written character for character, and behind it the converter is where it was but for the lists.
Whether a block is open is known by the number of fences.

Tags that are still pending because a line could not be written come out in front of the tags that close the lists
(`pending_closeTo_zero`).
-/

set_option autoImplicit false

namespace Lectern

/-! ## Fences -/

section Fences

variable {mode : Mode} {s line : Text}

theorem exists_trimStart_of_isFence (h : isFence s = true) : ∃ rest, Text.trimStart s = '`' :: rest := by
  unfold isFence at h
  split at h
  · cases h
  · next rest hafter => exact ⟨_, Text.after?_eq_some.1 hafter⟩

/-- A fence starts with a blank or a backtick. -/
theorem head_ne_of_isFence {c d : Char} (h : isFence (c :: s) = true) (hb : Text.isBlank d = false) (hd : d ≠ '`') :
    c ≠ d := by
  rintro rfl
  rw [isFence_cons hb hd] at h
  cases h

/-- In the head, a fence is nothing that belongs there. -/
theorem read?_of_isFence (h : isFence s = true) : HeadLine.read? s = none := by
  obtain ⟨rest, hrest⟩ := exists_trimStart_of_isFence h
  cases s with
  | nil => cases hrest
  | cons c s =>
    have hcommand : HeadLine.command? (c :: s) = none := by
      unfold HeadLine.command?
      split
      · next he => exact absurd (List.cons.inj he).1 (head_ne_of_isFence h (by decide) (by decide))
      · rfl
    have hescaped : HeadLine.escaped? (c :: s) = none := by
      unfold HeadLine.escaped?
      split
      · next he => exact absurd (List.cons.inj he).1 (head_ne_of_isFence h (by decide) (by decide))
      · rfl
    have hdivider : HeadLine.isDivider (c :: s) = false := by
      rw [HeadLine.isDivider, hrest]
      rfl
    have hblank : Text.allBlank (c :: s) = false := by
      rw [← Bool.not_eq_true]
      intro hall
      rw [trimStart_of_allBlank hall] at hrest
      cases hrest
    rw [HeadLine.read?, hcommand, hescaped, hdivider, hblank]
    rfl

theorem readHeading_of_isFence (h : isFence s = true) : LineRule.readHeading mode s = Token.rawIfAny s := by
  cases s with
  | nil => cases h
  | cons c s =>
    have hhash : c ≠ '#' := head_ne_of_isFence h (by decide) (by decide)
    have hbackslash : c ≠ '\\' := head_ne_of_isFence h (by decide) (by decide)
    rw [LineRule.readHeading, heading?_cons hhash, escapedHeading?_cons hbackslash]
    split <;> rfl

/-- A fence opens a verbatim block or closes it, whatever the mode. -/
theorem readLine_fence (h : isFence line = true) (mode : Mode) :
    readLine mode line = (mode.endHead.toggleVerbatim, .ok [.fence !mode.verbatim]) := by
  have hne : line ≠ [] := by
    rintro rfl
    cases h
  have hhead : LineRule.readHeadLine mode line = (mode.endHead, Token.rawIfAny line) := by
    rw [LineRule.readHeadLine, read?_of_isFence h]
    cases hm : mode.head with
    | true => rfl
    | false =>
      obtain ⟨head, verbatim, delimiter⟩ := mode
      cases hm
      rfl
  have hheading : LineRule.heading.read mode.endHead line = (mode.endHead, .ok (Token.rawIfAny line)) := by
    rw [LineRule.read, readHeading_of_isFence h]
  have hfence : LineRule.fence.read mode.endHead line =
      (mode.endHead.toggleVerbatim, .ok [.fence !mode.verbatim]) := by
    simp [LineRule.read, LineRule.readFence, h, Mode.endHead]
  have hstart : readStart mode.endHead LineRule.behindHead (Token.rawIfAny line) =
      (mode.endHead.toggleVerbatim, .ok [.fence !mode.verbatim]) := by
    rw [LineRule.behindHead, readStart_of_leaves hheading hne]
    exact readStart_of_finds hfence (fun _ h => by cases h) hne
  rw [readLine_of_headLine hhead hstart, settle_cons (fun _ h => by cases h), settle]

/-- Within a verbatim block a line that is no fence is the text that it is. -/
theorem readLine_within (hh : mode.head = false) (hv : mode.verbatim = true) (h : isFence line = false) :
    ∃ texts : List Text, readLine mode line = (mode, .ok (texts.map .text)) ∧ texts.flatten = line := by
  have hhead : LineRule.readHeadLine mode line = (mode, Token.rawIfAny line) := by
    simp [LineRule.readHeadLine, hh]
  by_cases hne : line = []
  · subst hne
    exact ⟨[], by rw [readLine_of_headLine hhead readStart_nil, settle]; rfl, rfl⟩
  · have hheading : LineRule.heading.read mode line = (mode, .ok (Token.rawIfAny line)) := by
      simp [LineRule.read, LineRule.readHeading, hv]
    have hfence : LineRule.fence.read mode line = (mode, .ok [.text line]) := by
      simp [LineRule.read, LineRule.readFence, h, hv]
    have hstart : readStart mode LineRule.behindHead (Token.rawIfAny line) = (mode, .ok [.text line]) := by
      rw [LineRule.behindHead, readStart_of_leaves hheading hne]
      exact readStart_of_finds hfence (fun _ h => by cases h) hne
    refine ⟨[line], ?_, by rw [List.flatten_cons, List.flatten_nil, List.append_nil]⟩
    rw [readLine_of_headLine hhead hstart, settle_cons (fun _ h => by cases h), settle]
    rfl

/-! ## Other lines -/

/-- What a rule can make of a text that is no fence. It neither opens nor closes a verbatim block. -/
inductive LineRule.Outcome (mode : Mode) (s : Text) : Mode × Except UnknownDelimiter (List Token) → Prop
  /-- The text is left to the other rules. -/
  | leaves (mode' : Mode) : mode'.verbatim = mode.verbatim → Outcome mode s (mode', .ok (Token.rawIfAny s))
  /-- The line is settled. -/
  | settles (mode' : Mode) (t : Token) (tokens : List Token) : mode'.verbatim = mode.verbatim → (∀ u, t ≠ .raw u) →
      Outcome mode s (mode', .ok (t :: tokens))
  /-- The line is settled, and nothing is to be written for it. -/
  | drops (mode' : Mode) : mode'.verbatim = mode.verbatim → Outcome mode s (mode', .ok [])
  | fails (unknown : UnknownDelimiter) : Outcome mode s (mode, .error unknown)

theorem LineRule.outcome (h : isFence s = false) (rule : LineRule) (mode : Mode) :
    Outcome mode s (rule.read mode s) := by
  cases rule with
  | headLine =>
    simp only [read, readHeadLine]
    split
    · exact .leaves mode rfl
    · split
      · exact .settles _ _ _ rfl fun _ h => by cases h
      · exact .settles _ _ _ rfl fun _ h => by cases h
      · exact .drops _ rfl
      · exact .drops _ rfl
      · exact .leaves _ rfl
  | heading =>
    simp only [read, readHeading]
    split
    · exact .leaves mode rfl
    · split
      · exact .settles _ _ _ rfl fun _ h => by cases h
      · exact .settles _ _ _ rfl fun _ h => by cases h
      · exact .leaves mode rfl
  | fence =>
    simp only [read, readFence, h, Bool.false_eq_true, if_false]
    split
    · exact .settles _ _ _ rfl fun _ h => by cases h
    · exact .leaves mode rfl
  | mathBlock =>
    simp only [read, readMathBlock]
    split
    · exact .leaves mode rfl
    · split
      · split
        · exact .fails _
        · split
          · exact .settles _ _ _ rfl fun _ h => by cases h
          · exact .leaves mode rfl
      · split
        · exact .settles _ _ _ rfl fun _ h => by cases h
        · exact .leaves mode rfl
  | listMarker kind =>
    simp only [read, readListMarker]
    split
    · exact .leaves mode rfl
    · split
      · exact .settles _ _ _ rfl fun _ h => by cases h
      · exact .settles _ _ _ rfl fun _ h => by cases h
      · exact .leaves mode rfl

theorem verbatim_readStart (h : isFence s = false) (rules : List LineRule) (mode : Mode) :
    (readStart mode rules [.raw s]).1.verbatim = mode.verbatim := by
  induction rules generalizing mode with
  | nil => rfl
  | cons rule rules ih =>
    have hcases := rule.outcome h mode
    rw [readStart]
    generalize rule.read mode s = result at hcases
    cases hcases with
    | leaves mode' hv =>
      rw [← hv]
      dsimp only
      unfold Token.rawIfAny
      split
      · rw [List.append_nil, readStart_nil]
      · exact ih mode'
    | settles mode' t tokens hv ht =>
      dsimp only
      rw [List.cons_append, readStart_of_ne_raw ht, hv]
    | drops mode' hv =>
      dsimp only
      rw [List.append_nil, readStart_nil, hv]
    | fails unknown => rfl

/-- **Fences, and no other lines, open and close verbatim blocks.** -/
theorem verbatim_readLine (mode : Mode) (line : Text) :
    (readLine mode line).1.verbatim = (mode.verbatim ^^ isFence line) := by
  cases h : isFence line with
  | true =>
    rw [readLine_fence h, Bool.xor_true]
    rfl
  | false =>
    have hstart := verbatim_readStart h LineRule.all mode
    rw [Bool.xor_false, ← hstart, readLine]
    split <;> next hs => rw [hs]

end Fences

namespace Converter

/-! ## One line -/

section OneLine

variable {converter : Converter} {mode : Mode} {tokens : List Token} {source : Text} {progress : Progress}
  {result : Except Failure WrittenLine} {written : WrittenLine}

/-- The outcome of a call is put together from what is read and what is written. -/
theorem obey_line_eq [Memory] (hh : converter.progress.mode.head = false)
    (hread : readLine converter.progress.mode (splitTerminator source).1 = (mode, .ok tokens))
    (hwrite : (converter.withMode mode).progress.write converter.indentation (splitTerminator source).1 tokens =
      (progress, result)) :
    converter.obey (.line source) = ({ converter with progress }, result.map fun written =>
      some (written.print converter.indentation.width ++ (splitTerminator source).2)) := by
  have hbody : converter.bodyLine (splitTerminator source).1 = ({ converter with progress }, result) := by
    have hwritten : (converter.withMode mode).write (splitTerminator source).1 tokens =
        ({ converter with progress }, result) := by
      rw [write]
      simp only [withMode, mapProgress] at hwrite ⊢
      rw [hwrite]
    rw [bodyLine, read_of_readLine hread]
    exact hwritten
  have hcontent : converter.contentLine (splitTerminator source).1 =
      ({ converter with progress }, result.map some) := by
    rw [contentLine, if_neg (by rw [hh]; decide), hbody]
  simp only [obey, line, hcontent]
  cases result <;> rfl

theorem obey_line_of_read [Memory] (hh : converter.progress.mode.head = false)
    (hread : readLine converter.progress.mode (splitTerminator source).1 = (mode, .ok tokens))
    (hwrite : (converter.withMode mode).progress.write converter.indentation (splitTerminator source).1 tokens =
      (progress, .ok written)) :
    converter.obey (.line source) = ({ converter with progress },
      .ok (some (written.print converter.indentation.width ++ (splitTerminator source).2))) := by
  rw [obey_line_eq hh hread hwrite]
  rfl

theorem print_of_depth_zero {depth? : Option Nat} (h : ∀ depth, depth? = some depth → depth = 0) (width : Int)
    (tags : List TagLine) (text : Text) :
    WrittenLine.print width ⟨tags, depth?, text⟩ = tags.flatMap (TagLine.print width) ++ text := by
  cases depth? with
  | none => simp [WrittenLine.print]
  | some depth =>
    rw [h depth rfl]
    simp [WrittenLine.print, indentAt, Text.spaces]

theorem print_outermost (blank : Bool) (width : Int) (tags : List TagLine) (text : Text) :
    WrittenLine.print width ⟨tags, if blank then none else some 0, text⟩ =
      tags.flatMap (TagLine.print width) ++ text := by
  refine print_of_depth_zero (fun depth hdepth => ?_) width tags text
  split at hdepth
  · cases hdepth
  · exact (Option.some.inj hdepth).symm

variable [Memory]

/-- A fence closes all lists. -/
theorem Sound.obey_fence (hs : converter.Sound) (hh : converter.progress.mode.head = false)
    (hf : isFence (splitTerminator source).1 = true) :
    converter.obey (.line source) =
      ({ converter with progress := ⟨converter.progress.mode.toggleVerbatim, .empty, []⟩ },
        .ok (some ((converter.progress.outline.pending ++ closingTags converter.progress.outline.levels).flatMap
          (TagLine.print converter.indentation.width) ++
          (Fragment.verbatimTag (!converter.progress.mode.verbatim)).print ++ (splitTerminator source).2))) := by
  have hread := readLine_fence hf converter.progress.mode
  have hend : converter.progress.mode.endHead = converter.progress.mode := by rw [Mode.endHead, ← hh]
  rw [hend] at hread
  obtain ⟨fragment, hfragment, hwrite⟩ := Progress.write_blockTag
    (converter.withMode converter.progress.mode.toggleVerbatim).progress
    (t := .fence !converter.progress.mode.verbatim) rfl hs.outermost (splitTerminator source).1
  cases hfragment
  rw [obey_line_of_read hh hread hwrite, print_outermost, Outline.pending_closeTo_zero]
  rfl

/-- Within a block a line that is no fence is copied, and nothing else happens. -/
theorem Sound.obey_within (hs : converter.Sound) (hh : converter.progress.mode.head = false)
    (hv : converter.progress.mode.verbatim = true) (hn : '\n' ∉ source) (hf : isFence source = false) :
    converter.obey (.line source) = (converter, .ok (some source)) := by
  have hsplit := splitTerminator_of_not_mem hn
  have hcontent : isFence (splitTerminator source).1 = false := by rw [hsplit]; exact hf
  obtain ⟨texts, hread, hflatten⟩ := readLine_within hh hv hcontent
  have hlevels := hs.coherent.block (.inl hv)
  obtain ⟨hpending, hline⟩ := hs.coherent.outside hlevels
  obtain ⟨depth?, hdepth, hwrite⟩ := Progress.write_texts hs.outermost hlevels hpending hline
    (splitTerminator source).1 texts
  rw [obey_line_of_read hh hread hwrite, print_of_depth_zero hdepth, hflatten, hsplit]
  simp

end OneLine

/-! ## Runs -/

section Runs

variable [Memory] {converter : Converter}

/-- Within a block all lines are copied up to the next fence. -/
theorem Sound.run_within (hs : converter.Sound) (hh : converter.progress.mode.head = false)
    (hv : converter.progress.mode.verbatim = true) {lines : List Text}
    (hlines : ∀ line ∈ lines, '\n' ∉ line ∧ isFence line = false) :
    (converter.run (lines.map .line)).map Prod.snd = lines.map (fun line => .ok (some line)) ∧
      converter.after (lines.map .line) = converter := by
  induction lines with
  | nil => exact ⟨rfl, rfl⟩
  | cons line lines ih =>
    obtain ⟨⟨hn, hf⟩, htail⟩ := List.forall_mem_cons.1 hlines
    obtain ⟨hrun, hafter⟩ := ih htail
    have hstep := hs.obey_within hh hv hn hf
    constructor
    · rw [List.map_cons, run, List.map_cons, List.map_cons, hstep, hrun]
    · rw [List.map_cons, Converter.after, hstep, hafter]

/-- Whether a verbatim block is open behind calls is known by the number of fences. -/
theorem Sound.verbatim_after (calls : List Call) (hs : converter.Sound) :
    (converter.after calls).progress.mode.verbatim =
      (converter.progress.mode.verbatim ^^ decide (calls.countP (fun call => isFence call.content) % 2 = 1)) := by
  induction calls generalizing converter with
  | nil => exact (Bool.xor_false _).symm
  | cons call calls ih =>
    rw [Converter.after, ih (hs.obey call), hs.mode_obey, verbatim_readLine, List.countP_cons, Bool.xor_assoc]
    congr 1
    cases isFence call.content with
    | false => rw [Bool.false_xor]; rfl
    | true =>
      rw [Bool.true_xor, if_pos rfl, Bool.eq_iff_iff]
      simp only [Bool.not_eq_true', decide_eq_false_iff_not, decide_eq_true_eq]
      omega

end Runs

/-! ## Blocks -/

/-- **Verbatim blocks are transparent.** Behind the head, wherever no verbatim block is open, a fence gives the tags
that are pending, those that close all lists and the beginning of the environment; the lines up to the next fence are
given as they are, and that fence gives the end of the environment. Then the converter is as it was before, but no list
is open and nothing is pending. Nothing is pending anyway unless a call has failed. So a block is open behind any calls
if and only if the number of fences among them is odd. -/
theorem verbatim_block [Memory] (settings : Settings) :
    (∀ converter, Reachable settings converter → converter.progress.mode.head = false →
      converter.progress.mode.verbatim = false → ∀ (first : Text) (lines : List Text) (last : Text),
      isFence (splitTerminator first).1 = true → (∀ line ∈ lines, '\n' ∉ line ∧ isFence line = false) →
      isFence (splitTerminator last).1 = true →
      (converter.run (.line first :: (lines.map .line ++ [.line last]))).map Prod.snd =
          .ok (some ((converter.progress.outline.pending ++ closingTags converter.progress.outline.levels).flatMap
            (TagLine.print converter.indentation.width) ++ "\\begin\x7bverbatim\x7d".toList ++
            (splitTerminator first).2)) ::
          (lines.map (fun line => .ok (some line)) ++
            [.ok (some ("\\end\x7bverbatim\x7d".toList ++ (splitTerminator last).2))]) ∧
        converter.after (.line first :: (lines.map .line ++ [.line last])) =
          { converter with progress := ⟨converter.progress.mode, .empty, []⟩ }) ∧
    (∀ converter, Intact settings converter →
      converter.progress.outline.pending = [] ∧ converter.progress.line = []) ∧
    ∀ (ended : Bool) (calls : List Call), ((fresh settings ended).after calls).progress.mode.verbatim = true ↔
      calls.countP (fun call => isFence call.content) % 2 = 1 := by
  refine ⟨fun converter hr hh hv first lines last hfirst hlines hlast => ?_, fun converter hi => ?_,
    fun ended calls => ?_⟩
  · -- the steps: the opening fence, the lines within the block, the closing fence
    have hopen := hr.sound.obey_fence hh hfirst
    have hwithin := hr.sound.obey (.line first)
    rw [hopen] at hwithin
    have hverbatim : converter.progress.mode.toggleVerbatim.verbatim = true := by rw [Mode.toggleVerbatim, hv]; rfl
    obtain ⟨hrun, hafter⟩ := hwithin.run_within hh hverbatim hlines
    have hclose := hwithin.obey_fence hh hlast
    have hback : converter.progress.mode.toggleVerbatim.toggleVerbatim = converter.progress.mode := by
      simp [Mode.toggleVerbatim]
    constructor
    · rw [run, List.map_cons, hopen, run_append, List.map_append, hrun, hafter, run, hclose, hv]
      simp only [Mode.toggleVerbatim, hv]
      rfl
    · rw [after, hopen, after_append, hafter, after, hclose, hback]
      rfl
  · exact ⟨hi.settled.pending, hi.settled.line⟩
  · have hfresh : (fresh settings ended).progress.mode.verbatim = false := by cases ended <;> rfl
    rw [(ready_fresh settings ended).sound.verbatim_after calls, hfresh, Bool.false_xor, decide_eq_true_iff]

/-- Two lists are open in front of the block, and there is much in it that would otherwise not be left as it is. -/
theorem verbatim_block_lists :
    let converter := (((Converter.new Settings.default).endHead.obey (.line "* a".toList)).1.obey
      (.line "  1. b".toList)).1
    let lines := ["  - a -> *b*".toList, [], "$$".toList, "# c \\->".toList, "* d\r".toList]
    Intact Settings.default converter ∧ converter.progress.outline.levels = [.enumerate, .itemize] ∧
      (converter.run (.line "```lean\n".toList :: (lines.map .line ++ [.line " ```".toList]))).map Prod.snd =
        .ok (some "    \\end\x7benumerate\x7d\n\\end\x7bitemize\x7d\n\\begin\x7bverbatim\x7d\n".toList) ::
          (lines.map (fun line => .ok (some line)) ++ [.ok (some "\\end\x7bverbatim\x7d".toList)]) ∧
      (converter.after (.line "```lean\n".toList :: (lines.map .line ++ [.line " ```".toList]))).progress =
        ⟨⟨false, false, []⟩, .empty, []⟩ := by
  intro converter lines
  have hok : ∀ {result : Except Failure (Option Text)}, result.isOk = true → ∃ text?, result = .ok text? := by
    intro result h
    cases result with
    | error failure => cases h
    | ok text? => exact ⟨text?, rfl⟩
  have hintact : Intact Settings.default converter :=
    .obey _ (.obey _ (.endHead .new) (hok (by decide +kernel))) (hok (by decide +kernel))
  obtain ⟨hblock, hsettled, -⟩ := verbatim_block Settings.default
  have hlevels : converter.progress.outline.levels = [.enumerate, .itemize] := by decide +kernel
  have hmode : converter.progress.mode = ⟨false, false, []⟩ := by decide +kernel
  obtain ⟨hrun, hafter⟩ := hblock converter hintact.reachable (by rw [hmode]) (by rw [hmode]) "```lean\n".toList lines
    " ```".toList (by decide +kernel) (by decide +kernel) (by decide +kernel)
  have hindentation : converter.indentation = .spaces 4 := by decide +kernel
  have hfirst : ([] ++ closingTags [.enumerate, .itemize]).flatMap (TagLine.print (Indentation.spaces 4).width) ++
      "\\begin\x7bverbatim\x7d".toList ++ (splitTerminator "```lean\n".toList).2 =
        "    \\end\x7benumerate\x7d\n\\end\x7bitemize\x7d\n\\begin\x7bverbatim\x7d\n".toList := by
    decide +kernel
  have hlast : "\\end\x7bverbatim\x7d".toList ++ (splitTerminator " ```".toList).2 =
      "\\end\x7bverbatim\x7d".toList := by decide +kernel
  rw [(hsettled converter hintact).1, hlevels, hindentation, hfirst, hlast] at hrun
  exact ⟨hintact, hlevels, hrun, by rw [hafter, hmode]⟩

/-- A list item that could not be written, because the width of its indentation is no index, leaves the tag that opens
its list. It comes out in front of the block. -/
theorem not_verbatim_block :
    ¬ ∀ (raw : RawSettings) (settings : Settings), raw.check = .ok settings →
      ∀ converter, Reachable settings converter → converter.progress.mode.head = false →
        converter.progress.mode.verbatim = false → ∀ first : Text, isFence (splitTerminator first).1 = true →
        (converter.obey (.line first)).2 =
          .ok (some ((closingTags converter.progress.outline.levels).flatMap
            (TagLine.print converter.indentation.width) ++ "\\begin\x7bverbatim\x7d".toList ++
            (splitTerminator first).2)) := by
  intro h
  have hcheck : (RawSettings.default.set .indentWidth (.int 9223372036854775808)).check =
      .ok { Settings.default with indentWidth := 9223372036854775808 } := rfl
  have hfence := h _ _ hcheck _ (.obey (.line "* a".toList) (.endHead .new)) (by decide +kernel) (by decide +kernel)
    "```".toList (by decide +kernel)
  have hgiven : (obey (.line "```".toList) (obey (.line "* a".toList)
      (new { Settings.default with indentWidth := 9223372036854775808 }).endHead).1).2.toOption =
        some (some "\\begin\x7bitemize\x7d\n\\end\x7bitemize\x7d\n\\begin\x7bverbatim\x7d".toList) := by
    decide +kernel
  rw [hfence] at hgiven
  revert hgiven
  decide +kernel

end Converter

end Lectern
