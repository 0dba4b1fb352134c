import Lectern.Proofs.VerbatimBlocks
import Lectern.Proofs.TabStops

/-!
# Headings

A line of hashes, a space and a title is a heading wherever no verbatim block is open (`readLine_heading`), whatever the
title is. Its level and its title are written as one text, from which both are read again (`token?_heading`): a number
is read as it was written (`Numeral.read_write`), and its digits end where the title is announced, so it does not
matter whether a title is announced once more in the title. A heading closes all lists, which in a math block there are
none of, and leaves the mode alone (**`heading_line`**).
-/

set_option autoImplicit false

namespace Lectern

/-! ## Numerals -/

namespace Numeral

theorem mem_of_isDigit {c : Char} (h : c.isDigit = true) : c ∈ "0123456789".toList := by
  have hbounds : 48 ≤ c.toNat ∧ c.toNat ≤ 57 := Char.isDigit_iff_toNat.1 h
  have hall : ∀ k < 10, Char.ofNat (48 + k) ∈ "0123456789".toList := by decide
  have hmem := hall (c.toNat - 48) (by omega)
  rwa [Nat.add_sub_cancel' hbounds.1, Char.ofNat_toNat] at hmem

/-- The digits that a number is written with have their values, and are neither blanks nor signs nor underscores. -/
theorem digit_of_mem_write {c : Char} {n : Nat} (h : c ∈ write n) :
    Text.digitValue? c = some (c.toNat - '0'.toNat) ∧ isMargin c = false ∧ c ≠ '-' ∧ c ≠ '+' ∧ c ≠ '_' := by
  have hall : ∀ c ∈ "0123456789".toList, Text.digitValue? c = some (c.toNat - '0'.toNat) ∧ isMargin c = false ∧
      c ≠ '-' ∧ c ≠ '+' ∧ c ≠ '_' := by decide
  exact hall c (mem_of_isDigit (Nat.isDigit_of_mem_toDigits (by decide) (by decide) h))

theorem isDigit_of_mem_write {c : Char} {n : Nat} (h : c ∈ write n) : Text.isDigit c = true := by
  rw [Text.isDigit, (digit_of_mem_write h).1]
  rfl

theorem digitRow?_of_digits {row : Text} {value : Char → Nat} (hne : row ≠ [])
    (h : ∀ c ∈ row, Text.digitValue? c = some (value c) ∧ c ≠ '_') : digitRow? row = some (row.map value) := by
  fun_induction digitRow? row with
  | case1 => exact absurd rfl hne
  | case2 c => simp [(h c List.mem_cons_self).1]
  | case3 c rest => exact absurd rfl (h '_' (by simp)).2
  | case4 c rest hone hnext ih =>
    have hrest : rest ≠ [] := fun hnil => hone hnil
    have htail := ih hrest fun d hd => h d (List.mem_cons_of_mem c hd)
    simp [(h c List.mem_cons_self).1, htail]

theorem splitSign_of_digit {c : Char} {row : Text} (hminus : c ≠ '-') (hplus : c ≠ '+') :
    splitSign (c :: row) = (false, c :: row) := by
  unfold splitSign
  split
  · next h => exact absurd (List.cons.inj h).1 hminus
  · next h => exact absurd (List.cons.inj h).1 hplus
  · rfl

/-- A number is read as it is written. -/
theorem read_write {n : Nat} (h : (write n).length ≤ maxDigits) : read (write n) = .ok n := by
  have hvalue : ofDigits ((write n).map fun c => c.toNat - '0'.toNat) = n := by
    rw [ofDigits, List.foldl_map]
    exact Nat.ofDigitChars_ten_toDigits
  have hdigits := fun c (hc : c ∈ write n) => digit_of_mem_write hc
  have hrow : digitRow? (write n) = some ((write n).map fun c => c.toNat - '0'.toNat) :=
    digitRow?_of_digits Nat.toDigits_ne_nil fun c hc => ⟨(hdigits c hc).1, (hdigits c hc).2.2.2.2⟩
  have hall : ∀ c ∈ write n, (Text.isDigit c || c == '_') = true := fun c hc => by rw [isDigit_of_mem_write hc]; rfl
  have htake : (write n).takeWhile (fun c => Text.isDigit c || c == '_') = write n := by
    have happend : (write n ++ []).takeWhile _ = write n ++ _ := List.takeWhile_append_of_pos hall
    rwa [List.append_nil, List.takeWhile_nil, List.append_nil] at happend
  have hdrop : (write n).dropWhile (fun c => Text.isDigit c || c == '_') = [] := by
    have happend : (write n ++ []).dropWhile _ = _ := List.dropWhile_append_of_pos hall
    rwa [List.append_nil, List.dropWhile_nil] at happend
  have hsign : splitSign ((write n).dropWhile isMargin) = (false, write n) := by
    cases hc : write n with
    | nil => exact absurd hc Nat.toDigits_ne_nil
    | cons c row =>
      obtain ⟨-, hmargin, hminus, hplus, -⟩ := hdigits c (hc ▸ List.mem_cons_self)
      rw [List.dropWhile_cons_of_neg (by rw [hmargin]; decide), splitSign_of_digit hminus hplus]
  rw [read, hsign]
  dsimp only
  rw [htake, hdrop, hrow]
  dsimp only
  rw [if_neg (by rw [List.length_map]; omega), hvalue]
  rfl

end Numeral

/-! ## Headings as lexemes -/

section Lexemes

variable [Memory] {level : Nat} {title : Text}

/-- From what is written of a heading its level and its title are read, whatever the title is. -/
theorem Lexeme.heading?_lexeme (h : (Numeral.write level).length ≤ Numeral.maxDigits) (title : Text) :
    Lexeme.heading? (Token.heading level title).lexeme.value =
      ((Text.copies headingStep.length (level - 1)).mapError .unrepeatable).map fun _ => (level, title) := by
  have hafter : Text.after? "LEVEL=".toList (Token.heading level title).lexeme.value =
      some (Numeral.write level ++ (",TITLE=".toList ++ title)) := Text.after?_eq_some.2 (by simp [Token.lexeme])
  have hdigits : ∀ c ∈ Numeral.write level, Text.isDigit c = true := fun c => Numeral.isDigit_of_mem_write
  have hcomma : Text.isDigit ',' = false := by decide
  -- the comma is no digit, so the digits of the level end in front of it
  have htake : (Numeral.write level ++ (",TITLE=".toList ++ title)).takeWhile Text.isDigit = Numeral.write level := by
    rw [List.takeWhile_append_of_pos hdigits]
    simp [hcomma]
  have hdrop : (Numeral.write level ++ (",TITLE=".toList ++ title)).dropWhile Text.isDigit =
      ",TITLE=".toList ++ title := by
    rw [List.dropWhile_append_of_pos hdigits]
    simp [hcomma]
  have hlevel : Lexeme.level? (Numeral.write level) = .ok level := by
    rw [Lexeme.level?, Numeral.read_write h]
    rfl
  rw [Lexeme.heading?, hafter]
  dsimp only
  rw [htake, hdrop, Text.after?_eq_some.2 rfl]
  split
  · next hnil => exact absurd hnil Nat.toDigits_ne_nil
  · next hnone _ => cases hnone
  · next htitle _ =>
    cases htitle
    rw [hlevel]
    dsimp only [bind, Except.bind]
    cases Text.copies headingStep.length (level - 1) <;> rfl

/-- A heading is read again as it was written, if there is space for its name. -/
theorem token?_heading (h : headingStep.length * (level - 1) ≤ Memory.size) (title : Text) :
    (Token.heading level title).lexeme.token? = .ok (.heading level title) := by
  have hsize := Memory.size_lt
  have hbound : Text.indexBound < 10 ^ 19 := by decide
  have hsteps : level - 1 ≤ Memory.size := Nat.le_trans (Nat.le_mul_of_pos_left _ (by decide)) h
  have hdigits : (Numeral.write level).length ≤ Numeral.maxDigits :=
    calc (Numeral.write level).length ≤ 19 := (Nat.length_toDigits_le_iff (by decide) (by decide)).2 (by omega)
      _ ≤ Numeral.maxDigits := by decide
  have hcount : ((level : Int) - 1).toNat = level - 1 := by omega
  have hcopies : Text.copies headingStep.length (level - 1) = .ok (level - 1) :=
    Text.copies_eq_ok_iff.2 ⟨hcount.symm, by omega, by omega, by rwa [hcount]⟩
  have hread := Lexeme.heading?_lexeme hdigits title
  rw [hcopies] at hread
  exact congrArg (Except.map fun found => Token.heading found.1 found.2) hread

end Lexemes

/-! ## Lines with headings -/

section Lines

variable {level : Nat} {title : Text}

theorem heading?_line (hl : 1 ≤ level) (ht : title ≠ []) (hn : '\n' ∉ title) :
    heading? (List.replicate level '#' ++ ' ' :: title) = some (level, title) := by
  have hhashes : ∀ c ∈ List.replicate level '#', (c == '#') = true := fun c hc => by
    rw [(List.mem_replicate.1 hc).2, beq_self_eq_true]
  obtain ⟨count, rfl⟩ := Nat.exists_eq_add_of_le' hl
  obtain ⟨c, rest, rfl⟩ := List.exists_cons_of_ne_nil ht
  have hspace : (' ' == '#') = false := rfl
  rw [heading?, List.takeWhile_append_of_pos hhashes, List.dropWhile_append_of_pos hhashes]
  simp [hspace, Text.lineContent?_of_not_mem hn]

/-- Wherever no verbatim block is open, a heading is read, also in a math block. -/
theorem readLine_heading {mode : Mode} (hh : mode.head = false) (hv : mode.verbatim = false) (hl : 1 ≤ level)
    (ht : title ≠ []) (hn : '\n' ∉ title) :
    readLine mode (List.replicate level '#' ++ ' ' :: title) = (mode, .ok [.heading level title]) := by
  have hfound := heading?_line hl ht hn
  generalize List.replicate level '#' ++ ' ' :: title = line at hfound
  have hread : LineRule.read .heading mode line = (mode, .ok [.heading level title]) := by
    simp [LineRule.read, LineRule.readHeading, hv, hfound]
  have hne : line ≠ [] := by
    rintro rfl
    cases hfound
  have hraw : ∀ u, Token.heading level title ≠ .raw u := fun _ h => by cases h
  have hleaves : LineRule.readHeadLine mode line = (mode, Token.rawIfAny line) := by simp [LineRule.readHeadLine, hh]
  rw [readLine_of_headLine hleaves (readStart_of_finds hread hraw hne), settle_cons hraw, settle]

/-- In front of a heading all lists close; in a block there are none. -/
theorem Progress.settleLists_heading {progress : Progress} (h : progress.Coherent) (hl : 1 ≤ level) (title : Text) :
    progress.settleLists (List.replicate level '#' ++ ' ' :: title) [.heading level title] =
      progress.mapOutline (Outline.closeTo 0) := by
  obtain ⟨count, rfl⟩ := Nat.exists_eq_add_of_le' hl
  have hblank : Text.allBlank (List.replicate (count + 1) '#' ++ ' ' :: title) = false := rfl
  have hcolumns : Text.columns (List.replicate (count + 1) '#' ++ ' ' :: title) = 0 := rfl
  cases hblock : progress.mode.inBlock with
  | true =>
    rw [mapOutline, Outline.closeTo_of_levels_eq_nil (h.block (Bool.or_eq_true_iff.1 hblock))]
    simp [settleLists, Token.isBlockTag, hblock]
  | false => simp [settleLists, Token.isBlockTag, Token.isItem, hblock, hblank, hcolumns, closeTo]

end Lines

namespace Converter

/-- A heading closes all lists. -/
theorem Sound.obey_heading [Memory] {converter : Converter} (hs : converter.Sound)
    (hh : converter.progress.mode.head = false) (hv : converter.progress.mode.verbatim = false)
    {level : Nat} {title : Text} (hl : 1 ≤ level) (ht : title ≠ []) (hn : '\n' ∉ title) :
    converter.obey (.line (List.replicate level '#' ++ ' ' :: title)) =
      ({ converter with progress := ⟨converter.progress.mode, .empty, []⟩ },
        .ok (some ((converter.progress.outline.pending ++ closingTags converter.progress.outline.levels).flatMap
          (TagLine.print converter.indentation.width) ++ (Fragment.heading level title).print))) := by
  have hsplit : splitTerminator (List.replicate level '#' ++ ' ' :: title) =
      (List.replicate level '#' ++ ' ' :: title, []) := splitTerminator_of_not_mem (by simp [hn])
  have hread := readLine_heading hh hv hl ht hn
  have hwrite := Progress.write_closing hs.outermost rfl (Progress.settleLists_heading hs.coherent hl title) rfl
  rw [obey_line_of_read hh (by rw [hsplit]; exact hread) (by rw [hsplit]; exact hwrite), print_outermost,
    Outline.pending_closeTo_zero, hsplit, List.append_nil]

/-- **Headings are written as they are meant, whatever their titles are.** Behind the head, wherever no verbatim block is
open, a line of hashes, a space and a title without a line feed is read as the heading of that level with that title.
Its lexeme has both of them in one text, from which they are read again if the name of the level fits into the memory.
What is given for the line are the tags that are pending, those that close all lists, and the command for the
heading with the title as it stands. Then no list is open and nothing is pending, and the mode is what it was before.
Nothing is pending anyway unless a call has failed. -/
theorem heading_line [Memory] (settings : Settings) :
    (∀ converter, Reachable settings converter → converter.progress.mode.head = false →
      converter.progress.mode.verbatim = false → ∀ (level : Nat) (title : Text), 1 ≤ level → title ≠ [] →
      '\n' ∉ title →
      readLine converter.progress.mode (List.replicate level '#' ++ ' ' :: title) =
          (converter.progress.mode, .ok [.heading level title]) ∧
        (Token.heading level title).lexeme =
          ⟨.section, "LEVEL=".toList ++ Numeral.write level ++ ",TITLE=".toList ++ title⟩ ∧
        ("sub".toList.length * (level - 1) ≤ Memory.size →
          (Token.heading level title).lexeme.token? = .ok (.heading level title)) ∧
        converter.obey (.line (List.replicate level '#' ++ ' ' :: title)) =
          ({ converter with progress := ⟨converter.progress.mode, .empty, []⟩ },
            .ok (some ((converter.progress.outline.pending ++ closingTags converter.progress.outline.levels).flatMap
              (TagLine.print converter.indentation.width) ++
              (['\\'] ++ (List.replicate (level - 1) "sub".toList).flatten ++ "section*\x7b".toList ++ title ++
                ['\x7d']))))) ∧
    ∀ converter, Intact settings converter →
      converter.progress.outline.pending = [] ∧ converter.progress.line = [] := by
  refine ⟨fun converter hr hh hv level title hl ht hn => ⟨readLine_heading hh hv hl ht hn, rfl, fun hmemory => ?_, ?_⟩,
    fun converter hi => ⟨hi.settled.pending, hi.settled.line⟩⟩
  · exact token?_heading hmemory title
  · exact hr.sound.obey_heading hh hv hl ht hn

/-- Two lists are open in front of the heading, and its title announces another level and another title. -/
theorem heading_line_lists :
    let converter := (((Converter.new Settings.default).endHead.obey (.line "* a".toList)).1.obey
      (.line "  1. b".toList)).1
    let title := ",TITLE=LEVEL=2,TITLE= ".toList
    Reachable Settings.default converter ∧ converter.progress.outline.levels = [.enumerate, .itemize] ∧
      (Token.heading 3 title).lexeme = ⟨.section, "LEVEL=3,TITLE=,TITLE=LEVEL=2,TITLE= ".toList⟩ ∧
      (Token.heading 3 title).lexeme.token? = .ok (.heading 3 title) ∧
      converter.obey (.line "### ,TITLE=LEVEL=2,TITLE= ".toList) =
        ({ converter with progress := ⟨⟨false, false, []⟩, .empty, []⟩ },
          .ok (some (("    \\end\x7benumerate\x7d\n\\end\x7bitemize\x7d\n" ++
            "\\subsubsection*\x7b,TITLE=LEVEL=2,TITLE= \x7d").toList))) := by
  intro converter title
  have hreachable : Reachable Settings.default converter :=
    .obey (.line "  1. b".toList) (.obey (.line "* a".toList) (.endHead .new))
  have hlevels : converter.progress.outline.levels = [.enumerate, .itemize] := by decide +kernel
  have hpending : converter.progress.outline.pending = [] := by decide +kernel
  have hmode : converter.progress.mode = ⟨false, false, []⟩ := by decide +kernel
  have hindentation : converter.indentation = .spaces 4 := by decide +kernel
  obtain ⟨-, -, hread, hobey⟩ := (heading_line Settings.default).1 converter hreachable (by rw [hmode]) (by rw [hmode]) 3
    title (by decide) (by decide) (by decide)
  refine ⟨hreachable, hlevels, by decide +kernel, hread (by decide), ?_⟩
  rw [hpending, hlevels, hmode, hindentation] at hobey
  have hline : List.replicate 3 '#' ++ ' ' :: title = "### ,TITLE=LEVEL=2,TITLE= ".toList := by decide
  rw [hline] at hobey
  rw [hobey]
  congr 3
  decide +kernel

/-- A list item that could not be written, because the width of its indentation is no index, leaves the tag that opens
its list. It comes out in front of the heading. -/
theorem not_heading_line :
    ¬ ∀ (raw : RawSettings) (settings : Settings), raw.check = .ok settings →
      ∀ converter, Reachable settings converter → converter.progress.mode.head = false →
        converter.progress.mode.verbatim = false → ∀ (level : Nat) (title : Text), 1 ≤ level → title ≠ [] →
        '\n' ∉ title →
        (converter.obey (.line (List.replicate level '#' ++ ' ' :: title))).2 =
          .ok (some ((closingTags converter.progress.outline.levels).flatMap
            (TagLine.print converter.indentation.width) ++
            (['\\'] ++ (List.replicate (level - 1) "sub".toList).flatten ++ "section*\x7b".toList ++ title ++
              ['\x7d']))) := by
  intro h
  have hcheck : (RawSettings.default.set .indentWidth (.int 9223372036854775808)).check =
      .ok { Settings.default with indentWidth := 9223372036854775808 } := rfl
  have hheading := h _ _ hcheck _ (.obey (.line "* a".toList) (.endHead .new)) (by decide +kernel) (by decide +kernel)
    1 ['b'] (by decide) (by decide) (by decide)
  have hgiven : (obey (.line "# b".toList) (obey (.line "* a".toList)
      (new { Settings.default with indentWidth := 9223372036854775808 }).endHead).1).2.toOption =
        some (some "\\begin\x7bitemize\x7d\n\\end\x7bitemize\x7d\n\\section*\x7bb\x7d".toList) := by
    decide +kernel
  have hline : List.replicate 1 '#' ++ ' ' :: ['b'] = "# b".toList := by decide
  rw [← hline, hheading] at hgiven
  revert hgiven
  decide +kernel

end Converter

end Lectern
