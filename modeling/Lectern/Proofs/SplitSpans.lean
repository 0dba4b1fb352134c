import Lectern.Proofs.Borders
import Lectern.Proofs.Comparisons
import Lectern.Proofs.Findings
import Lectern.Proofs.SpanEnds

/-!
# Math spans taken apart

A math span is found by the rule for math and taken apart again by another search, which tries the delimiters one by
one from both ends. They agree on where the delimiters end unless a span between single dollars has a dollar at the
beginning of its body: that dollar is taken for part of the opening delimiter
(`SpanRule.splitMathSpan_of_enclosed?`).

It makes no difference for glyphs. No character of a delimiter is one of a sign, none of them is a letter, and a
backslash in a delimiter never stands in front of a sign. So delimiters at the two ends of a text stay as they are, and
what is between them is rendered as if it stood alone (`mathText_delimited`). **`splitMathSpan_lossless`** puts both
together.
-/

set_option autoImplicit false

namespace Lectern

/-! ## Delimiters around math text -/

namespace SpanRule

section Borders

variable {rule : SpanRule} {border opening closing s rest : Text}

/-- A rule for glyphs finds nothing in a text in which no glyph starts, as long as no backslash ends it. -/
theorem inert_of_not_mem_triggers (hr : rule = .arrow ∨ rule = .comparison) (hs : ∀ c ∈ s, c ∉ rule.triggers)
    (hlast : s.getLast? ≠ some '\\') (rest : Text) : rule.Inert s rest := by
  have hstart : ∀ d behind, d ∉ rule.triggers → Glyph.startOf? rule.glyphs (d :: behind) = none := by
    rcases hr with rfl | rfl
    · exact fun _ _ => startOf?_arrows_cons
    · exact fun _ _ => startOf?_comparisons_cons
  intro suffix hne hsuffix
  obtain ⟨c, suffix, rfl⟩ := List.exists_cons_of_ne_nil hne
  by_cases hc : c = '\\'
  · subst hc
    cases suffix with
    | nil =>
      obtain ⟨before, rfl⟩ := hsuffix
      exact absurd List.getLast?_concat hlast
    | cons d suffix =>
      have hd := hs d (hsuffix.subset (List.mem_cons_of_mem _ List.mem_cons_self))
      rw [List.cons_append, front?_backslash hr, List.cons_append, hstart d _ hd]
      rfl
  · exact front?_cons_eq_none hc (hs c (hsuffix.subset List.mem_cons_self))

/-- What a rule for glyphs finds does not depend on characters behind the text that are in no sign. -/
theorem front?_append_of_signs (hr : rule = .arrow ∨ rule = .comparison)
    (hb : ∀ glyph ∈ rule.glyphs, ∀ c ∈ glyph.sign, c ∉ border) (hs : s ≠ []) :
    rule.front? (s ++ border) = (rule.front? s).map fun (t, rest) => (t, rest ++ border) := by
  obtain ⟨c, s, rfl⟩ := List.exists_cons_of_ne_nil hs
  by_cases hc : c = '\\'
  · subst hc
    rw [List.cons_append, front?_backslash hr, front?_backslash hr, Glyph.startOf?_append_foreign hb,
      Option.map_map, Option.map_map]
    rfl
  · have hstart := Glyph.startOf?_append_foreign hb (c :: s)
    rw [List.cons_append] at hstart ⊢
    rcases hr with rfl | rfl
    all_goals
      rw [glyphs] at hstart
      rw [front?, front?, glyphFront?_cons hc, glyphFront?_cons hc, hstart, Option.map_map, Option.map_map]
      rfl

/-- The pieces of a text stay the same in front of characters that are in no sign. -/
theorem pieces_append_of_signs (hr : rule = .arrow ∨ rule = .comparison)
    (hb : ∀ glyph ∈ rule.glyphs, ∀ c ∈ glyph.sign, c ∉ border) (hborder : rule.Inert border []) (s : Text) :
    rule.pieces (s ++ border) = rule.pieces s ++ border.map .plain := by
  fun_induction pieces rule s with
  | case1 => exact pieces_of_inert hborder
  | case2 c s t rest hfront ih =>
    have hmore := front?_append_of_signs hr hb (List.cons_ne_nil c s)
    rw [hfront] at hmore
    rw [pieces_of_some hmore, ih, List.cons_append]
  | case3 c s hnone ih =>
    have hmore : rule.front? (c :: (s ++ border)) = none := by
      rw [← List.cons_append, front?_append_of_signs hr hb (List.cons_ne_nil c s), hnone]
      rfl
    rw [List.cons_append, pieces_cons_of_none hmore, ih, List.cons_append]

/-- A rule for glyphs leaves delimiters as they are. -/
theorem printMath_pieces_delimited (hr : rule = .arrow ∨ rule = .comparison)
    (ho : opening ∈ mathDelimiters.map Prod.fst) (hc : closing ∈ mathDelimiters.map Prod.snd) (s : Text) :
    printMath (rule.pieces (opening ++ s ++ closing)) = opening ++ printMath (rule.pieces s) ++ closing := by
  have hdelimiters : ∀ delimiter ∈ mathDelimiters.map Prod.fst ++ mathDelimiters.map Prod.snd,
      (∀ c ∈ delimiter, c ∉ rule.triggers) ∧ delimiter.getLast? ≠ some '\\' := by
    rcases hr with rfl | rfl <;> decide
  have hsigns : ∀ closing ∈ mathDelimiters.map Prod.snd, ∀ glyph ∈ rule.glyphs, ∀ c ∈ glyph.sign, c ∉ closing := by
    rcases hr with rfl | rfl <;> decide
  -- no delimiter begins with a letter, which would have to be kept from a control word
  have hfollow : ∀ closing ∈ mathDelimiters.map Prod.snd, printMath.follow (closing.map .plain) = [] := by decide
  obtain ⟨hno, holast⟩ := hdelimiters opening (List.mem_append_left _ ho)
  obtain ⟨hnc, hclast⟩ := hdelimiters closing (List.mem_append_right _ hc)
  rw [List.append_assoc, pieces_append_of_inert (inert_of_not_mem_triggers hr hno holast _),
    printMath_map_plain_append, pieces_append_of_signs hr (hsigns closing hc)
      (inert_of_not_mem_triggers hr hnc hclast []), printMath_append (hfollow closing hc), printMath_map_plain,
    List.append_assoc]

end Borders

end SpanRule

/-- **Delimiters stay as they are around math text**, and the text between them is rendered as if it stood alone. -/
theorem mathText_delimited {opening closing : Text} (ho : opening ∈ SpanRule.mathDelimiters.map Prod.fst)
    (hc : closing ∈ SpanRule.mathDelimiters.map Prod.snd) (s : Text) :
    mathText (opening ++ s ++ closing) = opening ++ mathText s ++ closing := by
  rw [mathText, mathText, SpanRule.printMath_pieces_delimited (.inl rfl) ho hc,
    SpanRule.printMath_pieces_delimited (.inr rfl) ho hc]

/-! ## The parts of a span -/

section Parts

variable {opening closing body inner s rest : Text}

/-- A text is no closing delimiter if there is something in front of a closing delimiter in it, except for a dollar in
front of a dollar. -/
theorem closingDelimiter?_cons_append (hc : closing ∈ SpanRule.mathDelimiters.map Prod.snd) {c : Char}
    (h : closing = "$".toList → (c :: inner).getLast? ≠ some '$') :
    closingDelimiter? (c :: (inner ++ closing)) = none := by
  have hends : ∀ closing ∈ SpanRule.mathDelimiters.map Prod.snd, closing ≠ [] ∧ closing.length ≤ 2 ∧
      (closing.length = 1 → closing = "$".toList) ∧ closing.getLast? ≠ some '\n' ∧
      (closing.getLast? = some '$' → closing.head? = some '$') := by decide
  obtain ⟨hne, -, hsingle, hlast, -⟩ := hends closing hc
  rw [closingDelimiter?, List.find?_eq_none]
  intro other hother hfound
  obtain ⟨-, hlength, -, -, hhead⟩ := hends other hother
  rw [Bool.or_eq_true, beq_iff_eq, beq_iff_eq] at hfound
  rcases hfound with rfl | hfound
  · -- there is room for one character in front of a delimiter of one character
    have hpos := List.length_pos_iff.2 hne
    simp only [List.length_cons, List.length_append] at hlength
    obtain rfl : closing = "$".toList := hsingle (by omega)
    obtain rfl : inner = [] := List.length_eq_zero_iff.1 (by omega)
    have hc : c = '$' := Option.some.inj (hhead rfl)
    exact h rfl (congrArg some hc)
  · have hend := congrArg List.getLast? hfound
    rw [List.getLast?_concat, ← List.cons_append, List.getLast?_append, List.getLast?_eq_some_getLast hne,
      Option.some_or, ← List.getLast?_eq_some_getLast hne] at hend
    exact hlast hend

/-- The closing delimiter is found at the end of a text, unless it is a dollar behind another one. -/
theorem splitClosing?_append (hc : closing ∈ SpanRule.mathDelimiters.map Prod.snd)
    (h : closing = "$".toList → inner.getLast? ≠ some '$') :
    splitClosing? (inner ++ closing) = some (inner, closing) := by
  have hall : ∀ closing ∈ SpanRule.mathDelimiters.map Prod.snd, splitClosing? closing = some ([], closing) := by decide
  induction inner with
  | nil => exact hall closing hc
  | cons c inner ih =>
    have hrest : closing = "$".toList → inner.getLast? ≠ some '$' := by
      intro hdollar
      cases inner with
      | nil => exact fun h => by cases h
      | cons d inner =>
        rw [← List.getLast?_cons_cons (a := c)]
        exact h hdollar
    rw [List.cons_append, splitClosing?, closingDelimiter?_cons_append hc h, ih hrest]
    rfl

/-- A span is taken apart at the first opening delimiter that is in front of it. -/
theorem splitMathSpan_of_after? {span : Text} (before : List Text) {more : List Text}
    (hall : SpanRule.mathDelimiters.map Prod.fst = before ++ opening :: more)
    (hbefore : ∀ other ∈ before, Text.after? other span = none) (hafter : Text.after? opening span = some rest)
    (hsplit : splitClosing? rest = some (inner, closing)) : splitMathSpan span = (opening, inner, closing) := by
  rw [splitMathSpan, hall, List.findSome?_append, List.findSome?_eq_none_iff.2 fun other hother => ?_, Option.none_or,
    List.findSome?_cons, hafter, Option.bind_some, hsplit]
  · rfl
  · rw [hbefore other hother]
    rfl

/-- Up to the nearest dollar there is no dollar. -/
theorem not_mem_of_splitAt?_dollar (h : Text.splitAt? "$".toList s = some (inner, rest)) : '$' ∉ inner := by
  intro hmem
  obtain ⟨front, behind, rfl⟩ := List.append_of_mem hmem
  have hempty := Text.nearest_of_splitAt? h
    (show front ++ '$' :: behind ++ "$".toList = front ++ "$".toList ++ (behind ++ "$".toList) by simp)
  exact absurd (List.append_eq_nil_iff.1 hempty).2 (by decide)

/-- **A span is taken apart where it was put together**, but for a dollar behind the single dollar that opens it: both
of them are taken for its opening delimiter then. -/
theorem SpanRule.splitMathSpan_of_enclosed? (hmem : (opening, closing) ∈ mathDelimiters)
    (h : enclosed? opening closing s = some (body, rest)) :
    splitMathSpan (opening ++ body ++ closing) = (opening, body, closing) ∨
      opening = "$".toList ∧ closing = "$".toList ∧ ∃ inner, body = '$' :: inner ∧
        splitMathSpan (opening ++ body ++ closing) = ("$$".toList, inner, "$".toList) := by
  have hother : ∀ {body : Text}, closing ≠ "$".toList → splitClosing? (body ++ closing) = some (body, closing) :=
    fun hne => splitClosing?_append (List.mem_map_of_mem hmem) fun hdollar => absurd hdollar hne
  have hafter : Text.after? opening (opening ++ body ++ closing) = some (body ++ closing) :=
    Text.after?_eq_some.2 (List.append_assoc _ _ _)
  simp only [mathDelimiters, List.mem_cons, List.not_mem_nil, or_false, Prod.mk.injEq] at hmem
  rcases hmem with ⟨rfl, rfl⟩ | ⟨rfl, rfl⟩ | ⟨rfl, rfl⟩ | ⟨rfl, rfl⟩
  · exact .inl (splitMathSpan_of_after? [] rfl (fun _ h => by cases h) hafter (hother (by decide)))
  · unfold enclosed? at h
    split at h
    · next c tail _ =>
      obtain ⟨⟨inner, behind⟩, hsplit, hpair⟩ := Option.map_eq_some_iff.1 h
      cases hpair
      have hinner := not_mem_of_splitAt?_dollar hsplit
      by_cases hc : c = '$'
      · subst hc
        exact .inr ⟨rfl, rfl, inner, rfl, splitMathSpan_of_after? [] rfl (fun _ h => by cases h)
          (Text.after?_eq_some.2 rfl)
          (splitClosing?_append (by decide) fun _ hlast => hinner (List.mem_of_getLast? hlast))⟩
      · have hbody : '$' ∉ c :: inner := List.not_mem_cons_of_ne_of_not_mem (Ne.symm hc) hinner
        have htwo : Text.after? "$$".toList ("$".toList ++ c :: inner ++ "$".toList) = none :=
          after?_cons_self.trans (after?_cons_eq_none hc)
        exact .inl (splitMathSpan_of_after? ["$$".toList] rfl (List.forall_mem_singleton.2 htwo) hafter
          (splitClosing?_append (by decide) fun _ hlast => hbody (List.mem_of_getLast? hlast)))
    · cases h
  · exact .inl (splitMathSpan_of_after? ["$$".toList, "$".toList] rfl
      (List.forall_mem_cons.2 ⟨rfl, List.forall_mem_singleton.2 rfl⟩) hafter (hother (by decide)))
  · exact .inl (splitMathSpan_of_after? ["$$".toList, "$".toList, "\\[".toList] rfl
      (List.forall_mem_cons.2 ⟨rfl, List.forall_mem_cons.2 ⟨rfl, List.forall_mem_singleton.2 rfl⟩⟩) hafter
      (hother (by decide)))

/-- What the rule for math finds, taken apart. -/
theorem SpanRule.exists_enclosed_of_mem_read {mode : Mode} {span : Text} (h : .math span ∈ math.read mode s) :
    ∃ opening body closing u rest, (opening, closing) ∈ mathDelimiters ∧
      enclosed? opening closing u = some (body, rest) ∧ span = opening ++ body ++ closing := by
  obtain ⟨-, u, rest, -, hfront⟩ := exists_front?_of_mem_read h fun _ he => by cases he
  rw [front?, mathFront?] at hfront
  split at hfront
  · cases hfront
  · obtain ⟨⟨found, behind⟩, hspan, hpair⟩ := Option.map_eq_some_iff.1 hfront
    cases hpair
    obtain ⟨⟨opening, closing⟩, hmem, hfound⟩ := List.exists_of_findSome?_eq_some hspan
    obtain ⟨⟨body, behind⟩, henclosed, hpair⟩ := Option.map_eq_some_iff.1 hfound
    cases hpair
    exact ⟨opening, body, closing, u, _, hmem, henclosed, rfl⟩

end Parts

/-- **Taking a math span apart loses nothing and changes nothing.** Every span that the rule for math finds is an
opening delimiter, what is inside, and a closing delimiter, which belong together unless a single dollar ends a span
that begins with two. Rendered between them, the inside gives what the whole span does, and that is what is written for
the span. -/
theorem splitMathSpan_lossless {mode : Mode} {s span : Text} (h : .math span ∈ SpanRule.math.read mode s) :
    ∃ opening inner closing, splitMathSpan span = (opening, inner, closing) ∧ opening ≠ [] ∧ closing ≠ [] ∧
      ((opening, closing) ∈ SpanRule.mathDelimiters ∨ opening = "$$".toList ∧ closing = "$".toList) ∧
      opening ++ inner ++ closing = span ∧ opening ++ mathText inner ++ closing = mathText span ∧
      ∃ fragment, (Token.math span).fragment mode = .ok fragment ∧ fragment.print = mathText span := by
  have hne : ∀ pair ∈ SpanRule.mathDelimiters, pair.1 ≠ [] ∧ pair.2 ≠ [] := by decide
  obtain ⟨first, body, last, u, rest, hmem, henclosed, rfl⟩ := SpanRule.exists_enclosed_of_mem_read h
  obtain ⟨opening, inner, closing, hsplit, hdelimiters, hwhole⟩ : ∃ opening inner closing,
      splitMathSpan (first ++ body ++ last) = (opening, inner, closing) ∧
        ((opening, closing) ∈ SpanRule.mathDelimiters ∨ opening = "$$".toList ∧ closing = "$".toList) ∧
        opening ++ inner ++ closing = first ++ body ++ last := by
    rcases SpanRule.splitMathSpan_of_enclosed? hmem henclosed with hsplit | ⟨rfl, rfl, inner, rfl, hsplit⟩
    · exact ⟨first, body, last, hsplit, .inl hmem, rfl⟩
    · exact ⟨_, inner, _, hsplit, .inr ⟨rfl, rfl⟩, rfl⟩
  have hends : opening ∈ SpanRule.mathDelimiters.map Prod.fst ∧ closing ∈ SpanRule.mathDelimiters.map Prod.snd := by
    rcases hdelimiters with hpair | ⟨rfl, rfl⟩
    · exact ⟨List.mem_map_of_mem hpair, List.mem_map_of_mem hpair⟩
    · decide
  have hfilled : opening ≠ [] ∧ closing ≠ [] := by
    rcases hdelimiters with hpair | ⟨rfl, rfl⟩
    · exact hne _ hpair
    · decide
  have htext := mathText_delimited hends.1 hends.2 inner
  rw [hwhole] at htext
  refine ⟨opening, inner, closing, hsplit, hfilled.1, hfilled.2, hdelimiters, hwhole, htext.symm,
    .math opening (mathText inner) closing, ?_, htext.symm⟩
  rw [Token.fragment, Token.fragmentWith, hsplit]

/-- A span that begins with two dollars and ends with one. -/
theorem splitMathSpan_lossless_dollars :
    let span := "$$a->b$".toList
    .math span ∈ SpanRule.math.read ⟨false, false, []⟩ "so $$a->b$, ok".toList ∧
      splitMathSpan span = ("$$".toList, "a->b".toList, "$".toList) ∧
      "$$".toList ++ mathText "a->b".toList ++ "$".toList = mathText span ∧
      mathText span = "$$a\\rightarrow b$".toList := by
  intro span
  have hmem : .math span ∈ SpanRule.math.read ⟨false, false, []⟩ "so $$a->b$, ok".toList := by
    have hread : SpanRule.math.read ⟨false, false, []⟩ "so $$a->b$, ok".toList =
        [.raw "so ".toList, .math span, .raw ", ok".toList] := by decide +kernel
    rw [hread]
    exact List.mem_cons_of_mem _ List.mem_cons_self
  have hsplit : splitMathSpan span = ("$$".toList, "a->b".toList, "$".toList) := by decide +kernel
  obtain ⟨opening, inner, closing, hparts, -, -, -, -, htext, -⟩ := splitMathSpan_lossless hmem
  rw [hsplit] at hparts
  cases hparts
  exact ⟨hmem, hsplit, htext, by decide +kernel⟩

end Lectern
