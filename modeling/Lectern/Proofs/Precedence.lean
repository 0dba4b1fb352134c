import Lectern.Proofs.Borders

/-!
# Spans inside spans

The rules are tried in order, each on the whole text. So bars make verbatim text of what stands between them only if
there is nothing in it for the rule for math, and stars make bold or italic text of it only if there is nothing in it
for the rules for math, verbatim text, arrows and comparisons (`SpanRule.firstSpan_bars`, `SpanRule.Stars.firstSpan`).
Otherwise the text is cut at what these rules find, the delimiters at its two ends are apart and each of them stands
for itself (`renderInline_bars`, `renderInline_stars`). **`Converter.line_bars`** and **`Converter.line_stars`** say
what comes of such a line outside of all blocks and lists.
-/

set_option autoImplicit false

namespace Lectern

/-! ## Rows of stars -/

/-- Neither a star nor a backslash is in the text. -/
def Text.Starless (s : Text) : Prop := ∀ c ∈ s, c ≠ '*' ∧ c ≠ '\\'

instance (s : Text) : Decidable s.Starless := s.decidableForallMem _

/-- The rules for stars, each with its row. -/
inductive SpanRule.Stars : SpanRule → Text → (Text → Token) → Prop
  | bold : Stars .bold "**".toList .bold
  | italic : Stars .italic "*".toList .italic

namespace SpanRule

section Stars

variable {rule other : SpanRule} {stars border s v rest : Text} {token : Text → Token}

theorem stars_or_rank_lt (rule : SpanRule) :
    rule.rank < bold.rank ∨ ∃ stars token, rule.Stars stars token := by
  cases rule with
  | bold => exact .inr ⟨_, _, .bold⟩
  | italic => exact .inr ⟨_, _, .italic⟩
  | _ => exact .inl (by decide)

theorem Stars.front?_eq (h : rule.Stars stars token) (s : Text) : rule.front? s = starFront? stars token s := by
  cases h <;> rfl

theorem Stars.exists_eq_cons (h : rule.Stars stars token) : ∃ more, stars = '*' :: more ∧ more.length ≤ 1 := by
  cases h
  · exact ⟨['*'], rfl, Nat.le_refl _⟩
  · exact ⟨[], rfl, Nat.zero_le _⟩

theorem Stars.forall_eq (h : rule.Stars stars token) : ∀ c ∈ stars, c = '*' := by
  cases h <;> decide

/-- Stars are foreign to the rules that come before those for stars. -/
theorem foreign_of_rank_lt (h : rule.rank < bold.rank) (hb : ∀ c ∈ border, c = '*') :
    ∀ c ∈ rule.alphabet, c ∉ border := by
  have hstar : ∀ c ∈ rule.alphabet, c ≠ '*' := by
    cases rule with
    | bold | italic => exact absurd h (by decide)
    | _ => decide
  exact fun c hc hmem => hstar c hc (hb c hmem)

/-- In text without stars and backslashes there is nothing for a rule for stars. -/
theorem Stars.inert_starless (h : rule.Stars stars token) (hs : s.Starless) (rest : Text) : rule.Inert s rest := by
  intro suffix hne hsuffix
  obtain ⟨c, suffix, rfl⟩ := List.exists_cons_of_ne_nil hne
  obtain ⟨hstar, hbackslash⟩ := hs c (hsuffix.subset List.mem_cons_self)
  refine front?_cons_eq_none hbackslash ?_
  cases h <;> exact fun hmem => hstar (List.mem_singleton.1 hmem)

theorem Stars.front?_starless (h : rule.Stars stars token) (hs : s.Starless) : rule.front? s = none := by
  cases s with
  | nil => cases h <;> rfl
  | cons c s =>
    have hnone := h.inert_starless hs [] (c :: s) (List.cons_ne_nil _ _) (List.suffix_refl _)
    rwa [List.append_nil] at hnone

/-- A row of stars opens a span only if there is another star behind the first character of the body. -/
theorem Stars.front?_eq_none (h : rule.Stars stars token) (hhead : s.head? ≠ some '\\')
    (hs : '*' ∉ s.drop (stars.length + 1)) : rule.front? s = none := by
  obtain ⟨more, rfl, -⟩ := h.exists_eq_cons
  rw [h.front?_eq]
  cases hfront : starFront? ('*' :: more) token s with
  | none => rfl
  | some found =>
    unfold starFront? at hfront
    split at hfront
    · next hafter =>
      rw [Text.after?_eq_some.1 hafter] at hhead
      exact absurd rfl hhead
    · obtain ⟨⟨body, rest⟩, henclosed, -⟩ := Option.map_eq_some_iff.1 hfront
      obtain ⟨c, tail, rfl⟩ := List.exists_cons_of_ne_nil (ne_nil_of_enclosed? henclosed)
      have hsplit : s = '*' :: more ++ [c] ++ (tail ++ '*' :: more ++ rest) := by
        rw [eq_of_enclosed? henclosed]
        simp
      have hlength : ('*' :: more ++ [c]).length = ('*' :: more).length + 1 := List.length_append
      rw [hsplit, ← hlength, List.drop_left] at hs
      exact absurd (List.mem_append_left _ (List.mem_append_right _ List.mem_cons_self)) hs

/-- Nothing comes of one or two stars in front of text without stars. -/
theorem inert_row (hb : ∀ c ∈ border, c = '*') (hlength : border.length ≤ 2) (hs : s.Starless) (rule : SpanRule) :
    rule.Inert border s := by
  rcases stars_or_rank_lt rule with hr | ⟨stars, token, h⟩
  · exact inert_foreign (foreign_of_rank_lt hr hb) s
  · intro suffix hne hsuffix
    have hshort : suffix.length ≤ stars.length + 1 := by
      obtain ⟨more, rfl, -⟩ := h.exists_eq_cons
      have := hsuffix.length_le
      rw [List.length_cons]
      omega
    refine h.front?_eq_none ?_ ?_
    · obtain ⟨c, suffix, rfl⟩ := List.exists_cons_of_ne_nil hne
      rw [List.cons_append, List.head?_cons, hb c (hsuffix.subset List.mem_cons_self)]
      decide
    · rw [List.drop_append, List.drop_eq_nil_of_le hshort, List.nil_append]
      exact fun hmem => (hs _ (List.mem_of_mem_drop hmem)).1 rfl

/-- Nor do one or two stars change anything behind text without stars. -/
theorem ignores_row (hb : ∀ c ∈ border, c = '*') (hlength : border.length ≤ 2) (hs : s.Starless) (rule : SpanRule) :
    rule.Ignores s border := by
  have hborder : rule.Inert border [] := inert_row hb hlength (fun _ hc => by cases hc) rule
  rcases stars_or_rank_lt rule with hr | ⟨stars, token, h⟩
  · exact ignores_foreign (foreign_of_rank_lt hr hb) s
  · refine ⟨fun u hu => ?_, hborder⟩
    have hstarless : Text.Starless u := fun c hc => hs c (hu.subset hc)
    have hnone : rule.front? (u ++ border) = none := by
      by_cases hne : u ++ border = []
      · rw [hne]
        exact h.front?_starless fun _ hc => by cases hc
      · have hinert : rule.Inert (u ++ border) [] :=
          .append (by rw [List.append_nil]; exact h.inert_starless hstarless border) hborder
        have hfront := hinert (u ++ border) hne (List.suffix_refl _)
        rwa [List.append_nil] at hfront
    rw [hnone, h.front?_starless hstarless]
    rfl

end Stars

/-! ## Spans that make up a whole text -/

section Whole

variable {rule : SpanRule} {stars border v : Text} {token : Text → Token}

/-- A rule that finds nothing in a text finds nothing between foreign borders either. -/
theorem Inert.between (h : rule.Inert v []) (hforeign : ∀ c ∈ rule.alphabet, c ∉ border) :
    rule.Inert (border ++ v ++ border) [] := by
  have hv : rule.Inert v (border ++ []) := by
    rw [List.append_nil]
    exact (ignores_foreign hforeign (v ++ [])).inert h
  rw [List.append_assoc]
  exact .append (inert_foreign hforeign _) (.append hv (inert_foreign hforeign []))

/-- Nothing comes of a bar in front of text without bars. -/
theorem inert_bar {s : Text} (h : '|' ∉ s) (rule : SpanRule) : rule.Inert ['|'] s := by
  refine .cons ?_ (.nil _ _)
  cases rule with
  | verbatim =>
    cases hfront : verbatim.front? (['|'] ++ s) with
    | none => rfl
    | some found =>
      obtain ⟨t, rest⟩ := found
      obtain ⟨form, hfinds, hform⟩ := exists_finds_of_front? hfront
      cases hfinds with
      | bar => cases hform
      | escapedGlyph hmem => cases hmem
      | @verbatim body =>
        have hs : s = body ++ ['|'] ++ rest := by
          simpa using hform
        refine absurd ?_ h
        rw [hs]
        exact List.mem_append_left _ (List.mem_append_right _ List.mem_cons_self)
  | _ => exact front?_cons_eq_none (by decide) (by decide)

/-- Two bars make a span of what is between them if there is no math in it. -/
theorem firstSpan_bars (hne : v ≠ []) (hv : ∀ c ∈ v, c ≠ '|' ∧ c ≠ '\n') (h : math.Absent v) :
    FirstSpan .verbatim [] (['|'] ++ v ++ ['|']) (.verbatim v) [] where
  before := fun other ho => by
    obtain rfl : other = math := eq_of_rank_eq (by change other.rank < 1 at ho; change other.rank = 0; omega)
    exact Inert.between (inert_iff_absent.2 h) (by decide)
  inert := .nil _ _
  front := verbatimFront?_bars hne hv []

/-- Two rows of stars make a span of what is between them. -/
theorem Stars.front?_span (h : rule.Stars stars token) (hne : v ≠ []) (hv : v.Starless) :
    rule.front? (stars ++ v ++ stars) = some (token v, []) := by
  obtain ⟨more, rfl, -⟩ := h.exists_eq_cons
  obtain ⟨c, tail, rfl⟩ := List.exists_cons_of_ne_nil hne
  have hstar : '*' ∉ tail := fun hmem => (hv _ (List.mem_cons_of_mem _ hmem)).1 rfl
  have hescape : Text.after? ('\\' :: '*' :: more) ('*' :: more ++ (c :: tail) ++ '*' :: more) = none :=
    after?_cons_eq_none (by decide)
  have hafter : Text.after? ('*' :: more) ('*' :: more ++ (c :: tail) ++ '*' :: more) =
      some (c :: (tail ++ ('*' :: more ++ []))) := Text.after?_eq_some.2 (by simp)
  rw [h.front?_eq, starFront?, hescape, enclosed?, hafter]
  simp only [Text.splitAt?_append_cons hstar]
  rfl

/-- Rows of stars make a span of what is between them if there is nothing in it for the rules before those for
stars. -/
theorem Stars.firstSpan (h : rule.Stars stars token) (hne : v ≠ []) (hv : v.Starless)
    (habsent : ∀ other : SpanRule, other.rank < SpanRule.bold.rank → other.Absent v) :
    FirstSpan rule [] (stars ++ v ++ stars) (token v) [] where
  before := fun other ho => by
    rcases stars_or_rank_lt other with hr | ⟨row, span, hother⟩
    · exact Inert.between (inert_iff_absent.2 (habsent other hr)) (foreign_of_rank_lt hr h.forall_eq)
    · -- only bold comes before italic, and one star alone is not bold
      cases hother with
      | italic => cases h <;> exact absurd ho (by decide)
      | bold =>
        cases h with
        | bold => exact absurd ho (by decide)
        | italic =>
          have hstar : SpanRule.bold.Inert ['*'] (v ++ "*".toList) := by
            refine (inert_bold_star fun d hd => ?_).of_cons
            obtain ⟨c, tail, rfl⟩ := List.exists_cons_of_ne_nil hne
            cases hd
            exact (hv _ List.mem_cons_self).1
          have hend : SpanRule.bold.Inert ['*'] [] := (inert_bold_star (s := []) fun d hd => by cases hd).of_cons
          have hfront : SpanRule.bold.Inert ("*".toList ++ v) ("*".toList ++ []) :=
            hstar.append (Stars.bold.inert_starless hv _)
          exact hfront.append hend
  inert := .nil _ _
  front := h.front?_span hne hv

end Whole

end SpanRule

/-! ## Rendering -/

section Rendering

open SpanRule

variable {mode : Mode} {v text : Text}

/-- A span that makes up a whole text is all that is rendered. -/
theorem renderInline_of_whole (hm : mode.inBlock = false) {rule : SpanRule} {s : Text} {t : Token}
    {fragment : Fragment} (h : FirstSpan rule [] s t []) (hf : t.fragment mode = .ok fragment) :
    renderInline mode s = .ok fragment.print := by
  have hnil : renderInline mode [] = .ok [] := renderSpan_nil mode 0
  have hwhole := renderInline_of_firstSpan hm h hnil hf hnil
  rwa [List.nil_append, List.nil_append, List.append_nil] at hwhole

/-- With math between them, two bars stand for themselves, and the second belongs to the text. -/
theorem renderInline_bars (hm : mode.inBlock = false) (hv : ∀ c ∈ v, c ≠ '|' ∧ c ≠ '\r' ∧ c ≠ '\n')
    (h : ¬ math.Absent v) (ht : renderInline mode (v ++ ['|']) = .ok text) :
    renderInline mode (['|'] ++ v ++ ['|']) = .ok ('|' :: text) := by
  have hmath : ¬ math.Inert (v ++ ['|']) [] := fun hinert =>
    have halone : math.Inert v [] := inert_of_infix hinert (List.prefix_append _ _).isInfix
    h (inert_iff_absent.1 halone)
  rcases math.pieces_cases (v ++ ['|']) with hinert | ⟨stretch, s, t, rest, hs, hinert, hfront⟩
  · exact absurd hinert hmath
  · have hfirst : FirstSpan math stretch s t rest := ⟨fun other ho => absurd ho (Nat.not_lt_zero _), hinert, hfront⟩
    -- the second bar is behind the stretch in front of the math
    have hstretch : ∀ c ∈ stretch, c ≠ '|' ∧ c ≠ '\r' ∧ c ≠ '\n' := by
      have hshort : stretch <+: v := by
        refine (List.prefix_concat_iff.1 (show stretch <+: v ++ ['|'] from ⟨s, hs.symm⟩)).resolve_left ?_
        rintro rfl
        have hnil : s = [] := List.append_cancel_left (hs.symm.trans (List.append_nil _).symm)
        rw [hnil] at hfront
        exact absurd (length_lt_of_front? hfront) (Nat.not_lt_zero _)
      exact fun c hc => hv c (hshort.subset hc)
    obtain ⟨before, fragment, after, hbefore, hfragment, hafter, hwhole⟩ := exists_renderInline_of_firstSpan hm hfirst
    rw [hs, hwhole] at ht
    cases ht
    have hlead : renderInline mode (['|'] ++ stretch) = .ok (['|'] ++ before) := by
      refine renderInline_prepend_border hm (fun c hc => ?_) (fun u hu rule => ?_) hbefore
      · rcases List.mem_append.1 hc with hc | hc
        · rw [List.mem_singleton.1 hc]
          decide
        · exact (hstretch c hc).2
      · exact inert_bar (fun hmem => (hstretch _ (hu.subset hmem)).1 rfl) rule
    have hboth : FirstSpan math (['|'] ++ stretch) s t rest := hfirst.prepend_border fun other ho => by
      obtain rfl : other = math := eq_of_rank_eq (Nat.le_zero.1 ho)
      exact inert_foreign (by decide) _
    have hbar := renderInline_of_firstSpan hm hboth hlead hfragment hafter
    rw [List.append_assoc, hs, ← List.append_assoc, hbar]
    rfl

/-- Between rows of stars, text stands for itself if there is nothing in it for the rules before those for stars. -/
theorem renderInline_of_absent (hm : mode.inBlock = false) (hv : v.Starless)
    (hlineEnd : ∀ c ∈ v, c ≠ '\r' ∧ c ≠ '\n')
    (h : ∀ other : SpanRule, other.rank < bold.rank → other.Absent v) : renderInline mode v = .ok v := by
  refine renderInline_of_inert hm (fun rule => ?_) hlineEnd
  rcases stars_or_rank_lt rule with hr | ⟨stars, token, hstars⟩
  · exact inert_iff_absent.2 (h rule hr)
  · exact hstars.inert_starless hv []

/-- Otherwise the rows of stars stand for themselves. -/
theorem renderInline_stars (hm : mode.inBlock = false) {rule : SpanRule} {stars : Text} {token : Text → Token}
    (hstars : rule.Stars stars token) (hv : v.Starless) (hlineEnd : ∀ c ∈ v, c ≠ '\r' ∧ c ≠ '\n')
    (h : ¬ ∀ other : SpanRule, other.rank < bold.rank → other.Absent v) (ht : renderInline mode v = .ok text) :
    renderInline mode (stars ++ v ++ stars) = .ok (stars ++ text ++ stars) := by
  have hall := hstars.forall_eq
  have hlength : stars.length ≤ 2 := by cases hstars <;> decide
  rcases exists_firstSpan v with hinert | ⟨first, stretch, s, t, rest, rfl, hfirst⟩
  · exact absurd (fun other _ => inert_iff_absent.1 (hinert other)) h
  · have hrank : first.rank < bold.rank := by
      rcases stars_or_rank_lt first with hr | ⟨row, span, hrow⟩
      · exact hr
      · have hnone := hrow.inert_starless hv []
        have hs : s.Starless := fun c hc => hv c (List.mem_append_right _ hc)
        have hfront := hfirst.front
        rw [hrow.front?_starless hs] at hfront
        cases hfront
    refine renderInline_border hm hfirst (fun c hc => ?_)
      (fun other ho => foreign_of_rank_lt (Nat.lt_of_le_of_lt ho hrank) hall)
      (fun u hu => inert_row hall hlength fun c hc => hv c (hu.subset hc)) (ignores_row hall hlength hv) ht
    rcases List.mem_append.1 hc with hc | hc
    · rw [hall c hc]
      decide
    · exact hlineEnd c hc

end Rendering

/-! ## Lines -/

section Lines

variable {mode : Mode} {c : Char} {s : Text}

/-- A bar, or a star with no blank behind it, belongs to no rule for the start of a line. -/
theorem readLine_of_border (hh : mode.head = false) (hm : mode.inBlock = false)
    (hc : c = '|' ∨ c = '*' ∧ ∀ d, s.head? = some d → Text.isBlank d = false) :
    readLine mode (c :: s) = (mode, .ok (readInline mode (c :: s))) := by
  have hmarker : ∀ kind, ListMarker.readAfter? kind [] (c :: s) = none := by
    rcases hc with rfl | ⟨rfl, hs⟩
    · exact fun kind => by cases kind <;> rfl
    · intro kind
      cases kind with
      | enumerate => rfl
      | itemize =>
        cases s with
        | nil => rfl
        | cons d s => simp [ListMarker.readAfter?, ListMarker.mark?, hs d rfl]
  have hplain : Text.isBlank c = false ∧ c ≠ '#' ∧ c ≠ '\\' ∧ c ≠ '`' ∧ c ≠ '$' := by
    rcases hc with rfl | ⟨rfl, -⟩ <;> decide
  obtain ⟨hblank, hhash, hbackslash, hbacktick, hdollar⟩ := hplain
  exact readLine_of_inline hh hm (List.cons_ne_nil _ _) (heading?_cons hhash) (escapedHeading?_cons hbackslash)
    (isFence_cons hblank hbacktick) (mathDelimiter?_cons hblank hdollar fun he => absurd he hbackslash)
    (fun kind => by rw [read?_cons hblank, hmarker]) fun kind => escaped?_cons hblank hbackslash kind

end Lines

namespace Converter

section Lines

open SpanRule

variable {settings : Settings} {converter : Converter} {v : Text}

/-- **Bars shield what is between them from all rules but that for math.** Without math between the bars of a line, it
is converted to the verbatim text; otherwise the first bar stands for itself, and the rest is converted like any other
text. -/
theorem line_bars [Memory] (hreach : Reachable settings converter) (hhead : converter.progress.mode.head = false)
    (hblock : converter.progress.mode.inBlock = false) (hlists : converter.progress.outline.levels = [])
    (hne : v ≠ []) (hv : ∀ c ∈ v, c ≠ '|' ∧ c ≠ '\r' ∧ c ≠ '\n') :
    (math.Absent v → converter.line (['|'] ++ v ++ ['|']) = (converter, .ok ("\\verb|".toList ++ v ++ ['|']))) ∧
      (¬ math.Absent v → ∃ text, renderInline converter.progress.mode (v ++ ['|']) = .ok text ∧
        converter.line (['|'] ++ v ++ ['|']) = (converter, .ok ('|' :: text))) := by
  have hn : '\n' ∉ ['|'] ++ v ++ ['|'] := by
    simp only [List.mem_append, List.mem_singleton, not_or]
    exact ⟨⟨by decide, fun hmem => (hv _ hmem).2.2 rfl⟩, by decide⟩
  have hread := readLine_of_border (c := '|') (s := v ++ ['|']) hhead hblock (.inl rfl)
  have hline : ∀ text, renderInline converter.progress.mode (['|'] ++ v ++ ['|']) = .ok text →
      converter.line (['|'] ++ v ++ ['|']) = (converter, .ok text) := fun text =>
    line_of_inline hreach hhead hblock hlists hn hread
  constructor
  · intro h
    have hfirst := firstSpan_bars hne (fun c hc => ⟨(hv c hc).1, (hv c hc).2.2⟩) h
    exact hline _ (renderInline_of_whole hblock hfirst rfl)
  · intro h
    obtain ⟨text, htext⟩ := exists_renderInline converter.progress.mode (v ++ ['|'])
    exact ⟨text, htext, hline _ (renderInline_bars hblock hv h htext)⟩

/-- Behind a list and a block of math: other markup between the bars, and math. -/
theorem line_bars_markup :
    let converter := ((((Converter.new Settings.default).endHead.obey (.line "* a".toList)).1.obey
      (.line "$$".toList)).1.obey (.line "$$".toList)).1
    math.Absent "a->**b** \\*$c".toList ∧ ¬ math.Absent "$a$".toList ∧
      converter.line "|a->**b** \\*$c|".toList = (converter, .ok "\\verb|a->**b** \\*$c|".toList) ∧
      converter.line "|$a$|".toList = (converter, .ok "|$a$|".toList) := by
  intro converter
  have hreach : Reachable Settings.default converter := .obey _ (.obey _ (.obey _ (.endHead .new)))
  have hhead : converter.progress.mode.head = false := by decide +kernel
  have hblock : converter.progress.mode.inBlock = false := by decide +kernel
  have hlists : converter.progress.outline.levels = [] := by decide +kernel
  have hread : math.read ⟨false, false, []⟩ "a->**b** \\*$c".toList = [.raw "a->**b** \\*$c".toList] := by
    decide +kernel
  have habsent : math.Absent "a->**b** \\*$c".toList := inert_iff_absent.1 ((read_eq_raw_iff (by decide)).1 hread rfl)
  have hpresent : ¬ math.Absent "$a$".toList := fun h =>
    h _ _ (.math (by decide : ("$".toList, "$".toList) ∈ mathDelimiters) (by decide : "a".toList ≠ []))
      (List.infix_refl _)
  have hbars := line_bars hreach hhead hblock hlists (v := "a->**b** \\*$c".toList) (by decide) (by decide)
  have hmath := line_bars hreach hhead hblock hlists (v := "$a$".toList) (by decide) (by decide)
  obtain ⟨text, htext, hline⟩ := hmath.2 hpresent
  have hactual : (renderInline converter.progress.mode ("$a$".toList ++ ['|'])).toOption = some "$a$|".toList := by
    decide +kernel
  rw [htext] at hactual
  cases hactual
  exact ⟨habsent, hpresent, hbars.1 habsent, hline⟩

/-- Math between bars is no verbatim text. -/
theorem not_line_bars :
    ¬ ∀ (converter : Converter) (v : Text), Reachable Settings.default converter →
      converter.progress.mode.head = false → converter.progress.mode.inBlock = false →
      converter.progress.outline.levels = [] → v ≠ [] → (∀ c ∈ v, c ≠ '|' ∧ c ≠ '\r' ∧ c ≠ '\n') →
      (converter.line (['|'] ++ v ++ ['|'])).2 = .ok ("\\verb|".toList ++ v ++ ['|']) := by
  intro h
  have hline := congrArg Except.toOption
    (h (Converter.new Settings.default).endHead "$a$".toList (.endHead .new) rfl rfl rfl (by decide) (by decide))
  revert hline
  decide +kernel

/-- A line between rows of stars is converted as inline text; only one star with a blank behind it marks an item. -/
theorem line_row [Memory] (hreach : Reachable settings converter) (hhead : converter.progress.mode.head = false)
    (hblock : converter.progress.mode.inBlock = false) (hlists : converter.progress.outline.levels = [])
    {rule : SpanRule} {stars text : Text} {token : Text → Token} (h : rule.Stars stars token) (hne : v ≠ [])
    (hlineEnd : ∀ c ∈ v, c ≠ '\r' ∧ c ≠ '\n')
    (hstart : rule = .bold ∨ ∀ c, v.head? = some c → Text.isBlank c = false)
    (ht : renderInline converter.progress.mode (stars ++ v ++ stars) = .ok text) :
    converter.line (stars ++ v ++ stars) = (converter, .ok text) := by
  have hrow : '\n' ∉ stars := fun hmem => absurd (h.forall_eq _ hmem) (by decide)
  have hn : '\n' ∉ stars ++ v ++ stars :=
    List.not_mem_append (List.not_mem_append hrow fun hmem => (hlineEnd _ hmem).2 rfl) hrow
  refine line_of_inline hreach hhead hblock hlists hn ?_ ht
  cases h with
  | bold => exact readLine_of_border hhead hblock (.inr ⟨rfl, fun d hd => by cases hd; decide⟩)
  | italic =>
    obtain ⟨c, tail, rfl⟩ := List.exists_cons_of_ne_nil hne
    exact readLine_of_border hhead hblock (.inr ⟨rfl, hstart.resolve_left (by decide)⟩)

/-- **Stars make bold or italic text of what is between them if there is nothing in it for the rules that come
before**, which are those for math, verbatim text, arrows and comparisons. Otherwise the stars stand for themselves,
around the text as it is converted alone. -/
theorem line_stars [Memory] (hreach : Reachable settings converter) (hhead : converter.progress.mode.head = false)
    (hblock : converter.progress.mode.inBlock = false) (hlists : converter.progress.outline.levels = [])
    (hne : v ≠ []) (hv : v.Starless) (hlineEnd : ∀ c ∈ v, c ≠ '\r' ∧ c ≠ '\n') :
    ∃ text, renderInline converter.progress.mode v = .ok text ∧
      ((∀ rule : SpanRule, rule.rank < bold.rank → rule.Absent v) → text = v ∧
        converter.line ("**".toList ++ v ++ "**".toList) = (converter, .ok (Fragment.command "textbf" text)) ∧
        ((∀ c, v.head? = some c → Text.isBlank c = false) →
          converter.line ("*".toList ++ v ++ "*".toList) = (converter, .ok (Fragment.command "textit" text)))) ∧
      ((¬ ∀ rule : SpanRule, rule.rank < bold.rank → rule.Absent v) →
        converter.line ("**".toList ++ v ++ "**".toList) = (converter, .ok ("**".toList ++ text ++ "**".toList)) ∧
        ((∀ c, v.head? = some c → Text.isBlank c = false) →
          converter.line ("*".toList ++ v ++ "*".toList) = (converter, .ok ("*".toList ++ text ++ "*".toList)))) := by
  obtain ⟨text, htext⟩ := exists_renderInline converter.progress.mode v
  have hbold : ∀ text, renderInline converter.progress.mode ("**".toList ++ v ++ "**".toList) = .ok text →
      converter.line ("**".toList ++ v ++ "**".toList) = (converter, .ok text) :=
    fun _ => line_row hreach hhead hblock hlists .bold hne hlineEnd (.inl rfl)
  have hitalic : (∀ c, v.head? = some c → Text.isBlank c = false) → ∀ text,
      renderInline converter.progress.mode ("*".toList ++ v ++ "*".toList) = .ok text →
      converter.line ("*".toList ++ v ++ "*".toList) = (converter, .ok text) :=
    fun hstart _ => line_row hreach hhead hblock hlists .italic hne hlineEnd (.inr hstart)
  refine ⟨text, htext, fun h => ?_, fun h => ⟨?_, fun hstart => ?_⟩⟩
  · have hsame := renderInline_of_absent hblock hv hlineEnd h
    rw [htext] at hsame
    cases hsame
    have hfragment : ∀ make : Text → Fragment, (renderInline converter.progress.mode v).map make = .ok (make v) := by
      rw [htext]
      exact fun _ => rfl
    exact ⟨rfl, hbold _ (renderInline_of_whole hblock (Stars.bold.firstSpan hne hv h) (hfragment .bold)), fun hstart =>
      hitalic hstart _ (renderInline_of_whole hblock (Stars.italic.firstSpan hne hv h) (hfragment .italic))⟩
  · exact hbold _ (renderInline_stars hblock .bold hv hlineEnd h htext)
  · exact hitalic hstart _ (renderInline_stars hblock .italic hv hlineEnd h htext)

/-- Behind a list and a block of math: half a span of two other rules between the stars, and an arrow. -/
theorem line_stars_arrow :
    let converter := ((((Converter.new Settings.default).endHead.obey (.line "* a".toList)).1.obey
      (.line "$$".toList)).1.obey (.line "$$".toList)).1
    (∀ rule : SpanRule, rule.rank < bold.rank → rule.Absent "a - $b |".toList) ∧
      (¬ ∀ rule : SpanRule, rule.rank < bold.rank → rule.Absent "a->b".toList) ∧
      converter.line "**a - $b |**".toList = (converter, .ok "\\textbf\x7ba - $b |\x7d".toList) ∧
      converter.line "*a - $b |*".toList = (converter, .ok "\\textit\x7ba - $b |\x7d".toList) ∧
      converter.line "**a->b**".toList = (converter, .ok "**a$\\rightarrow$b**".toList) ∧
      converter.line "*a->b*".toList = (converter, .ok "*a$\\rightarrow$b*".toList) := by
  intro converter
  have hreach : Reachable Settings.default converter := .obey _ (.obey _ (.obey _ (.endHead .new)))
  have hhead : converter.progress.mode.head = false := by decide +kernel
  have hblock : converter.progress.mode.inBlock = false := by decide +kernel
  have hlists : converter.progress.outline.levels = [] := by decide +kernel
  have habsent : ∀ rule : SpanRule, rule.rank < bold.rank → rule.Absent "a - $b |".toList := by
    intro rule hr
    have hread : rule.read ⟨false, false, []⟩ "a - $b |".toList = [.raw "a - $b |".toList] := by
      cases rule with
      | bold | italic => exact absurd hr (by decide)
      | _ => decide +kernel
    exact inert_iff_absent.1 ((read_eq_raw_iff (by decide)).1 hread (by cases rule <;> rfl))
  have hpresent : ¬ ∀ rule : SpanRule, rule.rank < bold.rank → rule.Absent "a->b".toList := fun h =>
    h .arrow (by decide) _ _ (.arrow (by decide : ⟨"->".toList, "rightarrow".toList⟩ ∈ Glyph.arrows)) (by decide)
  have hstart : ∀ v : Text, v.head? = some 'a' → ∀ c, v.head? = some c → Text.isBlank c = false := by
    rintro v ha c hc
    cases ha.symm.trans hc
    decide
  obtain ⟨same, -, hspans, -⟩ :=
    line_stars hreach hhead hblock hlists (v := "a - $b |".toList) (by decide) (by decide) (by decide)
  obtain ⟨text, htext, -, hapart⟩ :=
    line_stars hreach hhead hblock hlists (v := "a->b".toList) (by decide) (by decide) (by decide)
  obtain ⟨rfl, hbold, hitalic⟩ := hspans habsent
  obtain ⟨htwo, hone⟩ := hapart hpresent
  have hactual : (renderInline converter.progress.mode "a->b".toList).toOption = some "a$\\rightarrow$b".toList := by
    decide +kernel
  rw [htext] at hactual
  cases hactual
  exact ⟨habsent, hpresent, hbold, hitalic (hstart _ rfl), htwo, hone (hstart _ rfl)⟩

/-- An arrow between stars keeps them apart. -/
theorem not_line_stars :
    ¬ ∀ (converter : Converter) (v : Text), Reachable Settings.default converter →
      converter.progress.mode.head = false → converter.progress.mode.inBlock = false →
      converter.progress.outline.levels = [] → v ≠ [] → v.Starless → (∀ c ∈ v, c ≠ '\r' ∧ c ≠ '\n') →
      ∃ text, renderInline converter.progress.mode v = .ok text ∧
        (converter.line ("**".toList ++ v ++ "**".toList)).2 = .ok (Fragment.command "textbf" text) := by
  intro h
  obtain ⟨text, htext, hline⟩ :=
    h (Converter.new Settings.default).endHead "a->b".toList (.endHead .new) rfl rfl rfl (by decide) (by decide)
      (by decide)
  have hactual : (renderInline ⟨false, false, []⟩ "a->b".toList).toOption = some "a$\\rightarrow$b".toList := by
    decide +kernel
  have hsame : (renderInline ⟨false, false, []⟩ "a->b".toList).toOption = some text := congrArg Except.toOption htext
  cases hactual.symm.trans hsame
  have hclash := congrArg Except.toOption hline
  revert hclash
  decide +kernel

end Lines

end Converter

end Lectern
