import Lectern.Proofs.InlineText

/-!
# Borders of a text

A rule takes no interest in characters that are not in its **alphabet**: it finds the same in front of a text with such
characters at its end (**`SpanRule.front?_append_foreign`**) and nothing in front of them (`SpanRule.inert_foreign`). A
border around a text that is foreign to the rule of its first span leaves that span where it is. If moreover no rule
makes anything of the border and a part of the text, then the border is written around the text as it stands
(**`renderInline_border`**).
-/

set_option autoImplicit false

namespace Lectern

/-! ## Characters in which a rule takes no interest -/

namespace Text

variable {lead delimiter border : Text}

theorem after?_append_foreign (h : ∀ c ∈ lead, c ∉ border) (s : Text) :
    after? lead (s ++ border) = (after? lead s).map (· ++ border) := by
  induction lead generalizing s with
  | nil => cases s <;> rfl
  | cons l lead ih =>
    obtain ⟨hl, hlead⟩ := List.forall_mem_cons.1 h
    cases s with
    | nil =>
      cases border with
      | nil => rfl
      | cons b border => exact SpanRule.after?_cons_eq_none fun he => hl (he ▸ List.mem_cons_self)
    | cons c s =>
      rw [List.cons_append, after?, after?]
      split
      · exact ih hlead s
      · rfl

theorem splitAt?_append_foreign (hne : delimiter ≠ []) (h : ∀ c ∈ delimiter, c ∉ border) (s : Text) :
    splitAt? delimiter (s ++ border) = (splitAt? delimiter s).map fun (before, rest) => (before, rest ++ border) := by
  induction s with
  | nil =>
    have hno : ∀ text : Text, (∀ c ∈ delimiter, c ∉ text) → splitAt? delimiter text = none := by
      intro text htext
      rw [← Option.not_isSome_iff_eq_none, isSome_splitAt?_iff]
      intro hpart
      obtain ⟨c, tail, rfl⟩ := List.exists_cons_of_ne_nil hne
      exact htext c List.mem_cons_self (hpart.subset List.mem_cons_self)
    rw [List.nil_append, hno border h, hno [] fun _ _ => List.not_mem_nil]
    rfl
  | cons c s ih =>
    have hafter := after?_append_foreign h (c :: s)
    rw [List.cons_append] at hafter ⊢
    rw [splitAt?, splitAt?, hafter, ih]
    cases after? delimiter (c :: s) with
    | some rest => rfl
    | none =>
      rw [Option.map_none]
      simp only [Option.map_map]
      rfl

end Text

/-- A change of everything that can be found first is a change of what is found first. -/
theorem findSome?_eq_map {α β γ : Type} {f : α → Option β} {g : α → Option γ} {k : β → γ} {xs : List α}
    (h : ∀ x ∈ xs, g x = (f x).map k) : xs.findSome? g = (xs.findSome? f).map k := by
  induction xs with
  | nil => rfl
  | cons x xs ih =>
    obtain ⟨hx, htail⟩ := List.forall_mem_cons.1 h
    rw [List.findSome?_cons, List.findSome?_cons, hx, ih htail]
    cases f x <;> rfl

theorem Glyph.startOf?_append_foreign {table : List Glyph} {border : Text}
    (h : ∀ glyph ∈ table, ∀ c ∈ glyph.sign, c ∉ border) (s : Text) :
    startOf? table (s ++ border) = (startOf? table s).map fun (glyph, rest) => (glyph, rest ++ border) := by
  rw [startOf?, startOf?]
  refine findSome?_eq_map fun glyph hmem => ?_
  rw [Text.after?_append_foreign (h glyph hmem), Option.map_map, Option.map_map]
  rfl

namespace SpanRule

/-- The characters that play a part in what a rule looks for. -/
def alphabet : SpanRule → Text
  | .math => "\\$[]()".toList
  | .verbatim => "\\|\n".toList
  | .arrow => "\\<-=>".toList
  | .comparison => "\\>=!".toList
  | .bold | .italic => "\\*".toList

section Foreign

variable {rule : SpanRule} {border : Text}

theorem enclosed?_append_foreign {opening closing : Text} (hne : closing ≠ []) (ho : ∀ c ∈ opening, c ∉ border)
    (hc : ∀ c ∈ closing, c ∉ border) (s : Text) :
    enclosed? opening closing (s ++ border) =
      (enclosed? opening closing s).map fun (body, rest) => (body, rest ++ border) := by
  rw [enclosed?, enclosed?, Text.after?_append_foreign ho]
  cases Text.after? opening s with
  | none => rfl
  | some tail =>
    cases tail with
    | nil =>
      -- the border is too foreign to hold the closing delimiter
      cases border with
      | nil => rfl
      | cons b border =>
        have hnone := Text.splitAt?_append_foreign hne (fun c hmem hb => hc c hmem (List.mem_cons_of_mem b hb)) []
        rw [List.nil_append] at hnone
        have hnil : Text.splitAt? closing [] = none := by
          obtain ⟨d, closing, rfl⟩ := List.exists_cons_of_ne_nil hne
          rfl
        rw [hnil] at hnone
        rw [Option.map_some, List.nil_append]
        simp only [hnone]
        rfl
    | cons c tail =>
      rw [Option.map_some, List.cons_append]
      simp only [Text.splitAt?_append_foreign hne hc, Option.map_map]
      rfl

theorem glyphFront?_append_foreign {table : List Glyph} {token : Glyph → Token} (hb : '\\' ∉ border)
    (h : ∀ glyph ∈ table, ∀ c ∈ glyph.sign, c ∉ border) (s : Text) :
    glyphFront? table token (s ++ border) =
      (glyphFront? table token s).map fun (t, rest) => (t, rest ++ border) := by
  have hbackslash : ∀ c ∈ ['\\'], c ∉ border := List.forall_mem_singleton.2 hb
  rw [glyphFront?, glyphFront?, Text.after?_append_foreign hbackslash, Glyph.startOf?_append_foreign h]
  cases Text.after? ['\\'] s with
  | none => cases Glyph.startOf? table s <;> rfl
  | some tail =>
    rw [Option.map_some, Option.bind_some, Option.bind_some, Glyph.startOf?_append_foreign h]
    cases Glyph.startOf? table tail with
    | some found => rfl
    | none => cases Glyph.startOf? table s <;> rfl

theorem mathFront?_append_foreign (h : ∀ c ∈ math.alphabet, c ∉ border) (s : Text) :
    mathFront? (s ++ border) = (mathFront? s).map fun (t, rest) => (t, rest ++ border) := by
  have hdelimiters : ∀ pair ∈ mathDelimiters, pair.2 ≠ [] ∧ (∀ c ∈ pair.1, c ∈ math.alphabet) ∧
      ∀ c ∈ pair.2, c ∈ math.alphabet := by decide
  have hescape : ∀ c ∈ "\\$".toList, c ∈ math.alphabet := by decide
  have hspan : mathSpan? (s ++ border) = (mathSpan? s).map fun (span, rest) => (span, rest ++ border) := by
    rw [mathSpan?, mathSpan?]
    refine findSome?_eq_map fun pair hmem => ?_
    obtain ⟨hne, ho, hc⟩ := hdelimiters pair hmem
    obtain ⟨opening, closing⟩ := pair
    simp only [enclosed?_append_foreign hne (fun c hmem => h c (ho c hmem)) fun c hmem => h c (hc c hmem),
      Option.map_map]
    rfl
  rw [mathFront?, mathFront?, Text.after?_append_foreign fun c hmem => h c (hescape c hmem), hspan]
  cases Text.after? "\\$".toList s with
  | some rest => rfl
  | none => cases mathSpan? s <;> rfl

theorem starFront?_append_foreign {stars : Text} {token : Text → Token} (hne : stars ≠ [])
    (h : ∀ c ∈ '\\' :: stars, c ∉ border) (s : Text) :
    starFront? stars token (s ++ border) = (starFront? stars token s).map fun (t, rest) => (t, rest ++ border) := by
  have hstars : ∀ c ∈ stars, c ∉ border := fun c hc => h c (List.mem_cons_of_mem _ hc)
  rw [starFront?, starFront?, Text.after?_append_foreign h, enclosed?_append_foreign hne hstars hstars]
  cases Text.after? ('\\' :: stars) s with
  | some rest => rfl
  | none => cases enclosed? stars stars s <;> rfl

/-- What stands in front of a text with foreign characters at its end stands in front of the text. -/
theorem prefix_of_append_foreign {form s : Text} (h : form <+: s ++ border) (hlast : ∀ c ∈ form.getLast?, c ∉ border) :
    form <+: s := by
  obtain ⟨rest, h⟩ := h
  rcases List.append_eq_append_iff.1 h with ⟨more, rfl, -⟩ | ⟨more, rfl, rfl⟩
  · exact List.prefix_append _ _
  · cases hmore : more.getLast? with
    | none =>
      exact ⟨[], by rw [List.getLast?_eq_none_iff.1 hmore, List.append_nil, List.append_nil]⟩
    | some c =>
      have hc : c ∈ (s ++ more).getLast? := Option.mem_def.2 (by rw [List.getLast?_append, hmore, Option.some_or])
      exact absurd (List.mem_append_left rest (List.mem_of_getLast? hmore)) (hlast c hc)

theorem verbatimFront?_append_foreign (h : ∀ c ∈ verbatim.alphabet, c ∉ border) (s : Text) :
    verbatimFront? (s ++ border) = (verbatimFront? s).map fun (t, rest) => (t, rest ++ border) := by
  have hbar : '|' ∉ border := h _ (by decide)
  cases hs : verbatimFront? s with
  | some found =>
    obtain ⟨t, rest⟩ := found
    obtain ⟨form, hfinds, rfl⟩ := exists_finds_of_front? (show verbatim.front? s = some (t, rest) from hs)
    cases hfinds with
    | bar => rfl
    | escapedGlyph hmem => cases hmem
    | @verbatim body hne hbody =>
      have hfound := verbatimFront?_bars hne hbody (rest ++ border)
      simpa using hfound
  | none =>
    cases hmore : verbatimFront? (s ++ border) with
    | none => rfl
    | some found =>
      obtain ⟨t, more⟩ := found
      obtain ⟨form, hfinds, hform⟩ := exists_finds_of_front? (show verbatim.front? (s ++ border) = some (t, more) from hmore)
      have hlast : ∀ c ∈ form.getLast?, c ∉ border := by
        cases hfinds with
        | bar => simpa using hbar
        | escapedGlyph hmem => cases hmem
        | @verbatim body =>
          have hend : (['|'] ++ body ++ ['|']).getLast? = some '|' := List.getLast?_concat
          simpa only [hend, Option.mem_some, forall_eq'] using hbar
      obtain ⟨rest, rfl⟩ := prefix_of_append_foreign ⟨more, hform.symm⟩ hlast
      have hsome : (verbatimFront? (form ++ rest)).isSome = true := isSome_front?_of_finds hfinds rest
      rw [hs] at hsome
      cases hsome

/-- What a rule finds does not depend on foreign characters at the end of the text. -/
theorem front?_append_foreign (h : ∀ c ∈ rule.alphabet, c ∉ border) (s : Text) :
    rule.front? (s ++ border) = (rule.front? s).map fun (t, rest) => (t, rest ++ border) := by
  have harrow : ∀ glyph ∈ Glyph.arrows, ∀ c ∈ glyph.sign, c ∈ arrow.alphabet := by decide
  have hcomparison : ∀ glyph ∈ Glyph.comparisons, ∀ c ∈ glyph.sign, c ∈ comparison.alphabet := by decide
  cases rule with
  | math => exact mathFront?_append_foreign h s
  | verbatim => exact verbatimFront?_append_foreign h s
  | arrow =>
    exact glyphFront?_append_foreign (h _ (by decide)) (fun glyph hmem c hc => h c (harrow glyph hmem c hc)) s
  | comparison =>
    exact glyphFront?_append_foreign (h _ (by decide)) (fun glyph hmem c hc => h c (hcomparison glyph hmem c hc)) s
  | bold => exact starFront?_append_foreign (by decide) (fun c hc => h c (by revert c; decide)) s
  | italic => exact starFront?_append_foreign (by decide) (fun c hc => h c (by revert c; decide)) s

/-- A rule finds nothing in front of foreign characters. -/
theorem inert_foreign (h : ∀ c ∈ rule.alphabet, c ∉ border) (rest : Text) : rule.Inert border rest := by
  have hbackslash : '\\' ∈ rule.alphabet := by cases rule <;> decide
  have htriggers : ∀ c ∈ rule.triggers, c ∈ rule.alphabet := by cases rule <;> decide
  intro s hs hsuffix
  obtain ⟨c, s, rfl⟩ := List.exists_cons_of_ne_nil hs
  have hc : c ∈ border := hsuffix.subset List.mem_cons_self
  refine front?_cons_eq_none ?_ fun hmem => h c (htriggers c hmem) hc
  rintro rfl
  exact h _ hbackslash hc

end Foreign

/-! ## First spans between borders -/

section Borders

variable {rule : SpanRule} {border stretch more s rest : Text} {t : Token}

theorem Inert.append (h : rule.Inert stretch (more ++ rest)) (hm : rule.Inert more rest) :
    rule.Inert (stretch ++ more) rest := by
  induction stretch with
  | nil => exact hm
  | cons c stretch ih =>
    have hc := h (c :: stretch) (List.cons_ne_nil _ _) (List.suffix_refl _)
    rw [← List.append_assoc] at hc
    exact .cons hc (ih h.of_cons)

/-- What a rule finds in front of any part of a text does not depend on a border behind it. -/
structure Ignores (rule : SpanRule) (s border : Text) : Prop where
  front : ∀ u, u <:+: s → rule.front? (u ++ border) = (rule.front? u).map fun (t, rest) => (t, rest ++ border)
  border : rule.Inert border []

theorem ignores_foreign (h : ∀ c ∈ rule.alphabet, c ∉ border) (s : Text) : rule.Ignores s border where
  front := fun u _ => front?_append_foreign h u
  border := inert_foreign h []

theorem Ignores.part (h : rule.Ignores s border) (hs : stretch <:+: s) : rule.Ignores stretch border where
  front := fun u hu => h.front u (hu.trans hs)
  border := h.border

/-- A stretch stays inert. -/
theorem Ignores.inert (hi : rule.Ignores (stretch ++ rest) border) (h : rule.Inert stretch rest) :
    rule.Inert stretch (rest ++ border) := by
  intro s hs hsuffix
  obtain ⟨before, rfl⟩ := hsuffix
  have hpart : s ++ rest <:+: before ++ s ++ rest := ⟨before, [], by simp⟩
  rw [← List.append_assoc, hi.front _ hpart, h s hs (List.suffix_append _ _)]
  rfl

theorem FirstSpan.append_border (h : FirstSpan rule stretch s t rest)
    (hi : ∀ other : SpanRule, other.rank ≤ rule.rank → other.Ignores (stretch ++ s) border) :
    FirstSpan rule stretch (s ++ border) t (rest ++ border) where
  before := fun other ho => by
    have hother := hi other (Nat.le_of_lt ho)
    rw [← List.append_nil (stretch ++ s)] at hother
    have hinert := hother.inert (h.before other ho)
    rw [List.nil_append] at hinert
    rw [← List.append_assoc]
    exact .append (by rwa [List.append_nil]) hother.border
  inert := (hi rule (Nat.le_refl _)).inert h.inert
  front := by rw [(hi rule (Nat.le_refl _)).front s (List.suffix_append _ _).isInfix, h.front]; rfl

theorem FirstSpan.prepend_border (h : FirstSpan rule stretch s t rest)
    (hi : ∀ other : SpanRule, other.rank ≤ rule.rank → other.Inert border (stretch ++ s)) :
    FirstSpan rule (border ++ stretch) s t rest where
  before := fun other ho => by
    rw [List.append_assoc]
    exact .append (by rw [List.append_nil]; exact hi other (Nat.le_of_lt ho)) (h.before other ho)
  inert := .append (hi rule (Nat.le_refl _)) h.inert
  front := h.front

end Borders

end SpanRule

/-! ## Texts between borders -/

section Rendering

open SpanRule

variable {mode : Mode} {border s text : Text}

/-- A border of which nothing is made with any part of a text is written in front of the text. -/
theorem renderInline_prepend_border (hm : mode.inBlock = false) (hs : ∀ c ∈ border ++ s, c ≠ '\r' ∧ c ≠ '\n')
    (hi : ∀ u, u <:+: s → ∀ rule : SpanRule, rule.Inert border u) (h : renderInline mode s = .ok text) :
    renderInline mode (border ++ s) = .ok (border ++ text) := by
  induction s using readInline_induction generalizing text with
  | inert s hinert =>
    have hall : ∀ rule : SpanRule, rule.Inert (border ++ s) [] := fun rule =>
      .append (by rw [List.append_nil]; exact hi s List.infix_rfl rule) (hinert rule)
    rw [renderInline_of_inert hm hinert fun c hc => hs c (List.mem_append_right _ hc)] at h
    cases h
    exact renderInline_of_inert hm hall hs
  | span rule stretch s t rest hfirst ih _ =>
    obtain ⟨before, fragment, after, hbefore, hfragment, hafter, hwhole⟩ := exists_renderInline_of_firstSpan hm hfirst
    rw [hwhole] at h
    cases h
    have hstretch : stretch <:+: stretch ++ s := (List.prefix_append _ _).isInfix
    have hlead := ih (fun c hc => hs c (by rw [← List.append_assoc]; exact List.mem_append_left _ hc))
      (fun u hu => hi u (hu.trans hstretch)) hbefore
    have hmore := renderInline_of_firstSpan hm (hfirst.prepend_border fun other _ => hi _ List.infix_rfl other) hlead
      hfragment hafter
    rw [List.append_assoc] at hmore
    rw [hmore]
    simp only [List.append_assoc]

/-- A border that all rules ignore is written behind the text. -/
theorem renderInline_append_border (hm : mode.inBlock = false) (hs : ∀ c ∈ s ++ border, c ≠ '\r' ∧ c ≠ '\n')
    (hi : ∀ rule : SpanRule, rule.Ignores s border) (h : renderInline mode s = .ok text) :
    renderInline mode (s ++ border) = .ok (text ++ border) := by
  induction s using readInline_induction generalizing text with
  | inert s hinert =>
    have hall : ∀ rule : SpanRule, rule.Inert (s ++ border) [] := fun rule => by
      have hignores := hi rule
      rw [← List.append_nil s] at hignores
      exact .append (by rw [List.append_nil]; exact hignores.inert (hinert rule)) hignores.border
    rw [renderInline_of_inert hm hinert fun c hc => hs c (List.mem_append_left _ hc)] at h
    cases h
    exact renderInline_of_inert hm hall hs
  | span rule stretch s t rest hfirst _ ih =>
    obtain ⟨before, fragment, after, hbefore, hfragment, hafter, hwhole⟩ := exists_renderInline_of_firstSpan hm hfirst
    rw [hwhole] at h
    cases h
    have hrest : rest <:+: stretch ++ s := hfirst.rest_infix
    have htail := ih (fun c hc => hs c (by
      rcases List.mem_append.1 hc with hc | hc
      · exact List.mem_append_left _ (hrest.subset hc)
      · exact List.mem_append_right _ hc)) (fun other => (hi other).part hrest) hafter
    have hmore := renderInline_of_firstSpan hm (hfirst.append_border fun other _ => hi other) hbefore hfragment htail
    rw [List.append_assoc, hmore]
    simp only [List.append_assoc]

/-- **A border on both sides of a text stays as it is** if it is foreign to the rule of the first span and the rules
before, and if no rule makes anything of it with any part of the text. -/
theorem renderInline_border (hm : mode.inBlock = false) {rule : SpanRule} {stretch rest : Text} {t : Token}
    (hfirst : FirstSpan rule stretch s t rest) (hs : ∀ c ∈ border ++ (stretch ++ s), c ≠ '\r' ∧ c ≠ '\n')
    (hforeign : ∀ other : SpanRule, other.rank ≤ rule.rank → ∀ c ∈ other.alphabet, c ∉ border)
    (hleft : ∀ u, u <:+: stretch ++ s → ∀ rule : SpanRule, rule.Inert border u)
    (hright : ∀ rule : SpanRule, rule.Ignores (stretch ++ s) border) (h : renderInline mode (stretch ++ s) = .ok text) :
    renderInline mode (border ++ (stretch ++ s) ++ border) = .ok (border ++ text ++ border) := by
  obtain ⟨before, fragment, after, hbefore, hfragment, hafter, hwhole⟩ := exists_renderInline_of_firstSpan hm hfirst
  rw [hwhole] at h
  cases h
  have hstretch : stretch <:+: stretch ++ s := (List.prefix_append _ _).isInfix
  have hrest : rest <:+: stretch ++ s := hfirst.rest_infix
  have hlead := renderInline_prepend_border hm (fun c hc => hs c (by
    rw [← List.append_assoc]
    exact List.mem_append_left _ hc)) (fun u hu => hleft u (hu.trans hstretch)) hbefore
  have htail := renderInline_append_border hm (fun c hc => hs c (by
    rcases List.mem_append.1 hc with hc | hc
    · exact List.mem_append_right _ (hrest.subset hc)
    · exact List.mem_append_left _ hc)) (fun other => (hright other).part hrest) hafter
  have hboth : FirstSpan rule (border ++ stretch) (s ++ border) t (rest ++ border) :=
    (hfirst.append_border fun other ho => ignores_foreign (hforeign other ho) _).prepend_border
      fun other ho => inert_foreign (hforeign other ho) _
  have hmore := renderInline_of_firstSpan hm hboth hlead hfragment htail
  simp only [List.append_assoc] at hmore ⊢
  exact hmore

end Rendering

end Lectern
