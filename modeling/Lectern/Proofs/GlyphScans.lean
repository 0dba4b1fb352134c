import Lectern.Proofs.SpanEnds

/-!
# Glyphs from left to right

The signs of glyphs begin, end and overlap with each other. A table lists longer signs before shorter ones, so the first
one in front of a text is the **longest** (`longest_of_startOf?`), and since a rule looks at every place of a text, the
stretch in front of what it finds **lacks** all glyphs, also those that would end behind it (`lacks_of_inert`). What a
rule for glyphs makes of a text are such stretches, glyphs, and glyphs that a backslash makes ordinary text
(**`GlyphPiece`**). **`arrows_longest`** says so of arrows: the pieces are written one after the other as the text, each
arrow is the longest at its place, and behind a backslash, and only there, it is ordinary text.
-/

set_option autoImplicit false

namespace Lectern

/-! ## Places of glyphs -/

namespace Glyph

/-- The glyph is the longest one of a table with which a text starts. -/
structure Longest (table : List Glyph) (s : Text) (glyph : Glyph) : Prop where
  mem : glyph ∈ table
  starts : glyph.sign <+: s
  longest : ∀ other ∈ table, other.sign <+: s → other.sign.length ≤ glyph.sign.length

/-- No glyph of a table starts in a stretch of text, not even one that ends in the text behind it. -/
def Lacks (table : List Glyph) (stretch rest : Text) : Prop :=
  ∀ s, s ≠ [] → s <:+ stretch → ∀ glyph ∈ table, ¬ glyph.sign <+: s ++ rest

variable {table : List Glyph} {glyph : Glyph} {s stretch rest : Text}

/-- The first glyph in front of a text is the longest if longer ones come first in the table. -/
theorem longest_of_startOf? (hlonger : table.Pairwise fun first second => second.sign.length ≤ first.sign.length)
    (h : startOf? table s = some (glyph, rest)) : Longest table s glyph := by
  obtain ⟨hmem, rfl⟩ := startOf?_eq_some h
  refine ⟨hmem, List.prefix_append _ _, fun other hother hstarts => ?_⟩
  obtain ⟨before, first, after, rfl, hfirst, hbefore⟩ := List.findSome?_eq_some_iff.1 h
  obtain ⟨behind, -, hpair⟩ := Option.map_eq_some_iff.1 hfirst
  obtain ⟨rfl, rfl⟩ := Prod.mk.inj hpair
  rcases List.mem_append.1 hother with hother | hother
  · -- a glyph that comes earlier would have been found
    have hnone := hbefore other hother
    rw [Option.map_eq_none_iff, after?_eq_none_iff] at hnone
    exact absurd hstarts hnone
  · rcases List.mem_cons.1 hother with rfl | hother
    · exact Nat.le_refl _
    · exact List.rel_of_pairwise_cons (List.pairwise_append.1 hlonger).2.1 hother

/-- A stretch that lacks the glyphs of a table contains none of them. -/
theorem Lacks.not_infix (h : Lacks table stretch rest) (hmem : glyph ∈ table) (hne : glyph.sign ≠ []) :
    ¬ glyph.sign <:+: stretch := by
  rintro ⟨before, after, rfl⟩
  refine h (glyph.sign ++ after) (List.append_ne_nil_of_left_ne_nil hne _) ?_ glyph hmem ?_
  · rw [List.append_assoc]
    exact List.suffix_append _ _
  · rw [List.append_assoc]
    exact List.prefix_append _ _

end Glyph

/-! ## Pieces -/

/-- How what a rule for glyphs makes of a text is written: ordinary text has its backslash back. -/
def Token.glyphForm : Token → Text
  | .raw s => s
  | .arrow glyph | .comparison glyph => glyph.sign
  | .text content => '\\' :: content
  | _ => []

/-- What a rule for the glyphs of a table can make of a part of a text, between what is written before and behind. -/
inductive GlyphPiece (table : List Glyph) (token : Glyph → Token) (before behind : Text) : Token → Prop
  /-- In the part no glyph starts, and it contains none. -/
  | stretch (s : Text) : s ≠ [] → Glyph.Lacks table s behind → (∀ glyph ∈ table, ¬ glyph.sign <:+: s) →
      GlyphPiece table token before behind (.raw s)
  /-- The part is the longest glyph that starts there, and there is no backslash in front of it. -/
  | found (glyph : Glyph) : Glyph.Longest table (glyph.sign ++ behind) glyph → before.getLast? ≠ some '\\' →
      GlyphPiece table token before behind (token glyph)
  /-- The part is a backslash and the longest glyph that starts behind it. -/
  | escaped (glyph : Glyph) : Glyph.Longest table (glyph.sign ++ behind) glyph →
      GlyphPiece table token before behind (.text glyph.sign)

namespace SpanRule

/-- What a rule for glyphs makes of a glyph. -/
def glyphToken : SpanRule → Glyph → Token
  | .comparison => .comparison
  | _ => .arrow

@[simp] theorem glyphForm_glyphToken (rule : SpanRule) (glyph : Glyph) :
    (rule.glyphToken glyph).glyphForm = glyph.sign := by cases rule <;> rfl

section Glyphs

variable {rule : SpanRule} {glyph : Glyph} {t : Token} {s stretch rest : Text}

theorem longer_glyphs_first (rule : SpanRule) :
    rule.glyphs.Pairwise fun first second => second.sign.length ≤ first.sign.length := by
  cases rule <;> decide

/-- No glyph starts where a rule finds nothing. -/
theorem lacks_of_inert (hr : rule = .arrow ∨ rule = .comparison) (h : rule.Inert stretch rest) :
    Glyph.Lacks rule.glyphs stretch rest := by
  intro s hs hsuffix glyph hmem hstarts
  have hfront := h s hs hsuffix
  obtain ⟨c, s, rfl⟩ := List.exists_cons_of_ne_nil hs
  by_cases hc : c = '\\'
  · obtain ⟨d, sign, hsign⟩ := List.exists_cons_of_ne_nil (Glyph.sign_ne_nil (mem_of_mem_glyphs hmem))
    rw [hsign, List.cons_append] at hstarts
    obtain ⟨rfl, -⟩ := List.cons_prefix_cons.1 hstarts
    exact backslash_not_mem_glyphs glyph hmem (by rw [hsign, hc]; exact List.mem_cons_self)
  · rw [List.cons_append, front?_eq_none_iff hr hc, Glyph.startOf?_eq_none_iff] at hfront
    exact hfront glyph hmem hstarts

/-- A rule for glyphs finds the longest glyph in front of a text, or behind a backslash in front of it. -/
theorem longest_of_front? (hr : rule = .arrow ∨ rule = .comparison) (h : rule.front? s = some (t, rest)) :
    ∃ glyph, Glyph.Longest rule.glyphs (glyph.sign ++ rest) glyph ∧ s = t.glyphForm ++ rest ∧
      (t = .text glyph.sign ∨ t = rule.glyphToken glyph) := by
  cases s with
  | nil => exact absurd (length_lt_of_front? h) (Nat.not_lt_zero _)
  | cons c s =>
    by_cases hc : c = '\\'
    · subst hc
      rw [front?_backslash hr, Option.map_eq_some_iff] at h
      obtain ⟨⟨glyph, behind⟩, hstart, hpair⟩ := h
      obtain ⟨rfl, rfl⟩ := Prod.mk.inj hpair
      have hlongest := Glyph.longest_of_startOf? (longer_glyphs_first rule) hstart
      obtain ⟨-, rfl⟩ := Glyph.startOf?_eq_some hstart
      exact ⟨glyph, hlongest, rfl, .inl rfl⟩
    · have hfound : (Glyph.startOf? rule.glyphs (c :: s)).map (fun found => (rule.glyphToken found.1, found.2)) =
          some (t, rest) := by
        rcases hr with rfl | rfl <;> rw [front?, glyphFront?_cons hc] at h <;> exact h
      obtain ⟨⟨glyph, behind⟩, hstart, hpair⟩ := Option.map_eq_some_iff.1 hfound
      obtain ⟨rfl, rfl⟩ := Prod.mk.inj hpair
      have hlongest := Glyph.longest_of_startOf? (longer_glyphs_first rule) hstart
      obtain ⟨-, hs⟩ := Glyph.startOf?_eq_some hstart
      rw [hs] at hlongest
      exact ⟨glyph, hlongest, by rw [glyphForm_glyphToken, hs], .inr rfl⟩

/-- A glyph that a rule finds has no backslash in front of it, which would have been found first. -/
theorem getLast?_ne_of_inert (hr : rule = .arrow ∨ rule = .comparison) (h : rule.Inert stretch s)
    (hglyph : Glyph.Longest rule.glyphs s glyph) : stretch.getLast? ≠ some '\\' := by
  intro hlast
  obtain ⟨before, rfl⟩ := List.getLast?_eq_some_iff.1 hlast
  have hfront := h.right ['\\'] (List.cons_ne_nil _ _) (List.suffix_refl _)
  rw [List.singleton_append, front?_backslash hr, Option.map_eq_none_iff, Glyph.startOf?_eq_none_iff] at hfront
  exact hfront glyph hglyph.mem hglyph.starts

/-- The last character of a glyph is no backslash. -/
theorem getLast?_glyphForm_ne (hmem : glyph ∈ rule.glyphs)
    (ht : t = .text glyph.sign ∨ t = rule.glyphToken glyph) : t.glyphForm ≠ [] ∧ t.glyphForm.getLast? ≠ some '\\' := by
  have hne := Glyph.sign_ne_nil (mem_of_mem_glyphs hmem)
  have hsign : glyph.sign.getLast? ≠ some '\\' := fun hlast =>
    backslash_not_mem_glyphs glyph hmem (List.mem_of_getLast? hlast)
  rcases ht with rfl | rfl
  · refine ⟨List.cons_ne_nil _ _, ?_⟩
    obtain ⟨c, sign, hs⟩ := List.exists_cons_of_ne_nil hne
    rw [Token.glyphForm, hs, List.getLast?_cons_cons, ← hs]
    exact hsign
  · rw [glyphForm_glyphToken]
    exact ⟨hne, hsign⟩

/-! ## Whole texts -/

theorem glyphForm_rawIfAny (s : Text) : (Token.rawIfAny s).flatMap Token.glyphForm = s := by
  unfold Token.rawIfAny
  split
  · next hs => rw [hs]; rfl
  · exact List.append_nil s

/-- The pieces are written one after the other as the text. -/
theorem glyphForm_pieces (hr : rule = .arrow ∨ rule = .comparison) (s : Text) :
    (gather (rule.pieces s)).flatMap Token.glyphForm = s := by
  induction s using pieces_induction rule with
  | inert s hinert => rw [gather_pieces_of_inert hinert, glyphForm_rawIfAny]
  | span stretch s t rest hinert hfront ih =>
    obtain ⟨glyph, -, hs, -⟩ := longest_of_front? hr hfront
    rw [gather_pieces_append hinert hfront, List.flatMap_append, List.flatMap_cons, ih, glyphForm_rawIfAny, hs]

theorem glyphPiece_of_rawIfAny (hr : rule = .arrow ∨ rule = .comparison) (h : rule.Inert stretch rest)
    {before after : List Token} (hsplit : Token.rawIfAny stretch = before ++ t :: after) :
    after = [] ∧ GlyphPiece rule.glyphs rule.glyphToken (before.flatMap Token.glyphForm) rest t := by
  unfold Token.rawIfAny at hsplit
  split at hsplit
  · exact absurd hsplit.symm (List.append_ne_nil_of_right_ne_nil _ (List.cons_ne_nil _ _))
  · next hne =>
    have hlacks := lacks_of_inert hr h
    obtain ⟨rfl, rfl, rfl⟩ : before = [] ∧ t = .raw stretch ∧ after = [] := by
      cases before with
      | nil => cases hsplit; exact ⟨rfl, rfl, rfl⟩
      | cons u before => exact absurd (List.cons.inj hsplit).2.symm (by simp)
    exact ⟨rfl, .stretch _ hne hlacks fun glyph hmem =>
      hlacks.not_infix hmem (Glyph.sign_ne_nil (mem_of_mem_glyphs hmem))⟩

/-- Every piece is a stretch without glyphs, or the longest glyph at its place. -/
theorem glyphPiece_of_pieces (hr : rule = .arrow ∨ rule = .comparison) {before after : List Token}
    (h : gather (rule.pieces s) = before ++ t :: after) :
    GlyphPiece rule.glyphs rule.glyphToken (before.flatMap Token.glyphForm) (after.flatMap Token.glyphForm) t := by
  induction s using pieces_induction rule generalizing before after with
  | inert s hinert =>
    rw [gather_pieces_of_inert hinert] at h
    obtain ⟨rfl, hpiece⟩ := glyphPiece_of_rawIfAny hr hinert h
    exact hpiece
  | span stretch s u rest hinert hfront ih =>
    obtain ⟨glyph, hlongest, hs, hu⟩ := longest_of_front? hr hfront
    have hrest := glyphForm_pieces hr rest
    rw [gather_pieces_append hinert hfront] at h
    rcases mem_append_cons_cases h with ⟨between, hbefore, rfl⟩ | ⟨rfl, rfl, rfl⟩ | ⟨between, rfl, hafter⟩
    · -- the stretch in front of the first glyph
      obtain ⟨rfl, hpiece⟩ := glyphPiece_of_rawIfAny hr hinert hbefore
      rwa [List.nil_append, List.flatMap_cons, hrest, ← hs]
    · -- the first glyph
      rw [glyphForm_rawIfAny, hrest]
      rcases hu with rfl | rfl
      · exact .escaped glyph hlongest
      · rw [glyphForm_glyphToken] at hs
        exact .found glyph hlongest (getLast?_ne_of_inert hr hinert (hs ▸ hlongest))
    · -- a piece behind the first glyph, which ends in no backslash
      obtain ⟨hne, hlast⟩ := getLast?_glyphForm_ne hlongest.mem hu
      have hpiece := ih hafter
      generalize t = v at hpiece ⊢
      cases hpiece with
      | stretch v hv hlacks hnone => exact .stretch v hv hlacks hnone
      | escaped glyph hlongest => exact .escaped glyph hlongest
      | found glyph hlongest hbackslash =>
        refine .found glyph hlongest fun hlast' => ?_
        rw [List.flatMap_append, List.flatMap_cons, ← List.append_assoc, List.getLast?_append] at hlast'
        cases hbetween : (between.flatMap Token.glyphForm).getLast? with
        | some c =>
          rw [hbetween] at hlast' hbackslash
          exact hbackslash hlast'
        | none =>
          rw [hbetween, Option.none_or, List.getLast?_append, List.getLast?_eq_some_getLast hne, Option.some_or,
            ← List.getLast?_eq_some_getLast hne] at hlast'
          exact hlast hlast'

end Glyphs

end SpanRule

/-! ## Arrows -/

/-- **Arrows are found from left to right, and at each place the longest.** Unless a verbatim block is open, what the
rule for arrows makes of a text is written as the text. Every arrow, and every one that is ordinary text, is the longest
that starts at its place; the ones with a backslash in front, and no others, are ordinary text; and nothing that is left
between them contains an arrow. -/
theorem arrows_longest {mode : Mode} (hv : mode.verbatim = false) (s : Text) :
    (SpanRule.arrow.read mode s).flatMap Token.glyphForm = s ∧
      ∀ before t after, SpanRule.arrow.read mode s = before ++ t :: after →
        GlyphPiece Glyph.arrows .arrow (before.flatMap Token.glyphForm) (after.flatMap Token.glyphForm) t := by
  have hread : SpanRule.arrow.read mode s = SpanRule.gather (SpanRule.arrow.pieces s) := by
    simp [SpanRule.read, SpanRule.applies, hv]
  rw [hread]
  exact ⟨SpanRule.glyphForm_pieces (.inl rfl) s, fun before t after h => SpanRule.glyphPiece_of_pieces (.inl rfl) h⟩

/-- Signs overlap with those before and behind them, and backslashes stand in front of them and elsewhere. -/
theorem arrows_longest_overlaps :
    let mode : Mode := ⟨false, false, "$$".toList⟩
    let s := "<=<==>=>\\\\-->-\\<-=>\\a<".toList
    let before := [.arrow ⟨"<=".toList, "Leftarrow".toList⟩, .arrow ⟨"<==>".toList, "Longleftrightarrow".toList⟩,
      .arrow ⟨"=>".toList, "Rightarrow".toList⟩, .raw "\\".toList]
    let after := [.raw "-".toList, .text "<-".toList, .arrow ⟨"=>".toList, "Rightarrow".toList⟩, .raw "\\a<".toList]
    mode.verbatim = false ∧ SpanRule.arrow.read mode s = before ++ .text "-->".toList :: after ∧
      before.flatMap Token.glyphForm = "<=<==>=>\\".toList ∧
      GlyphPiece Glyph.arrows .arrow "<=<==>=>\\".toList "-\\<-=>\\a<".toList (.text "-->".toList) := by
  intro mode s before after
  have hread : SpanRule.arrow.read mode s = before ++ .text "-->".toList :: after := by decide +kernel
  have hv : mode.verbatim = false := rfl
  obtain ⟨-, hpieces⟩ := arrows_longest hv s
  exact ⟨hv, hread, by decide +kernel, hpieces before _ after hread⟩

end Lectern
