import Lectern.Proofs.Spans

/-!
# What rules find behind backslashes

A backslash makes ordinary text of what a rule looks for. What a rule looks for starts with one of few characters, its
**triggers**; in front of any other character it finds nothing, with a backslash (`front?_backslash_eq_none`) or without
one (`front?_cons_eq_none`). Only the rules for glyphs look at more than one character. A text **masks** another
(`Masks`) if it differs from it in backslashes only, as far as glyphs are concerned: where a rule finds no glyph it
finds none either if the text that follows is masked (`front?_eq_none_of_masks`), and a glyph that it finds it finds
also behind a backslash and in front of masked text (`front?_guarded`).
-/

set_option autoImplicit false

namespace Lectern

/-! ## Masks -/

/-- In front of the first text there is nothing without a backslash that is not in front of the second. -/
def Masks (shown actual : Text) : Prop := ∀ s, '\\' ∉ s → s <+: shown → s <+: actual

theorem Masks.shorten {shown short actual : Text} (h : Masks shown actual) (hs : short <+: shown) :
    Masks short actual := fun s hn hp => h s hn (hp.trans hs)

theorem masks_of_head? {shown : Text} (h : ∀ c, shown.head? = some c → c = '\\') (actual : Text) :
    Masks shown actual := by
  intro s hn hp
  cases s with
  | nil => exact List.nil_prefix
  | cons c s =>
    obtain ⟨rest, rfl⟩ := hp
    exact absurd (h c rfl ▸ List.mem_cons_self) hn

theorem Masks.cons {shown actual : Text} (h : Masks shown actual) (c : Char) : Masks (c :: shown) (c :: actual) := by
  intro s hn hp
  cases s with
  | nil => exact List.nil_prefix
  | cons d s =>
    obtain ⟨rfl, htail⟩ := List.cons_prefix_cons.1 hp
    exact List.cons_prefix_cons.2 ⟨rfl, h s (fun hm => hn (List.mem_cons_of_mem _ hm)) htail⟩

theorem Masks.append_left {shown actual : Text} (h : Masks shown actual) (s : Text) :
    Masks (s ++ shown) (s ++ actual) := by
  induction s with
  | nil => exact h
  | cons c s ih => exact ih.cons c

/-! ## Glyphs behind backslashes -/

namespace Glyph

variable {table : List Glyph} {shown actual : Text}

theorem after?_eq_none_iff {lead s : Text} : Text.after? lead s = none ↔ ¬ lead <+: s := by
  rw [Option.eq_none_iff_forall_ne_some]
  constructor
  · rintro h ⟨rest, rfl⟩
    exact h rest (Text.after?_eq_some.2 rfl)
  · intro h rest hr
    exact h ⟨rest, (Text.after?_eq_some.1 hr).symm⟩

theorem startOf?_eq_none_iff {s : Text} : startOf? table s = none ↔ ∀ glyph ∈ table, ¬ glyph.sign <+: s := by
  rw [startOf?, List.findSome?_eq_none_iff]
  refine forall_congr' fun glyph => imp_congr_right fun _ => ?_
  rw [Option.map_eq_none_iff, after?_eq_none_iff]

/-- A glyph that is not in front of a text is not in front of what masks it. -/
theorem startOf?_eq_none_of_masks (ht : ∀ glyph ∈ table, '\\' ∉ glyph.sign) (h : startOf? table actual = none)
    (hm : Masks shown actual) : startOf? table shown = none := by
  rw [startOf?_eq_none_iff] at h ⊢
  intro glyph hg hp
  exact h glyph hg (hm glyph.sign (ht glyph hg) hp)

/-- A glyph in front of a text is found also in front of what masks the rest of the text. -/
theorem startOf?_eq_some_of_masks (ht : ∀ glyph ∈ table, '\\' ∉ glyph.sign) {glyph : Glyph}
    (h : startOf? table (glyph.sign ++ actual) = some (glyph, actual)) (hm : Masks shown actual) :
    startOf? table (glyph.sign ++ shown) = some (glyph, shown) := by
  obtain ⟨before, first, after, rfl, hfirst, hbefore⟩ := List.findSome?_eq_some_iff.1 h
  rw [Option.map_eq_some_iff] at hfirst
  obtain ⟨rest, hrest, hpair⟩ := hfirst
  obtain ⟨rfl, rfl⟩ := Prod.mk.inj hpair
  refine List.findSome?_eq_some_iff.2 ⟨before, first, after, rfl, ?_, fun other ho => ?_⟩
  · rw [Text.after?_eq_some.2 rfl]
    rfl
  · have hno := hbefore other ho
    rw [Option.map_eq_none_iff, after?_eq_none_iff] at hno ⊢
    intro hp
    exact hno (hm.append_left first.sign other.sign (ht other (List.mem_append_left _ ho)) hp)

end Glyph

namespace SpanRule

/-! ## Characters in which a rule takes no interest -/

/-- The characters that what a rule looks for starts with, but for a backslash. -/
def triggers : SpanRule → Text
  | .math => ['$']
  | .verbatim => ['|']
  | .arrow => ['<', '-', '=']
  | .comparison => ['>', '!']
  | .bold | .italic => ['*']

section Triggers

variable {rule : SpanRule} {c : Char} {s : Text}

theorem after?_cons_eq_none {lead : Text} {d : Char} (h : c ≠ d) : Text.after? (d :: lead) (c :: s) = none :=
  if_neg (Ne.symm h)

theorem after?_cons_self {lead : Text} : Text.after? (c :: lead) (c :: s) = Text.after? lead s := if_pos rfl

theorem enclosed?_cons_eq_none {opening closing : Text} {d : Char} (h : c ≠ d) :
    enclosed? (d :: opening) closing (c :: s) = none := by
  rw [enclosed?, after?_cons_eq_none h]

/-- A glyph is not in front of a character with which none starts. -/
theorem startOf?_cons_eq_none {table : List Glyph} {heads : Text}
    (ht : ∀ glyph ∈ table, glyph.sign.head?.any (heads.contains ·) = true) (hc : c ∉ heads) :
    Glyph.startOf? table (c :: s) = none := by
  rw [Glyph.startOf?_eq_none_iff]
  intro glyph hg hp
  have hhead := ht glyph hg
  cases hsign : glyph.sign with
  | nil => simp [hsign] at hhead
  | cons d sign =>
    rw [hsign] at hp hhead
    obtain ⟨rfl, -⟩ := List.cons_prefix_cons.1 hp
    exact hc (by simpa using hhead)

theorem startOf?_arrows_cons (hc : c ∉ triggers .arrow) : Glyph.startOf? Glyph.arrows (c :: s) = none :=
  startOf?_cons_eq_none (by decide) hc

theorem startOf?_comparisons_cons (hc : c ∉ triggers .comparison) :
    Glyph.startOf? Glyph.comparisons (c :: s) = none := startOf?_cons_eq_none (by decide) hc

/-- Without a backslash, a glyph is all that is looked for. -/
theorem glyphFront?_cons {table : List Glyph} {token : Glyph → Token} (hc : c ≠ '\\') :
    glyphFront? table token (c :: s) =
      (Glyph.startOf? table (c :: s)).map fun (glyph, rest) => (token glyph, rest) := by
  rw [glyphFront?, after?_cons_eq_none hc]
  rfl

/-- Behind a backslash, a glyph is all that is looked for as long as none starts with the backslash. -/
theorem glyphFront?_backslash {table : List Glyph} {token : Glyph → Token}
    (h : Glyph.startOf? table ('\\' :: s) = none) :
    glyphFront? table token ('\\' :: s) =
      (Glyph.startOf? table s).map fun (glyph, rest) => (.text glyph.sign, rest) := by
  have hafter : Text.after? ['\\'] ('\\' :: s) = some s := Text.after?_eq_some.2 rfl
  rw [glyphFront?, hafter, Option.bind_some, h]
  cases Glyph.startOf? table s <;> rfl

/-- A rule finds nothing at a character with which nothing starts that it looks for. -/
theorem front?_cons_eq_none (hc : c ≠ '\\') (ht : c ∉ rule.triggers) : rule.front? (c :: s) = none := by
  cases rule with
  | math =>
    have hd : c ≠ '$' := fun h => ht (h ▸ List.mem_cons_self)
    have hspan : mathSpan? (c :: s) = none := by
      simp only [mathSpan?, mathDelimiters, List.findSome?_cons]
      simp [enclosed?, Text.after?, Ne.symm hc, Ne.symm hd]
    rw [front?, mathFront?, show "\\$".toList = '\\' :: ['$'] from rfl, after?_cons_eq_none hc, hspan]
    rfl
  | verbatim =>
    have hd : c ≠ '|' := fun h => ht (h ▸ List.mem_cons_self)
    rw [front?, verbatimFront?.eq_3]
    · intro rest hs
      exact hc (List.cons.inj hs).1
    · intro rest hs
      exact hd (List.cons.inj hs).1
  | arrow => rw [front?, glyphFront?_cons hc, startOf?_arrows_cons ht]; rfl
  | comparison => rw [front?, glyphFront?_cons hc, startOf?_comparisons_cons ht]; rfl
  | bold =>
    have hd : c ≠ '*' := fun h => ht (h ▸ List.mem_cons_self)
    rw [front?, starFront?, show "**".toList = '*' :: ['*'] from rfl, after?_cons_eq_none hc, enclosed?_cons_eq_none hd]
    rfl
  | italic =>
    have hd : c ≠ '*' := fun h => ht (h ▸ List.mem_cons_self)
    rw [front?, starFront?, show "*".toList = '*' :: [] from rfl, after?_cons_eq_none hc, enclosed?_cons_eq_none hd]
    rfl

/-- Nor does it behind a backslash, where brackets and parentheses start math. -/
theorem front?_backslash_eq_none (ht : c ∉ rule.triggers) (hb : c ≠ '[' ∧ c ≠ '(') :
    rule.front? ('\\' :: c :: s) = none := by
  have hstar : '\\' ≠ '*' := by decide
  cases rule with
  | math =>
    have hd : c ≠ '$' := fun h => ht (h ▸ List.mem_cons_self)
    have hspan : mathSpan? ('\\' :: c :: s) = none := by
      simp only [mathSpan?, mathDelimiters, List.findSome?_cons]
      simp [enclosed?, Text.after?, Ne.symm hb.1, Ne.symm hb.2]
    have hafter : Text.after? "\\$".toList ('\\' :: c :: s) = none := by simp [Text.after?, Ne.symm hd]
    rw [front?, mathFront?, hafter, hspan]
    rfl
  | verbatim =>
    have hd : c ≠ '|' := fun h => ht (h ▸ List.mem_cons_self)
    rw [front?, verbatimFront?.eq_3]
    · intro rest hs
      exact hd (List.cons.inj (List.cons.inj hs).2).1
    · intro rest hs
      exact absurd (List.cons.inj hs).1 (by decide)
  | arrow =>
    rw [front?, glyphFront?_backslash (startOf?_arrows_cons (by decide)), startOf?_arrows_cons ht]
    rfl
  | comparison =>
    rw [front?, glyphFront?_backslash (startOf?_comparisons_cons (by decide)), startOf?_comparisons_cons ht]
    rfl
  | bold =>
    have hd : c ≠ '*' := fun h => ht (h ▸ List.mem_cons_self)
    have hafter : Text.after? ('\\' :: "**".toList) ('\\' :: c :: s) = none :=
      after?_cons_self.trans (after?_cons_eq_none hd)
    rw [front?, starFront?, hafter, show "**".toList = '*' :: ['*'] from rfl, enclosed?_cons_eq_none hstar]
    rfl
  | italic =>
    have hd : c ≠ '*' := fun h => ht (h ▸ List.mem_cons_self)
    have hafter : Text.after? ('\\' :: "*".toList) ('\\' :: c :: s) = none :=
      after?_cons_self.trans (after?_cons_eq_none hd)
    rw [front?, starFront?, hafter, show "*".toList = '*' :: [] from rfl, enclosed?_cons_eq_none hstar]
    rfl

/-- One star alone, behind a backslash or not, is not bold. -/
theorem inert_bold_star (hs : ∀ d, s.head? = some d → d ≠ '*') : bold.Inert ['\\', '*'] s := by
  have hafter : Text.after? ['*'] s = none := by
    cases s with
    | nil => rfl
    | cons d s => exact after?_cons_eq_none (hs d rfl)
  have hstar : bold.front? ('*' :: s) = none := by
    have henclosed : enclosed? "**".toList "**".toList ('*' :: s) = none := by
      rw [enclosed?, show Text.after? "**".toList ('*' :: s) = Text.after? ['*'] s from rfl, hafter]
    rw [front?, starFront?, after?_cons_eq_none (by decide), henclosed]
    rfl
  have hbackslash : bold.front? ('\\' :: '*' :: s) = none := by
    rw [front?, starFront?,
      show Text.after? ('\\' :: "**".toList) ('\\' :: '*' :: s) = Text.after? ['*'] s from rfl, hafter,
      show "**".toList = '*' :: ['*'] from rfl, enclosed?_cons_eq_none (by decide)]
    rfl
  exact .cons hbackslash (.cons hstar (.nil _ _))

/-- A rule finds nothing in a sign without its triggers, behind a backslash or not. -/
theorem inert_guarded {sign : Text} (hsign : sign ≠ [])
    (h : ∀ c ∈ sign, c ≠ '\\' ∧ c ∉ rule.triggers ∧ c ≠ '[' ∧ c ≠ '(') : rule.Inert ('\\' :: sign) s := by
  have hinert : rule.Inert sign s := by
    intro stretch hne hsuffix
    obtain ⟨c, stretch, rfl⟩ := List.exists_cons_of_ne_nil hne
    have hc := h c (hsuffix.subset List.mem_cons_self)
    exact front?_cons_eq_none hc.1 hc.2.1
  refine .cons ?_ hinert
  obtain ⟨c, sign, rfl⟩ := List.exists_cons_of_ne_nil hsign
  have hc := h c List.mem_cons_self
  exact front?_backslash_eq_none hc.2.1 hc.2.2

end Triggers

/-! ## Rules for glyphs -/

/-- The glyphs that a rule looks for. -/
def glyphs : SpanRule → List Glyph
  | .arrow => Glyph.arrows
  | .comparison => Glyph.comparisons
  | _ => []

section Glyphs

variable {rule : SpanRule} {c : Char} {s shown actual : Text}

theorem mem_of_mem_glyphs {glyph : Glyph} (h : glyph ∈ rule.glyphs) : glyph ∈ Glyph.arrows ++ Glyph.comparisons := by
  cases rule with
  | arrow => exact List.mem_append_left _ h
  | comparison => exact List.mem_append_right _ h
  | _ => cases h

theorem backslash_not_mem_glyphs : ∀ glyph ∈ rule.glyphs, '\\' ∉ glyph.sign := by
  cases rule <;> decide

theorem front?_eq_none_iff (hr : rule = .arrow ∨ rule = .comparison) (hc : c ≠ '\\') :
    rule.front? (c :: s) = none ↔ Glyph.startOf? rule.glyphs (c :: s) = none := by
  rcases hr with rfl | rfl <;> rw [front?, glyphFront?_cons hc, Option.map_eq_none_iff, glyphs]

theorem front?_backslash (hr : rule = .arrow ∨ rule = .comparison) :
    rule.front? ('\\' :: s) = (Glyph.startOf? rule.glyphs s).map fun (glyph, rest) => (.text glyph.sign, rest) := by
  rcases hr with rfl | rfl
  · exact glyphFront?_backslash (startOf?_arrows_cons (by decide))
  · exact glyphFront?_backslash (startOf?_comparisons_cons (by decide))

/-- Without a backslash, a rule for glyphs finds a glyph. -/
theorem exists_glyph_of_front? (hr : rule = .arrow ∨ rule = .comparison) {t : Token} {rest : Text} (hs : '\\' ∉ s)
    (h : rule.front? s = some (t, rest)) :
    ∃ glyph, (t = .arrow glyph ∨ t = .comparison glyph) ∧ Glyph.startOf? rule.glyphs s = some (glyph, rest) := by
  cases s with
  | nil => exact absurd (length_lt_of_front? h) (Nat.not_lt_zero _)
  | cons c s =>
    have hc : c ≠ '\\' := fun he => hs (he ▸ List.mem_cons_self)
    rcases hr with rfl | rfl <;> rw [front?, glyphFront?_cons hc, Option.map_eq_some_iff] at h
    · obtain ⟨⟨glyph, rest'⟩, hstart, hpair⟩ := h
      obtain ⟨rfl, rfl⟩ := Prod.mk.inj hpair
      exact ⟨glyph, .inl rfl, hstart⟩
    · obtain ⟨⟨glyph, rest'⟩, hstart, hpair⟩ := h
      obtain ⟨rfl, rfl⟩ := Prod.mk.inj hpair
      exact ⟨glyph, .inr rfl, hstart⟩

theorem startOf?_eq_none_of_masks (hr : rule = .arrow ∨ rule = .comparison) (hc : c ≠ '\\')
    (h : rule.front? (c :: actual) = none) (hm : Masks shown actual) :
    Glyph.startOf? rule.glyphs (c :: shown) = none :=
  Glyph.startOf?_eq_none_of_masks backslash_not_mem_glyphs ((front?_eq_none_iff hr hc).1 h) (hm.cons c)

/-- Where a rule finds no glyph it finds none either if the text that follows is masked. -/
theorem front?_eq_none_of_masks (hr : rule = .arrow ∨ rule = .comparison) (hc : c ≠ '\\')
    (h : rule.front? (c :: actual) = none) (hm : Masks shown actual) : rule.front? (c :: shown) = none :=
  (front?_eq_none_iff hr hc).2 (startOf?_eq_none_of_masks hr hc h hm)

/-- A stretch without glyphs has none either if the text that follows is masked, also behind a backslash. -/
theorem inert_guarded_of_masks (hr : rule = .arrow ∨ rule = .comparison) {sign : Text} (hsign : sign ≠ [])
    (hb : '\\' ∉ sign) (h : rule.Inert sign actual) (hm : Masks shown actual) : rule.Inert ('\\' :: sign) shown := by
  have hinert : rule.Inert sign shown := by
    intro stretch hne hsuffix
    have hactual := h stretch hne hsuffix
    obtain ⟨c, stretch, rfl⟩ := List.exists_cons_of_ne_nil hne
    have hc : c ≠ '\\' := fun he => hb (hsuffix.subset (he ▸ List.mem_cons_self))
    exact front?_eq_none_of_masks hr hc hactual (hm.append_left stretch)
  refine .cons ?_ hinert
  have hactual := h sign hsign (List.suffix_refl _)
  obtain ⟨c, sign, rfl⟩ := List.exists_cons_of_ne_nil hsign
  have hc : c ≠ '\\' := fun he => hb (he ▸ List.mem_cons_self)
  rw [List.cons_append, front?_backslash hr, List.cons_append,
    startOf?_eq_none_of_masks hr hc hactual (hm.append_left sign)]
  rfl

/-- A glyph behind a backslash is ordinary text, also if the text that follows is masked. -/
theorem front?_guarded (hr : rule = .arrow ∨ rule = .comparison) {glyph : Glyph}
    (h : Glyph.startOf? rule.glyphs (glyph.sign ++ actual) = some (glyph, actual)) (hm : Masks shown actual) :
    rule.front? ('\\' :: glyph.sign ++ shown) = some (.text glyph.sign, shown) := by
  rw [List.cons_append, front?_backslash hr, Glyph.startOf?_eq_some_of_masks backslash_not_mem_glyphs h hm]
  rfl

end Glyphs

end SpanRule

end Lectern
