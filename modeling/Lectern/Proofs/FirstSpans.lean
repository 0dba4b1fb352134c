import Lectern.Proofs.Backslashes
import Lectern.Proofs.Stages

/-!
# First spans

What a rule can find is told by its written form alone (`SpanRule.Finds`): a rule finds something in a text if and only
if such a form stands anywhere in it (**`SpanRule.inert_iff_absent`**). Of all the rules that find something in a text,
the first one in order takes its leftmost span (**`SpanRule.FirstSpan`**), and the texts on both sides of the span are
then read as if they stood alone (**`readInline_of_firstSpan`**). So what holds of texts in which no rule finds
anything, and of a text with a first span if it does of both sides, holds of all texts (`readInline_induction`).
-/

set_option autoImplicit false

namespace Lectern

/-! ## Delimiters -/

namespace Text

variable {c : Char} {delimiter s before rest : Text}

/-- The first delimiter is the one behind a text that does not have its first character. -/
theorem splitAt?_append_cons (h : c ∉ before) :
    splitAt? (c :: delimiter) (before ++ (c :: delimiter ++ rest)) = some (before, rest) := by
  induction before with
  | nil =>
    have hafter : after? (c :: delimiter) (c :: (delimiter ++ rest)) = some rest := after?_eq_some.2 rfl
    rw [List.nil_append, List.cons_append, splitAt?, hafter]
  | cons d before ih =>
    rw [List.mem_cons, not_or] at h
    rw [List.cons_append, splitAt?, SpanRule.after?_cons_eq_none (Ne.symm h.1), ih h.2]
    rfl

theorem isSome_splitAt?_append_self (delimiter before : Text) :
    (splitAt? delimiter (before ++ delimiter)).isSome = true := by
  induction before with
  | nil =>
    cases delimiter with
    | nil => rfl
    | cons d delimiter =>
      have hafter : after? (d :: delimiter) (d :: delimiter) = some [] := after?_eq_some.2 (List.append_nil _).symm
      rw [List.nil_append, splitAt?, hafter]
      rfl
  | cons d before ih =>
    rw [List.cons_append, splitAt?]
    split
    · rfl
    · rwa [Option.isSome_map]

/-- A text can be cut where a delimiter stands in it. -/
theorem isSome_splitAt?_iff : (splitAt? delimiter s).isSome = true ↔ delimiter <:+: s := by
  constructor
  · intro h
    obtain ⟨⟨before, rest⟩, hsplit⟩ := Option.isSome_iff_exists.1 h
    exact ⟨before, rest, (splitAt?_eq_some hsplit).symm⟩
  · rintro ⟨before, rest, rfl⟩
    exact isSome_splitAt?_append (isSome_splitAt?_append_self delimiter before) rest

end Text

namespace SpanRule

section Enclosed

variable {opening closing s body rest : Text}

theorem ne_nil_of_enclosed? (h : enclosed? opening closing s = some (body, rest)) : body ≠ [] := by
  unfold enclosed? at h
  split at h
  · rw [Option.map_eq_some_iff] at h
    obtain ⟨found, -, hpair⟩ := h
    rw [← (Prod.mk.inj hpair).1]
    exact List.cons_ne_nil _ _
  · cases h

theorem isSome_enclosed? (hbody : body ≠ []) :
    (enclosed? opening closing (opening ++ body ++ closing)).isSome = true := by
  obtain ⟨c, tail, rfl⟩ := List.exists_cons_of_ne_nil hbody
  have hafter : Text.after? opening (opening ++ c :: tail ++ closing) = some (c :: (tail ++ closing)) :=
    Text.after?_eq_some.2 (List.append_assoc _ _ _)
  rw [enclosed?, hafter, Option.isSome_map]
  exact Text.isSome_splitAt?_append_self closing tail

end Enclosed

/-! ## What rules can find -/

/-- What a rule can find: the token, and how it is written. -/
inductive Finds : SpanRule → Token → Text → Prop
  | dollar : Finds .math (.text "\\$".toList) "\\$".toList
  | math {opening closing body : Text} : (opening, closing) ∈ mathDelimiters → body ≠ [] →
      Finds .math (.math (opening ++ body ++ closing)) (opening ++ body ++ closing)
  | bar : Finds .verbatim (.text ['|']) "\\|".toList
  | verbatim {body : Text} : body ≠ [] → (∀ c ∈ body, c ≠ '|' ∧ c ≠ '\n') →
      Finds .verbatim (.verbatim body) (['|'] ++ body ++ ['|'])
  | escapedGlyph {rule : SpanRule} {glyph : Glyph} : glyph ∈ rule.glyphs →
      Finds rule (.text glyph.sign) ('\\' :: glyph.sign)
  | arrow {glyph : Glyph} : glyph ∈ Glyph.arrows → Finds .arrow (.arrow glyph) glyph.sign
  | comparison {glyph : Glyph} : glyph ∈ Glyph.comparisons → Finds .comparison (.comparison glyph) glyph.sign
  | twoStars : Finds .bold (.text "**".toList) "\\**".toList
  | bold {body : Text} : body ≠ [] → Finds .bold (.bold body) ("**".toList ++ body ++ "**".toList)
  | star : Finds .italic (.text "*".toList) "\\*".toList
  | italic {body : Text} : body ≠ [] → Finds .italic (.italic body) ("*".toList ++ body ++ "*".toList)

/-- Nothing stands in a text that a rule can find. -/
def Absent (rule : SpanRule) (s : Text) : Prop := ∀ t form, rule.Finds t form → ¬ form <:+: s

section Finds

variable {rule : SpanRule} {s rest stretch form : Text} {t : Token}

theorem exists_finds_of_mathFront? (h : mathFront? s = some (t, rest)) :
    ∃ form, math.Finds t form ∧ s = form ++ rest := by
  unfold mathFront? at h
  split at h
  · next tail hafter =>
    obtain ⟨rfl, rfl⟩ := Prod.mk.inj (Option.some.inj h)
    exact ⟨_, .dollar, Text.after?_eq_some.1 hafter⟩
  · rw [Option.map_eq_some_iff] at h
    obtain ⟨⟨span, tail⟩, hspan, hpair⟩ := h
    obtain ⟨rfl, rfl⟩ := Prod.mk.inj hpair
    obtain ⟨⟨opening, closing⟩, hmem, hfound⟩ := List.exists_of_findSome?_eq_some hspan
    rw [Option.map_eq_some_iff] at hfound
    obtain ⟨⟨body, tail'⟩, henclosed, hpair⟩ := hfound
    obtain ⟨rfl, rfl⟩ := Prod.mk.inj hpair
    exact ⟨_, .math hmem (ne_nil_of_enclosed? henclosed), eq_of_enclosed? henclosed⟩

theorem exists_finds_of_verbatimFront? (h : verbatimFront? s = some (t, rest)) :
    ∃ form, verbatim.Finds t form ∧ s = form ++ rest := by
  unfold verbatimFront? at h
  split at h
  · next tail =>
    obtain ⟨rfl, rfl⟩ := Prod.mk.inj (Option.some.inj h)
    exact ⟨_, .bar, rfl⟩
  · next tail =>
    have hwhole := List.takeWhile_append_dropWhile (p := fun c => c != '|' && c != '\n') (l := tail)
    have hbody : ∀ c ∈ tail.takeWhile (fun c => c != '|' && c != '\n'), c ≠ '|' ∧ c ≠ '\n' := fun c hc => by
      simpa using List.all_eq_true.1 List.all_takeWhile c hc
    simp only at h
    split at h
    · cases h
    · next hdrop hne =>
      obtain ⟨rfl, rfl⟩ := Prod.mk.inj (Option.some.inj h)
      refine ⟨_, .verbatim hne hbody, ?_⟩
      rw [hdrop] at hwhole
      exact (congrArg (List.cons '|') hwhole.symm).trans (by simp)
    · cases h
  · cases h

theorem exists_finds_of_starFront? {stars : Text} {token : Text → Token}
    (hescaped : rule.Finds (.text stars) ('\\' :: stars))
    (hspan : ∀ body, body ≠ [] → rule.Finds (token body) (stars ++ body ++ stars))
    (h : starFront? stars token s = some (t, rest)) : ∃ form, rule.Finds t form ∧ s = form ++ rest := by
  unfold starFront? at h
  split at h
  · next tail hafter =>
    obtain ⟨rfl, rfl⟩ := Prod.mk.inj (Option.some.inj h)
    exact ⟨_, hescaped, Text.after?_eq_some.1 hafter⟩
  · rw [Option.map_eq_some_iff] at h
    obtain ⟨⟨body, tail⟩, henclosed, hpair⟩ := h
    obtain ⟨rfl, rfl⟩ := Prod.mk.inj hpair
    exact ⟨_, hspan body (ne_nil_of_enclosed? henclosed), eq_of_enclosed? henclosed⟩

/-- What a rule finds in front of a text is something that it can find, and it stands there. -/
theorem exists_finds_of_front? (h : rule.front? s = some (t, rest)) : ∃ form, rule.Finds t form ∧ s = form ++ rest := by
  cases rule with
  | math => exact exists_finds_of_mathFront? h
  | verbatim => exact exists_finds_of_verbatimFront? h
  | arrow =>
    obtain ⟨glyph, hmem, ⟨rfl, hs⟩ | ⟨rfl, hs⟩⟩ := exists_glyph_of_glyphFront? h
    · exact ⟨_, .escapedGlyph hmem, hs⟩
    · exact ⟨_, .arrow hmem, hs⟩
  | comparison =>
    obtain ⟨glyph, hmem, ⟨rfl, hs⟩ | ⟨rfl, hs⟩⟩ := exists_glyph_of_glyphFront? h
    · exact ⟨_, .escapedGlyph hmem, hs⟩
    · exact ⟨_, .comparison hmem, hs⟩
  | bold => exact exists_finds_of_starFront? .twoStars (fun _ => .bold) h
  | italic => exact exists_finds_of_starFront? .star (fun _ => .italic) h

theorem isSome_startOf?_sign {table : List Glyph} {glyph : Glyph} (h : glyph ∈ table) :
    (Glyph.startOf? table glyph.sign).isSome = true := by
  rw [Glyph.startOf?, List.findSome?_isSome_iff]
  refine ⟨glyph, h, ?_⟩
  rw [Text.after?_eq_some.2 (List.append_nil _).symm]
  rfl

theorem isSome_glyphFront?_sign {table : List Glyph} {token : Glyph → Token} {glyph : Glyph} (h : glyph ∈ table) :
    (glyphFront? table token glyph.sign).isSome = true := by
  unfold glyphFront?
  split
  · rfl
  · rw [Option.isSome_map]
    exact isSome_startOf?_sign h

theorem isSome_front?_escapedGlyph {glyph : Glyph} (h : glyph ∈ rule.glyphs) :
    (rule.front? ('\\' :: glyph.sign)).isSome = true := by
  have hr : rule = .arrow ∨ rule = .comparison := by
    cases rule with
    | arrow => exact .inl rfl
    | comparison => exact .inr rfl
    | _ => cases h
  rw [front?_backslash hr, Option.isSome_map]
  exact isSome_startOf?_sign h

theorem isSome_mathFront?_span {opening closing body : Text} (hmem : (opening, closing) ∈ mathDelimiters)
    (hbody : body ≠ []) : (mathFront? (opening ++ body ++ closing)).isSome = true := by
  unfold mathFront?
  split
  · rfl
  · rw [Option.isSome_map, mathSpan?, List.findSome?_isSome_iff]
    refine ⟨(opening, closing), hmem, ?_⟩
    rw [Option.isSome_map]
    exact isSome_enclosed? hbody

theorem isSome_starFront?_span {stars body : Text} {token : Text → Token} (hbody : body ≠ []) :
    (starFront? stars token (stars ++ body ++ stars)).isSome = true := by
  unfold starFront?
  split
  · rfl
  · rw [Option.isSome_map]
    exact isSome_enclosed? hbody

/-- Where something stands that a rule can find, the rule finds that or something else. -/
theorem isSome_front?_of_finds (h : rule.Finds t form) (rest : Text) : (rule.front? (form ++ rest)).isSome = true := by
  refine isSome_front?_append ?_ rest
  cases h with
  | dollar | bar | twoStars | star => rfl
  | math hmem hbody => exact isSome_mathFront?_span hmem hbody
  | verbatim hne hbody =>
    rw [front?, List.append_assoc, List.singleton_append, verbatimFront?_bars hne hbody]
    rfl
  | escapedGlyph hmem => exact isSome_front?_escapedGlyph hmem
  | arrow hmem | comparison hmem => exact isSome_glyphFront?_sign hmem
  | bold hbody | italic hbody =>
    rw [front?]
    exact isSome_starFront?_span hbody

/-- **A rule finds nothing in a text if and only if nothing stands in it that the rule can find.** -/
theorem inert_iff_absent : rule.Inert s [] ↔ rule.Absent s := by
  constructor
  · rintro h t form hfinds ⟨before, after, rfl⟩
    have hne : form ++ after ≠ [] := by
      rintro hnil
      have hsome := isSome_front?_of_finds hfinds after
      rw [hnil] at hsome
      obtain ⟨⟨u, rest⟩, hfront⟩ := Option.isSome_iff_exists.1 hsome
      exact absurd (length_lt_of_front? hfront) (Nat.not_lt_zero _)
    have hnone := h (form ++ after) hne ⟨before, (List.append_assoc _ _ _).symm⟩
    have hsome := isSome_front?_of_finds hfinds after
    rw [List.append_nil] at hnone
    rw [hnone] at hsome
    cases hsome
  · intro h suffix hne hsuffix
    rw [List.append_nil]
    cases hfront : rule.front? suffix with
    | none => rfl
    | some found =>
      obtain ⟨t, rest⟩ := found
      obtain ⟨form, hfinds, hs⟩ := exists_finds_of_front? hfront
      have hstarts : form <+: suffix := ⟨rest, hs.symm⟩
      exact absurd (hstarts.isInfix.trans hsuffix.isInfix) (h _ _ hfinds)

end Finds

/-! ## The first span of a text -/

/-- The first span of a text, which is found by a rule behind a stretch. -/
structure FirstSpan (rule : SpanRule) (stretch s : Text) (t : Token) (rest : Text) : Prop where
  /-- The rules that come before find nothing in the whole text. -/
  before : ∀ other : SpanRule, other.rank < rule.rank → other.Inert (stretch ++ s) []
  inert : rule.Inert stretch s
  front : rule.front? s = some (t, rest)

/-- What is behind a first span is part of the text. -/
theorem FirstSpan.rest_infix {rule : SpanRule} {stretch s rest : Text} {t : Token}
    (h : FirstSpan rule stretch s t rest) : rest <:+: stretch ++ s := by
  obtain ⟨form, -, rfl⟩ := exists_finds_of_front? h.front
  exact ((List.suffix_append form rest).trans (List.suffix_append stretch _)).isInfix

/-- Rules find nothing in a text, or there is a first span. -/
theorem exists_firstSpan (text : Text) :
    (∀ rule : SpanRule, rule.Inert text []) ∨
      ∃ rule stretch s t rest, text = stretch ++ s ∧ FirstSpan rule stretch s t rest := by
  -- the rules are gone through in order, as long as they find nothing
  have hbelow : ∀ bound, (∀ rule : SpanRule, rule.rank < bound → rule.Inert text []) ∨
      ∃ rule stretch s t rest, text = stretch ++ s ∧ FirstSpan rule stretch s t rest := by
    intro bound
    induction bound with
    | zero => exact .inl fun rule hr => absurd hr (Nat.not_lt_zero _)
    | succ bound ih =>
      rcases ih with hinert | hfirst
      · by_cases hnext : ∀ rule : SpanRule, rule.rank = bound → rule.Inert text []
        · refine .inl fun rule hr => ?_
          rcases Nat.lt_succ_iff_lt_or_eq.1 hr with hr | hr
          · exact hinert rule hr
          · exact hnext rule hr
        · obtain ⟨rule, hr⟩ := Classical.not_forall.1 hnext
          obtain ⟨hrank, hno⟩ := Classical.not_imp.1 hr
          rcases rule.pieces_cases text with h | ⟨stretch, s, t, rest, rfl, h, hs⟩
          · exact absurd h hno
          · exact .inr ⟨rule, stretch, s, t, rest, rfl, fun other ho => hinert other (hrank ▸ ho), h, hs⟩
      · exact .inr hfirst
  rcases hbelow 6 with h | h
  · exact .inl fun rule => h rule (by cases rule <;> decide)
  · exact .inr h

end SpanRule

/-! ## Both sides of the first span -/

section Reading

open SpanRule

variable {mode : Mode} {rule : SpanRule} {stretch s rest : Text} {t : Token}

theorem readInline_nil (mode : Mode) : readInline mode [] = [] := by
  rw [readInline, Token.rawIfAny, if_pos rfl, settle]

/-- Rules that find nothing can be left out in the beginning. -/
theorem readInline_eq_settle_read (h : ∀ other : SpanRule, other.rank < rule.rank → other.Inert s []) :
    readInline mode s = settle mode (rule.read mode s) := by
  obtain ⟨before, after, hall⟩ := List.append_of_mem (mem_all rule)
  have hsettled : AllSettledBy mode before (Token.rawIfAny s) := by
    intro u hu
    unfold Token.rawIfAny at hu
    split at hu
    · cases hu
    · next hne =>
      cases List.mem_singleton.1 hu
      exact ⟨hne, fun other ho => (read_eq_raw_iff hne).2 fun _ => h other ((rank_lt_iff_mem hall).1 ho)⟩
  have hnil : rule.read mode [] = [] := by
    unfold SpanRule.read
    split
    · rw [pieces]
      rfl
    · rfl
  rw [readInline, ← settle_stage hall hsettled, stage, expandRaw_rawIfAny hnil]

/-- **The texts on both sides of the first span are read as if they stood alone.** -/
theorem readInline_of_firstSpan (hm : mode.inBlock = false) (h : FirstSpan rule stretch s t rest) :
    readInline mode (stretch ++ s) = readInline mode stretch ++ t :: readInline mode rest := by
  have hread : ∀ text, rule.read mode text = gather (rule.pieces text) := fun text => by
    rw [SpanRule.read, if_pos (applies_of_outside hm rule)]
  have hrest : ∀ other : SpanRule, other.rank < rule.rank → other.Inert rest [] := fun other ho =>
    inert_of_infix (h.before other ho) h.rest_infix
  have hraw : ∀ u, t ≠ .raw u := fun _ => front?_ne_raw h.front
  rw [readInline_eq_settle_read h.before, hread, gather_pieces_append h.inert h.front, settle_append, settle_cons hraw,
    readInline_eq_settle_read hrest, hread]
  rfl

/-- Text in which no rule finds anything stands for itself. -/
theorem readInline_of_inert (h : ∀ rule : SpanRule, rule.Inert s []) : readInline mode s = Token.textIfAny s := by
  by_cases hs : s = []
  · rw [hs, readInline_nil]
    rfl
  · have hleaves : ∀ rule ∈ SpanRule.all, rule.read mode s = [.raw s] := fun rule _ =>
      (read_eq_raw_iff hs).2 fun _ => h rule
    have htext : settle mode (Token.textIfAny s) = Token.textIfAny s := by
      unfold Token.textIfAny
      split
      · rw [settle]
      · rw [settle_cons (fun _ h => by cases h), settle]
    rw [readInline, Token.rawIfAny, if_neg hs, settle, cut_eq_textIfAny hleaves, List.append_nil, htext]

/-- What holds of texts in which no rule finds anything, and of a text with a first span if it does of both sides,
holds of all texts. -/
@[elab_as_elim] theorem readInline_induction {motive : Text → Prop}
    (inert : ∀ s, (∀ rule : SpanRule, rule.Inert s []) → motive s)
    (span : ∀ rule stretch s t rest, FirstSpan rule stretch s t rest → motive stretch → motive rest →
      motive (stretch ++ s)) (text : Text) : motive text := by
  induction hn : text.length using Nat.strongRecOn generalizing text with
  | ind n ih =>
    rcases exists_firstSpan text with h | ⟨rule, stretch, s, t, rest, rfl, h⟩
    · exact inert text h
    · have hlt := length_lt_of_front? h.front
      rw [List.length_append] at hn
      exact span rule stretch s t rest h (ih stretch.length (by omega) stretch rfl) (ih rest.length (by omega) rest rfl)

end Reading

end Lectern
