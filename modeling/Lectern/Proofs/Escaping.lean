import Lectern.Proofs.Backslashes
import Lectern.Proofs.Guards

/-!
# Escaped text

A text is escaped in stages. Its arrows are found first, from left to right and the longest ones before the others, then
the comparisons between the arrows, and then stars and bars between those; each gets a backslash, so that the text
becomes chunks (`Chunk.ofText`). **`escape`** prints them and puts one more backslash in front of a line that starts as
a heading or a list item does. `Chunk.valueAll_ofText` says that nothing but backslashes is added.

The backslashes neither make nor hide glyphs: chunks mask the text that they stand for (`masks_printAll`), and where the
first rule found nothing in the text it finds nothing in the chunks. So all chunks fit (`Chunk.allFit_ofText`), by an
induction that goes from one glyph to the next in each stage (`ofGlyphs_induction`).
-/

set_option autoImplicit false

namespace Lectern

/-! ## Escaping -/

namespace Chunk

/-- A character with a backslash in front of it if it is a star or a bar. -/
def ofChar (c : Char) : Chunk :=
  if c = '*' then .guarded .italic ['*'] else if c = '|' then .guarded .verbatim ['|'] else .bare c

/-- The chunks of what a rule for glyphs finds: a glyph is guarded, and a stretch without glyphs is made chunks in some
other way. -/
def ofToken (rule : SpanRule) (inner : Text → List Chunk) : Token → List Chunk
  | .raw stretch => inner stretch
  | .arrow glyph | .comparison glyph => [.guarded rule glyph.sign]
  | _ => []

/-- The chunks of a text in which a rule finds glyphs. -/
def ofGlyphs (rule : SpanRule) (inner : Text → List Chunk) (s : Text) : List Chunk :=
  (SpanRule.gather (rule.pieces s)).flatMap (ofToken rule inner)

/-- The chunks of a stretch without arrows: comparisons are guarded, and between them stars and bars. -/
def ofStretch (s : Text) : List Chunk := ofGlyphs .comparison (List.map ofChar) s

/-- The chunks of a text: arrows are guarded, and between them comparisons, stars and bars. -/
def ofText (s : Text) : List Chunk := ofGlyphs .arrow ofStretch s

end Chunk

/-- Whether a text starts as a heading or a list item does. -/
def startsMarked (s : Text) : Bool :=
  s.head? == some '#' || (ListMarker.read? .itemize s).isSome || (ListMarker.read? .enumerate s).isSome

/-- The text with a backslash in front of whatever would not be read as it stands. -/
def escape (s : Text) : Text :=
  let guarded := Chunk.printAll (Chunk.ofText s)
  if startsMarked s && guarded.head? != some '\\' then '\\' :: guarded else guarded

/-- Without the characters that cannot be escaped. -/
def Tame (s : Text) : Prop := ∀ c ∈ s, c ≠ '\\' ∧ c ≠ '$' ∧ c ≠ '`' ∧ c ≠ '\r' ∧ c ≠ '\n'

instance (s : Text) : Decidable (Tame s) := List.decidableBAll _ s

/-- A text that can be escaped. -/
structure Escapable (s : Text) : Prop where
  tame : Tame s
  /-- Blanks in front of a line are its indentation. -/
  start : ∀ c, s.head? = some c → Text.isBlank c = false

theorem Tame.backslash_not_mem {s : Text} (h : Tame s) : '\\' ∉ s := fun hm => (h _ hm).1 rfl

theorem tame_append {s rest : Text} : Tame (s ++ rest) ↔ Tame s ∧ Tame rest := List.forall_mem_append

theorem tame_cons {c : Char} {s : Text} :
    Tame (c :: s) ↔ (c ≠ '\\' ∧ c ≠ '$' ∧ c ≠ '`' ∧ c ≠ '\r' ∧ c ≠ '\n') ∧ Tame s := List.forall_mem_cons

/-! ## The chunks of a text -/

namespace Chunk

/-- Chunks mask the text that they stand for. -/
theorem masks_printAll {shown actual : Text} (h : Masks shown actual) (chunks : List Chunk) :
    Masks (printAll chunks ++ shown) (valueAll chunks ++ actual) := by
  induction chunks with
  | nil => exact h
  | cons chunk chunks ih =>
    cases chunk with
    | bare c => exact ih.cons c
    | guarded guard sign =>
      refine masks_of_head? (fun c hc => ?_) _
      cases hc
      rfl

section Chunks

variable {rule : SpanRule} {inner : Text → List Chunk} {s : Text}

theorem ofGlyphs_nil (rule : SpanRule) (inner : Text → List Chunk) : ofGlyphs rule inner [] = [] := by
  rw [ofGlyphs, SpanRule.pieces]
  rfl

/-- A rule for glyphs finds none in a text, or a first one. -/
theorem ofGlyphs_cases (hr : rule = .arrow ∨ rule = .comparison) (hnil : inner [] = []) (hs : '\\' ∉ s) :
    (rule.Inert s [] ∧ ofGlyphs rule inner s = inner s) ∨
      ∃ stretch glyph rest, s = stretch ++ (glyph.sign ++ rest) ∧ rule.Inert stretch (glyph.sign ++ rest) ∧
        Glyph.startOf? rule.glyphs (glyph.sign ++ rest) = some (glyph, rest) ∧
        ofGlyphs rule inner s = inner stretch ++ .guarded rule glyph.sign :: ofGlyphs rule inner rest := by
  have hraw : ∀ stretch more, (Token.rawIfAny stretch ++ more).flatMap (ofToken rule inner) =
      inner stretch ++ more.flatMap (ofToken rule inner) := by
    intro stretch more
    rw [List.flatMap_append, Token.rawIfAny]
    split
    · next hempty => rw [hempty, hnil, List.flatMap_nil]
    · rw [List.flatMap_singleton, ofToken]
  rcases rule.pieces_cases s with hinert | ⟨stretch, text, t, rest, rfl, hinert, hfront⟩
  · refine .inl ⟨hinert, ?_⟩
    rw [ofGlyphs, SpanRule.gather_pieces_of_inert hinert, ← List.append_nil (Token.rawIfAny s), hraw,
      List.flatMap_nil, List.append_nil]
  · have htext : '\\' ∉ text := fun hm => hs (List.mem_append_right _ hm)
    obtain ⟨glyph, ht, hstart⟩ := SpanRule.exists_glyph_of_front? hr htext hfront
    obtain ⟨-, rfl⟩ := Glyph.startOf?_eq_some hstart
    refine .inr ⟨stretch, glyph, rest, rfl, hinert, hstart, ?_⟩
    rw [ofGlyphs, SpanRule.gather_pieces_append hinert hfront, hraw, List.flatMap_cons]
    rcases ht with rfl | rfl <;> rfl

/-- Where there is a glyph, the rest of a text is shorter. -/
theorem length_lt_of_startOf? {glyph : Glyph} {stretch rest : Text}
    (h : Glyph.startOf? rule.glyphs (glyph.sign ++ rest) = some (glyph, rest)) :
    rest.length < (stretch ++ (glyph.sign ++ rest)).length := by
  have hlt := SpanRule.length_lt_of_startOf? (fun _ ho => Glyph.sign_ne_nil (SpanRule.mem_of_mem_glyphs ho)) h
  rw [List.length_append]
  omega

/-- What holds of stretches without glyphs, and of a text if it holds behind its first glyph, holds of every text. -/
theorem ofGlyphs_induction {motive : Text → List Chunk → Prop} (hr : rule = .arrow ∨ rule = .comparison)
    (hnil : inner [] = []) (inert : ∀ stretch, '\\' ∉ stretch → rule.Inert stretch [] → motive stretch (inner stretch))
    (glyph : ∀ stretch glyph rest, '\\' ∉ stretch → '\\' ∉ rest → rule.Inert stretch (glyph.sign ++ rest) →
      Glyph.startOf? rule.glyphs (glyph.sign ++ rest) = some (glyph, rest) → motive rest (ofGlyphs rule inner rest) →
      motive (stretch ++ (glyph.sign ++ rest))
        (inner stretch ++ .guarded rule glyph.sign :: ofGlyphs rule inner rest))
    (hs : '\\' ∉ s) : motive s (ofGlyphs rule inner s) := by
  induction hn : s.length using Nat.strongRecOn generalizing s with
  | ind n ih =>
    rcases ofGlyphs_cases hr hnil hs with ⟨hinert, he⟩ | ⟨stretch, first, rest, rfl, hinert, hstart, he⟩
    · rw [he]
      exact inert s hs hinert
    · have hstretch : '\\' ∉ stretch := fun hm => hs (List.mem_append_left _ hm)
      have hrest : '\\' ∉ rest := fun hm => hs (List.mem_append_right _ (List.mem_append_right _ hm))
      have hlt : rest.length < n := hn ▸ length_lt_of_startOf? hstart
      rw [he]
      exact glyph stretch first rest hstretch hrest hinert hstart (ih rest.length hlt hrest rfl)

/-- Nothing of a text gets lost. -/
theorem valueAll_ofGlyphs (hr : rule = .arrow ∨ rule = .comparison) (hnil : inner [] = [])
    (hv : ∀ stretch, '\\' ∉ stretch → valueAll (inner stretch) = stretch) (hs : '\\' ∉ s) :
    valueAll (ofGlyphs rule inner s) = s := by
  refine ofGlyphs_induction (motive := fun s chunks => valueAll chunks = s) hr hnil (fun stretch hb _ => hv stretch hb)
    (fun stretch glyph rest hb _ _ _ ih => ?_) hs
  rw [valueAll_append, hv stretch hb, valueAll_cons, ih]
  rfl

theorem valueAll_map_ofChar (s : Text) : valueAll (s.map ofChar) = s := by
  induction s with
  | nil => rfl
  | cons c s ih =>
    have hc : (ofChar c).value = [c] := by
      rw [ofChar]
      split
      · next hc => rw [hc, value]
      · split
        · next hc => rw [hc, value]
        · rfl
    rw [List.map_cons, valueAll_cons, ih, hc, List.singleton_append]

theorem valueAll_ofStretch (hs : '\\' ∉ s) : valueAll (ofStretch s) = s :=
  valueAll_ofGlyphs (.inr rfl) rfl (fun stretch _ => valueAll_map_ofChar stretch) hs

/-- Escaping a text changes nothing but its backslashes. -/
theorem valueAll_ofText (hs : '\\' ∉ s) : valueAll (ofText s) = s :=
  valueAll_ofGlyphs (.inl rfl) (ofGlyphs_nil _ _) (fun _ => valueAll_ofStretch) hs

end Chunks

/-! ## Every chunk of a text fits -/

section Fitting

variable {c : Char} {rest arrowRest comparisonRest : Text}

theorem head?_of_start {short : Text} (h : short <+: rest) (hc : short.head? = some c) : rest.head? = some c := by
  obtain ⟨more, rfl⟩ := h
  cases short with
  | nil => cases hc
  | cons d short => exact hc

/-- A character fits where neither an arrow nor a comparison starts. -/
theorem fits_bare (hc : Tame [c]) (hstar : c ≠ '*') (hbar : c ≠ '|')
    (ha : SpanRule.arrow.front? (c :: arrowRest) = none) (hma : Masks rest arrowRest)
    (hcomp : SpanRule.comparison.front? (c :: comparisonRest) = none) (hmc : Masks rest comparisonRest) :
    (bare c).Fits rest where
  inert := by
    intro short hs rule _
    obtain ⟨hbackslash, hdollar, -⟩ := hc c List.mem_cons_self
    have hfront : rule.front? (c :: short) = none := by
      cases rule with
      | math => exact SpanRule.front?_cons_eq_none hbackslash (by simp [SpanRule.triggers, hdollar])
      | verbatim => exact SpanRule.front?_cons_eq_none hbackslash (by simp [SpanRule.triggers, hbar])
      | arrow => exact SpanRule.front?_eq_none_of_masks (.inl rfl) hbackslash ha (hma.shorten hs)
      | comparison => exact SpanRule.front?_eq_none_of_masks (.inr rfl) hbackslash hcomp (hmc.shorten hs)
      | bold => exact SpanRule.front?_cons_eq_none hbackslash (by simp [SpanRule.triggers, hstar])
      | italic => exact SpanRule.front?_cons_eq_none hbackslash (by simp [SpanRule.triggers, hstar])
    exact .cons hfront (.nil _ _)
  guards := fun _ _ _ hg => by cases hg
  lineEnd := by
    intro d hd
    exact (hc d hd).2.2.2

/-- A bar behind a backslash fits everywhere. -/
theorem fits_bar (rest : Text) : (guarded .verbatim ['|']).Fits rest where
  inert := by
    intro short _ rule hrank
    have hlt := hrank .verbatim rfl
    cases rule with
    | math => exact SpanRule.inert_guarded (List.cons_ne_nil _ _) (List.forall_mem_singleton.2 (by decide))
    | _ => simp [SpanRule.rank] at hlt
  guards := by
    intro short _ guard hg
    cases hg
    rfl
  lineEnd := List.forall_mem_singleton.2 (by decide)

/-- A star behind a backslash fits where no other star follows. -/
theorem fits_star (h : ∀ d, rest.head? = some d → d ≠ '*') : (guarded .italic ['*']).Fits rest where
  inert := by
    intro short hs rule hrank
    have hlt := hrank .italic rfl
    cases rule with
    | bold => exact SpanRule.inert_bold_star fun d hd => h d (head?_of_start hs hd)
    | italic => exact absurd hlt (Nat.lt_irrefl _)
    | _ => exact SpanRule.inert_guarded (List.cons_ne_nil _ _) (List.forall_mem_singleton.2 (by decide))
  guards := by
    intro short _ guard hg
    cases hg
    rfl
  lineEnd := List.forall_mem_singleton.2 (by decide)

/-- What signs of glyphs are not made of. -/
theorem mem_sign {rule : SpanRule} {glyph : Glyph} (h : glyph ∈ rule.glyphs) : ∀ c ∈ glyph.sign,
    (c ≠ '\\' ∧ c ∉ SpanRule.triggers .math ∧ c ≠ '[' ∧ c ≠ '(') ∧ c ∉ SpanRule.triggers .verbatim ∧
      c ≠ '\r' ∧ c ≠ '\n' := by
  have hall : ∀ glyph ∈ rule.glyphs, glyph.sign.all (['<', '-', '=', '>', '!'].contains ·) = true := by
    cases rule <;> decide
  intro c hc
  have hmem := List.all_eq_true.1 (hall glyph h) c hc
  simp only [List.contains_eq_mem, List.mem_cons, List.not_mem_nil, or_false, decide_eq_true_eq] at hmem
  rcases hmem with rfl | rfl | rfl | rfl | rfl <;> decide

/-- A glyph behind a backslash fits, a comparison as long as there are no arrows in it. -/
theorem fits_glyph {rule : SpanRule} {glyph : Glyph} (hr : rule = .arrow ∨ rule = .comparison) {actual : Text}
    (h : Glyph.startOf? rule.glyphs (glyph.sign ++ actual) = some (glyph, actual)) (hm : Masks rest actual)
    (ha : rule = .comparison → ∃ arrowRest, SpanRule.arrow.Inert glyph.sign arrowRest ∧ Masks rest arrowRest) :
    (guarded rule glyph.sign).Fits rest where
  inert := by
    intro short hs other hrank
    have hmem := (Glyph.startOf?_eq_some h).1
    have hne := Glyph.sign_ne_nil (SpanRule.mem_of_mem_glyphs hmem)
    have hsign := mem_sign hmem
    have hlt := hrank rule rfl
    cases other with
    | math => exact SpanRule.inert_guarded hne fun c hc => (hsign c hc).1
    | verbatim =>
      exact SpanRule.inert_guarded hne fun c hc => ⟨(hsign c hc).1.1, (hsign c hc).2.1, (hsign c hc).1.2.2⟩
    | arrow =>
      have hcomp : rule = .comparison := hr.resolve_left fun he => Nat.lt_irrefl _ (he ▸ hlt)
      obtain ⟨arrowRest, hinert, hma⟩ := ha hcomp
      have hb : '\\' ∉ glyph.sign := fun hc => (hsign _ hc).1.1 rfl
      exact SpanRule.inert_guarded_of_masks (.inl rfl) hne hb hinert (hma.shorten hs)
    | _ => rcases hr with rfl | rfl <;> simp [SpanRule.rank] at hlt
  guards := by
    intro short hs guard hg
    cases hg
    exact SpanRule.front?_guarded hr h (hm.shorten hs)
  lineEnd := fun c hc => (mem_sign (Glyph.startOf?_eq_some h).1 c hc).2.2

variable {s tail actual : Text}

/-- Behind a character that is made a chunk there is no star without a backslash. -/
theorem head?_printAll_map_ofChar (ht : ∀ d, tail.head? = some d → d = '\\') :
    ∀ d, (printAll (s.map ofChar) ++ tail).head? = some d → d ≠ '*' := by
  intro d hd
  cases s with
  | nil =>
    rw [ht d hd]
    decide
  | cons c s =>
    rw [List.map_cons, printAll_cons, ofChar] at hd
    split at hd
    · cases hd
      decide
    · next hstar =>
      split at hd
      · cases hd
        decide
      · cases hd
        exact hstar

/-- The chunks of a stretch without glyphs fit in front of a backslash. -/
theorem allFit_map_ofChar (hs : Tame s) (ha : SpanRule.arrow.Inert s arrowRest)
    (hc : SpanRule.comparison.Inert s comparisonRest) (ht : ∀ d, tail.head? = some d → d = '\\') :
    AllFit (s.map ofChar) tail := by
  induction s with
  | nil => trivial
  | cons c s ih =>
    refine ⟨?_, ih (tame_cons.1 hs).2 ha.of_cons hc.of_cons⟩
    rw [ofChar]
    split
    · exact fits_star (head?_printAll_map_ofChar ht)
    · next hstar =>
      split
      · exact fits_bar _
      · next hbar =>
        have hmasks : ∀ rest, Masks (printAll (s.map ofChar) ++ tail) (s ++ rest) := by
          intro rest
          have hm := masks_printAll (masks_of_head? ht rest) (s.map ofChar)
          rwa [valueAll_map_ofChar] at hm
        exact fits_bare (fun d hd => hs d (List.mem_singleton.1 hd ▸ List.mem_cons_self)) hstar hbar
          (ha _ (List.cons_ne_nil _ _) (List.suffix_refl _)) (hmasks _)
          (hc _ (List.cons_ne_nil _ _) (List.suffix_refl _)) (hmasks _)

/-- The chunks of a stretch without arrows fit in front of a backslash. -/
theorem allFit_ofStretch (hs : Tame s) (ha : SpanRule.arrow.Inert s arrowRest)
    (ht : ∀ d, tail.head? = some d → d = '\\') : AllFit (ofStretch s) tail := by
  refine ofGlyphs_induction
    (motive := fun s chunks => Tame s → SpanRule.arrow.Inert s arrowRest → AllFit chunks tail) (.inr rfl) rfl
    (fun stretch _ hinert hs ha => allFit_map_ofChar hs ha hinert ht) ?_ hs.backslash_not_mem hs ha
  intro stretch glyph rest _ hb hinert hstart ih hs ha
  obtain ⟨hstretch, hsign⟩ := tame_append.1 hs
  have hmasks : ∀ more, Masks (printAll (ofStretch rest) ++ tail) (rest ++ more) := by
    intro more
    have hm := masks_printAll (masks_of_head? ht more) (ofStretch rest)
    rwa [valueAll_ofStretch hb] at hm
  -- comparisons are looked for in the stretch alone, arrows in the whole text
  have hmasksRest := hmasks []
  rw [List.append_nil] at hmasksRest
  refine allFit_append.2 ⟨allFit_map_ofChar hstretch ha.left hinert fun d hd => ?_, ?_, ?_⟩
  · cases hd
    rfl
  · exact fits_glyph (.inr rfl) hstart hmasksRest fun _ => ⟨_, ha.right.left, hmasks _⟩
  · exact ih (tame_append.1 hsign).2 ha.right.right

/-- **The chunks of a text all fit.** -/
theorem allFit_ofText (hs : Tame s) : AllFit (ofText s) [] := by
  refine ofGlyphs_induction (motive := fun s chunks => Tame s → AllFit chunks []) (.inl rfl) (ofGlyphs_nil _ _)
    (fun stretch _ hinert hs => allFit_ofStretch hs hinert fun d hd => by cases hd) ?_ hs.backslash_not_mem hs
  intro stretch glyph rest _ hb hinert hstart ih hs
  obtain ⟨hstretch, hsign⟩ := tame_append.1 hs
  have hmasks : Masks (printAll (ofText rest) ++ []) rest := by
    have hnone : Masks [] [] := fun _ _ hp => hp
    have hm := masks_printAll hnone (ofText rest)
    rwa [valueAll_ofText hb, List.append_nil rest] at hm
  refine allFit_append.2 ⟨allFit_ofStretch hstretch hinert fun d hd => ?_, ?_, ?_⟩
  · cases hd
    rfl
  · exact fits_glyph (.inl rfl) hstart hmasks fun hcomp => by cases hcomp
  · exact ih (tame_append.1 hsign).2

end Fitting

end Chunk

end Lectern
