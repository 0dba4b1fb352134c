import Lectern.Latex.Fragment
import Lectern.Proofs.Backslashes
import Lectern.Proofs.WrittenForms

/-!
# Comparison signs

A comparison sign is a greater sign or an exclamation mark with an equals sign behind it, so two texts that are joined
have the comparison signs of each and perhaps one across their border (`straddling`, `comparisonCount_append`). Where
there is none across the border, comparisons are found in each text by itself (`comparison_pieces_append`). Every sign
that is found, behind a backslash or not, makes the text lighter (`marks_comparisons`), so that it can be seen from the
text that comes of it how many there were.

Glyphs are printed among the characters between them: `printMath_pieces_append` says what is printed for the first of
them and what is behind it, with the space that keeps a control word from a letter.
-/

set_option autoImplicit false

namespace Lectern

/-! ## Comparison signs -/

/-- The number of comparison signs, none or one, of which the first character ends one text and the second starts the
next. -/
def straddling (before after : Text) : Nat :=
  if (before.getLast? = some '>' ∨ before.getLast? = some '!') ∧ after.head? = some '=' then 1 else 0

/-- The number of comparison signs in a text. -/
def comparisonCount : Text → Nat
  | [] => 0
  | c :: s => straddling [c] s + comparisonCount s

section Comparisons

variable {c d : Char} {s rest before after : Text} {t : Token}

theorem straddling_nil (after : Text) : straddling [] after = 0 := by simp [straddling]

theorem straddling_cons_cons (c d : Char) (s after : Text) :
    straddling (c :: d :: s) after = straddling (d :: s) after := by
  rw [straddling, straddling, List.getLast?_cons_cons]

theorem straddling_singleton_append (c : Char) (hs : s ≠ []) (after : Text) :
    straddling [c] (s ++ after) = straddling [c] s := by
  obtain ⟨d, s, rfl⟩ := List.exists_cons_of_ne_nil hs
  rfl

theorem comparisonCount_append (before after : Text) :
    comparisonCount (before ++ after) = comparisonCount before + straddling before after + comparisonCount after := by
  induction before with
  | nil => rw [List.nil_append, comparisonCount, straddling_nil, Nat.zero_add]
  | cons c before ih =>
    rw [List.cons_append, comparisonCount, comparisonCount, ih]
    cases before with
    | nil => rw [List.nil_append, straddling_nil, comparisonCount]; simp [straddling]
    | cons d before =>
      rw [straddling_singleton_append c (List.cons_ne_nil _ _), straddling_cons_cons]
      omega

/-- A comparison sign is a greater sign or an exclamation mark with an equals sign behind it. -/
theorem exists_sign_eq {glyph : Glyph} (h : glyph ∈ Glyph.comparisons) :
    ∃ c, glyph.sign = [c, '='] ∧ (c = '>' ∨ c = '!') := by
  simp only [Glyph.comparisons, List.mem_cons, List.not_mem_nil, or_false] at h
  rcases h with rfl | rfl
  · exact ⟨'>', rfl, .inl rfl⟩
  · exact ⟨'!', rfl, .inr rfl⟩

theorem comparison_startOf?_append {glyph : Glyph}
    (h : Glyph.startOf? Glyph.comparisons s = some (glyph, rest)) (after : Text) :
    Glyph.startOf? Glyph.comparisons (s ++ after) = some (glyph, rest ++ after) := by
  obtain ⟨hmem, rfl⟩ := Glyph.startOf?_eq_some h
  simp only [Glyph.comparisons, List.mem_cons, List.not_mem_nil, or_false] at hmem
  rcases hmem with rfl | rfl <;> rfl

/-- A comparison is found also if the text goes on. -/
theorem comparison_front?_append (h : SpanRule.comparison.front? s = some (t, rest)) (after : Text) :
    SpanRule.comparison.front? (s ++ after) = some (t, rest ++ after) := by
  cases s with
  | nil => exact absurd (SpanRule.length_lt_of_front? h) (Nat.not_lt_zero _)
  | cons c s =>
    rw [SpanRule.front?] at h
    rw [List.cons_append, SpanRule.front?]
    by_cases hc : c = '\\'
    · subst hc
      rw [SpanRule.glyphFront?_backslash (SpanRule.startOf?_comparisons_cons (by decide)),
        Option.map_eq_some_iff] at h
      obtain ⟨⟨glyph, tail⟩, hstart, hpair⟩ := h
      obtain ⟨rfl, rfl⟩ := Prod.mk.inj hpair
      rw [SpanRule.glyphFront?_backslash (SpanRule.startOf?_comparisons_cons (by decide)),
        comparison_startOf?_append hstart]
      rfl
    · rw [SpanRule.glyphFront?_cons hc, Option.map_eq_some_iff] at h
      obtain ⟨⟨glyph, tail⟩, hstart, hpair⟩ := h
      obtain ⟨rfl, rfl⟩ := Prod.mk.inj hpair
      rw [SpanRule.glyphFront?_cons hc, ← List.cons_append, comparison_startOf?_append hstart]
      rfl

/-- A comparison sign in front of two texts is in front of the first, unless it stands across their border. -/
theorem comparison_startOf?_eq_none_append (h : Glyph.startOf? Glyph.comparisons s = none) (hs : s ≠ [])
    (hb : straddling s after = 0) : Glyph.startOf? Glyph.comparisons (s ++ after) = none := by
  rw [Glyph.startOf?_eq_none_iff] at h ⊢
  intro glyph hg hp
  refine h glyph hg ?_
  obtain ⟨c, hsign, hc⟩ := exists_sign_eq hg
  obtain ⟨d, s, rfl⟩ := List.exists_cons_of_ne_nil hs
  rw [hsign, List.cons_append] at hp
  obtain ⟨rfl, hequals⟩ := List.cons_prefix_cons.1 hp
  rw [hsign]
  refine List.cons_prefix_cons.2 ⟨rfl, ?_⟩
  cases s with
  | cons e s =>
    obtain ⟨rfl, -⟩ := List.cons_prefix_cons.1 hequals
    exact List.cons_prefix_cons.2 ⟨rfl, List.nil_prefix⟩
  | nil =>
    obtain ⟨tail, rfl⟩ := hequals
    rcases hc with rfl | rfl <;> cases hb

/-- Unless a comparison sign stands across the border of two texts, or starts the second behind a backslash that ends
the first, comparisons are found in each by itself. -/
theorem comparison_pieces_append (hb : straddling before after = 0)
    (hbackslash : before.getLast? = some '\\' → Glyph.startOf? Glyph.comparisons after = none) :
    SpanRule.comparison.pieces (before ++ after) =
      SpanRule.comparison.pieces before ++ SpanRule.comparison.pieces after := by
  fun_induction SpanRule.pieces .comparison before with
  | case1 => rfl
  | case2 c s t rest hfront ih =>
    rw [SpanRule.pieces_of_some (comparison_front?_append hfront after), List.cons_append]
    obtain ⟨form, -, hform⟩ := SpanRule.exists_written_of_front? hfront
    rw [hform] at hb hbackslash
    congr 1
    -- what is left of the first text ends as the whole does
    by_cases hrest : rest = []
    · subst hrest
      exact ih (straddling_nil _) fun h => by cases h
    · have hlast : (form ++ rest).getLast? = rest.getLast? := by
        rw [List.getLast?_append, List.getLast?_eq_some_getLast hrest, Option.some_or]
      rw [straddling, hlast] at hb
      rw [hlast] at hbackslash
      exact ih hb hbackslash
  | case3 c s hnone ih =>
    have hfront : SpanRule.comparison.front? (c :: (s ++ after)) = none := by
      by_cases hc : c = '\\'
      · subst hc
        rw [SpanRule.front?_backslash (.inr rfl), Option.map_eq_none_iff] at hnone ⊢
        cases s with
        | nil => exact hbackslash rfl
        | cons d s =>
          rw [straddling_cons_cons] at hb
          exact comparison_startOf?_eq_none_append hnone (List.cons_ne_nil _ _) hb
      · rw [SpanRule.front?_eq_none_iff (.inr rfl) hc] at hnone ⊢
        exact comparison_startOf?_eq_none_append hnone (List.cons_ne_nil _ _) hb
    rw [List.cons_append, SpanRule.pieces_cons_of_none hfront, List.cons_append]
    congr 1
    cases s with
    | nil => exact ih (straddling_nil _) fun h => by cases h
    | cons d s =>
      rw [straddling_cons_cons] at hb
      rw [List.getLast?_cons_cons] at hbackslash
      exact ih hb hbackslash

end Comparisons

/-! ## Printed pieces -/

/-- The space that a token which becomes a control word has in front of a text. -/
def Token.gap (behind : Text) : Token → Text
  | .arrow _ | .comparison _ => wordSpace behind
  | _ => []

section Printing

variable {rule : SpanRule} {c : Char} {s rest : Text} {t : Token} {ps qs : List Piece}

theorem printMath_map_plain_append (s : Text) (ps : List Piece) :
    printMath (s.map .plain ++ ps) = s ++ printMath ps := by
  induction s with
  | nil => rfl
  | cons c s ih => rw [List.map_cons, List.cons_append, printMath, ih, List.cons_append]

theorem printMath_map_plain (s : Text) : printMath (s.map .plain) = s := by
  have h := printMath_map_plain_append s []
  rwa [List.append_nil, printMath, List.append_nil] at h

/-- Pieces are printed apart if the later ones need no space in front of them. -/
theorem printMath_append (h : printMath.follow qs = []) : printMath (ps ++ qs) = printMath ps ++ printMath qs := by
  have hfollow : ∀ ps, printMath.follow (ps ++ qs) = printMath.follow ps := by
    intro ps
    cases ps with
    | nil => rw [List.nil_append, h]; rfl
    | cons p ps => cases p <;> rfl
  induction ps with
  | nil => rfl
  | cons p ps ih =>
    cases p with
    | plain c => rw [List.cons_append, printMath, printMath, ih, List.cons_append]
    | span t => cases t <;> simp [printMath, ih, hfollow]

theorem printMath_span_cons (t : Token) (h : printMath.follow ps = wordSpace rest) :
    printMath (.span t :: ps) = printMath [.span t] ++ t.gap rest ++ printMath ps := by
  have hnil : printMath.follow [] = [] := rfl
  cases t <;> simp only [printMath, Token.gap, h, hnil, List.append_nil, List.nil_append]

/-- What rules for glyphs find. -/
theorem glyph_of_front? (hr : rule = .arrow ∨ rule = .comparison) (h : rule.front? s = some (t, rest)) :
    ∃ glyph ∈ rule.glyphs, t = .text glyph.sign ∨ t = .arrow glyph ∨ t = .comparison glyph := by
  rcases hr with rfl | rfl <;>
    obtain ⟨glyph, hmem, ⟨rfl, -⟩ | ⟨rfl, -⟩⟩ := SpanRule.exists_glyph_of_glyphFront? h
  · exact ⟨glyph, hmem, .inl rfl⟩
  · exact ⟨glyph, hmem, .inr (.inl rfl)⟩
  · exact ⟨glyph, hmem, .inl rfl⟩
  · exact ⟨glyph, hmem, .inr (.inr rfl)⟩

/-- Neither a sign nor a control word needs a space in front of it. -/
theorem wordSpace_span (hr : rule = .arrow ∨ rule = .comparison) (h : rule.front? s = some (t, rest))
    (behind : Text) : wordSpace (printMath [.span t] ++ behind) = [] := by
  have hsign : ∀ glyph ∈ Glyph.arrows ++ Glyph.comparisons,
      glyph.sign.head?.any (!Text.isLetter ·) = true := by decide
  obtain ⟨glyph, hmem, rfl | rfl | rfl⟩ := glyph_of_front? hr h
  · have hhead := hsign glyph (SpanRule.mem_of_mem_glyphs hmem)
    rw [show printMath [.span (.text glyph.sign)] = glyph.sign ++ [] from rfl, List.append_nil]
    cases hg : glyph.sign with
    | nil =>
      rw [hg] at hhead
      cases hhead
    | cons c sign =>
      rw [hg] at hhead
      have hc : Text.isLetter c = false := by simpa using hhead
      rw [List.cons_append, wordSpace, hc]
      rfl
  · rfl
  · rfl

theorem wordSpace_of_front? (hr : rule = .arrow ∨ rule = .comparison) (h : rule.front? s = some (t, rest)) :
    wordSpace s = [] := by
  have htriggers : rule.triggers.all (!Text.isLetter ·) = true := by rcases hr with rfl | rfl <;> decide
  cases s with
  | nil => rfl
  | cons c s =>
    have hc : Text.isLetter c = false := by
      by_cases hbackslash : c = '\\'
      · rw [hbackslash]
        decide
      · by_cases hmem : c ∈ rule.triggers
        · simpa using List.all_eq_true.1 htriggers c hmem
        · rw [SpanRule.front?_cons_eq_none hbackslash hmem] at h
          cases h
    rw [wordSpace, hc]
    rfl

/-- Whether there has to be a space in front of a text is seen from its pieces. -/
theorem follow_pieces (hr : rule = .arrow ∨ rule = .comparison) (s : Text) :
    printMath.follow (rule.pieces s) = wordSpace s := by
  cases s with
  | nil => rw [SpanRule.pieces]; rfl
  | cons c s =>
    cases hfront : rule.front? (c :: s) with
    | none => rw [SpanRule.pieces_cons_of_none hfront]; rfl
    | some found =>
      rw [SpanRule.pieces_of_some hfront, wordSpace_of_front? hr hfront]
      rfl

/-- Control words are put in without a change to whether there has to be a space in front of the text. -/
theorem wordSpace_printMath_pieces (hr : rule = .arrow ∨ rule = .comparison) (s : Text) :
    wordSpace (printMath (rule.pieces s)) = wordSpace s := by
  cases s with
  | nil => rw [SpanRule.pieces]; rfl
  | cons c s =>
    cases hfront : rule.front? (c :: s) with
    | none => rw [SpanRule.pieces_cons_of_none hfront]; rfl
    | some found =>
      rw [SpanRule.pieces_of_some hfront, wordSpace_of_front? hr hfront,
        printMath_span_cons _ (follow_pieces hr found.2), List.append_assoc]
      exact wordSpace_span hr hfront _

/-- What is in front of a span, the span as it is printed and what is behind it. -/
theorem printMath_pieces_append (hr : rule = .arrow ∨ rule = .comparison) {stretch : Text}
    (hinert : rule.Inert stretch s) (hfront : rule.front? s = some (t, rest)) :
    printMath (rule.pieces (stretch ++ s)) =
      stretch ++ (printMath [.span t] ++ t.gap rest ++ printMath (rule.pieces rest)) := by
  rw [SpanRule.pieces_append_of_inert hinert, printMath_map_plain_append, SpanRule.pieces_of_some hfront,
    printMath_span_cons t (follow_pieces hr rest)]

theorem printMath_pieces_of_inert (h : rule.Inert s []) : printMath (rule.pieces s) = s := by
  rw [SpanRule.pieces_of_inert h, printMath_map_plain]

end Printing

/-! ## Weighing text -/

/-- A measure of text that counts a backslash once and an equals sign twice. Of a comparison sign that is found, a
backslash is left or, if there was one already, the equals sign. -/
def marks (s : Text) : Nat := s.count '\\' + 2 * s.count '='

section Marks

variable {s rest : Text} {t : Token}

@[simp] theorem marks_nil : marks [] = 0 := rfl

@[simp] theorem marks_append (s rest : Text) : marks (s ++ rest) = marks s + marks rest := by
  simp only [marks, List.count_append]
  omega

@[simp] theorem marks_wordSpace (s : Text) : marks (wordSpace s) = 0 := by
  unfold wordSpace
  repeat' split
  all_goals rfl

@[simp] theorem marks_gap (t : Token) (behind : Text) : marks (t.gap behind) = 0 := by
  cases t <;> simp [Token.gap]

/-- Where no comparison is found, no comparison sign starts. -/
theorem straddling_of_front?_eq_none {c : Char} (h : SpanRule.comparison.front? (c :: s) = none) :
    straddling [c] s = 0 := by
  unfold straddling
  split
  · next hsign =>
    obtain ⟨hc, hs⟩ := hsign
    obtain ⟨tail, rfl⟩ := List.head?_eq_some_iff.1 hs
    rcases hc with hc | hc <;> cases hc <;> cases h
  · rfl

/-- A comparison sign that is found, behind a backslash or not, leaves one mark less. -/
theorem exists_marks_of_front? (h : SpanRule.comparison.front? s = some (t, rest)) :
    ∃ form, s = form ++ rest ∧ comparisonCount form = 1 ∧ straddling form rest = 0 ∧
      marks form = marks (printMath [.span t]) + 1 := by
  have hsign : ∀ glyph ∈ Glyph.comparisons,
      (comparisonCount ('\\' :: glyph.sign) = 1 ∧ ('\\' :: glyph.sign).getLast? = some '=' ∧
        marks ('\\' :: glyph.sign) = marks (printMath [.span (.text glyph.sign)]) + 1) ∧
      comparisonCount glyph.sign = 1 ∧ glyph.sign.getLast? = some '=' ∧
        marks glyph.sign = marks (printMath [.span (.comparison glyph)]) + 1 := by decide
  have hborder : ∀ form : Text, form.getLast? = some '=' → straddling form rest = 0 := by
    intro form hlast
    simp [straddling, hlast]
  obtain ⟨glyph, hmem, ⟨rfl, rfl⟩ | ⟨rfl, rfl⟩⟩ := SpanRule.exists_glyph_of_glyphFront? h
  · obtain ⟨⟨hcount, hlast, hmarks⟩, -⟩ := hsign glyph hmem
    exact ⟨'\\' :: glyph.sign, rfl, hcount, hborder _ hlast, hmarks⟩
  · obtain ⟨-, hcount, hlast, hmarks⟩ := hsign glyph hmem
    exact ⟨glyph.sign, rfl, hcount, hborder _ hlast, hmarks⟩

/-- Every comparison sign of a text costs a mark. -/
theorem marks_comparisons (s : Text) :
    marks (printMath (SpanRule.comparison.pieces s)) + comparisonCount s = marks s := by
  fun_induction SpanRule.pieces .comparison s with
  | case1 => rfl
  | case2 c s t rest hfront ih =>
    obtain ⟨form, hs, hcount, hborder, hmarks⟩ := exists_marks_of_front? hfront
    rw [printMath_span_cons t (follow_pieces (.inr rfl) rest), hs, comparisonCount_append, hcount, hborder]
    simp only [marks_append, marks_gap, hmarks]
    omega
  | case3 c s hnone ih =>
    rw [printMath, comparisonCount, straddling_of_front?_eq_none hnone, ← List.singleton_append, marks_append,
      ← List.singleton_append (l := s), marks_append]
    omega

end Marks

end Lectern
