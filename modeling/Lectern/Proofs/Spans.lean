import Lectern.Markup.Reading

/-!
# What span rules find

A span rule walks over a text from left to right. A stretch in whose every place it finds nothing is **inert**: its
characters are plain pieces (`pieces_append_of_inert`), and every text is inert or has a first span behind an inert
stretch (`pieces_cases`). Gathering makes one raw token of each stretch (`gather_stretch_append`), the first rule that
changes a raw token replaces it (`cut_eq_read`), and settling goes through a list of tokens one by one
(`settle_append`). What comes of it are **inline** tokens, which can stand anywhere in a line
(`isInline_of_mem_settle`).
-/

set_option autoImplicit false

namespace Lectern

/-- Whether a token can stand anywhere in a line. -/
def Token.isInline : Token → Bool
  | .text _ | .arrow _ | .comparison _ | .bold _ | .italic _ | .verbatim _ | .math _ => true
  | _ => false

namespace SpanRule

/-! ## Spans are inline tokens -/

/-- What a rule finds can stand anywhere in a line. -/
theorem isInline_of_front? {rule : SpanRule} {s rest : Text} {t : Token} (h : rule.front? s = some (t, rest)) :
    t.isInline = true := by
  cases rule with
  | verbatim =>
    simp only [front?, verbatimFront?] at h
    split at h <;> try split at h
    all_goals grind [Token.isInline]
  | _ =>
    simp only [front?, mathFront?, glyphFront?, starFront?] at h
    split at h <;> simp only [Option.map_eq_some_iff, Option.some.injEq, Prod.mk.injEq] at h <;> grind [Token.isInline]

theorem isInline_of_mem_pieces {rule : SpanRule} {s : Text} {t : Token} (h : Piece.span t ∈ rule.pieces s) :
    t.isInline = true := by
  fun_induction pieces rule s with
  | case1 => cases h
  | case2 c s u rest hu ih =>
    rcases List.mem_cons.1 h with h | h
    · cases h
      exact isInline_of_front? hu
    · exact ih h
  | case3 c s hn ih =>
    rcases List.mem_cons.1 h with h | h
    · cases h
    · exact ih h

/-! ## Pieces -/

section Pieces

variable {rule : SpanRule}

theorem pieces_cons_of_none {c : Char} {s : Text} (h : rule.front? (c :: s) = none) :
    rule.pieces (c :: s) = .plain c :: rule.pieces s := by
  rw [pieces]
  split
  · next hs => rw [h] at hs; cases hs
  · rfl

theorem pieces_of_some {s rest : Text} {t : Token} (h : rule.front? s = some (t, rest)) :
    rule.pieces s = .span t :: rule.pieces rest := by
  cases s with
  | nil => exact absurd (length_lt_of_front? h) (Nat.not_lt_zero _)
  | cons c s =>
    rw [pieces]
    split
    · next u r hs =>
      rw [h] at hs
      cases hs
      rfl
    · next hs => rw [h] at hs; cases hs

/-- A stretch in front of a text in whose every place a rule finds nothing. -/
def Inert (rule : SpanRule) (stretch rest : Text) : Prop :=
  ∀ s, s ≠ [] → s <:+ stretch → rule.front? (s ++ rest) = none

theorem Inert.nil (rule : SpanRule) (rest : Text) : rule.Inert [] rest :=
  fun _ hs hsuffix => absurd (List.suffix_nil.1 hsuffix) hs

theorem Inert.cons {c : Char} {stretch rest : Text} (hc : rule.front? (c :: stretch ++ rest) = none)
    (h : rule.Inert stretch rest) : rule.Inert (c :: stretch) rest := by
  intro s hs hsuffix
  rcases List.suffix_cons_iff.1 hsuffix with rfl | hsuffix
  · exact hc
  · exact h s hs hsuffix

theorem Inert.of_cons {c : Char} {stretch rest : Text} (h : rule.Inert (c :: stretch) rest) :
    rule.Inert stretch rest :=
  fun s hs hsuffix => h s hs (hsuffix.trans (List.suffix_cons c stretch))

theorem Inert.left {stretch more rest : Text} (h : rule.Inert (stretch ++ more) rest) :
    rule.Inert stretch (more ++ rest) := by
  intro s hs hsuffix
  have hfront := h (s ++ more) (List.append_ne_nil_of_left_ne_nil hs _) (List.suffix_append_self_iff.2 hsuffix)
  rwa [List.append_assoc] at hfront

theorem Inert.right {stretch more rest : Text} (h : rule.Inert (stretch ++ more) rest) :
    rule.Inert more rest := fun s hs hsuffix => h s hs (hsuffix.trans (List.suffix_append _ _))

/-- The characters of an inert stretch are plain. -/
theorem pieces_append_of_inert {stretch rest : Text} (h : rule.Inert stretch rest) :
    rule.pieces (stretch ++ rest) = stretch.map .plain ++ rule.pieces rest := by
  induction stretch with
  | nil => rfl
  | cons c stretch ih =>
    have hc : rule.front? (c :: (stretch ++ rest)) = none := h _ (List.cons_ne_nil _ _) (List.suffix_refl _)
    rw [List.cons_append, pieces_cons_of_none hc, ih h.of_cons, List.map_cons, List.cons_append]

theorem pieces_of_inert {s : Text} (h : rule.Inert s []) : rule.pieces s = s.map .plain := by
  have hp := pieces_append_of_inert h
  rwa [List.append_nil, pieces, List.append_nil] at hp

/-- A text is inert, or there is a first span behind an inert stretch. -/
theorem pieces_cases (rule : SpanRule) (text : Text) :
    rule.Inert text [] ∨ ∃ stretch s t rest, text = stretch ++ s ∧ rule.Inert stretch s ∧
      rule.front? s = some (t, rest) := by
  induction text with
  | nil => exact .inl (Inert.nil rule [])
  | cons c text ih =>
    cases hc : rule.front? (c :: text) with
    | some found => exact .inr ⟨[], c :: text, found.1, found.2, rfl, Inert.nil rule _, hc⟩
    | none =>
      rcases ih with h | ⟨stretch, s, t, rest, rfl, h, hs⟩
      · exact .inl (h.cons (by rwa [List.append_nil]))
      · exact .inr ⟨c :: stretch, s, t, rest, rfl, h.cons hc, hs⟩

/-- What holds of inert texts, and of a text with a first span if it does of what follows the span, holds of all. -/
@[elab_as_elim] theorem pieces_induction (rule : SpanRule) {motive : Text → Prop}
    (inert : ∀ s, rule.Inert s [] → motive s)
    (span : ∀ stretch s t rest, rule.Inert stretch s → rule.front? s = some (t, rest) → motive rest →
      motive (stretch ++ s)) (text : Text) : motive text := by
  induction hn : text.length using Nat.strongRecOn generalizing text with
  | ind n ih =>
    rcases rule.pieces_cases text with h | ⟨stretch, s, t, rest, rfl, h, hs⟩
    · exact inert text h
    · have hlt := length_lt_of_front? hs
      exact span stretch s t rest h hs (ih rest.length (by rw [← hn, List.length_append]; omega) rest rfl)

end Pieces

/-! ## Gathering -/

theorem gather_stretch_append (stretch : Text) (t : Token) (ps : List Piece) (ht : t.isInline = true) :
    gather (stretch.map .plain ++ .span t :: ps) = Token.rawIfAny stretch ++ t :: gather ps := by
  induction stretch with
  | nil => rfl
  | cons c stretch ih =>
    rw [List.map_cons, List.cons_append, gather, ih]
    cases stretch with
    | nil => cases t <;> first | rfl | cases ht
    | cons d stretch => rfl

/-- A first span, what is raw in front of it and what is behind it. -/
theorem gather_pieces_append {rule : SpanRule} {stretch s rest : Text} {t : Token} (hinert : rule.Inert stretch s)
    (hfront : rule.front? s = some (t, rest)) :
    gather (rule.pieces (stretch ++ s)) = Token.rawIfAny stretch ++ t :: gather (rule.pieces rest) := by
  rw [pieces_append_of_inert hinert, pieces_of_some hfront, gather_stretch_append _ _ _ (isInline_of_front? hfront)]

theorem gather_pieces_of_inert {rule : SpanRule} {s : Text} (h : rule.Inert s []) :
    gather (rule.pieces s) = Token.rawIfAny s := by
  rw [pieces_of_inert h, gather_map_plain]

/-- What is gathered is raw text or a span. -/
theorem mem_gather {ps : List Piece} {t : Token} (h : t ∈ gather ps) : (∃ s, t = .raw s) ∨ .span t ∈ ps := by
  fun_induction gather ps with
  | case1 => cases h
  | case2 u ps ih =>
    rcases List.mem_cons.1 h with rfl | h
    · exact .inr List.mem_cons_self
    · exact (ih h).imp id (List.mem_cons_of_mem _)
  | case3 c ps s tokens hg ih =>
    rcases List.mem_cons.1 h with rfl | h
    · exact .inl ⟨_, rfl⟩
    · exact (ih (hg ▸ List.mem_cons_of_mem _ h)).imp id (List.mem_cons_of_mem _)
  | case4 c ps hg ih =>
    rcases List.mem_cons.1 h with rfl | h
    · exact .inl ⟨_, rfl⟩
    · exact (ih h).imp id (List.mem_cons_of_mem _)

/-- A span is not lost when pieces are gathered. -/
theorem mem_gather_of_span {ps : List Piece} {t : Token} (h : .span t ∈ ps) (ht : t.isInline = true) :
    t ∈ gather ps := by
  fun_induction gather ps with
  | case1 => cases h
  | case2 u ps ih =>
    rcases List.mem_cons.1 h with h | h
    · cases h
      exact List.mem_cons_self
    · exact List.mem_cons_of_mem _ (ih h)
  | case3 c ps s tokens hg ih =>
    rcases List.mem_cons.1 h with h | h
    · cases h
    · rcases List.mem_cons.1 (hg ▸ ih h) with rfl | h
      · cases ht
      · exact List.mem_cons_of_mem _ h
  | case4 c ps hg ih =>
    rcases List.mem_cons.1 h with h | h
    · cases h
    · exact List.mem_cons_of_mem _ (ih h)

theorem isInline_or_raw_of_mem_read {rule : SpanRule} {mode : Mode} {s : Text} {t : Token}
    (h : t ∈ rule.read mode s) : t.isInline = true ∨ ∃ u, t = .raw u := by
  unfold read at h
  split at h
  · rcases mem_gather h with h | h
    · exact .inr h
    · exact .inl (isInline_of_mem_pieces h)
  · unfold Token.rawIfAny at h
    split at h
    · cases h
    · exact .inr ⟨s, List.mem_singleton.1 h⟩

/-! ## Cutting -/

section Cutting

variable {mode : Mode} {s : Text}

/-- The first rule that changes a raw token replaces it. -/
theorem cut_eq_read {before after : List SpanRule} {rule : SpanRule} (hall : all = before ++ rule :: after)
    (hb : ∀ other ∈ before, other.read mode s = [.raw s]) (h : rule.read mode s ≠ [.raw s]) :
    cut mode s = rule.read mode s := by
  have hn : (before.map fun other => other.read mode s).find? (fun tokens => tokens != [.raw s]) = none := by
    rw [List.find?_eq_none]
    intro tokens ht
    obtain ⟨other, ho, rfl⟩ := List.mem_map.1 ht
    simp [hb other ho]
  unfold cut
  rw [hall, List.map_append, List.find?_append, hn, Option.none_or, List.map_cons, List.find?_cons_of_pos]
  · rfl
  · simpa using h

/-- Text that no rule changes stands for itself. -/
theorem cut_eq_textIfAny (h : ∀ rule ∈ all, rule.read mode s = [.raw s]) : cut mode s = Token.textIfAny s := by
  have hn : (all.map fun rule => rule.read mode s).find? (fun tokens => tokens != [.raw s]) = none := by
    rw [List.find?_eq_none]
    intro tokens ht
    obtain ⟨rule, hr, rfl⟩ := List.mem_map.1 ht
    simp [h rule hr]
  unfold cut
  rw [hn]
  rfl

theorem isInline_or_raw_of_mem_cut {t : Token} (h : t ∈ cut mode s) : t.isInline = true ∨ ∃ u, t = .raw u := by
  unfold cut at h
  cases hf : (all.map fun rule => rule.read mode s).find? fun tokens => tokens != [.raw s] with
  | none =>
    rw [hf] at h
    unfold Token.textIfAny at h
    simp only [Option.getD_none] at h
    split at h
    · cases h
    · rw [List.mem_singleton.1 h]
      exact .inl rfl
  | some tokens =>
    rw [hf] at h
    obtain ⟨rule, -, rfl⟩ := List.mem_map.1 (List.mem_of_find?_eq_some hf)
    exact isInline_or_raw_of_mem_read h

end Cutting

end SpanRule

/-! ## Settling -/

section Settling

variable {mode : Mode}

theorem settle_cons {t : Token} (ht : ∀ s, t ≠ .raw s) (ts : List Token) :
    settle mode (t :: ts) = t :: settle mode ts := by
  cases t with
  | raw s => exact absurd rfl (ht s)
  | _ => rw [settle]; exact fun _ h => by cases h

/-- A list of tokens is settled one token after the other. -/
theorem settle_append (ts us : List Token) : settle mode (ts ++ us) = settle mode ts ++ settle mode us := by
  fun_induction settle mode ts with
  | case1 => rfl
  | case2 s ts ih => rw [List.cons_append, settle, ← List.append_assoc, ih]
  | case3 t ts ht ih => rw [List.cons_append, settle_cons ht, ih, List.cons_append]

/-- No raw text is left, and whatever comes instead can stand anywhere in a line. -/
theorem isInline_of_mem_settle {ts : List Token} {t : Token} (h : t ∈ settle mode ts) :
    t.isInline = true ∨ t ∈ ts ∧ ∀ s, t ≠ .raw s := by
  fun_induction settle mode ts with
  | case1 => cases h
  | case2 s ts ih =>
    rcases ih h with h | ⟨h, hn⟩
    · exact .inl h
    · rcases List.mem_append.1 h with h | h
      · rcases SpanRule.isInline_or_raw_of_mem_cut h with h | ⟨u, rfl⟩
        · exact .inl h
        · exact absurd rfl (hn u)
      · exact .inr ⟨List.mem_cons_of_mem _ h, hn⟩
  | case3 u ts hu ih =>
    rcases List.mem_cons.1 h with rfl | h
    · exact .inr ⟨List.mem_cons_self, hu⟩
    · exact (ih h).imp id fun h => ⟨List.mem_cons_of_mem _ h.1, h.2⟩

/-- The tokens of a text can stand anywhere in a line. -/
theorem isInline_of_mem_readInline {s : Text} {t : Token} (h : t ∈ readInline mode s) : t.isInline = true := by
  rcases isInline_of_mem_settle h with h | ⟨h, hn⟩
  · exact h
  · unfold Token.rawIfAny at h
    split at h
    · cases h
    · exact absurd (List.mem_singleton.1 h) (hn s)

end Settling

end Lectern
