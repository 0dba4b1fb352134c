import Lectern.Proofs.FirstSpans

/-!
# Where tokens come from

A rule is only ever asked about raw text in which the rules before it find nothing. What it finds there, in front of
some part of that text, is a **`SpanRule.Finding`**. Behind any number of stages a token is such a finding or raw text
that the stages have settled, and both are parts of the text that was read (`Sifted`, `sifted_stages`). So every token
of a text is ordinary text or a finding (**`finding_of_mem_readInline`**), and the tokens that a list is settled to
are its own or belong to its raw text (`mem_settle`).
-/

set_option autoImplicit false

namespace Lectern

/-- Ordinary text that is not empty. -/
def Token.IsText (t : Token) : Prop := ∃ content, content ≠ [] ∧ t = .text content

namespace SpanRule

variable {mode : Mode} {rule : SpanRule} {s u rest : Text} {t : Token}

/-- What a rule finds in front of a text in which the rules before it find nothing. -/
structure Finding (mode : Mode) (rule : SpanRule) (t : Token) (s rest : Text) : Prop where
  applies : rule.applies mode = true
  before : ∀ other : SpanRule, other.rank < rule.rank → other.applies mode = true → other.Inert s []
  front : rule.front? s = some (t, rest)

theorem Finding.ne_raw (h : rule.Finding mode t s rest) (u : Text) : t ≠ .raw u := front?_ne_raw h.front

/-- A span among the pieces of a text is found in front of a part of it. -/
theorem exists_front?_of_mem_pieces (h : .span t ∈ rule.pieces s) :
    ∃ u rest, u <:+ s ∧ rule.front? u = some (t, rest) := by
  induction s using pieces_induction rule with
  | inert s hinert =>
    rw [pieces_of_inert hinert] at h
    obtain ⟨c, -, hc⟩ := List.mem_map.1 h
    cases hc
  | span stretch s v rest hinert hfront ih =>
    rw [pieces_append_of_inert hinert, pieces_of_some hfront, List.mem_append, List.mem_cons] at h
    rcases h with h | h | h
    · obtain ⟨c, -, hc⟩ := List.mem_map.1 h
      cases hc
    · cases h
      exact ⟨s, rest, List.suffix_append _ _, hfront⟩
    · obtain ⟨u, behind, hu, hfound⟩ := ih h
      obtain ⟨form, -, rfl⟩ := exists_finds_of_front? hfront
      exact ⟨u, behind, hu.trans ((List.suffix_append form rest).trans (List.suffix_append stretch _)), hfound⟩

/-- What a rule makes of a text is raw text or found in front of a part of the text. -/
theorem exists_front?_of_mem_read (h : t ∈ rule.read mode s) (ht : ∀ u, t ≠ .raw u) :
    rule.applies mode = true ∧ ∃ u rest, u <:+ s ∧ rule.front? u = some (t, rest) := by
  unfold read at h
  split at h
  · next ha =>
    rcases mem_gather h with ⟨u, rfl⟩ | h
    · exact absurd rfl (ht u)
    · exact ⟨ha, exists_front?_of_mem_pieces h⟩
  · unfold Token.rawIfAny at h
    split at h
    · cases h
    · exact absurd (List.mem_singleton.1 h) (ht s)

/-- What a rule leaves raw is part of the text. -/
theorem infix_of_mem_read (h : .raw u ∈ rule.read mode s) : u <:+: s := by
  unfold read at h
  split at h
  · exact (inert_of_mem_gather_pieces h).2.1
  · unfold Token.rawIfAny at h
    split at h
    · cases h
    · cases List.mem_singleton.1 h
      exact List.infix_rfl

end SpanRule

/-! ## Tokens behind stages -/

section Stages

open SpanRule

variable {mode : Mode} {rule : SpanRule} {before after : List SpanRule} {tokens : List Token} {s : Text} {t : Token}

/-- A token behind the stages of some rules: raw text that they have settled, or a finding, in a part of the text. -/
inductive Sifted (mode : Mode) (s : Text) (rules : List SpanRule) : Token → Prop
  | raw {u : Text} : u <:+: s → SettledBy mode rules u → Sifted mode s rules (.raw u)
  | found {rule : SpanRule} {t : Token} {u rest : Text} : u <:+: s → rule.Finding mode t u rest →
      Sifted mode s rules t

/-- One more stage sifts the raw text. -/
theorem sifted_stage (hall : SpanRule.all = before ++ rule :: after) (h : ∀ t ∈ tokens, Sifted mode s before t) :
    ∀ t ∈ stage mode rule tokens, Sifted mode s (before ++ [rule]) t := by
  intro t ht
  obtain ⟨v, hv, ht⟩ := List.mem_flatMap.1 ht
  cases h v hv with
  | found hpart hfound =>
    have hraw := hfound.ne_raw
    cases v with
    | raw u => exact absurd rfl (hraw u)
    | _ =>
      cases List.mem_singleton.1 ht
      exact .found hpart hfound
  | @raw v hpart hsettled =>
    by_cases hraw : ∃ u, t = .raw u
    · obtain ⟨u, rfl⟩ := hraw
      exact .raw ((infix_of_mem_read ht).trans hpart) (settledBy_of_mem_read hsettled ht)
    · obtain ⟨happlies, u, rest, hu, hfront⟩ := exists_front?_of_mem_read ht fun u he => hraw ⟨u, he⟩
      refine .found (hu.isInfix.trans hpart) ⟨happlies, fun other hrank ho => ?_, hfront⟩
      -- the rules before leave the whole raw text as it is
      have hread := hsettled.read_eq other ((rank_lt_iff_mem hall).2 hrank)
      exact inert_of_infix ((read_eq_raw_iff hsettled.ne_nil).1 hread ho) hu.isInfix

theorem sifted_stages (hall : SpanRule.all = before ++ after) (h : ∀ t ∈ tokens, Sifted mode s before t) :
    ∀ t ∈ stages mode after tokens, Sifted mode s SpanRule.all t := by
  induction after generalizing before tokens with
  | nil =>
    rw [List.append_nil] at hall
    rwa [hall]
  | cons rule after ih => exact ih (by rw [hall, List.append_cons]) (sifted_stage hall h)

/-- What is left behind all stages is ordinary text, unless there is nothing in it. -/
theorem isText_of_mem_textIfAny (h : t ∈ Token.textIfAny s) : t.IsText := by
  unfold Token.textIfAny at h
  split at h
  · cases h
  · next hne => exact ⟨_, hne, List.mem_singleton.1 h⟩

/-- **Every token of a text is ordinary text or a finding in some part of the text.** -/
theorem finding_of_mem_readInline (h : t ∈ readInline mode s) :
    t.IsText ∨ ∃ rule u rest, u <:+: s ∧ SpanRule.Finding mode rule t u rest := by
  have hstart : ∀ t ∈ Token.rawIfAny s, Sifted mode s [] t := by
    intro t ht
    have hsettled := allSettledBy_rawIfAny mode s
    unfold Token.rawIfAny at ht hsettled
    split at ht
    · cases ht
    · next hs =>
      cases List.mem_singleton.1 ht
      rw [if_neg hs] at hsettled
      exact .raw List.infix_rfl (hsettled s List.mem_cons_self)
  rw [← finish_stages] at h
  obtain ⟨u, hu, ht⟩ := List.mem_flatMap.1 h
  cases sifted_stages rfl hstart u hu with
  | raw => exact .inl (isText_of_mem_textIfAny ht)
  | found hpart hfound =>
    have hraw := hfound.ne_raw
    cases u with
    | raw u => exact absurd rfl (hraw u)
    | _ =>
      cases List.mem_singleton.1 ht
      exact .inr ⟨_, _, _, hpart, hfound⟩

end Stages

/-! ## Tokens of a list -/

section Settling

variable {mode : Mode} {tokens : List Token} {t : Token}

/-- A rule leaves nothing of an empty text. -/
theorem SpanRule.read_nil (rule : SpanRule) (mode : Mode) : rule.read mode [] = [] := by
  unfold read
  split
  · rw [pieces]
    rfl
  · rfl

/-- Raw text in a list is read as if it stood alone, also if there is nothing in it. -/
theorem settle_raw (mode : Mode) (s : Text) : settle mode [.raw s] = readInline mode s := by
  by_cases hs : s = []
  · have hnil := SpanRule.read_nil .math mode
    have hall : SpanRule.all = [] ++ .math :: SpanRule.all.tail := rfl
    have hcut : SpanRule.cut mode [] = [] := by
      rw [SpanRule.cut_eq_read hall (fun _ h => by cases h) (by rw [hnil]; simp), hnil]
    rw [hs, readInline_nil, settle, hcut, List.append_nil, settle]
  · rw [readInline, Token.rawIfAny, if_neg hs]

/-- What a list of tokens is settled to are its own tokens and those of its raw text. -/
theorem mem_settle (h : t ∈ settle mode tokens) :
    (t ∈ tokens ∧ ∀ s, t ≠ .raw s) ∨ ∃ s, .raw s ∈ tokens ∧ t ∈ readInline mode s := by
  induction tokens with
  | nil =>
    rw [settle] at h
    cases h
  | cons u tokens ih =>
    rw [← List.singleton_append, settle_append, List.mem_append] at h
    rcases h with h | h
    · by_cases hu : ∃ s, u = .raw s
      · obtain ⟨s, rfl⟩ := hu
        rw [settle_raw] at h
        exact .inr ⟨s, List.mem_cons_self, h⟩
      · have hraw : ∀ s, u ≠ .raw s := fun s he => hu ⟨s, he⟩
        rw [settle_cons hraw, settle, List.mem_singleton] at h
        exact .inl ⟨h ▸ List.mem_cons_self, h ▸ hraw⟩
    · rcases ih h with ⟨hmem, hraw⟩ | ⟨s, hs, ht⟩
      · exact .inl ⟨List.mem_cons_of_mem _ hmem, hraw⟩
      · exact .inr ⟨s, List.mem_cons_of_mem _ hs, ht⟩

end Settling

end Lectern
