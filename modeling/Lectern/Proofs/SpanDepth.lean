import Lectern.Proofs.LineForms
import Lectern.Proofs.Precedence
import Lectern.Proofs.SpanEnds

/-!
# How deep spans are nested

A span between stars ends with the nearest row of stars behind the first character of its body, so the rule that found
it finds nothing in its body (`SpanRule.Stars.inert_body`). Nor do the rules before, which have found nothing in the
whole text. So what is read in a body belongs to a later rule (`SpanRule.Stars.finding_of_mem_body`): the text of a
bold token consists of ordinary and italic text, and that of an italic token of ordinary text.

A token is rendered by reading and rendering its text if it is bold or italic; **`Rendered`** counts how deep these
calls are nested. Every line needs two levels at most (**`spans_nested_twice`**), and it is rendered to what its
tokens become.
-/

set_option autoImplicit false

namespace Lectern

/-! ## The bodies of spans -/

namespace SpanRule

section Bodies

variable {mode : Mode} {rule other : SpanRule} {stars s body rest form : Text} {token : Text → Token} {t : Token}

theorem Stars.enclosed_of_front? (h : rule.Stars stars token) (hfront : rule.front? s = some (token body, rest)) :
    enclosed? stars stars s = some (body, rest) := by
  rw [h.front?_eq, starFront?] at hfront
  split at hfront
  · cases h <;> cases hfront
  · obtain ⟨⟨inner, behind⟩, henclosed, hpair⟩ := Option.map_eq_some_iff.1 hfront
    cases h <;> cases hpair <;> exact henclosed

/-- No other rule finds a span between these stars. -/
theorem Stars.eq_of_finds (h : rule.Stars stars token) (hfinds : other.Finds (token body) form) : other = rule := by
  cases h <;> cases hfinds <;> rfl

/-- Whatever a rule for stars finds ends with its row of stars, behind something else. -/
theorem Stars.exists_lead_of_finds (h : rule.Stars stars token) (hfinds : rule.Finds t form) :
    ∃ lead, lead ≠ [] ∧ form = lead ++ stars := by
  cases h with
  | bold =>
    cases hfinds with
    | twoStars => exact ⟨['\\'], by decide, rfl⟩
    | bold => exact ⟨_, List.append_ne_nil_of_left_ne_nil (by decide) _, rfl⟩
    | escapedGlyph hmem => cases hmem
  | italic =>
    cases hfinds with
    | star => exact ⟨['\\'], by decide, rfl⟩
    | italic => exact ⟨_, List.append_ne_nil_of_left_ne_nil (by decide) _, rfl⟩
    | escapedGlyph hmem => cases hmem

/-- In the body of a span the rule that found it finds nothing. -/
theorem Stars.inert_body (h : rule.Stars stars token) (henclosed : enclosed? stars stars s = some (body, rest)) :
    rule.Inert body [] := by
  rw [inert_iff_absent]
  rintro t form hfinds ⟨before, after, hbody⟩
  obtain ⟨lead, hlead, rfl⟩ := h.exists_lead_of_finds hfinds
  unfold enclosed? at henclosed
  split at henclosed
  · next c tail _ =>
    obtain ⟨⟨inner, behind⟩, hsplit, hpair⟩ := Option.map_eq_some_iff.1 henclosed
    cases hpair
    -- a row of stars in the body would stand behind its first character, nearer than the one that ends the span
    obtain ⟨d, front, hfront⟩ := List.exists_cons_of_ne_nil (List.append_ne_nil_of_right_ne_nil before hlead)
    rw [← List.append_assoc, hfront, List.cons_append, List.cons_append] at hbody
    have hcloser : inner ++ stars = front ++ stars ++ (after ++ stars) := by
      rw [← (List.cons.inj hbody).2, List.append_assoc]
    have hempty := Text.nearest_of_splitAt? hsplit hcloser
    obtain ⟨more, rfl, -⟩ := h.exists_eq_cons
    exact absurd (List.append_eq_nil_iff.1 hempty).2 (List.cons_ne_nil _ _)
  · cases henclosed

theorem Finding.not_inert (h : rule.Finding mode t s rest) : ¬ rule.Inert s [] := by
  intro hinert
  have hne : s ≠ [] := List.length_pos_iff.1 (Nat.zero_lt_of_lt (length_lt_of_front? h.front))
  have hnone := hinert s hne (List.suffix_refl s)
  rw [List.append_nil, h.front] at hnone
  cases hnone

/-- What is read in the body of a span between stars is ordinary text or found by a later rule. -/
theorem Stars.finding_of_mem_body (h : rule.Stars stars token) (hspan : rule.Finding mode (token body) s rest)
    (ht : t ∈ readInline mode body) :
    t.IsText ∨ ∃ other u behind, rule.rank < other.rank ∧ SpanRule.Finding mode other t u behind := by
  have henclosed := h.enclosed_of_front? hspan.front
  have hbody : body <:+: s := ⟨stars, stars ++ rest, by rw [eq_of_enclosed? henclosed]; simp⟩
  rcases finding_of_mem_readInline ht with htext | ⟨other, u, behind, hu, hfound⟩
  · exact .inl htext
  · refine .inr ⟨other, u, behind, Nat.lt_of_not_le fun hle => ?_, hfound⟩
    have hinert : other.Inert body [] := by
      rcases Nat.lt_or_eq_of_le hle with hlt | heq
      · exact inert_of_infix (hspan.before other hlt hfound.applies) hbody
      · exact eq_of_rank_eq heq ▸ h.inert_body henclosed
    have hpart : other.Inert u [] := inert_of_infix hinert hu
    exact hfound.not_inert hpart

/-- A span between stars is found by the rule for them. -/
theorem Stars.exists_finding (h : rule.Stars stars token) (hspan : token body ∈ readInline mode s) :
    ∃ u rest, rule.Finding mode (token body) u rest := by
  rcases finding_of_mem_readInline hspan with ⟨content, -, htext⟩ | ⟨other, u, rest, -, hfound⟩
  · cases h <;> cases htext
  · obtain ⟨form, hfinds, -⟩ := exists_finds_of_front? hfound.front
    exact ⟨u, rest, h.eq_of_finds hfinds ▸ hfound⟩

end Bodies

end SpanRule

section Bodies

variable {mode : Mode} {s body : Text} {t : Token}

/-- The text of a bold token consists of ordinary and italic text. -/
theorem isText_or_italic_of_mem_bold (hbold : .bold body ∈ readInline mode s) (ht : t ∈ readInline mode body) :
    t.IsText ∨ ∃ inner, t = .italic inner := by
  obtain ⟨u, rest, hspan⟩ := SpanRule.Stars.bold.exists_finding hbold
  rcases SpanRule.Stars.bold.finding_of_mem_body hspan ht with htext | ⟨other, v, behind, hrank, hfound⟩
  · exact .inl htext
  · obtain ⟨form, hfinds, -⟩ := SpanRule.exists_finds_of_front? hfound.front
    cases other with
    | italic =>
      cases hfinds with
      | star => exact .inl ⟨_, by decide, rfl⟩
      | italic => exact .inr ⟨_, rfl⟩
      | escapedGlyph hmem => cases hmem
    | _ => exact absurd hrank (by decide)

/-- The text of an italic token is ordinary text. -/
theorem isText_of_mem_italic (hitalic : .italic body ∈ readInline mode s) (ht : t ∈ readInline mode body) :
    t.IsText := by
  obtain ⟨u, rest, hspan⟩ := SpanRule.Stars.italic.exists_finding hitalic
  rcases SpanRule.Stars.italic.finding_of_mem_body hspan ht with htext | ⟨other, v, behind, hrank, -⟩
  · exact htext
  · cases other <;> exact absurd hrank (by decide)

end Bodies

/-! ## Rendering -/

/-- Whether the text of a token is read and rendered in turn. -/
def Token.isEmphasis : Token → Bool
  | .bold _ | .italic _ => true
  | _ => false

/-- Tokens are rendered one by one up to the first that has no place in the document. The text of a bold or italic
token is read and rendered for it, at most `depth` such calls one inside the other. -/
inductive Rendered (mode : Mode) : Nat → List Token → Except Unrenderable (List Fragment) → Prop
  | nil {depth : Nat} : Rendered mode depth [] (.ok [])
  | stuck {depth : Nat} {t : Token} {tokens : List Token} : t.hasPlace = false →
      Rendered mode depth (t :: tokens) (.error ⟨t⟩)
  | leaf {depth : Nat} {t : Token} {fragment : Fragment} {tokens : List Token}
      {result : Except Unrenderable (List Fragment)} : t.isEmphasis = false → t.fragment mode = .ok fragment →
      Rendered mode depth tokens result → Rendered mode depth (t :: tokens) (result.map (fragment :: ·))
  | bold {depth : Nat} {body : Text} {inner : List Fragment} {tokens : List Token}
      {result : Except Unrenderable (List Fragment)} : Rendered mode depth (readInline mode body) (.ok inner) →
      Rendered mode (depth + 1) tokens result →
      Rendered mode (depth + 1) (.bold body :: tokens) (result.map (.bold (Fragment.printAll inner) :: ·))
  | italic {depth : Nat} {body : Text} {inner : List Fragment} {tokens : List Token}
      {result : Except Unrenderable (List Fragment)} : Rendered mode depth (readInline mode body) (.ok inner) →
      Rendered mode (depth + 1) tokens result →
      Rendered mode (depth + 1) (.italic body :: tokens) (result.map (.italic (Fragment.printAll inner) :: ·))

section Rendering

variable {mode mode' : Mode} {depth : Nat} {s body line : Text} {t : Token} {tokens : List Token}
  {result : Except Unrenderable (List Fragment)}

/-- In blocks there are no bold and italic tokens. -/
theorem inBlock_of_isEmphasis (ht : t ∈ readInline mode s) (he : t.isEmphasis = true) : mode.inBlock = false := by
  obtain ⟨rule, stars, token, body, hstars, rfl⟩ :
      ∃ rule stars token body, SpanRule.Stars rule stars token ∧ t = token body := by
    cases t with
    | bold body => exact ⟨_, _, _, body, .bold, rfl⟩
    | italic body => exact ⟨_, _, _, body, .italic, rfl⟩
    | _ => cases he
  obtain ⟨u, rest, hspan⟩ := hstars.exists_finding ht
  have happlies := hspan.applies
  cases hstars <;> simpa [SpanRule.applies] using happlies

/-- Text is rendered token by token wherever it stands. -/
theorem renderInline_eq_mapM (mode : Mode) (s : Text) :
    renderInline mode s = ((readInline mode s).mapM (Token.fragment mode)).map Fragment.printAll := by
  cases hm : mode.inBlock with
  | false => exact renderInline_eq hm s
  | true =>
    have hnone : ∀ t ∈ readInline mode s, ∀ body, ¬ (t = .bold body ∨ t = .italic body) := by
      intro t ht body hbody
      have he : t.isEmphasis = true := by rcases hbody with rfl | rfl <;> rfl
      rw [inBlock_of_isEmphasis ht he] at hm
      cases hm
    cases s with
    | nil =>
      rw [renderInline, renderSpan_nil, readInline_nil]
      rfl
    | cons c s =>
      rw [renderInline, List.length_cons, renderSpan, mapM_congr fun t ht =>
        Token.fragmentWith_congr fun body hbody => absurd hbody (hnone t ht body)]
      rfl

/-- The fragment of a token stands in front of those of the tokens behind it. -/
theorem mapM_fragment_cons {fragment : Fragment} (ht : t.fragment mode = .ok fragment)
    (htokens : tokens.mapM (Token.fragment mode) = result) :
    (t :: tokens).mapM (Token.fragment mode) = result.map (fragment :: ·) := by
  rw [List.mapM_cons, ht, htokens]
  cases result <;> rfl

/-- What tokens are rendered to are their fragments. -/
theorem Rendered.mapM_eq (h : Rendered mode depth tokens result) : tokens.mapM (Token.fragment mode) = result := by
  have hinner : ∀ {body : Text} {inner : List Fragment},
      (readInline mode body).mapM (Token.fragment mode) = .ok inner →
        renderInline mode body = .ok (Fragment.printAll inner) := fun h => by
    rw [renderInline_eq_mapM, h]
    rfl
  induction h with
  | nil => rfl
  | @stuck _ t _ hplace =>
    rw [List.mapM_cons]
    cases t with
    | raw | command => rfl
    | _ => cases hplace
  | leaf _ hfragment _ ih => exact mapM_fragment_cons hfragment ih
  | bold _ _ ihbody ih | italic _ _ ihbody ih =>
    exact mapM_fragment_cons (by rw [Token.fragment, Token.fragmentWith, hinner ihbody]; rfl) ih

/-- A bold token needs one level more than its text. -/
theorem Rendered.of_bold (h : Rendered mode (depth + 1) (.bold body :: tokens) result) :
    ∃ inner, Rendered mode depth (readInline mode body) (.ok inner) := by
  cases h with
  | stuck hplace => cases hplace
  | leaf he => cases he
  | bold hinner => exact ⟨_, hinner⟩

/-- Tokens are rendered if the texts of the bold and italic ones among them are. -/
theorem exists_rendered (hbody : ∀ t ∈ tokens, ∀ body, t = .bold body ∨ t = .italic body →
      ∃ level inner, depth = level + 1 ∧ Rendered mode level (readInline mode body) (.ok inner)) :
    ∃ result, Rendered mode depth tokens result := by
  induction tokens with
  | nil => exact ⟨.ok [], .nil⟩
  | cons t tokens ih =>
    obtain ⟨result, hrest⟩ := ih fun u hu => hbody u (List.mem_cons_of_mem _ hu)
    have ht := hbody t List.mem_cons_self
    cases hplace : t.hasPlace with
    | false => exact ⟨_, .stuck hplace⟩
    | true =>
      cases he : t.isEmphasis with
      | false =>
        obtain ⟨fragment, hfragment⟩ := exists_fragment hplace mode
        exact ⟨_, .leaf he hfragment hrest⟩
      | true =>
        cases t with
        | bold body =>
          obtain ⟨level, inner, rfl, hinner⟩ := ht body (.inl rfl)
          exact ⟨_, .bold hinner hrest⟩
        | italic body =>
          obtain ⟨level, inner, rfl, hinner⟩ := ht body (.inr rfl)
          exact ⟨_, .italic hinner hrest⟩
        | _ => cases he

/-- Every token that is read in a text has a place in the document. -/
theorem Rendered.exists_ok (h : Rendered mode depth (readInline mode s) result) :
    ∃ fragments, result = .ok fragments := by
  obtain ⟨fragments, hfragments⟩ := exists_mapM fun t (ht : t ∈ readInline mode s) =>
    exists_fragment (Token.hasPlace_of_isPlain (Token.isPlain_of_isInline (isInline_of_mem_readInline ht))) mode
  exact ⟨fragments, by rw [← h.mapM_eq, hfragments]⟩

/-- The text of an italic token needs no further level. -/
theorem exists_rendered_italic (hitalic : .italic body ∈ readInline mode s) (depth : Nat) :
    ∃ inner, Rendered mode depth (readInline mode body) (.ok inner) := by
  have hbody : ∀ t ∈ readInline mode body, ∀ u, ¬ (t = .bold u ∨ t = .italic u) := by
    intro t ht u hu
    obtain ⟨content, -, rfl⟩ := isText_of_mem_italic hitalic ht
    rcases hu with hu | hu <;> cases hu
  obtain ⟨result, hrendered⟩ : ∃ result, Rendered mode depth (readInline mode body) result :=
    exists_rendered fun t ht u hu => absurd hu (hbody t ht u)
  obtain ⟨inner, rfl⟩ := hrendered.exists_ok
  exact ⟨inner, hrendered⟩

/-- The text of a bold token needs one level. -/
theorem exists_rendered_bold (hbold : .bold body ∈ readInline mode s) (depth : Nat) :
    ∃ inner, Rendered mode (depth + 1) (readInline mode body) (.ok inner) := by
  have hbody : ∀ t ∈ readInline mode body, ∀ u, t = .bold u ∨ t = .italic u → t = .italic u := by
    rintro t ht u (rfl | rfl)
    · rcases isText_or_italic_of_mem_bold hbold ht with ⟨content, -, hu⟩ | ⟨v, hu⟩ <;> cases hu
    · rfl
  obtain ⟨result, hrendered⟩ : ∃ result, Rendered mode (depth + 1) (readInline mode body) result :=
    exists_rendered fun t ht u hu => by
      obtain rfl := hbody t ht u hu
      obtain ⟨inner, hinner⟩ := exists_rendered_italic ht depth
      exact ⟨depth, inner, rfl, hinner⟩
  obtain ⟨inner, rfl⟩ := hrendered.exists_ok
  exact ⟨inner, hrendered⟩

/-- The bold and italic tokens of a line belong to text that is read as inline. -/
theorem exists_mem_readInline_of_readLine (h : readLine mode line = (mode', .ok tokens)) (ht : t ∈ tokens)
    (he : t.isEmphasis = true) : ∃ s, t ∈ readInline mode' s := by
  obtain ⟨found, hstart, rfl⟩ := exists_readStart_of_readLine h
  have hinline : t.isInline = true := by cases t <;> first | rfl | cases he
  rcases (light_readStart_line hstart).of_mem_settle ht hinline with ⟨content, -, rfl⟩ | hread
  · cases he
  · exact hread

/-- A line needs two levels at most. -/
theorem exists_rendered_line (h : readLine mode line = (mode', .ok tokens)) :
    ∃ result, Rendered mode' 2 tokens result :=
  exists_rendered fun t ht body hbody => by
    have he : t.isEmphasis = true := by rcases hbody with rfl | rfl <;> rfl
    obtain ⟨s, hread⟩ := exists_mem_readInline_of_readLine h ht he
    rcases hbody with rfl | rfl
    · obtain ⟨inner, hinner⟩ := exists_rendered_bold hread 0
      exact ⟨1, inner, rfl, hinner⟩
    · obtain ⟨inner, hinner⟩ := exists_rendered_italic hread 1
      exact ⟨1, inner, rfl, hinner⟩

/-- **Spans are nested twice at most.** The text of a bold token consists of ordinary and italic text, that of an
italic token of ordinary text. So every line, whatever stars are in it, is rendered to the fragments of its tokens with
at most two calls one inside the other. -/
theorem spans_nested_twice (mode : Mode) (s : Text) :
    (∀ body, .bold body ∈ readInline mode s →
      ∀ t ∈ readInline mode body, t.IsText ∨ ∃ inner, t = .italic inner) ∧
    (∀ body, .italic body ∈ readInline mode s → ∀ t ∈ readInline mode body, t.IsText) ∧
    ∀ mode' tokens, readLine mode s = (mode', .ok tokens) →
      Rendered mode' 2 tokens (tokens.mapM (Token.fragment mode')) := by
  refine ⟨fun body hbold t ht => isText_or_italic_of_mem_bold hbold ht,
    fun body hitalic t ht => isText_of_mem_italic hitalic ht, fun mode' tokens hread => ?_⟩
  obtain ⟨result, hrendered⟩ := exists_rendered_line hread
  rwa [hrendered.mapM_eq]

/-- Italic text inside bold text needs both levels. -/
theorem spans_nested_twice_italic :
    let mode : Mode := ⟨false, false, []⟩
    let line := "**a *b* c** *d*".toList
    let tokens : List Token := [.bold "a *b* c".toList, .text " ".toList, .italic "d".toList]
    .bold "a *b* c".toList ∈ readInline mode line ∧ .italic "b".toList ∈ readInline mode "a *b* c".toList ∧
      (∀ t ∈ readInline mode "a *b* c".toList, t.IsText ∨ ∃ inner, t = .italic inner) ∧
      (∀ t ∈ readInline mode "d".toList, t.IsText) ∧
      readLine mode line = (mode, .ok tokens) ∧ Rendered mode 2 tokens (tokens.mapM (Token.fragment mode)) ∧
      ∀ result, ¬ Rendered mode 1 tokens result := by
  intro mode line tokens
  have htext : readInline mode line = tokens := by decide +kernel
  have hbody : readInline mode "a *b* c".toList = [.text "a ".toList, .italic "b".toList, .text " c".toList] := by
    decide +kernel
  have hread : readLine mode line = (mode, .ok tokens) := by
    have hc : mode.Closable := fun h => by cases h
    obtain ⟨mode', tokens', hread, -⟩ := readLine_cases hc line
    have hmode : (readLine mode line).1 = mode := by decide +kernel
    have htokens : (readLine mode line).2.toOption = some tokens := by decide +kernel
    rw [hread] at hmode htokens
    rw [hread, show mode' = mode from hmode, Option.some.inj htokens]
  have hbold : .bold "a *b* c".toList ∈ readInline mode line := by
    rw [htext]
    exact List.mem_cons_self
  have hitalic : .italic "d".toList ∈ readInline mode line := by
    rw [htext]
    exact List.mem_of_mem_tail (List.mem_of_mem_tail List.mem_cons_self)
  obtain ⟨hboldText, hitalicText, hrendered⟩ := spans_nested_twice mode line
  refine ⟨hbold, hbody ▸ List.mem_cons_of_mem _ List.mem_cons_self, hboldText _ hbold, hitalicText _ hitalic, hread,
    hrendered mode tokens hread, fun result h => ?_⟩
  obtain ⟨inner, hinner⟩ := h.of_bold
  rw [hbody] at hinner
  generalize Except.ok inner = rendered at hinner
  cases hinner with
  | stuck hplace => cases hplace
  | leaf _ _ hrest =>
    cases hrest with
    | stuck hplace => cases hplace
    | leaf he => cases he

end Rendering

end Lectern
