import Lectern.Proofs.InlineText
import Lectern.Proofs.LineContents

/-!
# Where spans end

Bold, italic and verbatim spans, and math between dollars, stand between two equal delimiters (`Token.Between`). A
backslash in front of the first delimiter makes ordinary text of it. In front of the second one it does nothing: the
span ends with the delimiter that comes next behind the first character of its body (`nearest_of_splitAt?`), and a
backslash there is the last character of the body. **`exists_span_of_readInline`** says so of every span of a text,
and that the rendered text of a bold or italic span ends in a backslash if and only if its body does, so that the brace
behind it is escaped.
-/

set_option autoImplicit false

namespace Lectern

/-! ## Last characters -/

namespace Text

/-- The text has a last character, and that is no backslash. -/
def endsPlain (s : Text) : Bool := s.getLast?.any (· != '\\')

variable {s more : Text}

theorem endsPlain_append (h : endsPlain more = true) : endsPlain (s ++ more) = true := by
  rw [endsPlain, List.getLast?_append]
  unfold endsPlain at h
  cases hlast : more.getLast? with
  | none =>
    rw [hlast] at h
    cases h
  | some c =>
    rw [hlast] at h
    exact h

theorem getLast?_ne_of_endsPlain (h : endsPlain s = true) : s.getLast? ≠ some '\\' := by
  intro hlast
  rw [endsPlain, hlast] at h
  cases h

/-- What is behind a text that does not end in a backslash ends in one if and only if the whole text does. -/
theorem getLast?_append_of_endsPlain (h : endsPlain s = true) :
    (s ++ more).getLast? = some '\\' ↔ more.getLast? = some '\\' := by
  rw [List.getLast?_append]
  cases hlast : more.getLast? with
  | none => simpa using getLast?_ne_of_endsPlain h
  | some c => simp

/-- The first place where a text can be cut is the first place where the delimiter stands. -/
theorem nearest_of_splitAt? {delimiter before rest : Text} (h : splitAt? delimiter s = some (before, rest))
    {inner more : Text} (he : before ++ delimiter = inner ++ delimiter ++ more) : more = [] := by
  induction s generalizing before inner with
  | nil =>
    have hlength := congrArg List.length (splitAt?_eq_some h)
    have hlength' := congrArg List.length he
    simp only [List.length_append, List.length_nil] at hlength hlength'
    exact List.length_eq_zero_iff.1 (by omega)
  | cons c s ih =>
    have hs := splitAt?_eq_some h
    rw [splitAt?] at h
    split at h
    · cases h
      have hlength := congrArg List.length he
      simp only [List.length_append, List.length_nil] at hlength
      exact List.length_eq_zero_iff.1 (by omega)
    · next hnone =>
      obtain ⟨⟨front, behind⟩, hsplit, hpair⟩ := Option.map_eq_some_iff.1 h
      cases hpair
      cases inner with
      | nil =>
        -- the delimiter would stand in front of the text
        have hprefix : delimiter <+: c :: s := by
          rw [hs, he]
          exact ⟨more ++ rest, by simp⟩
        exact absurd hprefix (Glyph.after?_eq_none_iff.1 hnone)
      | cons d inner =>
        rw [List.cons_append, List.cons_append, List.cons_append] at he
        exact ih hsplit (List.cons.inj he).2

end Text

/-! ## Spans between equal delimiters -/

/-- The token is a span between two equal delimiters. -/
inductive Token.Between : Token → Text → Text → Prop
  | bold (body : Text) : Between (.bold body) "**".toList body
  | italic (body : Text) : Between (.italic body) "*".toList body
  | verbatim (body : Text) : Between (.verbatim body) "|".toList body
  /-- Math between dollars. -/
  | math {delimiter : Text} (body : Text) : (delimiter, delimiter) ∈ SpanRule.mathDelimiters →
      Between (.math (delimiter ++ body ++ delimiter)) delimiter body

namespace SpanRule

section Front

variable {rule : SpanRule} {s rest delimiter body : Text} {t : Token}

/-- The delimiters of math are equal if they start alike. -/
theorem eq_of_mem_mathDelimiters {opening closing s s' : Text} (h : (opening, closing) ∈ mathDelimiters)
    (hd : (delimiter, delimiter) ∈ mathDelimiters) (he : opening ++ s = delimiter ++ s') : closing = opening := by
  have hall : ∀ pair ∈ mathDelimiters, pair.1.head? = some '$' → pair.2 = pair.1 := by decide
  have hdollar : ∀ pair ∈ mathDelimiters, pair.1 = pair.2 → pair.1.head? = some '$' := by decide
  have hne : ∀ pair ∈ mathDelimiters, pair.1 ≠ [] := by decide
  refine hall _ h ?_
  obtain ⟨c, opening, rfl⟩ := List.exists_cons_of_ne_nil (hne _ h)
  obtain ⟨d, delimiter, rfl⟩ := List.exists_cons_of_ne_nil (hne _ hd)
  rw [List.cons_append, List.cons_append] at he
  rw [List.head?_cons, (List.cons.inj he).1]
  exact hdollar _ hd rfl

/-- A span between equal delimiters ends with the nearest of them, and behind a backslash it is no span. -/
theorem exists_between_of_front? (h : rule.front? s = some (t, rest))
    (ht : ∃ delimiter body, t.Between delimiter body) :
    ∃ delimiter body, t.Between delimiter body ∧ enclosed? delimiter delimiter s = some (body, rest) ∧
      ∃ u form, rule.Finds u form ∧ form <+: '\\' :: delimiter := by
  obtain ⟨d, b, ht⟩ := ht
  cases rule with
  | math =>
    rw [front?, mathFront?] at h
    split at h
    · cases h
      cases ht
    · obtain ⟨⟨span, tail⟩, hspan, hpair⟩ := Option.map_eq_some_iff.1 h
      cases hpair
      obtain ⟨⟨opening, closing⟩, hmem, hfound⟩ := List.exists_of_findSome?_eq_some hspan
      obtain ⟨⟨inner, tail⟩, henclosed, hpair⟩ := Option.map_eq_some_iff.1 hfound
      cases hpair
      generalize hu : Token.math _ = u at ht
      cases ht with
      | math _ hd =>
        have he := Token.math.inj hu
        rw [List.append_assoc, List.append_assoc] at he
        obtain rfl := eq_of_mem_mathDelimiters hmem hd he
        have hstarts : ∀ pair ∈ mathDelimiters, pair.1 = pair.2 → ['$'] <+: pair.1 := by decide
        obtain ⟨more, hmore⟩ := hstarts _ hmem rfl
        exact ⟨_, inner, hu ▸ .math inner hmem, henclosed, _, _, .dollar, more, congrArg ('\\' :: ·) hmore⟩
      | _ => cases hu
  | verbatim =>
    obtain ⟨form, hfinds, rfl⟩ := exists_finds_of_front? h
    cases hfinds with
    | bar => cases ht
    | escapedGlyph hmem => cases hmem
    | @verbatim inner hne hinner =>
      have henclosed : enclosed? "|".toList "|".toList (['|'] ++ inner ++ ['|'] ++ rest) = some (inner, rest) := by
        obtain ⟨c, tail, rfl⟩ := List.exists_cons_of_ne_nil hne
        have hbar : '|' ∉ tail := fun hmem => (hinner '|' (List.mem_cons_of_mem _ hmem)).1 rfl
        have hafter : Text.after? "|".toList (['|'] ++ (c :: tail) ++ ['|'] ++ rest) =
            some (c :: (tail ++ '|' :: rest)) :=
          Text.after?_eq_some.2 (by simp)
        rw [enclosed?, hafter]
        exact congrArg (Option.map _) (Text.splitAt?_append_cons hbar)
      exact ⟨_, inner, .verbatim inner, henclosed, _, _, .bar, List.prefix_refl _⟩
  | arrow =>
    obtain ⟨form, hfinds, -⟩ := exists_finds_of_front? h
    cases hfinds <;> cases ht
  | comparison =>
    obtain ⟨form, hfinds, -⟩ := exists_finds_of_front? h
    cases hfinds <;> cases ht
  | bold =>
    rw [front?, starFront?] at h
    split at h
    · cases h
      cases ht
    · obtain ⟨⟨inner, tail⟩, henclosed, hpair⟩ := Option.map_eq_some_iff.1 h
      cases hpair
      exact ⟨_, inner, .bold inner, henclosed, _, _, .twoStars, List.prefix_refl _⟩
  | italic =>
    rw [front?, starFront?] at h
    split at h
    · cases h
      cases ht
    · obtain ⟨⟨inner, tail⟩, henclosed, hpair⟩ := Option.map_eq_some_iff.1 h
      cases hpair
      exact ⟨_, inner, .italic inner, henclosed, _, _, .star, List.prefix_refl _⟩

/-- What a rule finds is not written with a backslash at its end. -/
theorem endsPlain_of_finds {form : Text} (h : rule.Finds t form) : Text.endsPlain form = true := by
  have hclosing : ∀ pair ∈ mathDelimiters, Text.endsPlain pair.2 = true := by decide
  have hsign : ∀ glyph ∈ Glyph.arrows ++ Glyph.comparisons, Text.endsPlain glyph.sign = true := by decide
  cases h with
  | dollar | bar | twoStars | star => rfl
  | math hmem => exact Text.endsPlain_append (hclosing _ hmem)
  | verbatim | bold | italic => exact Text.endsPlain_append rfl
  | @escapedGlyph _ glyph hmem => exact Text.endsPlain_append (s := ['\\']) (hsign glyph (mem_of_mem_glyphs hmem))
  | @arrow glyph hmem => exact hsign glyph (List.mem_append_left _ hmem)
  | @comparison glyph hmem => exact hsign glyph (List.mem_append_right _ hmem)

end Front

end SpanRule

/-! ## Rendered spans -/

section Rendering

variable {mode : Mode} {s text : Text}

theorem isSome_splitClosing?_append {closing : Text} (h : closing ∈ SpanRule.mathDelimiters.map Prod.snd) (s : Text) :
    (splitClosing? (s ++ closing)).isSome = true := by
  have hclosing : ∀ closing ∈ SpanRule.mathDelimiters.map Prod.snd, (splitClosing? closing).isSome = true := by decide
  induction s with
  | nil => exact hclosing closing h
  | cons c s ih =>
    rw [List.cons_append, splitClosing?]
    split
    · rfl
    · rwa [Option.isSome_map]

/-- A math span is rendered with a closing delimiter at its end. -/
theorem endsPlain_splitMathSpan {opening closing : Text} (h : (opening, closing) ∈ SpanRule.mathDelimiters)
    (body : Text) : ∃ first inner last, splitMathSpan (opening ++ body ++ closing) = (first, inner, last) ∧
      Text.endsPlain last = true := by
  have hlast : ∀ closing ∈ SpanRule.mathDelimiters.map Prod.snd, Text.endsPlain closing = true := by decide
  have hafter : Text.after? opening (opening ++ body ++ closing) = some (body ++ closing) :=
    Text.after?_eq_some.2 (List.append_assoc _ _ _)
  unfold splitMathSpan
  generalize hfind : List.findSome? _ _ = found?
  cases found? with
  | none =>
    -- its own delimiters make a span of it
    have hnone := List.findSome?_eq_none_iff.1 hfind opening (List.mem_map_of_mem h)
    rw [Option.map_eq_none_iff, hafter, Option.bind_some] at hnone
    have hsome := isSome_splitClosing?_append (List.mem_map_of_mem h) body
    rw [hnone] at hsome
    cases hsome
  | some found =>
    obtain ⟨first, -, hfirst⟩ := List.exists_of_findSome?_eq_some hfind
    obtain ⟨⟨inner, last⟩, hbind, rfl⟩ := Option.map_eq_some_iff.1 hfirst
    obtain ⟨rest, -, hclosing⟩ := Option.bind_eq_some_iff.1 hbind
    exact ⟨first, inner, last, rfl, hlast last (splitClosing?_eq hclosing).1⟩

/-- What a rule finds is not written with a backslash at its end in the document either. -/
theorem endsPlain_print (hm : mode.inBlock = false) {rule : SpanRule} {t : Token} {form : Text}
    {fragment : Fragment} (h : rule.Finds t form) (hf : t.fragment mode = .ok fragment) :
    Text.endsPlain fragment.print = true := by
  have hmath := (Mode.inBlock_eq_false.1 hm).2
  have hsign : ∀ glyph ∈ Glyph.arrows ++ Glyph.comparisons, Text.endsPlain glyph.sign = true := by decide
  cases h with
  | dollar | bar | twoStars | star =>
    cases hf
    rfl
  | math hmem =>
    obtain ⟨first, inner, last, hsplit, hlast⟩ := endsPlain_splitMathSpan hmem _
    rw [Token.fragment, Token.fragmentWith, hsplit] at hf
    cases hf
    exact Text.endsPlain_append hlast
  | verbatim =>
    cases hf
    exact Text.endsPlain_append rfl
  | escapedGlyph hmem =>
    cases hf
    exact hsign _ (SpanRule.mem_of_mem_glyphs hmem)
  | @arrow glyph | @comparison glyph =>
    have hcontrol : Fragment.control glyph mode.math = fragment := Except.ok.inj hf
    rw [← hcontrol, hmath]
    exact Text.endsPlain_append (s := ['$'] ++ glyph.control) rfl
  | bold | italic =>
    obtain ⟨inner, -, rfl⟩ := exists_of_map_eq_ok hf
    exact Text.endsPlain_append rfl

/-- **A text is rendered with a backslash at its end if and only if it has one there.** -/
theorem getLast?_renderInline (hm : mode.inBlock = false) (hs : ∀ c ∈ s, c ≠ '\r' ∧ c ≠ '\n')
    (h : renderInline mode s = .ok text) : text.getLast? = some '\\' ↔ s.getLast? = some '\\' := by
  induction s using readInline_induction generalizing text with
  | inert s hinert =>
    rw [renderInline_of_inert hm hinert hs] at h
    cases h
    rfl
  | span rule stretch s t rest hfirst _ ih =>
    obtain ⟨before, fragment, after, -, hfragment, hafter, hwhole⟩ := exists_renderInline_of_firstSpan hm hfirst
    rw [hwhole] at h
    cases h
    obtain ⟨form, hfinds, rfl⟩ := SpanRule.exists_finds_of_front? hfirst.front
    have hform : Text.endsPlain (stretch ++ form) = true := Text.endsPlain_append (SpanRule.endsPlain_of_finds hfinds)
    have hprint : Text.endsPlain (before ++ fragment.print) = true :=
      Text.endsPlain_append (endsPlain_print hm hfinds hfragment)
    rw [← List.append_assoc, Text.getLast?_append_of_endsPlain hform, Text.getLast?_append_of_endsPlain hprint]
    exact ih (fun c hc => hs c (List.mem_append_right _ (List.mem_append_right _ hc))) hafter

end Rendering

/-! ## Spans of a text -/

section Spans

variable {mode : Mode} {s delimiter body front behind : Text} {t : Token}

/-- Where a span stands in a text, with what is in front of it and behind it. -/
structure StandsIn (s delimiter body front behind : Text) : Prop where
  eq : s = front ++ (delimiter ++ body ++ delimiter) ++ behind
  body_ne_nil : body ≠ []
  /-- There is no backslash in front of the span. -/
  opens : front.getLast? ≠ some '\\'
  /-- The span ends with the nearest delimiter behind the first character of its body. -/
  nearest : ∀ inner more, body.tail ++ delimiter = inner ++ delimiter ++ more → more = []

theorem StandsIn.append_right (h : StandsIn s delimiter body front behind) (rest : Text) :
    StandsIn (s ++ rest) delimiter body front (behind ++ rest) where
  eq := by rw [h.eq, List.append_assoc]
  body_ne_nil := h.body_ne_nil
  opens := h.opens
  nearest := h.nearest

theorem StandsIn.append_left (h : StandsIn s delimiter body front behind) {lead : Text}
    (hlead : Text.endsPlain lead = true) : StandsIn (lead ++ s) delimiter body (lead ++ front) behind where
  eq := by rw [h.eq]; simp only [List.append_assoc]
  body_ne_nil := h.body_ne_nil
  opens := fun hlast => h.opens ((Text.getLast?_append_of_endsPlain hlead).1 hlast)
  nearest := h.nearest

/-- A first span stands behind the stretch in front of it. -/
theorem standsIn_of_firstSpan {rule : SpanRule} {stretch rest : Text}
    (h : SpanRule.FirstSpan rule stretch s t rest) (ht : ∃ delimiter body, t.Between delimiter body) :
    ∃ delimiter body, t.Between delimiter body ∧ StandsIn (stretch ++ s) delimiter body stretch rest := by
  obtain ⟨delimiter, body, hbetween, henclosed, u, form, hfinds, hform⟩ :=
    SpanRule.exists_between_of_front? h.front ht
  have hs := SpanRule.eq_of_enclosed? henclosed
  refine ⟨delimiter, body, hbetween, ?_, SpanRule.ne_nil_of_enclosed? henclosed, fun hlast => ?_, ?_⟩
  · rw [hs]
    simp only [List.append_assoc]
  · -- the rule would have found an escape at the backslash
    obtain ⟨front, rfl⟩ := List.getLast?_eq_some_iff.1 hlast
    have hnone := h.inert ['\\'] (List.cons_ne_nil _ _) (List.suffix_append _ _)
    obtain ⟨more, hmore⟩ := hform
    have hsome := SpanRule.isSome_front?_of_finds hfinds (more ++ (body ++ delimiter ++ rest))
    rw [← List.append_assoc, hmore] at hsome
    rw [hs] at hnone
    simp only [List.cons_append, List.nil_append, List.append_assoc] at hnone hsome
    rw [hnone] at hsome
    cases hsome
  · obtain ⟨c, tail, hbody⟩ := List.exists_cons_of_ne_nil (SpanRule.ne_nil_of_enclosed? henclosed)
    subst hbody
    intro inner more he
    unfold SpanRule.enclosed? at henclosed
    split at henclosed
    · obtain ⟨found, hsplit, hpair⟩ := Option.map_eq_some_iff.1 henclosed
      cases hpair
      exact Text.nearest_of_splitAt? hsplit he
    · cases henclosed

/-- Where a token of a list stands that is put together of two lists around a token. -/
theorem mem_append_cons_cases {α : Type} {first second before after : List α} {x y : α}
    (h : first ++ x :: second = before ++ y :: after) :
    (∃ between, first = before ++ y :: between ∧ after = between ++ x :: second) ∨
      (first = before ∧ x = y ∧ second = after) ∨
      ∃ between, before = first ++ x :: between ∧ second = between ++ y :: after := by
  rcases List.append_eq_append_iff.1 h with ⟨between, rfl, hcons⟩ | ⟨between, rfl, hcons⟩
  · cases between with
    | nil =>
      cases hcons
      exact .inr (.inl ⟨(List.append_nil _).symm, rfl, rfl⟩)
    | cons z between =>
      cases hcons
      exact .inr (.inr ⟨between, rfl, rfl⟩)
  · cases between with
    | nil =>
      cases hcons
      exact .inr (.inl ⟨List.append_nil _, rfl, rfl⟩)
    | cons z between =>
      cases hcons
      exact .inl ⟨between, rfl, rfl⟩

/-- Every span of a text stands in it between what the tokens before it and behind it are written as. -/
theorem standsIn_of_readInline (hm : mode.inBlock = false) (hs : ∀ c ∈ s, c ≠ '\r' ∧ c ≠ '\n')
    {before after : List Token} (h : readInline mode s = before ++ t :: after)
    (ht : ∃ delimiter body, t.Between delimiter body) :
    ∃ delimiter body front behind, t.Between delimiter body ∧ StandsIn s delimiter body front behind ∧
      WrittenAll before front ∧ WrittenAll after behind := by
  induction s using readInline_induction generalizing before after with
  | inert s hinert =>
    have hmem : t ∈ Token.textIfAny s := by
      rw [← readInline_of_inert hinert, h]
      exact List.mem_append_right _ List.mem_cons_self
    unfold Token.textIfAny at hmem
    split at hmem
    · cases hmem
    · obtain ⟨delimiter, body, ht⟩ := ht
      rw [List.mem_singleton.1 hmem] at ht
      cases ht
  | span rule stretch s u rest hfirst ihs ihr =>
    obtain ⟨form, hfinds, hform⟩ := SpanRule.exists_finds_of_front? hfirst.front
    obtain ⟨written, hwritten, hsame⟩ := SpanRule.exists_written_of_front? hfirst.front
    obtain rfl : form = written := List.append_cancel_right (hform.symm.trans hsame)
    have hstretch : ∀ c ∈ stretch, c ≠ '\r' ∧ c ≠ '\n' := fun c hc => hs c (List.mem_append_left _ hc)
    have hrest : ∀ c ∈ rest, c ≠ '\r' ∧ c ≠ '\n' := fun c hc =>
      hs c (by rw [hform]; exact List.mem_append_right _ (List.mem_append_right _ hc))
    have hleft := (written_readInline hstretch mode).1
    have hright := (written_readInline hrest mode).1
    rw [readInline_of_firstSpan hm hfirst] at h
    rcases mem_append_cons_cases h with ⟨between, hbefore, rfl⟩ | ⟨rfl, rfl, rfl⟩ | ⟨between, rfl, hafter⟩
    · obtain ⟨delimiter, body, front, behind, hbetween, hstands, hfront, hbehind⟩ := ihs hstretch hbefore
      have hmore := hbehind.append (.cons hwritten hright)
      rw [← hform] at hmore
      exact ⟨delimiter, body, front, behind ++ s, hbetween, hstands.append_right s, hfront, hmore⟩
    · obtain ⟨delimiter, body, hbetween, hstands⟩ := standsIn_of_firstSpan hfirst ht
      exact ⟨delimiter, body, stretch, rest, hbetween, hstands, hleft, hright⟩
    · obtain ⟨delimiter, body, front, behind, hbetween, hstands, hfront, hbehind⟩ := ihr hrest hafter
      have hlead := Text.endsPlain_append (s := stretch) (SpanRule.endsPlain_of_finds hfinds)
      have hmore := hleft.append (.cons hwritten hfront)
      rw [hform, ← List.append_assoc]
      rw [← List.append_assoc] at hmore
      exact ⟨delimiter, body, _, behind, hbetween, hstands.append_left hlead, hmore, hbehind⟩

/-- **Where a span ends.** Every bold, italic or verbatim span and all math between dollars stands in the text between
what comes before and behind. There is no backslash in front of it, and it ends with the nearest delimiter behind the
first character of its body, with a backslash there or without. Bold and italic text is rendered with a backslash in
front of the closing brace if and only if the body ends in one. -/
theorem exists_span_of_readInline (hm : mode.inBlock = false) (hs : ∀ c ∈ s, c ≠ '\r' ∧ c ≠ '\n')
    {before after : List Token} (h : readInline mode s = before ++ t :: after)
    (ht : ∃ delimiter body, t.Between delimiter body) :
    ∃ delimiter body front behind, t.Between delimiter body ∧ StandsIn s delimiter body front behind ∧
      WrittenAll before front ∧ WrittenAll after behind ∧
      ∃ text, renderInline mode body = .ok text ∧ (text.getLast? = some '\\' ↔ body.getLast? = some '\\') := by
  obtain ⟨delimiter, body, front, behind, hbetween, hstands, hfront, hbehind⟩ := standsIn_of_readInline hm hs h ht
  obtain ⟨text, htext⟩ := exists_renderInline mode body
  have hbody : ∀ c ∈ body, c ≠ '\r' ∧ c ≠ '\n' := fun c hc => hs c (by
    rw [hstands.eq]
    exact List.mem_append_left _ (List.mem_append_right _ (List.mem_append_left _ (List.mem_append_right _ hc))))
  exact ⟨delimiter, body, front, behind, hbetween, hstands, hfront, hbehind, text, htext,
    getLast?_renderInline hm hbody htext⟩

/-- Two stars behind a backslash are no span, and two spans end behind a backslash. -/
theorem exists_span_of_readInline_backslashes :
    let mode : Mode := ⟨false, false, []⟩
    let s := "a\\** *b\\* $c\\$".toList
    let before := [.text "a".toList, .text "**".toList, .text " ".toList]
    let after := [.text " ".toList, .math "$c\\$".toList]
    mode.inBlock = false ∧ (∀ c ∈ s, c ≠ '\r' ∧ c ≠ '\n') ∧
      readInline mode s = before ++ .italic "b\\".toList :: after ∧
      (∃ delimiter body, (Token.italic "b\\".toList).Between delimiter body) ∧
      ∃ front behind, StandsIn s "*".toList "b\\".toList front behind ∧ WrittenAll after behind ∧
        ∃ text, renderInline mode "b\\".toList = .ok text ∧ text.getLast? = some '\\' := by
  intro mode s before after
  have hm : mode.inBlock = false := rfl
  have hs : ∀ c ∈ s, c ≠ '\r' ∧ c ≠ '\n' := forall_ne_lineEnd_of_all (by decide)
  have hread : readInline mode s = before ++ .italic "b\\".toList :: after := by decide +kernel
  have hbetween : ∃ delimiter body, (Token.italic "b\\".toList).Between delimiter body := ⟨_, _, .italic _⟩
  obtain ⟨delimiter, body, front, behind, h, hstands, -, hbehind, text, htext, hlast⟩ :=
    exists_span_of_readInline hm hs hread hbetween
  cases h
  exact ⟨hm, hs, hread, hbetween, front, behind, hstands, hbehind, text, htext, hlast.2 rfl⟩

/-- A star behind a backslash ends an italic span, and the brace behind it is escaped. -/
theorem not_body_endsPlain :
    (¬ ∀ (mode : Mode) (s : Text), mode.inBlock = false → (∀ c ∈ s, c ≠ '\r' ∧ c ≠ '\n') →
      ∀ t ∈ readInline mode s, (∀ span, t ≠ .verbatim span) → ∀ delimiter body, t.Between delimiter body →
      body.getLast? ≠ some '\\') ∧
      (renderInline ⟨false, false, []⟩ "*a\\*".toList).toOption = some "\\textit\x7ba\\\x7d".toList := by
  refine ⟨fun h => ?_, by decide +kernel⟩
  have hread : readInline ⟨false, false, []⟩ "*a\\*".toList = [.italic "a\\".toList] := by decide +kernel
  have hmem : Token.italic "a\\".toList ∈ readInline ⟨false, false, []⟩ "*a\\*".toList :=
    List.mem_of_mem_head? (by rw [hread]; rfl)
  exact h _ _ rfl (forall_ne_lineEnd_of_all (by decide)) _ hmem (fun _ he => by cases he) _ _ (.italic _) rfl

end Spans

end Lectern
