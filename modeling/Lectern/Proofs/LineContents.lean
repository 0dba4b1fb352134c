import Lectern.Proofs.Comparisons
import Lectern.Proofs.Writing

/-!
# What comes of the characters of a line

Two things are true of a line whatever is found in it. No line feed comes out of a text without one
(**`Token.OneLine`**, `Progress.not_mem_of_renderAll`), because tokens hold nothing but what they were found in and
LaTeX commands are words. And what is not blank does not become blank (**`Token.shows`**,
`Progress.allBlank_of_renderAll`): a span shows its delimiters or the name of a command, and characters that stand for
themselves stay. Both go through the rules for spans one by one (`oneLine_of_front?`, `shows_of_front?`) and then
through settling and rendering.
-/

set_option autoImplicit false

namespace Lectern

/-! ## Settling keeps what cutting keeps -/

section Keeping

variable {P : Token → Prop} {mode : Mode} {tokens : List Token}

theorem forall_mem_settle (hcut : ∀ s, P (.raw s) → ∀ t ∈ SpanRule.cut mode s, P t) (h : ∀ t ∈ tokens, P t) :
    ∀ t ∈ settle mode tokens, P t := by
  fun_induction settle mode tokens with
  | case1 => exact h
  | case2 s tokens ih =>
    refine ih fun t ht => ?_
    rcases List.mem_append.1 ht with ht | ht
    · exact hcut s (h _ List.mem_cons_self) t ht
    · exact h t (List.mem_cons_of_mem _ ht)
  | case3 t tokens ht ih =>
    rw [List.forall_mem_cons] at h ⊢
    exact ⟨h.1, ih h.2⟩

theorem exists_mem_settle (hcut : ∀ s, P (.raw s) → ∃ t ∈ SpanRule.cut mode s, P t) (h : ∃ t ∈ tokens, P t) :
    ∃ t ∈ settle mode tokens, P t := by
  fun_induction settle mode tokens with
  | case1 => exact h
  | case2 s tokens ih =>
    refine ih ?_
    obtain ⟨t, ht, hp⟩ := h
    rcases List.mem_cons.1 ht with rfl | ht
    · obtain ⟨u, hu, hp⟩ := hcut s hp
      exact ⟨u, List.mem_append_left _ hu, hp⟩
    · exact ⟨t, List.mem_append_right _ ht, hp⟩
  | case3 u tokens hu ih =>
    obtain ⟨t, ht, hp⟩ := h
    rcases List.mem_cons.1 ht with rfl | ht
    · exact ⟨t, List.mem_cons_self, hp⟩
    · obtain ⟨v, hv, hp⟩ := ih ⟨t, ht, hp⟩
      exact ⟨v, List.mem_cons_of_mem _ hv, hp⟩

/-- What replaces raw text comes of a rule, or is the text. -/
theorem SpanRule.cut_cases (mode : Mode) (s : Text) :
    (∃ rule : SpanRule, cut mode s = rule.read mode s) ∨ cut mode s = Token.textIfAny s := by
  unfold cut
  cases hfind : (all.map fun rule => rule.read mode s).find? fun tokens => tokens != [.raw s] with
  | none => exact .inr rfl
  | some tokens =>
    obtain ⟨rule, -, rfl⟩ := List.mem_map.1 (List.mem_of_find?_eq_some hfind)
    exact .inl ⟨rule, rfl⟩

end Keeping

/-! ## Tokens of one line -/

/-- No line feed comes of the token. -/
def Token.OneLine : Token → Prop
  | .raw s | .command s | .heading _ s | .delimiter s | .text s | .bold s | .italic s | .verbatim s | .math s =>
    '\n' ∉ s
  | .arrow glyph | .comparison glyph => '\n' ∉ glyph.word
  | .fence _ | .item _ _ => True

namespace SpanRule

variable {rule : SpanRule} {mode : Mode} {s rest : Text} {t : Token}

/-- Only glyphs that are known are found. -/
theorem glyph_mem_of_front? {glyph : Glyph} (h : rule.front? s = some (t, rest))
    (ht : t = .arrow glyph ∨ t = .comparison glyph) : glyph ∈ Glyph.arrows ++ Glyph.comparisons := by
  have hglyphs : rule = .arrow ∨ rule = .comparison := by
    cases rule with
    | arrow => exact .inl rfl
    | comparison => exact .inr rfl
    | verbatim =>
      simp only [front?, verbatimFront?] at h
      split at h <;> try split at h
      all_goals grind
    | _ =>
      simp only [front?, mathFront?, starFront?] at h
      split at h <;> simp only [Option.map_eq_some_iff, Option.some.injEq, Prod.mk.injEq] at h <;> grind
  obtain ⟨found, hmem, rfl | rfl | rfl⟩ := glyph_of_front? hglyphs h
  · rcases ht with ht | ht <;> cases ht
  all_goals
    have hfound := mem_of_mem_glyphs hmem
    rcases ht with ht | ht <;> cases ht
    exact hfound

/-- What a rule finds in one line is of one line, and so is what it leaves. -/
theorem oneLine_of_front? (h : rule.front? s = some (t, rest)) (hs : '\n' ∉ s) : t.OneLine ∧ '\n' ∉ rest := by
  have hwords : ∀ glyph ∈ Glyph.arrows ++ Glyph.comparisons, '\n' ∉ glyph.word := by decide
  obtain ⟨form, hform, rfl⟩ := exists_written_of_front? h
  rw [List.mem_append, not_or] at hs
  refine ⟨?_, hs.2⟩
  cases hform with
  | raw | text | math => exact hs.1
  | escaped content => exact fun hc => hs.1 (List.mem_cons_of_mem _ hc)
  | arrow glyph => exact hwords glyph (glyph_mem_of_front? h (.inl rfl))
  | comparison glyph => exact hwords glyph (glyph_mem_of_front? h (.inr rfl))
  | bold | italic | verbatim => exact fun hc => hs.1 (List.mem_append_left _ (List.mem_append_right _ hc))

theorem oneLine_of_mem_gather_pieces (hs : '\n' ∉ s) : ∀ t ∈ gather (rule.pieces s), t.OneLine := by
  fun_induction pieces rule s with
  | case1 => exact fun _ ht => by cases ht
  | case2 c s u rest hfront ih =>
    obtain ⟨hu, hrest⟩ := oneLine_of_front? hfront hs
    exact List.forall_mem_cons.2 ⟨hu, ih hrest⟩
  | case3 c s hnone ih =>
    rw [List.mem_cons, not_or] at hs
    have htail := ih hs.2
    rw [gather]
    split
    · next u tokens hgather =>
      rw [hgather, List.forall_mem_cons] at htail
      exact List.forall_mem_cons.2 ⟨List.not_mem_cons_of_ne_of_not_mem hs.1 htail.1, htail.2⟩
    · exact List.forall_mem_cons.2 ⟨List.not_mem_cons_of_ne_of_not_mem hs.1 List.not_mem_nil, htail⟩

theorem oneLine_of_mem_cut (hs : '\n' ∉ s) : ∀ t ∈ cut mode s, t.OneLine := by
  rcases cut_cases mode s with ⟨rule, h⟩ | h
  · rw [h, read]
    split
    · exact oneLine_of_mem_gather_pieces hs
    · unfold Token.rawIfAny
      split
      · exact fun _ ht => by cases ht
      · exact List.forall_mem_singleton.2 hs
  · rw [h, Token.textIfAny]
    split
    · exact fun _ ht => by cases ht
    · exact List.forall_mem_singleton.2 fun hmem => hs (List.mem_filter.1 hmem).1

end SpanRule

/-- The tokens of one line are of one line. -/
theorem oneLine_of_mem_readInline {mode : Mode} {s : Text} (hs : '\n' ∉ s) : ∀ t ∈ readInline mode s, t.OneLine := by
  refine forall_mem_settle (fun _ hu => SpanRule.oneLine_of_mem_cut hu) ?_
  unfold Token.rawIfAny
  split
  · exact fun _ ht => by cases ht
  · exact List.forall_mem_singleton.2 hs

/-! ## Math text -/

/-- No line feed comes of the piece. -/
def Piece.OneLine : Piece → Prop
  | .plain c => c ≠ '\n'
  | .span t => t.OneLine

theorem SpanRule.oneLine_of_mem_pieces {rule : SpanRule} {s : Text} (hs : '\n' ∉ s) :
    ∀ p ∈ rule.pieces s, p.OneLine := by
  fun_induction pieces rule s with
  | case1 => exact fun _ hp => by cases hp
  | case2 c s t rest hfront ih =>
    obtain ⟨ht, hrest⟩ := oneLine_of_front? hfront hs
    exact List.forall_mem_cons.2 ⟨ht, ih hrest⟩
  | case3 c s hnone ih =>
    rw [List.mem_cons, not_or] at hs
    exact List.forall_mem_cons.2 ⟨fun hc => hs.1 hc.symm, ih hs.2⟩

theorem not_mem_wordSpace (s : Text) : '\n' ∉ wordSpace s := by
  cases s with
  | nil => exact List.not_mem_nil
  | cons c s =>
    rw [wordSpace]
    split <;> decide

theorem not_mem_control {glyph : Glyph} (h : '\n' ∉ glyph.word) : '\n' ∉ glyph.control :=
  List.not_mem_cons_of_ne_of_not_mem (by decide) h

theorem not_mem_printMath {ps : List Piece} (h : ∀ p ∈ ps, p.OneLine) : '\n' ∉ printMath ps := by
  induction ps with
  | nil => exact List.not_mem_nil
  | cons p ps ih =>
    rw [List.forall_mem_cons] at h
    have htail := ih h.2
    have hfollow : '\n' ∉ printMath.follow ps := by
      cases ps with
      | nil => exact List.not_mem_nil
      | cons q ps =>
        cases q with
        | plain c => exact not_mem_wordSpace [c]
        | span t => exact List.not_mem_nil
    cases p with
    | plain c => exact List.not_mem_cons_of_ne_of_not_mem (fun hc => h.1 hc.symm) htail
    | span t =>
      cases t with
      | arrow glyph => exact List.not_mem_append (List.not_mem_append (not_mem_control h.1) hfollow) htail
      | comparison glyph => exact List.not_mem_append (List.not_mem_append (not_mem_control h.1) hfollow) htail
      | text content => exact List.not_mem_append h.1 htail
      | _ => exact htail

theorem not_mem_mathText {s : Text} (hs : '\n' ∉ s) : '\n' ∉ mathText s :=
  not_mem_printMath (SpanRule.oneLine_of_mem_pieces
    (not_mem_printMath (SpanRule.oneLine_of_mem_pieces hs)))

/-- A math span is put together of its parts; a line feed at its end may be left out. -/
theorem splitClosing?_eq {s inner closing : Text} (h : splitClosing? s = some (inner, closing)) :
    closing ∈ SpanRule.mathDelimiters.map Prod.snd ∧ (s = inner ++ closing ∨ s = inner ++ closing ++ ['\n']) := by
  induction s generalizing inner with
  | nil => cases h
  | cons c s ih =>
    rw [splitClosing?] at h
    split at h
    · next found hfound =>
      cases h
      have hmem := List.mem_of_find?_eq_some hfound
      have heq := List.find?_some hfound
      rw [Bool.or_eq_true, beq_iff_eq, beq_iff_eq] at heq
      exact ⟨hmem, heq⟩
    · rw [Option.map_eq_some_iff] at h
      obtain ⟨⟨before, found⟩, hfound, hpair⟩ := h
      cases hpair
      obtain ⟨hmem, hs⟩ := ih hfound
      exact ⟨hmem, hs.imp (congrArg (c :: ·)) (congrArg (c :: ·))⟩

theorem splitMathSpan_eq (span : Text) :
    splitMathSpan span = ([], span, []) ∨ ∃ opening inner closing, splitMathSpan span = (opening, inner, closing) ∧
      opening ∈ SpanRule.mathDelimiters.map Prod.fst ∧ closing ∈ SpanRule.mathDelimiters.map Prod.snd ∧
      (span = opening ++ (inner ++ closing) ∨ span = opening ++ (inner ++ closing ++ ['\n'])) := by
  unfold splitMathSpan
  generalize hfind : List.findSome? _ _ = found?
  cases found? with
  | none => exact .inl rfl
  | some found =>
    obtain ⟨opening, hopening, hfound⟩ := List.exists_of_findSome?_eq_some hfind
    rw [Option.map_eq_some_iff] at hfound
    obtain ⟨⟨inner, closing⟩, hbind, rfl⟩ := hfound
    obtain ⟨rest, hafter, hclosing⟩ := Option.bind_eq_some_iff.1 hbind
    obtain ⟨hmem, hrest⟩ := splitClosing?_eq hclosing
    rw [Text.after?_eq_some.1 hafter]
    exact .inr ⟨opening, inner, closing, rfl, hopening, hmem,
      hrest.imp (congrArg (opening ++ ·)) (congrArg (opening ++ ·))⟩

/-! ## Fragments of one line -/

namespace Fragment

theorem not_mem_command {name : String} {argument : Text} (hn : '\n' ∉ name.toList) (ha : '\n' ∉ argument) :
    '\n' ∉ command name argument := by
  have hname : '\n' ∉ '\\' :: name.toList := List.not_mem_cons_of_ne_of_not_mem (by decide) hn
  exact List.not_mem_append (List.not_mem_append (List.not_mem_append hname (by decide)) ha) (by decide)

/-- Fragments without a line feed are printed without one. -/
theorem not_mem_printAll {fragments : List Fragment} (h : ∀ fragment ∈ fragments, '\n' ∉ fragment.print) :
    '\n' ∉ printAll fragments := by
  induction fragments with
  | nil => exact List.not_mem_nil
  | cons fragment fragments ih =>
    rw [List.forall_mem_cons] at h
    have htail := ih h.2
    cases fragments with
    | nil => exact List.not_mem_append (List.not_mem_append h.1 List.not_mem_nil) htail
    | cons next fragments =>
      have hspace : '\n' ∉ if fragment.isBareControl then wordSpace next.print else [] := by
        split
        · exact not_mem_wordSpace _
        · exact List.not_mem_nil
      exact List.not_mem_append (List.not_mem_append h.1 hspace) htail

end Fragment

section Rendering

variable {mode : Mode} {t : Token} {fragment : Fragment}

theorem not_mem_heading (level : Nat) {title : Text} (ht : '\n' ∉ title) :
    '\n' ∉ (Fragment.heading level title).print := by
  have hsteps : '\n' ∉ (List.replicate (level - 1) headingStep).flatten := fun hmem => by
    obtain ⟨step, hstep, hc⟩ := List.mem_flatten.1 hmem
    rw [(List.mem_replicate.1 hstep).2] at hc
    revert hc
    decide
  refine List.not_mem_append (List.not_mem_append (List.not_mem_append (List.not_mem_append ?_ hsteps) ?_) ht) ?_
  all_goals decide

theorem not_mem_math {span : Text} (hs : '\n' ∉ span) {opening inner closing : Text}
    (h : splitMathSpan span = (opening, inner, closing)) :
    '\n' ∉ (Fragment.math opening (mathText inner) closing).print := by
  have hclosings : ∀ closing ∈ SpanRule.mathDelimiters.map Prod.snd, '\n' ∉ closing := by decide
  have hopenings : ∀ opening ∈ SpanRule.mathDelimiters.map Prod.fst, '\n' ∉ opening := by decide
  rcases splitMathSpan_eq span with hnone | ⟨o, i, c, hsome, ho, hc, hspan⟩
  · rw [hnone] at h
    cases h
    exact List.not_mem_append (List.not_mem_append List.not_mem_nil (not_mem_mathText hs)) List.not_mem_nil
  · rw [hsome] at h
    cases h
    have hinner : '\n' ∉ inner := fun hmem => hs (by
      rcases hspan with rfl | rfl
      · exact List.mem_append_right _ (List.mem_append_left _ hmem)
      · exact List.mem_append_right _ (List.mem_append_left _ (List.mem_append_left _ hmem)))
    exact List.not_mem_append (List.not_mem_append (hopenings _ ho) (not_mem_mathText hinner)) (hclosings _ hc)

/-- The fragment of a token of one line is of one line, if that is true of the texts inside it. -/
theorem not_mem_fragmentWith {inner : Text → Except Unrenderable Text}
    (hi : ∀ s text, '\n' ∉ s → inner s = .ok text → '\n' ∉ text) (ht : t.OneLine)
    (h : t.fragmentWith inner mode = .ok fragment) : '\n' ∉ fragment.print := by
  have hcontrol : ∀ {glyph : Glyph} (bare : Bool), '\n' ∉ glyph.word → '\n' ∉ (Fragment.control glyph bare).print := by
    intro glyph bare hword
    cases bare with
    | true => exact not_mem_control hword
    | false => exact List.not_mem_append (List.not_mem_append (by decide) (not_mem_control hword)) (by decide)
  cases t with
  | raw s => cases h
  | command assignment => cases h
  | heading level title =>
    cases h
    exact not_mem_heading level ht
  | fence opens =>
    cases h
    cases opens <;> decide
  | delimiter mark =>
    cases h
    exact ht
  | text content =>
    cases h
    exact ht
  | arrow glyph =>
    cases h
    exact hcontrol _ ht
  | comparison glyph =>
    cases h
    exact hcontrol _ ht
  | item kind level =>
    cases h
    decide
  | bold body =>
    obtain ⟨text, hbody, rfl⟩ := exists_of_map_eq_ok h
    exact Fragment.not_mem_command (by decide) (hi body text ht hbody)
  | italic body =>
    obtain ⟨text, hbody, rfl⟩ := exists_of_map_eq_ok h
    exact Fragment.not_mem_command (by decide) (hi body text ht hbody)
  | verbatim body =>
    cases h
    exact List.not_mem_append (List.not_mem_append (by decide) ht) (by decide)
  | math span =>
    cases h
    exact not_mem_math ht rfl

theorem not_mem_renderSpan (mode : Mode) (depth : Nat) (s text : Text) (hs : '\n' ∉ s)
    (h : renderSpan mode depth s = .ok text) : '\n' ∉ text := by
  induction depth generalizing s text with
  | zero =>
    cases h
    exact hs
  | succ depth ih =>
    obtain ⟨fragments, hm, rfl⟩ := exists_of_map_eq_ok h
    exact Fragment.not_mem_printAll (forall_mem_of_mapM
      (fun t ht fragment hf => not_mem_fragmentWith ih (oneLine_of_mem_readInline hs t ht) hf) hm)

/-- The fragment of a token of one line is of one line. -/
theorem not_mem_fragment (ht : t.OneLine) (h : t.fragment mode = .ok fragment) : '\n' ∉ fragment.print :=
  not_mem_fragmentWith (fun s text hs => not_mem_renderSpan mode s.length s text hs) ht h

end Rendering

/-! ## Texts that show something -/

theorem Text.allBlank_append (s t : Text) : allBlank (s ++ t) = (allBlank s && allBlank t) := List.all_append

theorem Text.allBlank_cons (c : Char) (s : Text) : allBlank (c :: s) = (isBlank c && allBlank s) := rfl

/-- Something is seen of the token. -/
def Token.shows : Token → Bool
  | .raw s | .delimiter s | .text s | .math s => !Text.allBlank s
  | _ => true

namespace SpanRule

variable {rule : SpanRule} {mode : Mode} {s rest : Text} {t : Token}

/-- What a rule finds is seen. -/
theorem shows_of_front? (h : rule.front? s = some (t, rest)) : t.shows = true := by
  have hsigns : ∀ glyph ∈ Glyph.arrows ++ Glyph.comparisons, (Token.text glyph.sign).shows = true := by decide
  have hopenings : ∀ delimiters ∈ mathDelimiters, Text.allBlank delimiters.1 = false := by decide
  have hstars : ∀ {stars : Text} {token : Text → Token}, (Token.text stars).shows = true →
      (∀ body, (token body).shows = true) → starFront? stars token s = some (t, rest) → t.shows = true := by
    intro stars token htext htoken h
    unfold starFront? at h
    split at h
    · cases h
      exact htext
    · rw [Option.map_eq_some_iff] at h
      obtain ⟨⟨body, tail⟩, -, hpair⟩ := h
      cases hpair
      exact htoken body
  cases rule with
  | math =>
    simp only [front?, mathFront?] at h
    split at h
    · cases h
      decide
    · rw [Option.map_eq_some_iff] at h
      obtain ⟨⟨span, tail⟩, hspan, hpair⟩ := h
      cases hpair
      obtain ⟨delimiters, hmem, hfound⟩ := List.exists_of_findSome?_eq_some hspan
      rw [Option.map_eq_some_iff] at hfound
      obtain ⟨⟨body, tail⟩, -, hpair⟩ := hfound
      cases hpair
      rw [Token.shows, Text.allBlank_append, Text.allBlank_append, hopenings _ hmem]
      rfl
  | verbatim =>
    simp only [front?, verbatimFront?] at h
    split at h
    · cases h
      decide
    · split at h <;> cases h
      rfl
    · cases h
  | arrow =>
    obtain ⟨glyph, hmem, ⟨rfl, -⟩ | ⟨rfl, -⟩⟩ := exists_glyph_of_glyphFront? h
    · exact hsigns glyph (List.mem_append_left _ hmem)
    · rfl
  | comparison =>
    obtain ⟨glyph, hmem, ⟨rfl, -⟩ | ⟨rfl, -⟩⟩ := exists_glyph_of_glyphFront? h
    · exact hsigns glyph (List.mem_append_right _ hmem)
    · rfl
  | bold => exact hstars (by decide) (fun _ => rfl) h
  | italic => exact hstars (by decide) (fun _ => rfl) h

theorem shows_raw_cons {c : Char} (hc : Text.isBlank c = false) (s : Text) : (Token.raw (c :: s)).shows = true := by
  rw [Token.shows, Text.allBlank_cons, hc]
  rfl

theorem exists_shows_of_gather_pieces (hs : Text.allBlank s = false) :
    ∃ t ∈ gather (rule.pieces s), t.shows = true := by
  fun_induction pieces rule s with
  | case1 => cases hs
  | case2 c s t rest hfront ih => exact ⟨t, List.mem_cons_self, shows_of_front? hfront⟩
  | case3 c s hnone ih =>
    rw [gather]
    cases hc : Text.isBlank c with
    | false => split <;> exact ⟨_, List.mem_cons_self, shows_raw_cons hc _⟩
    | true =>
      rw [Text.allBlank_cons, hc, Bool.true_and] at hs
      obtain ⟨t, ht, hshows⟩ := ih hs
      split
      · next u tokens hgather =>
        rw [hgather] at ht
        rcases List.mem_cons.1 ht with rfl | ht
        · exact ⟨.raw (c :: u), List.mem_cons_self, by rwa [Token.shows, Text.allBlank_cons, hc, Bool.true_and]⟩
        · exact ⟨t, List.mem_cons_of_mem _ ht, hshows⟩
      · exact ⟨t, List.mem_cons_of_mem _ ht, hshows⟩

theorem exists_shows_of_rawIfAny (hs : Text.allBlank s = false) : ∃ t ∈ Token.rawIfAny s, t.shows = true := by
  have hne : s ≠ [] := by
    rintro rfl
    cases hs
  refine ⟨.raw s, by rw [Token.rawIfAny, if_neg hne]; exact List.mem_cons_self, ?_⟩
  rw [Token.shows, hs]
  rfl

/-- Line ends are blank, so what shows something does so without them. -/
theorem exists_shows_of_textIfAny (hs : Text.allBlank s = false) : ∃ t ∈ Token.textIfAny s, t.shows = true := by
  obtain ⟨c, hc, hblank⟩ := List.all_eq_false.1 hs
  have hkept : c ∈ s.filter fun c => c != '\r' && c != '\n' := by
    refine List.mem_filter.2 ⟨hc, ?_⟩
    rw [Bool.and_eq_true, bne_iff_ne, bne_iff_ne]
    constructor
    · rintro rfl
      exact hblank (by decide)
    · rintro rfl
      exact hblank (by decide)
  unfold Token.textIfAny
  split
  · next hnil =>
    rw [hnil] at hkept
    cases hkept
  · refine ⟨_, List.mem_cons_self, ?_⟩
    rw [Token.shows, Text.allBlank, List.all_eq_false.2 ⟨c, hkept, hblank⟩]
    rfl

theorem exists_shows_of_cut (hs : Text.allBlank s = false) : ∃ t ∈ cut mode s, t.shows = true := by
  rcases cut_cases mode s with ⟨rule, h⟩ | h
  · rw [h, read]
    split
    · exact exists_shows_of_gather_pieces hs
    · exact exists_shows_of_rawIfAny hs
  · rw [h]
    exact exists_shows_of_textIfAny hs

end SpanRule

/-- Something is seen of a text that is not blank. -/
theorem exists_shows_of_readInline {mode : Mode} {s : Text} (hs : Text.allBlank s = false) :
    ∃ t ∈ readInline mode s, t.shows = true := by
  refine exists_mem_settle (P := fun t => t.shows = true) (fun u hu => SpanRule.exists_shows_of_cut ?_)
    (SpanRule.exists_shows_of_rawIfAny hs)
  rwa [Token.shows, Bool.not_eq_true'] at hu

/-! ## Fragments that show something -/

section Seen

variable {rule : SpanRule} {mode : Mode} {s : Text} {t : Token} {fragment : Fragment}

theorem allBlank_printMath_pieces (hr : rule = .arrow ∨ rule = .comparison) (hs : Text.allBlank s = false) :
    Text.allBlank (printMath (rule.pieces s)) = false := by
  have hsigns : ∀ glyph ∈ Glyph.arrows ++ Glyph.comparisons, Text.allBlank glyph.sign = false := by decide
  fun_induction SpanRule.pieces rule s with
  | case1 => cases hs
  | case2 c s t rest hfront ih =>
    obtain ⟨glyph, hmem, rfl | rfl | rfl⟩ := glyph_of_front? hr hfront
    · rw [printMath, Text.allBlank_append, hsigns glyph (SpanRule.mem_of_mem_glyphs hmem)]
      rfl
    · rfl
    · rfl
  | case3 c s hnone ih =>
    rw [printMath, Text.allBlank_cons]
    cases hc : Text.isBlank c with
    | false => rfl
    | true =>
      rw [Text.allBlank_cons, hc, Bool.true_and] at hs
      rw [Bool.true_and]
      exact ih hs

theorem allBlank_mathText (hs : Text.allBlank s = false) : Text.allBlank (mathText s) = false :=
  allBlank_printMath_pieces (.inr rfl) (allBlank_printMath_pieces (.inl rfl) hs)

theorem allBlank_math (hs : Text.allBlank s = false) {opening inner closing : Text}
    (h : splitMathSpan s = (opening, inner, closing)) :
    Text.allBlank (Fragment.math opening (mathText inner) closing).print = false := by
  have hopenings : ∀ opening ∈ SpanRule.mathDelimiters.map Prod.fst, Text.allBlank opening = false := by decide
  have hprint : (Fragment.math opening (mathText inner) closing).print = opening ++ mathText inner ++ closing := rfl
  rw [hprint, Text.allBlank_append, Text.allBlank_append]
  rcases splitMathSpan_eq s with hnone | ⟨o, i, c, hsome, ho, -, -⟩
  · rw [hnone] at h
    cases h
    rw [allBlank_mathText hs]
    rfl
  · rw [hsome] at h
    cases h
    rw [hopenings _ ho]
    rfl

/-- The fragment of a token that is seen is seen. -/
theorem allBlank_fragment (ht : t.shows = true) (h : t.fragment mode = .ok fragment) :
    Text.allBlank fragment.print = false := by
  cases t with
  | raw s => cases h
  | command assignment => cases h
  | heading level title =>
    cases h
    rfl
  | fence opens =>
    cases h
    cases opens <;> rfl
  | delimiter mark =>
    cases h
    rwa [Token.shows, Bool.not_eq_true'] at ht
  | text content =>
    cases h
    rwa [Token.shows, Bool.not_eq_true'] at ht
  | arrow glyph =>
    cases h
    cases hm : mode.math <;> rfl
  | comparison glyph =>
    cases h
    cases hm : mode.math <;> rfl
  | item kind level =>
    cases h
    rfl
  | bold body =>
    obtain ⟨text, -, rfl⟩ := exists_of_map_eq_ok h
    rfl
  | italic body =>
    obtain ⟨text, -, rfl⟩ := exists_of_map_eq_ok h
    rfl
  | verbatim body =>
    cases h
    rfl
  | math span =>
    cases h
    rw [Token.shows, Bool.not_eq_true'] at ht
    exact allBlank_math ht rfl

/-- Fragments of which one is seen are seen. -/
theorem Fragment.allBlank_printAll {fragments : List Fragment} (hmem : fragment ∈ fragments)
    (h : Text.allBlank fragment.print = false) : Text.allBlank (printAll fragments) = false := by
  induction fragments with
  | nil => cases hmem
  | cons first fragments ih =>
    have hsplit : ∃ space, printAll (first :: fragments) = first.print ++ space ++ printAll fragments := ⟨_, rfl⟩
    obtain ⟨space, hsplit⟩ := hsplit
    rw [hsplit, Text.allBlank_append, Text.allBlank_append]
    rcases List.mem_cons.1 hmem with rfl | hmem
    · rw [h]
      rfl
    · rw [ih hmem, Bool.and_false]

end Seen

/-! ## Lines -/

namespace Progress

variable [Memory] {indentation : Indentation} {progress reached : Progress} {tokens : List Token}
  {fragments : List Fragment}

theorem render_eq {t : Token} {fragment : Fragment} (h : progress.render indentation t = (reached, .ok fragment)) :
    reached.mode = progress.mode ∧ t.fragment progress.mode = .ok fragment := by
  have hfragment : ∀ mode, (t.fragment mode).mapError Failure.unrenderable = .ok fragment →
      t.fragment mode = .ok fragment := by
    intro mode hok
    cases hf : t.fragment mode with
    | error failure =>
      rw [hf] at hok
      cases hok
    | ok found =>
      rw [hf] at hok
      cases hok
      rfl
  cases t with
  | item kind level =>
    simp only [render, reconcile] at h
    split at h
    · cases h
    · cases h
      exact ⟨rfl, rfl⟩
  | _ =>
    injection h with hreached hok
    rw [← hreached]
    exact ⟨rfl, hfragment _ hok⟩

/-- The fragments that are rendered are those of the tokens. -/
theorem mem_of_renderAll (h : progress.renderAll indentation tokens = (reached, .ok fragments)) :
    (∀ fragment ∈ fragments, ∃ t ∈ tokens, t.fragment progress.mode = .ok fragment) ∧
      ∀ t ∈ tokens, ∃ fragment ∈ fragments, t.fragment progress.mode = .ok fragment := by
  induction tokens generalizing progress fragments with
  | nil =>
    cases h
    exact ⟨fun _ hmem => (by cases hmem), fun _ hmem => (by cases hmem)⟩
  | cons t tokens ih =>
    rw [renderAll] at h
    split at h
    · cases h
    · next next first hfirst =>
      obtain ⟨hmode, hfragment⟩ := render_eq hfirst
      split at h
      · cases h
      · next hrest =>
        cases h
        obtain ⟨hof, hto⟩ := ih hrest
        rw [hmode] at hof hto
        constructor
        · rintro fragment hmem
          rcases List.mem_cons.1 hmem with rfl | hmem
          · exact ⟨t, List.mem_cons_self, hfragment⟩
          · obtain ⟨u, hu, hf⟩ := hof fragment hmem
            exact ⟨u, List.mem_cons_of_mem _ hu, hf⟩
        · rintro u hmem
          rcases List.mem_cons.1 hmem with rfl | hmem
          · exact ⟨first, List.mem_cons_self, hfragment⟩
          · obtain ⟨fragment, hf, hu⟩ := hto u hmem
            exact ⟨fragment, List.mem_cons_of_mem _ hf, hu⟩

/-- A line of the document without line feeds comes of tokens of one line. -/
theorem not_mem_of_renderAll (h : progress.renderAll indentation tokens = (reached, .ok fragments))
    (ht : ∀ t ∈ tokens, t.OneLine) : '\n' ∉ Fragment.printAll fragments := by
  refine Fragment.not_mem_printAll fun fragment hmem => ?_
  obtain ⟨t, hmem, hfragment⟩ := (mem_of_renderAll h).1 fragment hmem
  exact not_mem_fragment (ht t hmem) hfragment

/-- Something is seen of a line if it is of one of its tokens. -/
theorem allBlank_of_renderAll (h : progress.renderAll indentation tokens = (reached, .ok fragments))
    (ht : ∃ t ∈ tokens, t.shows = true) : Text.allBlank (Fragment.printAll fragments) = false := by
  obtain ⟨t, hmem, hshows⟩ := ht
  obtain ⟨fragment, hmem, hfragment⟩ := (mem_of_renderAll h).2 t hmem
  exact Fragment.allBlank_printAll hmem (allBlank_fragment hshows hfragment)

end Progress

end Lectern
