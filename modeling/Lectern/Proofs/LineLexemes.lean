import Lectern.Proofs.Headings
import Lectern.Proofs.LineForms

/-!
# Lines from their lexemes

The lexemes of a line are its tokens in writing, and a converter renders the tokens themselves. That makes no
difference: each token of a line is read again from its lexeme (`LineReading.token?_lexeme`), so rendering the lexemes
of a line is rendering its tokens (**`renderLexemes_readLine`**), whatever the line is. Only numbers could stand in the
way, if they are too great to be read or to name a heading with (`Token.Fits`).
-/

set_option autoImplicit false

namespace Lectern

/-- No two glyphs have one sign. -/
theorem Lexeme.glyph?_sign {glyph : Glyph} (h : glyph ∈ Glyph.arrows ++ Glyph.comparisons) :
    Lexeme.glyph? glyph.sign = .ok glyph := by
  revert glyph
  decide

variable [Memory]

/-- The numbers of a token are not too great for its lexeme to be read: there is room for the name of a heading, and
the level of a list has no more digits than a numeral may have. -/
def Token.Fits : Token → Prop
  | .heading level _ => headingStep.length * (level - 1) ≤ Memory.size
  | .item _ level => (Numeral.write level).length ≤ Numeral.maxDigits
  | _ => True

theorem Token.Filled.token?_lexeme {t : Token} (h : t.Filled) : t.lexeme.token? = .ok t := by
  cases h with
  | arrow hmem => exact congrArg (Except.map Token.arrow) (Lexeme.glyph?_sign (List.mem_append_left _ hmem))
  | comparison hmem => exact congrArg (Except.map Token.comparison) (Lexeme.glyph?_sign (List.mem_append_right _ hmem))
  | text | bold | italic | verbatim | math => rfl

theorem Token.token?_lexeme_item {kind : ListKind} {level : Nat} (h : (Token.item kind level).Fits) :
    (Token.item kind level).lexeme.token? = .ok (.item kind level) := by
  have hlevel : Lexeme.level? (Numeral.write level) = .ok level := by
    rw [Lexeme.level?, Numeral.read_write h]
    rfl
  cases kind with
  | itemize => exact congrArg (Except.map (Token.item .itemize)) hlevel
  | enumerate => exact congrArg (Except.map (Token.item .enumerate)) hlevel

/-- Each token of a line is read again from its lexeme, whatever shape the line has. -/
theorem LineReading.token?_lexeme {mode mode' : Mode} {tokens : List Token} (h : LineReading mode mode' tokens)
    (hfilled : ∀ t ∈ tokens, t.isInline = true → t.Filled) (hfits : ∀ t ∈ tokens, t.Fits) :
    ∀ t ∈ tokens, t.lexeme.token? = .ok t := by
  have hinline : ∀ t ∈ tokens, t.isInline = true → t.lexeme.token? = .ok t := fun t ht hi =>
    (hfilled t ht hi).token?_lexeme
  cases h with
  | command => exact List.forall_mem_singleton.2 rfl
  | blank => exact fun t ht => by cases ht
  | body h =>
    cases h with
    | fence =>
      refine List.forall_mem_singleton.2 ?_
      cases (!mode.endHead.verbatim) <;> rfl
    | opening | closing => exact List.forall_mem_singleton.2 rfl
    | heading level title => exact List.forall_mem_singleton.2 (token?_heading (hfits _ List.mem_cons_self) title)
    | item kind depth tokens _ hrest =>
      refine List.forall_mem_cons.2 ⟨Token.token?_lexeme_item (hfits _ List.mem_cons_self), fun t ht => ?_⟩
      exact hinline t (List.mem_cons_of_mem _ ht) (hrest t ht)
    | inline _ hall => exact fun t ht => hinline t ht (hall t ht)

namespace Progress

/-- Lexemes from which tokens are read are rendered as the tokens are. -/
theorem renderLexemes_map {tokens : List Token} (h : ∀ t ∈ tokens, t.lexeme.token? = .ok t)
    (indentation : Indentation) (progress : Progress) :
    progress.renderLexemes indentation (tokens.map Token.lexeme) = progress.renderAll indentation tokens := by
  induction tokens generalizing progress with
  | nil => rfl
  | cons t tokens ih =>
    obtain ⟨ht, htokens⟩ := List.forall_mem_cons.1 h
    rw [List.map_cons, renderLexemes, renderAll, ht]
    simp only [ih htokens]

/-- **Rendering the lexemes of a line is rendering its tokens**, as a converter does, from any progress: with the same
fragments, the same failure and the same lists behind it. -/
theorem renderLexemes_readLine {mode mode' : Mode} {line : Text} {tokens : List Token} (hm : mode.Closable)
    (h : readLine mode line = (mode', .ok tokens)) (hfits : ∀ t ∈ tokens, t.Fits) (indentation : Indentation)
    (progress : Progress) :
    progress.renderLexemes indentation (tokens.map Token.lexeme) = progress.renderAll indentation tokens := by
  obtain ⟨reached, found, hread, hshape⟩ := readLine_cases hm line
  obtain ⟨rfl, htokens⟩ := Prod.mk.inj (h.symm.trans hread)
  cases htokens
  obtain ⟨ahead, hstart, hsettle⟩ := exists_readStart_of_readLine h
  have hlight := light_readStart_line hstart
  exact renderLexemes_map (hshape.token?_lexeme (fun t ht hinline => hlight.filled_of_mem_settle (hsettle ▸ ht) hinline)
    hfits) indentation progress

end Progress

end Lectern
