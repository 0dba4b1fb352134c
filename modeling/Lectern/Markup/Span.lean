import Lectern.Markup.Mode
import Lectern.Markup.Token

/-!
# Spans

Math, verbatim text, glyphs and emphasis are found anywhere in a line. **`SpanRule.front?`** recognises what one rule
looks for in front of a text: a backslash in front of its trigger makes the trigger ordinary text, and otherwise the
nearest closing delimiter ends a span. **`SpanRule.pieces`** walks over a text and takes what it finds from left to
right; `SpanRule.read` gathers the characters in between as raw text again.
-/

set_option autoImplicit false

namespace Lectern

/-- The rules for spans, in the order in which they are tried. -/
inductive SpanRule where
  | math
  | verbatim
  | arrow
  | comparison
  | bold
  | italic
deriving DecidableEq, Repr

/-- A character of a text, or what a rule found there. -/
inductive Piece where
  | plain (c : Char)
  | span (token : Token)
deriving DecidableEq, Repr

namespace SpanRule

/-- All rules, in order. -/
def all : List SpanRule := [.math, .verbatim, .arrow, .comparison, .bold, .italic]

/-- Whether a rule applies in a mode: in verbatim blocks none does, in math blocks only those for glyphs. -/
def applies (mode : Mode) : SpanRule → Bool
  | .arrow | .comparison => !mode.verbatim
  | _ => !mode.inBlock

/-! ## Recognisers -/

/-- What stands between an opening delimiter in front of a text and the nearest closing one, one character at least,
and what follows. -/
def enclosed? (opening closing s : Text) : Option (Text × Text) :=
  match Text.after? opening s with
  | some (c :: tail) => (Text.splitAt? closing tail).map fun (body, rest) => (c :: body, rest)
  | _ => none

/-- A glyph behind a backslash, which is ordinary text, or a glyph. -/
def glyphFront? (table : List Glyph) (token : Glyph → Token) (s : Text) : Option (Token × Text) :=
  match (Text.after? ['\\'] s).bind (Glyph.startOf? table) with
  | some (glyph, rest) => some (.text glyph.sign, rest)
  | none => (Glyph.startOf? table s).map fun (glyph, rest) => (token glyph, rest)

/-- The delimiters of math spans, in the order in which they are tried. -/
def mathDelimiters : List (Text × Text) :=
  [("$$".toList, "$$".toList), ("$".toList, "$".toList), ("\\[".toList, "\\]".toList), ("\\(".toList, "\\)".toList)]

/-- A math span with its delimiters. -/
def mathSpan? (s : Text) : Option (Text × Text) :=
  mathDelimiters.findSome? fun (opening, closing) =>
    (enclosed? opening closing s).map fun (body, rest) => (opening ++ body ++ closing, rest)

/-- A dollar behind a backslash, which stays as it is, or a math span. -/
def mathFront? (s : Text) : Option (Token × Text) :=
  match Text.after? "\\$".toList s with
  | some rest => some (.text "\\$".toList, rest)
  | none => (mathSpan? s).map fun (span, rest) => (.math span, rest)

/-- A bar behind a backslash, or what stands between two bars of a line. -/
def verbatimFront? : Text → Option (Token × Text)
  | '\\' :: '|' :: rest => some (.text ['|'], rest)
  | '|' :: s =>
    let inBody (c : Char) : Bool := c != '|' && c != '\n'
    match s.takeWhile inBody, s.dropWhile inBody with
    | [], _ => none
    | body, '|' :: rest => some (.verbatim body, rest)
    | _, _ => none
  | _ => none

/-- Stars behind a backslash, or what stands between two such rows of stars. -/
def starFront? (stars : Text) (token : Text → Token) (s : Text) : Option (Token × Text) :=
  match Text.after? ('\\' :: stars) s with
  | some rest => some (.text stars, rest)
  | none => (enclosed? stars stars s).map fun (body, rest) => (token body, rest)

/-- What a rule finds in front of a text, and what follows it. -/
def front? (rule : SpanRule) (s : Text) : Option (Token × Text) :=
  match rule with
  | .math => mathFront? s
  | .verbatim => verbatimFront? s
  | .arrow => glyphFront? Glyph.arrows .arrow s
  | .comparison => glyphFront? Glyph.comparisons .comparison s
  | .bold => starFront? "**".toList .bold s
  | .italic => starFront? "*".toList .italic s

/-! ## What is found is not empty -/

theorem length_lt_of_enclosed? {opening closing s body rest : Text}
    (h : enclosed? opening closing s = some (body, rest)) : rest.length < s.length := by
  unfold enclosed? at h
  split at h
  · next c tail ho =>
    simp only [Option.map_eq_some_iff, Prod.mk.injEq] at h
    obtain ⟨⟨b, r⟩, hs, -, rfl⟩ := h
    have hlen := Text.length_of_after? ho
    rw [Text.splitAt?_eq_some hs] at hlen
    simp only [List.length_append, List.length_cons] at hlen
    show r.length < s.length
    omega
  · simp at h

theorem length_lt_of_startOf? {table : List Glyph} (ht : ∀ glyph ∈ table, glyph.sign ≠ []) {s rest : Text}
    {glyph : Glyph} (h : Glyph.startOf? table s = some (glyph, rest)) : rest.length < s.length := by
  obtain ⟨hg, rfl⟩ := Glyph.startOf?_eq_some h
  have := List.length_pos_iff.2 (ht glyph hg)
  rw [List.length_append]
  omega

theorem length_lt_of_glyphFront? {table : List Glyph} (ht : ∀ glyph ∈ table, glyph.sign ≠ []) {token : Glyph → Token}
    {t : Token} {s rest : Text} (h : glyphFront? table token s = some (t, rest)) : rest.length < s.length := by
  unfold glyphFront? at h
  split at h
  · next glyph r he =>
    obtain ⟨tail, htail, hs⟩ := Option.bind_eq_some_iff.1 he
    have hlt := length_lt_of_startOf? ht hs
    have hlen := Text.length_of_after? htail
    obtain ⟨-, rfl⟩ := Prod.mk.inj (Option.some.inj h)
    omega
  · simp only [Option.map_eq_some_iff, Prod.mk.injEq] at h
    obtain ⟨⟨g, r⟩, hs, -, rfl⟩ := h
    exact length_lt_of_startOf? ht hs

theorem length_lt_of_starFront? {stars : Text} {token : Text → Token} {t : Token} {s rest : Text}
    (h : starFront? stars token s = some (t, rest)) : rest.length < s.length := by
  unfold starFront? at h
  split at h
  · next r he =>
    have hlen := Text.length_of_after? he
    obtain ⟨-, rfl⟩ := Prod.mk.inj (Option.some.inj h)
    rw [List.length_cons] at hlen
    omega
  · simp only [Option.map_eq_some_iff, Prod.mk.injEq] at h
    obtain ⟨⟨b, r⟩, hs, -, rfl⟩ := h
    exact length_lt_of_enclosed? hs

theorem length_lt_of_mathFront? {t : Token} {s rest : Text} (h : mathFront? s = some (t, rest)) :
    rest.length < s.length := by
  unfold mathFront? at h
  split at h
  · next r he =>
    have hlen := Text.length_of_after? he
    obtain ⟨-, rfl⟩ := Prod.mk.inj (Option.some.inj h)
    rw [show "\\$".toList.length = 2 from rfl] at hlen
    omega
  · simp only [Option.map_eq_some_iff, Prod.mk.injEq] at h
    obtain ⟨⟨b, r⟩, hs, -, rfl⟩ := h
    obtain ⟨⟨opening, closing⟩, -, he⟩ := List.exists_of_findSome?_eq_some hs
    simp only [Option.map_eq_some_iff, Prod.mk.injEq] at he
    obtain ⟨⟨b', r'⟩, he, -, rfl⟩ := he
    exact length_lt_of_enclosed? he

theorem length_lt_of_verbatimFront? {t : Token} {s rest : Text} (h : verbatimFront? s = some (t, rest)) :
    rest.length < s.length := by
  unfold verbatimFront? at h
  split at h
  · next r =>
    obtain ⟨-, rfl⟩ := Prod.mk.inj (Option.some.inj h)
    simp only [List.length_cons]
    omega
  · next s =>
    have := List.takeWhile_append_dropWhile (p := fun c => c != '|' && c != '\n') (l := s)
    simp only at h
    split at h
    · simp at h
    · next body r hd _ =>
      simp only [Option.some.injEq, Prod.mk.injEq] at h
      obtain ⟨-, rfl⟩ := h
      rw [hd] at this
      have := congrArg List.length this
      simp at this ⊢
      omega
    · simp at h
  · simp at h

/-- A rule finds at least one character. -/
theorem length_lt_of_front? {rule : SpanRule} {s rest : Text} {t : Token} (h : rule.front? s = some (t, rest)) :
    rest.length < s.length := by
  have hs : ∀ glyph ∈ Glyph.arrows ++ Glyph.comparisons, glyph.sign ≠ [] := fun _ => Glyph.sign_ne_nil
  simp only [List.mem_append] at hs
  cases rule with
  | math => exact length_lt_of_mathFront? h
  | verbatim => exact length_lt_of_verbatimFront? h
  | arrow => exact length_lt_of_glyphFront? (fun g hg => hs g (.inl hg)) h
  | comparison => exact length_lt_of_glyphFront? (fun g hg => hs g (.inr hg)) h
  | bold => exact length_lt_of_starFront? h
  | italic => exact length_lt_of_starFront? h

/-! ## A whole text -/

/-- What a rule finds in a text, from left to right and without overlap, and the characters in between. -/
def pieces (rule : SpanRule) : Text → List Piece
  | [] => []
  | c :: s =>
    match _h : rule.front? (c :: s) with
    | some (token, rest) => .span token :: pieces rule rest
    | none => .plain c :: pieces rule s
termination_by s => s.length
decreasing_by
  · exact length_lt_of_front? _h
  · simp

/-- The tokens of a list of pieces: neighbouring characters are one raw text. -/
def gather : List Piece → List Token
  | [] => []
  | .span token :: ps => token :: gather ps
  | .plain c :: ps =>
    match gather ps with
    | .raw s :: tokens => .raw (c :: s) :: tokens
    | tokens => .raw [c] :: tokens

/-- The tokens that a rule makes of a text. -/
def read (rule : SpanRule) (mode : Mode) (s : Text) : List Token :=
  if rule.applies mode then gather (rule.pieces s) else Token.rawIfAny s

end SpanRule

end Lectern
