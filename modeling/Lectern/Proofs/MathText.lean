import Lectern.Converter
import Lectern.Proofs.Comparisons
import Lectern.Proofs.Stages

/-!
# Math in a line and math in a block

Glyphs become bare control words in a math span, where comparisons are sought in the text that the arrows have left
(`mathText`), and in a math block, where a text is cut into tokens once and for all (`blockTokens`). The difference
shows where an escaped arrow, which is ordinary text without its backslash, makes a comparison sign together with the
text before or behind it: `mathText` takes that sign for a comparison. **`mathText_eq_block_iff`** says that both ways
agree if and only if this happens nowhere, that is, if the text that the arrows leave has no more comparison signs than
the raw text between the arrows.

Both ways go from arrow to arrow. Where no comparison sign is torn apart, the second search can be done stretch by
stretch (`mathText_of_count`), as in a block. Where one is, `mathText` loses a mark that the block keeps
(`marks_blockTokens`).
-/

set_option autoImplicit false

namespace Lectern

/-! ## Tokens of a math block -/

/-- The fragment of a token that is found in a math block. -/
def Token.inMath : Token → Fragment
  | .arrow glyph | .comparison glyph => .control glyph true
  | .text content => .text content
  | _ => .text []

/-- Whether a token is found in a math block: a glyph, or some text. -/
def Token.isMath : Token → Bool
  | .arrow _ | .comparison _ => true
  | .text content => content != []
  | _ => false

/-- The tokens of a math block as they are written. -/
def printBlock (tokens : List Token) : Text := Fragment.printAll (tokens.map Token.inMath)

section Tokens

variable {tokens more : List Token} {t : Token}

theorem print_inMath (ht : t.isMath = true) : t.inMath.print = printMath [.span t] := by
  cases t with
  | text content => exact (List.append_nil _).symm
  | arrow glyph => exact ((List.append_nil _).trans (List.append_nil _)).symm
  | comparison glyph => exact ((List.append_nil _).trans (List.append_nil _)).symm
  | _ => cases ht

theorem print_inMath_ne_nil (ht : t.isMath = true) : t.inMath.print ≠ [] := by
  cases t with
  | text content =>
    have hne : content ≠ [] := by simpa [Token.isMath] using ht
    exact hne
  | arrow glyph => exact List.cons_ne_nil _ _
  | comparison glyph => exact List.cons_ne_nil _ _
  | _ => cases ht

theorem wordSpace_append {s : Text} (hs : s ≠ []) (rest : Text) : wordSpace (s ++ rest) = wordSpace s := by
  cases s with
  | nil => exact absurd rfl hs
  | cons c s => rfl

/-- A token is written in front of what is behind it, with the space that there has to be. -/
theorem printBlock_cons (ht : t.isMath = true) (h : ∀ u ∈ tokens, u.isMath = true) :
    printBlock (t :: tokens) = printMath [.span t] ++ t.gap (printBlock tokens) ++ printBlock tokens := by
  have hgap : ∀ behind, (if t.inMath.isBareControl then wordSpace behind else []) = t.gap behind := by
    intro behind
    cases t <;> rfl
  cases tokens with
  | nil =>
    have hnil : t.gap [] = [] := by cases t <;> rfl
    rw [← print_inMath ht, show printBlock [] = [] from rfl, hnil]
    rfl
  | cons u tokens =>
    have hne := print_inMath_ne_nil (h u List.mem_cons_self)
    have hword : wordSpace (printBlock (u :: tokens)) = wordSpace u.inMath.print := by
      show wordSpace (u.inMath.print ++ _ ++ _) = _
      rw [List.append_assoc, wordSpace_append hne]
    have hgap' : t.gap (printBlock (u :: tokens)) = t.gap u.inMath.print := by
      cases t <;> simp only [Token.gap, hword]
    rw [hgap', ← hgap, ← print_inMath ht]
    rfl

/-- Tokens are written apart if the later ones need no space in front of them. -/
theorem printBlock_append (hts : ∀ t ∈ tokens, t.isMath = true) (hms : ∀ t ∈ more, t.isMath = true)
    (h : wordSpace (printBlock more) = []) : printBlock (tokens ++ more) = printBlock tokens ++ printBlock more := by
  induction tokens with
  | nil => rfl
  | cons t tokens ih =>
    have ht := hts t List.mem_cons_self
    have htail : ∀ u ∈ tokens, u.isMath = true := fun u hu => hts u (List.mem_cons_of_mem _ hu)
    have hall : ∀ u ∈ tokens ++ more, u.isMath = true := fun u hu => (List.mem_append.1 hu).elim (htail u) (hms u)
    have hword : wordSpace (printBlock tokens ++ printBlock more) = wordSpace (printBlock tokens) := by
      by_cases hn : printBlock tokens = []
      · rw [hn, List.nil_append, h]
        rfl
      · exact wordSpace_append hn _
    have hgap : t.gap (printBlock tokens ++ printBlock more) = t.gap (printBlock tokens) := by
      cases t <;> simp only [Token.gap, hword]
    rw [List.cons_append, printBlock_cons ht hall, printBlock_cons ht htail, ih htail, hgap]
    simp only [List.append_assoc]

/-- In a math block these tokens become control words and text, and nothing else happens. -/
theorem Progress.renderAll_of_isMath [Memory] {progress : Progress} (hm : progress.mode.math = true)
    (indentation : Indentation) (h : ∀ t ∈ tokens, t.isMath = true) :
    progress.renderAll indentation tokens = (progress, .ok (tokens.map Token.inMath)) := by
  induction tokens with
  | nil => rfl
  | cons t tokens ih =>
    have ht : progress.render indentation t = (progress, .ok t.inMath) := by
      have hmath := h t List.mem_cons_self
      cases t with
      | text content => rfl
      | arrow glyph => simp only [render, Token.fragment, Token.fragmentWith, hm]; rfl
      | comparison glyph => simp only [render, Token.fragment, Token.fragmentWith, hm]; rfl
      | _ => cases hmath
    simp only [renderAll, ht, ih fun u hu => h u (List.mem_cons_of_mem _ hu), List.map_cons]

end Tokens

/-! ## Rules for glyphs, one after the other -/

section Rules

variable {rule : SpanRule} {f : Text → List Token} {s stretch rest : Text} {t : Token}

theorem isMath_of_front? (hr : rule = .arrow ∨ rule = .comparison) (h : rule.front? s = some (t, rest)) :
    t.isMath = true := by
  obtain ⟨glyph, hmem, rfl | rfl | rfl⟩ := glyph_of_front? hr h
  · have hne := Glyph.sign_ne_nil (SpanRule.mem_of_mem_glyphs hmem)
    simpa [Token.isMath] using hne
  · rfl
  · rfl

/-- What a rule finds behind an inert stretch, when other tokens replace the raw text. -/
theorem expandRaw_pieces_append (hf : f [] = []) (hinert : rule.Inert stretch s)
    (hfront : rule.front? s = some (t, rest)) :
    expandRaw f (SpanRule.gather (rule.pieces (stretch ++ s))) =
      f stretch ++ t :: expandRaw f (SpanRule.gather (rule.pieces rest)) := by
  have hraw : ∀ u, t ≠ .raw u := fun u => SpanRule.front?_ne_raw hfront
  rw [SpanRule.gather_pieces_append hinert hfront, expandRaw_append, expandRaw_rawIfAny hf,
    expandRaw_cons_of_ne_raw hraw]

theorem expandRaw_pieces_of_inert (hf : f [] = []) (h : rule.Inert s []) :
    expandRaw f (SpanRule.gather (rule.pieces s)) = f s := by
  rw [SpanRule.gather_pieces_of_inert h, expandRaw_rawIfAny hf]

theorem isMath_of_mem_expandRaw (hr : rule = .arrow ∨ rule = .comparison) (hf : f [] = [])
    (h : ∀ u, ∀ t ∈ f u, t.isMath = true) (s : Text) :
    ∀ t ∈ expandRaw f (SpanRule.gather (rule.pieces s)), t.isMath = true := by
  induction s using SpanRule.pieces_induction rule with
  | inert s hinert =>
    rw [expandRaw_pieces_of_inert hf hinert]
    exact h s
  | span stretch s t rest hinert hfront ih =>
    rw [expandRaw_pieces_append hf hinert hfront]
    intro u hu
    rcases List.mem_append.1 hu with hu | hu
    · exact h stretch u hu
    · rcases List.mem_cons.1 hu with rfl | hu
      · exact isMath_of_front? hr hfront
      · exact ih u hu

/-- What is written for an inert stretch, for the span behind it and for the rest. -/
theorem printBlock_pieces_append (hr : rule = .arrow ∨ rule = .comparison) (hf : f [] = [])
    (h : ∀ u, ∀ t ∈ f u, t.isMath = true) (hinert : rule.Inert stretch s)
    (hfront : rule.front? s = some (t, rest)) :
    printBlock (expandRaw f (SpanRule.gather (rule.pieces (stretch ++ s)))) = printBlock (f stretch) ++
      (printMath [.span t] ++ t.gap (printBlock (expandRaw f (SpanRule.gather (rule.pieces rest)))) ++
        printBlock (expandRaw f (SpanRule.gather (rule.pieces rest)))) := by
  have hmath := isMath_of_front? hr hfront
  have hrest := isMath_of_mem_expandRaw hr hf h rest
  have hcons := printBlock_cons hmath hrest
  rw [expandRaw_pieces_append hf hinert hfront,
    printBlock_append (h stretch) (List.forall_mem_cons.2 ⟨hmath, hrest⟩), hcons]
  rw [hcons, List.append_assoc]
  exact wordSpace_span hr hfront _

end Rules

/-! ## Reading in a math block -/

/-- The tokens of a text that has no arrows. -/
def comparisonTokens (s : Text) : List Token :=
  expandRaw Token.textIfAny (SpanRule.gather (SpanRule.comparison.pieces s))

/-- The tokens of a text in a math block. -/
def blockTokens (s : Text) : List Token := expandRaw comparisonTokens (SpanRule.gather (SpanRule.arrow.pieces s))

section Block

variable {s : Text}

/-- In a math block there are no stages but those of the rules for glyphs. -/
theorem readInline_eq_blockTokens {mode : Mode} (hm : mode.math = true) (hv : mode.verbatim = false) (s : Text) :
    readInline mode s = blockTokens s := by
  have hoff : ∀ rule : SpanRule, rule.applies mode = false → rule.read mode = Token.rawIfAny := by
    intro rule ha
    funext u
    simp [SpanRule.read, ha]
  have hon : ∀ rule : SpanRule, rule.applies mode = true →
      rule.read mode = fun u => SpanRule.gather (rule.pieces u) := by
    intro rule ha
    funext u
    simp [SpanRule.read, ha]
  have hkeep : ∀ tokens,
      expandRaw Token.textIfAny (expandRaw Token.rawIfAny tokens) = expandRaw Token.textIfAny tokens := by
    intro tokens
    rw [expandRaw_expandRaw]
    exact expandRaw_congr fun u _ => expandRaw_rawIfAny rfl u
  have hnil : ∀ rule : SpanRule, SpanRule.gather (rule.pieces []) = [] := by
    intro rule
    rw [SpanRule.pieces]
    rfl
  have hblock : mode.inBlock = true := by simp [Mode.inBlock, hm]
  rw [← finish_stages, stages, SpanRule.all]
  simp only [List.foldl_cons, List.foldl_nil, stage, finish]
  rw [hoff .math (by simp [SpanRule.applies, hblock]), hoff .verbatim (by simp [SpanRule.applies, hblock]),
    hon .arrow (by simp [SpanRule.applies, hv]), hon .comparison (by simp [SpanRule.applies, hv]),
    hoff .bold (by simp [SpanRule.applies, hblock]), hoff .italic (by simp [SpanRule.applies, hblock]), hkeep, hkeep,
    expandRaw_rawIfAny rfl, expandRaw_rawIfAny rfl, expandRaw_rawIfAny (hnil .arrow), expandRaw_expandRaw]
  rfl

theorem isMath_of_mem_textIfAny : ∀ t ∈ Token.textIfAny s, t.isMath = true := by
  intro t ht
  unfold Token.textIfAny at ht
  split at ht
  · cases ht
  · next content hne =>
    rw [List.mem_singleton.1 ht]
    simpa [Token.isMath] using hne

theorem comparisonTokens_nil : comparisonTokens [] = [] := by
  rw [comparisonTokens, SpanRule.pieces]
  rfl

theorem isMath_of_mem_comparisonTokens (s : Text) : ∀ t ∈ comparisonTokens s, t.isMath = true :=
  isMath_of_mem_expandRaw (.inr rfl) rfl (fun _ => isMath_of_mem_textIfAny) s

theorem isMath_of_mem_blockTokens (s : Text) : ∀ t ∈ blockTokens s, t.isMath = true :=
  isMath_of_mem_expandRaw (.inl rfl) comparisonTokens_nil isMath_of_mem_comparisonTokens s

theorem printBlock_textIfAny (h : ∀ c ∈ s, c ≠ '\r' ∧ c ≠ '\n') : printBlock (Token.textIfAny s) = s := by
  by_cases hs : s = []
  · rw [hs]
    rfl
  · rw [Chunk.textIfAny_of_lineEnd hs h]
    exact (List.append_nil _).trans (List.append_nil _)

/-- Comparisons become control words in a math block as they do in a math span. -/
theorem printBlock_comparisonTokens (h : ∀ c ∈ s, c ≠ '\r' ∧ c ≠ '\n') :
    printBlock (comparisonTokens s) = printMath (SpanRule.comparison.pieces s) := by
  induction s using SpanRule.pieces_induction .comparison with
  | inert s hinert =>
    rw [comparisonTokens, expandRaw_pieces_of_inert rfl hinert, printBlock_textIfAny h,
      printMath_pieces_of_inert hinert]
  | span stretch text t rest hinert hfront ih =>
    obtain ⟨form, -, rfl⟩ := SpanRule.exists_written_of_front? hfront
    have hrest := ih fun c hc => h c (List.mem_append_right _ (List.mem_append_right _ hc))
    have hgap : t.gap (printMath (SpanRule.comparison.pieces rest)) = t.gap rest := by
      cases t <;> simp only [Token.gap, wordSpace_printMath_pieces (.inr rfl)]
    rw [comparisonTokens, printBlock_pieces_append (.inr rfl) rfl (fun _ => isMath_of_mem_textIfAny) hinert hfront,
      ← comparisonTokens, hrest, hgap, printBlock_textIfAny fun c hc => h c (List.mem_append_left _ hc),
      printMath_pieces_append (.inr rfl) hinert hfront]

end Block

/-! ## Comparisons behind the arrows -/

/-- The number of comparison signs in the raw text of a list of tokens. -/
def rawComparisons : List Token → Nat
  | [] => 0
  | .raw s :: tokens => comparisonCount s + rawComparisons tokens
  | _ :: tokens => rawComparisons tokens

section Arrows

variable {s stretch rest : Text} {t : Token}

theorem rawComparisons_rawIfAny_append (s : Text) (tokens : List Token) :
    rawComparisons (Token.rawIfAny s ++ tokens) = comparisonCount s + rawComparisons tokens := by
  unfold Token.rawIfAny
  split
  · next hs =>
    rw [hs, comparisonCount, List.nil_append, Nat.zero_add]
  · rfl

theorem rawComparisons_pieces_of_inert (h : SpanRule.arrow.Inert s []) :
    rawComparisons (SpanRule.gather (SpanRule.arrow.pieces s)) = comparisonCount s := by
  have hcount := rawComparisons_rawIfAny_append s []
  rwa [SpanRule.gather_pieces_of_inert h, ← List.append_nil (Token.rawIfAny s)]

theorem rawComparisons_pieces_append (hinert : SpanRule.arrow.Inert stretch s)
    (hfront : SpanRule.arrow.front? s = some (t, rest)) :
    rawComparisons (SpanRule.gather (SpanRule.arrow.pieces (stretch ++ s))) =
      comparisonCount stretch + rawComparisons (SpanRule.gather (SpanRule.arrow.pieces rest)) := by
  have hinline := SpanRule.isInline_of_front? hfront
  rw [SpanRule.gather_pieces_append hinert hfront, rawComparisons_rawIfAny_append]
  cases t <;> first | rfl | cases hinline

/-- A text without comparison signs is left as it is. -/
theorem comparison_inert_of_count (h : comparisonCount s = 0) : SpanRule.comparison.Inert s [] := by
  intro u _ hsuffix
  rw [List.append_nil]
  cases hfront : SpanRule.comparison.front? u with
  | none => rfl
  | some found =>
    obtain ⟨before, rfl⟩ := hsuffix
    obtain ⟨form, rfl, hcount, -⟩ := exists_marks_of_front? hfront
    simp only [comparisonCount_append] at h
    omega

/-- What is put in for an arrow has no part in a comparison sign but that it can end with the start of one, and no
backslash makes a sign of it. -/
theorem arrow_word (h : SpanRule.arrow.front? s = some (t, rest)) :
    comparisonCount (printMath [.span t] ++ t.gap rest) = 0 ∧
      (printMath [.span t] ++ t.gap rest).getLast? ≠ some '\\' ∧
      ∀ behind, Glyph.startOf? Glyph.comparisons (printMath [.span t] ++ t.gap rest ++ behind) = none := by
  have hsign : ∀ glyph ∈ Glyph.arrows, ∀ word ∈ [glyph.sign, glyph.control, glyph.control ++ [' ']],
      comparisonCount word = 0 ∧ word.getLast? ≠ some '\\' ∧
        word.head?.any (fun c => !(SpanRule.triggers .comparison).contains c) = true := by decide
  have hword : ∃ glyph ∈ Glyph.arrows,
      printMath [.span t] ++ t.gap rest ∈ [glyph.sign, glyph.control, glyph.control ++ [' ']] := by
    obtain ⟨glyph, hmem, ⟨rfl, -⟩ | ⟨rfl, -⟩⟩ := SpanRule.exists_glyph_of_glyphFront? h
    · exact ⟨glyph, hmem, by simp [printMath, Token.gap]⟩
    · refine ⟨glyph, hmem, ?_⟩
      cases rest with
      | nil => simp [printMath, printMath.follow, Token.gap, wordSpace]
      | cons c rest => cases hc : Text.isLetter c <;> simp [printMath, printMath.follow, Token.gap, wordSpace, hc]
  obtain ⟨glyph, hmem, hword⟩ := hword
  obtain ⟨hcount, hlast, hhead⟩ := hsign glyph hmem _ hword
  refine ⟨hcount, hlast, fun behind => ?_⟩
  generalize printMath [.span t] ++ t.gap rest = word at hhead
  cases word with
  | nil => cases hhead
  | cons c word =>
    rw [List.head?_cons, Option.any_some, Bool.not_eq_true', List.contains_eq_mem, decide_eq_false_iff_not] at hhead
    exact SpanRule.startOf?_comparisons_cons hhead

/-- The comparison signs of raw text are there also behind the arrows. -/
theorem rawComparisons_le (s : Text) :
    rawComparisons (SpanRule.gather (SpanRule.arrow.pieces s)) ≤
      comparisonCount (printMath (SpanRule.arrow.pieces s)) := by
  induction s using SpanRule.pieces_induction .arrow with
  | inert s hinert =>
    exact Nat.le_of_eq (by rw [rawComparisons_pieces_of_inert hinert, printMath_pieces_of_inert hinert])
  | span stretch s t rest hinert hfront ih =>
    rw [rawComparisons_pieces_append hinert hfront, printMath_pieces_append (.inl rfl) hinert hfront,
      comparisonCount_append, comparisonCount_append]
    omega

theorem printBlock_blockTokens_of_inert (h : ∀ c ∈ s, c ≠ '\r' ∧ c ≠ '\n') (hinert : SpanRule.arrow.Inert s []) :
    printBlock (blockTokens s) = printMath (SpanRule.comparison.pieces s) := by
  rw [blockTokens, expandRaw_pieces_of_inert comparisonTokens_nil hinert, printBlock_comparisonTokens h]

theorem printBlock_blockTokens_append (h : ∀ c ∈ stretch, c ≠ '\r' ∧ c ≠ '\n')
    (hinert : SpanRule.arrow.Inert stretch s) (hfront : SpanRule.arrow.front? s = some (t, rest)) :
    printBlock (blockTokens (stretch ++ s)) = printMath (SpanRule.comparison.pieces stretch) ++
      (printMath [.span t] ++ t.gap (printBlock (blockTokens rest)) ++ printBlock (blockTokens rest)) := by
  rw [blockTokens,
    printBlock_pieces_append (.inl rfl) comparisonTokens_nil isMath_of_mem_comparisonTokens hinert hfront,
    ← blockTokens, printBlock_comparisonTokens h]

/-- In a math block the comparison signs of raw text cost a mark each, and no others do. -/
theorem marks_blockTokens (h : ∀ c ∈ s, c ≠ '\r' ∧ c ≠ '\n') :
    marks (printBlock (blockTokens s)) + rawComparisons (SpanRule.gather (SpanRule.arrow.pieces s)) =
      marks (printMath (SpanRule.arrow.pieces s)) := by
  induction s using SpanRule.pieces_induction .arrow with
  | inert s hinert =>
    rw [printBlock_blockTokens_of_inert h hinert, rawComparisons_pieces_of_inert hinert,
      printMath_pieces_of_inert hinert]
    exact marks_comparisons s
  | span stretch s t rest hinert hfront ih =>
    obtain ⟨form, -, rfl⟩ := SpanRule.exists_written_of_front? hfront
    have hrest := ih fun c hc => h c (List.mem_append_right _ (List.mem_append_right _ hc))
    have hstretch := marks_comparisons stretch
    rw [printBlock_blockTokens_append (fun c hc => h c (List.mem_append_left _ hc)) hinert hfront,
      rawComparisons_pieces_append hinert hfront, printMath_pieces_append (.inl rfl) hinert hfront]
    simp only [marks_append, marks_gap]
    omega

/-- If there are no comparison signs behind the arrows but those of raw text, the signs are found one stretch after
the other. -/
theorem mathText_of_count (h : ∀ c ∈ s, c ≠ '\r' ∧ c ≠ '\n')
    (hcount : comparisonCount (printMath (SpanRule.arrow.pieces s)) =
      rawComparisons (SpanRule.gather (SpanRule.arrow.pieces s))) :
    mathText s = printBlock (blockTokens s) := by
  induction s using SpanRule.pieces_induction .arrow with
  | inert s hinert =>
    rw [printBlock_blockTokens_of_inert h hinert, mathText, printMath_pieces_of_inert hinert]
  | span stretch s t rest hinert hfront ih =>
    obtain ⟨hword, hlast, hstart⟩ := arrow_word hfront
    have hle := rawComparisons_le rest
    have hprint := printMath_pieces_append (.inl rfl) hinert hfront
    -- no sign stands across a border
    rw [hprint, comparisonCount_append, comparisonCount_append, hword, rawComparisons_pieces_append hinert hfront]
      at hcount
    have hbefore : SpanRule.comparison.pieces (stretch ++ (printMath [.span t] ++ t.gap rest ++
        printMath (SpanRule.arrow.pieces rest))) = _ :=
      comparison_pieces_append (by omega) fun _ => hstart _
    have hbehind : SpanRule.comparison.pieces (printMath [.span t] ++ t.gap rest ++
        printMath (SpanRule.arrow.pieces rest)) = _ :=
      comparison_pieces_append (by omega) fun h => absurd h hlast
    obtain ⟨form, -, rfl⟩ := SpanRule.exists_written_of_front? hfront
    have hrest := ih (fun c hc => h c (List.mem_append_right _ (List.mem_append_right _ hc))) (by omega)
    have hgap : t.gap (printBlock (blockTokens rest)) = t.gap rest := by
      rw [← hrest, mathText]
      cases t <;> simp only [Token.gap, wordSpace_printMath_pieces (.inr rfl), wordSpace_printMath_pieces (.inl rfl)]
    rw [printBlock_blockTokens_append (fun c hc => h c (List.mem_append_left _ hc)) hinert hfront, hgap, ← hrest,
      mathText, hprint, hbefore, printMath_append, hbehind,
      SpanRule.pieces_of_inert (comparison_inert_of_count hword), printMath_map_plain_append, mathText]
    rw [follow_pieces (.inr rfl), List.append_assoc]
    exact wordSpace_span (.inl rfl) hfront _

end Arrows

/-! ## Both ways -/

section Both

variable {progress : Progress} {s : Text}

/-- **When math in a line and math in a block agree**: in a math block, the tokens of a text are always rendered, and
what is printed is the text of a math span if and only if the arrows leave no comparison sign that is not in the raw
text between them. -/
theorem mathText_eq_block_iff [Memory] (hm : progress.mode.math = true) (hv : progress.mode.verbatim = false)
    (h : ∀ c ∈ s, c ≠ '\r' ∧ c ≠ '\n') (indentation : Indentation) :
    ∃ fragments, progress.renderAll indentation (readInline progress.mode s) = (progress, .ok fragments) ∧
      (mathText s = Fragment.printAll fragments ↔
        comparisonCount (printMath (SpanRule.arrow.pieces s)) =
          rawComparisons (SpanRule.gather (SpanRule.arrow.pieces s))) := by
  refine ⟨(blockTokens s).map Token.inMath, ?_, fun heq => ?_, mathText_of_count h⟩
  · rw [readInline_eq_blockTokens hm hv]
    exact Progress.renderAll_of_isMath hm indentation (isMath_of_mem_blockTokens s)
  · have hspan := marks_comparisons (printMath (SpanRule.arrow.pieces s))
    have hblock := marks_blockTokens h
    rw [← mathText, heq, ← printBlock] at hspan
    omega

/-- Escapes and letters next to glyphs make no difference as long as no escaped arrow is part of a comparison sign. -/
theorem mathText_eq_block_iff_escapes :
    let progress : Progress := ⟨⟨false, false, "$$".toList⟩, .empty, []⟩
    let s := "a->b \\>=c !=\\=> \\->> = x>=y\\<=!= z".toList
    progress.mode.math = true ∧ progress.mode.verbatim = false ∧ (∀ c ∈ s, c ≠ '\r' ∧ c ≠ '\n') ∧
      ∃ fragments, progress.renderAll (.spaces 4) (readInline progress.mode s) = (progress, .ok fragments) ∧
        Fragment.printAll fragments = mathText s ∧
        mathText s = "a\\rightarrow b >=c \\neq=> ->> = x\\geq y<=\\neq z".toList := by
  intro progress s
  have hm : progress.mode.math = true := rfl
  have hline : ∀ c ∈ s, c ≠ '\r' ∧ c ≠ '\n' := forall_ne_lineEnd_of_all (by decide)
  obtain ⟨fragments, hrender, hiff⟩ := mathText_eq_block_iff hm rfl hline (.spaces 4)
  exact ⟨hm, rfl, hline, fragments, hrender, (hiff.2 (by decide +kernel)).symm, by decide +kernel⟩

/-- An escaped arrow with an equals sign behind it: in a math block it stays as it is, in a math span its last character
is taken for the start of a comparison sign. -/
theorem mathText_ne_block :
    let progress : Progress := ⟨⟨false, false, "$$".toList⟩, .empty, []⟩
    progress.renderAll (.spaces 4) (readInline progress.mode "\\->=".toList) =
        (progress, .ok [.text "->".toList, .text "=".toList]) ∧
      Fragment.printAll [.text "->".toList, .text "=".toList] = "->=".toList ∧
      mathText "\\->=".toList = "-\\geq".toList := by
  intro progress
  have htokens : readInline progress.mode "\\->=".toList = [.text "->".toList, .text "=".toList] := by
    rw [readInline_eq_blockTokens rfl rfl]
    decide +kernel
  refine ⟨?_, rfl, by decide +kernel⟩
  rw [htokens]
  rfl

end Both

end Lectern
