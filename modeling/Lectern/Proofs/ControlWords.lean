import Lectern.Proofs.GlyphScans
import Lectern.Proofs.MathText

/-!
# Control words in math

The glyphs of a text are its arrows, from left to right and the longest at each place, and the comparisons in the
stretches between them. **`Glyph.InText`** says so without a word of how they are found, and no text has them in two
ways (`InText.unique`). In math each of them becomes a control word, which ends where the letters behind its backslash
do (`controlWords`). A space keeps it from a letter that follows (`controlWords_control`), and what is in front of a text
that starts with no letter has its control words to itself (`controlWords_append`). So **`control_words`** finds
those of the glyphs, in their order and no others, in what is written for a text without backslashes. It is written the
same in a line and in a block, because no comparison sign is torn apart there (`comparisonCount_arrows`).
-/

set_option autoImplicit false

namespace Lectern

/-! ## The glyphs of a text -/

namespace Glyph

/-- The glyphs of a table from left to right, the longest at each place, and among them what there is between them. -/
inductive Scan (table : List Glyph) (between : Text → List Glyph → Prop) : Text → List Glyph → Prop
  | last {s : Text} {found : List Glyph} : Lacks table s [] → between s found → Scan table between s found
  | next {stretch rest : Text} {glyph : Glyph} {found more : List Glyph} :
      Lacks table stretch (glyph.sign ++ rest) → Longest table (glyph.sign ++ rest) glyph → between stretch found →
      Scan table between rest more → Scan table between (stretch ++ (glyph.sign ++ rest)) (found ++ glyph :: more)

/-- The comparisons of a stretch without arrows. -/
def InStretch : Text → List Glyph → Prop := Scan comparisons fun _ found => found = []

/-- The glyphs of a text: its arrows, and the comparisons in the stretches between them. -/
def InText : Text → List Glyph → Prop := Scan arrows InStretch

section Scans

variable {table : List Glyph} {between : Text → List Glyph → Prop} {glyph other : Glyph} {s stretch more rest : Text}
  {found others : List Glyph}

/-- A glyph does not start in the middle of a stretch that lacks all glyphs. -/
theorem Lacks.eq_nil (h : Lacks table (stretch ++ more) rest) (hmem : glyph ∈ table) (hstarts : glyph.sign <+: more ++ rest) :
    more = [] := by
  cases more with
  | nil => rfl
  | cons c more => exact absurd hstarts (h (c :: more) (List.cons_ne_nil _ _) (List.suffix_append _ _) glyph hmem)

theorem Longest.unique (hsign : ∀ first ∈ table, ∀ second ∈ table, first.sign = second.sign → first = second)
    (h : Longest table s glyph) (ho : Longest table s other) : glyph = other := by
  have hlength : glyph.sign.length = other.sign.length :=
    Nat.le_antisymm (ho.longest glyph h.mem h.starts) (h.longest other ho.mem ho.starts)
  have hfront : glyph.sign <+: other.sign := List.prefix_of_prefix_length_le h.starts ho.starts (Nat.le_of_eq hlength)
  exact hsign glyph h.mem other ho.mem (hfront.eq_of_length hlength)

/-- There is one way only to go over a text. -/
theorem Scan.unique (hsign : ∀ first ∈ table, ∀ second ∈ table, first.sign = second.sign → first = second)
    (hne : ∀ glyph ∈ table, glyph.sign ≠ [])
    (hbetween : ∀ s found others, between s found → between s others → found = others)
    (h : Scan table between s found) (ho : Scan table between s others) : found = others := by
  induction h generalizing others with
  | last hlacks hb =>
    cases ho with
    | last _ hb' => exact hbetween _ _ _ hb hb'
    | next _ hlongest _ _ =>
      have hnil := hlacks.eq_nil hlongest.mem (by rw [List.append_nil]; exact hlongest.starts)
      exact absurd (List.append_eq_nil_iff.1 hnil).1 (hne _ hlongest.mem)
  | @next stretch rest glyph found more hlacks hlongest hb hrest ih =>
    generalize htext : stretch ++ (glyph.sign ++ rest) = text at ho
    cases ho with
    | last hlacks' _ =>
      rw [← htext] at hlacks'
      have hnil := hlacks'.eq_nil hlongest.mem (by rw [List.append_nil]; exact hlongest.starts)
      exact absurd (List.append_eq_nil_iff.1 hnil).1 (hne _ hlongest.mem)
    | next hlacks' hlongest' hb' hrest' =>
      -- the stretches in front are the same, since no glyph starts in either of them
      rcases List.append_eq_append_iff.1 htext with ⟨longer, rfl, hbehind⟩ | ⟨longer, rfl, hbehind⟩
      · obtain rfl := hlacks'.eq_nil hlongest.mem (hbehind ▸ hlongest.starts)
        rw [List.nil_append] at hbehind
        rw [List.append_nil] at hb'
        obtain rfl := hlongest.unique hsign (hbehind ▸ hlongest')
        obtain rfl := List.append_cancel_left hbehind
        rw [hbetween _ _ _ hb hb', ih hrest']
      · obtain rfl := hlacks.eq_nil hlongest'.mem (hbehind ▸ hlongest'.starts)
        rw [List.nil_append] at hbehind
        rw [List.append_nil] at hb
        obtain rfl := hlongest'.unique hsign (hbehind ▸ hlongest)
        obtain rfl := List.append_cancel_left hbehind
        rw [hbetween _ _ _ hb hb', ih hrest']

theorem Scan.forall_mem {p : Glyph → Prop} (htable : ∀ glyph ∈ table, p glyph)
    (hbetween : ∀ s found, between s found → ∀ glyph ∈ found, p glyph) (h : Scan table between s found) :
    ∀ glyph ∈ found, p glyph := by
  induction h with
  | last _ hb => exact hbetween _ _ hb
  | next _ hlongest hb _ ih =>
    intro glyph hmem
    rcases List.mem_append.1 hmem with hmem | hmem
    · exact hbetween _ _ hb glyph hmem
    · rcases List.mem_cons.1 hmem with rfl | hmem
      · exact htable _ hlongest.mem
      · exact ih glyph hmem

theorem InStretch.unique (h : InStretch s found) (ho : InStretch s others) : found = others := by
  have hsign : ∀ first ∈ comparisons, ∀ second ∈ comparisons, first.sign = second.sign → first = second := by decide
  exact Scan.unique hsign (by decide) (fun _ _ _ hnone hnone' => hnone.trans hnone'.symm) h ho

/-- A text has its glyphs in one way only. -/
theorem InText.unique (h : InText s found) (ho : InText s others) : found = others := by
  have hsign : ∀ first ∈ arrows, ∀ second ∈ arrows, first.sign = second.sign → first = second := by decide
  refine Scan.unique hsign (by decide) ?_ h ho
  exact fun _ _ _ => InStretch.unique

theorem InStretch.forall_mem (h : InStretch s found) : ∀ glyph ∈ found, glyph ∈ arrows ++ comparisons :=
  Scan.forall_mem (fun _ => List.mem_append_right _) (fun _ _ hnone _ hmem => by rw [hnone] at hmem; cases hmem) h

theorem InText.forall_mem (h : InText s found) : ∀ glyph ∈ found, glyph ∈ arrows ++ comparisons :=
  Scan.forall_mem (fun _ => List.mem_append_left _) (fun _ _ => InStretch.forall_mem) h

end Scans

end Glyph

/-! ## Control words -/

/-- For every backslash of a text the letters behind it, as many as there are. -/
def controlWords : Text → List Text
  | [] => []
  | c :: s => if c = '\\' then s.takeWhile Text.isLetter :: controlWords s else controlWords s

/-- A text whose backslashes all start the control word of a glyph, which no other letter follows, and whose control
words are those of given glyphs, one after the other. -/
structure HasWords (s : Text) (glyphs : List Glyph) : Prop where
  whole : ∀ before behind, s = before ++ '\\' :: behind →
    ∃ glyph ∈ Glyph.arrows ++ Glyph.comparisons, behind.takeWhile Text.isLetter = glyph.word
  words : controlWords s = glyphs.map Glyph.word

section Words

variable {glyph : Glyph} {glyphs : List Glyph} {s rest : Text}

theorem controlWords_of_not_mem (h : '\\' ∉ s) : controlWords s = [] := by
  induction s with
  | nil => rfl
  | cons c s ih =>
    rw [List.mem_cons, not_or] at h
    rw [controlWords, if_neg (Ne.symm h.1), ih h.2]

theorem mem_controlWords (before behind : Text) :
    behind.takeWhile Text.isLetter ∈ controlWords (before ++ '\\' :: behind) := by
  induction before with
  | nil => exact List.mem_cons_self
  | cons c before ih =>
    rw [List.cons_append, controlWords]
    split
    · exact List.mem_cons_of_mem _ ih
    · exact ih

theorem wordSpace_cases (rest : Text) : wordSpace rest = [] ∨ wordSpace rest = [' '] := by
  unfold wordSpace
  repeat' split
  all_goals simp

theorem takeWhile_isLetter_append (h : wordSpace rest = []) (s : Text) :
    (s ++ rest).takeWhile Text.isLetter = s.takeWhile Text.isLetter := by
  induction s with
  | nil =>
    cases rest with
    | nil => rfl
    | cons c rest =>
      cases hc : Text.isLetter c with
      | false => simp [hc]
      | true => simp [wordSpace, hc] at h
  | cons c s ih => rw [List.cons_append, List.takeWhile_cons, List.takeWhile_cons, ih]

/-- No control word goes on in a text that starts with no letter. -/
theorem controlWords_append (h : wordSpace rest = []) (s : Text) :
    controlWords (s ++ rest) = controlWords s ++ controlWords rest := by
  induction s with
  | nil => rfl
  | cons c s ih =>
    rw [List.cons_append, controlWords, controlWords, ih, takeWhile_isLetter_append h]
    split <;> rfl

/-- A control word with the space that there has to be goes on in no text. -/
theorem controlWords_control (hmem : glyph ∈ Glyph.arrows ++ Glyph.comparisons) (rest : Text) :
    controlWords (glyph.control ++ wordSpace rest ++ rest) = glyph.word :: controlWords rest := by
  have hword : ∀ glyph ∈ Glyph.arrows ++ Glyph.comparisons, controlWords glyph.control = [glyph.word] := by decide
  have hapart : wordSpace (wordSpace rest ++ rest) = [] ∧ controlWords (wordSpace rest ++ rest) = controlWords rest := by
    rcases wordSpace_cases rest with hspace | hspace
    · rw [hspace]
      exact ⟨hspace, rfl⟩
    · rw [hspace]
      exact ⟨rfl, rfl⟩
  rw [List.append_assoc, controlWords_append hapart.1, hword glyph hmem, hapart.2]
  rfl

theorem hasWords_of_controlWords (hmem : ∀ glyph ∈ glyphs, glyph ∈ Glyph.arrows ++ Glyph.comparisons)
    (h : controlWords s = glyphs.map Glyph.word) : HasWords s glyphs where
  whole := by
    rintro before behind rfl
    have hword := mem_controlWords before behind
    rw [h] at hword
    obtain ⟨glyph, hglyph, heq⟩ := List.mem_map.1 hword
    exact ⟨glyph, hmem glyph hglyph, heq.symm⟩
  words := h

end Words

/-! ## Texts without backslashes -/

section Plain

variable {rule : SpanRule} {t : Token} {s rest : Text}

/-- In a text without backslashes a rule for glyphs finds the longest glyph, which becomes a control word. -/
theorem exists_control_of_front? (hr : rule = .arrow ∨ rule = .comparison) (hs : '\\' ∉ s)
    (h : rule.front? s = some (t, rest)) :
    ∃ glyph, Glyph.Longest rule.glyphs (glyph.sign ++ rest) glyph ∧ s = glyph.sign ++ rest ∧
      printMath [.span t] = glyph.control ∧ ∀ behind, t.gap behind = wordSpace behind := by
  obtain ⟨glyph, hlongest, rfl, rfl | rfl⟩ := SpanRule.longest_of_front? hr h
  · exact absurd List.mem_cons_self hs
  · refine ⟨glyph, hlongest, by rw [SpanRule.glyphForm_glyphToken], ?_⟩
    rcases hr with rfl | rfl <;> exact ⟨(List.append_nil _).trans (List.append_nil _), fun _ => rfl⟩

/-- Where there are no backslashes, the control words for arrows tear no comparison sign apart and make none. -/
theorem comparisonCount_arrows (hs : '\\' ∉ s) :
    comparisonCount (printMath (SpanRule.arrow.pieces s)) =
      rawComparisons (SpanRule.gather (SpanRule.arrow.pieces s)) := by
  induction s using SpanRule.pieces_induction .arrow with
  | inert s hinert => rw [rawComparisons_pieces_of_inert hinert, printMath_pieces_of_inert hinert]
  | span stretch s t rest hinert hfront ih =>
    have hs' : '\\' ∉ s := fun hc => hs (List.mem_append_right _ hc)
    obtain ⟨glyph, hlongest, hform, hprint, hgap⟩ := exists_control_of_front? (.inl rfl) hs' hfront
    have hrest := ih fun hc => hs' (hform ▸ List.mem_append_right _ hc)
    have hcount := (arrow_word hfront).1
    have hlast : ∀ glyph ∈ Glyph.arrows, ∀ space ∈ [[], [' ']],
        (glyph.control ++ space).getLast? ≠ some '>' ∧ (glyph.control ++ space).getLast? ≠ some '!' := by decide
    have hspace : wordSpace rest ∈ [[], [' ']] := by simpa using wordSpace_cases rest
    rw [printMath_pieces_append (.inl rfl) hinert hfront, rawComparisons_pieces_append hinert hfront,
      comparisonCount_append, comparisonCount_append, hcount, hrest, hprint, hgap]
    have hbefore : ∀ behind, straddling stretch (glyph.control ++ wordSpace rest ++ behind) = 0 := fun behind => by
      simp [straddling, Glyph.control]
    have hbehind : ∀ behind, straddling (glyph.control ++ wordSpace rest) behind = 0 := fun behind => by
      obtain ⟨hgreater, hmark⟩ := hlast glyph hlongest.mem _ hspace
      exact if_neg fun h => h.1.elim hgreater hmark
    rw [hbefore, hbehind]
    omega

/-- What one rule finds and what there is between it: if the stretches have the control words of their glyphs, the text
has those of all. -/
theorem exists_scan (hr : rule = .arrow ∨ rule = .comparison) {f : Text → List Token} (hf : f [] = [])
    (hmath : ∀ u, ∀ t ∈ f u, t.isMath = true) {between : Text → List Glyph → Prop}
    (hbetween : ∀ u, (∀ c ∈ u, c ≠ '\\' ∧ c ≠ '\r' ∧ c ≠ '\n') →
      ∃ found, between u found ∧ controlWords (printBlock (f u)) = found.map Glyph.word)
    (hs : ∀ c ∈ s, c ≠ '\\' ∧ c ≠ '\r' ∧ c ≠ '\n') :
    ∃ found, Glyph.Scan rule.glyphs between s found ∧
      controlWords (printBlock (expandRaw f (SpanRule.gather (rule.pieces s)))) = found.map Glyph.word := by
  induction s using SpanRule.pieces_induction rule with
  | inert s hinert =>
    obtain ⟨found, hfound, hwords⟩ := hbetween s hs
    exact ⟨found, .last (SpanRule.lacks_of_inert hr hinert) hfound, by rw [expandRaw_pieces_of_inert hf hinert, hwords]⟩
  | span stretch s t rest hinert hfront ih =>
    have hplain : '\\' ∉ s := fun hc => (hs _ (List.mem_append_right _ hc)).1 rfl
    obtain ⟨glyph, hlongest, rfl, hprint, hgap⟩ := exists_control_of_front? hr hplain hfront
    obtain ⟨found, hfound, hwords⟩ := hbetween stretch fun c hc => hs c (List.mem_append_left _ hc)
    obtain ⟨more, hmore, hrest⟩ := ih fun c hc => hs c (List.mem_append_right _ (List.mem_append_right _ hc))
    refine ⟨found ++ glyph :: more, .next (SpanRule.lacks_of_inert hr hinert) hlongest hfound hmore, ?_⟩
    have hmem := SpanRule.mem_of_mem_glyphs hlongest.mem
    rw [printBlock_pieces_append hr hf hmath hinert hfront, hprint, hgap, controlWords_append rfl,
      controlWords_control hmem, hwords, hrest, List.map_append, List.map_cons]

/-- In a block, the glyphs of a text become its control words. -/
theorem exists_inText (hs : ∀ c ∈ s, c ≠ '\\' ∧ c ≠ '\r' ∧ c ≠ '\n') :
    ∃ glyphs, Glyph.InText s glyphs ∧ controlWords (printBlock (blockTokens s)) = glyphs.map Glyph.word := by
  refine exists_scan (.inl rfl) comparisonTokens_nil isMath_of_mem_comparisonTokens (fun u hu => ?_) hs
  refine exists_scan (.inr rfl) rfl (fun _ => isMath_of_mem_textIfAny) (fun v hv => ⟨[], rfl, ?_⟩) hu
  rw [printBlock_textIfAny fun c hc => (hv c hc).2]
  exact controlWords_of_not_mem fun hc => (hv _ hc).1 rfl

end Plain

/-! ## Math in a line and in a block -/

/-- **A control word in math never runs into the text behind it.** A text without backslashes and line ends has glyphs
in one way only, arrows first. In what it becomes in a math span, and in what its tokens become in a math block, every
backslash starts the control word of a glyph, with as many letters and no more, and the control words are those of the
glyphs of the text, one after the other. -/
theorem control_words [Memory] {s : Text} (hs : ∀ c ∈ s, c ≠ '\\' ∧ c ≠ '\r' ∧ c ≠ '\n') :
    ∃ glyphs, Glyph.InText s glyphs ∧ (∀ others, Glyph.InText s others → others = glyphs) ∧
      HasWords (mathText s) glyphs ∧
      ∀ (progress : Progress) (indentation : Indentation), progress.mode.math = true →
        progress.mode.verbatim = false →
        ∃ fragments, progress.renderAll indentation (readInline progress.mode s) = (progress, .ok fragments) ∧
          HasWords (Fragment.printAll fragments) glyphs := by
  obtain ⟨glyphs, hglyphs, hwords⟩ := exists_inText hs
  have hblock : HasWords (printBlock (blockTokens s)) glyphs := hasWords_of_controlWords hglyphs.forall_mem hwords
  refine ⟨glyphs, hglyphs, fun _ hothers => hothers.unique hglyphs, ?_, fun progress indentation hm hv => ?_⟩
  · rw [mathText_of_count (fun c hc => (hs c hc).2) (comparisonCount_arrows fun hc => (hs _ hc).1 rfl)]
    exact hblock
  · refine ⟨(blockTokens s).map Token.inMath, ?_, hblock⟩
    rw [readInline_eq_blockTokens hm hv]
    exact Progress.renderAll_of_isMath hm indentation (isMath_of_mem_blockTokens s)

/-- Glyphs next to letters and to each other; the equals sign behind the second letter belongs to an arrow. -/
theorem control_words_letters :
    let s := "x->y>==>z!=ß<-->>=d!=".toList
    (∀ c ∈ s, c ≠ '\\' ∧ c ≠ '\r' ∧ c ≠ '\n') ∧
      mathText s = "x\\rightarrow y>\\Longrightarrow z\\neq ß\\longleftrightarrow\\geq d\\neq".toList ∧
      ∃ glyphs, Glyph.InText s glyphs ∧ HasWords (mathText s) glyphs ∧
        glyphs.map Glyph.word = ["rightarrow".toList, "Longrightarrow".toList, "neq".toList,
          "longleftrightarrow".toList, "geq".toList, "neq".toList] := by
  intro s
  have hs : ∀ c ∈ s, c ≠ '\\' ∧ c ≠ '\r' ∧ c ≠ '\n' := by decide +kernel
  obtain ⟨glyphs, hglyphs, -, hspan, -⟩ := control_words hs
  refine ⟨hs, by decide +kernel, glyphs, hglyphs, hspan, ?_⟩
  rw [← hspan.words]
  decide +kernel

end Lectern
