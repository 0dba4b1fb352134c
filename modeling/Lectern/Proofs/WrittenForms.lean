import Lectern.Proofs.Guards

/-!
# Tokens as they are written

Every token stands for a stretch of the notes, in one of few **written forms** (`Token.Written`): a glyph and a math
span are written as they are, a bold, italic or verbatim span between its delimiters, and ordinary text as it is or
behind a backslash. What a rule finds is written in front of what it leaves (`exists_written_of_front?`), so the pieces
of a text and the tokens gathered from them are written as the text (`written_gather_pieces`), and so is what settling
makes of them (`written_settle`). **`written_readInline`** says that the tokens of a text without line ends are written,
one after the other, as the text: nothing gets lost, nothing is doubled, and nothing changes its place.
-/

set_option autoImplicit false

namespace Lectern

/-! ## Written forms -/

/-- How a token is written in the notes. -/
inductive Token.Written : Token → Text → Prop
  | raw (s : Text) : Written (.raw s) s
  | text (content : Text) : Written (.text content) content
  /-- The backslash says that the text stands for itself. -/
  | escaped (content : Text) : Written (.text content) ('\\' :: content)
  | arrow (glyph : Glyph) : Written (.arrow glyph) glyph.sign
  | comparison (glyph : Glyph) : Written (.comparison glyph) glyph.sign
  /-- A math span has its delimiters with it. -/
  | math (span : Text) : Written (.math span) span
  | bold (body : Text) : Written (.bold body) ("**".toList ++ body ++ "**".toList)
  | italic (body : Text) : Written (.italic body) ("*".toList ++ body ++ "*".toList)
  | verbatim (body : Text) : Written (.verbatim body) (['|'] ++ body ++ ['|'])

/-- How tokens are written one after the other. -/
inductive WrittenAll : List Token → Text → Prop
  | nil : WrittenAll [] []
  | cons {t : Token} {tokens : List Token} {form s : Text} :
      t.Written form → WrittenAll tokens s → WrittenAll (t :: tokens) (form ++ s)

namespace WrittenAll

variable {tokens more : List Token} {s rest : Text}

theorem append (h : WrittenAll tokens s) (hm : WrittenAll more rest) : WrittenAll (tokens ++ more) (s ++ rest) := by
  induction h with
  | nil => exact hm
  | cons ht _ ih =>
    rw [List.cons_append, List.append_assoc]
    exact .cons ht ih

theorem singleton {t : Token} (h : t.Written s) : WrittenAll [t] s := by
  have hcons := WrittenAll.cons h .nil
  rwa [List.append_nil] at hcons

theorem rawIfAny (s : Text) : WrittenAll (Token.rawIfAny s) s := by
  unfold Token.rawIfAny
  split
  · next hs =>
    rw [hs]
    exact .nil
  · exact .singleton (.raw s)

/-- Raw text is written in front of everything else. -/
theorem exists_of_raw_cons {u : Text} (h : WrittenAll (.raw u :: tokens) s) :
    ∃ rest, s = u ++ rest ∧ WrittenAll tokens rest := by
  generalize he : Token.raw u :: tokens = all at h
  cases h with
  | nil => cases he
  | cons ht hrest =>
    cases he
    cases ht
    exact ⟨_, rfl, hrest⟩

end WrittenAll

/-! ## What rules find -/

namespace SpanRule

variable {rule : SpanRule} {s rest : Text} {t : Token}

theorem eq_of_enclosed? {opening closing body : Text} (h : enclosed? opening closing s = some (body, rest)) :
    s = opening ++ body ++ closing ++ rest := by
  unfold enclosed? at h
  split at h
  · next c tail ho =>
    rw [Option.map_eq_some_iff] at h
    obtain ⟨⟨before, after⟩, hsplit, hpair⟩ := h
    obtain ⟨rfl, rfl⟩ := Prod.mk.inj hpair
    rw [Text.after?_eq_some.1 ho, Text.splitAt?_eq_some hsplit]
    simp
  · cases h

/-- A rule for glyphs finds a glyph of its table, or one behind a backslash, which is ordinary text. -/
theorem exists_glyph_of_glyphFront? {table : List Glyph} {token : Glyph → Token}
    (h : glyphFront? table token s = some (t, rest)) :
    ∃ glyph ∈ table, (t = .text glyph.sign ∧ s = '\\' :: (glyph.sign ++ rest)) ∨
      (t = token glyph ∧ s = glyph.sign ++ rest) := by
  unfold glyphFront? at h
  split at h
  · next glyph tail hfound =>
    obtain ⟨behind, hafter, hstart⟩ := Option.bind_eq_some_iff.1 hfound
    obtain ⟨rfl, rfl⟩ := Prod.mk.inj (Option.some.inj h)
    obtain ⟨hmem, rfl⟩ := Glyph.startOf?_eq_some hstart
    exact ⟨glyph, hmem, .inl ⟨rfl, Text.after?_eq_some.1 hafter⟩⟩
  · rw [Option.map_eq_some_iff] at h
    obtain ⟨⟨glyph, tail⟩, hstart, hpair⟩ := h
    obtain ⟨rfl, rfl⟩ := Prod.mk.inj hpair
    obtain ⟨hmem, hs⟩ := Glyph.startOf?_eq_some hstart
    exact ⟨glyph, hmem, .inr ⟨rfl, hs⟩⟩

theorem exists_written_of_glyphFront? {table : List Glyph} {token : Glyph → Token}
    (ht : ∀ glyph, (token glyph).Written glyph.sign) (h : glyphFront? table token s = some (t, rest)) :
    ∃ form, t.Written form ∧ s = form ++ rest := by
  obtain ⟨glyph, -, ⟨rfl, hs⟩ | ⟨rfl, hs⟩⟩ := exists_glyph_of_glyphFront? h
  · exact ⟨'\\' :: glyph.sign, .escaped _, hs⟩
  · exact ⟨glyph.sign, ht glyph, hs⟩

theorem exists_written_of_starFront? {stars : Text} {token : Text → Token}
    (ht : ∀ body, (token body).Written (stars ++ body ++ stars)) (h : starFront? stars token s = some (t, rest)) :
    ∃ form, t.Written form ∧ s = form ++ rest := by
  unfold starFront? at h
  split at h
  · next tail hafter =>
    obtain ⟨rfl, rfl⟩ := Prod.mk.inj (Option.some.inj h)
    exact ⟨'\\' :: stars, .escaped _, Text.after?_eq_some.1 hafter⟩
  · rw [Option.map_eq_some_iff] at h
    obtain ⟨⟨body, tail⟩, henclosed, hpair⟩ := h
    obtain ⟨rfl, rfl⟩ := Prod.mk.inj hpair
    exact ⟨_, ht body, eq_of_enclosed? henclosed⟩

theorem exists_written_of_mathFront? (h : mathFront? s = some (t, rest)) :
    ∃ form, t.Written form ∧ s = form ++ rest := by
  unfold mathFront? at h
  split at h
  · next tail hafter =>
    obtain ⟨rfl, rfl⟩ := Prod.mk.inj (Option.some.inj h)
    exact ⟨"\\$".toList, .text _, Text.after?_eq_some.1 hafter⟩
  · rw [Option.map_eq_some_iff] at h
    obtain ⟨⟨span, tail⟩, hspan, hpair⟩ := h
    obtain ⟨rfl, rfl⟩ := Prod.mk.inj hpair
    obtain ⟨⟨opening, closing⟩, -, hfound⟩ := List.exists_of_findSome?_eq_some hspan
    rw [Option.map_eq_some_iff] at hfound
    obtain ⟨⟨body, tail'⟩, henclosed, hpair⟩ := hfound
    obtain ⟨rfl, rfl⟩ := Prod.mk.inj hpair
    exact ⟨_, .math _, eq_of_enclosed? henclosed⟩

theorem exists_written_of_verbatimFront? (h : verbatimFront? s = some (t, rest)) :
    ∃ form, t.Written form ∧ s = form ++ rest := by
  unfold verbatimFront? at h
  split at h
  · next tail =>
    obtain ⟨rfl, rfl⟩ := Prod.mk.inj (Option.some.inj h)
    exact ⟨['\\', '|'], .escaped _, rfl⟩
  · next tail =>
    have hwhole := List.takeWhile_append_dropWhile (p := fun c => c != '|' && c != '\n') (l := tail)
    simp only at h
    split at h
    · cases h
    · next hdrop _ =>
      obtain ⟨rfl, rfl⟩ := Prod.mk.inj (Option.some.inj h)
      refine ⟨_, .verbatim _, ?_⟩
      rw [hdrop] at hwhole
      exact (congrArg (List.cons '|') hwhole.symm).trans (by simp)
    · cases h
  · cases h

/-- What a rule finds is written in front of what it leaves. -/
theorem exists_written_of_front? (h : rule.front? s = some (t, rest)) : ∃ form, t.Written form ∧ s = form ++ rest := by
  cases rule with
  | math => exact exists_written_of_mathFront? h
  | verbatim => exact exists_written_of_verbatimFront? h
  | arrow => exact exists_written_of_glyphFront? .arrow h
  | comparison => exact exists_written_of_glyphFront? .comparison h
  | bold => exact exists_written_of_starFront? .bold h
  | italic => exact exists_written_of_starFront? .italic h

/-! ## What rules make of texts -/

/-- The pieces of a text, gathered again, are written as the text. -/
theorem written_gather_pieces (rule : SpanRule) (s : Text) : WrittenAll (gather (rule.pieces s)) s := by
  fun_induction pieces rule s with
  | case1 => exact .nil
  | case2 c s t rest hfront ih =>
    obtain ⟨form, hform, he⟩ := exists_written_of_front? hfront
    rw [he]
    exact .cons hform ih
  | case3 c s hnone ih =>
    rw [gather]
    split
    -- the character comes in front of raw text, or is raw text of its own
    · next u tokens hgather =>
      rw [hgather] at ih
      obtain ⟨rest, rfl, hrest⟩ := ih.exists_of_raw_cons
      exact .cons (.raw (c :: u)) hrest
    · exact .cons (.raw [c]) ih

theorem written_read (rule : SpanRule) (mode : Mode) (s : Text) : WrittenAll (rule.read mode s) s := by
  unfold read
  split
  · exact written_gather_pieces rule s
  · exact .rawIfAny s

theorem written_textIfAny {s : Text} (h : ∀ c ∈ s, c ≠ '\r' ∧ c ≠ '\n') : WrittenAll (Token.textIfAny s) s := by
  by_cases hs : s = []
  · rw [hs]
    exact .nil
  · rw [Chunk.textIfAny_of_lineEnd hs h]
    exact .singleton (.text s)

/-- Whatever replaces raw text without line ends is written like it. -/
theorem written_cut {s : Text} (h : ∀ c ∈ s, c ≠ '\r' ∧ c ≠ '\n') (mode : Mode) : WrittenAll (cut mode s) s := by
  unfold cut
  cases hfind : (all.map fun rule => rule.read mode s).find? fun tokens => tokens != [.raw s] with
  | none => exact written_textIfAny h
  | some tokens =>
    obtain ⟨rule, -, rfl⟩ := List.mem_map.1 (List.mem_of_find?_eq_some hfind)
    exact written_read rule mode s

end SpanRule

/-! ## Texts -/

/-- Settling changes nothing of how tokens are written. -/
theorem written_settle {mode : Mode} {tokens : List Token} {s : Text} (hs : WrittenAll tokens s)
    (h : ∀ c ∈ s, c ≠ '\r' ∧ c ≠ '\n') : WrittenAll (settle mode tokens) s := by
  fun_induction settle mode tokens generalizing s with
  | case1 => exact hs
  | case2 u tokens ih =>
    obtain ⟨rest, rfl, hrest⟩ := hs.exists_of_raw_cons
    exact ih ((SpanRule.written_cut (fun c hc => h c (List.mem_append_left _ hc)) mode).append hrest) h
  | case3 t tokens ht ih =>
    cases hs with
    | cons hform hrest => exact .cons hform (ih hrest fun c hc => h c (List.mem_append_right _ hc))

/-- **The tokens of a text are written as the text**, in whatever mode it is read, and none of them is raw. -/
theorem written_readInline {s : Text} (h : ∀ c ∈ s, c ≠ '\r' ∧ c ≠ '\n') (mode : Mode) :
    WrittenAll (readInline mode s) s ∧ ∀ t ∈ readInline mode s, t.isInline = true :=
  ⟨written_settle (.rawIfAny s) h, fun _ ht => isInline_of_mem_readInline ht⟩

/-- Whether a text has a line end can be computed. -/
theorem forall_ne_lineEnd_of_all {s : Text} (h : s.all (fun c => c != '\r' && c != '\n') = true) :
    ∀ c ∈ s, c ≠ '\r' ∧ c ≠ '\n' := by
  intro c hc
  simpa using List.all_eq_true.1 h c hc

/-- Each rule finds something here, and there are backslashes that do and that do not belong to an escape. -/
theorem written_readInline_mixed :
    let mode : Mode := ⟨false, false, []⟩
    let s := "\\a **b** \\* *c* |d| \\| $e$ \\$ ->> \\>= f".toList
    (∀ c ∈ s, c ≠ '\r' ∧ c ≠ '\n') ∧
      readInline mode s =
        [.text "\\a ".toList, .bold "b".toList, .text " ".toList, .text "*".toList, .text " ".toList,
          .italic "c".toList, .text " ".toList, .verbatim "d".toList, .text " ".toList, .text "|".toList,
          .text " ".toList, .math "$e$".toList, .text " ".toList, .text "\\$".toList, .text " ".toList,
          .arrow ⟨"->".toList, "rightarrow".toList⟩, .text "> ".toList, .text ">=".toList, .text " f".toList] ∧
      WrittenAll (readInline mode s) s ∧ ∀ t ∈ readInline mode s, t.isInline = true := by
  intro mode s
  have hs : ∀ c ∈ s, c ≠ '\r' ∧ c ≠ '\n' := forall_ne_lineEnd_of_all (by decide)
  obtain ⟨hwritten, hinline⟩ := written_readInline hs mode
  exact ⟨hs, by decide +kernel, hwritten, hinline⟩

end Lectern
