import Lectern.Proofs.Escaping
import Lectern.Proofs.Reachability

/-!
# Escaped lines

The rules for the start of a line look at its first characters only. None of them is behind a backslash unless it is a
star (`Chunk.readAfter?_sign`), so they find the same in an escaped text as in the text itself (`takeWhile_printAll`):
hashes and list markers, which are ordinary text because of the backslash in front of them, or nothing. What they leave
are chunks again, which are read as they stand (`startsAs_escape`). Outside of all blocks and lists this is all that
there is to a line: **`Converter.line_escape`** says that an escaped text is converted to the text, and that the
converter is left as it was.
-/

set_option autoImplicit false

namespace Lectern

namespace Chunk

/-! ## Signs behind backslashes -/

/-- What is behind the backslashes of an escaped text. -/
def signs : List Text := ['*'] :: ['|'] :: (Glyph.arrows ++ Glyph.comparisons).map Glyph.sign

/-- Behind every backslash there is one of these signs. -/
def SignsKnown (chunks : List Chunk) : Prop := ∀ rule sign, .guarded rule sign ∈ chunks → sign ∈ signs

theorem SignsKnown.of_subset {chunks fewer : List Chunk} (h : SignsKnown chunks) (hf : fewer ⊆ chunks) :
    SignsKnown fewer := fun rule sign hm => h rule sign (hf hm)

section Signs

variable {rule : SpanRule} {inner : Text → List Chunk} {s sign : Text} {chunk : Chunk}

/-- A chunk of a text is one of a stretch between glyphs, or a glyph. -/
theorem mem_ofGlyphs (hr : rule = .arrow ∨ rule = .comparison) (hnil : inner [] = []) (hs : '\\' ∉ s)
    (h : chunk ∈ ofGlyphs rule inner s) :
    (∃ stretch, '\\' ∉ stretch ∧ chunk ∈ inner stretch) ∨
      ∃ glyph ∈ Glyph.arrows ++ Glyph.comparisons, chunk = .guarded rule glyph.sign := by
  refine ofGlyphs_induction (motive := fun _ chunks => chunk ∈ chunks → _) hr hnil
    (fun stretch hb _ h => .inl ⟨stretch, hb, h⟩) ?_ hs h
  intro stretch glyph rest hb _ _ hstart ih h
  rw [List.mem_append, List.mem_cons] at h
  rcases h with h | rfl | h
  · exact .inl ⟨stretch, hb, h⟩
  · exact .inr ⟨glyph, SpanRule.mem_of_mem_glyphs (Glyph.startOf?_eq_some hstart).1, rfl⟩
  · exact ih h

theorem sign_mem_of_mem_map_ofChar (h : .guarded rule sign ∈ s.map ofChar) : sign ∈ signs := by
  obtain ⟨c, -, hc⟩ := List.mem_map.1 h
  rw [ofChar] at hc
  split at hc
  · cases hc
    exact List.mem_cons_self
  · split at hc
    · cases hc
      exact List.mem_cons_of_mem _ List.mem_cons_self
    · cases hc

theorem sign_mem_of_glyph {guard : SpanRule} (h : ∃ glyph ∈ Glyph.arrows ++ Glyph.comparisons,
    Chunk.guarded rule sign = .guarded guard glyph.sign) : sign ∈ signs := by
  obtain ⟨glyph, hg, he⟩ := h
  cases he
  exact List.mem_cons_of_mem _ (List.mem_cons_of_mem _ (List.mem_map_of_mem hg))

/-- Behind the backslashes of an escaped text there are no other signs. -/
theorem signsKnown_ofText (hs : '\\' ∉ s) : SignsKnown (ofText s) := by
  intro rule sign h
  have hnil : ofStretch [] = [] := ofGlyphs_nil _ _
  rcases mem_ofGlyphs (.inl rfl) hnil hs h with ⟨stretch, hstretch, h⟩ | h
  · have hchars : [].map ofChar = [] := rfl
    rcases mem_ofGlyphs (.inr rfl) hchars hstretch h with ⟨plain, -, h⟩ | h
    · exact sign_mem_of_mem_map_ofChar h
    · exact sign_mem_of_glyph h
  · exact sign_mem_of_glyph h

/-- What a sign starts with is neither in a heading nor in a math delimiter, nor does it end a list marker. -/
theorem exists_sign_eq_cons (h : sign ∈ signs) :
    ∃ c rest, sign = c :: rest ∧ (c ≠ '#' ∧ c ≠ '[' ∧ c ≠ ']') ∧ c ≠ '.' ∧ c ≠ ')' := by
  have hall : ∀ sign ∈ signs,
      sign.head?.any (fun c => (c ≠ '#' ∧ c ≠ '[' ∧ c ≠ ']') ∧ c ≠ '.' ∧ c ≠ ')') = true := by decide
  have hhead := hall sign h
  cases sign with
  | nil => cases hhead
  | cons c rest => exact ⟨c, rest, rfl, of_decide_eq_true hhead⟩

/-- No other sign than a star is a list marker. -/
theorem readAfter?_sign (h : sign ∈ signs) (hne : sign ≠ ['*']) (kind : ListKind) (rest : Text) :
    ListMarker.readAfter? kind [] (sign ++ rest) = none := by
  simp only [signs, Glyph.arrows, Glyph.comparisons, List.map_cons, List.map_nil, List.cons_append,
    List.nil_append, List.mem_cons, List.not_mem_nil, or_false] at h
  rcases h with h | h | h | h | h | h | h | h | h | h | h | h | h | h | h | h
  · exact absurd h hne
  all_goals
    rw [h]
    cases kind <;> rfl

end Signs

/-! ## The first characters of chunks -/

section Starts

variable {chunks : List Chunk}

theorem printAll_bare_cons (c : Char) (chunks : List Chunk) : printAll (.bare c :: chunks) = c :: printAll chunks := rfl

theorem valueAll_bare_cons (c : Char) (chunks : List Chunk) : valueAll (.bare c :: chunks) = c :: valueAll chunks := rfl

/-- Nothing that stands in front of a text is behind a backslash. -/
theorem takeWhile_printAll (p : Char → Bool) (hb : p '\\' = false)
    (hp : ∀ sign ∈ signs, sign.head?.any p = false) (hsigns : SignsKnown chunks) :
    ∃ before after, chunks = before ++ after ∧
      (printAll chunks).takeWhile p = valueAll before ∧ (printAll chunks).dropWhile p = printAll after ∧
      (valueAll chunks).takeWhile p = valueAll before ∧ (valueAll chunks).dropWhile p = valueAll after := by
  induction chunks with
  | nil => exact ⟨[], [], rfl, rfl, rfl, rfl, rfl⟩
  | cons chunk chunks ih =>
    cases chunk with
    | bare c =>
      cases hc : p c with
      | true =>
        obtain ⟨before, after, hchunks, htake, hdrop, htake', hdrop'⟩ :=
          ih (hsigns.of_subset (List.subset_cons_self _ _))
        refine ⟨.bare c :: before, after, congrArg _ hchunks, ?_, ?_, ?_, ?_⟩
        · rw [printAll_bare_cons, valueAll_bare_cons, List.takeWhile_cons_of_pos hc, htake]
        · rw [printAll_bare_cons, List.dropWhile_cons_of_pos hc, hdrop]
        · rw [valueAll_bare_cons, valueAll_bare_cons, List.takeWhile_cons_of_pos hc, htake']
        · rw [valueAll_bare_cons, List.dropWhile_cons_of_pos hc, hdrop']
      | false => exact ⟨[], .bare c :: chunks, rfl, by simp [print, value, hc, valueAll]⟩
    | guarded rule sign =>
      have hmem := hsigns rule sign List.mem_cons_self
      obtain ⟨c, rest, rfl, -⟩ := exists_sign_eq_cons hmem
      have hc : p c = false := hp (c :: rest) hmem
      exact ⟨[], .guarded rule (c :: rest) :: chunks, rfl, by simp [print, value, hb, hc, valueAll]⟩

/-- Behind its digits a marker ends with a period or a parenthesis. -/
theorem mark?_enumerate_cons {c : Char} (hc : Text.isDigit c = true) (s : Text) :
    ListMarker.mark? .enumerate (c :: s) =
      match s.dropWhile Text.isDigit with
      | [] => none
      | d :: rest => if d = '.' ∨ d = ')' then some (c :: (s.takeWhile Text.isDigit ++ [d]), rest) else none := by
  rw [ListMarker.mark?, List.takeWhile_cons_of_pos hc, List.dropWhile_cons_of_pos hc]
  cases s.dropWhile Text.isDigit with
  | nil => rfl
  | cons d rest =>
    by_cases hperiod : d = '.'
    · subst hperiod
      rfl
    · by_cases hparen : d = ')'
      · subst hparen
        rfl
      · simp [hperiod, hparen]

/-- The characters of a marker are the same with the backslashes and without them. -/
theorem mark?_cons (hsigns : SignsKnown chunks) (kind : ListKind) (c : Char) :
    (ListMarker.mark? kind (c :: printAll chunks) = none ∧ ListMarker.mark? kind (c :: valueAll chunks) = none) ∨
      ∃ before after, chunks = before ++ after ∧
        ListMarker.mark? kind (c :: printAll chunks) = some (c :: valueAll before, printAll after) ∧
        ListMarker.mark? kind (c :: valueAll chunks) = some (c :: valueAll before, valueAll after) := by
  cases kind with
  | itemize =>
    by_cases hstar : c = '*'
    · subst hstar
      exact .inr ⟨[], chunks, rfl, rfl, rfl⟩
    · by_cases hdash : c = '-'
      · subst hdash
        exact .inr ⟨[], chunks, rfl, rfl, rfl⟩
      · exact .inl (by simp [ListMarker.mark?, hstar, hdash])
  | enumerate =>
    cases hc : Text.isDigit c with
    | false => exact .inl (by simp [ListMarker.mark?, hc])
    | true =>
      obtain ⟨before, after, hchunks, htake, hdrop, htake', hdrop'⟩ :=
        takeWhile_printAll Text.isDigit (by decide) (by decide +kernel) hsigns
      rw [mark?_enumerate_cons hc, mark?_enumerate_cons hc, htake, hdrop, htake', hdrop']
      cases after with
      | nil => exact .inl ⟨rfl, rfl⟩
      | cons chunk after =>
        cases chunk with
        | bare d =>
          by_cases hd : d = '.' ∨ d = ')'
          · refine .inr ⟨before ++ [.bare d], after, by rw [hchunks, List.append_assoc]; rfl, ?_⟩
            rw [valueAll_append, printAll_bare_cons, valueAll_bare_cons]
            exact ⟨if_pos hd, if_pos hd⟩
          · rw [printAll_bare_cons, valueAll_bare_cons]
            exact .inl ⟨if_neg hd, if_neg hd⟩
        | guarded rule sign =>
          have hm : .guarded rule sign ∈ chunks := hchunks ▸ List.mem_append_right _ List.mem_cons_self
          obtain ⟨d, rest, rfl, -, hperiod, hparen⟩ := exists_sign_eq_cons (hsigns rule sign hm)
          rw [printAll_cons, print, valueAll_cons, value]
          exact .inl ⟨if_neg (by decide), if_neg fun hd => hd.elim hperiod hparen⟩

/-- So is the whole marker. -/
theorem readAfter?_cons (hsigns : SignsKnown chunks) (kind : ListKind) (c : Char) :
    (ListMarker.readAfter? kind [] (c :: printAll chunks) = none ∧
      ListMarker.readAfter? kind [] (c :: valueAll chunks) = none) ∨
    ∃ before after, chunks = before ++ after ∧
      ListMarker.readAfter? kind [] (c :: printAll chunks) = some ⟨[], c :: valueAll before, printAll after⟩ ∧
      (ListMarker.readAfter? kind [] (c :: valueAll chunks)).isSome = true := by
  rcases mark?_cons hsigns kind c with ⟨hprint, hvalue⟩ | ⟨mark, after, hchunks, hprint, hvalue⟩
  · exact .inl (by simp [ListMarker.readAfter?, hprint, hvalue])
  · have hafter : SignsKnown after := hsigns.of_subset (hchunks ▸ List.subset_append_right _ _)
    obtain ⟨blanks, rest, hsplit, htake, hdrop, htake', hdrop'⟩ :=
      takeWhile_printAll Text.isBlank (by decide) (by decide) hafter
    cases hempty : valueAll blanks with
    | nil => exact .inl (by simp [ListMarker.readAfter?, hprint, hvalue, htake, htake', hempty])
    | cons d ds =>
      refine .inr ⟨mark ++ blanks, rest, by rw [hchunks, hsplit, List.append_assoc], ?_, ?_⟩
      · simp [ListMarker.readAfter?, hprint, htake, hdrop, hempty]
      · simp [ListMarker.readAfter?, hvalue, htake', hempty]

end Starts

end Chunk

/-! ## The first character of a line -/

section FirstCharacter

variable {c : Char} {s : Text}

theorem trimStart_cons (hb : Text.isBlank c = false) : Text.trimStart (c :: s) = c :: s :=
  List.dropWhile_cons_of_neg (by simp [hb])

/-- Nothing is left of a blank text. -/
theorem trimStart_of_allBlank (h : Text.allBlank s = true) : Text.trimStart s = [] := by
  have happend : Text.trimStart (s ++ []) = [] := List.dropWhile_append_of_pos (List.all_eq_true.1 h)
  rwa [List.append_nil] at happend

theorem isFence_cons (hb : Text.isBlank c = false) (hc : c ≠ '`') : isFence (c :: s) = false := by
  rw [isFence, trimStart_cons hb, show "```".toList = '`' :: ['`', '`'] from rfl, SpanRule.after?_cons_eq_none hc]

/-- A math delimiter that stands alone on a line stands in front of it. -/
theorem prefix_of_mathDelimiter? {delimiter : Text} (h : mathDelimiter? s = some delimiter) :
    delimiter ∈ ["$$".toList, "\\[".toList, "\\]".toList] ∧ delimiter <+: Text.trimStart s := by
  have hmem := List.mem_of_find?_eq_some h
  have heq := List.find?_some h
  rw [beq_iff_eq] at heq
  refine ⟨hmem, heq ▸ ?_⟩
  rw [Text.trim, Text.trimEnd, ← List.reverse_suffix, List.reverse_reverse]
  exact List.dropWhile_suffix _

theorem mathDelimiter?_cons (hb : Text.isBlank c = false) (hd : c ≠ '$')
    (hs : c = '\\' → ∀ d, s.head? = some d → d ≠ '[' ∧ d ≠ ']') : mathDelimiter? (c :: s) = none := by
  rw [Option.eq_none_iff_forall_ne_some]
  intro delimiter h
  obtain ⟨hmem, hp⟩ := prefix_of_mathDelimiter? h
  rw [trimStart_cons hb] at hp
  obtain ⟨rest, hrest⟩ := hp
  rcases List.mem_cons.1 hmem with rfl | hmem
  · exact hd (List.cons.inj hrest).1.symm
  · obtain ⟨hc, htail⟩ : c = '\\' ∧ ∃ d, s.head? = some d ∧ (d = '[' ∨ d = ']') := by
      rcases List.mem_cons.1 hmem with rfl | hmem
      · obtain ⟨rfl, rfl⟩ := List.cons.inj hrest
        exact ⟨rfl, _, rfl, .inl rfl⟩
      · cases List.mem_singleton.1 hmem
        obtain ⟨rfl, rfl⟩ := List.cons.inj hrest
        exact ⟨rfl, _, rfl, .inr rfl⟩
    obtain ⟨d, hhead, hd⟩ := htail
    obtain ⟨hopen, hclose⟩ := hs hc d hhead
    exact hd.elim hopen hclose

theorem read?_cons (hb : Text.isBlank c = false) (kind : ListKind) :
    ListMarker.read? kind (c :: s) = ListMarker.readAfter? kind [] (c :: s) := by
  rw [ListMarker.read?, trimStart_cons hb, List.takeWhile_cons_of_neg (by simp [hb])]

theorem escaped?_cons (hb : Text.isBlank c = false) (hc : c ≠ '\\') (kind : ListKind) :
    ListMarker.escaped? kind (c :: s) = none := by
  rw [ListMarker.escaped?, trimStart_cons hb]
  split
  · next he => exact absurd (List.cons.inj he).1 hc
  · rfl

theorem read?_backslash (kind : ListKind) : ListMarker.read? kind ('\\' :: s) = none := by
  rw [read?_cons (by decide)]
  cases kind <;> rfl

theorem escaped?_backslash (kind : ListKind) :
    ListMarker.escaped? kind ('\\' :: s) = ListMarker.readAfter? kind [] s := by
  rw [ListMarker.escaped?, trimStart_cons (by decide), List.takeWhile_cons_of_neg (by decide)]
  rfl

theorem heading?_cons (hc : c ≠ '#') : heading? (c :: s) = none := by
  rw [heading?, List.takeWhile_cons_of_neg (by simpa using hc)]
  rfl

theorem escapedHeading?_cons (hc : c ≠ '\\') : escapedHeading? (c :: s) = none := by
  rw [escapedHeading?]
  intro rest he
  exact hc (List.cons.inj he).1

theorem escapedHeading?_backslash (hc : c ≠ '#') : escapedHeading? ('\\' :: c :: s) = none := by
  rw [escapedHeading?]
  intro rest he
  exact hc (List.cons.inj (List.cons.inj he).2).1

end FirstCharacter

/-! ## Lines that are neither headings nor blocks -/

section Starts

variable {mode : Mode} {s : Text}

/-- The rules for list markers are left. -/
theorem readStart_of_no_block (hs : s ≠ []) (hm : mode.inBlock = false) (hh : heading? s = none)
    (he : escapedHeading? s = none) (hf : isFence s = false) (hd : mathDelimiter? s = none) :
    readStart mode LineRule.behindHead (Token.rawIfAny s) =
      readStart mode [.listMarker .itemize, .listMarker .enumerate] (Token.rawIfAny s) := by
  have hv : mode.verbatim = false := (Mode.inBlock_eq_false.1 hm).1
  have hheading : LineRule.heading.read mode s = (mode, .ok (Token.rawIfAny s)) := by
    simp [LineRule.read, LineRule.readHeading, hv, hh, he]
  have hfence : LineRule.fence.read mode s = (mode, .ok (Token.rawIfAny s)) := by
    simp [LineRule.read, LineRule.readFence, hv, hf]
  have hmath : LineRule.mathBlock.read mode s = (mode, .ok (Token.rawIfAny s)) := by
    simp [LineRule.read, LineRule.readMathBlock, hv, hd]
  rw [LineRule.behindHead, readStart_of_leaves hheading hs, readStart_of_leaves hfence hs,
    readStart_of_leaves hmath hs]

theorem readListMarker_leaves (kind : ListKind) (hm : mode.inBlock = false) (hr : ListMarker.read? kind s = none)
    (he : ListMarker.escaped? kind s = none) :
    (LineRule.listMarker kind).read mode s = (mode, .ok (Token.rawIfAny s)) := by
  simp [LineRule.read, LineRule.readListMarker, hm, hr, he]

theorem readListMarker_escaped {kind : ListKind} {marker : ListMarker} (hm : mode.inBlock = false)
    (hr : ListMarker.read? kind s = none) (he : ListMarker.escaped? kind s = some marker) :
    (LineRule.listMarker kind).read mode s = (mode, .ok (.text marker.marker :: Token.rawIfAny marker.rest)) := by
  simp [LineRule.read, LineRule.readListMarker, hm, hr, he]

/-- A line without a list marker is left as it is. -/
theorem readStart_of_no_marker (hs : s ≠ []) (hm : mode.inBlock = false)
    (hr : ∀ kind, ListMarker.read? kind s = none) (he : ∀ kind, ListMarker.escaped? kind s = none) :
    readStart mode [.listMarker .itemize, .listMarker .enumerate] (Token.rawIfAny s) =
      (mode, .ok (Token.rawIfAny s)) := by
  rw [readStart_of_leaves (readListMarker_leaves _ hm (hr _) (he _)) hs,
    readStart_of_leaves (readListMarker_leaves _ hm (hr _) (he _)) hs, rawIfAny_of_ne_nil hs]
  rfl

/-- The rules for the start of a line leave it to be read as a text. -/
def StartsAs (mode : Mode) (line text : Text) : Prop :=
  ∃ tokens, readStart mode LineRule.behindHead (Token.rawIfAny line) = (mode, .ok tokens) ∧
    Chunk.ReadsAs mode tokens text

variable {c : Char} {chunks : List Chunk}

/-- Behind a backslash that belongs to a sign, the rules for list markers are left. -/
theorem readStart_backslash (hm : mode.inBlock = false) (hc : c ≠ '#' ∧ c ≠ '[' ∧ c ≠ ']') :
    readStart mode LineRule.behindHead (Token.rawIfAny ('\\' :: c :: s)) =
      readStart mode [.listMarker .itemize, .listMarker .enumerate] (Token.rawIfAny ('\\' :: c :: s)) := by
  refine readStart_of_no_block (List.cons_ne_nil _ _) hm (heading?_cons (by decide)) (escapedHeading?_backslash hc.1)
    (isFence_cons (by decide) (by decide)) (mathDelimiter?_cons (by decide) (by decide) fun _ d hd => ?_)
  cases hd
  exact hc.2

/-- A backslash in front of text that is no list marker is left. -/
theorem readStart_backslash_of_no_marker (hm : mode.inBlock = false) (hc : c ≠ '#' ∧ c ≠ '[' ∧ c ≠ ']')
    (hl : ∀ kind, ListMarker.readAfter? kind [] (c :: s) = none) :
    readStart mode LineRule.behindHead (Token.rawIfAny ('\\' :: c :: s)) =
      (mode, .ok (Token.rawIfAny ('\\' :: c :: s))) := by
  rw [readStart_backslash hm hc]
  exact readStart_of_no_marker (List.cons_ne_nil _ _) hm read?_backslash fun kind => by rw [escaped?_backslash, hl]

/-- Hashes behind a backslash are ordinary text. -/
theorem startsAs_hashes (hm : mode.inBlock = false) (hfit : Chunk.AllFit chunks [])
    (hsigns : Chunk.SignsKnown chunks) :
    StartsAs mode ('\\' :: '#' :: Chunk.printAll chunks) ('#' :: Chunk.valueAll chunks) := by
  obtain ⟨before, after, rfl, htake, hdrop, -⟩ :=
    Chunk.takeWhile_printAll (· == '#') (by decide) (by decide) hsigns
  have hescaped : escapedHeading? ('\\' :: '#' :: Chunk.printAll (before ++ after)) =
      some ('#' :: Chunk.valueAll before, Chunk.printAll after) := by
    rw [escapedHeading?, htake, hdrop]
  have hread : LineRule.heading.read mode ('\\' :: '#' :: Chunk.printAll (before ++ after)) =
      (mode, .ok (.text ('#' :: Chunk.valueAll before) :: Token.rawIfAny (Chunk.printAll after))) := by
    rw [LineRule.read, LineRule.readHeading, (Mode.inBlock_eq_false.1 hm).1, heading?_cons (by decide), hescaped]
    rfl
  refine ⟨_, readStart_of_finds hread (fun _ h => by cases h) (List.cons_ne_nil _ _), ?_⟩
  rw [Chunk.valueAll_append]
  exact Chunk.readsAs_text_cons _ (Chunk.readsAs_printAll hm hfit.right)

/-- A list marker behind a backslash is ordinary text. -/
theorem startsAs_of_finds {kind : ListKind} {rules : List LineRule} {before after : List Chunk} {line : Text}
    (hm : mode.inBlock = false) (hfit : Chunk.AllFit after [])
    (hr : ListMarker.readAfter? kind [] line = some ⟨[], c :: Chunk.valueAll before, Chunk.printAll after⟩)
    (hstart : readStart mode LineRule.behindHead (Token.rawIfAny ('\\' :: line)) =
      readStart mode (.listMarker kind :: rules) (Token.rawIfAny ('\\' :: line))) :
    StartsAs mode ('\\' :: line) (c :: Chunk.valueAll (before ++ after)) := by
  have hescaped := (escaped?_backslash kind).trans hr
  refine ⟨_, hstart.trans (readStart_of_finds (readListMarker_escaped hm (read?_backslash kind) hescaped)
    (fun _ h => by cases h) (List.cons_ne_nil _ _)), ?_⟩
  rw [Chunk.valueAll_append]
  exact Chunk.readsAs_text_cons _ (Chunk.readsAs_printAll hm hfit)

/-- Behind a backslash in front of a text there is a list marker, which is ordinary text, or none. -/
theorem startsAs_backslash (hm : mode.inBlock = false) (hc : c ≠ '#' ∧ c ≠ '[' ∧ c ≠ ']')
    (hfit : Chunk.AllFit chunks []) (hsigns : Chunk.SignsKnown chunks) :
    StartsAs mode ('\\' :: c :: Chunk.printAll chunks) (c :: Chunk.valueAll chunks) ∨
      (∀ kind, ListMarker.readAfter? kind [] (c :: Chunk.printAll chunks) = none) ∧
        ∀ kind, ListMarker.readAfter? kind [] (c :: Chunk.valueAll chunks) = none := by
  have hstart := readStart_backslash (s := Chunk.printAll chunks) hm hc
  rcases Chunk.readAfter?_cons hsigns .itemize c with ⟨hprint, hvalue⟩ | ⟨before, after, rfl, hprint, -⟩
  · rcases Chunk.readAfter?_cons hsigns .enumerate c with ⟨hprint', hvalue'⟩ | ⟨before, after, rfl, hprint', -⟩
    · refine .inr ⟨fun kind => ?_, fun kind => ?_⟩
      · cases kind with
        | itemize => exact hprint
        | enumerate => exact hprint'
      · cases kind with
        | itemize => exact hvalue
        | enumerate => exact hvalue'
    · have hleaves := readListMarker_leaves .itemize hm (read?_backslash _)
        ((escaped?_backslash _).trans hprint)
      rw [readStart_of_leaves hleaves (List.cons_ne_nil _ _)] at hstart
      exact .inl (startsAs_of_finds hm hfit.right hprint' hstart)
  · exact .inl (startsAs_of_finds hm hfit.right hprint hstart)

end Starts

/-! ## Escaped lines -/

section Escape

variable {mode : Mode} {c : Char} {s : Text} {chunks : List Chunk}

theorem startsMarked_cons (hb : Text.isBlank c = false) (s : Text) :
    startsMarked (c :: s) = true ↔ c = '#' ∨ ∃ kind, (ListMarker.readAfter? kind [] (c :: s)).isSome = true := by
  rw [startsMarked, read?_cons hb, read?_cons hb, List.head?_cons, Bool.or_eq_true, Bool.or_eq_true, beq_iff_eq,
    Option.some.injEq, or_assoc]
  refine or_congr_right ⟨fun h => h.elim (⟨_, ·⟩) (⟨_, ·⟩), ?_⟩
  rintro ⟨kind, h⟩
  cases kind with
  | itemize => exact .inl h
  | enumerate => exact .inr h

/-- A text that starts with a character without a backslash. -/
theorem startsAs_escape_bare (hm : mode.inBlock = false) (htame : Tame [c]) (hb : Text.isBlank c = false)
    (hfit : Chunk.AllFit (.bare c :: chunks) []) (hsigns : Chunk.SignsKnown chunks) :
    StartsAs mode
      (if startsMarked (c :: Chunk.valueAll chunks) then '\\' :: c :: Chunk.printAll chunks
        else c :: Chunk.printAll chunks)
      (c :: Chunk.valueAll chunks) := by
  obtain ⟨hbackslash, hdollar, hbacktick, -⟩ := htame c List.mem_cons_self
  have hmarked := startsMarked_cons hb (Chunk.valueAll chunks)
  by_cases hhash : c = '#'
  · subst hhash
    rw [if_pos (hmarked.2 (.inl rfl))]
    exact startsAs_hashes hm hfit.2 hsigns
  · split
    -- the backslash in front belongs to a marker, or the text would not have been marked
    · next hstart =>
      obtain ⟨kind, hkind⟩ := (hmarked.1 hstart).resolve_left hhash
      have hc : c ≠ '#' ∧ c ≠ '[' ∧ c ≠ ']' := by
        refine ⟨hhash, ?_, ?_⟩ <;> rintro rfl <;> cases kind <;> cases hkind
      refine (startsAs_backslash hm hc hfit.2 hsigns).resolve_right fun hnone => ?_
      rw [hnone.2 kind] at hkind
      cases hkind
    · next hstart =>
      have hmarker : ∀ kind, ListMarker.read? kind (c :: Chunk.printAll chunks) = none := by
        intro kind
        rw [read?_cons hb]
        rcases Chunk.readAfter?_cons hsigns kind c with ⟨hprint, -⟩ | ⟨-, -, -, -, hvalue⟩
        · exact hprint
        · exact absurd (hmarked.2 (.inr ⟨kind, hvalue⟩)) hstart
      refine ⟨_, (readStart_of_no_block (List.cons_ne_nil _ _) hm (heading?_cons hhash)
        (escapedHeading?_cons hbackslash) (isFence_cons hb hbacktick)
        (mathDelimiter?_cons hb hdollar fun he => absurd he hbackslash)).trans
        (readStart_of_no_marker (List.cons_ne_nil _ _) hm hmarker (escaped?_cons hb hbackslash)), ?_⟩
      exact Chunk.readsAs_printAll hm hfit

/-- A text that starts with a sign behind a backslash. -/
theorem startsAs_escape_guarded (hm : mode.inBlock = false) {rule : SpanRule} {sign : Text}
    (hfit : Chunk.AllFit (.guarded rule sign :: chunks) [])
    (hsigns : Chunk.SignsKnown (.guarded rule sign :: chunks)) :
    StartsAs mode ('\\' :: sign ++ Chunk.printAll chunks) (sign ++ Chunk.valueAll chunks) := by
  have hmem := hsigns rule sign List.mem_cons_self
  obtain ⟨c, rest, rfl, hc, -⟩ := Chunk.exists_sign_eq_cons hmem
  have hwhole : (∀ kind, ListMarker.readAfter? kind [] (c :: rest ++ Chunk.printAll chunks) = none) →
      StartsAs mode ('\\' :: c :: rest ++ Chunk.printAll chunks) (c :: rest ++ Chunk.valueAll chunks) := by
    intro hnone
    exact ⟨_, readStart_backslash_of_no_marker hm hc hnone, Chunk.readsAs_printAll hm hfit⟩
  -- a star is the only sign that may be a marker, which then takes the backslash before the span rules see it
  by_cases hstar : c :: rest = ['*']
  · obtain ⟨rfl, rfl⟩ := List.cons.inj hstar
    rcases startsAs_backslash hm hc hfit.2 (hsigns.of_subset (List.subset_cons_self _ _)) with h | h
    · exact h
    · exact hwhole h.1
  · exact hwhole fun kind => Chunk.readAfter?_sign hmem hstar kind _

/-- **An escaped text is left to be read as the text.** -/
theorem startsAs_escape (hm : mode.inBlock = false) (h : Escapable s) : StartsAs mode (escape s) s := by
  have hvalue := Chunk.valueAll_ofText h.tame.backslash_not_mem
  have hfit := Chunk.allFit_ofText h.tame
  have hsigns := Chunk.signsKnown_ofText h.tame.backslash_not_mem
  rw [escape]
  generalize Chunk.ofText s = chunks at hvalue hfit hsigns
  subst hvalue
  cases chunks with
  | nil => exact ⟨[], readStart_nil, Chunk.readsAs_nil mode⟩
  | cons chunk chunks =>
    cases chunk with
    | bare c =>
      have hc := (tame_cons.1 h.tame).1
      have hhead : (Chunk.printAll (.bare c :: chunks)).head? ≠ some '\\' := fun he => hc.1 (Option.some.inj he)
      rw [bne_iff_ne.2 hhead, Bool.and_true]
      have htame : Tame [c] := fun d hd => List.mem_singleton.1 hd ▸ hc
      exact startsAs_escape_bare hm htame (h.start c rfl) hfit (hsigns.of_subset (List.subset_cons_self _ _))
    | guarded rule sign =>
      have hhead : (Chunk.printAll (.guarded rule sign :: chunks)).head? = some '\\' := rfl
      rw [hhead, bne_self_eq_false, Bool.and_false]
      exact startsAs_escape_guarded hm hfit hsigns

/-- An escaped text is read as the text, in however many pieces. -/
theorem readLine_escape (hh : mode.head = false) (hm : mode.inBlock = false) (h : Escapable s) :
    ∃ texts : List Text, readLine mode (escape s) = (mode, .ok (texts.map .text)) ∧ texts.flatten = s := by
  obtain ⟨tokens, hstart, texts, hsettle, htexts⟩ := startsAs_escape hm h
  have hhead : LineRule.readHeadLine mode (escape s) = (mode, Token.rawIfAny (escape s)) := by
    simp [LineRule.readHeadLine, hh]
  exact ⟨texts, by rw [readLine_of_headLine hhead hstart, hsettle], htexts⟩

/-- An escaped text has no line end. -/
theorem not_mem_escape (h : Escapable s) : '\n' ∉ escape s := by
  have hprint : ∀ chunks, '\n' ∈ Chunk.printAll chunks → '\n' ∈ Chunk.valueAll chunks := by
    intro chunks hmem
    obtain ⟨chunk, hchunk, hc⟩ := List.mem_flatMap.1 hmem
    refine List.mem_flatMap.2 ⟨chunk, hchunk, ?_⟩
    cases chunk with
    | bare c => exact hc
    | guarded rule sign => exact (List.mem_cons.1 hc).resolve_left (by decide)
  have htext : '\n' ∉ Chunk.printAll (Chunk.ofText s) := by
    intro hmem
    have hvalue := hprint _ hmem
    rw [Chunk.valueAll_ofText h.tame.backslash_not_mem] at hvalue
    exact (h.tame _ hvalue).2.2.2.2 rfl
  rw [escape]
  split
  · intro hmem
    exact htext ((List.mem_cons.1 hmem).resolve_left (by decide))
  · exact htext

end Escape

/-! ## Converting escaped text -/

namespace Converter

/-- **Escaping is undone by converting.** -/
theorem line_escape [Memory] {settings : Settings} {converter : Converter} {s : Text}
    (hreach : Reachable settings converter) (hhead : converter.progress.mode.head = false)
    (hblock : converter.progress.mode.inBlock = false)
    (hlists : converter.progress.outline.levels = []) (h : Escapable s) :
    converter.line (escape s) = (converter, .ok s) := by
  obtain ⟨texts, hread, rfl⟩ := readLine_escape hhead hblock h
  have hsound := hreach.sound
  obtain ⟨hpending, hline⟩ := hsound.coherent.outside hlists
  obtain ⟨depth?, hdepth, hwrite⟩ := Progress.write_texts hsound.outermost hlists hpending hline
    (escape texts.flatten) texts
  have hbody : converter.bodyLine (escape texts.flatten) = (converter, .ok ⟨[], depth?, texts.flatten⟩) := by
    have hsame : converter.withMode converter.progress.mode = converter := rfl
    simp only [bodyLine, read_of_readLine hread, hsame, write, hwrite]
  have hcontent : converter.contentLine (escape texts.flatten) =
      (converter, .ok (some ⟨[], depth?, texts.flatten⟩)) := by
    simp only [contentLine, hhead, hbody]
    rfl
  have hprint : WrittenLine.print converter.indentation.width ⟨[], depth?, texts.flatten⟩ = texts.flatten := by
    cases depth? with
    | none => rfl
    | some depth =>
      rw [hdepth depth rfl]
      simp [WrittenLine.print, indentAt, Text.spaces]
  have hok : converter.printLine [] (some ⟨[], depth?, texts.flatten⟩) = texts.flatten := by
    rw [printLine, Option.elim_some, print, hprint, List.append_nil]
  simp only [line, splitTerminator_of_not_mem (not_mem_escape h), hcontent]
  exact congrArg (fun text => (converter, Except.ok text)) hok

/-- A list item is escaped as well as arrows that overlap, when a list and a block have been closed. -/
theorem line_escape_listItem :
    let converter := ((((Converter.new Settings.default).endHead.obey (.line "* a".toList)).1.obey
      (.line "$$".toList)).1.obey (.line "$$".toList)).1
    escape "- a >=> *b* |c| <---> d".toList = "\\- a >\\=> \\*b\\* \\|c\\| \\<--\\-> d".toList ∧
      converter.line (escape "- a >=> *b* |c| <---> d".toList) =
        (converter, .ok "- a >=> *b* |c| <---> d".toList) := by
  intro converter
  have hreach : Reachable Settings.default converter := .obey _ (.obey _ (.obey _ (.endHead .new)))
  have hescapable : Escapable "- a >=> *b* |c| <---> d".toList := by
    refine ⟨by decide, fun c hc => ?_⟩
    cases hc
    decide
  exact ⟨by decide +kernel, line_escape hreach (by decide +kernel) (by decide +kernel) (by decide +kernel) hescapable⟩

end Converter

end Lectern
