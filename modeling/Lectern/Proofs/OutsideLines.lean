import Lectern.Proofs.LineContents
import Lectern.Proofs.VerbatimBlocks

/-!
# Lines outside of blocks

Behind the head and outside of blocks a line has one of four shapes (**`OutsideReading`**): a fence, the beginning of a
math block, a list item, or anything else. `exists_outsideReading` says so, and more than the shapes of all lines do: a
list item stands as deep as the line is indented, all that a line without line feeds is read as is of one line, and
something is seen of a line that is not blank. The rules for the start of a line are taken one by one
(`OutsideLine.of_leaves`, `OutsideLine.of_finds`), and each of them cuts the line into parts
(`ListMarker.parts_of_readAfter?`).
-/

set_option autoImplicit false

namespace Lectern

/-- A line that is read behind the head and outside of blocks: the mode that follows, and the tokens. -/
inductive OutsideReading (mode : Mode) (line : Text) : Mode → List Token → Prop
  /-- A verbatim block opens. -/
  | fence : Text.allBlank line = false → OutsideReading mode line mode.toggleVerbatim [.fence true]
  /-- A math block opens. -/
  | opening (delimiter : Text) : Text.allBlank line = false → (mathCloser? delimiter).isSome →
      OutsideReading mode line (mode.toggleMath delimiter) [.delimiter delimiter]
  /-- A list item. -/
  | item (kind : ListKind) (tokens : List Token) : Text.allBlank line = false →
      (∀ t ∈ tokens, t.isInline = true) → (∀ t ∈ tokens, t.OneLine) →
      OutsideReading mode line mode (.item kind (line.columns / levelWidth + 1) :: tokens)
  /-- Any other line. -/
  | plain (tokens : List Token) : (∀ t ∈ tokens, t.isPlain = true) → (∀ t ∈ tokens, t.OneLine) →
      (Text.allBlank line = false → ∃ t ∈ tokens, t.shows = true) → OutsideReading mode line mode tokens

/-! ## Parts of lines -/

section Parts

variable {s : Text} {kind : ListKind}

theorem Text.columnsFrom_takeWhile (column : Nat) (s : Text) :
    columnsFrom column (s.takeWhile isBlank) = columnsFrom column s := by
  fun_induction columnsFrom column s with
  | case1 column s ih => exact ih
  | case2 column s ih => exact ih
  | case3 s column hspace htab =>
    cases s with
    | nil => rfl
    | cons c s =>
      rw [List.takeWhile_cons]
      split
      · rw [columnsFrom]
        · rintro rest he
          exact hspace s (by rw [(List.cons.inj he).1])
        · rintro rest he
          exact htab s (by rw [(List.cons.inj he).1])
      · rfl

/-- The blanks in front of a line are as wide as the line is indented. -/
theorem listLevel_takeWhile (s : Text) : listLevel (s.takeWhile Text.isBlank) = s.columns / levelWidth + 1 := by
  rw [listLevel, Text.columns, Text.columnsFrom_takeWhile, Text.columns]

theorem ListMarker.parts_of_mark? {mark rest : Text} (h : mark? kind s = some (mark, rest)) :
    s = mark ++ rest ∧ Text.allBlank mark = false := by
  have hwhole := List.takeWhile_append_dropWhile (p := Text.isDigit) (l := s)
  cases kind with
  | itemize =>
    simp only [mark?] at h
    split at h
    · cases h
      exact ⟨rfl, by decide⟩
    · cases h
      exact ⟨rfl, by decide⟩
    · cases h
  | enumerate =>
    simp only [mark?] at h
    split at h
    · cases h
    · next hdrop _ =>
      cases h
      rw [hdrop] at hwhole
      refine ⟨by rw [List.append_assoc]; exact hwhole.symm, ?_⟩
      rw [Text.allBlank_append, show Text.allBlank ['.'] = false from rfl, Bool.and_false]
    · next hdrop _ =>
      cases h
      rw [hdrop] at hwhole
      refine ⟨by rw [List.append_assoc]; exact hwhole.symm, ?_⟩
      rw [Text.allBlank_append, show Text.allBlank [')'] = false from rfl, Bool.and_false]
    · cases h

/-- A text with a list marker in front is the marker and the rest. -/
theorem ListMarker.parts_of_readAfter? {indent : Text} {marker : ListMarker}
    (h : readAfter? kind indent s = some marker) :
    marker.indent = indent ∧ s = marker.marker ++ marker.rest ∧ Text.allBlank marker.marker = false := by
  obtain ⟨⟨mark, rest⟩, hmark, hrest⟩ := Option.bind_eq_some_iff.1 h
  obtain ⟨hs, hblank⟩ := parts_of_mark? hmark
  simp only at hrest
  split at hrest
  · cases hrest
  · cases hrest
    refine ⟨rfl, ?_, by rw [Text.allBlank_append, hblank]; rfl⟩
    rw [List.append_assoc, List.takeWhile_append_dropWhile, hs]

theorem not_mem_trimStart {c : Char} (hs : c ∉ s) : c ∉ Text.trimStart s := fun hc =>
  hs ((List.dropWhile_suffix _).mem hc)

theorem allBlank_of_trimStart {rest : Text} {c : Char} (h : Text.trimStart s = c :: rest) :
    Text.allBlank s = false := by
  cases hb : Text.allBlank s with
  | false => rfl
  | true =>
    rw [trimStart_of_allBlank hb] at h
    cases h

theorem ListMarker.parts_of_read? {marker : ListMarker} (h : read? kind s = some marker) :
    listLevel marker.indent = s.columns / levelWidth + 1 ∧ Text.allBlank s = false ∧
      ('\n' ∉ s → '\n' ∉ marker.rest) := by
  obtain ⟨hindent, hs, hblank⟩ := parts_of_readAfter? h
  refine ⟨by rw [hindent, listLevel_takeWhile], ?_, fun hl => ?_⟩
  · cases hm : marker.marker with
    | nil =>
      rw [hm] at hblank
      cases hblank
    | cons c rest => exact allBlank_of_trimStart (hs.trans (by rw [hm, List.cons_append]))
  · exact fun hc => not_mem_trimStart hl (hs ▸ List.mem_append_right _ hc)

theorem ListMarker.parts_of_escaped? {marker : ListMarker} (h : escaped? kind s = some marker) :
    Text.allBlank marker.marker = false ∧ ('\n' ∉ s → '\n' ∉ marker.marker ∧ '\n' ∉ marker.rest) := by
  unfold escaped? at h
  split at h
  · next rest htrim =>
    obtain ⟨-, hrest, hblank⟩ := parts_of_readAfter? h
    refine ⟨hblank, fun hl => ?_⟩
    have hwhole := not_mem_trimStart hl
    rw [htrim, hrest, List.mem_cons, List.mem_append, not_or, not_or] at hwhole
    exact hwhole.2
  · cases h

theorem not_mem_of_heading? {level : Nat} {title : Text} (h : heading? s = some (level, title)) (hl : '\n' ∉ s) :
    '\n' ∉ title := by
  simp only [heading?] at h
  split at h
  · next rest _ hdrop =>
    split at h
    · next c tail hcontent =>
      cases h
      have hrest : '\n' ∉ rest := fun hc => hl ((List.dropWhile_suffix (· == '#')).mem (by
        rw [hdrop]
        exact List.mem_cons_of_mem _ hc))
      rwa [← Text.lineContent?_eq hcontent hrest] at hrest
    · cases h
  · cases h

theorem parts_of_escapedHeading? {hashes rest : Text} (h : escapedHeading? s = some (hashes, rest)) :
    Text.allBlank hashes = false ∧ ('\n' ∉ s → '\n' ∉ hashes ∧ '\n' ∉ rest) := by
  unfold escapedHeading? at h
  split at h
  · next tail =>
    cases h
    refine ⟨rfl, fun hl => ?_⟩
    have hwhole := List.takeWhile_append_dropWhile (p := (· == '#')) (l := tail)
    rw [List.mem_cons, List.mem_cons, ← hwhole, List.mem_append, not_or, not_or, not_or] at hl
    exact ⟨List.not_mem_cons_of_ne_of_not_mem hl.2.1 hl.2.2.1, hl.2.2.2⟩
  · cases h

end Parts

/-! ## Rules -/

/-- The rules read a text behind the head and outside of blocks. -/
def OutsideLine (rules : List LineRule) (mode : Mode) (s : Text) : Prop :=
  ∃ mode' tokens, readStart mode rules (Token.rawIfAny s) = (mode', .ok tokens) ∧
    OutsideReading mode s mode' (settle mode' tokens)

section Rules

variable {mode mode' : Mode} {rule : LineRule} {rules : List LineRule} {s : Text}

theorem plain_of_isInline {tokens : List Token} (h : ∀ t ∈ tokens, t.isInline = true) :
    ∀ t ∈ tokens, t.isPlain = true := fun t ht => Token.isPlain_of_isInline (h t ht)

/-- Text that is left by all rules is inline. -/
theorem OutsideLine.of_no_rule (hl : '\n' ∉ s) : OutsideLine [] mode s := by
  refine ⟨mode, Token.rawIfAny s, ?_, .plain _ ?_ (oneLine_of_mem_readInline hl) exists_shows_of_readInline⟩
  · unfold Token.rawIfAny
    split <;> rfl
  · exact plain_of_isInline fun _ => isInline_of_mem_readInline

theorem OutsideLine.of_leaves (hs : s ≠ []) (h : rule.read mode s = (mode, .ok (Token.rawIfAny s)))
    (hl : OutsideLine rules mode s) : OutsideLine (rule :: rules) mode s := by
  obtain ⟨mode', tokens, hr, hb⟩ := hl
  exact ⟨mode', tokens, by rw [readStart_of_leaves h hs, hr], hb⟩

theorem OutsideLine.of_finds (hs : s ≠ []) (mode' : Mode) (t : Token) (tokens : List Token) (ht : ∀ u, t ≠ .raw u)
    (h : rule.read mode s = (mode', .ok (t :: tokens)))
    (hb : OutsideReading mode s mode' (t :: settle mode' tokens)) : OutsideLine (rule :: rules) mode s :=
  ⟨mode', t :: tokens, readStart_of_finds h ht hs, by rwa [settle_cons ht]⟩

/-- Text that a backslash makes ordinary stands in front of inline text. -/
theorem OutsideReading.escaped {content rest : Text} (hc : Text.allBlank content = false) (hl : '\n' ∉ content)
    (hr : '\n' ∉ rest) : OutsideReading mode s mode (.text content :: readInline mode rest) := by
  refine .plain _ (plain_of_isInline (inline_text_cons content rest)) ?_ fun _ => ⟨_, List.mem_cons_self, ?_⟩
  · exact List.forall_mem_cons.2 ⟨hl, oneLine_of_mem_readInline hr⟩
  · rw [Token.shows, hc]
    rfl

theorem OutsideLine.listMarker {kind : ListKind} (hs : s ≠ []) (hm : mode.inBlock = false) (hl : '\n' ∉ s)
    (h : OutsideLine rules mode s) : OutsideLine (.listMarker kind :: rules) mode s := by
  cases hr : ListMarker.read? kind s with
  | some marker =>
    obtain ⟨hlevel, hblank, hrest⟩ := ListMarker.parts_of_read? hr
    refine .of_finds hs mode (.item kind (listLevel marker.indent)) (Token.rawIfAny marker.rest)
      (fun _ h => by cases h) (by simp [LineRule.read, LineRule.readListMarker, hm, hr]) ?_
    rw [hlevel]
    exact .item kind _ hblank (fun _ => isInline_of_mem_readInline) (oneLine_of_mem_readInline (hrest hl))
  | none =>
    cases he : ListMarker.escaped? kind s with
    | some marker =>
      obtain ⟨hblank, hparts⟩ := ListMarker.parts_of_escaped? he
      exact .of_finds hs mode _ _ (fun _ h => by cases h) (readListMarker_escaped hm hr he)
        (.escaped hblank (hparts hl).1 (hparts hl).2)
    | none => exact h.of_leaves hs (readListMarker_leaves kind hm hr he)

theorem OutsideLine.mathBlock (hs : s ≠ []) (hm : mode.inBlock = false) (h : OutsideLine rules mode s) :
    OutsideLine (.mathBlock :: rules) mode s := by
  obtain ⟨hv, hmath⟩ := Mode.inBlock_eq_false.1 hm
  cases hd : mathDelimiter? s with
  | none => exact h.of_leaves hs (by simp [LineRule.read, LineRule.readMathBlock, hv, hd])
  | some delimiter =>
    cases ho : (mathCloser? delimiter).isSome with
    | false => exact h.of_leaves hs (by simp [LineRule.read, LineRule.readMathBlock, hv, hd, hmath, ho])
    | true =>
      have hblank : Text.allBlank s = false := by
        obtain ⟨hmem, rest, htrim⟩ := prefix_of_mathDelimiter? hd
        cases hdelimiter : delimiter with
        | nil => rw [hdelimiter] at ho; cases ho
        | cons c tail => exact allBlank_of_trimStart (by rw [← htrim, hdelimiter, List.cons_append])
      refine .of_finds hs (mode.toggleMath delimiter) (.delimiter delimiter) [] (fun _ h => by cases h)
        (by simp [LineRule.read, LineRule.readMathBlock, hv, hd, hmath, ho]) ?_
      rw [settle]
      exact .opening delimiter hblank ho

theorem OutsideLine.fence (hs : s ≠ []) (hv : mode.verbatim = false) (h : OutsideLine rules mode s) :
    OutsideLine (.fence :: rules) mode s := by
  cases hf : isFence s with
  | false => exact h.of_leaves hs (by simp [LineRule.read, LineRule.readFence, hf, hv])
  | true =>
    obtain ⟨rest, htrim⟩ := exists_trimStart_of_isFence hf
    refine .of_finds hs mode.toggleVerbatim (.fence true) [] (fun _ h => by cases h)
      (by simp [LineRule.read, LineRule.readFence, hf, hv]) ?_
    rw [settle]
    exact .fence (allBlank_of_trimStart htrim)

theorem OutsideLine.heading (hs : s ≠ []) (hv : mode.verbatim = false) (hl : '\n' ∉ s)
    (h : OutsideLine rules mode s) : OutsideLine (.heading :: rules) mode s := by
  cases hh : heading? s with
  | some found =>
    refine .of_finds hs mode (.heading found.1 found.2) [] (fun _ h => by cases h)
      (by simp [LineRule.read, LineRule.readHeading, hv, hh]) ?_
    rw [settle]
    exact .plain _ (List.forall_mem_singleton.2 rfl) (List.forall_mem_singleton.2 (not_mem_of_heading? hh hl))
      fun _ => ⟨_, List.mem_cons_self, rfl⟩
  | none =>
    cases he : escapedHeading? s with
    | some found =>
      obtain ⟨hblank, hparts⟩ := parts_of_escapedHeading? he
      exact .of_finds hs mode (.text found.1) (Token.rawIfAny found.2) (fun _ h => by cases h)
        (by simp [LineRule.read, LineRule.readHeading, hv, hh, he]) (.escaped hblank (hparts hl).1 (hparts hl).2)
    | none => exact h.of_leaves hs (by simp [LineRule.read, LineRule.readHeading, hv, hh, he])

end Rules

/-! ## Lines -/

/-- **Behind the head and outside of blocks** every line without line feeds has one of the four shapes. -/
theorem exists_outsideReading {mode : Mode} {line : Text} (hh : mode.head = false) (hm : mode.inBlock = false)
    (hl : '\n' ∉ line) : ∃ mode' tokens, readLine mode line = (mode', .ok tokens) ∧
      OutsideReading mode line mode' tokens := by
  have hhead : LineRule.readHeadLine mode line = (mode, Token.rawIfAny line) := by
    simp [LineRule.readHeadLine, hh]
  by_cases hs : line = []
  · subst hs
    have hr := readLine_of_headLine hhead readStart_nil
    rw [settle] at hr
    exact ⟨mode, [], hr, .plain [] (fun _ ht => by cases ht) (fun _ ht => by cases ht) fun hb => by cases hb⟩
  · have hv := (Mode.inBlock_eq_false.1 hm).1
    have hrules : OutsideLine LineRule.behindHead mode line :=
      .heading hs hv hl (.fence hs hv (.mathBlock hs hm (.listMarker hs hm hl (.listMarker hs hm hl
        (.of_no_rule hl)))))
    obtain ⟨mode', tokens, hr, hb⟩ := hrules
    exact ⟨mode', settle mode' tokens, readLine_of_headLine hhead hr, hb⟩

end Lectern
