import Lectern.Proofs.Spans

/-!
# What a line can be

A line has one of few shapes, each with its own change of the mode. **`BodyReading`** lists those of a line behind the
head: a fence, the beginning or the end of a math block, a list item, a heading, or inline tokens alone;
**`LineReading`** adds the lines of the head. `readLine_cases` says that there are no others and that reading fails for
no line, as long as the open math block has a delimiter that closes it (**`Mode.Closable`**). Every rule for the start
of a line either leaves its text as it is or settles the line (`BodyLine.of_leaves`, `BodyLine.of_finds`).
-/

set_option autoImplicit false

namespace Lectern

/-- No math block is open, or there is a delimiter that closes it. -/
def Mode.Closable (mode : Mode) : Prop := mode.math = true → (mathCloser? mode.delimiter).isSome

theorem Mode.closable_endHead {mode : Mode} : mode.endHead.Closable ↔ mode.Closable := Iff.rfl

/-- A line behind the head, as it is read in a mode: the mode that follows, and the tokens. -/
inductive BodyReading (mode : Mode) : Mode → List Token → Prop
  /-- A fence opens a verbatim block or closes it. -/
  | fence : BodyReading mode mode.toggleVerbatim [.fence !mode.verbatim]
  /-- A math block opens. -/
  | opening (delimiter : Text) : mode.inBlock = false → (mathCloser? delimiter).isSome →
      BodyReading mode (mode.toggleMath delimiter) [.delimiter delimiter]
  /-- The math block closes. -/
  | closing (delimiter : Text) : mode.verbatim = false → mode.math = true →
      mathCloser? mode.delimiter = some delimiter → BodyReading mode (mode.toggleMath delimiter) [.delimiter delimiter]
  /-- A list item, which stands in one list at least. -/
  | item (kind : ListKind) (depth : Nat) (tokens : List Token) : mode.inBlock = false →
      (∀ t ∈ tokens, t.isInline = true) → BodyReading mode mode (.item kind (depth + 1) :: tokens)
  /-- A heading. -/
  | heading (level : Nat) (title : Text) : mode.verbatim = false → BodyReading mode mode [.heading level title]
  /-- Any other line. -/
  | inline (tokens : List Token) : (∀ t ∈ tokens, t.isInline = true) → BodyReading mode mode tokens

/-- Behind the head there are no commands. -/
theorem BodyReading.ne_command {mode mode' : Mode} {tokens : List Token} (h : BodyReading mode mode' tokens)
    (assignment : Text) (rest : List Token) : tokens ≠ .command assignment :: rest := by
  rintro rfl
  cases h with
  | inline _ ht => cases ht _ List.mem_cons_self

/-- A line, as it is read in a mode. -/
inductive LineReading (mode : Mode) : Mode → List Token → Prop
  /-- A command of the head. -/
  | command (assignment : Text) : mode.head = true → LineReading mode mode [.command assignment]
  /-- A blank line of the head. -/
  | blank : mode.head = true → LineReading mode mode []
  /-- A line that ends the head or stands behind it. -/
  | body {mode' : Mode} {tokens : List Token} : BodyReading mode.endHead mode' tokens → LineReading mode mode' tokens

/-! ## Rules at the start of a line -/

section Starts

variable {mode mode' : Mode} {rule : LineRule} {rules : List LineRule} {s : Text}

theorem readStart_of_ne_raw {t : Token} (ht : ∀ u, t ≠ .raw u) (tokens : List Token) :
    readStart mode rules (t :: tokens) = (mode, .ok (t :: tokens)) := by
  cases rules <;> cases t <;> first | rfl | exact absurd rfl (ht _)

theorem readStart_nil : readStart mode rules [] = (mode, .ok []) := by cases rules <;> rfl

theorem rawIfAny_of_ne_nil (hs : s ≠ []) : Token.rawIfAny s = [.raw s] := if_neg hs

/-- A rule that leaves a text as it is leaves it to the others. -/
theorem readStart_of_leaves (h : rule.read mode s = (mode', .ok (Token.rawIfAny s))) (hs : s ≠ []) :
    readStart mode (rule :: rules) (Token.rawIfAny s) = readStart mode' rules (Token.rawIfAny s) := by
  rw [rawIfAny_of_ne_nil hs] at h ⊢
  simp only [readStart, h, List.append_nil]

/-- A rule that finds something settles the line. -/
theorem readStart_of_finds {t : Token} {tokens : List Token} (h : rule.read mode s = (mode', .ok (t :: tokens)))
    (ht : ∀ u, t ≠ .raw u) (hs : s ≠ []) :
    readStart mode (rule :: rules) (Token.rawIfAny s) = (mode', .ok (t :: tokens)) := by
  rw [rawIfAny_of_ne_nil hs]
  simp only [readStart, h, List.append_nil]
  exact readStart_of_ne_raw ht tokens

/-- The rules read a text as a line behind the head. -/
def BodyLine (rules : List LineRule) (mode : Mode) (s : Text) : Prop :=
  ∃ mode' tokens, readStart mode rules (Token.rawIfAny s) = (mode', .ok tokens) ∧
    BodyReading mode mode' (settle mode' tokens)

theorem BodyLine.of_nil (rules : List LineRule) (mode : Mode) : BodyLine rules mode [] :=
  ⟨mode, [], readStart_nil, .inline _ fun _ ht => by rw [settle] at ht; cases ht⟩

/-- Text that is left by all rules is inline. -/
theorem BodyLine.of_no_rule (mode : Mode) (s : Text) : BodyLine [] mode s := by
  refine ⟨mode, Token.rawIfAny s, ?_, .inline _ fun _ => isInline_of_mem_readInline⟩
  unfold Token.rawIfAny
  split <;> rfl

theorem BodyLine.of_leaves (h : rule.read mode s = (mode, .ok (Token.rawIfAny s))) (hl : BodyLine rules mode s) :
    BodyLine (rule :: rules) mode s := by
  by_cases hs : s = []
  · exact hs ▸ .of_nil _ mode
  · obtain ⟨mode', tokens, hr, hb⟩ := hl
    exact ⟨mode', tokens, by rw [readStart_of_leaves h hs, hr], hb⟩

theorem BodyLine.of_finds (t : Token) (tokens : List Token) (ht : ∀ u, t ≠ .raw u)
    (hb : BodyReading mode mode' (t :: settle mode' tokens)) (h : rule.read mode s = (mode', .ok (t :: tokens))) :
    BodyLine (rule :: rules) mode s := by
  by_cases hs : s = []
  · exact hs ▸ .of_nil _ mode
  · exact ⟨mode', t :: tokens, readStart_of_finds h ht hs, by rwa [settle_cons ht]⟩

end Starts

/-! ## The rules one by one -/

section Rules

variable {mode : Mode} {rules : List LineRule} {s : Text}

theorem inline_text_cons (content rest : Text) :
    ∀ t ∈ .text content :: readInline mode rest, t.isInline = true := by
  intro t ht
  rcases List.mem_cons.1 ht with rfl | ht
  · rfl
  · exact isInline_of_mem_readInline ht

theorem BodyLine.listMarker {kind : ListKind} (hl : BodyLine rules mode s) :
    BodyLine (.listMarker kind :: rules) mode s := by
  cases hb : mode.inBlock with
  | true => exact hl.of_leaves (by simp [LineRule.read, LineRule.readListMarker, hb])
  | false =>
    cases hr : ListMarker.read? kind s with
    | some marker =>
      exact .of_finds (.item kind (listLevel marker.indent)) (Token.rawIfAny marker.rest) (fun _ h => by cases h)
        (.item kind _ _ hb fun _ => isInline_of_mem_readInline)
        (by simp [LineRule.read, LineRule.readListMarker, hb, hr])
    | none =>
      cases he : ListMarker.escaped? kind s with
      | some marker =>
        exact .of_finds (.text marker.marker) (Token.rawIfAny marker.rest) (fun _ h => by cases h)
          (.inline _ (inline_text_cons _ _)) (by simp [LineRule.read, LineRule.readListMarker, hb, hr, he])
      | none => exact hl.of_leaves (by simp [LineRule.read, LineRule.readListMarker, hb, hr, he])

theorem BodyLine.mathBlock (hc : mode.Closable) (hl : BodyLine rules mode s) :
    BodyLine (.mathBlock :: rules) mode s := by
  cases hv : mode.verbatim with
  | true => exact hl.of_leaves (by simp [LineRule.read, LineRule.readMathBlock, hv])
  | false =>
    cases hd : mathDelimiter? s with
    | none => exact hl.of_leaves (by simp [LineRule.read, LineRule.readMathBlock, hv, hd])
    | some delimiter =>
      have hne : ∀ u, Token.delimiter delimiter ≠ .raw u := fun _ h => by cases h
      cases hm : mode.math with
      | true =>
        obtain ⟨closer, hcl⟩ := Option.isSome_iff_exists.1 (hc hm)
        by_cases hn : delimiter = closer
        · subst hn
          exact .of_finds (.delimiter delimiter) [] hne (by rw [settle]; exact .closing delimiter hv hm hcl)
            (by simp [LineRule.read, LineRule.readMathBlock, hv, hd, hm, hcl])
        · exact hl.of_leaves (by simp [LineRule.read, LineRule.readMathBlock, hv, hd, hm, hcl, hn])
      | false =>
        cases ho : (mathCloser? delimiter).isSome with
        | true =>
          have hb : mode.inBlock = false := by rw [Mode.inBlock, hv, hm]; rfl
          exact .of_finds (.delimiter delimiter) [] hne (by rw [settle]; exact .opening delimiter hb ho)
            (by simp [LineRule.read, LineRule.readMathBlock, hv, hd, hm, ho])
        | false => exact hl.of_leaves (by simp [LineRule.read, LineRule.readMathBlock, hv, hd, hm, ho])

theorem BodyLine.fence (hl : mode.verbatim = false → BodyLine rules mode s) : BodyLine (.fence :: rules) mode s := by
  cases hf : isFence s with
  | true =>
    exact .of_finds (.fence !mode.verbatim) [] (fun _ h => by cases h) (by rw [settle]; exact .fence)
      (by simp [LineRule.read, LineRule.readFence, hf])
  | false =>
    cases hv : mode.verbatim with
    | true =>
      refine .of_finds (.text s) [] (fun _ h => by cases h) (.inline _ fun t ht => ?_)
        (by simp [LineRule.read, LineRule.readFence, hf, hv])
      rw [settle, List.mem_singleton] at ht
      rw [ht]
      rfl
    | false => exact (hl hv).of_leaves (by simp [LineRule.read, LineRule.readFence, hf, hv])

theorem BodyLine.heading (hl : BodyLine rules mode s) : BodyLine (.heading :: rules) mode s := by
  cases hv : mode.verbatim with
  | true => exact hl.of_leaves (by simp [LineRule.read, LineRule.readHeading, hv])
  | false =>
    cases hh : heading? s with
    | some found =>
      exact .of_finds (.heading found.1 found.2) [] (fun _ h => by cases h)
        (by rw [settle]; exact .heading found.1 found.2 hv) (by simp [LineRule.read, LineRule.readHeading, hv, hh])
    | none =>
      cases he : escapedHeading? s with
      | some found =>
        exact .of_finds (.text found.1) (Token.rawIfAny found.2) (fun _ h => by cases h)
          (.inline _ (inline_text_cons _ _)) (by simp [LineRule.read, LineRule.readHeading, hv, hh, he])
      | none => exact hl.of_leaves (by simp [LineRule.read, LineRule.readHeading, hv, hh, he])

end Rules

/-! ## Lines -/

section Lines

variable {mode mode' : Mode} {line : Text}

/-- The rules that follow the one for the head. -/
def LineRule.behindHead : List LineRule :=
  [.heading, .fence, .mathBlock, .listMarker .itemize, .listMarker .enumerate]

/-- Behind the head every text is read. -/
theorem bodyLine (hc : mode.Closable) (s : Text) : BodyLine LineRule.behindHead mode s :=
  .heading (.fence fun _ => .mathBlock hc (.listMarker (.listMarker (.of_no_rule mode s))))

/-- What the head rule leaves of a line goes to the rules behind it. -/
theorem readLine_of_headLine {found : List Token} {mode'' : Mode} {tokens : List Token}
    (h : LineRule.readHeadLine mode line = (mode', found))
    (hr : readStart mode' LineRule.behindHead found = (mode'', .ok tokens)) :
    readLine mode line = (mode'', .ok (settle mode'' tokens)) := by
  have hs : readStart mode LineRule.all [.raw line] = (mode'', .ok tokens) := by
    rw [← hr]
    simp [LineRule.all, LineRule.behindHead, readStart, LineRule.read, h]
  simp only [readLine, hs]

/-- A line that the head rule leaves as it is has a shape of those behind the head. -/
theorem readLine_of_leaves (hc : mode.Closable)
    (h : LineRule.readHeadLine mode line = (mode.endHead, Token.rawIfAny line)) :
    ∃ mode' tokens, readLine mode line = (mode', .ok tokens) ∧ BodyReading mode.endHead mode' tokens := by
  obtain ⟨mode', tokens, hr, hb⟩ := bodyLine (Mode.closable_endHead.2 hc) line
  exact ⟨mode', settle mode' tokens, readLine_of_headLine h hr, hb⟩

/-- **Every line has one of the shapes**, and reading it never fails. -/
theorem readLine_cases (hc : mode.Closable) (line : Text) :
    ∃ mode' tokens, readLine mode line = (mode', .ok tokens) ∧ LineReading mode mode' tokens := by
  cases hh : mode.head with
  | false =>
    have he : mode.endHead = mode := by rw [Mode.endHead, ← hh]
    have hleaves : LineRule.readHeadLine mode line = (mode.endHead, Token.rawIfAny line) := by
      simp [LineRule.readHeadLine, hh, he]
    obtain ⟨mode', tokens, hr, hb⟩ := readLine_of_leaves hc hleaves
    exact ⟨mode', tokens, hr, .body hb⟩
  | true =>
    cases hl : HeadLine.read? line with
    | none =>
      have hleaves : LineRule.readHeadLine mode line = (mode.endHead, Token.rawIfAny line) := by
        simp [LineRule.readHeadLine, hh, hl]
      obtain ⟨mode', tokens, hr, hb⟩ := readLine_of_leaves hc hleaves
      exact ⟨mode', tokens, hr, .body hb⟩
    | some found =>
      cases found with
      | command key value =>
        have hr : LineRule.readHeadLine mode line = (mode, [.command (key ++ ['='] ++ value)]) := by
          simp [LineRule.readHeadLine, hh, hl]
        have ht : ∀ u, Token.command (key ++ ['='] ++ value) ≠ .raw u := fun _ h => by cases h
        refine ⟨mode, _, readLine_of_headLine hr (readStart_of_ne_raw ht []), ?_⟩
        rw [settle_cons ht, settle]
        exact .command _ hh
      | blank =>
        have hr : LineRule.readHeadLine mode line = (mode, []) := by simp [LineRule.readHeadLine, hh, hl]
        refine ⟨mode, _, readLine_of_headLine hr readStart_nil, ?_⟩
        rw [settle]
        exact .blank hh
      | divider =>
        have hr : LineRule.readHeadLine mode line = (mode.endHead, []) := by simp [LineRule.readHeadLine, hh, hl]
        refine ⟨mode.endHead, _, readLine_of_headLine hr readStart_nil, .body (.inline _ fun t ht => ?_)⟩
        rw [settle] at ht
        cases ht
      | escaped text =>
        have hr : LineRule.readHeadLine mode line = (mode.endHead, .text "\\$".toList :: Token.rawIfAny text) := by
          simp [LineRule.readHeadLine, hh, hl]
        have ht : ∀ u, Token.text "\\$".toList ≠ .raw u := fun _ h => by cases h
        refine ⟨mode.endHead, _, readLine_of_headLine hr (readStart_of_ne_raw ht _), .body (.inline _ ?_)⟩
        rw [settle_cons ht]
        exact inline_text_cons _ _

end Lines

end Lectern
