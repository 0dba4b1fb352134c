import Lectern.Proofs.Borders
import Lectern.Proofs.OutsideLines

/-!
# Lines behind an indentation

A text is read behind any indentation of spaces and tabs in one of two ways (**`exists_readLine_indent`**): the
indentation begins the first token, which is text, and all else is the same; or only its width tells in what is read.
No rule finds anything in an indentation, so that a span rule leaves it in front of the text that it leaves
(`SpanRule.exists_read_indent`), and the rules for the start of a line look behind it or measure it
(`LineRule.readAlike`).
-/

set_option autoImplicit false

namespace Lectern

/-! ## Indentations -/

/-- Spaces and tabs, one at least. -/
structure Text.IsIndent (indent : Text) : Prop where
  ne_nil : indent ≠ []
  blank : ∀ c ∈ indent, c = ' ' ∨ c = '\t'

/-- An indentation that reaches a column in front of a text. -/
structure Text.Indents (column : Nat) (s indent : Text) : Prop extends Text.IsIndent indent where
  columns : (indent ++ s).columns = column

namespace Text.IsIndent

variable {indent : Text}

theorem isBlank (h : indent.IsIndent) : ∀ c ∈ indent, Text.isBlank c = true := by
  intro c hc
  rcases h.blank c hc with rfl | rfl <;> rfl

theorem exists_cons (h : indent.IsIndent) : ∃ c tail, indent = c :: tail ∧ (c = ' ' ∨ c = '\t') := by
  obtain ⟨c, tail, rfl⟩ := List.exists_cons_of_ne_nil h.ne_nil
  exact ⟨c, tail, rfl, h.blank c List.mem_cons_self⟩

theorem trimStart_append (h : indent.IsIndent) (s : Text) : Text.trimStart (indent ++ s) = Text.trimStart s :=
  List.dropWhile_append_of_pos h.isBlank

theorem trimIndent_append (h : indent.IsIndent) (s : Text) : Text.trimIndent (indent ++ s) = Text.trimIndent s :=
  List.dropWhile_append_of_pos fun c hc => by rcases h.blank c hc with rfl | rfl <;> rfl

theorem allBlank_append (h : indent.IsIndent) (s : Text) : Text.allBlank (indent ++ s) = Text.allBlank s := by
  rw [Text.allBlank_append, show Text.allBlank indent = true from List.all_eq_true.2 h.isBlank, Bool.true_and]

theorem rawIfAny_append (h : indent.IsIndent) (s : Text) : Token.rawIfAny (indent ++ s) = [.raw (indent ++ s)] :=
  rawIfAny_of_ne_nil (List.append_ne_nil_of_left_ne_nil h.ne_nil s)

/-- There is no line end in an indentation. -/
theorem textIfAny_append (h : indent.IsIndent) (s : Text) :
    Token.textIfAny (indent ++ s) = [.text (indent ++ s.filter fun c => c != '\r' && c != '\n')] := by
  have hkept : (indent.filter fun c => c != '\r' && c != '\n') = indent :=
    List.filter_eq_self.2 fun c hc => by rcases h.blank c hc with rfl | rfl <;> rfl
  rw [Token.textIfAny, List.filter_append, hkept]
  split
  · next hnil => exact absurd hnil (List.append_ne_nil_of_left_ne_nil h.ne_nil _)
  · rfl

/-- No rule looks for spaces or tabs. -/
theorem inert (h : indent.IsIndent) (rule : SpanRule) (rest : Text) : rule.Inert indent rest := by
  have hno : ' ' ∉ rule.alphabet ∧ '\t' ∉ rule.alphabet := by cases rule <;> decide
  refine SpanRule.inert_foreign (fun c hc hmem => ?_) rest
  rcases h.blank c hmem with rfl | rfl
  · exact hno.1 hc
  · exact hno.2 hc

end Text.IsIndent

/-! ## Spans -/

namespace SpanRule

/-- A rule leaves a text behind an indentation, or it makes the same of it behind every indentation: some text that is
left behind the indentation, and the other tokens. -/
theorem exists_read_indent (rule : SpanRule) (mode : Mode) (s : Text) :
    (∀ indent : Text, indent.IsIndent → rule.read mode (indent ++ s) = [.raw (indent ++ s)]) ∨
      ∃ stretch tokens, stretch.length < s.length ∧ ∀ indent : Text, indent.IsIndent →
        rule.read mode (indent ++ s) = .raw (indent ++ stretch) :: tokens := by
  by_cases ha : rule.applies mode = true
  · rcases pieces_cases rule s with hinert | ⟨stretch, front, t, rest, rfl, hinert, hfront⟩
    · refine .inl fun indent hi => ?_
      have hall : rule.Inert (indent ++ s) [] := .append (by rw [List.append_nil]; exact hi.inert rule s) hinert
      rw [read, if_pos ha, gather_pieces_of_inert hall, hi.rawIfAny_append]
    · refine .inr ⟨stretch, t :: gather (rule.pieces rest), ?_, fun indent hi => ?_⟩
      · have := length_lt_of_front? hfront
        rw [List.length_append]
        omega
      · have hall : rule.Inert (indent ++ stretch) front := .append (hi.inert rule _) hinert
        rw [read, if_pos ha, ← List.append_assoc, gather_pieces_append hall hfront, hi.rawIfAny_append,
          List.singleton_append]
  · exact .inl fun indent hi => by rw [read, if_neg ha, hi.rawIfAny_append]

/-- What the first of some rules that changes a text makes of it. -/
def firstChange (rules : List SpanRule) (mode : Mode) (s : Text) : Option (List Token) :=
  (rules.map fun rule => rule.read mode s).find? fun tokens => tokens != [.raw s]

theorem cut_eq (mode : Mode) (s : Text) : cut mode s = (firstChange all mode s).getD (Token.textIfAny s) := rfl

theorem firstChange_of_leaves {rule : SpanRule} {mode : Mode} {s : Text} (h : rule.read mode s = [.raw s])
    (rules : List SpanRule) : firstChange (rule :: rules) mode s = firstChange rules mode s := by
  rw [firstChange, List.map_cons, List.find?_cons_of_neg (by rw [h]; simp), firstChange]

theorem firstChange_of_read {rule : SpanRule} {mode : Mode} {s : Text} (h : rule.read mode s ≠ [.raw s])
    (rules : List SpanRule) : firstChange (rule :: rules) mode s = some (rule.read mode s) := by
  rw [firstChange, List.map_cons, List.find?_cons_of_pos (by simpa using h)]

/-- Which of the rules is the first that changes a text does not depend on the indentation. -/
theorem exists_firstChange_indent (rules : List SpanRule) (mode : Mode) (s : Text) :
    (∀ indent : Text, indent.IsIndent → firstChange rules mode (indent ++ s) = none) ∨
      ∃ stretch tokens, stretch.length < s.length ∧ ∀ indent : Text, indent.IsIndent →
        firstChange rules mode (indent ++ s) = some (.raw (indent ++ stretch) :: tokens) := by
  induction rules with
  | nil => exact .inl fun _ _ => rfl
  | cons rule rules ih =>
    rcases exists_read_indent rule mode s with hleaves | ⟨stretch, tokens, hlength, hread⟩
    · rcases ih with hnone | ⟨stretch, tokens, hlength, hsome⟩
      · exact .inl fun indent hi => by rw [firstChange_of_leaves (hleaves indent hi), hnone indent hi]
      · exact .inr ⟨stretch, tokens, hlength, fun indent hi => by
          rw [firstChange_of_leaves (hleaves indent hi), hsome indent hi]⟩
    · refine .inr ⟨stretch, tokens, hlength, fun indent hi => ?_⟩
      -- what is left is shorter than the text
      have hne : rule.read mode (indent ++ s) ≠ [.raw (indent ++ s)] := by
        rw [hread indent hi]
        intro he
        have hsame := List.append_cancel_left (Token.raw.inj (List.cons.inj he).1)
        exact Nat.ne_of_lt hlength (congrArg List.length hsame)
      rw [firstChange_of_read hne, hread indent hi]

theorem exists_cut_indent (mode : Mode) (s : Text) :
    (∀ indent : Text, indent.IsIndent → cut mode (indent ++ s) = Token.textIfAny (indent ++ s)) ∨
      ∃ stretch tokens, stretch.length < s.length ∧ ∀ indent : Text, indent.IsIndent →
        cut mode (indent ++ s) = .raw (indent ++ stretch) :: tokens := by
  rcases exists_firstChange_indent all mode s with hnone | ⟨stretch, tokens, hlength, hsome⟩
  · exact .inl fun indent hi => by rw [cut_eq, hnone indent hi, Option.getD_none]
  · exact .inr ⟨stretch, tokens, hlength, fun indent hi => by rw [cut_eq, hsome indent hi, Option.getD_some]⟩

end SpanRule

/-- **An indentation stays in front of the text** that is read first, and changes nothing else. -/
theorem exists_readInline_indent (mode : Mode) (s : Text) : ∃ rest tokens, ∀ indent : Text, indent.IsIndent →
    readInline mode (indent ++ s) = .text (indent ++ rest) :: tokens := by
  have hsettle : ∀ indent : Text, indent.IsIndent →
      readInline mode (indent ++ s) = settle mode (SpanRule.cut mode (indent ++ s)) := fun indent hi => by
    rw [readInline, hi.rawIfAny_append, settle, List.append_nil]
  rcases SpanRule.exists_cut_indent mode s with hall | ⟨stretch, tokens, hlength, hcut⟩
  · refine ⟨s.filter fun c => c != '\r' && c != '\n', [], fun indent hi => ?_⟩
    rw [hsettle indent hi, hall indent hi, hi.textIfAny_append, settle_cons (fun _ h => by cases h), settle]
  · obtain ⟨rest, more, hstretch⟩ := exists_readInline_indent mode stretch
    refine ⟨rest, more ++ settle mode tokens, fun indent hi => ?_⟩
    have hread := hstretch indent hi
    rw [readInline, hi.rawIfAny_append] at hread
    rw [hsettle indent hi, hcut indent hi, ← List.singleton_append, settle_append, hread, List.cons_append]
termination_by s.length

/-! ## Line starts -/

/-- How a text is read behind all indentations that reach a column: always in the same way, or it is left with its
indentation, or it stands for itself with its indentation. -/
inductive ReadAlike (column : Nat) (s : Text) (read : Text → Mode × Except UnknownDelimiter (List Token)) : Prop
  | same (result : Mode × Except UnknownDelimiter (List Token)) :
      (∀ indent, Text.Indents column s indent → read (indent ++ s) = result) → ReadAlike column s read
  | raw (mode : Mode) :
      (∀ indent, Text.Indents column s indent → read (indent ++ s) = (mode, .ok [.raw (indent ++ s)])) →
      ReadAlike column s read
  | text (mode : Mode) :
      (∀ indent, Text.Indents column s indent → read (indent ++ s) = (mode, .ok [.text (indent ++ s)])) →
      ReadAlike column s read

section Starts

variable {column : Nat} {s : Text} {mode : Mode}

/-- A rule leaves a text with its indentation. -/
theorem ReadAlike.of_rawIfAny {read : Text → Mode × Except UnknownDelimiter (List Token)} (mode : Mode)
    (h : ∀ indent, Text.Indents column s indent → read (indent ++ s) = (mode, .ok (Token.rawIfAny (indent ++ s)))) :
    ReadAlike column s read :=
  .raw mode fun indent hi => by rw [h indent hi, hi.rawIfAny_append]

/-- No command stands behind an indentation, with a backslash or without one. -/
theorem HeadLine.read?_indent {indent : Text} (hi : indent.IsIndent) (s : Text) : HeadLine.read? (indent ++ s) =
    if isDivider s then some .divider else if Text.allBlank s then some .blank else none := by
  have hcommand : command? (indent ++ s) = none ∧ escaped? (indent ++ s) = none := by
    obtain ⟨c, tail, rfl, rfl | rfl⟩ := hi.exists_cons <;> exact ⟨rfl, rfl⟩
  have hdivider : isDivider (indent ++ s) = isDivider s := by rw [isDivider, isDivider, hi.trimStart_append]
  rw [read?, hcommand.1, hcommand.2, hdivider, hi.allBlank_append]

theorem readHeadLine_alike : ReadAlike column s (LineRule.headLine.read mode) := by
  cases hh : mode.head with
  | false => exact .of_rawIfAny mode fun indent hi => by simp [LineRule.read, LineRule.readHeadLine, hh]
  | true =>
    have hread := fun indent (hi : Text.Indents column s indent) => HeadLine.read?_indent hi.toIsIndent s
    cases hd : HeadLine.isDivider s with
    | true =>
      exact .same (mode.endHead, .ok []) fun indent hi => by
        simp [LineRule.read, LineRule.readHeadLine, hh, hread indent hi, hd]
    | false =>
      cases hb : Text.allBlank s with
      | true =>
        exact .same (mode, .ok []) fun indent hi => by
          simp [LineRule.read, LineRule.readHeadLine, hh, hread indent hi, hd, hb]
      | false =>
        exact .of_rawIfAny mode.endHead fun indent hi => by
          simp [LineRule.read, LineRule.readHeadLine, hh, hread indent hi, hd, hb]

theorem readHeading_alike : ReadAlike column s (LineRule.heading.read mode) := by
  refine .of_rawIfAny mode fun indent hi => ?_
  have hno : heading? (indent ++ s) = none ∧ escapedHeading? (indent ++ s) = none := by
    obtain ⟨c, tail, rfl, rfl | rfl⟩ := hi.exists_cons <;> exact ⟨rfl, rfl⟩
  simp only [LineRule.read, LineRule.readHeading, hno.1, hno.2, ite_self]

theorem readFence_alike : ReadAlike column s (LineRule.fence.read mode) := by
  have hfence : ∀ indent, Text.Indents column s indent → isFence (indent ++ s) = isFence s := fun indent hi => by
    rw [isFence, isFence, hi.trimStart_append]
  cases hf : isFence s with
  | true =>
    exact .same (mode.toggleVerbatim, .ok [.fence !mode.verbatim]) fun indent hi => by
      simp [LineRule.read, LineRule.readFence, hfence indent hi, hf]
  | false =>
    cases hv : mode.verbatim with
    | true => exact .text mode fun indent hi => by simp [LineRule.read, LineRule.readFence, hfence indent hi, hf, hv]
    | false =>
      exact .of_rawIfAny mode fun indent hi => by
        simp [LineRule.read, LineRule.readFence, hfence indent hi, hf, hv]

theorem readMathBlock_alike : ReadAlike column s (LineRule.mathBlock.read mode) := by
  have hdelimiter : ∀ indent, Text.Indents column s indent → mathDelimiter? (indent ++ s) = mathDelimiter? s :=
    fun indent hi => by simp only [mathDelimiter?, Text.trim, hi.trimStart_append]
  cases hv : mode.verbatim with
  | true => exact .of_rawIfAny mode fun indent hi => by simp [LineRule.read, LineRule.readMathBlock, hv]
  | false =>
    cases hd : mathDelimiter? s with
    | none =>
      exact .of_rawIfAny mode fun indent hi => by
        simp [LineRule.read, LineRule.readMathBlock, hv, hdelimiter indent hi, hd]
    | some delimiter =>
      cases hm : mode.math with
      | false =>
        cases ho : (mathCloser? delimiter).isSome with
        | false =>
          exact .of_rawIfAny mode fun indent hi => by
            simp [LineRule.read, LineRule.readMathBlock, hv, hdelimiter indent hi, hd, hm, ho]
        | true =>
          exact .same (mode.toggleMath delimiter, .ok [.delimiter delimiter]) fun indent hi => by
            simp [LineRule.read, LineRule.readMathBlock, hv, hdelimiter indent hi, hd, hm, ho]
      | true =>
        cases hc : mathCloser? mode.delimiter with
        | none =>
          exact .same (mode, .error ⟨mode.delimiter⟩) fun indent hi => by
            simp [LineRule.read, LineRule.readMathBlock, hv, hdelimiter indent hi, hd, hm, hc]
        | some closer =>
          by_cases he : delimiter = closer
          · exact .same (mode.toggleMath delimiter, .ok [.delimiter delimiter]) fun indent hi => by
              simp [LineRule.read, LineRule.readMathBlock, hv, hdelimiter indent hi, hd, hm, hc, he]
          · exact .of_rawIfAny mode fun indent hi => by
              simp [LineRule.read, LineRule.readMathBlock, hv, hdelimiter indent hi, hd, hm, hc, he]

/-- Where a marker stands does not tell which one it is. -/
theorem ListMarker.readAfter?_eq (kind : ListKind) (indent s : Text) :
    readAfter? kind indent s = (readAfter? kind [] s).map fun marker => { marker with indent } := by
  rw [readAfter?, readAfter?]
  cases mark? kind s with
  | none => rfl
  | some found =>
    obtain ⟨mark, rest⟩ := found
    simp only [Option.bind_eq_bind, Option.bind_some]
    split <;> rfl

theorem readListMarker_alike (kind : ListKind) : ReadAlike column s ((LineRule.listMarker kind).read mode) := by
  cases hm : mode.inBlock with
  | true => exact .of_rawIfAny mode fun indent hi => by simp [LineRule.read, LineRule.readListMarker, hm]
  | false =>
    have hfound : ∀ indent, Text.Indents column s indent → ListMarker.read? kind (indent ++ s) =
        (ListMarker.readAfter? kind [] (Text.trimStart s)).map fun marker =>
          { marker with indent := (indent ++ s).takeWhile Text.isBlank } := fun indent hi => by
      rw [ListMarker.read?, hi.trimStart_append, ListMarker.readAfter?_eq]
    cases hr : ListMarker.readAfter? kind [] (Text.trimStart s) with
    | some marker =>
      exact .same (mode, .ok (.item kind (column / levelWidth + 1) :: Token.rawIfAny marker.rest)) fun indent hi => by
        have hlevel := listLevel_takeWhile (indent ++ s)
        rw [hi.columns] at hlevel
        simp [LineRule.read, LineRule.readListMarker, hm, hfound indent hi, hr, hlevel]
    | none =>
      have hescaped : ∀ indent, Text.Indents column s indent → ListMarker.escaped? kind (indent ++ s) =
          (ListMarker.escaped? kind s).map fun marker =>
            { marker with indent := (indent ++ s).takeWhile Text.isBlank } := fun indent hi => by
        rw [ListMarker.escaped?, ListMarker.escaped?, hi.trimStart_append]
        split
        · next rest _ =>
          rw [ListMarker.readAfter?_eq, ListMarker.readAfter?_eq kind (s.takeWhile Text.isBlank) rest, Option.map_map]
          rfl
        · rfl
      cases he : ListMarker.escaped? kind s with
      | some marker =>
        exact .same (mode, .ok (.text marker.marker :: Token.rawIfAny marker.rest)) fun indent hi => by
          simp [LineRule.read, LineRule.readListMarker, hm, hfound indent hi, hr, hescaped indent hi, he]
      | none =>
        exact .of_rawIfAny mode fun indent hi => by
          simp [LineRule.read, LineRule.readListMarker, hm, hfound indent hi, hr, hescaped indent hi, he]

theorem LineRule.readAlike (rule : LineRule) (mode : Mode) (column : Nat) (s : Text) :
    ReadAlike column s (rule.read mode) := by
  cases rule with
  | headLine => exact readHeadLine_alike
  | heading => exact readHeading_alike
  | fence => exact readFence_alike
  | mathBlock => exact readMathBlock_alike
  | listMarker kind => exact readListMarker_alike kind

/-- The rules take the text one after the other, as long as it is left. -/
theorem readStart_alike (rules : List LineRule) (mode : Mode) (column : Nat) (s : Text) :
    ReadAlike column s fun line => readStart mode rules [.raw line] := by
  induction rules generalizing mode with
  | nil => exact .raw mode fun indent hi => rfl
  | cons rule rules ih =>
    cases rule.readAlike mode column s with
    | same result h =>
      obtain ⟨next, found⟩ := result
      cases found with
      | error unknown => exact .same (next, .error unknown) fun indent hi => by simp only [readStart, h indent hi]
      | ok found =>
        exact .same (readStart next rules (found ++ [])) fun indent hi => by simp only [readStart, h indent hi]
    | raw next h =>
      have hstep : ∀ indent, Text.Indents column s indent →
          readStart mode (rule :: rules) [.raw (indent ++ s)] = readStart next rules [.raw (indent ++ s)] :=
        fun indent hi => by simp only [readStart, h indent hi, List.append_nil]
      cases ih next with
      | same result h => exact .same result fun indent hi => (hstep indent hi).trans (h indent hi)
      | raw next h => exact .raw next fun indent hi => (hstep indent hi).trans (h indent hi)
      | text next h => exact .text next fun indent hi => (hstep indent hi).trans (h indent hi)
    | text next h =>
      refine .text next fun indent hi => ?_
      simp only [readStart, h indent hi, List.append_nil]

end Starts

/-- **The indentation of a line** begins the text that the line is read as, or only its width tells. -/
theorem exists_readLine_indent (mode : Mode) (column : Nat) (s : Text) :
    (∃ result, ∀ indent, Text.Indents column s indent → readLine mode (indent ++ s) = result) ∨
      ∃ mode' rest tokens, ∀ indent, Text.Indents column s indent →
        readLine mode (indent ++ s) = (mode', .ok (.text (indent ++ rest) :: tokens)) := by
  cases readStart_alike LineRule.all mode column s with
  | same result h =>
    exact .inl ⟨_, fun indent hi => by rw [readLine, h indent hi]⟩
  | raw mode' h =>
    obtain ⟨rest, tokens, hread⟩ := exists_readInline_indent mode' s
    refine .inr ⟨mode', rest, tokens, fun indent hi => ?_⟩
    have hinline := hread indent hi.toIsIndent
    rw [readInline, hi.rawIfAny_append] at hinline
    simp only [readLine, h indent hi, hinline]
  | text mode' h =>
    refine .inr ⟨mode', s, [], fun indent hi => ?_⟩
    simp only [readLine, h indent hi]
    rw [settle_cons (fun _ h => by cases h), settle]

end Lectern
