import Lectern.Converter
import Lectern.Proofs.Attempts
import Lectern.Proofs.LineShapes
import Lectern.Proofs.Outlines

/-!
# What is written for a line

Every token but raw text and head commands has a fragment (`exists_fragment`): the spans inside a span are inline
again, whatever their depth. So there is one reason only for which a line is not written: there are no spaces to indent
it by. **`Progress.Writes`** is what a line does to the progress of a document. The pending tags and those that the line
adds lead from the old lists to the new ones, and they are either written in front of the line or, if it fails, kept.
`writes_blockTag`, `writes_item` and `writes_plain` say so of each kind of line, with what it does to the lists, and
`write_outermost` says that what stands outside of all lists is written as it is printed.
-/

set_option autoImplicit false

namespace Lectern

/-! ## Fragments -/

/-- Whether a token stands for text of the document. -/
def Token.hasPlace : Token → Bool
  | .raw _ | .command _ => false
  | _ => true

/-- Whether a token stands for text of the document and changes neither the open lists nor the open blocks. -/
def Token.isPlain : Token → Bool
  | .raw _ | .command _ | .item _ _ | .fence _ | .delimiter _ => false
  | _ => true

theorem Token.isPlain_of_isInline {t : Token} (h : t.isInline = true) : t.isPlain = true := by
  cases t <;> first | rfl | cases h

theorem Token.hasPlace_of_isPlain {t : Token} (h : t.isPlain = true) : t.hasPlace = true := by
  cases t <;> first | rfl | cases h

theorem Token.isItem_of_isPlain {t : Token} (h : t.isPlain = true) : t.isItem = false := by
  cases t <;> first | rfl | cases h

theorem Token.isBlockTag_of_isPlain {t : Token} (h : t.isPlain = true) : t.isBlockTag = false := by
  cases t <;> first | rfl | cases h

theorem exists_fragmentWith {inner : Text → Except Unrenderable Text} (hi : ∀ s, ∃ text, inner s = .ok text)
    {t : Token} (ht : t.hasPlace = true) (mode : Mode) : ∃ fragment, t.fragmentWith inner mode = .ok fragment := by
  cases t with
  | raw s => cases ht
  | command assignment => cases ht
  | bold body =>
    obtain ⟨text, h⟩ := hi body
    exact ⟨.bold text, by rw [Token.fragmentWith, h]; rfl⟩
  | italic body =>
    obtain ⟨text, h⟩ := hi body
    exact ⟨.italic text, by rw [Token.fragmentWith, h]; rfl⟩
  | _ => exact ⟨_, rfl⟩

/-- The text of a span can be rendered, however deep spans are nested in it. -/
theorem exists_renderSpan (mode : Mode) (depth : Nat) (s : Text) : ∃ text, renderSpan mode depth s = .ok text := by
  induction depth generalizing s with
  | zero => exact ⟨s, rfl⟩
  | succ depth ih =>
    have hall : ∀ t ∈ readInline mode s, ∃ fragment, t.fragmentWith (renderSpan mode depth) mode = .ok fragment :=
      fun t ht =>
        have hp := Token.isPlain_of_isInline (isInline_of_mem_readInline ht)
        exists_fragmentWith ih (Token.hasPlace_of_isPlain hp) mode
    obtain ⟨fragments, h⟩ := exists_mapM hall
    exact ⟨Fragment.printAll fragments, by rw [renderSpan, h]; rfl⟩

/-- Every token that stands for text of the document has a fragment. -/
theorem exists_fragment {t : Token} (ht : t.hasPlace = true) (mode : Mode) :
    ∃ fragment, t.fragment mode = .ok fragment :=
  exists_fragmentWith (fun s => exists_renderSpan mode s.length s) ht mode

namespace Progress

variable {indentation : Indentation} {progress : Progress}

section

variable [Memory]

/-- Fragments of tokens that are no list items leave the progress as it is. -/
theorem renderAll_of_plain {tokens : List Token} (h : ∀ t ∈ tokens, t.isPlain = true) :
    ∃ fragments, progress.renderAll indentation tokens = (progress, .ok fragments) := by
  induction tokens with
  | nil => exact ⟨[], rfl⟩
  | cons t tokens ih =>
    obtain ⟨fragments, hr⟩ := ih fun t ht => h t (List.mem_cons_of_mem _ ht)
    have hp := h t List.mem_cons_self
    obtain ⟨fragment, hf⟩ := exists_fragment (Token.hasPlace_of_isPlain hp) progress.mode
    have ht : progress.render indentation t = (progress, .ok fragment) := by
      cases t with
      | item kind level => cases hp
      | _ => simp only [render, hf]; rfl
    exact ⟨fragment :: fragments, by simp only [renderAll, ht, hr]⟩

/-! ## Written lines -/

/-- What comes of a line in a mode, when all tags that it needs are pending in an outline: the line is written behind
these tags and none is left, or everything stays because there are no spaces to indent the line by. -/
inductive Writes (indentation : Indentation) (mode : Mode) (outline : Outline) :
    Progress → Except Failure WrittenLine → Prop
  | done (text : Text) : mode.verbatim = true ∨ text = [] ∨ indentation.allows outline.depth = .ok () →
      Writes indentation mode outline ⟨mode, ⟨outline.levels, []⟩, []⟩
        (.ok ⟨outline.pending, if mode.verbatim || text == [] then none else some outline.depth, text⟩)
  | failed (line : Text) (reason : Unindentable) : indentation.allows outline.depth = .error reason →
      Writes indentation mode outline ⟨mode, outline, line⟩ (.error (.unindentable reason))

theorem writes_takeWithin (indentation : Indentation) (progress : Progress) :
    Writes indentation progress.mode progress.outline (progress.takeWithin indentation).1
      ((progress.takeWithin indentation).2.mapError .unindentable) := by
  cases h : indentation.allows progress.outline.depth with
  | ok done =>
    rw [takeWithin_of_allows h]
    exact .done progress.line (.inr (.inr h))
  | error reason =>
    simp only [takeWithin, take]
    split
    · next hd =>
      refine .done progress.line ?_
      by_cases hc : (progress.mode.verbatim || progress.line == []) = true
      · simp only [Bool.or_eq_true, beq_iff_eq] at hc
        exact hc.imp id .inl
      · rw [if_neg hc, Option.elim_some, h] at hd
        cases hd
    · next reason' hd =>
      split at hd
      · cases hd
      · exact .failed progress.line reason' hd

theorem written_of_takeWithin {written : WrittenLine}
    (h : (progress.takeWithin indentation).2.mapError Failure.unindentable = .ok written) :
    written = progress.take.1 := by
  simp only [takeWithin] at h
  split at h
  · cases h
    rfl
  · cases h

/-- A line whose fragments are known is written as it is, or without its indentation if it continues a list item. -/
theorem write_of_renderAll {line : Text} {tokens : List Token} {fragments : List Fragment} {settled : Progress}
    (h : (progress.settleLists line tokens).renderAll indentation tokens = (settled, .ok fragments)) :
    ∃ text, (settled.continuesItem tokens = false → text = Fragment.printAll fragments) ∧
      (settled.continuesItem tokens = true → text = Text.trimIndent (Fragment.printAll fragments)) ∧
      progress.write indentation line tokens = (((settled.setLine text).takeWithin indentation).1,
        ((settled.setLine text).takeWithin indentation).2.mapError .unindentable) := by
  refine ⟨if settled.continuesItem tokens then Text.trimIndent (Fragment.printAll fragments)
    else Fragment.printAll fragments, fun hc => by rw [hc]; rfl, fun hc => by rw [hc]; rfl, ?_⟩
  simp only [write, h]

end

theorem mode_settleLists (line : Text) (tokens : List Token) :
    (progress.settleLists line tokens).mode = progress.mode := by
  unfold settleLists
  repeat' split
  all_goals rfl

theorem mode_renderAll [Memory] (tokens : List Token) (progress : Progress) :
    (progress.renderAll indentation tokens).1.mode = progress.mode := by
  induction tokens generalizing progress with
  | nil => rfl
  | cons t tokens ih =>
    have hrender : (progress.render indentation t).1.mode = progress.mode := by
      cases t with
      | item kind level =>
        simp only [render]
        split <;> rfl
      | _ => rfl
    rw [renderAll]
    split
    · next h => rw [← hrender, h]
    · next next _ h =>
      have htail := ih next
      rw [h] at hrender
      split
      · next hr => rw [← hrender, ← htail, hr]
      · next hr => rw [← hrender, ← htail, hr]

theorem mode_takeWithin [Memory] (progress : Progress) : (progress.takeWithin indentation).1.mode = progress.mode := by
  simp only [takeWithin]
  split <;> rfl

/-- Writing a line does not change how the next one is read. -/
theorem mode_write [Memory] (line : Text) (tokens : List Token) (progress : Progress) :
    (progress.write indentation line tokens).1.mode = progress.mode := by
  have hrender : ((progress.settleLists line tokens).renderAll indentation tokens).1.mode =
      (progress.settleLists line tokens).mode := mode_renderAll tokens _
  rw [mode_settleLists] at hrender
  unfold write
  split
  · next h => rw [← hrender, h]
  · next next fragments h =>
    rw [← hrender, h]
    exact mode_takeWithin _

/-- Before a line is written, lists close and nothing else happens. -/
theorem settleLists_cases (line : Text) (tokens : List Token) :
    progress.settleLists line tokens = progress ∨
      ∃ depth, progress.settleLists line tokens = progress.mapOutline (Outline.closeTo depth) := by
  unfold settleLists
  repeat' split
  all_goals first | exact .inl rfl | exact .inr ⟨_, rfl⟩

theorem leads_settleLists (line : Text) (tokens : List Token) :
    progress.outline.Leads (progress.settleLists line tokens).outline := by
  rcases settleLists_cases line tokens with h | ⟨depth, h⟩
  · rw [h]
    exact .refl _
  · rw [h]
    exact Outline.leads_closeTo depth _

theorem depth_settleLists_le (line : Text) (tokens : List Token) :
    (progress.settleLists line tokens).outline.depth ≤ progress.outline.depth := by
  rcases settleLists_cases line tokens with h | ⟨depth, h⟩
  · exact Nat.le_of_eq (by rw [h])
  · rw [h, mapOutline, Outline.depth_closeTo]
    exact Nat.min_le_left _ _

theorem settleLists_of_levels_eq_nil (h : progress.outline.levels = []) (line : Text) (tokens : List Token) :
    progress.settleLists line tokens = progress := by
  rcases settleLists_cases line tokens with hs | ⟨depth, hs⟩
  · exact hs
  · rw [hs, mapOutline, Outline.closeTo_of_levels_eq_nil h]

section

variable [Memory]

/-- A line that neither is a list item nor delimits a block is written behind the tags of the lists that close. -/
theorem writes_plain (indentation : Indentation) (progress : Progress) (line : Text) {tokens : List Token}
    (h : ∀ t ∈ tokens, t.isPlain = true) :
    Writes indentation progress.mode (progress.settleLists line tokens).outline
      (progress.write indentation line tokens).1 (progress.write indentation line tokens).2 := by
  have hr : ∃ fragments, (progress.settleLists line tokens).renderAll indentation tokens =
      (progress.settleLists line tokens, .ok fragments) := renderAll_of_plain h
  obtain ⟨fragments, hr⟩ := hr
  obtain ⟨text, -, -, hw⟩ := write_of_renderAll hr
  rw [hw, ← mode_settleLists line tokens]
  exact writes_takeWithin indentation ((progress.settleLists line tokens).setLine text)

/-- A token in front of which all lists close, and which opens none, is always written. -/
theorem write_closing {t : Token} {fragment : Fragment} {line : Text} (h0 : indentation.allows 0 = .ok ())
    (hi : t.isItem = false) (hs : progress.settleLists line [t] = progress.mapOutline (Outline.closeTo 0))
    (hf : t.fragment progress.mode = .ok fragment) : progress.write indentation line [t] =
      (⟨progress.mode, .empty, []⟩, .ok ⟨(progress.outline.closeTo 0).pending,
        if progress.mode.verbatim || fragment.print == [] then none else some 0, fragment.print⟩) := by
  have hlevels := Outline.levels_closeTo_zero progress.outline
  have hc : (progress.mapOutline (Outline.closeTo 0)).continuesItem [t] = false := by
    simp [continuesItem, mapOutline, Outline.depth, hlevels]
  have hd : (progress.mapOutline (Outline.closeTo 0)).outline.depth = 0 := by
    rw [mapOutline, Outline.depth, hlevels, List.length_nil]
  have hr : (progress.settleLists line [t]).renderAll indentation [t] =
      (progress.mapOutline (Outline.closeTo 0), .ok [fragment]) := by
    rw [hs]
    cases t with
    | item kind level => cases hi
    | _ => simp only [renderAll, render, mapOutline, hf]; rfl
  obtain ⟨text, htext, -, hw⟩ := write_of_renderAll hr
  have hprint : text = fragment.print := by
    rw [htext hc, Fragment.printAll, Fragment.printAll, List.append_nil, List.append_nil]
  rw [hw, takeWithin_of_allows (by rw [setLine, hd, h0]), ← hprint]
  simp only [take, setLine, hd]
  simp only [mapOutline, hlevels]
  rfl

/-- The delimiter of a block closes all lists and is always written. -/
theorem write_blockTag (progress : Progress) {t : Token} (ht : t.isBlockTag = true)
    (h0 : indentation.allows 0 = .ok ()) (line : Text) :
    ∃ fragment, t.fragment progress.mode = .ok fragment ∧ progress.write indentation line [t] =
      (⟨progress.mode, .empty, []⟩, .ok ⟨(progress.outline.closeTo 0).pending,
        if progress.mode.verbatim || fragment.print == [] then none else some 0, fragment.print⟩) := by
  have hi : t.isItem = false := by cases t <;> first | rfl | cases ht
  have hp : t.hasPlace = true := by cases t <;> first | rfl | cases ht
  have hs : progress.settleLists line [t] = progress.mapOutline (Outline.closeTo 0) := by
    simp [settleLists, ht, closeTo]
  obtain ⟨fragment, hf⟩ := exists_fragment hp progress.mode
  exact ⟨fragment, hf, write_closing h0 hi hs hf⟩

theorem writes_blockTag (progress : Progress) {t : Token} (ht : t.isBlockTag = true)
    (h0 : indentation.allows 0 = .ok ()) (line : Text) :
    Writes indentation progress.mode (progress.outline.closeTo 0) (progress.write indentation line [t]).1
      (progress.write indentation line [t]).2 := by
  obtain ⟨fragment, -, hw⟩ := write_blockTag progress ht h0 line
  have hlevels := Outline.levels_closeTo_zero progress.outline
  have hd : (progress.outline.closeTo 0).depth = 0 := by rw [Outline.depth, hlevels, List.length_nil]
  have ha : indentation.allows (progress.outline.closeTo 0).depth = .ok () := by rw [hd, h0]
  have h : Writes indentation progress.mode (progress.outline.closeTo 0) _ _ :=
    .done fragment.print (.inr (.inr ha))
  rw [hlevels, hd] at h
  rw [hw]
  exact h

/-- A list item is written behind the tags that lead to its list, if that list can be opened and indented. -/
theorem writes_item (indentation : Indentation) (progress : Progress) (line : Text) (kind : ListKind) (depth : Nat)
    {tokens : List Token} (h : ∀ t ∈ tokens, t.isInline = true) :
    ∃ outline done, progress.outline.reconcileWithin indentation depth kind = (outline, done) ∧
      Writes indentation progress.mode outline (progress.write indentation line (.item kind depth :: tokens)).1
        (progress.write indentation line (.item kind depth :: tokens)).2 ∧
      ∀ written, (progress.write indentation line (.item kind depth :: tokens)).2 = .ok written →
        done = .ok () ∧ ∃ rest, written.text = Fragment.item.print ++ rest := by
  have hs : progress.settleLists line (.item kind depth :: tokens) = progress := by
    simp [settleLists, Token.isBlockTag, Token.isItem]
  cases hr : progress.outline.reconcileWithin indentation depth kind with
  | mk outline done =>
    refine ⟨outline, done, rfl, ?_⟩
    cases done with
    | error reason =>
      have hw : progress.write indentation line (.item kind depth :: tokens) =
          ({ progress with outline }, .error (.unindentable reason)) := by
        simp only [write, hs, renderAll, render, reconcile, hr]
      rw [hw]
      exact ⟨.failed progress.line reason (Outline.allows_reconcileWithin hr), fun _ hn => by cases hn⟩
    | ok done =>
      have hall : ∃ fragments, ({ progress with outline }).renderAll indentation tokens =
          ({ progress with outline }, .ok fragments) :=
        renderAll_of_plain fun t ht => Token.isPlain_of_isInline (h t ht)
      obtain ⟨fragments, hall⟩ := hall
      have hra : (progress.settleLists line (.item kind depth :: tokens)).renderAll indentation
          (.item kind depth :: tokens) = ({ progress with outline }, .ok (.item :: fragments)) := by
        have hf : ((Token.item kind depth).fragment progress.mode).mapError Failure.unrenderable = .ok .item := rfl
        rw [hs]
        simp only [renderAll, render, reconcile, hr, hf, hall]
      obtain ⟨text, htext, -, hw⟩ := write_of_renderAll hra
      have hprint : ∃ rest, text = Fragment.item.print ++ rest := by
        rw [htext (by simp [continuesItem, Token.isItem])]
        cases fragments <;> exact ⟨_, List.append_assoc _ _ _⟩
      rw [hw]
      refine ⟨writes_takeWithin indentation ({ progress with outline }.setLine text), fun written hwritten => ?_⟩
      rw [written_of_takeWithin hwritten]
      exact ⟨rfl, hprint⟩

theorem renderAll_texts (texts : List Text) :
    progress.renderAll indentation (texts.map .text) = (progress, .ok (texts.map .text)) := by
  induction texts with
  | nil => rfl
  | cons text texts ih =>
    have hrender : progress.render indentation (.text text) = (progress, .ok (.text text)) := rfl
    simp only [List.map_cons, renderAll, hrender, ih]

end

theorem printAll_texts (texts : List Text) : Fragment.printAll (texts.map .text) = texts.flatten := by
  induction texts with
  | nil => rfl
  | cons text texts ih =>
    have hcons : Fragment.printAll (.text text :: texts.map .text) = text ++ Fragment.printAll (texts.map .text) := by
      cases texts <;> exact congrArg (· ++ Fragment.printAll _) (List.append_nil text)
    rw [List.map_cons, hcons, ih, List.flatten_cons]

variable [Memory]

/-- Outside of all lists, fragments of tokens that change no lists are written as they are printed. -/
theorem write_outermost (h0 : indentation.allows 0 = .ok ()) (hlevels : progress.outline.levels = [])
    (hpending : progress.outline.pending = []) (hl : progress.line = []) (line : Text) {tokens : List Token}
    {fragments : List Fragment} (hr : progress.renderAll indentation tokens = (progress, .ok fragments)) :
    ∃ depth?, (∀ depth, depth? = some depth → depth = 0) ∧
      progress.write indentation line tokens = (progress, .ok ⟨[], depth?, Fragment.printAll fragments⟩) := by
  have hsettled : (progress.settleLists line tokens).renderAll indentation tokens = (progress, .ok fragments) := by
    rw [settleLists_of_levels_eq_nil hlevels, hr]
  obtain ⟨text, htext, -, hw⟩ := write_of_renderAll hsettled
  have hdepth : progress.outline.depth = 0 := by rw [Outline.depth, hlevels, List.length_nil]
  have hcontinues : progress.continuesItem tokens = false := by simp [continuesItem, hdepth]
  rw [hw, htext hcontinues, takeWithin_of_allows (by rw [setLine, hdepth, h0])]
  generalize Fragment.printAll fragments = printed
  refine ⟨(progress.setLine printed).take.1.depth?, fun depth hd => ?_, ?_⟩
  · simp only [take, setLine, hdepth] at hd
    by_cases hc : (progress.mode.verbatim || printed == []) = true
    · rw [if_pos hc] at hd
      cases hd
    · rw [if_neg hc] at hd
      exact (Option.some.inj hd).symm
  · rw [← hpending]
    simp only [take, setLine]
    obtain ⟨mode, ⟨levels, pending⟩, line⟩ := progress
    cases hpending
    cases hl
    rfl

/-- Outside of all lists, text is written as it is. -/
theorem write_texts (h0 : indentation.allows 0 = .ok ()) (hlevels : progress.outline.levels = [])
    (hpending : progress.outline.pending = []) (hl : progress.line = []) (line : Text) (texts : List Text) :
    ∃ depth?, (∀ depth, depth? = some depth → depth = 0) ∧
      progress.write indentation line (texts.map .text) = (progress, .ok ⟨[], depth?, texts.flatten⟩) := by
  rw [← printAll_texts]
  exact write_outermost h0 hlevels hpending hl line (renderAll_texts texts)

end Progress

end Lectern
