import Lectern.Proofs.OutsideLines
import Lectern.Proofs.Passages

/-!
# The structure of lists

Which lists are open behind a line depends on the lists before it, on how far it is indented and on what it is
(**`stackBehind`**). A line that is not blank **enters** these lists (`Progress.Enters`): it is written inside of them,
and the tags on the way to them stand in front of it, unless there are no spaces to indent it by. `enters_blockTag`,
`enters_item` and `enters_plain` say so of each kind of line, and `list_structure` puts them together with the way in
which lines are read (`exists_outsideReading`).

That something is seen of a line that is not blank decides that it is indented: an empty line would not be.
-/

set_option autoImplicit false

namespace Lectern

/-- The lists that are open behind a line that is not blank, the outermost first. A list item stands one level further
in than a line that continues an item and is indented as far. -/
def stackBehind (line : Text) (tokens : List Token) (stack : List ListKind) : List ListKind :=
  let level := line.columns / levelWidth
  match tokens.head? with
  | some (.item kind _) => stack.take level ++ List.replicate (level - stack.length) kind ++ [kind]
  | some (.fence _) | some (.delimiter _) => []
  | _ => stack.take level

/-- What the text of a line inside of lists is like. -/
structure ListText (tokens : List Token) (stack : List ListKind) (text : Text) : Prop where
  oneLine : '\n' ∉ text
  item : ∀ kind level, tokens.head? = some (.item kind level) → "\\item ".toList <+: text
  /-- Nothing but the lists indents a line that continues an item. -/
  continues : stack ≠ [] → (∀ kind level, tokens.head? ≠ some (.item kind level)) →
    text.head? ≠ some ' ' ∧ text.head? ≠ some '\t'

namespace Progress

/-- A line is written inside of some lists and behind the tags on the way to them, if there are spaces to indent it
by. -/
structure Enters [Memory] (indentation : Indentation) (progress : Progress) (tokens : List Token)
    (stack : List ListKind) (result : Progress × Except Failure WrittenLine) : Prop where
  done : indentation.allows stack.length = .ok () → result.1.outline.stack = stack ∧
    ∃ written text, result.2 = .ok written ∧ ListText tokens stack text ∧
      written.print indentation.width =
        (progress.outline.pending ++ passage progress.outline.stack stack).flatMap
          (TagLine.print indentation.width) ++ indentAt indentation.width stack.length ++ text
  failed : indentation.allows stack.length ≠ .ok () →
    ∃ reason depth, result.2 = .error (.unindentable reason) ∧ indentation.allows depth = .error reason

section Enters

variable {indentation : Indentation} {progress settled : Progress} {line : Text} {tokens : List Token}
  {fragments : List Fragment}

/-- A text that is not blank is more than its indentation. -/
theorem trimIndent_ne_nil {text : Text} (h : Text.allBlank text = false) : Text.trimIndent text ≠ [] := by
  intro hnil
  have hdropped := List.takeWhile_append_dropWhile (p := fun c => c == ' ' || c == '\t') (l := text)
  rw [← Text.trimIndent, hnil, List.append_nil] at hdropped
  have hall : Text.allBlank text = true := by
    rw [← hdropped]
    refine List.all_eq_true.2 fun c hc => ?_
    have hindent := List.all_eq_true.1 List.all_takeWhile c hc
    rw [Bool.or_eq_true, beq_iff_eq, beq_iff_eq] at hindent
    rcases hindent with rfl | rfl <;> decide
  rw [hall] at h
  cases h

theorem head?_trimIndent (text : Text) :
    (Text.trimIndent text).head? ≠ some ' ' ∧ (Text.trimIndent text).head? ≠ some '\t' := by
  have hhead : ∀ c, (Text.trimIndent text).head? = some c → (c == ' ' || c == '\t') = false := by
    intro c hc
    have hnot := List.head?_dropWhile_not (fun c => c == ' ' || c == '\t') text
    rw [← Text.trimIndent, hc] at hnot
    exact hnot
  constructor
  · intro h
    have := hhead _ h
    cases this
  · intro h
    have := hhead _ h
    cases this

/-- The text of a line is that of its fragments, without its indentation if it continues an item. -/
theorem listText_of_fragments {text : Text}
    (hwhole : settled.continuesItem tokens = false → text = Fragment.printAll fragments)
    (htrim : settled.continuesItem tokens = true → text = Text.trimIndent (Fragment.printAll fragments))
    (honeLine : '\n' ∉ Fragment.printAll fragments)
    (hitem : ∀ kind level, tokens.head? = some (.item kind level) → "\\item ".toList <+: Fragment.printAll fragments)
    (hcontinues : settled.outline.stack ≠ [] → (∀ kind level, tokens.head? ≠ some (.item kind level)) →
      settled.continuesItem tokens = true) : ListText tokens settled.outline.stack text where
  oneLine := by
    cases hc : settled.continuesItem tokens with
    | false => rwa [hwhole hc]
    | true =>
      rw [htrim hc]
      exact fun hm => honeLine ((List.dropWhile_suffix _).mem hm)
  item := fun kind level hhead => by
    have hc : settled.continuesItem tokens = false := by simp [continuesItem, hhead, Token.isItem]
    rw [hwhole hc]
    exact hitem kind level hhead
  continues := fun hs hn => by
    rw [htrim (hcontinues hs hn)]
    exact head?_trimIndent _

/-- Where there are no spaces for a line that is to be indented, nothing is written. -/
theorem takeWithin_of_refuses [Memory] {depth : Nat} {reason : Unindentable} (hd : progress.take.1.depth? = some depth)
    (hr : indentation.allows depth = .error reason) : progress.takeWithin indentation = (progress, .error reason) := by
  have hnone : progress.take.1.depth?.elim (.ok ()) indentation.allows = .error reason := by
    rw [hd]
    exact hr
  simp only [takeWithin, hnone]

/-- A line of which something is seen is written inside of the lists that are then open. -/
theorem enters_of_renderAll [Memory]
    (h : (progress.settleLists line tokens).renderAll indentation tokens = (settled, .ok fragments))
    (hpasses : progress.outline.Passes settled.outline) (hv : settled.mode.verbatim = false)
    (hseen : Text.allBlank (Fragment.printAll fragments) = false) (honeLine : '\n' ∉ Fragment.printAll fragments)
    (hitem : ∀ kind level, tokens.head? = some (.item kind level) → "\\item ".toList <+: Fragment.printAll fragments)
    (hcontinues : settled.outline.stack ≠ [] → (∀ kind level, tokens.head? ≠ some (.item kind level)) →
      settled.continuesItem tokens = true) :
    Enters indentation progress tokens settled.outline.stack (progress.write indentation line tokens) := by
  obtain ⟨text, hwhole, htrim, hw⟩ := write_of_renderAll h
  have hne : text ≠ [] := by
    cases hc : settled.continuesItem tokens with
    | false =>
      rw [hwhole hc]
      rintro hnil
      rw [hnil] at hseen
      cases hseen
    | true =>
      rw [htrim hc]
      exact trimIndent_ne_nil hseen
  have htext := listText_of_fragments hwhole htrim honeLine hitem hcontinues
  have hdepth : (settled.setLine text).take.1.depth? = some settled.outline.depth := by
    simp [take, setLine, hv, hne]
  refine ⟨fun ha => ?_, fun ha => ?_⟩
  · rw [Outline.length_stack] at ha
    have htake : (settled.setLine text).takeWithin indentation =
        ((settled.setLine text).take.2, .ok (settled.setLine text).take.1) := takeWithin_of_allows ha
    rw [hw, htake]
    refine ⟨rfl, _, text, rfl, htext, ?_⟩
    have htags : (settled.setLine text).take.1.tags =
        progress.outline.pending ++ passage progress.outline.stack settled.outline.stack := hpasses
    rw [WrittenLine.print, hdepth, htags, Outline.length_stack]
    rfl
  · cases hreason : indentation.allows settled.outline.stack.length with
    | ok done => exact absurd hreason ha
    | error reason =>
      refine ⟨reason, _, ?_, hreason⟩
      rw [Outline.length_stack] at hreason
      rw [hw, takeWithin_of_refuses hdepth hreason]
      rfl

/-- How far a line is indented decides how many lists stay open, unless the line begins an item or is blank. -/
theorem settleLists_of_plain (hp : ∀ t ∈ tokens, t.isPlain = true) (hm : progress.mode.inBlock = false) :
    progress.settleLists line tokens =
      if Text.allBlank line then progress else progress.mapOutline (Outline.closeTo (line.columns / levelWidth)) := by
  cases tokens with
  | nil =>
    simp only [settleLists, List.head?_nil, hm]
    cases Text.allBlank line <;> rfl
  | cons t tokens =>
    have hpt := hp t List.mem_cons_self
    simp only [settleLists, List.head?_cons, hm, Token.isBlockTag_of_isPlain hpt, Token.isItem_of_isPlain hpt]
    cases Text.allBlank line <;> rfl

variable [Memory]

theorem enters_plain (hp : ∀ t ∈ tokens, t.isPlain = true) (hl : ∀ t ∈ tokens, t.OneLine)
    (hshows : ∃ t ∈ tokens, t.shows = true) (hm : progress.mode.inBlock = false)
    (hb : Text.allBlank line = false) :
    Enters indentation progress tokens (progress.outline.stack.take (line.columns / levelWidth))
      (progress.write indentation line tokens) := by
  have hsettled : progress.settleLists line tokens =
      progress.mapOutline (Outline.closeTo (line.columns / levelWidth)) := by
    rw [settleLists_of_plain hp hm, hb, if_neg (by decide)]
  have hnone : ∀ kind level, tokens.head? ≠ some (.item kind level) := by
    intro kind level hhead
    have := hp _ (List.mem_of_mem_head? hhead)
    cases this
  have hr : ∃ fragments, (progress.settleLists line tokens).renderAll indentation tokens =
      (progress.settleLists line tokens, .ok fragments) := renderAll_of_plain hp
  obtain ⟨fragments, hr⟩ := hr
  have hmode : (progress.settleLists line tokens).mode = progress.mode := mode_settleLists line tokens
  have hv : (progress.settleLists line tokens).mode.verbatim = false := by
    rw [hmode]
    exact (Mode.inBlock_eq_false.1 hm).1
  have hstack : progress.outline.stack.take (line.columns / levelWidth) =
      (progress.settleLists line tokens).outline.stack := by
    rw [hsettled, ← Outline.stack_closeTo]
    rfl
  have hpasses : progress.outline.Passes (progress.settleLists line tokens).outline := by
    rw [hsettled]
    exact Outline.passes_closeTo _ _
  rw [hstack]
  refine enters_of_renderAll hr hpasses hv (allBlank_of_renderAll hr hshows) (not_mem_of_renderAll hr hl)
    (fun kind level hhead => absurd hhead (hnone kind level)) fun hopen _ => ?_
  have hitem : tokens.head?.any Token.isItem = false := by
    cases tokens with
    | nil => rfl
    | cons t tokens => exact Token.isItem_of_isPlain (hp t List.mem_cons_self)
  have hdepth : 0 < (progress.settleLists line tokens).outline.depth := by
    rw [← Outline.length_stack]
    exact List.length_pos_iff.2 hopen
  rw [continuesItem, hmode, hm, hitem, decide_eq_true hdepth]
  rfl

/-- The missing lists open if the line behind their tags can be indented, which is one level further in. -/
theorem enters_item (kind : ListKind) (level : Nat) (hi : ∀ t ∈ tokens, t.isInline = true)
    (hl : ∀ t ∈ tokens, t.OneLine) (hm : progress.mode.inBlock = false) :
    Enters indentation progress (.item kind (level + 1) :: tokens)
      (progress.outline.stack.take level ++ List.replicate (level - progress.outline.stack.length) kind ++ [kind])
      (progress.write indentation line (.item kind (level + 1) :: tokens)) := by
  have hsettled : progress.settleLists line (.item kind (level + 1) :: tokens) = progress := by
    simp [settleLists, Token.isBlockTag, Token.isItem]
  rw [Outline.length_stack, ← Outline.stack_reconcile]
  rcases Outline.reconcileWithin_cases indentation (level + 1) kind progress.outline with
    ⟨hr, -⟩ | ⟨opened, reason, hlt, he, -, hr⟩
  · let reached : Progress := { progress with outline := progress.outline.reconcile (level + 1) kind }
    have hall : ∃ fragments, reached.renderAll indentation tokens = (reached, .ok fragments) :=
      renderAll_of_plain fun t ht => Token.isPlain_of_isInline (hi t ht)
    obtain ⟨fragments, hall⟩ := hall
    have hra : (progress.settleLists line (.item kind (level + 1) :: tokens)).renderAll indentation
        (.item kind (level + 1) :: tokens) = (reached, .ok (.item :: fragments)) := by
      have hf : ((Token.item kind (level + 1)).fragment progress.mode).mapError Failure.unrenderable = .ok .item := rfl
      rw [hsettled]
      simp only [renderAll, render, reconcile, hr, hf]
      rw [hall]
    have hprint : "\\item ".toList <+: Fragment.printAll (.item :: fragments) := by
      cases fragments <;> exact ⟨_, (List.append_assoc _ _ _).symm⟩
    refine enters_of_renderAll hra (Outline.passes_reconcile _ _ _) (Mode.inBlock_eq_false.1 hm).1 ?_
      (not_mem_of_renderAll hra (List.forall_mem_cons.2 ⟨trivial, hl⟩)) (fun _ _ _ => hprint)
      fun _ hnone => absurd rfl (hnone kind (level + 1))
    exact allBlank_of_renderAll hra ⟨_, List.mem_cons_self, rfl⟩
  · -- a list cannot open, and less so can a line be indented that stands further in
    have hnot : indentation.allows (progress.outline.reconcile (level + 1) kind).stack.length ≠ .ok () := by
      intro ha
      rw [Outline.length_stack, Outline.depth_reconcile] at ha
      rw [Indentation.allows_of_le ha (Nat.le_of_lt hlt)] at he
      cases he
    refine ⟨fun ha => absurd ha hnot, fun _ => ⟨reason, _, ?_, he⟩⟩
    simp only [write, hsettled, renderAll, render, reconcile, hr]

/-- The delimiter of a block stands outside of all lists. -/
theorem enters_blockTag {t : Token} (ht : t.isBlockTag = true) (hl : t.OneLine) (h0 : indentation.allows 0 = .ok ()) :
    Enters indentation progress [t] [] (progress.write indentation line [t]) := by
  obtain ⟨fragment, hf, hw⟩ := write_blockTag progress ht h0 line
  refine ⟨fun _ => ?_, fun hn => absurd h0 hn⟩
  rw [hw]
  have htext : ListText [t] [] fragment.print := by
    refine ⟨not_mem_fragment hl hf, fun kind level hhead => ?_, fun hn => absurd rfl hn⟩
    cases hhead
    cases ht
  refine ⟨rfl, _, fragment.print, rfl, htext, ?_⟩
  have hstack : (progress.outline.closeTo 0).stack = [] := by
    rw [Outline.stack, Outline.levels_closeTo_zero]
    rfl
  have hpasses := Outline.passes_closeTo 0 progress.outline
  rw [Outline.Passes, hstack] at hpasses
  have hzero : indentAt indentation.width ([] : List ListKind).length = [] := by simp [indentAt, Text.spaces]
  rw [Converter.print_outermost, hpasses, hzero, List.append_nil]

end Enters

end Progress

namespace Converter

section Lines

variable {converter : Converter} {line : Text}

theorem not_mem_opening {delimiter : Text} (h : (mathCloser? delimiter).isSome) : '\n' ∉ delimiter := by
  obtain ⟨closer, hcloser⟩ := Option.isSome_iff_exists.1 h
  obtain ⟨before, after, hclosers, -⟩ := List.lookup_eq_some_iff.1 hcloser
  have hall : ∀ closing ∈ mathClosers, '\n' ∉ closing.1 := by decide
  exact hall (delimiter, closer) (by rw [hclosers]; exact List.mem_append_right _ List.mem_cons_self)

variable [Memory]

theorem obey_line_of_not_mem {mode : Mode} {tokens : List Token} (hh : converter.progress.mode.head = false)
    (hl : '\n' ∉ line) (hread : readLine converter.progress.mode line = (mode, .ok tokens)) :
    converter.obey (.line line) = ({ converter with
        progress := ((converter.withMode mode).progress.write converter.indentation line tokens).1 },
      ((converter.withMode mode).progress.write converter.indentation line tokens).2.map fun written =>
        some (written.print converter.indentation.width)) := by
  have hsplit := splitTerminator_of_not_mem hl
  have hcontent : readLine converter.progress.mode (splitTerminator line).1 = (mode, .ok tokens) := by rwa [hsplit]
  have hobey := obey_line_eq hh hcontent (Prod.eta _).symm
  rw [hsplit] at hobey
  simpa only [List.append_nil] using hobey

/-- A line outside of blocks enters the lists that it is to stand in, and a blank one leaves all lists as they are. -/
theorem Sound.enters (hs : converter.Sound) (hh : converter.progress.mode.head = false)
    (hm : converter.progress.mode.inBlock = false) (hl : '\n' ∉ line) :
    ∃ mode tokens, readLine converter.progress.mode line = (mode, .ok tokens) ∧
      (Text.allBlank line = true →
        ((converter.withMode mode).progress.write converter.indentation line tokens).1.outline.stack =
          converter.progress.outline.stack) ∧
      (Text.allBlank line = false →
        Progress.Enters converter.indentation (converter.withMode mode).progress tokens
          (stackBehind line tokens converter.progress.outline.stack)
          ((converter.withMode mode).progress.write converter.indentation line tokens)) := by
  obtain ⟨mode, tokens, hread, hreading⟩ := exists_outsideReading hh hm hl
  refine ⟨mode, tokens, hread, ?_⟩
  cases hreading with
  | fence hb =>
    rw [hb]
    exact ⟨fun h => (by cases h), fun _ => Progress.enters_blockTag rfl trivial hs.outermost⟩
  | opening delimiter hb ho =>
    rw [hb]
    exact ⟨fun h => (by cases h), fun _ => Progress.enters_blockTag rfl (not_mem_opening ho) hs.outermost⟩
  | item kind tokens hb hi hone =>
    rw [hb]
    exact ⟨fun h => (by cases h), fun _ => Progress.enters_item kind _ hi hone hm⟩
  | plain _ hp hone hshows =>
    refine ⟨fun hb => ?_, fun hb => ?_⟩
    · have hwrites := Progress.writes_plain converter.indentation (converter.withMode converter.progress.mode).progress
        line hp
      have hsettled : converter.progress.settleLists line tokens = converter.progress := by
        rw [Progress.settleLists_of_plain hp hm, hb, if_pos rfl]
      rw [Outline.stack, hwrites.levels_eq]
      exact congrArg (fun progress => progress.outline.levels.reverse) hsettled
    · have hstack : stackBehind line tokens converter.progress.outline.stack =
          converter.progress.outline.stack.take (line.columns / levelWidth) := by
        cases tokens with
        | nil => rfl
        | cons t tokens =>
          have ht := hp t List.mem_cons_self
          cases t <;> first | rfl | cases ht
      rw [hstack]
      exact Progress.enters_plain hp hone (hshows hb) hm hb

end Lines

/-- **The structure of lists.** Behind the head and outside of blocks, lists stay open behind a blank line. Any other
line gives the tags that are pending, those on the shortest way to its lists, and its text inside of these, unless there
cannot be the spaces that it is to be indented by. Nothing is pending unless a call has failed. -/
theorem list_structure [Memory] (settings : Settings) :
    (∀ converter, Reachable settings converter → converter.progress.mode.head = false →
      converter.progress.mode.inBlock = false → ∀ line, '\n' ∉ line →
      ∃ mode tokens, readLine converter.progress.mode line = (mode, .ok tokens) ∧
        let stack := converter.progress.outline.stack
        let next := stackBehind line tokens stack
        let indented := (Indentation.spaces settings.indentWidth).allows next.length
        (Text.allBlank line = true → (converter.obey (.line line)).1.progress.outline.stack = stack) ∧
        (Text.allBlank line = false → indented = .ok () →
          (converter.obey (.line line)).1.progress.outline.stack = next ∧
          ∃ text, ListText tokens next text ∧ (converter.obey (.line line)).2 =
            .ok (some ((converter.progress.outline.pending ++ passage stack next).flatMap
              (TagLine.print settings.indentWidth) ++ indentAt settings.indentWidth next.length ++ text))) ∧
        (Text.allBlank line = false → indented ≠ .ok () →
          ∃ why, (converter.obey (.line line)).2 = .error (.unindentable (.unrepeatable why)))) ∧
    ∀ converter, Intact settings converter → converter.progress.outline.pending = [] := by
  refine ⟨fun converter hr hh hm line hl => ?_, fun converter hi => hi.settled.pending⟩
  have hindentation := hr.indentation_eq
  obtain ⟨mode, tokens, hread, hblank, henters⟩ := hr.sound.enters hh hm hl
  have hobey := obey_line_of_not_mem hh hl hread
  rw [hindentation] at hobey hblank henters
  refine ⟨mode, tokens, hread, fun hb => ?_, fun hb hallows => ?_, fun hb hrefuses => ?_⟩
  · rw [hobey]
    exact hblank hb
  · obtain ⟨hstack, written, text, hwritten, htext, hprint⟩ := (henters hb).done hallows
    rw [hobey]
    refine ⟨hstack, text, htext, ?_⟩
    rw [hwritten, Except.map, hprint]
    rfl
  · obtain ⟨reason, depth, hfails, ha⟩ := (henters hb).failed hrefuses
    obtain ⟨why, rfl⟩ := Indentation.unrepeatable_of_allows_spaces ha
    refine ⟨why, ?_⟩
    rw [hobey, hfails]
    rfl

/-- The inner one of two lists gives way to one of the other kind. -/
theorem list_structure_exchange :
    let converter := (((Converter.new Settings.default).endHead.obey (.line "* a".toList)).1.obey
      (.line "  1. b".toList)).1
    Reachable Settings.default converter ∧ converter.progress.outline.stack = [.itemize, .enumerate] ∧
      (converter.obey (.line "  - *c*".toList)).1.progress.outline.stack = [.itemize, .itemize] ∧
      ∃ text, "\\item ".toList <+: text ∧ (converter.obey (.line "  - *c*".toList)).2 =
        .ok (some ("    \\end\x7benumerate\x7d\n    \\begin\x7bitemize\x7d\n        ".toList ++ text)) := by
  intro converter
  have hreachable : Reachable Settings.default converter := .obey _ (.obey _ (.endHead .new))
  have hprogress : converter.progress = ⟨⟨false, false, []⟩, ⟨[.enumerate, .itemize], []⟩, []⟩ := by decide +kernel
  obtain ⟨mode, tokens, hread, -, hwritten, -⟩ := (list_structure Settings.default).1 converter hreachable
    (by rw [hprogress]) (by rw [hprogress]; rfl) "  - *c*".toList (by decide)
  have htokens : (readLine converter.progress.mode "  - *c*".toList).2.toOption =
      some [.item .itemize 2, .italic "c".toList] := by decide +kernel
  rw [hread] at htokens
  cases htokens
  rw [hprogress] at hwritten
  obtain ⟨hstack, text, htext, hresult⟩ := hwritten (by decide) rfl
  refine ⟨hreachable, by rw [hprogress]; rfl, hstack, text, htext.item _ _ rfl, hresult.trans ?_⟩
  congr 3

/-- A list item that could not be written, because the width of its indentation is no index, leaves the tag that opens
its list. It comes out in front of the next line. -/
theorem not_list_structure :
    ¬ ∀ (raw : RawSettings) (settings : Settings), raw.check = .ok settings →
      ∀ converter, Reachable settings converter → converter.progress.mode.head = false →
        converter.progress.mode.inBlock = false → ∀ line, '\n' ∉ line → Text.allBlank line = false →
        ∀ mode tokens, readLine converter.progress.mode line = (mode, .ok tokens) →
        let stack := converter.progress.outline.stack
        let next := stackBehind line tokens stack
        ∃ text, ListText tokens next text ∧ (converter.obey (.line line)).2 =
          .ok (some ((passage stack next).flatMap (TagLine.print settings.indentWidth) ++
            indentAt settings.indentWidth next.length ++ text)) := by
  intro h
  have hcheck : (RawSettings.default.set .indentWidth (.int 9223372036854775808)).check =
      .ok { Settings.default with indentWidth := 9223372036854775808 } := rfl
  let converter := ((new { Settings.default with indentWidth := 9223372036854775808 }).endHead.obey
    (.line "* a".toList)).1
  have hreachable : Reachable { Settings.default with indentWidth := 9223372036854775808 } converter :=
    .obey _ (.endHead .new)
  have hprogress : converter.progress =
      ⟨⟨false, false, []⟩, ⟨[.itemize], [⟨0, .opens .itemize⟩]⟩, "\\item a".toList⟩ := by decide +kernel
  have hmode : converter.progress.mode = ⟨false, false, []⟩ := by rw [hprogress]
  obtain ⟨mode, tokens, hread, -⟩ := @exists_outsideReading converter.progress.mode "b".toList (by rw [hmode])
    (by rw [hmode]; rfl) (by decide)
  have htokens : (readLine converter.progress.mode "b".toList).2.toOption = some [.text "b".toList] := by
    decide +kernel
  rw [hread] at htokens
  cases htokens
  obtain ⟨text, -, htext⟩ := h _ _ hcheck _ hreachable (by rw [hmode]) (by rw [hmode]; rfl) "b".toList (by decide)
    (by decide) _ _ hread
  have hgiven : (converter.obey (.line "b".toList)).2.toOption =
      some (some "\\begin\x7bitemize\x7d\n\\end\x7bitemize\x7d\nb".toList) := by
    decide +kernel
  rw [htext, hprogress] at hgiven
  have hprint : (passage [.itemize] []).flatMap (TagLine.print 9223372036854775808) ++
      indentAt 9223372036854775808 0 = '\\' :: 'e' :: "nd\x7bitemize\x7d\n".toList := by decide
  have hequal : (passage [.itemize] []).flatMap (TagLine.print 9223372036854775808) ++
      indentAt 9223372036854775808 0 ++ text = '\\' :: 'b' :: "egin\x7bitemize\x7d\n\\end\x7bitemize\x7d\nb".toList :=
    Option.some.inj (Option.some.inj hgiven)
  rw [hprint] at hequal
  exact absurd (List.cons.inj (List.cons.inj hequal).2).1 (by decide)

end Converter

end Lectern
