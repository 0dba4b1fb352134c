import Lectern.Proofs.Runs

/-!
# Environments nest

The tags of lists, the tags of verbatim blocks, the delimiters of math blocks and the starts of list items are the
**signs** of a document. `Sign.replay?` reads a sign where some brackets are open: one that closes a bracket closes the
innermost one and has to belong to it, and a list item stands in an innermost list of its kind. What a converter prints
consists of **parts**, which are signs or text (`lineParts`, `closeParts`), and `signs_nested` says that the signs of
all parts are properly nested and leave nothing open. Tags can wait for the next line, so what the printed signs leave
open differs from what is open; the invariant is that the pending tags lead from the one to the other (`Leaves`).
-/

set_option autoImplicit false

namespace Lectern

/-! ## Signs -/

/-- What can be open at a place in a document. -/
inductive Bracket where
  | list (kind : ListKind)
  | verbatim
  /-- A math block with the delimiter that opened it. -/
  | math (opening : Text)
deriving DecidableEq, Repr

/-- A mark that shows the structure of a document. -/
inductive Sign where
  | listTag (tag : Tag)
  /-- A tag of a verbatim block. -/
  | fence (opens : Bool)
  | opensMath (mark : Text)
  | closesMath (mark : Text)
  /-- The start of an item of a list of some kind. -/
  | item (kind : ListKind)
deriving DecidableEq, Repr

namespace Sign

/-- The sign as it is written. -/
def print : Sign → Text
  | .listTag tag => tag.print
  | .fence opens => (Fragment.verbatimTag opens).print
  | .opensMath mark | .closesMath mark => mark
  | .item _ => Fragment.item.print

/-- The open brackets behind a sign, the innermost first, if the sign can stand there. -/
def replay? : Sign → List Bracket → Option (List Bracket)
  | .listTag (.opens kind), brackets => some (.list kind :: brackets)
  | .listTag (.closes kind), .list innermost :: brackets => if innermost = kind then some brackets else none
  | .fence true, brackets => some (.verbatim :: brackets)
  | .fence false, .verbatim :: brackets => some brackets
  | .opensMath mark, brackets => if (mathCloser? mark).isSome then some (.math mark :: brackets) else none
  | .closesMath mark, .math opening :: brackets => if mathCloser? opening = some mark then some brackets else none
  | .item kind, .list innermost :: brackets => if innermost = kind then some (.list innermost :: brackets) else none
  | _, _ => none

/-- The open brackets behind signs, if these can stand there. -/
def replayAll? (signs : List Sign) (brackets : List Bracket) : Option (List Bracket) :=
  signs.foldlM (fun brackets sign => sign.replay? brackets) brackets

theorem replayAll?_append (signs more : List Sign) (brackets : List Bracket) :
    replayAll? (signs ++ more) brackets = (replayAll? signs brackets).bind (replayAll? more) := List.foldlM_append

theorem replayAll?_singleton (sign : Sign) (brackets : List Bracket) :
    replayAll? [sign] brackets = sign.replay? brackets := by
  cases h : sign.replay? brackets <;> simp [replayAll?, h]

/-- Signs are nested if each of them can stand where it does and nothing is open behind them. -/
def Nested (signs : List Sign) : Prop := replayAll? signs [] = some []

/-- Tag lines that lead from lists to lists do so around anything else that is open. -/
theorem replayAll?_tags {lines : List TagLine} {levels reached : List ListKind} (base : List Bracket)
    (h : Lectern.replayAll? lines levels = some reached) :
    replayAll? (lines.map fun line => .listTag line.tag) (levels.map .list ++ base) =
      some (reached.map .list ++ base) := by
  induction lines generalizing levels with
  | nil =>
    cases h
    rfl
  | cons line lines ih =>
    rw [Lectern.replayAll?, Option.bind_eq_some_iff] at h
    obtain ⟨next, hn, hr⟩ := h
    have hsign : (Sign.listTag line.tag).replay? (levels.map .list ++ base) = some (next.map .list ++ base) := by
      obtain ⟨depth, tag⟩ := line
      cases tag with
      | opens kind =>
        simp only [TagLine.replay?, Option.ite_none_right_eq_some, Option.some.injEq] at hn
        obtain ⟨-, rfl⟩ := hn
        rfl
      | closes kind =>
        cases levels with
        | nil => cases hn
        | cons innermost levels =>
          simp only [TagLine.replay?, Option.ite_none_right_eq_some, Option.some.injEq] at hn
          obtain ⟨⟨rfl, -⟩, rfl⟩ := hn
          exact if_pos rfl
    rw [List.map_cons, replayAll?, List.foldlM_cons, hsign]
    exact ih hr

end Sign

/-! ## Parts -/

/-- A part of what is printed. -/
inductive Part where
  | mark (sign : Sign)
  | text (content : Text)
deriving DecidableEq, Repr

namespace Part

/-- The part as it is written. -/
def print : Part → Text
  | .mark sign => sign.print
  | .text content => content

/-- The sign that the part is. -/
def sign? : Part → Option Sign
  | .mark sign => some sign
  | .text _ => none

/-- The parts as they are written. -/
def printAll (parts : List Part) : Text := parts.flatMap print

/-- The signs among parts. -/
def signs (parts : List Part) : List Sign := parts.filterMap sign?

theorem printAll_append (parts more : List Part) : printAll (parts ++ more) = printAll parts ++ printAll more :=
  List.flatMap_append

theorem signs_append (parts more : List Part) : signs (parts ++ more) = signs parts ++ signs more :=
  List.filterMap_append

/-- The parts of tag lines. -/
def ofTags (width : Int) (lines : List TagLine) : List Part :=
  lines.flatMap fun line => [.text (indentAt width line.depth), .mark (.listTag line.tag), .text ['\n']]

theorem printAll_ofTags (width : Int) (lines : List TagLine) :
    printAll (ofTags width lines) = lines.flatMap (TagLine.print width) := by
  induction lines with
  | nil => rfl
  | cons line lines ih =>
    rw [List.flatMap_cons, ← ih]
    simp [ofTags, printAll, print, Sign.print, TagLine.print]

theorem signs_ofTags (width : Int) (lines : List TagLine) :
    signs (ofTags width lines) = lines.map fun line => .listTag line.tag := by
  induction lines with
  | nil => rfl
  | cons line lines ih =>
    rw [List.map_cons, ← ih]
    rfl

end Part

/-! ## Signs of tokens -/

namespace Token

/-- The sign that a token is printed as, in the mode that its line leaves. -/
def sign? (mode : Mode) : Token → Option Sign
  | .fence opens => some (.fence opens)
  | .delimiter mark => some (if mode.math then .opensMath mark else .closesMath mark)
  | .item kind _ => some (.item kind)
  | _ => none

/-- The signs among tokens. -/
def signs (mode : Mode) (tokens : List Token) : List Sign := tokens.filterMap (sign? mode)

theorem signs_of_plain (mode : Mode) {tokens : List Token} (h : ∀ t ∈ tokens, t.isPlain = true) :
    signs mode tokens = [] := by
  rw [signs, List.filterMap_eq_nil_iff]
  intro t ht
  have hp := h t ht
  cases t <;> first | rfl | cases hp

theorem signs_item (mode : Mode) (kind : ListKind) (depth : Nat) {tokens : List Token}
    (h : ∀ t ∈ tokens, t.isInline = true) : signs mode (.item kind depth :: tokens) = [.item kind] := by
  have hrest : signs mode tokens = [] := signs_of_plain mode fun t ht => isPlain_of_isInline (h t ht)
  exact congrArg (.item kind :: ·) hrest

end Token

/-! ## Written lines -/

/-- The blocks that are open in a mode; a verbatim block can be open in a math block. -/
def Mode.blocks (mode : Mode) : List Bracket :=
  (if mode.verbatim then [.verbatim] else []) ++ if mode.math then [.math mode.delimiter] else []

section Blocks

variable {mode : Mode} {delimiter : Text}

theorem Mode.replay?_fence (mode : Mode) :
    (Sign.fence !mode.verbatim).replay? mode.blocks = some mode.toggleVerbatim.blocks := by
  obtain ⟨head, verbatim, delimiter⟩ := mode
  cases verbatim <;> rfl

theorem Mode.toggleMath_of_math (hm : mode.math = true) :
    mode.toggleMath delimiter = { mode with delimiter := [] } := by
  rw [toggleMath, hm]
  rfl

theorem Mode.toggleMath_of_outside (hm : mode.math = false) :
    mode.toggleMath delimiter = { mode with delimiter } := by
  rw [toggleMath, hm]
  rfl

theorem Mode.math_opening (hi : mode.inBlock = false) (ho : (mathCloser? delimiter).isSome) :
    (mode.toggleMath delimiter).math = true := by
  have hne : delimiter ≠ [] := by
    rintro rfl
    cases ho
  rw [toggleMath_of_outside (inBlock_eq_false.1 hi).2]
  simp [math, hne]

theorem Mode.replay?_opening (hi : mode.inBlock = false) (ho : (mathCloser? delimiter).isSome) :
    (Sign.opensMath delimiter).replay? mode.blocks = some (mode.toggleMath delimiter).blocks := by
  obtain ⟨hv, hm⟩ := inBlock_eq_false.1 hi
  have hafter : (mode.toggleMath delimiter).blocks = [.math delimiter] := by
    rw [blocks, math_opening hi ho, toggleMath_of_outside hm, hv]
    rfl
  have hbefore : mode.blocks = [] := by
    rw [blocks, hv, hm]
    rfl
  rw [hafter, hbefore]
  exact if_pos ho

theorem Mode.replay?_closing (hv : mode.verbatim = false) (hm : mode.math = true)
    (hc : mathCloser? mode.delimiter = some delimiter) :
    (Sign.closesMath delimiter).replay? mode.blocks = some (mode.toggleMath delimiter).blocks := by
  have hafter : (mode.toggleMath delimiter).blocks = [] := by
    rw [toggleMath_of_math hm, blocks, hv]
    rfl
  have hbefore : mode.blocks = [.math mode.delimiter] := by
    rw [blocks, hv, hm]
    rfl
  rw [hafter, hbefore]
  exact if_pos hc

end Blocks

/-- What is open where a document has come to. -/
def Progress.brackets (progress : Progress) : List Bracket :=
  progress.outline.levels.map .list ++ progress.mode.blocks

/-- The parts of a line that was written for some tokens, in the mode that they leave: its text begins with their
signs. -/
def WrittenLine.parts (width : Int) (mode : Mode) (tokens : List Token) (line : WrittenLine) : List Part :=
  let signs := Token.signs mode tokens
  Part.ofTags width line.tags ++ .text (line.depth?.elim [] (indentAt width)) :: signs.map .mark ++
    [.text (line.text.drop (signs.flatMap Sign.print).length)]

theorem WrittenLine.printAll_parts {mode : Mode} {tokens : List Token} {line : WrittenLine} {rest : Text} (width : Int)
    (h : line.text = (Token.signs mode tokens).flatMap Sign.print ++ rest) :
    Part.printAll (line.parts width mode tokens) = line.print width := by
  have hmarks : ∀ signs : List Sign, Part.printAll (signs.map .mark) = signs.flatMap Sign.print := fun signs =>
    List.flatMap_map _ _ _
  rw [parts, print, h, List.drop_left, List.append_assoc, List.append_assoc, Part.printAll_append,
    Part.printAll_ofTags, List.cons_append]
  rw [Part.printAll, List.flatMap_cons, ← Part.printAll, Part.printAll_append, hmarks]
  simp [Part.printAll, Part.print]

theorem WrittenLine.signs_parts (width : Int) (mode : Mode) (tokens : List Token) (line : WrittenLine) :
    Part.signs (line.parts width mode tokens) =
      (line.tags.map fun line => .listTag line.tag) ++ Token.signs mode tokens := by
  have hmarks : ∀ signs : List Sign, Part.signs (signs.map .mark) = signs := by
    intro signs
    induction signs with
    | nil => rfl
    | cons sign signs ih => exact congrArg (sign :: ·) ih
  rw [parts, List.append_assoc, Part.signs_append, Part.signs_ofTags, List.cons_append, Part.signs,
    List.filterMap_cons_none rfl, ← Part.signs, Part.signs_append, hmarks]
  simp [Part.signs, Part.sign?]

namespace Progress

/-- The signs that were printed leave open what is open but for the tags that are still pending. -/
def Leaves (progress : Progress) (signs : List Sign) : Prop :=
  Sign.replayAll? (signs ++ progress.outline.pending.map fun line => .listTag line.tag) [] = some progress.brackets

/-- The text of a line behind the head begins with the signs of its tokens. -/
theorem exists_text_eq [Memory] {indentation : Indentation} (progress : Progress) {mode : Mode} {tokens : List Token}
    {line : Text} {written : WrittenLine} (hb : BodyReading mode progress.mode tokens)
    (h0 : indentation.allows 0 = .ok ()) (h : (progress.write indentation line tokens).2 = .ok written) :
    ∃ rest, written.text = (Token.signs progress.mode tokens).flatMap Sign.print ++ rest := by
  rcases hb.kinds with ⟨t, ht, rfl⟩ | ⟨hm, ht⟩ | ⟨hm, hi, kind, depth, rest, rfl, ht⟩
  · obtain ⟨fragment, hf, hw⟩ := write_blockTag progress ht h0 line
    rw [hw] at h
    cases h
    refine ⟨[], ?_⟩
    cases t with
    | fence opens =>
      cases hf
      rw [List.append_nil]
      exact (List.append_nil _).symm
    | delimiter mark =>
      cases hf
      have hprint : (if progress.mode.math then Sign.opensMath mark else .closesMath mark).print = mark := by
        split <;> rfl
      rw [List.append_nil]
      exact ((List.append_nil _).trans hprint).symm
    | _ => cases ht
  · rw [Token.signs_of_plain _ ht]
    exact ⟨written.text, rfl⟩
  · obtain ⟨outline, done, -, -, hok⟩ := writes_item indentation progress line kind (depth + 1) ht
    obtain ⟨-, text, htext⟩ := hok written h
    rw [Token.signs_item _ _ _ ht]
    refine ⟨text, ?_⟩
    rw [List.flatMap_cons, List.flatMap_nil, List.append_nil]
    exact htext

/-- The signs of a line lead from the blocks that were open to those that are, around lists that are open: none around
the delimiter of a block, and the innermost of its kind around a list item. -/
theorem replayAll?_signs {mode mode' : Mode} {tokens : List Token} (hb : BodyReading mode mode' tokens)
    {levels : List ListKind} (hblock : ∀ t, tokens = [t] → t.isBlockTag = true → levels = [])
    (hitem : ∀ kind depth rest, tokens = .item kind depth :: rest → levels.head? = some kind) :
    Sign.replayAll? (Token.signs mode' tokens) (levels.map .list ++ mode.blocks) =
      some (levels.map .list ++ mode'.blocks) := by
  cases hb with
  | fence =>
    rw [hblock _ rfl rfl]
    exact (Sign.replayAll?_singleton _ _).trans mode.replay?_fence
  | opening delimiter hi ho =>
    have hsigns : Token.signs (mode.toggleMath delimiter) [.delimiter delimiter] = [.opensMath delimiter] := by
      simp [Token.signs, Token.sign?, Mode.math_opening hi ho]
    rw [hblock _ rfl rfl, hsigns]
    exact (Sign.replayAll?_singleton _ _).trans (Mode.replay?_opening hi ho)
  | closing delimiter hv hm hc =>
    have hsigns : Token.signs (mode.toggleMath delimiter) [.delimiter delimiter] = [.closesMath delimiter] := by
      simp [Token.signs, Token.sign?, Mode.toggleMath_of_math hm, Mode.math]
    rw [hblock _ rfl rfl, hsigns]
    exact (Sign.replayAll?_singleton _ _).trans (Mode.replay?_closing hv hm hc)
  | item kind depth tokens hi ht =>
    rw [Token.signs_item _ _ _ ht]
    cases levels with
    | nil => cases hitem _ _ _ rfl
    | cons innermost levels =>
      cases hitem _ _ _ rfl
      exact (Sign.replayAll?_singleton _ _).trans (if_pos rfl)
  | heading level title hv => rfl
  | inline tokens ht =>
    rw [Token.signs_of_plain _ fun t h => Token.isPlain_of_isInline (ht t h)]
    rfl

/-- What tokens add to the pending tags is made up for by the signs of the line that is written for them, if it is. -/
theorem Reaches.leaves [Memory] {indentation : Indentation} {progress : Progress} {mode : Mode} {line : Text}
    {tokens : List Token} {outline : Outline} {signs : List Sign}
    (hreach : Reaches indentation progress line tokens outline) (hb : BodyReading mode progress.mode tokens)
    (h0 : indentation.allows 0 = .ok ()) (hl : Leaves { progress with mode } signs) :
    (∀ failure, (progress.write indentation line tokens).2 = .error failure →
      (progress.write indentation line tokens).1.Leaves signs) ∧
    ∀ written, (progress.write indentation line tokens).2 = .ok written →
      (progress.write indentation line tokens).1.Leaves
        (signs ++ Part.signs (written.parts indentation.width progress.mode tokens)) := by
  have hpending : Sign.replayAll? (signs ++ outline.pending.map fun line => .listTag line.tag) [] =
      some (outline.levels.map .list ++ mode.blocks) := by
    obtain ⟨lines, hp, hr⟩ := hreach.leads
    rw [Leaves] at hl
    rw [hp, List.map_append, ← List.append_assoc, Sign.replayAll?_append, hl]
    exact Sign.replayAll?_tags mode.blocks hr
  have hsigns := replayAll?_signs hb hreach.delimiter
  have hw := hreach.writes
  have hitem := hreach.item
  have hdelimiter := hreach.delimiter
  generalize progress.write indentation line tokens = result at hw hitem ⊢
  obtain ⟨after, written⟩ := result
  cases hw with
  | done text hd =>
    refine ⟨fun failure hf => (nomatch hf), fun written hf => ?_⟩
    cases hf
    have htext := hsigns fun kind depth rest ht => hitem kind depth rest ht _ rfl
    rw [Leaves, WrittenLine.signs_parts, ← List.append_assoc, List.map_nil, List.append_nil, Sign.replayAll?_append,
      hpending]
    exact htext
  | failed line reason ha =>
    refine ⟨fun failure hf => ?_, fun written hf => (nomatch hf)⟩
    have hmode : progress.mode = mode := by
      rcases hb.kinds with ⟨t, ht, rfl⟩ | ⟨hm, -⟩ | ⟨hm, -⟩
      · rw [Outline.depth, hdelimiter t rfl ht, List.length_nil, h0] at ha
        cases ha
      · exact hm
      · exact hm
    rw [Leaves, brackets, hmode]
    exact hpending

end Progress

/-- The blocks that are open in a mode, in the order in which they close at the end. -/
def Mode.openBlocks (mode : Mode) : List Block :=
  (if mode.verbatim then [.verbatim] else []) ++ if mode.math then [.math] else []

/-- The signs that close the blocks of a mode. -/
def Mode.closers (mode : Mode) : List Sign :=
  (if mode.verbatim then [.fence false] else []) ++
    if mode.math then [.closesMath ((mathCloser? mode.delimiter).getD [])] else []

theorem Mode.replayAll?_closers {mode : Mode} (hc : mode.Closable) :
    Sign.replayAll? mode.closers mode.blocks = some [] := by
  cases hm : mode.math with
  | false => cases hv : mode.verbatim <;> simp [closers, blocks, hv, hm, Sign.replayAll?, Sign.replay?]
  | true =>
    obtain ⟨closer, hcloser⟩ := Option.isSome_iff_exists.1 (hc hm)
    cases hv : mode.verbatim <;> simp [closers, blocks, hv, hm, hcloser, Sign.replayAll?, Sign.replay?]

namespace Converter

/-! ## Lines -/

/-- The parts of what is printed for a line, in front of its line end; nothing is printed for a line of the head, and
nothing for one that fails. -/
def partsOf (line terminator : Text) (written? : Except Failure (Option WrittenLine)) (converter : Converter) :
    List Part :=
  match readLine converter.progress.mode line, written? with
  | (mode, .ok tokens), .ok (some written) =>
    written.parts converter.indentation.width mode tokens ++ [.text terminator]
  | _, _ => []

/-- The parts of what `Converter.line` gives. -/
def lineParts [Memory] (source : Text) (converter : Converter) : List Part :=
  let (content, terminator) := splitTerminator source
  converter.partsOf content terminator (converter.contentLine content).2

section Lines

variable [Memory] {converter after : Converter} {line : Text} {result : Except Failure (Option WrittenLine)}

theorem LineStep.printAll_partsOf (h : LineStep converter line after result)
    (h0 : converter.indentation.allows 0 = .ok ()) (terminator : Text) :
    Part.printAll (converter.partsOf line terminator result) =
      (result.map fun written? => after.printLine terminator written?).toOption.getD [] := by
  cases h with
  | passed mode tokens front hr hm ht =>
    simp only [partsOf, hr]
    rfl
  | written mode tokens hr hb =>
    cases hw : ((converter.withMode mode).write line tokens).2 with
    | error failure =>
      simp only [partsOf, hr, Except.map]
      rfl
    | ok written =>
      obtain ⟨rest, htext⟩ : ∃ rest, written.text = (Token.signs mode tokens).flatMap Sign.print ++ rest :=
        Progress.exists_text_eq (converter.withMode mode).progress hb h0 hw
      simp only [partsOf, hr, Except.map, Except.toOption, Option.getD_some, printLine, Option.elim_some]
      rw [Part.printAll_append, WrittenLine.printAll_parts _ htext]
      exact congrArg (written.print converter.indentation.width ++ ·) (List.append_nil terminator)

/-- What a line adds to the pending tags is made up for by its signs. -/
theorem LineStep.leaves (h : LineStep converter line after result) (hs : converter.Sound) {signs : List Sign}
    (hl : converter.progress.Leaves signs) (terminator : Text) :
    after.progress.Leaves (signs ++ Part.signs (converter.partsOf line terminator result)) := by
  cases h with
  | passed mode tokens front hr hm ht =>
    have hparts : converter.partsOf line terminator (.ok none) = [] := by simp only [partsOf, hr]
    have hblocks : mode.blocks = converter.progress.mode.blocks := by rcases hm with rfl | rfl <;> rfl
    rw [hparts, Part.signs, List.filterMap_nil, List.append_nil, Progress.Leaves, Progress.brackets, withMode,
      mapProgress, hblocks]
    exact hl
  | written mode tokens hr hb =>
    obtain ⟨outline, hreach⟩ := Progress.exists_reaches (converter.withMode mode).progress hb hs.outermost
      hs.coherent.block line
    have hleaves := hreach.leaves hb hs.outermost hl
    cases hw : ((converter.withMode mode).write line tokens).2 with
    | error failure =>
      have hparts : converter.partsOf line terminator (Except.map some (.error failure)) = [] := by
        simp only [partsOf, hr, Except.map]
      rw [hparts, Part.signs, List.filterMap_nil, List.append_nil]
      exact hleaves.1 failure hw
    | ok written =>
      have hparts : Part.signs (converter.partsOf line terminator (Except.map some (.ok written))) =
          Part.signs (written.parts converter.indentation.width mode tokens) := by
        simp only [partsOf, hr, Except.map, Part.signs_append]
        exact List.append_nil _
      rw [hparts]
      exact hleaves.2 written hw

end Lines

/-! ## Documents -/

/-- The parts of what is printed for lines, one list for each. -/
def parts [Memory] : List Text → Converter → List (List Part)
  | [], _ => []
  | source :: sources, converter =>
    converter.lineParts source :: parts sources (converter.obey (.line source)).1

/-- The parts of the end of a document behind the closing tags of blocks. -/
def finishParts (settings : Settings) (progress : Progress) : List Part :=
  Part.ofTags settings.indentWidth (progress.outline.closeTo 0).pending ++ [.text documentEnd]

/-- The parts of the end of a document behind the closing tag of a verbatim block. -/
def closeMathParts (settings : Settings) (progress : Progress) : List Part :=
  (if progress.mode.math then
    [.mark (.closesMath ((mathCloser? progress.mode.delimiter).getD [])), .text ['\n']] else []) ++
    finishParts settings progress

/-- The parts of what `Converter.close` gives. -/
def closeParts (converter : Converter) : List Part :=
  (if converter.progress.mode.verbatim then [.mark (.fence false), .text ['\n']] else []) ++
    closeMathParts converter.settings converter.progress

/-- What a call prints; nothing if it fails. -/
def printed (result : Except Failure (Option Text)) : Text := result.toOption.join.getD []

section Documents

variable {converter : Converter}

section

variable [Memory]

theorem printAll_lineParts (hs : converter.Sound) (source : Text) :
    Part.printAll (converter.lineParts source) = printed (converter.obey (.line source)).2 := by
  have hstep := lineStep_contentLine hs.coherent (splitTerminator source).1
  refine (hstep.printAll_partsOf hs.outermost (splitTerminator source).2).trans ?_
  simp only [obey, line]
  cases (converter.contentLine (splitTerminator source).1).2 <;> rfl

theorem Sound.leaves_obey (hs : converter.Sound) {signs : List Sign} (hl : converter.progress.Leaves signs)
    (source : Text) :
    (converter.obey (.line source)).1.progress.Leaves (signs ++ Part.signs (converter.lineParts source)) :=
  (lineStep_contentLine hs.coherent (splitTerminator source).1).leaves hs hl (splitTerminator source).2

/-- What is printed for lines is what their parts are. -/
theorem printAll_parts (sources : List Text) (hs : converter.Sound) :
    (converter.parts sources).map Part.printAll =
      (converter.run (sources.map Call.line)).map fun step => printed step.2 := by
  induction sources generalizing converter with
  | nil => rfl
  | cons source sources ih =>
    rw [parts, List.map_cons, List.map_cons, run, List.map_cons, ih (hs.obey _), printAll_lineParts hs]

theorem Sound.after (calls : List Call) (hs : converter.Sound) : (converter.after calls).Sound := by
  induction calls generalizing converter with
  | nil => exact hs
  | cons call calls ih => exact ih (hs.obey call)

/-- The signs of lines leave open what is open behind the lines. -/
theorem Sound.leaves_after (sources : List Text) (hs : converter.Sound) {signs : List Sign}
    (hl : converter.progress.Leaves signs) :
    (converter.after (sources.map Call.line)).progress.Leaves
      (signs ++ Part.signs (converter.parts sources).flatten) := by
  induction sources generalizing converter signs with
  | nil =>
    rw [parts, List.flatten_nil, Part.signs, List.filterMap_nil, List.append_nil]
    exact hl
  | cons source sources ih =>
    have h := ih (hs.obey (.line source)) (hs.leaves_obey hl source)
    rw [List.append_assoc, ← Part.signs_append] at h
    exact h

end

theorem finish_eq (settings : Settings) (closing : Text) (progress : Progress) :
    (finish settings closing progress).2 = closing ++ Part.printAll (finishParts settings progress) := by
  have hend : Part.printAll [.text documentEnd] = documentEnd := List.append_nil _
  rw [finishParts, Part.printAll_append, Part.printAll_ofTags, hend]
  simp [finish, Progress.take, Progress.setLine, WrittenLine.print, Progress.closeTo, Progress.mapOutline]

/-- A math block that is open at the end is an error if the settings are strict, and is closed with a warning if they
are not. -/
theorem closeMath_eq (settings : Settings) (warnings : List Text) (closing : Text) {progress : Progress}
    (hc : progress.mode.Closable) :
    (closeMath settings warnings closing progress).2 =
      if progress.mode.math then
        if settings.strictBlocks then ⟨warnings, .error (.unterminated .math)⟩
        else ⟨warnings ++ [Block.math.warning], .ok (closing ++ Part.printAll (closeMathParts settings progress))⟩
      else ⟨warnings, .ok (closing ++ Part.printAll (closeMathParts settings progress))⟩ := by
  cases hm : progress.mode.math with
  | false =>
    simp only [closeMath, closeMathParts, hm, finish_eq]
    rfl
  | true =>
    obtain ⟨closer, hcloser⟩ := Option.isSome_iff_exists.1 (hc hm)
    cases hs : settings.strictBlocks with
    | true => simp only [closeMath, hm, hcloser, hs, ↓reduceIte]
    | false =>
      simp only [closeMath, closeMathParts, hm, hcloser, hs, finish_eq, ↓reduceIte, Bool.false_eq_true]
      simp [Part.printAll, Part.print, Sign.print, finishParts, Progress.mapMode]

theorem close_of_not_verbatim (h : converter.progress.mode.verbatim = false) :
    converter.close =
      ({ converter with progress := (closeMath converter.settings [] [] converter.progress).1 },
        (closeMath converter.settings [] [] converter.progress).2) := by
  simp only [close, h]
  rfl

theorem close_of_verbatim (h : converter.progress.mode.verbatim = true)
    (hs : converter.settings.strictBlocks = false) :
    converter.close =
      ({ converter with
          progress := (closeMath converter.settings [Block.verbatim.warning] (closeVerbatim converter.progress).2
            (closeVerbatim converter.progress).1).1 },
        (closeMath converter.settings [Block.verbatim.warning] (closeVerbatim converter.progress).2
          (closeVerbatim converter.progress).1).2) := by
  simp only [close, h, hs]
  rfl

/-- What ends a document: an error if a block is open and the settings are strict, and otherwise the closing parts, with
a warning for each open block. -/
theorem Sound.close_eq [Memory] (hs : converter.Sound) :
    converter.close.2 =
      match converter.settings.strictBlocks, converter.progress.mode.openBlocks with
      | true, block :: _ => ⟨[], .error (.unterminated block)⟩
      | _, blocks => ⟨blocks.map Block.warning, .ok (Part.printAll converter.closeParts)⟩ := by
  have hc := hs.coherent.closable
  cases hv : converter.progress.mode.verbatim with
  | false =>
    rw [close_of_not_verbatim hv, closeMath_eq _ _ _ hc]
    cases hm : converter.progress.mode.math <;> cases hstrict : converter.settings.strictBlocks <;>
      simp [closeParts, Mode.openBlocks, hv, hm]
  | true =>
    cases hstrict : converter.settings.strictBlocks with
    | true => simp [close, Mode.openBlocks, hv, hstrict]
    | false =>
      have hmode : (closeVerbatim converter.progress).1.mode.math = converter.progress.mode.math := rfl
      have hparts : closeMathParts converter.settings (closeVerbatim converter.progress).1 =
          closeMathParts converter.settings converter.progress := rfl
      have hclosing : (closeVerbatim converter.progress).2 ++
          Part.printAll (closeMathParts converter.settings converter.progress) =
            Part.printAll converter.closeParts := by
        rw [closeParts, hv]
        exact List.append_assoc _ _ _
      have hc' : (closeVerbatim converter.progress).1.mode.Closable := hc
      rw [close_of_verbatim hv hstrict, closeMath_eq _ _ _ hc', hmode, hparts, hclosing, hstrict]
      cases hm : converter.progress.mode.math <;> simp [Mode.openBlocks, hv, hm]

theorem signs_closeParts (converter : Converter) :
    Part.signs converter.closeParts = converter.progress.mode.closers ++
      (converter.progress.outline.closeTo 0).pending.map fun line => .listTag line.tag := by
  have hfinish : Part.signs (finishParts converter.settings converter.progress) =
      (converter.progress.outline.closeTo 0).pending.map fun line => .listTag line.tag := by
    rw [finishParts, Part.signs_append, Part.signs_ofTags]
    exact List.append_nil _
  rw [closeParts, closeMathParts, Part.signs_append, Part.signs_append, hfinish, Mode.closers, List.append_assoc]
  cases converter.progress.mode.verbatim <;> cases converter.progress.mode.math <;> rfl

/-- The closing tags close all that is open. -/
theorem Sound.nested_closeParts [Memory] (hs : converter.Sound) {signs : List Sign}
    (hl : converter.progress.Leaves signs) :
    Sign.Nested (signs ++ Part.signs converter.closeParts) := by
  obtain ⟨lines, hp, hr⟩ := Outline.leads_closeTo 0 converter.progress.outline
  rw [Outline.levels_closeTo_zero] at hr
  have htags := Sign.replayAll?_tags [] hr
  have hc := hs.coherent.closable
  rw [Progress.Leaves, Progress.brackets] at hl
  rw [Sign.Nested, signs_closeParts, hp, List.map_append]
  by_cases hlevels : converter.progress.outline.levels = []
  · -- nothing is pending, and the blocks close
    rw [hlevels, (hs.coherent.outside hlevels).1, List.map_nil, List.append_nil, List.map_nil, List.nil_append] at hl
    rw [(hs.coherent.outside hlevels).1, List.map_nil, List.nil_append, Sign.replayAll?_append, hl, Option.bind_some,
      Sign.replayAll?_append, Mode.replayAll?_closers hc, Option.bind_some]
    rwa [hlevels] at htags
  · -- no block is open, and the lists close behind the pending tags
    have hv : converter.progress.mode.verbatim = false :=
      Bool.eq_false_iff.2 fun hv => hlevels (hs.coherent.block (.inl hv))
    have hm : converter.progress.mode.math = false :=
      Bool.eq_false_iff.2 fun hm => hlevels (hs.coherent.block (.inr hm))
    have hblocks : converter.progress.mode.blocks = [] := by rw [Mode.blocks, hv, hm]; rfl
    have hclosers : converter.progress.mode.closers = [] := by rw [Mode.closers, hv, hm]; rfl
    rw [hblocks] at hl
    rw [hclosers, List.nil_append, ← List.append_assoc, Sign.replayAll?_append, hl]
    exact htags

/-- The structure of a document is properly nested, whatever its lines are and whichever of them fail: what is printed
for the lines, and behind them, consists of parts whose signs are nested. -/
theorem signs_nested [Memory] (settings : Settings) (h : settings.strictBlocks = false) (ended : Bool)
    (sources : List Text) :
    let start := fresh settings ended
    let behind := start.after (sources.map Call.line)
    (start.parts sources).map Part.printAll =
        (start.run (sources.map Call.line)).map (fun step => printed step.2) ∧
      behind.close.2.text = .ok (Part.printAll behind.closeParts) ∧
      Sign.Nested (Part.signs ((start.parts sources).flatten ++ behind.closeParts)) := by
  intro start behind
  have hstart : start.Sound := (ready_fresh settings ended).sound
  have hbehind : behind.Sound := hstart.after _
  have hleaves : start.progress.Leaves [] := by cases ended <;> rfl
  have hstrict : behind.settings.strictBlocks = false := by
    rw [settings_after]
    cases ended <;> exact h
  refine ⟨printAll_parts sources hstart, ?_, ?_⟩
  · rw [hbehind.close_eq, hstrict]
  · rw [Part.signs_append]
    exact hbehind.nested_closeParts (hstart.leaves_after sources hleaves)

/-- A fence opens in a math block that closes two lists, and both blocks are left open. -/
theorem signs_nested_default :
    let sources := ["* a\n".toList, "  1. b\n".toList, "\\[\n".toList, "```\n".toList, "* c\n".toList]
    let start := fresh Settings.default true
    let behind := start.after (sources.map Call.line)
    let signs := Part.signs ((start.parts sources).flatten ++ behind.closeParts)
    Settings.default.strictBlocks = false ∧
      (start.run (sources.map Call.line)).map (fun step => printed step.2) =
        ["\\begin\x7bitemize\x7d\n    \\item a\n".toList, "    \\begin\x7benumerate\x7d\n        \\item b\n".toList,
          "    \\end\x7benumerate\x7d\n\\end\x7bitemize\x7d\n\\[\n".toList, "\\begin\x7bverbatim\x7d\n".toList,
          "* c\n".toList] ∧
      behind.close.2.text.toOption = some "\\end\x7bverbatim\x7d\n\\]\n\n\n\\end\x7bdocument\x7d".toList ∧
      signs = [.listTag (.opens .itemize), .item .itemize, .listTag (.opens .enumerate), .item .enumerate,
        .listTag (.closes .enumerate), .listTag (.closes .itemize), .opensMath "\\[".toList, .fence true, .fence false,
        .closesMath "\\]".toList] ∧
      Sign.Nested signs := by
  intro sources start behind signs
  obtain ⟨-, htext, hnested⟩ := signs_nested Settings.default rfl true sources
  refine ⟨rfl, by decide +kernel, ?_, by decide +kernel, hnested⟩
  rw [htext]
  decide +kernel

end Documents

end Converter

end Lectern
