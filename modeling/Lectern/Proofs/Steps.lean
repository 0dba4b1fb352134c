import Lectern.Proofs.Writing

/-!
# One line of a conversion

Whatever was fed to a converter before, its progress is **coherent** (`Progress.Coherent`): no list is open in a block,
no block and no list in the head, and nothing is pending unless a list is open. Between two lines that did not fail it
is **settled** (`Progress.Settled`): nothing is pending at all. A line is passed over, as those of the head are, or
written when its tags have led to an outline (`Progress.Reaches`), and **`LineStep`** is what it does in each case.
`LineStep.coherent` and `LineStep.settled` are the two invariants, and `LineStep.isOk_iff` says which lines fail.
-/

set_option autoImplicit false

namespace Lectern

/-! ## Invariants -/

/-- What holds of the progress at any time. -/
structure Progress.Coherent (progress : Progress) : Prop where
  /-- Only what opens a math block is remembered as its delimiter. -/
  delimiter : progress.mode.delimiter = [] ∨ progress.mode.delimiter = "$$".toList ∨
    progress.mode.delimiter = "\\[".toList
  /-- No list is open in a block. -/
  block : progress.mode.verbatim = true ∨ progress.mode.math = true → progress.outline.levels = []
  /-- In the head neither a block nor a list is open. -/
  head : progress.mode.head = true →
    progress.mode.verbatim = false ∧ progress.mode.math = false ∧ progress.outline.levels = []
  /-- Outside of all lists nothing waits to be written. -/
  outside : progress.outline.levels = [] → progress.outline.pending = [] ∧ progress.line = []

/-- What holds of the progress between two lines. -/
structure Progress.Settled (progress : Progress) : Prop extends progress.Coherent where
  /-- No tag waits to be written. -/
  pending : progress.outline.pending = []
  /-- No line waits to be written. -/
  line : progress.line = []

theorem Progress.coherent_initial : Progress.initial.Coherent where
  delimiter := .inl rfl
  block := fun _ => rfl
  head := fun _ => ⟨rfl, rfl, rfl⟩
  outside := fun _ => ⟨rfl, rfl⟩

theorem Progress.Coherent.endHead {progress : Progress} (h : progress.Coherent) : progress.endHead.Coherent where
  delimiter := h.delimiter
  block := h.block
  head := fun hh => by cases hh
  outside := h.outside

/-- In a block the head has ended. -/
theorem Progress.Coherent.head_of_block {progress : Progress} (h : progress.Coherent)
    (hb : progress.mode.verbatim = true ∨ progress.mode.math = true) : progress.mode.head = false := by
  rw [← Bool.not_eq_true]
  intro hh
  obtain ⟨hv, hm, -⟩ := h.head hh
  rw [hv, hm] at hb
  simp at hb

/-- The delimiters that open a math block. -/
theorem eq_of_mathCloser?_isSome {delimiter : Text} (h : (mathCloser? delimiter).isSome) :
    delimiter = "$$".toList ∨ delimiter = "\\[".toList := by
  simp only [mathCloser?, mathClosers, List.lookup_cons, List.lookup_nil] at h
  split at h
  · next hd => exact .inl (by simpa using hd)
  · split at h
    · next hd => exact .inr (by simpa using hd)
    · cases h

/-- A math block can be closed if it was opened. -/
theorem Mode.closable_of_delimiter {mode : Mode}
    (h : mode.delimiter = [] ∨ mode.delimiter = "$$".toList ∨ mode.delimiter = "\\[".toList) : mode.Closable := by
  intro hm
  rcases h with hd | hd | hd
  · rw [Mode.math, hd] at hm
    cases hm
  · rw [hd]
    rfl
  · rw [hd]
    rfl

theorem Progress.Coherent.closable {progress : Progress} (h : progress.Coherent) : progress.mode.Closable :=
  Mode.closable_of_delimiter h.delimiter

theorem Mode.inBlock_eq_false {mode : Mode} : mode.inBlock = false ↔ mode.verbatim = false ∧ mode.math = false := by
  simp [Mode.inBlock]

/-! ## Steps -/

namespace Converter

/-- The converter behind a line that is read in its mode. -/
def withMode (mode : Mode) (converter : Converter) : Converter :=
  converter.mapProgress fun progress => { progress with mode }

/-- What a line does to a converter: it belongs to the head and nothing is written for it, or it is written. -/
inductive LineStep [Memory] (converter : Converter) (line : Text) :
    Converter → Except Failure (Option WrittenLine) → Prop
  | passed (mode : Mode) (tokens : List Token) (front : FrontMatter) :
      readLine converter.progress.mode line = (mode, .ok tokens) →
      mode = converter.progress.mode ∨ mode = converter.progress.mode.endHead → tokens.head?.any Token.isItem = false →
      LineStep converter line { converter.withMode mode with front } (.ok none)
  | written (mode : Mode) (tokens : List Token) :
      readLine converter.progress.mode line = (mode, .ok tokens) →
      BodyReading converter.progress.mode.endHead mode tokens →
      LineStep converter line ((converter.withMode mode).write line tokens).1
        (((converter.withMode mode).write line tokens).2.map some)

theorem read_of_readLine {converter : Converter} {line : Text} {mode : Mode} {tokens : List Token}
    (h : readLine converter.progress.mode line = (mode, .ok tokens)) :
    converter.read line = (converter.withMode mode, .ok tokens) := by
  simp only [read, h]
  rfl

variable [Memory]

/-- A line of the head that is neither empty nor a command is written. -/
theorem headLine_eq_write {converter reached : Converter} {line : Text} {t : Token} {tokens : List Token}
    (hr : converter.read line = (reached, .ok (t :: tokens))) (ht : ∀ assignment, t ≠ .command assignment) :
    converter.headLine line =
      ((reached.write line (t :: tokens)).1, (reached.write line (t :: tokens)).2.map some) := by
  unfold headLine
  rw [hr]
  cases t with
  | command assignment => exact absurd rfl (ht assignment)
  | _ => rfl

/-- A line that is read as one of the head makes a step. -/
theorem lineStep_headLine {converter : Converter} (hc : converter.progress.Coherent) (line : Text) :
    LineStep converter line (converter.headLine line).1 (converter.headLine line).2 := by
  obtain ⟨mode, tokens, hr, hl⟩ := readLine_cases hc.closable line
  have hread := read_of_readLine hr
  cases hl with
  | command assignment hh =>
    simp only [headLine, hread]
    exact .passed _ _ _ hr (.inl rfl) rfl
  | blank hh =>
    simp only [headLine, hread]
    exact .passed _ _ _ hr (.inl rfl) rfl
  | body hb =>
    cases tokens with
    | nil =>
      simp only [headLine, hread]
      cases hb
      exact .passed _ _ _ hr (.inr rfl) rfl
    | cons t tokens =>
      have hcommand : ∀ assignment, t ≠ .command assignment := by
        rintro assignment rfl
        exact hb.ne_command assignment tokens rfl
      rw [headLine_eq_write hread hcommand]
      exact .written mode _ hr hb

/-- Every line makes a step. -/
theorem lineStep_contentLine {converter : Converter} (hc : converter.progress.Coherent) (line : Text) :
    LineStep converter line (converter.contentLine line).1 (converter.contentLine line).2 := by
  unfold contentLine
  split
  · exact lineStep_headLine hc line
  · next hh =>
    obtain ⟨mode, tokens, hr, hl⟩ := readLine_cases hc.closable line
    have hread := read_of_readLine hr
    cases hl with
    | command assignment hh' => exact absurd hh' hh
    | blank hh' => exact absurd hh' hh
    | body hb =>
      simp only [bodyLine, hread]
      exact .written mode tokens hr hb

end Converter

/-! ## Invariants of steps -/

/-- The modes in which lines behind the head are read and that they leave. -/
structure Mode.Sound (mode : Mode) : Prop where
  head : mode.head = false
  delimiter : mode.delimiter = [] ∨ mode.delimiter = "$$".toList ∨ mode.delimiter = "\\[".toList

theorem BodyReading.sound {mode mode' : Mode} {tokens : List Token} (h : BodyReading mode mode' tokens)
    (hm : mode.Sound) : mode'.Sound := by
  cases h with
  | fence => exact ⟨hm.head, hm.delimiter⟩
  | opening delimiter hb ho =>
    refine ⟨hm.head, ?_⟩
    rw [Mode.toggleMath, (Mode.inBlock_eq_false.1 hb).2]
    exact .inr (eq_of_mathCloser?_isSome ho)
  | closing delimiter hv hmath hc =>
    refine ⟨hm.head, ?_⟩
    rw [Mode.toggleMath, hmath]
    exact .inl rfl
  | item kind depth tokens hb ht => exact hm
  | heading level title hv => exact hm
  | inline tokens ht => exact hm

namespace Progress

section Writes

variable {indentation : Indentation} {mode : Mode} {outline : Outline} {after : Progress}
  {result : Except Failure WrittenLine} {written : WrittenLine} [Memory]

theorem Writes.mode_eq (h : Writes indentation mode outline after result) : after.mode = mode := by cases h <;> rfl

theorem Writes.levels_eq (h : Writes indentation mode outline after result) :
    after.outline.levels = outline.levels := by
  cases h <;> rfl

/-- What is written in a mode in which no list is open in a block leaves a coherent progress. -/
theorem Writes.coherent (h : Writes indentation mode outline after result) (h0 : indentation.allows 0 = .ok ())
    (hm : mode.Sound) (hb : mode.verbatim = true ∨ mode.math = true → outline.levels = []) : after.Coherent := by
  have hhead : ∀ {p : Prop}, mode.head = true → p := fun hh => by
    rw [hm.head] at hh
    cases hh
  cases h with
  | done text hd => exact ⟨hm.delimiter, hb, hhead, fun _ => ⟨rfl, rfl⟩⟩
  | failed line reason ha =>
    refine ⟨hm.delimiter, hb, hhead, fun hl => ?_⟩
    -- the outermost line can always be indented, so a list is open where a line fails
    rw [Outline.depth, hl, List.length_nil, h0] at ha
    cases ha

/-- A line that was written leaves nothing behind. -/
theorem Writes.settled (h : Writes indentation mode outline after (.ok written)) (hc : after.Coherent) :
    after.Settled := by
  cases h with
  | done text hd => exact { hc with pending := rfl, line := rfl }

/-- A line is written if its depth is allowed. -/
theorem Writes.isOk_of_allows (h : Writes indentation mode outline after result)
    (ha : indentation.allows outline.depth = .ok ()) : ∃ written, result = .ok written := by
  cases h with
  | done text hd => exact ⟨_, rfl⟩
  | failed line reason hf =>
    rw [ha] at hf
    cases hf

/-- The depth of a line that is written with an indentation is allowed. -/
theorem Writes.allows_of_isOk (h : Writes indentation mode outline after (.ok written)) (hv : mode.verbatim = false)
    (ht : written.text ≠ []) : indentation.allows outline.depth = .ok () := by
  cases h with
  | done text hd =>
    rcases hd with hd | hd | hd
    · rw [hv] at hd
      cases hd
    · exact absurd hd ht
    · exact hd

/-- There is one reason only for which a line is not written. -/
theorem Writes.isOk_or_unindentable (h : Writes indentation mode outline after result) :
    (∃ written, result = .ok written) ∨
      ∃ reason, result = .error (.unindentable reason) ∧ indentation.allows outline.depth = .error reason := by
  cases h with
  | done text hd => exact .inl ⟨_, rfl⟩
  | failed line reason ha => exact .inr ⟨reason, rfl, ha⟩

end Writes

/-- The depth of the list that a line with these tokens asks for; zero unless it is a list item. -/
def depthAsked : List Token → Nat
  | .item _ depth :: _ => depth
  | _ => 0

end Progress

/-- The tags of a line delimit a block, begin a list item, or do neither; only in the first case the mode changes. -/
theorem BodyReading.kinds {mode mode' : Mode} {tokens : List Token} (h : BodyReading mode mode' tokens) :
    (∃ t, t.isBlockTag = true ∧ tokens = [t]) ∨
      (mode' = mode ∧ ∀ t ∈ tokens, t.isPlain = true) ∨
      (mode' = mode ∧ mode.inBlock = false ∧
        ∃ kind depth rest, tokens = .item kind (depth + 1) :: rest ∧ ∀ t ∈ rest, t.isInline = true) := by
  cases h with
  | fence => exact .inl ⟨_, rfl, rfl⟩
  | opening delimiter hb ho => exact .inl ⟨_, rfl, rfl⟩
  | closing delimiter hv hm hc => exact .inl ⟨_, rfl, rfl⟩
  | item kind depth tokens hb ht => exact .inr (.inr ⟨rfl, hb, kind, depth, tokens, rfl, ht⟩)
  | heading level title hv =>
    refine .inr (.inl ⟨rfl, fun t ht => ?_⟩)
    rw [List.mem_singleton.1 ht]
    rfl
  | inline tokens ht =>
    exact .inr (.inl ⟨rfl, fun t h => Token.isPlain_of_isInline (ht t h)⟩)

namespace Progress

section Bodies

variable {indentation : Indentation} {progress : Progress} {mode : Mode} {tokens : List Token}

/-- A line behind the head is written when its tags have led to an outline: one without lists in a block and around
the delimiter of a block, and one whose innermost list is of the kind of an item that is written. -/
structure Reaches [Memory] (indentation : Indentation) (progress : Progress) (line : Text) (tokens : List Token)
    (outline : Outline) : Prop where
  leads : progress.outline.Leads outline
  writes : Writes indentation progress.mode outline (progress.write indentation line tokens).1
    (progress.write indentation line tokens).2
  block : progress.mode.verbatim = true ∨ progress.mode.math = true → outline.levels = []
  delimiter : ∀ t, tokens = [t] → t.isBlockTag = true → outline.levels = []
  item : ∀ kind depth rest, tokens = .item kind depth :: rest →
    ∀ written, (progress.write indentation line tokens).2 = .ok written → outline.levels.head? = some kind

theorem exists_reaches [Memory] (progress : Progress) (hb : BodyReading mode progress.mode tokens)
    (h0 : indentation.allows 0 = .ok ())
    (hl : mode.verbatim = true ∨ mode.math = true → progress.outline.levels = []) (line : Text) :
    ∃ outline, Reaches indentation progress line tokens outline := by
  rcases hb.kinds with ⟨t, ht, rfl⟩ | ⟨hm, ht⟩ | ⟨hm, hi, kind, depth, rest, rfl, ht⟩
  · refine ⟨progress.outline.closeTo 0, Outline.leads_closeTo 0 _, writes_blockTag progress ht h0 line,
      fun _ => Outline.levels_closeTo_zero _, fun _ _ _ => Outline.levels_closeTo_zero _, ?_⟩
    rintro kind depth rest ⟨rfl, rfl⟩
    cases ht
  · refine ⟨(progress.settleLists line tokens).outline, leads_settleLists line tokens,
      writes_plain indentation progress line ht, fun hblock => ?_, ?_, ?_⟩
    · rw [hm] at hblock
      rw [settleLists_of_levels_eq_nil (hl hblock), hl hblock]
    · rintro t rfl htag
      rw [Token.isBlockTag_of_isPlain (ht t List.mem_cons_self)] at htag
      cases htag
    · rintro kind depth rest rfl
      cases ht _ List.mem_cons_self
  · obtain ⟨outline, done, hr, hw, hok⟩ := writes_item indentation progress line kind (depth + 1) ht
    have hleads := Outline.leads_reconcileWithin indentation (depth + 1) kind progress.outline
    rw [hr] at hleads
    refine ⟨outline, hleads, hw, fun hblock => ?_, ?_, ?_⟩
    · obtain ⟨hv, hn⟩ := Mode.inBlock_eq_false.1 hi
      rw [hm, hv, hn] at hblock
      simp at hblock
    · rintro t ⟨rfl, rfl⟩ htag
      cases htag
    · rintro kind' depth' rest' ⟨rfl, rfl⟩ written hwritten
      obtain ⟨rfl, -⟩ := hok written hwritten
      exact Outline.head?_reconcileWithin hr

theorem depthAsked_of_plain (h : ∀ t ∈ tokens, t.isItem = false) : depthAsked tokens = 0 := by
  cases tokens with
  | nil => rfl
  | cons t tokens =>
    have ht := h t List.mem_cons_self
    cases t with
    | item kind level => cases ht
    | _ => rfl

variable [Memory]

/-- A list item that was written stands in the list that it asks for, which can be indented. -/
theorem allows_of_write_item {kind : ListKind} {depth : Nat} {line : Text} {written : WrittenLine}
    (hv : progress.mode.verbatim = false) (ht : ∀ t ∈ tokens, t.isInline = true)
    (h : (progress.write indentation line (.item kind depth :: tokens)).2 = .ok written) :
    indentation.allows depth = .ok () ∧
      (progress.write indentation line (.item kind depth :: tokens)).1.outline.depth = depth := by
  obtain ⟨outline, done, hr, hw, hok⟩ := writes_item indentation progress line kind depth ht
  obtain ⟨rfl, text, htext⟩ := hok written h
  have hdepth := Outline.depth_reconcileWithin hr
  have hlevels := hw.levels_eq
  rw [h] at hw
  refine ⟨hdepth ▸ hw.allows_of_isOk hv ?_, by rw [Outline.depth, hlevels]; exact hdepth⟩
  rw [htext]
  exact List.append_ne_nil_of_left_ne_nil (by decide) text

/-- A list item is written if the list that it asks for can be indented. -/
theorem isOk_write_item {kind : ListKind} {depth : Nat} (ht : ∀ t ∈ tokens, t.isInline = true)
    (ha : indentation.allows depth = .ok ()) (line : Text) :
    ∃ written, (progress.write indentation line (.item kind depth :: tokens)).2 = .ok written := by
  obtain ⟨outline, done, hr, hw, -⟩ := writes_item indentation progress line kind depth ht
  rw [Outline.reconcileWithin_of_allows ha] at hr
  cases hr
  exact hw.isOk_of_allows (by rw [Outline.depth_reconcile]; exact ha)

/-- Where the open lists can be indented, a line is written if and only if the list that it asks for can be indented. -/
theorem isOk_write_iff (progress : Progress) (hb : BodyReading mode progress.mode tokens)
    (h0 : indentation.allows 0 = .ok ())
    (hf : indentation.allows progress.outline.depth = .ok ()) (line : Text) :
    (∃ written, (progress.write indentation line tokens).2 = .ok written) ↔
      indentation.allows (depthAsked tokens) = .ok () := by
  rcases hb.kinds with ⟨t, ht, rfl⟩ | ⟨hm, ht⟩ | ⟨hm, hi, kind, depth, rest, rfl, ht⟩
  · obtain ⟨fragment, hfragment, hw⟩ := write_blockTag progress ht h0 line
    have hask : depthAsked [t] = 0 := depthAsked_of_plain fun t' ht' => by
      rw [List.mem_singleton.1 ht']
      cases t <;> first | rfl | cases ht
    rw [hw, hask]
    exact iff_of_true ⟨_, rfl⟩ h0
  · have hw := writes_plain indentation progress line ht
    rw [depthAsked_of_plain fun t h => Token.isItem_of_isPlain (ht t h)]
    exact iff_of_true (hw.isOk_of_allows (Indentation.allows_of_le hf (depth_settleLists_le line tokens))) h0
  · have hv : progress.mode.verbatim = false := hm ▸ (Mode.inBlock_eq_false.1 hi).1
    exact ⟨fun ⟨_, h⟩ => (allows_of_write_item hv ht h).1, fun ha => isOk_write_item ht ha line⟩

/-- Where the open lists can be indented, those that a written line leaves open can. -/
theorem allows_of_write (progress : Progress) (hb : BodyReading mode progress.mode tokens)
    (h0 : indentation.allows 0 = .ok ())
    (hf : indentation.allows progress.outline.depth = .ok ()) {line : Text} {written : WrittenLine}
    (h : (progress.write indentation line tokens).2 = .ok written) :
    indentation.allows (progress.write indentation line tokens).1.outline.depth = .ok () := by
  rcases hb.kinds with ⟨t, ht, rfl⟩ | ⟨hm, ht⟩ | ⟨hm, hi, kind, depth, rest, rfl, ht⟩
  · obtain ⟨fragment, hfragment, hw⟩ := write_blockTag progress ht h0 line
    rw [hw]
    exact h0
  · rw [Outline.depth, (writes_plain indentation progress line ht).levels_eq]
    exact Indentation.allows_of_le hf (depth_settleLists_le line tokens)
  · obtain ⟨ha, hd⟩ := allows_of_write_item (hm ▸ (Mode.inBlock_eq_false.1 hi).1) ht h
    rw [hd]
    exact ha

end Bodies

end Progress

/-! ## What a step keeps -/

/-- The depth of the list that a line asks for when it is read in a mode. -/
def Mode.depthAsked (mode : Mode) (line : Text) : Nat :=
  match (readLine mode line).2 with
  | .error _ => 0
  | .ok tokens => Progress.depthAsked tokens

theorem exists_ok_map {ε α β : Type} (result : Except ε α) (f : α → β) :
    (∃ y, result.map f = .ok y) ↔ ∃ x, result = .ok x := by
  cases result with
  | error failure => exact iff_of_false (fun ⟨_, h⟩ => nomatch h) fun ⟨_, h⟩ => nomatch h
  | ok x => exact iff_of_true ⟨f x, rfl⟩ ⟨x, rfl⟩

namespace Converter.LineStep

variable [Memory] {converter after : Converter} {line : Text} {result : Except Failure (Option WrittenLine)}

theorem indentation_eq (h : LineStep converter line after result) : after.indentation = converter.indentation := by
  cases h <;> rfl

/-- A line either leaves everything but the mode and the front matter as it was, or is written. -/
theorem writes (h : LineStep converter line after result) (hc : converter.progress.Coherent)
    (h0 : converter.indentation.allows 0 = .ok ()) :
    (after.progress = { converter.progress with mode := after.progress.mode } ∧ result = .ok none ∧
      (after.progress.mode = converter.progress.mode ∨ after.progress.mode = converter.progress.mode.endHead)) ∨
    ∃ outline written, result = written.map some ∧ after.progress.mode.Sound ∧
      Progress.Writes converter.indentation after.progress.mode outline after.progress written ∧
      (after.progress.mode.verbatim = true ∨ after.progress.mode.math = true → outline.levels = []) := by
  cases h with
  | passed mode tokens front hr hm ht => exact .inl ⟨rfl, rfl, hm⟩
  | written mode tokens hr hb =>
    obtain ⟨outline, h⟩ := Progress.exists_reaches (converter.withMode mode).progress hb h0 hc.block line
    have hmode : ((converter.withMode mode).write line tokens).1.progress.mode = mode := h.writes.mode_eq
    refine .inr ⟨outline, _, rfl, ?_⟩
    rw [hmode]
    exact ⟨hb.sound ⟨rfl, hc.delimiter⟩, h.writes, h.block⟩

/-- How lines are read depends on the lines before, not on whether they could be written. -/
theorem mode_eq (h : LineStep converter line after result) (hc : converter.progress.Coherent)
    (h0 : converter.indentation.allows 0 = .ok ()) :
    after.progress.mode = (readLine converter.progress.mode line).1 := by
  cases h with
  | passed mode tokens front hr hm ht => rw [hr]; rfl
  | written mode tokens hr hb =>
    obtain ⟨outline, h⟩ := Progress.exists_reaches (converter.withMode mode).progress hb h0 hc.block line
    rw [hr]
    exact h.writes.mode_eq

/-- Nothing that a line does, not even failing, makes the progress incoherent. -/
theorem coherent (h : LineStep converter line after result) (hc : converter.progress.Coherent)
    (h0 : converter.indentation.allows 0 = .ok ()) : after.progress.Coherent := by
  rcases h.writes hc h0 with ⟨hp, -, hm | hm⟩ | ⟨outline, written, -, hsound, hw, hblock⟩
  · rwa [hp, hm]
  · rw [hp, hm]
    exact hc.endHead
  · exact hw.coherent h0 hsound hblock

/-- A line that does not fail leaves the progress settled. -/
theorem settled {written? : Option WrittenLine} (h : LineStep converter line after (.ok written?))
    (hs : converter.progress.Settled) (h0 : converter.indentation.allows 0 = .ok ()) : after.progress.Settled := by
  have hc := h.coherent hs.toCoherent h0
  rcases h.writes hs.toCoherent h0 with ⟨hp, -, -⟩ | ⟨outline, written, hr, -, hw, -⟩
  · exact { hc with pending := by rw [hp]; exact hs.pending, line := by rw [hp]; exact hs.line }
  · cases written with
    | error failure => cases hr
    | ok written => exact hw.settled hc

/-- A line fails only because there are no spaces to indent it by. -/
theorem unindentable_of_error {failure : Failure} (h : LineStep converter line after (.error failure))
    (hc : converter.progress.Coherent) (h0 : converter.indentation.allows 0 = .ok ()) :
    ∃ reason depth, failure = .unindentable reason ∧ converter.indentation.allows depth = .error reason := by
  rcases h.writes hc h0 with ⟨-, hr, -⟩ | ⟨outline, written, hr, -, hw, -⟩
  · cases hr
  · rcases hw.isOk_or_unindentable with ⟨done, rfl⟩ | ⟨reason, rfl, ha⟩
    · cases hr
    · cases hr
      exact ⟨reason, outline.depth, rfl, ha⟩

/-- Where the open lists can be indented, a line does not fail if and only if the list that it asks for can be
indented. -/
theorem isOk_iff (h : LineStep converter line after result) (h0 : converter.indentation.allows 0 = .ok ())
    (hf : converter.indentation.allows converter.progress.outline.depth = .ok ()) :
    (∃ written?, result = .ok written?) ↔
      converter.indentation.allows (converter.progress.mode.depthAsked line) = .ok () := by
  cases h with
  | passed mode tokens front hr hm ht =>
    have hask : Progress.depthAsked tokens = 0 := by
      cases tokens with
      | nil => rfl
      | cons t tokens => cases t <;> first | rfl | cases ht
    rw [Mode.depthAsked, hr]
    exact iff_of_true ⟨_, rfl⟩ (hask ▸ h0)
  | written mode tokens hr hb =>
    have hw := Progress.isOk_write_iff (converter.withMode mode).progress hb h0 hf line
    rw [Mode.depthAsked, hr]
    exact (exists_ok_map ((converter.withMode mode).write line tokens).2 some).trans hw

/-- Where the open lists can be indented, those that are left open behind a line that does not fail can. -/
theorem allows {written? : Option WrittenLine} (h : LineStep converter line after (.ok written?))
    (h0 : converter.indentation.allows 0 = .ok ())
    (hf : converter.indentation.allows converter.progress.outline.depth = .ok ()) :
    after.indentation.allows after.progress.outline.depth = .ok () := by
  generalize hresult : Except.ok written? = result at h
  cases h with
  | passed mode tokens front hr hm ht => exact hf
  | written mode tokens hr hb =>
    cases hw : ((converter.withMode mode).write line tokens).2 with
    | error failure =>
      rw [hw] at hresult
      cases hresult
    | ok written =>
      exact Progress.allows_of_write (converter.withMode mode).progress hb h0 hf hw

end Converter.LineStep

end Lectern
