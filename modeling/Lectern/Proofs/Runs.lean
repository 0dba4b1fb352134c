import Lectern.Proofs.Steps

/-!
# Runs of a conversion

A converter is given lines, some of which are said to belong to the head (**`Call`**), one after the other; a call that
fails does not end the run. Every call makes the step of its content (`lineStep_obey`). So a run is known by the steps:
the progress is coherent all along (`coherent_of_mem_run`), and the one thing that can fail is a list item so deep that
the spaces in front of it do not fit into the memory. **`deepest`** is the depth of the deepest list that lines ask for,
and `run_succeeds_iff` compares it with the memory.
-/

set_option autoImplicit false

namespace Lectern

/-- What a converter can be told to convert. -/
inductive Call where
  /-- A line, perhaps with a line end. -/
  | line (source : Text)
  /-- A line, to be read as one of the head. -/
  | headLine (source : Text)
deriving DecidableEq, Repr

/-- The line without its line end. -/
def Call.content : Call → Text
  | .line source => (splitTerminator source).1
  | .headLine source => source

theorem Text.before?_eq_some {tail s content : Text} : before? tail s = some content ↔ s = content ++ tail := by
  rw [before?, Option.map_eq_some_iff]
  constructor
  · rintro ⟨rest, hr, rfl⟩
    have h := congrArg List.reverse (after?_eq_some.1 hr)
    simpa using h
  · rintro rfl
    exact ⟨content.reverse, after?_eq_some.2 (by simp), by simp⟩

/-- A line without a line feed is its own content. -/
theorem splitTerminator_of_not_mem {line : Text} (h : '\n' ∉ line) : splitTerminator line = (line, []) := by
  have hnone : ∀ tail : Text, '\n' ∈ tail → Text.before? tail line = none := by
    intro tail ht
    cases hb : Text.before? tail line with
    | none => rfl
    | some content =>
      rw [Text.before?_eq_some.1 hb] at h
      exact absurd (List.mem_append_right content ht) h
  rw [splitTerminator, hnone _ (by decide), hnone _ (by decide)]

/-- A text without a line feed is all that there is up to its line end. -/
theorem Text.lineContent?_of_not_mem {s : Text} (hs : '\n' ∉ s) : lineContent? s = some s := by
  have hall : ∀ c ∈ s, (c != '\n') = true := fun c hc => by
    rw [bne_iff_ne]
    rintro rfl
    exact hs hc
  have htake : s.takeWhile (· != '\n') = s := by
    have happend : (s ++ []).takeWhile (· != '\n') = s ++ [].takeWhile (· != '\n') :=
      List.takeWhile_append_of_pos hall
    rwa [List.append_nil, List.takeWhile_nil, List.append_nil] at happend
  rw [lineContent?, htake, List.drop_length]
  rfl

theorem Text.lineContent?_eq {s content : Text} (h : lineContent? s = some content) (hs : '\n' ∉ s) :
    content = s := by
  rw [lineContent?_of_not_mem hs] at h
  exact (Option.some.inj h).symm

/-- The depth of the deepest list that lines ask for, if the first of them is read in some mode. -/
def deepest (mode : Mode) : List Text → Nat
  | [] => 0
  | line :: lines => max (mode.depthAsked line) (deepest (readLine mode line).1 lines)

section

variable [Memory]

theorem Indentation.allows_max {indentation : Indentation} {first second : Nat} :
    indentation.allows (max first second) = .ok () ↔
      indentation.allows first = .ok () ∧ indentation.allows second = .ok () := by
  constructor
  · intro h
    exact ⟨Indentation.allows_of_le h (Nat.le_max_left _ _), Indentation.allows_of_le h (Nat.le_max_right _ _)⟩
  · rintro ⟨h1, h2⟩
    rcases Nat.le_total first second with h | h
    · rwa [Nat.max_eq_right h]
    · rwa [Nat.max_eq_left h]

/-- Where a number of spaces is not allowed, there are too many of them. -/
theorem Indentation.unrepeatable_of_allows_spaces {width : Int} {depth : Nat} {reason : Unindentable}
    (h : (Indentation.spaces width).allows depth = .error reason) : ∃ why, reason = .unrepeatable why := by
  rw [Indentation.allows] at h
  split at h
  · cases h
  · cases h
    exact ⟨_, rfl⟩

/-- Where lines are indented to the right, what is allowed is what fits into the memory. -/
theorem Indentation.allows_iff_fits {width : Int} (hw : 0 ≤ width) {depth : Nat} :
    (Indentation.spaces width).allows depth = .ok () ↔ width * depth ≤ Memory.size := by
  rw [Indentation.allows_spaces_eq_ok_iff]
  have hnonneg := Int.mul_nonneg hw (Int.natCast_nonneg depth)
  exact ⟨fun h => h.2, fun h => ⟨by omega, h⟩⟩

/-- What is not allowed does not fit. -/
theorem Indentation.not_fits_of_allows {width : Int} (hw : 0 ≤ width) {depth : Nat} {reason : Unindentable}
    (h : (Indentation.spaces width).allows depth = .error reason) : Memory.size < width * depth := by
  refine Int.not_le.1 fun hfits => ?_
  rw [(Indentation.allows_iff_fits hw).2 hfits] at h
  cases h

end

namespace Converter

/-- A converter before the first line, whose head may have ended already. -/
def fresh (settings : Settings) (ended : Bool) : Converter :=
  if ended then (new settings).endHead else new settings

section

variable [Memory]

/-- Converts what a call says. A line of the head need not leave any text. -/
def obey (call : Call) (converter : Converter) : Converter × Except Failure (Option Text) :=
  match call with
  | .line source =>
    match converter.line source with
    | (converter, text) => (converter, text.map some)
  | .headLine source =>
    match converter.headLine source with
    | (converter, written?) => (converter, written?.map fun written? => written?.map converter.print)

theorem line_of_obey {converter next : Converter} {source text : Text}
    (h : converter.obey (.line source) = (next, .ok (some text))) : converter.line source = (next, .ok text) := by
  rw [obey] at h
  split at h
  · next other result hline =>
    obtain ⟨rfl, hresult⟩ := Prod.mk.inj h
    obtain ⟨found, rfl, he⟩ := exists_of_map_eq_ok hresult
    cases he
    exact hline

/-- What comes of each of a list of calls, with the converter that it leaves. -/
def run : List Call → Converter → List (Converter × Except Failure (Option Text))
  | [], _ => []
  | call :: calls, converter => converter.obey call :: run calls (converter.obey call).1

/-- The converter behind a list of calls. -/
def after : List Call → Converter → Converter
  | [], converter => converter
  | call :: calls, converter => after calls (converter.obey call).1

/-- What holds of a converter behind any call. -/
structure Sound (converter : Converter) : Prop where
  coherent : converter.progress.Coherent
  /-- Lines outside of all lists can be indented. -/
  outermost : converter.indentation.allows 0 = .ok ()

/-- What holds of a converter behind calls of which none failed. -/
structure Ready (converter : Converter) : Prop where
  settled : converter.progress.Settled
  /-- Lines of the innermost list can be indented. -/
  innermost : converter.indentation.allows converter.progress.outline.depth = .ok ()

theorem Ready.sound {converter : Converter} (h : converter.Ready) : converter.Sound where
  coherent := h.settled.toCoherent
  outermost := Indentation.allows_of_le h.innermost (Nat.zero_le _)

theorem ready_fresh (settings : Settings) (ended : Bool) : (fresh settings ended).Ready := by
  have h0 : (Indentation.spaces settings.indentWidth).allows 0 = .ok () := by
    rw [Indentation.allows_spaces_eq_ok_iff]
    simp
  cases ended with
  | true => exact ⟨{ Progress.coherent_initial.endHead with pending := rfl, line := rfl }, h0⟩
  | false => exact ⟨{ Progress.coherent_initial with pending := rfl, line := rfl }, h0⟩

/-! ## What a call changes -/

/-- How lines are read depends on the lines before, whatever comes of them. -/
theorem mode_headLine (line : Text) (converter : Converter) :
    (converter.headLine line).1.progress.mode = (readLine converter.progress.mode line).1 := by
  have hread : (converter.read line).1.progress.mode = (readLine converter.progress.mode line).1 := rfl
  unfold headLine
  split
  · next h => rwa [h] at hread
  · next h => rwa [h] at hread
  · next h => rwa [h] at hread
  · next read tokens _ _ h =>
    rw [h] at hread
    rw [← hread]
    exact Progress.mode_write line tokens read.progress

theorem mode_bodyLine (line : Text) (converter : Converter) :
    (converter.bodyLine line).1.progress.mode = (readLine converter.progress.mode line).1 := by
  have hread : (converter.read line).1.progress.mode = (readLine converter.progress.mode line).1 := rfl
  unfold bodyLine
  split
  · next h => rwa [h] at hread
  · next read tokens h =>
    rw [h] at hread
    rw [← hread]
    exact Progress.mode_write line tokens read.progress

theorem mode_obey (call : Call) (converter : Converter) :
    (converter.obey call).1.progress.mode = (readLine converter.progress.mode call.content).1 := by
  cases call with
  | headLine source => exact mode_headLine source converter
  | line source =>
    show (converter.contentLine (splitTerminator source).1).1.progress.mode = _
    rw [contentLine]
    split
    · exact mode_headLine _ converter
    · exact mode_bodyLine _ converter

/-- Behind the head a call changes the progress at most. -/
theorem bodyLine_eq_with (line : Text) (converter : Converter) :
    ∃ progress, (converter.bodyLine line).1 = { converter with progress } := by
  unfold bodyLine
  split
  · next h => exact ⟨_, (congrArg Prod.fst h).symm⟩
  · next read tokens h =>
    have hread : (converter.read line).1 = read := congrArg Prod.fst h
    subst hread
    exact ⟨_, rfl⟩

/-- A line that is read as one of the head changes the front matter and the progress at most. -/
theorem headLine_eq_with (line : Text) (converter : Converter) :
    ∃ front progress, (converter.headLine line).1 = { converter with front, progress } := by
  unfold headLine
  split
  · next h => exact ⟨_, _, (congrArg Prod.fst h).symm⟩
  · next h => exact ⟨_, _, (congrArg Prod.fst h).symm⟩
  · next read _ _ h =>
    have hread : (converter.read line).1 = read := congrArg Prod.fst h
    subst hread
    exact ⟨_, _, rfl⟩
  · next read _ _ _ h =>
    have hread : (converter.read line).1 = read := congrArg Prod.fst h
    subst hread
    exact ⟨_, _, rfl⟩

theorem obey_eq_with (call : Call) (converter : Converter) :
    ∃ front progress, (converter.obey call).1 = { converter with front, progress } := by
  cases call with
  | headLine source => exact headLine_eq_with source converter
  | line source =>
    show ∃ front progress, (converter.contentLine (splitTerminator source).1).1 = { converter with front, progress }
    rw [contentLine]
    split
    · exact headLine_eq_with _ converter
    · obtain ⟨progress, h⟩ := bodyLine_eq_with (splitTerminator source).1 converter
      exact ⟨converter.front, progress, h⟩

theorem settings_after (calls : List Call) (converter : Converter) :
    (converter.after calls).settings = converter.settings := by
  induction calls generalizing converter with
  | nil => rfl
  | cons call calls ih =>
    obtain ⟨front, progress, h⟩ := obey_eq_with call converter
    rw [after, ih, h]

/-! ## One call -/

end

section Calls

variable {converter : Converter}

/-- The line end of a line is kept. -/
theorem obey_line [Memory] (source : Text) (converter : Converter) :
    converter.obey (.line source) = ((converter.contentLine (splitTerminator source).1).1,
      (converter.contentLine (splitTerminator source).1).2.map fun written? =>
        some ((converter.contentLine (splitTerminator source).1).1.printLine (splitTerminator source).2 written?)) := by
  simp only [obey, line]
  cases (converter.contentLine (splitTerminator source).1).2 <;> rfl

/-- A call makes the step of its content; the result is printed and otherwise the same. -/
theorem lineStep_obey [Memory] (hc : converter.progress.Coherent) (call : Call) :
    ∃ result print, LineStep converter call.content (converter.obey call).1 result ∧
      (converter.obey call).2 = result.map print := by
  cases call with
  | line source => exact ⟨_, _, lineStep_contentLine hc _, congrArg Prod.snd (obey_line source converter)⟩
  | headLine source => exact ⟨_, _, lineStep_headLine hc source, rfl⟩

theorem error_of_map_eq_error {ε α β : Type} {result : Except ε α} {f : α → β} {failure : ε}
    (h : result.map f = .error failure) : result = .error failure := by
  cases result with
  | error failure' =>
    cases h
    rfl
  | ok x => cases h

variable [Memory]

theorem indentation_obey (hc : converter.progress.Coherent) (call : Call) :
    (converter.obey call).1.indentation = converter.indentation := by
  obtain ⟨result, print, h, -⟩ := lineStep_obey hc call
  exact h.indentation_eq

theorem LineStep.sound {line : Text} {after : Converter} {result : Except Failure (Option WrittenLine)}
    (h : LineStep converter line after result) (hs : converter.Sound) : after.Sound where
  coherent := h.coherent hs.coherent hs.outermost
  outermost := by
    rw [h.indentation_eq]
    exact hs.outermost

theorem Sound.obey (hs : converter.Sound) (call : Call) : (converter.obey call).1.Sound := by
  obtain ⟨result, print, h, -⟩ := lineStep_obey hs.coherent call
  exact h.sound hs

theorem Sound.mode_obey (hs : converter.Sound) (call : Call) :
    (converter.obey call).1.progress.mode = (readLine converter.progress.mode call.content).1 := by
  obtain ⟨result, print, h, -⟩ := lineStep_obey hs.coherent call
  exact h.mode_eq hs.coherent hs.outermost

/-- There is one reason only for which a call fails. -/
theorem Sound.unindentable_of_obey {call : Call} {failure : Failure} (hs : converter.Sound)
    (hf : (converter.obey call).2 = .error failure) :
    ∃ reason depth, failure = .unindentable reason ∧ converter.indentation.allows depth = .error reason := by
  obtain ⟨result, print, h, hr⟩ := lineStep_obey hs.coherent call
  rw [hr] at hf
  rw [error_of_map_eq_error hf] at h
  exact h.unindentable_of_error hs.coherent hs.outermost

theorem Ready.obey {call : Call} (hr : converter.Ready) (ho : ∃ text?, (converter.obey call).2 = .ok text?) :
    (converter.obey call).1.Ready := by
  obtain ⟨result, print, h, hp⟩ := lineStep_obey hr.settled.toCoherent call
  rw [hp, exists_ok_map] at ho
  obtain ⟨written?, rfl⟩ := ho
  exact ⟨h.settled hr.settled hr.sound.outermost, h.allows hr.sound.outermost hr.innermost⟩

theorem Ready.obey_succeeds_iff (hr : converter.Ready) (call : Call) :
    (∃ text?, (converter.obey call).2 = .ok text?) ↔
      converter.indentation.allows (converter.progress.mode.depthAsked call.content) = .ok () := by
  obtain ⟨result, print, h, hp⟩ := lineStep_obey hr.settled.toCoherent call
  rw [hp, exists_ok_map]
  exact h.isOk_iff hr.sound.outermost hr.innermost

end Calls

/-! ## Runs -/

section Runs

variable {converter : Converter}

section

variable [Memory]

theorem run_append (calls more : List Call) (converter : Converter) :
    converter.run (calls ++ more) = converter.run calls ++ (converter.after calls).run more := by
  induction calls generalizing converter with
  | nil => rfl
  | cons call calls ih => rw [List.cons_append, run, run, after, ih, List.cons_append]

theorem after_append (calls more : List Call) (converter : Converter) :
    converter.after (calls ++ more) = (converter.after calls).after more := by
  induction calls generalizing converter with
  | nil => rfl
  | cons call calls ih => rw [List.cons_append, after, after, ih]

/-- The steps of a run behind its first call, which its converter may not have survived. -/
theorem coherent_of_mem_run (calls : List Call) (hs : converter.Sound) :
    ∀ step ∈ converter.run calls, step.1.progress.Coherent ∧
      ∀ failure, step.2 = .error failure →
        ∃ reason depth, failure = .unindentable reason ∧ converter.indentation.allows depth = .error reason := by
  induction calls generalizing converter with
  | nil =>
    intro step hstep
    cases hstep
  | cons call calls ih =>
    intro step hstep
    rcases List.mem_cons.1 hstep with rfl | hstep
    · exact ⟨(hs.obey call).coherent, fun failure hf => hs.unindentable_of_obey hf⟩
    · rw [← indentation_obey hs.coherent call]
      exact ih (hs.obey call) step hstep

/-- No call of a run fails if and only if the deepest list can be indented, and then the progress is settled behind
each call. -/
theorem Ready.run_succeeds_iff (calls : List Call) (hr : converter.Ready) :
    (∀ step ∈ converter.run calls, step.1.progress.Settled ∧ ∃ text?, step.2 = .ok text?) ↔
      converter.indentation.allows (deepest converter.progress.mode (calls.map Call.content)) = .ok () := by
  induction calls generalizing converter with
  | nil => exact iff_of_true (fun step hstep => by cases hstep) hr.sound.outermost
  | cons call calls ih =>
    rw [run, List.forall_mem_cons, List.map_cons, deepest, Indentation.allows_max, ← hr.obey_succeeds_iff call]
    constructor
    · rintro ⟨⟨-, ho⟩, hrest⟩
      refine ⟨ho, ?_⟩
      have h := (ih (hr.obey ho)).1 hrest
      rwa [hr.sound.mode_obey, indentation_obey hr.sound.coherent] at h
    · rintro ⟨ho, hrest⟩
      refine ⟨⟨(hr.obey ho).settled, ho⟩, (ih (hr.obey ho)).2 ?_⟩
      rwa [hr.sound.mode_obey, indentation_obey hr.sound.coherent]

end

theorem indentation_fresh (settings : Settings) (ended : Bool) :
    (fresh settings ended).indentation = .spaces settings.indentWidth := by cases ended <;> rfl

/-- With settings that passed the check, the calls of a run all succeed, and leave the progress settled, if and only if
the spaces in front of the deepest list item fit into the memory. Whatever fails, the progress stays coherent, and it
fails because there are too many spaces. -/
theorem calls_succeed_iff_deepest_fits [Memory] {raw : RawSettings} {settings : Settings} (h : raw.check = .ok settings)
    (ended : Bool) (calls : List Call) :
    ((∀ step ∈ (fresh settings ended).run calls, step.1.progress.Settled ∧ ∃ text?, step.2 = .ok text?) ↔
      settings.indentWidth * deepest (fresh settings ended).progress.mode (calls.map Call.content) ≤
        Memory.size) ∧
    ∀ step ∈ (fresh settings ended).run calls, step.1.progress.Coherent ∧
      ∀ failure, step.2 = .error failure → ∃ reason, failure = .unindentable (.unrepeatable reason) := by
  have hr := ready_fresh settings ended
  constructor
  · rw [hr.run_succeeds_iff calls, indentation_fresh, Indentation.allows_spaces_eq_ok_iff]
    have hpos := (RawSettings.valid_of_check h).indentWidth_pos
    have hnonneg := Int.mul_nonneg (Int.le_of_lt hpos)
      (Int.natCast_nonneg (deepest (fresh settings ended).progress.mode (calls.map Call.content)))
    constructor
    · intro ⟨_, hm⟩
      exact hm
    · intro hm
      exact ⟨by omega, hm⟩
  · intro step hstep
    obtain ⟨hc, hf⟩ := coherent_of_mem_run calls hr.sound step hstep
    refine ⟨hc, fun failure hfailure => ?_⟩
    obtain ⟨reason, depth, rfl, ha⟩ := hf failure hfailure
    rw [indentation_fresh] at ha
    obtain ⟨why, rfl⟩ := Indentation.unrepeatable_of_allows_spaces ha
    exact ⟨why, rfl⟩

/-- A math block is open in front of a fence, and lists are open in front of a math block. -/
theorem calls_succeed_iff_deepest_fits_default :
    RawSettings.default.check = .ok Settings.default ∧
      ∀ step ∈ (fresh Settings.default false).run
        [.headLine "$title: a".toList, .line "* a\n".toList, .headLine "  1. b".toList, .line "\\[\n".toList,
          .line "```\n".toList],
        step.1.progress.Settled ∧ ∃ text?, step.2 = .ok text? := by
  have hcheck : RawSettings.default.check = .ok Settings.default := rfl
  refine ⟨hcheck, (calls_succeed_iff_deepest_fits hcheck false _).1.2 ?_⟩
  decide +kernel

/-- One list item is enough if the width of its indentation is no index. -/
theorem not_calls_succeed :
    ¬ ∀ (raw : RawSettings) (settings : Settings), raw.check = .ok settings → ∀ (ended : Bool) (calls : List Call),
      ∀ step ∈ (fresh settings ended).run calls, step.1.progress.Settled ∧ ∃ text?, step.2 = .ok text? := by
  intro h
  have hcheck : (RawSettings.default.set .indentWidth (.int 9223372036854775808)).check =
      .ok { Settings.default with indentWidth := 9223372036854775808 } := rfl
  obtain ⟨-, text?, htext⟩ := h _ _ hcheck true [.line "* a".toList] _ List.mem_cons_self
  have hfails : (obey (.line "* a".toList)
      (fresh { Settings.default with indentWidth := 9223372036854775808 } true)).2.toOption = none := by
    decide +kernel
  rw [htext] at hfails
  cases hfails

end Runs

end Converter

end Lectern
