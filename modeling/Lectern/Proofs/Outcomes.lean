import Lectern.Document
import Lectern.Proofs.Nesting

/-!
# What can come of notes

The lines of notes hold no line feed (`not_mem_of_mem_lines`), so feeding one to a converter is a call with it
(`feed_eq_obey`), and feeding all of them succeeds unless a list item is too deep (`Ready.feedAll_succeeds_iff`). How
the document ends then depends on the blocks that the last line leaves open. `convert_outcomes` puts this together: the
settings come first, the length of the lines second, list items that are too deep third and open blocks last.
-/

set_option autoImplicit false

namespace Lectern

/-- The mode behind lines, the first of which is read in some mode. -/
def Mode.behind (mode : Mode) : List Text → Mode
  | [] => mode
  | line :: lines => behind (readLine mode line).1 lines

namespace Text

theorem not_mem_of_mem_splitLines {s line : Text} (h : line ∈ splitLines s) : '\n' ∉ line := by
  induction s generalizing line with
  | nil =>
    rw [List.mem_singleton.1 h]
    exact List.not_mem_nil
  | cons c s ih =>
    rw [splitLines] at h
    split at h
    · rcases List.mem_cons.1 h with rfl | h
      · exact List.not_mem_nil
      · exact ih h
    · next hc =>
      split at h
      · rw [List.mem_singleton.1 h]
        simpa using Ne.symm hc
      · next first others hs =>
        rcases List.mem_cons.1 h with rfl | h
        · have hfirst : '\n' ∉ first := ih (hs ▸ List.mem_cons_self)
          simp [Ne.symm hc, hfirst]
        · exact ih (hs ▸ List.mem_cons_of_mem _ h)

end Text

namespace Document

theorem not_mem_dropReturn {line : Text} (h : '\n' ∉ line) : '\n' ∉ dropReturn line := by
  unfold dropReturn
  cases hb : Text.before? ['\r'] line with
  | none => exact h
  | some content =>
    rw [Text.before?_eq_some.1 hb] at h
    exact fun hm => h (List.mem_append_left _ hm)

theorem not_mem_of_mem_lines {content line : Text} (h : line ∈ lines content) : '\n' ∉ line := by
  have hall : ∀ line ∈ (Text.splitLines content).map dropReturn, '\n' ∉ line := by
    intro line hl
    obtain ⟨source, hs, rfl⟩ := List.mem_map.1 hl
    exact not_mem_dropReturn (Text.not_mem_of_mem_splitLines hs)
  simp only [lines] at h
  split at h
  · exact hall line (List.dropLast_subset _ h)
  · exact hall line h

/-! ## The length of lines -/

/-- A line is the first that is longer than a limit, and lines are counted from some number. -/
def FirstTooLong (limit : Int) (start : Nat) (lines : List Text) (number : Nat) : Prop :=
  ∃ before line after, lines = before ++ line :: after ∧ number = start + before.length ∧ limit < line.length ∧
    ∀ earlier ∈ before, (earlier.length : Int) ≤ limit

theorem tooLong?_eq_some_iff {limit : Int} (start : Nat) {number : Nat} {lines : List Text} :
    tooLong? limit start lines = some number ↔ FirstTooLong limit start lines number := by
  induction lines generalizing start with
  | nil =>
    refine iff_of_false (fun h => nomatch h) ?_
    rintro ⟨before, line, after, h, -⟩
    cases before <;> cases h
  | cons line lines ih =>
    rw [tooLong?]
    split
    · next h =>
      constructor
      · intro hn
        cases hn
        exact ⟨[], line, lines, rfl, rfl, h, fun _ hm => nomatch hm⟩
      · rintro ⟨before, first, after, hl, rfl, hf, hb⟩
        cases before with
        | nil => rfl
        | cons earlier before =>
          obtain ⟨rfl, -⟩ := List.cons.inj hl
          have := hb line List.mem_cons_self
          omega
    · next h =>
      rw [ih (start + 1)]
      constructor
      · rintro ⟨before, first, after, rfl, rfl, hf, hb⟩
        refine ⟨line :: before, first, after, rfl, by rw [List.length_cons]; omega, hf, ?_⟩
        exact List.forall_mem_cons.2 ⟨by omega, hb⟩
      · rintro ⟨before, first, after, hl, rfl, hf, hb⟩
        cases before with
        | nil =>
          obtain ⟨rfl, -⟩ := List.cons.inj hl
          exact absurd hf h
        | cons earlier before =>
          obtain ⟨rfl, rfl⟩ := List.cons.inj hl
          refine ⟨before, first, after, rfl, by rw [List.length_cons]; omega, hf, ?_⟩
          exact fun earlier he => hb earlier (List.mem_cons_of_mem _ he)

theorem tooLong?_eq_none_iff {limit : Int} (start : Nat) {lines : List Text} :
    tooLong? limit start lines = none ↔ ∀ line ∈ lines, (line.length : Int) ≤ limit := by
  induction lines generalizing start with
  | nil => simp [tooLong?]
  | cons line lines ih =>
    rw [tooLong?, List.forall_mem_cons, ← ih (start + 1)]
    split
    · next h => simp [Int.not_le.2 h]
    · next h => simp [Int.not_lt.1 h]

/-! ## Feeding -/

/-- The call that feeding a line is. -/
def call (line : Text) (converter : Converter) : Call :=
  if converter.progress.mode.head then .headLine line else .line line

theorem feed_eq_obey [Memory] (line : Text) (converter : Converter) :
    feed line converter = converter.obey (call line converter) := by
  unfold feed call
  split <;> rfl

section Feeding

variable {converter : Converter} {line : Text} {lines : List Text}

theorem content_call (h : '\n' ∉ line) : (call line converter).content = line := by
  unfold call
  split
  · rfl
  · exact congrArg Prod.fst (splitTerminator_of_not_mem h)

variable [Memory]

theorem feedAll_cons_of_ok {text : Option Text} (h : (feed line converter).2 = .ok text) :
    feedAll (line :: lines) converter = ((feedAll lines (feed line converter).1).1,
      (feedAll lines (feed line converter).1).2.map (text.toList ++ ·)) := by
  rw [feedAll]
  generalize feed line converter = result at h ⊢
  obtain ⟨next, result⟩ := result
  cases h
  dsimp only
  obtain ⟨last, texts⟩ := feedAll lines next
  cases texts <;> rfl

theorem feedAll_cons_of_error {failure : Lectern.Failure} (h : (feed line converter).2 = .error failure) :
    feedAll (line :: lines) converter = ((feed line converter).1, .error failure) := by
  rw [feedAll]
  generalize feed line converter = result at h ⊢
  obtain ⟨next, result⟩ := result
  cases h
  rfl

/-- Lines are fed in vain only because there are no spaces to indent one by. -/
theorem unindentable_of_feedAll {failure : Lectern.Failure} (hs : converter.Sound)
    (h : (feedAll lines converter).2 = .error failure) :
    ∃ reason depth, failure = .unindentable reason ∧ converter.indentation.allows depth = .error reason := by
  induction lines generalizing converter with
  | nil => cases h
  | cons line lines ih =>
    cases hf : (feed line converter).2 with
    | error failure' =>
      rw [feedAll_cons_of_error hf] at h
      cases h
      rw [feed_eq_obey] at hf
      exact hs.unindentable_of_obey hf
    | ok text =>
      rw [feedAll_cons_of_ok hf] at h
      rw [feed_eq_obey] at h
      rw [← Converter.indentation_obey hs.coherent (call line converter)]
      exact ih (hs.obey _) (Converter.error_of_map_eq_error h)

/-- Lines are all fed if and only if the deepest list that they ask for can be indented. -/
theorem feedAll_succeeds_iff (hl : ∀ line ∈ lines, '\n' ∉ line) (hr : converter.Ready) :
    (∃ texts, (feedAll lines converter).2 = .ok texts) ↔
      converter.indentation.allows (deepest converter.progress.mode lines) = .ok () := by
  induction lines generalizing converter with
  | nil => exact iff_of_true ⟨[], rfl⟩ hr.sound.outermost
  | cons line lines ih =>
    obtain ⟨hline, hlines⟩ := List.forall_mem_cons.1 hl
    have hcall := hr.obey_succeeds_iff (call line converter)
    rw [content_call hline, ← feed_eq_obey] at hcall
    rw [deepest, Indentation.allows_max, ← hcall]
    cases hf : (feed line converter).2 with
    | error failure =>
      rw [feedAll_cons_of_error hf]
      refine iff_of_false ?_ ?_
      · rintro ⟨texts, h⟩
        cases h
      · rintro ⟨⟨text, h⟩, -⟩
        cases h
    | ok text =>
      have hready : (feed line converter).1.Ready := by
        rw [feed_eq_obey] at hf ⊢
        exact hr.obey ⟨text, hf⟩
      have hmode := hr.sound.mode_obey (call line converter)
      have hindentation := Converter.indentation_obey hr.sound.coherent (call line converter)
      rw [content_call hline, ← feed_eq_obey] at hmode
      rw [← feed_eq_obey] at hindentation
      have hrest := ih hlines hready
      rw [hmode, hindentation] at hrest
      rw [feedAll_cons_of_ok hf, exists_ok_map, hrest]
      exact ⟨fun h => ⟨⟨text, rfl⟩, h⟩, fun h => h.2⟩

/-- What is left when all lines have been fed. -/
theorem sound_feedAll {texts : List Text} (hl : ∀ line ∈ lines, '\n' ∉ line) (hs : converter.Sound)
    (h : (feedAll lines converter).2 = .ok texts) :
    (feedAll lines converter).1.Sound ∧ (feedAll lines converter).1.settings = converter.settings ∧
      (feedAll lines converter).1.progress.mode = converter.progress.mode.behind lines := by
  induction lines generalizing converter texts with
  | nil => exact ⟨hs, rfl, rfl⟩
  | cons line lines ih =>
    obtain ⟨hline, hlines⟩ := List.forall_mem_cons.1 hl
    cases hf : (feed line converter).2 with
    | error failure =>
      rw [feedAll_cons_of_error hf] at h
      cases h
    | ok text =>
      rw [feedAll_cons_of_ok hf] at h ⊢
      obtain ⟨rest, hrest⟩ := (exists_ok_map _ _).1 ⟨texts, h⟩
      have hsound : (feed line converter).1.Sound := by
        rw [feed_eq_obey]
        exact hs.obey _
      obtain ⟨hlast, hsettings, hmode⟩ := ih hlines hsound hrest
      have hnext := hs.mode_obey (call line converter)
      have hkept := Converter.settings_after [call line converter] converter
      rw [content_call hline, ← feed_eq_obey] at hnext
      rw [Converter.after, Converter.after, ← feed_eq_obey] at hkept
      refine ⟨hlast, hsettings.trans hkept, hmode.trans ?_⟩
      rw [hnext, Mode.behind]

end Feeding

/-! ## Documents -/

section Documents

variable {settings : Settings} {lines : List Text}

theorem start_eq_fresh (settings : Settings) (lines : List Text) :
    ∃ ended, start settings lines = Converter.fresh settings ended := by
  unfold start
  split
  · exact ⟨false, rfl⟩
  · exact ⟨true, rfl⟩

/-- Texts that are put together begin with the first of them and end with the last. -/
theorem exists_intercalate_eq (separator first last : Text) (texts : List Text) :
    ∃ middle, List.intercalate separator ([first] ++ texts ++ [last]) = first ++ middle ++ last := by
  induction texts generalizing first with
  | nil => exact ⟨separator, by simp [List.intercalate_cons_cons]⟩
  | cons text texts ih =>
    obtain ⟨middle, hm⟩ := ih text
    refine ⟨separator ++ (text ++ middle), ?_⟩
    have htail : [first] ++ text :: texts ++ [last] = first :: text :: (texts ++ [last]) := rfl
    rw [htail, List.intercalate_cons_cons]
    exact (congrArg (first ++ separator ++ ·) hm).trans (by simp [List.append_assoc])

theorem exists_preamble_eq (settings : Settings) (front : FrontMatter) :
    ∃ rest, preamble settings front = "\\title\x7b".toList ++ rest := by
  have hcommand : ∀ argument, Fragment.command "title" argument = "\\title\x7b".toList ++ (argument ++ ['\x7d']) :=
    fun argument => rfl
  simp only [preamble, hcommand, List.append_assoc]
  exact ⟨_, rfl⟩

theorem exists_closeParts_eq (converter : Converter) :
    ∃ before, Part.printAll converter.closeParts = before ++ documentEnd := by
  have hend : Part.printAll [.text documentEnd] = documentEnd := List.append_nil _
  simp only [Converter.closeParts, Converter.closeMathParts, Converter.finishParts, Part.printAll_append, hend,
    ← List.append_assoc]
  exact ⟨_, rfl⟩

/-- A document begins with its title and ends with its end. -/
theorem exists_document_eq (first : Converter) (texts : List Text) (last : Converter) :
    ∃ middle, List.intercalate ['\n'] ([first.preamble] ++ texts ++ [Part.printAll last.closeParts]) ++ ['\n'] =
      "\\title\x7b".toList ++ middle ++ "\\end\x7bdocument\x7d\n".toList := by
  obtain ⟨middle, hm⟩ := exists_intercalate_eq ['\n'] first.preamble (Part.printAll last.closeParts) texts
  obtain ⟨rest, hr⟩ := exists_preamble_eq first.settings first.front
  obtain ⟨before, hb⟩ := exists_closeParts_eq last
  have hend : documentEnd ++ ['\n'] = "\n\n".toList ++ "\\end\x7bdocument\x7d\n".toList := by decide
  refine ⟨rest ++ (middle ++ (before ++ "\n\n".toList)), ?_⟩
  rw [hm, Converter.preamble, hr, hb]
  simp only [List.append_assoc, hend]

/-- The number of spaces in front of the deepest item of a list. -/
def spacesNeeded (settings : Settings) (lines : List Text) : Int :=
  settings.indentWidth * deepest (start settings lines).progress.mode lines

/-- The blocks that lines leave open. -/
def blocksLeft (settings : Settings) (lines : List Text) : List Block :=
  ((start settings lines).progress.mode.behind lines).openBlocks

/-- What can come of lines: they are looked at for their length, for list items that are too deep, and for blocks that
they leave open, in this order. -/
inductive Decided [Memory] (settings : Settings) (lines : List Text) : Outcome → Prop
  | lineTooLong (number : Nat) : FirstTooLong settings.maxLineLength 1 lines number →
      Decided settings lines ⟨[], .error (.lineTooLong number settings.maxLineLength)⟩
  | unindentable (reason : Unrepeatable) : (∀ line ∈ lines, (line.length : Int) ≤ settings.maxLineLength) →
      Memory.size < spacesNeeded settings lines →
      Decided settings lines ⟨[], .error (.conversion (.unindentable (.unrepeatable reason)))⟩
  | unterminated (block : Block) : (∀ line ∈ lines, (line.length : Int) ≤ settings.maxLineLength) →
      spacesNeeded settings lines ≤ Memory.size → settings.strictBlocks = true →
      (blocksLeft settings lines).head? = some block →
      Decided settings lines ⟨[], .error (.conversion (.unterminated block))⟩
  | document (middle : Text) : (∀ line ∈ lines, (line.length : Int) ≤ settings.maxLineLength) →
      spacesNeeded settings lines ≤ Memory.size →
      settings.strictBlocks = false ∨ blocksLeft settings lines = [] →
      Decided settings lines ⟨(blocksLeft settings lines).map Block.warning,
        .ok ("\\title\x7b".toList ++ middle ++ "\\end\x7bdocument\x7d\n".toList)⟩

theorem ready_start [Memory] (settings : Settings) (lines : List Text) : (start settings lines).Ready := by
  obtain ⟨ended, he⟩ := start_eq_fresh settings lines
  rw [he]
  exact Converter.ready_fresh settings ended

theorem indentation_start (settings : Settings) (lines : List Text) :
    (start settings lines).indentation = .spaces settings.indentWidth := by
  obtain ⟨ended, he⟩ := start_eq_fresh settings lines
  rw [he]
  exact Converter.indentation_fresh settings ended

theorem settings_start (settings : Settings) (lines : List Text) : (start settings lines).settings = settings := by
  obtain ⟨ended, he⟩ := start_eq_fresh settings lines
  rw [he]
  cases ended <;> rfl

/-- All lines are fed if and only if the spaces that they need fit into the memory. -/
theorem feedAll_start_succeeds_iff [Memory] (hwidth : 0 < settings.indentWidth) (hl : ∀ line ∈ lines, '\n' ∉ line) :
    (∃ texts, (feedAll lines (start settings lines)).2 = .ok texts) ↔
      spacesNeeded settings lines ≤ Memory.size := by
  rw [feedAll_succeeds_iff hl (ready_start settings lines), indentation_start,
    Indentation.allows_spaces_eq_ok_iff, spacesNeeded]
  have hneeded := Int.mul_nonneg (Int.le_of_lt hwidth)
    (Int.natCast_nonneg (deepest (start settings lines).progress.mode lines))
  constructor
  · intro ⟨_, h⟩
    exact h
  · intro h
    exact ⟨by omega, h⟩

/-- What comes of lines that have all been fed, with what ends the document. -/
def assemble (behind : Converter) (texts : List Text) (ending : Converter.Ending) : Outcome :=
  ⟨ending.warnings, (ending.text.mapError .conversion).map fun text =>
    List.intercalate ['\n'] ([behind.preamble] ++ texts ++ [text]) ++ ['\n']⟩

theorem decided_assemble [Memory] {texts : List Text} {behind : Converter} (hl : ∀ line ∈ lines, '\n' ∉ line)
    (hshort : ∀ line ∈ lines, (line.length : Int) ≤ settings.maxLineLength)
    (hneeded : spacesNeeded settings lines ≤ Memory.size)
    (h : feedAll lines (start settings lines) = (behind, .ok texts)) :
    Decided settings lines (assemble behind.close.1 texts behind.close.2) := by
  obtain ⟨hsound, hsettings, hmode⟩ := sound_feedAll hl (ready_start settings lines).sound (congrArg Prod.snd h)
  rw [h] at hsound hsettings hmode
  rw [settings_start] at hsettings
  have hblocks : behind.progress.mode.openBlocks = blocksLeft settings lines := congrArg Mode.openBlocks hmode
  have hdocument : settings.strictBlocks = false ∨ blocksLeft settings lines = [] →
      Decided settings lines (assemble behind.close.1 texts
        ⟨(blocksLeft settings lines).map Block.warning, .ok (Part.printAll behind.closeParts)⟩) := by
    intro hopen
    obtain ⟨middle, hm⟩ := exists_document_eq behind.close.1 texts behind
    have hdecided := Decided.document middle hshort hneeded hopen
    rw [← hm] at hdecided
    exact hdecided
  rw [hsound.close_eq, hblocks, hsettings]
  cases hstrict : settings.strictBlocks with
  | false => exact hdocument (.inl hstrict)
  | true =>
    cases hleft : blocksLeft settings lines with
    | nil =>
      rw [hleft] at hdocument
      exact hdocument (.inr rfl)
    | cons block blocks =>
      exact .unterminated block hshort hneeded hstrict (by rw [hleft]; rfl)

/-- What comes of lines is decided. -/
theorem decided_convertLines [Memory] (hwidth : 0 < settings.indentWidth) (hl : ∀ line ∈ lines, '\n' ∉ line) :
    Decided settings lines (convertLines settings lines) := by
  unfold convertLines
  split
  · next number hn => exact .lineTooLong number ((tooLong?_eq_some_iff 1).1 hn)
  · next hn =>
    have hshort := (tooLong?_eq_none_iff 1).1 hn
    have hsucceeds := feedAll_start_succeeds_iff hwidth hl
    split
    · next failure hf =>
      obtain ⟨reason, depth, rfl, ha⟩ := unindentable_of_feedAll (ready_start settings lines).sound
        (congrArg Prod.snd hf)
      rw [indentation_start] at ha
      obtain ⟨why, rfl⟩ := Indentation.unrepeatable_of_allows_spaces ha
      refine .unindentable why hshort (Int.not_le.1 fun hneeded => ?_)
      obtain ⟨texts, htexts⟩ := hsucceeds.2 hneeded
      rw [hf] at htexts
      cases htexts
    · next behind texts hf =>
      exact decided_assemble hl hshort (hsucceeds.1 ⟨texts, congrArg Prod.snd hf⟩) hf

namespace Decided

variable {outcome : Outcome}

theorem not_lineTooLong (hshort : ∀ line ∈ lines, (line.length : Int) ≤ settings.maxLineLength) {number : Nat} :
    ¬ FirstTooLong settings.maxLineLength 1 lines number := by
  rw [← tooLong?_eq_some_iff 1, (tooLong?_eq_none_iff 1).2 hshort]
  intro h
  cases h

variable [Memory]

theorem lineTooLong_iff (h : Decided settings lines outcome) (number : Nat) (limit : Int) :
    outcome.document = .error (.lineTooLong number limit) ↔
      limit = settings.maxLineLength ∧ FirstTooLong limit 1 lines number := by
  have hnone : (∀ line ∈ lines, (line.length : Int) ≤ settings.maxLineLength) →
      ¬ (limit = settings.maxLineLength ∧ FirstTooLong limit 1 lines number) := by
    rintro hshort ⟨rfl, hfirst⟩
    exact not_lineTooLong hshort hfirst
  cases h with
  | lineTooLong first hfirst =>
    constructor
    · intro he
      cases he
      exact ⟨rfl, hfirst⟩
    · rintro ⟨rfl, hnumber⟩
      rw [← tooLong?_eq_some_iff 1] at hfirst hnumber
      rw [hfirst] at hnumber
      cases hnumber
      rfl
  | unindentable reason hshort => exact iff_of_false (fun he => nomatch he) (hnone hshort)
  | unterminated block hshort => exact iff_of_false (fun he => nomatch he) (hnone hshort)
  | document middle hshort => exact iff_of_false (fun he => nomatch he) (hnone hshort)

theorem unindentable_iff (h : Decided settings lines outcome)
    (hshort : ∀ line ∈ lines, (line.length : Int) ≤ settings.maxLineLength) :
    (∃ reason, outcome.document = .error (.conversion (.unindentable (.unrepeatable reason)))) ↔
      Memory.size < spacesNeeded settings lines := by
  cases h with
  | lineTooLong number hfirst => exact absurd hfirst (not_lineTooLong hshort)
  | unindentable reason _ hneeded => exact iff_of_true ⟨reason, rfl⟩ hneeded
  | unterminated block _ hneeded => exact iff_of_false (fun ⟨_, he⟩ => nomatch he) (Int.not_lt.2 hneeded)
  | document middle _ hneeded => exact iff_of_false (fun ⟨_, he⟩ => nomatch he) (Int.not_lt.2 hneeded)

theorem unterminated_iff (h : Decided settings lines outcome)
    (hshort : ∀ line ∈ lines, (line.length : Int) ≤ settings.maxLineLength)
    (hneeded : spacesNeeded settings lines ≤ Memory.size) (block : Block) :
    outcome.document = .error (.conversion (.unterminated block)) ↔
      settings.strictBlocks = true ∧ (blocksLeft settings lines).head? = some block := by
  cases h with
  | lineTooLong number hfirst => exact absurd hfirst (not_lineTooLong hshort)
  | unindentable reason _ hmore => exact absurd hneeded (Int.not_le.2 hmore)
  | unterminated left _ _ hstrict hleft =>
    rw [hleft]
    constructor
    · intro he
      cases he
      exact ⟨hstrict, rfl⟩
    · rintro ⟨-, he⟩
      cases he
      rfl
  | document middle _ _ hopen =>
    refine iff_of_false (fun he => nomatch he) ?_
    rintro ⟨hstrict, hleft⟩
    rcases hopen with hopen | hopen
    · rw [hopen] at hstrict
      cases hstrict
    · rw [hopen] at hleft
      cases hleft

theorem exists_document (h : Decided settings lines outcome)
    (hshort : ∀ line ∈ lines, (line.length : Int) ≤ settings.maxLineLength)
    (hneeded : spacesNeeded settings lines ≤ Memory.size)
    (hopen : settings.strictBlocks = false ∨ blocksLeft settings lines = []) :
    ∃ middle, outcome = ⟨(blocksLeft settings lines).map Block.warning,
      .ok ("\\title\x7b".toList ++ middle ++ "\\end\x7bdocument\x7d\n".toList)⟩ := by
  cases h with
  | lineTooLong number hfirst => exact absurd hfirst (not_lineTooLong hshort)
  | unindentable reason _ hmore => exact absurd hneeded (Int.not_le.2 hmore)
  | unterminated left _ _ hstrict hleft =>
    rcases hopen with hopen | hopen
    · rw [hopen] at hstrict
      cases hstrict
    · rw [hopen] at hleft
      cases hleft
  | document middle _ _ _ => exact ⟨middle, rfl⟩

theorem warnings_eq_nil (h : Decided settings lines outcome) {failure : Failure}
    (he : outcome.document = .error failure) : outcome.warnings = [] := by
  cases h with
  | document middle => cases he
  | _ => rfl

end Decided

end Documents

/-- What comes of notes with settings that pass the check is decided. -/
theorem decided_convert [Memory] {raw : RawSettings} {settings : Settings} (h : raw.check = .ok settings)
    (content : Text) : Decided settings (lines content) (convert raw content) := by
  have hwidth := (RawSettings.valid_of_check h).indentWidth_pos
  rw [convert, h]
  exact decided_convertLines hwidth fun line hl => not_mem_of_mem_lines hl

/-- Whatever the settings and the notes are, the conversion fails if the check rejects the settings, otherwise if a line
is too long, otherwise if the spaces in front of the deepest list item do not fit into the memory, otherwise if blocks
are left open and the settings are strict. There are no other failures, and no warnings with one; a document comes with
a warning for each block that is left open. -/
theorem convert_outcomes [Memory] (raw : RawSettings) (content : Text) :
    (∀ failure, (convert raw content).document = .error (.settings failure) ↔ raw.check = .error failure) ∧
    (∀ settings, raw.check = .ok settings →
      (∀ number limit, (convert raw content).document = .error (.lineTooLong number limit) ↔
        limit = settings.maxLineLength ∧ FirstTooLong limit 1 (lines content) number) ∧
      ((∀ line ∈ lines content, (line.length : Int) ≤ settings.maxLineLength) →
        ((∃ reason, (convert raw content).document = .error (.conversion (.unindentable (.unrepeatable reason)))) ↔
          Memory.size < spacesNeeded settings (lines content)) ∧
        (spacesNeeded settings (lines content) ≤ Memory.size →
          (∀ block, (convert raw content).document = .error (.conversion (.unterminated block)) ↔
            settings.strictBlocks = true ∧ (blocksLeft settings (lines content)).head? = some block) ∧
          (settings.strictBlocks = false ∨ blocksLeft settings (lines content) = [] →
            ∃ middle, convert raw content = ⟨(blocksLeft settings (lines content)).map Block.warning,
              .ok ("\\title\x7b".toList ++ middle ++ "\\end\x7bdocument\x7d\n".toList)⟩)))) ∧
    ∀ failure, (convert raw content).document = .error failure → (convert raw content).warnings = [] := by
  cases hc : raw.check with
  | error failure =>
    have hconvert : convert raw content = ⟨[], .error (.settings failure)⟩ := by rw [convert, hc]
    rw [hconvert]
    refine ⟨fun other => ?_, fun settings hs => (nomatch hs), fun _ _ => rfl⟩
    constructor
    · intro he
      cases he
      rfl
    · intro he
      cases he
      rfl
  | ok settings =>
    have h := decided_convert hc content
    refine ⟨fun failure => ?_, ?_, fun failure he => h.warnings_eq_nil he⟩
    · refine iff_of_false (fun he => ?_) (fun he => nomatch he)
      generalize convert raw content = outcome at h he
      cases h <;> cases he
    · rintro settings' ⟨rfl⟩
      refine ⟨h.lineTooLong_iff, fun hshort => ⟨h.unindentable_iff hshort, fun hneeded => ⟨?_, ?_⟩⟩⟩
      · exact h.unterminated_iff hshort hneeded
      · exact h.exists_document hshort hneeded

/-- A verbatim block in a math block is left open behind a list. -/
theorem convert_outcomes_default : RawSettings.default.check = .ok Settings.default ∧
    ∃ middle, convert RawSettings.default "* a\n$$\r\n```\n".toList =
      ⟨[Block.verbatim.warning, Block.math.warning],
        .ok ("\\title\x7b".toList ++ middle ++ "\\end\x7bdocument\x7d\n".toList)⟩ := by
  have hcheck : RawSettings.default.check = .ok Settings.default := rfl
  have h := ((convert_outcomes RawSettings.default "* a\n$$\r\n```\n".toList).2.1 _ hcheck).2 (by decide +kernel)
  have hleft : blocksLeft Settings.default (lines "* a\n$$\r\n```\n".toList) = [.verbatim, .math] := by decide +kernel
  obtain ⟨middle, hm⟩ := (h.2 (by decide +kernel)).2 (.inl rfl)
  rw [hleft] at hm
  exact ⟨hcheck, middle, hm⟩

/-- One list item is enough for another failure if the width of its indentation is no index. -/
theorem not_exists_document :
    ¬ ∀ (raw : RawSettings) (settings : Settings) (content : Text), raw.check = .ok settings →
      (∀ line ∈ lines content, (line.length : Int) ≤ settings.maxLineLength) →
      settings.strictBlocks = false ∨ blocksLeft settings (lines content) = [] →
      ∃ text, (convert raw content).document = .ok text := by
  intro h
  have hcheck : (RawSettings.default.set .indentWidth (.int 9223372036854775808)).check =
      .ok { Settings.default with indentWidth := 9223372036854775808 } := rfl
  obtain ⟨text, htext⟩ := h _ _ "* a".toList hcheck (by decide +kernel) (.inl rfl)
  have hfails : (convert (RawSettings.default.set .indentWidth (.int 9223372036854775808))
      "* a".toList).document.toOption = none := by decide +kernel
  rw [htext] at hfails
  cases hfails

end Document

end Lectern
