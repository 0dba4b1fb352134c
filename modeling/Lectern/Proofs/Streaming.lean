import Lectern.Proofs.Outcomes

/-!
# Streaming

Notes can also be converted as they come: each line is given to a converter together with its line end, and what comes
of it is put behind what there is already (`Converter.stream`). A line end that goes in comes out again behind the line
that is written, and nothing comes out for a line of the head (`Document.line_terminated`), so the texts of all lines
are the lines of the document with their line ends (`Document.stream_eq`). **`Document.convert_stream`** says that this
gives the same document as converting the notes at once, and the same warnings.
-/

set_option autoImplicit false

namespace Lectern

namespace Converter

/-- Gives lines with their line ends to a converter, and puts together what comes of them. -/
def stream [Memory] : List Text → Converter → Converter × Except Failure Text
  | [], converter => (converter, .ok [])
  | line :: lines, converter =>
    match converter.line (line ++ ['\n']) with
    | (converter, .error failure) => (converter, .error failure)
    | (converter, .ok text) =>
      match stream lines converter with
      | (converter, .error failure) => (converter, .error failure)
      | (converter, .ok texts) => (converter, .ok (text ++ texts))

end Converter

namespace Document

/-- Whether notes begin with a dollar, so that their head is looked for. -/
def headed : List Text → Bool
  | [] => false
  | line :: _ => line.head? == some '$'

/-- Converts lines as they come, with settings that have been checked. The beginning of the document is asked for when
all lines have been given. -/
def streamLines [Memory] (settings : Settings) (lines : List Text) : Outcome :=
  let converter := Converter.new settings
  match (if headed lines then converter else converter.endHead).stream lines with
  | (_, .error failure) => ⟨[], .error (.conversion failure)⟩
  | (converter, .ok body) =>
    let ending := converter.close.2
    ⟨ending.warnings, (ending.text.mapError .conversion).map fun text =>
      converter.preamble ++ ['\n'] ++ body ++ text ++ ['\n']⟩

/-! ## One line -/

section Lines

variable {converter : Converter} {line : Text} {lines : List Text}

theorem splitTerminator_terminated (hr : '\r' ∉ line) : splitTerminator (line ++ ['\n']) = (line, ['\n']) := by
  have hlong : Text.before? "\r\n".toList (line ++ ['\n']) = none := by
    rw [Option.eq_none_iff_forall_not_mem]
    intro content hcontent
    have hsplit : line ++ ['\n'] = content ++ ['\r'] ++ ['\n'] := by
      rw [List.append_assoc]
      exact Text.before?_eq_some.1 hcontent
    rw [List.append_cancel_right hsplit] at hr
    exact hr (List.mem_append_right _ List.mem_cons_self)
  have hshort : Text.before? "\n".toList (line ++ ['\n']) = some line := Text.before?_eq_some.2 rfl
  simp only [splitTerminator, hlong, hshort]
  rfl

variable [Memory]

/-- A line end that goes in comes out behind the line of the document, if there is one. -/
theorem line_terminated (hn : '\n' ∉ line) (hr : '\r' ∉ line) (converter : Converter) :
    converter.line (line ++ ['\n']) =
      ((feed line converter).1, (feed line converter).2.map fun text? => text?.elim [] (· ++ ['\n'])) := by
  unfold feed Converter.line
  rw [splitTerminator_terminated hr, splitTerminator_of_not_mem hn]
  dsimp only
  unfold Converter.contentLine
  split
  · next hh =>
    cases converter.headLine line with
    | mk next written? =>
      cases written? with
      | error failure => rfl
      | ok written? => cases written? <;> rfl
  · next hh =>
    cases converter.bodyLine line with
    | mk next written =>
      cases written with
      | error failure => rfl
      | ok written => simp [Except.map, Converter.printLine]

/-! ## All lines -/

/-- The texts of lines that are given with their line ends are the lines of the document with line ends. -/
theorem stream_eq (hn : ∀ line ∈ lines, '\n' ∉ line) (hr : ∀ line ∈ lines, '\r' ∉ line) (converter : Converter) :
    converter.stream lines =
      ((feedAll lines converter).1, (feedAll lines converter).2.map fun texts => texts.flatMap (· ++ ['\n'])) := by
  induction lines generalizing converter with
  | nil => rfl
  | cons line lines ih =>
    obtain ⟨hline, hlines⟩ := List.forall_mem_cons.1 hn
    obtain ⟨hline', hlines'⟩ := List.forall_mem_cons.1 hr
    rw [Converter.stream, line_terminated hline hline']
    cases hf : (feed line converter).2 with
    | error failure =>
      rw [feedAll_cons_of_error hf]
      rfl
    | ok text? =>
      rw [feedAll_cons_of_ok hf]
      dsimp only [Except.map]
      rw [ih hlines hlines']
      cases (feedAll lines (feed line converter).1).2 with
      | error failure => rfl
      | ok texts => cases text? <;> simp [Except.map]

end Lines

/-! ## Documents -/

section Documents

variable {lines : List Text}

theorem start_eq_ite (settings : Settings) (lines : List Text) :
    start settings lines = if headed lines then .new settings else (Converter.new settings).endHead := by
  unfold start headed
  split
  · rfl
  · next hne =>
    cases lines with
    | nil => rfl
    | cons line lines =>
      cases line with
      | nil => rfl
      | cons c line =>
        have hc : c ≠ '$' := fun he => hne line lines (he ▸ rfl)
        simp [hc]

/-- Lines with line feeds between them are lines with line ends, but for the last one. -/
theorem intercalate_eq (first last : Text) (texts : List Text) :
    List.intercalate ['\n'] ([first] ++ texts ++ [last]) =
      first ++ ['\n'] ++ texts.flatMap (· ++ ['\n']) ++ last := by
  induction texts generalizing first with
  | nil => simp [List.intercalate_cons_cons]
  | cons text texts ih =>
    have htail : [first] ++ text :: texts ++ [last] = first :: text :: (texts ++ [last]) := rfl
    have hrest := ih text
    rw [List.singleton_append, List.cons_append] at hrest
    rw [htail, List.intercalate_cons_cons, hrest]
    simp [List.append_assoc]

/-- Lines are converted alike at once and as they come, unless one is too long. -/
theorem convertLines_eq_streamLines [Memory] {settings : Settings}
    (hshort : ∀ line ∈ lines, (line.length : Int) ≤ settings.maxLineLength)
    (hn : ∀ line ∈ lines, '\n' ∉ line) (hr : ∀ line ∈ lines, '\r' ∉ line) :
    convertLines settings lines = streamLines settings lines := by
  rw [convertLines, (tooLong?_eq_none_iff 1).2 hshort, streamLines, ← start_eq_ite, stream_eq hn hr]
  cases feedAll lines (start settings lines) with
  | mk behind result =>
    cases result with
    | error failure => rfl
    | ok texts =>
      have hpreamble : behind.close.1.preamble = behind.preamble := rfl
      simp only [Except.map, intercalate_eq, hpreamble]

end Documents

theorem mem_of_mem_splitLines {s line : Text} (h : line ∈ Text.splitLines s) : ∀ c ∈ line, c ∈ s := by
  induction s generalizing line with
  | nil =>
    rw [List.mem_singleton.1 h]
    exact fun c hc => hc
  | cons d s ih =>
    rw [Text.splitLines] at h
    split at h
    · rcases List.mem_cons.1 h with rfl | h
      · exact fun c hc => absurd hc List.not_mem_nil
      · exact fun c hc => List.mem_cons_of_mem _ (ih h c hc)
    · split at h
      · rw [List.mem_singleton.1 h]
        exact fun c hc => List.mem_singleton.1 hc ▸ List.mem_cons_self
      · next first others hs =>
        rcases List.mem_cons.1 h with rfl | h
        · intro c hc
          rcases List.mem_cons.1 hc with rfl | hc
          · exact List.mem_cons_self
          · exact List.mem_cons_of_mem _ (ih (hs ▸ List.mem_cons_self) c hc)
        · exact fun c hc => List.mem_cons_of_mem _ (ih (hs ▸ List.mem_cons_of_mem _ h) c hc)

theorem mem_of_mem_dropReturn {line : Text} {c : Char} (h : c ∈ dropReturn line) : c ∈ line := by
  unfold dropReturn at h
  cases hb : Text.before? ['\r'] line with
  | none => rwa [hb] at h
  | some content =>
    rw [hb] at h
    rw [Text.before?_eq_some.1 hb]
    exact List.mem_append_left _ h

/-- The lines of notes hold nothing that the notes do not hold. -/
theorem mem_of_mem_lines {content line : Text} (h : line ∈ lines content) : ∀ c ∈ line, c ∈ content := by
  have hall : ∀ line ∈ (Text.splitLines content).map dropReturn, ∀ c ∈ line, c ∈ content := by
    intro line hl c hc
    obtain ⟨source, hs, rfl⟩ := List.mem_map.1 hl
    exact mem_of_mem_splitLines hs c (mem_of_mem_dropReturn hc)
  simp only [lines] at h
  split at h
  · exact hall line (List.dropLast_subset _ h)
  · exact hall line h

/-- **Notes can be converted as they come.** If no line of notes without carriage returns is longer than the settings
allow, then giving the lines with their line ends to a converter, and putting the beginning of the document in front of
what comes of them and the end behind it, has the outcome of converting the notes at once: the same document or the same
failure, and the same warnings. -/
theorem convert_stream [Memory] {raw : RawSettings} {settings : Settings} (h : raw.check = .ok settings)
    {content : Text} (hr : '\r' ∉ content)
    (hshort : ∀ line ∈ lines content, (line.length : Int) ≤ settings.maxLineLength) :
    convert raw content = streamLines settings (lines content) := by
  rw [convert, h]
  refine convertLines_eq_streamLines hshort (fun line hl => not_mem_of_mem_lines hl) fun line hl hm => ?_
  exact hr (mem_of_mem_lines hl _ hm)

/-- The line that closes the head follows a blank line of the head, and another blank line stands behind a list. -/
theorem convert_stream_head :
    let content := "$title: a\n\n* b\n\n\\[\n".toList
    RawSettings.default.check = .ok Settings.default ∧ '\r' ∉ content ∧
      (∀ line ∈ lines content, (line.length : Int) ≤ Settings.default.maxLineLength) ∧
      (streamLines Settings.default (lines content)).warnings = [Block.math.warning] ∧
      convert RawSettings.default content = streamLines Settings.default (lines content) := by
  intro content
  have hcheck : RawSettings.default.check = .ok Settings.default := rfl
  have hr : '\r' ∉ content := by decide
  have hshort : ∀ line ∈ lines content, (line.length : Int) ≤ Settings.default.maxLineLength := by decide +kernel
  exact ⟨hcheck, hr, hshort, by decide +kernel, convert_stream hcheck hr hshort⟩

end Document

end Lectern
