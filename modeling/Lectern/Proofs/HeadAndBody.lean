import Lectern.Draft
import Lectern.Proofs.EscapedLines
import Lectern.Proofs.FirstSpans

/-!
# Head and body

Notes are divided into a **head**, which is all lines at the beginning that are commands or blank, perhaps a divider,
and a **body** (`Notes.divide`). A line of the head changes nothing but the front matter (`obey_belonging`), the divider
changes nothing but that the head has ended (`obey_divider`), and any other line is converted as if the head had ended
before it (`obey_endHead`), also if it is a command behind a backslash, which is read by another rule then
(`readLine_endHead`). Behind the head the front matter is neither asked for nor changed (`obey_withFront`,
`front_obey`). So a converter does with the body what it does with it alone (**`head_and_body`**).
-/

set_option autoImplicit false

namespace Lectern

/-! ## Notes -/

/-- Whether a line belongs to the head. -/
def HeadLine.belongs (line : Text) : Bool := (command? line).isSome || Text.allBlank line

/-- Notes with an open head, divided. -/
structure Notes where
  head : List Text
  /-- The line that divides the head from the body, if there is one. -/
  divider? : Option Text
  body : List Text
deriving DecidableEq, Repr

/-- Divides notes in front of the first line that does not belong to the head. -/
def Notes.divide (lines : List Text) : Notes :=
  let rest := lines.dropWhile HeadLine.belongs
  let divider? := rest.head?.filter HeadLine.isDivider
  ⟨lines.takeWhile HeadLine.belongs, divider?, rest.drop divider?.toList.length⟩

/-- What a line of the head says. -/
def FrontMatter.read (line : Text) (front : FrontMatter) : FrontMatter :=
  match HeadLine.command? line with
  | some (key, value) => front.assign (key ++ ['='] ++ value)
  | none => front

/-- What lines of the head say. -/
def FrontMatter.readAll (lines : List Text) (front : FrontMatter) : FrontMatter :=
  lines.foldl (fun front line => front.read line) front

/-- What stands in front of the body is the head, perhaps with a divider. -/
def Notes.ahead (notes : Notes) : List Text := notes.head ++ notes.divider?.toList

/-- No line is lost. -/
theorem Notes.lines_divide (lines : List Text) : (divide lines).ahead ++ (divide lines).body = lines := by
  have hrest : ∀ rest : List Text, (rest.head?.filter HeadLine.isDivider).toList ++
      rest.drop (rest.head?.filter HeadLine.isDivider).toList.length = rest := by
    intro rest
    cases rest with
    | nil => rfl
    | cons line rest =>
      rw [List.head?_cons, Option.filter_some]
      split <;> rfl
  rw [ahead, divide, List.append_assoc, hrest, List.takeWhile_append_dropWhile]

/-- The head holds lines that belong there, and the line behind it is none. -/
theorem Notes.divide_cases (lines : List Text) :
    (∀ line ∈ (divide lines).head, HeadLine.belongs line = true) ∧
      ((divide lines).divider? = none ∧ (divide lines).body = [] ∨
        (∃ line, (divide lines).divider? = some line ∧ HeadLine.belongs line = false ∧
          HeadLine.isDivider line = true) ∨
        ∃ line rest, (divide lines).divider? = none ∧ (divide lines).body = line :: rest ∧
          HeadLine.belongs line = false ∧ HeadLine.isDivider line = false) := by
  refine ⟨fun line hline => List.all_eq_true.1 List.all_takeWhile line hline, ?_⟩
  rw [divide]
  cases hrest : lines.dropWhile HeadLine.belongs with
  | nil => exact .inl ⟨rfl, rfl⟩
  | cons line rest =>
    have hbelongs : HeadLine.belongs line = false := by
      have hhead := List.head?_dropWhile_not HeadLine.belongs lines
      rw [hrest] at hhead
      exact hhead
    cases hd : HeadLine.isDivider line with
    | true =>
      have hfilter : (some line).filter HeadLine.isDivider = some line := by rw [Option.filter_some, if_pos hd]
      exact .inr (.inl ⟨line, hfilter, hbelongs, hd⟩)
    | false =>
      have hfilter : (some line).filter HeadLine.isDivider = none := by
        rw [Option.filter_some, if_neg (by rw [hd]; decide)]
      have hbody : (line :: rest).drop ((some line).filter HeadLine.isDivider).toList.length = line :: rest := by
        rw [hfilter]
        rfl
      exact .inr (.inr ⟨line, rest, hfilter, hbody, hbelongs, hd⟩)

/-! ## Lines that end the head -/

section Reading

variable {mode : Mode} {line s : Text}

theorem HeadLine.eq_of_key? {key rest : Text} (h : key? s = some (key, rest)) : s = key ++ ':' :: rest := by
  have hcut := List.takeWhile_append_dropWhile (p := fun c => c != ':' && !Text.isBlank c) (l := s)
  simp only [key?] at h
  split at h
  · cases h
  · next hdrop _ =>
    cases h
    rw [hdrop] at hcut
    exact hcut.symm
  · cases h

/-- A command behind a backslash is kept but for the backslash and the dollar. -/
theorem HeadLine.eq_of_escaped? {text : Text} (h : escaped? line = some text) (hl : '\n' ∉ line) :
    line = '\\' :: '$' :: text := by
  unfold escaped? at h
  split at h
  · next s =>
    obtain ⟨⟨key, rest⟩, hkey, h⟩ := Option.bind_eq_some_iff.1 h
    obtain ⟨value, hvalue, h⟩ := Option.bind_eq_some_iff.1 h
    have hs := eq_of_key? hkey
    have hrest : '\n' ∉ Text.trimStart rest := fun hmem => by
      refine hl (List.mem_cons_of_mem _ (List.mem_cons_of_mem _ ?_))
      rw [hs]
      exact List.mem_append_right key (List.mem_cons_of_mem _ ((List.dropWhile_suffix _).mem hmem))
    have htext : rest.takeWhile Text.isBlank ++ value = rest := by
      rw [Text.lineContent?_eq hvalue hrest]
      exact List.takeWhile_append_dropWhile
    rw [← Option.some.inj h, hs, List.append_assoc, htext, List.append_assoc]
    rfl
  · cases h

/-- A blank line is nothing but a blank line. -/
theorem HeadLine.read?_of_allBlank (h : Text.allBlank line = true) : read? line = some .blank := by
  have hhead : ∀ c s, line = c :: s → Text.isBlank c = true := by
    rintro c s rfl
    exact List.all_eq_true.1 h c List.mem_cons_self
  have hcommand : command? line = none := by
    unfold command?
    split
    · cases hhead _ _ rfl
    · rfl
  have hescaped : escaped? line = none := by
    unfold escaped?
    split
    · cases hhead _ _ rfl
    · rfl
  have hdivider : isDivider line = false := by
    rw [isDivider, trimStart_of_allBlank h]
    rfl
  rw [read?, hcommand, hescaped, hdivider, h]
  rfl

/-- A divider does not start with a backslash. -/
theorem HeadLine.escaped?_of_isDivider (h : isDivider line = true) : escaped? line = none := by
  unfold escaped?
  split
  · cases h
  · rfl

/-- A dollar behind a backslash stands for itself, and the text behind it is read as if it stood alone. -/
theorem readInline_dollar (hm : mode.inBlock = false) (s : Text) :
    readInline mode ('\\' :: '$' :: s) = .text "\\$".toList :: readInline mode s := by
  have hfirst : SpanRule.FirstSpan .math [] ('\\' :: '$' :: s) (.text "\\$".toList) s :=
    ⟨fun other ho => absurd ho (Nat.not_lt_zero _), .nil _ _, rfl⟩
  have hread := readInline_of_firstSpan hm hfirst
  rwa [readInline_nil] at hread

/-- A command behind a backslash is read as inline text behind the head. -/
theorem readStart_escaped (hm : mode.inBlock = false) (s : Text) :
    readStart mode LineRule.behindHead (Token.rawIfAny ('\\' :: '$' :: s)) =
      (mode, .ok (Token.rawIfAny ('\\' :: '$' :: s))) :=
  readStart_backslash_of_no_marker hm (by decide) fun kind => by cases kind <;> rfl

theorem readHeadLine_of_ended (h : mode.head = false) :
    LineRule.readHeadLine mode line = (mode, Token.rawIfAny line) := by
  simp [LineRule.readHeadLine, h]

/-- A line that neither belongs to the head nor divides it is read as if the head had ended before it. -/
theorem readLine_endHead (hh : mode.head = true) (hm : mode.inBlock = false) (hb : HeadLine.belongs line = false)
    (hd : HeadLine.isDivider line = false) (hl : '\n' ∉ line) : readLine mode line = readLine mode.endHead line := by
  rw [HeadLine.belongs, Bool.or_eq_false_iff, Option.isSome_eq_false_iff, Option.isNone_iff_eq_none] at hb
  obtain ⟨hcommand, hblank⟩ := hb
  have hended : LineRule.readHeadLine mode.endHead line = (mode.endHead, Token.rawIfAny line) :=
    readHeadLine_of_ended rfl
  cases he : HeadLine.escaped? line with
  | none =>
    have hread : HeadLine.read? line = none := by
      rw [HeadLine.read?, hcommand, he, hd, hblank]
      rfl
    have hopen : LineRule.readHeadLine mode line = (mode.endHead, Token.rawIfAny line) := by
      simp [LineRule.readHeadLine, hh, hread]
    simp only [readLine, LineRule.all, readStart, LineRule.read, hopen, hended]
  | some text =>
    have hread : HeadLine.read? line = some (.escaped text) := by rw [HeadLine.read?, hcommand, he]
    have hopen : LineRule.readHeadLine mode line =
        (mode.endHead, .text "\\$".toList :: Token.rawIfAny text) := by
      simp [LineRule.readHeadLine, hh, hread]
    have hraw : ∀ u, Token.text "\\$".toList ≠ .raw u := fun _ h => by cases h
    have hm' : mode.endHead.inBlock = false := hm
    have hstart := readStart_escaped hm' text
    rw [HeadLine.eq_of_escaped? he hl] at hopen hended ⊢
    rw [readLine_of_headLine hopen (readStart_of_ne_raw hraw _), readLine_of_headLine hended hstart, settle_cons hraw]
    exact congrArg (fun tokens => (mode.endHead, Except.ok tokens)) (readInline_dollar hm' text).symm

end Reading

namespace Converter

/-! ## Behind the head -/

section Behind

variable {converter : Converter} {mode : Mode}

theorem delimiter_readLine (h : mode.delimiter = [] ∨ mode.delimiter = "$$".toList ∨ mode.delimiter = "\\[".toList)
    (line : Text) :
    (readLine mode line).1.delimiter = [] ∨ (readLine mode line).1.delimiter = "$$".toList ∨
      (readLine mode line).1.delimiter = "\\[".toList := by
  obtain ⟨mode', tokens, hr, hl⟩ := readLine_cases (Mode.closable_of_delimiter h) line
  rw [hr]
  cases hl with
  | command assignment hh => exact h
  | blank hh => exact h
  | body hb => exact (hb.sound ⟨rfl, h⟩).delimiter

theorem sound_readLine (h : mode.Sound) (line : Text) : (readLine mode line).1.Sound := by
  obtain ⟨mode', tokens, hr, hl⟩ := readLine_cases (Mode.closable_of_delimiter h.delimiter) line
  rw [hr]
  cases hl with
  | command assignment hh => exact h
  | blank hh => exact h
  | body hb => exact hb.sound ⟨rfl, h.delimiter⟩

variable [Memory]

theorem front_headLine (h : converter.progress.mode.Sound) (line : Text) :
    (converter.headLine line).1.front = converter.front := by
  obtain ⟨mode', tokens, hr, hl⟩ := readLine_cases (Mode.closable_of_delimiter h.delimiter) line
  have hcommand : ∀ assignment rest, tokens ≠ .command assignment :: rest := by
    cases hl with
    | command _ hh =>
      rw [h.head] at hh
      cases hh
    | blank => exact fun _ _ h => by cases h
    | body hb => exact hb.ne_command
  have hread := read_of_readLine hr
  unfold headLine
  split
  · next h => rw [h] at hread; cases hread
  · next h =>
    rw [h] at hread
    cases hread
    rfl
  · next h =>
    rw [h] at hread
    cases hread
    exact absurd rfl (hcommand _ _)
  · next h =>
    rw [h] at hread
    cases hread
    rfl

theorem front_obey (h : converter.progress.mode.Sound) (call : Call) :
    (converter.obey call).1.front = converter.front := by
  cases call with
  | headLine source => exact front_headLine h source
  | line source =>
    show (converter.contentLine (splitTerminator source).1).1.front = _
    obtain ⟨progress, hline⟩ := bodyLine_eq_with (splitTerminator source).1 converter
    rw [contentLine, if_neg (by rw [h.head]; decide)]
    exact (congrArg Converter.front hline :)

/-- Behind the head the front matter does not change. -/
theorem front_after (h : converter.progress.mode.Sound) (calls : List Call) :
    (converter.after calls).front = converter.front := by
  induction calls generalizing converter with
  | nil => rfl
  | cons call calls ih =>
    have hmode : (converter.obey call).1.progress.mode.Sound := by
      rw [mode_obey]
      exact sound_readLine h _
    rw [after, ih hmode, front_obey h]

theorem delimiter_after
    (h : converter.progress.mode.delimiter = [] ∨ converter.progress.mode.delimiter = "$$".toList ∨
      converter.progress.mode.delimiter = "\\[".toList) (calls : List Call) :
    (converter.after calls).progress.mode.delimiter = [] ∨
      (converter.after calls).progress.mode.delimiter = "$$".toList ∨
      (converter.after calls).progress.mode.delimiter = "\\[".toList := by
  induction calls generalizing converter with
  | nil => exact h
  | cons call calls ih =>
    refine ih ?_
    rw [mode_obey]
    exact delimiter_readLine h _

theorem bodyLine_withFront (front : FrontMatter) (line : Text) (converter : Converter) :
    { converter with front }.bodyLine line =
      ({ (converter.bodyLine line).1 with front }, (converter.bodyLine line).2) := by
  cases hr : readLine converter.progress.mode line with
  | mk mode tokens =>
    cases tokens with
    | error unknown => simp only [bodyLine, read, hr]; rfl
    | ok tokens => simp only [bodyLine, read, hr]; rfl

/-- Behind the head a line is converted alike whatever the head was. -/
theorem obey_withFront (hh : converter.progress.mode.head = false) (front : FrontMatter) (line : Text) :
    { converter with front }.obey (.line line) =
      ({ (converter.obey (.line line)).1 with front }, (converter.obey (.line line)).2) := by
  simp only [obey, Converter.line, contentLine, hh, bodyLine_withFront]
  rfl

/-- What is seen of a run: the progress behind each call, and what comes of it. -/
def seen (steps : List (Converter × Except Failure (Option Text))) : List (Progress × Except Failure (Option Text)) :=
  steps.map fun step => (step.1.progress, step.2)

theorem seen_run_withFront (h : converter.progress.mode.Sound) (front : FrontMatter) (lines : List Text) :
    seen ({ converter with front }.run (lines.map .line)) = seen (converter.run (lines.map .line)) := by
  induction lines generalizing converter with
  | nil => rfl
  | cons line lines ih =>
    have hmode : (converter.obey (.line line)).1.progress.mode.Sound := by
      rw [mode_obey]
      exact sound_readLine h _
    rw [List.map_cons, run, run, obey_withFront h.head]
    exact congrArg (_ :: ·) (ih hmode)

end Behind

/-! ## In front of the body -/

section Ahead

variable [Memory] {converter : Converter} {line : Text}

theorem obey_line_of_headLine {next : Converter} {written? : Except Failure (Option WrittenLine)}
    (hh : converter.progress.mode.head = true) (hl : '\n' ∉ line) (h : converter.headLine line = (next, written?)) :
    converter.obey (.line line) = (next, (written?.map (next.printLine [])).map some) := by
  simp only [obey, Converter.line, splitTerminator_of_not_mem hl, contentLine, hh, if_true, h]

/-- A line of the head says something or nothing, and nothing is written for it. -/
theorem obey_belonging (hh : converter.progress.mode.head = true) (hl : '\n' ∉ line)
    (hb : HeadLine.belongs line = true) :
    converter.obey (.line line) = ({ converter with front := converter.front.read line }, .ok (some [])) := by
  have hsame : converter.withMode converter.progress.mode = converter := rfl
  cases hc : HeadLine.command? line with
  | some command =>
    have hread : HeadLine.read? line = some (.command command.1 command.2) := by rw [HeadLine.read?, hc]
    have hrule : LineRule.readHeadLine converter.progress.mode line =
        (converter.progress.mode, [.command (command.1 ++ ['='] ++ command.2)]) := by
      simp [LineRule.readHeadLine, hh, hread]
    have hraw : ∀ u, Token.command (command.1 ++ ['='] ++ command.2) ≠ .raw u := fun _ h => by cases h
    have htokens := read_of_readLine (readLine_of_headLine hrule (readStart_of_ne_raw hraw []))
    rw [settle_cons hraw, settle, hsame] at htokens
    have hline : converter.headLine line = ({ converter with front := converter.front.read line }, .ok none) := by
      simp only [headLine, htokens, FrontMatter.read, hc]
    rw [obey_line_of_headLine hh hl hline]
    rfl
  | none =>
    have hblank : Text.allBlank line = true := by rwa [HeadLine.belongs, hc, Option.isSome_none, Bool.false_or] at hb
    have hrule : LineRule.readHeadLine converter.progress.mode line = (converter.progress.mode, []) := by
      rw [LineRule.readHeadLine, hh, HeadLine.read?_of_allBlank hblank]
      rfl
    have htokens := read_of_readLine (readLine_of_headLine hrule readStart_nil)
    rw [settle, hsame] at htokens
    have hline : converter.headLine line = ({ converter with front := converter.front.read line }, .ok none) := by
      simp only [headLine, htokens, FrontMatter.read, hc]
    rw [obey_line_of_headLine hh hl hline]
    rfl

/-- The divider ends the head, and nothing is written for it. -/
theorem obey_divider (hh : converter.progress.mode.head = true) (hl : '\n' ∉ line)
    (hb : HeadLine.belongs line = false) (hd : HeadLine.isDivider line = true) :
    converter.obey (.line line) = (converter.endHead, .ok (some [])) := by
  rw [HeadLine.belongs, Bool.or_eq_false_iff, Option.isSome_eq_false_iff, Option.isNone_iff_eq_none] at hb
  have hread : HeadLine.read? line = some .divider := by
    rw [HeadLine.read?, hb.1, HeadLine.escaped?_of_isDivider hd, hd]
    rfl
  have hrule : LineRule.readHeadLine converter.progress.mode line = (converter.progress.mode.endHead, []) := by
    simp [LineRule.readHeadLine, hh, hread]
  have htokens := read_of_readLine (readLine_of_headLine hrule readStart_nil)
  rw [settle] at htokens
  have hline : converter.headLine line = (converter.endHead, .ok none) := by
    simp only [headLine, htokens]
    rfl
  rw [obey_line_of_headLine hh hl hline]
  rfl

/-- Where no list is open and nothing is pending, a line without tokens leaves everything as it is. -/
theorem write_nil (houtline : converter.progress.outline = .empty) (hline : converter.progress.line = [])
    (line : Text) : converter.write line [] = (converter, .ok ⟨[], none, []⟩) := by
  have hsettled : converter.progress.settleLists line [] = converter.progress :=
    Progress.settleLists_of_levels_eq_nil (by rw [houtline]; rfl) line []
  obtain ⟨settings, indentation, front, ⟨mode, outline, text⟩⟩ := converter
  cases houtline
  cases hline
  simp only [write, Progress.write, hsettled, Progress.renderAll]
  simp [Progress.takeWithin, Progress.take, Progress.setLine, Progress.continuesItem, Fragment.printAll, Outline.depth]
  rfl

/-- Any other line is converted as if the head had ended before it. -/
theorem obey_endHead (hp : converter.progress = .initial) (hl : '\n' ∉ line)
    (hb : HeadLine.belongs line = false) (hd : HeadLine.isDivider line = false) :
    converter.obey (.line line) = converter.endHead.obey (.line line) := by
  have hh : converter.progress.mode.head = true := by rw [hp]; rfl
  have hended : converter.endHead.progress.mode = converter.progress.mode.endHead := rfl
  have hdelimiter : converter.endHead.progress.mode.delimiter = [] := by rw [hended, hp]; rfl
  obtain ⟨mode, tokens, hr, hreading⟩ := readLine_cases (Mode.closable_of_delimiter (.inl hdelimiter)) line
  have hopen : readLine converter.progress.mode line = (mode, .ok tokens) := by
    rw [readLine_endHead hh (by rw [hp]; rfl) hb hd hl]
    exact hr
  have hbody : BodyReading converter.progress.mode.endHead mode tokens := by
    cases hreading with
    | command _ hh => cases hh
    | blank hh => cases hh
    | body hb => exact hb
  have hsame : converter.endHead.withMode mode = converter.withMode mode := rfl
  have hread := read_of_readLine hopen
  have hread' := read_of_readLine hr
  rw [hsame] at hread'
  have hcontent : converter.endHead.contentLine line =
      (((converter.withMode mode).write line tokens).1, ((converter.withMode mode).write line tokens).2.map some) := by
    simp only [contentLine, hended, Mode.endHead, bodyLine, hread']
    rfl
  cases tokens with
  | nil =>
    have hnil : (converter.withMode mode).write line [] = (converter.withMode mode, .ok ⟨[], none, []⟩) := by
      refine write_nil ?_ ?_ line
      · exact congrArg Progress.outline hp
      · exact congrArg Progress.line hp
    have hline : converter.headLine line = (converter.withMode mode, .ok none) := by simp only [headLine, hread]
    rw [obey_line_of_headLine hh hl hline]
    simp only [obey, Converter.line, splitTerminator_of_not_mem hl, hcontent, hnil]
    rfl
  | cons t tokens =>
    have hcommand : ∀ assignment, t ≠ .command assignment := by
      rintro assignment rfl
      exact hbody.ne_command assignment tokens rfl
    have hline : converter.headLine line = converter.endHead.contentLine line := by
      rw [hcontent, headLine_eq_write hread hcommand]
    simp only [obey, Converter.line, splitTerminator_of_not_mem hl]
    rw [← hline, contentLine, if_pos hh]

/-- Lines of the head say what they say, and nothing is written for them. -/
theorem run_head (hh : converter.progress.mode.head = true) {lines : List Text}
    (hlines : ∀ line ∈ lines, '\n' ∉ line ∧ HeadLine.belongs line = true) :
    (converter.run (lines.map .line)).map Prod.snd = lines.map (fun _ => .ok (some [])) ∧
      converter.after (lines.map .line) = { converter with front := converter.front.readAll lines } := by
  induction lines generalizing converter with
  | nil => exact ⟨rfl, rfl⟩
  | cons line lines ih =>
    obtain ⟨hl, hb⟩ := hlines line List.mem_cons_self
    have hobey := obey_belonging hh hl hb
    have hnext := @ih { converter with front := converter.front.read line } hh fun line hline =>
      hlines line (List.mem_cons_of_mem _ hline)
    rw [List.map_cons, run, after, hobey]
    exact ⟨congrArg (_ :: ·) hnext.1, hnext.2⟩

/-- Nothing is written in front of the body, and from there on the head has ended. -/
theorem run_ahead (hp : converter.progress = .initial) {lines : List Text} (hl : ∀ line ∈ lines, '\n' ∉ line) :
    let notes := Notes.divide lines
    let front := converter.front.readAll notes.head
    (converter.run (notes.ahead.map .line)).map Prod.snd = notes.ahead.map (fun _ => .ok (some [])) ∧
      (converter.after (notes.ahead.map .line)).front = front ∧
      (notes.body = [] ∨
        (converter.after (notes.ahead.map .line)).run (notes.body.map .line) =
            { converter.endHead with front }.run (notes.body.map .line) ∧
          (converter.after (notes.ahead.map .line)).after (notes.body.map .line) =
            { converter.endHead with front }.after (notes.body.map .line)) := by
  intro notes front
  have hh : converter.progress.mode.head = true := by rw [hp]; rfl
  have hmem : ∀ line, line ∈ notes.ahead ∨ line ∈ notes.body → '\n' ∉ line := fun line hline =>
    hl line (by rw [← Notes.lines_divide lines]; exact List.mem_append.2 hline)
  obtain ⟨hhead, hcases⟩ := Notes.divide_cases lines
  obtain ⟨hrun, hafter⟩ := run_head hh fun line (hline : line ∈ notes.head) =>
    ⟨hmem line (.inl (List.mem_append_left _ hline)), hhead line hline⟩
  rcases hcases with ⟨hd, hb⟩ | ⟨line, hd, hbelongs, hdivider⟩ | ⟨line, rest, hd, hb, hbelongs, hdivider⟩
  · have hahead : notes.ahead = notes.head := by rw [Notes.ahead, hd]; exact List.append_nil _
    rw [hahead]
    exact ⟨hrun, by rw [hafter], .inl hb⟩
  · have hahead : notes.ahead = notes.head ++ [line] := by rw [Notes.ahead, hd]; rfl
    have hline := hmem line (.inl (by rw [hahead]; exact List.mem_append_right _ List.mem_cons_self))
    have hobey := @obey_divider _ { converter with front } line hh hline hbelongs hdivider
    have hend : converter.after (notes.ahead.map .line) = { converter.endHead with front } := by
      rw [hahead, List.map_append, after_append, hafter]
      exact congrArg Prod.fst hobey
    refine ⟨?_, by rw [hend], .inr ⟨by rw [hend], by rw [hend]⟩⟩
    rw [hahead, List.map_append, run_append, List.map_append, hrun, hafter, List.map_append]
    exact congrArg (_ ++ [·.2]) hobey
  · have hahead : notes.ahead = notes.head := by rw [Notes.ahead, hd]; exact List.append_nil _
    have hline := hmem line (.inr (by rw [hb]; exact List.mem_cons_self))
    have hobey := @obey_endHead _ { converter with front } line hp hline hbelongs hdivider
    rw [hahead, hafter]
    refine ⟨hrun, rfl, .inr ?_⟩
    rw [hb, List.map_cons, run, run, after, after, hobey]
    exact ⟨rfl, rfl⟩

end Ahead

/-! ## Whole notes -/

section Notes

theorem progress_new {raw : RawSettings} {draft : Draft} (h : Draft.new raw = .ok draft) :
    draft.converter.progress = .initial ∧ draft.converter.front = .empty := by
  unfold Draft.new at h
  cases hsettings : raw.unchecked with
  | error failure =>
    rw [hsettings] at h
    cases h
  | ok settings =>
    cases hparticulars : raw.particulars with
    | error failure =>
      rw [hsettings, hparticulars] at h
      cases h
    | ok particulars =>
      rw [hsettings, hparticulars] at h
      cases h
      exact ⟨rfl, rfl⟩

/-- **Head and body are apart.** Whatever settings a document is begun with, nothing is written for the lines of the
head and the divider. What is written for the body, and what is open behind each of its lines, is what it is if the head
has ended at once. The front matter is what the lines of the head say; it makes the preamble, and no line behind the
head changes it. -/
theorem head_and_body [Memory] {raw : RawSettings} {draft : Draft} (h : Draft.new raw = .ok draft) {lines : List Text}
    (hl : ∀ line ∈ lines, '\n' ∉ line) :
    let notes := Notes.divide lines
    let front := FrontMatter.empty.readAll notes.head
    let behind := draft.converter.after (lines.map .line)
    notes.ahead ++ notes.body = lines ∧
      (draft.converter.run (notes.ahead.map .line)).map Prod.snd = notes.ahead.map (fun _ => .ok (some [])) ∧
      seen (draft.converter.run (lines.map .line)) = seen (draft.converter.run (notes.ahead.map .line)) ++
        seen (draft.converter.endHead.run (notes.body.map .line)) ∧
      behind.front = front ∧ behind.preamble = Lectern.preamble draft.converter.settings front ∧
      ({ draft with converter := behind } : Draft).known = draft.particulars.under front ∧
      ∀ calls, (draft.converter.after calls).progress.mode.head = false →
        ∀ more, (draft.converter.after (calls ++ more)).front = (draft.converter.after calls).front := by
  intro notes front behind
  obtain ⟨hp, hempty⟩ := progress_new h
  have hlines := Notes.lines_divide lines
  obtain ⟨hwritten, hahead, hbody⟩ := run_ahead hp hl
  rw [hempty] at hahead hbody
  have hsplit : lines.map Call.line = notes.ahead.map .line ++ notes.body.map .line := by
    rw [← List.map_append, hlines]
  have hended : ({ draft.converter.endHead with front } : Converter).progress.mode.Sound := by
    show draft.converter.progress.mode.endHead.Sound
    rw [hp]
    exact ⟨rfl, .inl rfl⟩
  have hfront : behind.front = front := by
    show (draft.converter.after (lines.map Call.line)).front = front
    rw [hsplit, after_append]
    rcases hbody with hnone | ⟨-, hafter⟩
    · rw [hnone]
      exact hahead
    · rw [hafter, front_after hended]
  refine ⟨hlines, hwritten, ?_, hfront, ?_, congrArg draft.particulars.under hfront, fun calls hh more => ?_⟩
  · rw [hsplit, run_append, seen, List.map_append]
    refine congrArg (_ ++ ·) ?_
    rcases hbody with hnone | ⟨hrun, -⟩
    · rw [hnone]
      rfl
    · rw [hrun]
      exact @seen_run_withFront draft.converter.endHead _ hended front notes.body
  · rw [preamble, hfront, settings_after]
  · have hdelimiter := @delimiter_after draft.converter _ (.inl (by rw [hp]; rfl)) calls
    rw [after_append, front_after ⟨hh, hdelimiter⟩]

/-- The body begins with a command behind a backslash, and a divider stands in it. -/
theorem head_and_body_escaped :
    let lines := ["$title: a".toList, [], "\\$b: *c*".toList, "===".toList, "$d: e".toList]
    ∃ draft, Draft.new RawSettings.default = .ok draft ∧ (∀ line ∈ lines, '\n' ∉ line) ∧
      Notes.divide lines = ⟨lines.take 2, none, lines.drop 2⟩ ∧
      (seen (draft.converter.run (lines.map .line))).map (fun step => (step.1, step.2.toOption)) =
        List.replicate 2 (.initial, some (some [])) ++
          ["\\$b: \\textit\x7bc\x7d".toList, "===".toList, "$d: e".toList].map (fun text =>
            (Progress.initial.endHead, some (some text))) ∧
      (draft.converter.after (lines.map .line)).front.title? = some "a".toList := by
  intro lines
  have hlines : ∀ line ∈ lines, '\n' ∉ line := by decide
  have hdivide : Notes.divide lines = ⟨lines.take 2, none, lines.drop 2⟩ := by decide +kernel
  obtain ⟨-, -, hseen, hfront, -⟩ := @head_and_body _ RawSettings.default _ rfl _ hlines
  rw [hdivide] at hseen hfront
  refine ⟨_, rfl, hlines, hdivide, ?_, ?_⟩
  · rw [hseen]
    decide +kernel
  · rw [hfront]
    decide +kernel

end Notes

end Converter

end Lectern
