import Lectern.Proofs.HeadAndBody

/-!
# Head commands

A head command is spelled `$key: value`, and every key and value that can be spelled so is recognised
(**`HeadLine.command?_spell`**). It is handed on as the assignment `key=value`, which is cut at its first equals sign.
So the command that is obeyed is the one that is spelled if its key has no equals sign (`assign_eq_apply`). A key with
an equals sign loses what is behind the sign to the value, and this is never the same: no key of a converter's front
matter has an equals sign (`extra_assignable`), whatever has been done with it. **`Converter.line_spell`** says this of
the line as a whole: it changes nothing but the front matter, and the head stays open.
-/

set_option autoImplicit false

namespace Lectern

/-! ## Cutting at a character -/

namespace Text

variable {c : Char} {s before rest : Text}

/-- There is no delimiter before the first one. -/
theorem not_mem_of_splitAt? (h : splitAt? [c] s = some (before, rest)) : c ∉ before := by
  induction s generalizing before with
  | nil => cases h
  | cons d s ih =>
    rw [splitAt?] at h
    split at h
    · cases h
      exact List.not_mem_nil
    · next hnone =>
      obtain ⟨⟨front, behind⟩, hs, hpair⟩ := Option.map_eq_some_iff.1 h
      cases hpair
      rw [List.mem_cons, not_or]
      refine ⟨fun hc => ?_, ih hs⟩
      rw [hc, SpanRule.after?_cons_self] at hnone
      cases hnone

theorem not_mem_of_splitAt?_eq_none (h : splitAt? [c] s = none) : c ∉ s := by
  intro hc
  obtain ⟨before, rest, rfl, hbefore⟩ := List.eq_append_cons_of_mem hc
  have hsome : splitAt? [c] (before ++ c :: rest) = some (before, rest) := splitAt?_append_cons hbefore
  rw [h] at hsome
  cases hsome

end Text

/-! ## Commands as they are spelled -/

namespace HeadLine

/-- A key and a value of which a head command can be made. -/
structure Spellable (key value : Text) : Prop where
  key_ne_nil : key ≠ []
  /-- A colon or a blank would end the key. -/
  key_chars : ∀ c ∈ key, c ≠ ':' ∧ Text.isBlank c = false
  value_lineEnd : '\n' ∉ value
  /-- Blanks in front of the value do not belong to it. -/
  value_start : ∀ c, value.head? = some c → Text.isBlank c = false

/-- The line of a head command. -/
def spell (key value : Text) : Text := '$' :: key ++ ": ".toList ++ value

variable {key value : Text}

theorem key?_append (hn : key ≠ []) (hk : ∀ c ∈ key, c ≠ ':' ∧ Text.isBlank c = false) (rest : Text) :
    key? (key ++ ':' :: rest) = some (key, rest) := by
  have hin : ∀ c ∈ key, (c != ':' && !Text.isBlank c) = true := fun c hc => by
    obtain ⟨hcolon, hblank⟩ := hk c hc
    simp [hcolon, hblank]
  have htake : (key ++ ':' :: rest).takeWhile (fun c => c != ':' && !Text.isBlank c) = key := by
    rw [List.takeWhile_append_of_pos hin]
    simp
  have hdrop : (key ++ ':' :: rest).dropWhile (fun c => c != ':' && !Text.isBlank c) = ':' :: rest := by
    rw [List.dropWhile_append_of_pos hin]
    simp
  obtain ⟨c, key, rfl⟩ := List.exists_cons_of_ne_nil hn
  simp only [key?, htake, hdrop]

/-- The blank behind the colon is all that is taken away from the value. -/
theorem trimStart_space (h : ∀ c, value.head? = some c → Text.isBlank c = false) :
    Text.trimStart (' ' :: value) = value := by
  rw [Text.trimStart, List.dropWhile_cons_of_pos (by decide)]
  cases value with
  | nil => rfl
  | cons c value => exact trimStart_cons (h c rfl)

/-- **A command is recognised as it is spelled.** -/
theorem command?_spell (h : Spellable key value) : command? (spell key value) = some (key, value) := by
  have hkey : key? (key ++ ": ".toList ++ value) = some (key, ' ' :: value) := by
    rw [List.append_assoc]
    exact key?_append h.key_ne_nil h.key_chars (' ' :: value)
  have hvalue : Text.lineContent? (Text.trimStart (' ' :: value)) = some value := by
    rw [trimStart_space h.value_start, Text.lineContent?_of_not_mem h.value_lineEnd]
  simp only [spell, List.cons_append, command?, hkey, Option.bind_eq_bind, Option.bind_some, hvalue]
  rfl

theorem not_mem_spell (h : Spellable key value) : '\n' ∉ spell key value := by
  have hkey : '\n' ∉ key := fun hmem => by
    have hblank := (h.key_chars '\n' hmem).2
    revert hblank
    decide
  have hcolon : '\n' ∉ ": ".toList := by decide
  simp only [spell, List.cons_append, List.mem_cons, List.mem_append, not_or]
  exact ⟨by decide, ⟨hkey, hcolon⟩, h.value_lineEnd⟩

end HeadLine

/-! ## Assignments -/

/-- The keys of a table behind an insertion are the new key and those that were there. -/
theorem key_of_mem_insertEntry {β : Type} {key : Text} {value : β} {entries : List (Text × β)} {entry : Text × β}
    (h : entry ∈ insertEntry key value entries) : entry.1 = key ∨ ∃ old ∈ entries, old.1 = entry.1 := by
  induction entries with
  | nil => exact .inl (congrArg Prod.fst (List.mem_singleton.1 h))
  | cons old entries ih =>
    obtain ⟨k, v⟩ := old
    rw [insertEntry] at h
    split at h
    · next hk =>
      rcases List.mem_cons.1 h with rfl | h
      · exact .inl hk
      · exact .inr ⟨entry, List.mem_cons_of_mem _ h, rfl⟩
    · rcases List.mem_cons.1 h with rfl | h
      · exact .inr ⟨_, List.mem_cons_self, rfl⟩
      · rcases ih h with h | ⟨old, hold, he⟩
        · exact .inl h
        · exact .inr ⟨old, List.mem_cons_of_mem _ hold, he⟩

theorem mem_insertEntry_self {β : Type} (key : Text) (value : β) (entries : List (Text × β)) :
    (key, value) ∈ insertEntry key value entries := by
  induction entries with
  | nil => exact List.mem_singleton_self _
  | cons old entries ih =>
    rw [insertEntry]
    split
    · next hk =>
      rw [hk]
      exact List.mem_cons_self
    · exact List.mem_cons_of_mem _ ih

namespace FrontMatter

variable {front : FrontMatter} {key value : Text}

/-- An assignment means the key and the value of which it is made, unless the key has an equals sign. -/
theorem assign_eq_apply (h : '=' ∉ key) (value : Text) (front : FrontMatter) :
    front.assign (key ++ ['='] ++ value) = front.apply key value := by
  rw [assign, splitAssignment, List.append_assoc, Text.splitAt?_append_cons h]
  rfl

/-- Otherwise the rest of the key goes to the value. -/
theorem assign_eq_apply_first {first : Text} (h : '=' ∉ first) (second value : Text) (front : FrontMatter) :
    front.assign (first ++ '=' :: second ++ ['='] ++ value) = front.apply first (second ++ '=' :: value) := by
  have hsplit : first ++ '=' :: second ++ ['='] ++ value = first ++ ['='] ++ (second ++ '=' :: value) := by simp
  rw [hsplit, assign_eq_apply h]

/-- Every entry of the front matter can have come of an assignment: its key has no equals sign. -/
def Assignable (front : FrontMatter) : Prop := ∀ entry ∈ front.extra, '=' ∉ entry.1

theorem Assignable.apply (h : front.Assignable) (hkey : '=' ∉ key) (value : Text) :
    (front.apply key value).Assignable := by
  unfold FrontMatter.apply
  split
  · exact h
  split
  · exact h
  split
  · exact h
  split
  · exact h
  · intro entry hentry
    rcases key_of_mem_insertEntry hentry with rfl | ⟨old, hold, he⟩
    · exact hkey
    · exact he ▸ h old hold

theorem not_mem_splitAssignment (assignment : Text) : '=' ∉ (splitAssignment assignment).1 := by
  unfold splitAssignment
  cases hsplit : Text.splitAt? ['='] assignment with
  | none => exact Text.not_mem_of_splitAt?_eq_none hsplit
  | some found => exact Text.not_mem_of_splitAt? hsplit

theorem Assignable.assign (h : front.Assignable) (assignment : Text) : (front.assign assignment).Assignable :=
  h.apply (not_mem_splitAssignment assignment) _

/-- Whatever has a key with an equals sign has not come of an assignment. -/
theorem not_assignable_apply (hkey : '=' ∈ key) (value : Text) (front : FrontMatter) :
    ¬ (front.apply key value).Assignable := by
  have hextra : (key, value) ∈ (front.apply key value).extra := by
    have hne : ∀ name : Text, '=' ∉ name → key ≠ name := fun name hname he => hname (he ▸ hkey)
    rw [FrontMatter.apply, if_neg (hne _ (by decide)), if_neg (hne _ (by decide)), if_neg (hne _ (by decide)),
      if_neg (hne _ (by decide))]
    exact mem_insertEntry_self key value front.extra
  exact fun h => h _ hextra hkey

end FrontMatter

/-! ## Converters -/

namespace Converter

section Front

variable {converter : Converter}

theorem front_read (line : Text) (converter : Converter) : (converter.read line).1.front = converter.front := rfl

variable [Memory]

/-- What a line says of the front matter it says as an assignment. -/
theorem front_headLine_cases (line : Text) (converter : Converter) :
    (converter.headLine line).1.front = converter.front ∨
      ∃ assignment, (converter.headLine line).1.front = converter.front.assign assignment := by
  have hread := front_read line converter
  unfold headLine
  split
  · next h => exact .inl (by rwa [h] at hread)
  · next h => exact .inl (by rwa [h] at hread)
  · next read assignment _ h =>
    rw [h] at hread
    exact .inr ⟨assignment, by rw [← hread]⟩
  · next h => exact .inl (by rwa [h] at hread)

theorem front_obey_cases (call : Call) (converter : Converter) :
    (converter.obey call).1.front = converter.front ∨
      ∃ assignment, (converter.obey call).1.front = converter.front.assign assignment := by
  cases call with
  | headLine source => exact front_headLine_cases source converter
  | line source =>
    show (converter.contentLine (splitTerminator source).1).1.front = _ ∨
      ∃ assignment, (converter.contentLine (splitTerminator source).1).1.front = _
    rw [contentLine]
    split
    · exact front_headLine_cases _ converter
    · obtain ⟨progress, hbody⟩ := bodyLine_eq_with (splitTerminator source).1 converter
      exact .inl (congrArg Converter.front hbody :)

/-- The front matter of a converter has come of assignments. -/
theorem Reachable.assignable {settings : Settings} (h : Reachable settings converter) :
    converter.front.Assignable := by
  induction h with
  | new => exact fun _ hentry => by cases hentry
  | endHead _ ih => exact ih
  | @obey converter call _ ih =>
    rcases front_obey_cases call converter with hfront | ⟨assignment, hfront⟩
    · exact hfront ▸ ih
    · exact hfront ▸ ih.assign assignment
  | close _ ih => exact ih

end Front

section Commands

variable {converter : Converter} {key value : Text}

/-- **A head command is obeyed as it is spelled if its key has no equals sign.** It leaves no text and changes nothing
but the front matter, so the head stays open. A key with an equals sign ends there, and what is behind it goes to the
value; whatever has been done with the converter before, this is not what is spelled. -/
theorem line_spell [Memory] (hh : converter.progress.mode.head = true) (h : HeadLine.Spellable key value) :
    ∃ front, converter.line (HeadLine.spell key value) = ({ converter with front }, .ok []) ∧
      ('=' ∉ key → front = converter.front.apply key value) ∧
      (∀ first second, key = first ++ '=' :: second → '=' ∉ first →
        front = converter.front.apply first (second ++ '=' :: value)) ∧
      ∀ settings, Reachable settings converter → (front = converter.front.apply key value ↔ '=' ∉ key) := by
  have hcommand := HeadLine.command?_spell h
  have hbelongs : HeadLine.belongs (HeadLine.spell key value) = true := by rw [HeadLine.belongs, hcommand]; rfl
  have hread : converter.front.read (HeadLine.spell key value) = converter.front.assign (key ++ ['='] ++ value) := by
    rw [FrontMatter.read, hcommand]
  have hobey := obey_belonging hh (HeadLine.not_mem_spell h) hbelongs
  rw [hread] at hobey
  have hplain : '=' ∉ key → converter.front.assign (key ++ ['='] ++ value) = converter.front.apply key value :=
    fun hkey => FrontMatter.assign_eq_apply hkey value converter.front
  refine ⟨_, line_of_obey hobey, hplain, ?_, fun settings hreach => ⟨fun hsame hkey => ?_, hplain⟩⟩
  · rintro first second rfl hfirst
    exact FrontMatter.assign_eq_apply_first hfirst second value converter.front
  · exact FrontMatter.not_assignable_apply hkey value converter.front
      (hsame ▸ hreach.assignable.assign (key ++ ['='] ++ value))

/-- Behind another command, and with an equals sign in the value only. -/
theorem line_spell_value :
    let converter := ((Converter.new Settings.default).obey (.line "$title: a".toList)).1
    converter.progress.mode.head = true ∧ HeadLine.Spellable "font".toList "size=12pt: b".toList ∧
      Reachable Settings.default converter ∧
      converter.line "$font: size=12pt: b".toList =
        ({ converter with front := converter.front.apply "font".toList "size=12pt: b".toList }, .ok []) := by
  intro converter
  have hh : converter.progress.mode.head = true := by decide +kernel
  have hspell : HeadLine.Spellable "font".toList "size=12pt: b".toList := by
    refine ⟨by decide, by decide, by decide, fun c hc => ?_⟩
    cases hc
    decide
  have hreach : Reachable Settings.default converter := .obey _ .new
  obtain ⟨front, hline, -, -, hfront⟩ := line_spell hh hspell
  rw [(hfront Settings.default hreach).2 (by decide)] at hline
  exact ⟨hh, hspell, hreach, hline⟩

/-- A key with an equals sign sets the title. -/
theorem not_line_spell :
    ¬ ∀ (converter : Converter) (key value : Text), converter.progress.mode.head = true →
      HeadLine.Spellable key value → converter.line (HeadLine.spell key value) =
        ({ converter with front := converter.front.apply key value }, .ok []) := by
  intro h
  have hspell : HeadLine.Spellable "title=x".toList "y".toList := by
    refine ⟨by decide, by decide, by decide, fun c hc => ?_⟩
    cases hc
    decide
  have hfront := congrArg (fun found => found.1.front) (h (.new Settings.default) _ _ rfl hspell)
  have hactual : ((Converter.new Settings.default).line "$title=x: y".toList).1.front =
      FrontMatter.empty.apply "title".toList "x=y".toList := by decide +kernel
  have hclash := hactual.symm.trans hfront
  revert hclash
  decide

end Commands

end Converter

end Lectern
