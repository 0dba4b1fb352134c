import Lectern.Proofs.Attempts
import Lectern.Proofs.HeadAndBody
import Lectern.Proofs.Streaming

/-!
# How a document begins

The beginning of a document holds what the commands in the head of the notes say, and what the settings say where there
is no command. Of the commands with the key of the title, of the author or of the date the last one counts; all of those
that ask for packages count, in their order (`FrontMatter.obeyAll_values`). Converting lines obeys these commands and no
others (`Document.front_of_feedAll`), so **`Document.begins_of_convertLines`** says how every document begins.
-/

set_option autoImplicit false

namespace Lectern

/-! ## Commands -/

/-- The values of the commands that have a key, in order. -/
def valuesOf (key : Text) (commands : List (Text × Text)) : List Text :=
  commands.filterMap fun command => if command.1 = key then some command.2 else none

theorem valuesOf_cons (key : Text) (command : Text × Text) (commands : List (Text × Text)) :
    valuesOf key (command :: commands) = (if command.1 = key then [command.2] else []) ++ valuesOf key commands := by
  rw [valuesOf, List.filterMap_cons]
  split
  · next h =>
    split at h
    · cases h
    · next hne =>
      rw [if_neg hne]
      rfl
  · next h =>
    split at h
    · next he =>
      cases h
      rw [if_pos he]
      rfl
    · cases h

/-- A line of the head as a command: a key and its value. -/
def HeadLine.decoded? (line : Text) : Option (Text × Text) :=
  (command? line).map fun command => FrontMatter.splitAssignment (command.1 ++ ['='] ++ command.2)

namespace FrontMatter

variable {front : FrontMatter}

/-- Obeys commands one after the other. -/
def obeyAll (commands : List (Text × Text)) (front : FrontMatter) : FrontMatter :=
  commands.foldl (fun front command => front.apply command.1 command.2) front

theorem readAll_eq (lines : List Text) (front : FrontMatter) :
    front.readAll lines = front.obeyAll (lines.filterMap HeadLine.decoded?) := by
  induction lines generalizing front with
  | nil => rfl
  | cons line lines ih =>
    have hrest : front.readAll (line :: lines) = (front.read line).readAll lines := rfl
    rw [hrest, ih, read, List.filterMap_cons, HeadLine.decoded?]
    cases HeadLine.command? line with
    | none => rfl
    | some command => rfl

/-- What a command says of the title, the author, the date and the packages. -/
theorem apply_values (key value : Text) (front : FrontMatter) :
    (front.apply key value).title? = (if key = "title".toList then some value else front.title?) ∧
      (front.apply key value).author? = (if key = "author".toList then some value else front.author?) ∧
      (front.apply key value).date? = (if key = "date".toList then some value else front.date?) ∧
      (front.apply key value).packages =
        front.packages ++ (if key = "usepackage".toList then [value] else []) := by
  by_cases ht : key = "title".toList
  · subst ht
    exact ⟨rfl, rfl, rfl, (List.append_nil _).symm⟩
  by_cases ha : key = "author".toList
  · subst ha
    exact ⟨rfl, rfl, rfl, (List.append_nil _).symm⟩
  by_cases hd : key = "date".toList
  · subst hd
    exact ⟨rfl, rfl, rfl, (List.append_nil _).symm⟩
  by_cases hp : key = "usepackage".toList
  · subst hp
    exact ⟨rfl, rfl, rfl, rfl⟩
  rw [apply, if_neg ht, if_neg ha, if_neg hd, if_neg hp, if_neg ht, if_neg ha, if_neg hd, if_neg hp]
  exact ⟨rfl, rfl, rfl, (List.append_nil _).symm⟩

/-- The last command for a property counts, and all that ask for packages. -/
theorem obeyAll_values (commands : List (Text × Text)) (front : FrontMatter) :
    (front.obeyAll commands).title? = (valuesOf "title".toList commands).getLast?.or front.title? ∧
      (front.obeyAll commands).author? = (valuesOf "author".toList commands).getLast?.or front.author? ∧
      (front.obeyAll commands).date? = (valuesOf "date".toList commands).getLast?.or front.date? ∧
      (front.obeyAll commands).packages = front.packages ++ valuesOf "usepackage".toList commands := by
  induction commands generalizing front with
  | nil => exact ⟨rfl, rfl, rfl, (List.append_nil _).symm⟩
  | cons command commands ih =>
    obtain ⟨key, value⟩ := command
    have hlast : ∀ (name : Text) (old : Option Text),
        (valuesOf name ((key, value) :: commands)).getLast?.or old =
          (valuesOf name commands).getLast?.or (if key = name then some value else old) := by
      intro name old
      rw [valuesOf_cons, List.getLast?_append, Option.or_assoc]
      dsimp only
      split <;> rfl
    obtain ⟨htitle, hauthor, hdate, hpackages⟩ := apply_values key value front
    obtain ⟨ihtitle, ihauthor, ihdate, ihpackages⟩ := ih (front.apply key value)
    rw [hlast, hlast, hlast, valuesOf_cons, ← List.append_assoc]
    rw [htitle] at ihtitle
    rw [hauthor] at ihauthor
    rw [hdate] at ihdate
    rw [hpackages] at ihpackages
    exact ⟨ihtitle, ihauthor, ihdate, ihpackages⟩

end FrontMatter

/-! ## Lines -/

namespace Document

variable {settings : Settings} {lines : List Text} {converter : Converter}

/-- The commands in the head of notes; notes that do not begin with a dollar have no head. -/
def headCommands (lines : List Text) : List (Text × Text) :=
  if headed lines then (Notes.divide lines).head.filterMap HeadLine.decoded? else []

/-- Feeding a line leaves the converter that a call with it leaves. -/
theorem feed_fst [Memory] {line : Text} (hl : '\n' ∉ line) (converter : Converter) :
    (feed line converter).1 = (converter.obey (.line line)).1 := by
  by_cases hh : converter.progress.mode.head = true
  · rw [Converter.obey_line, splitTerminator_of_not_mem hl, Converter.contentLine, if_pos hh, feed, if_pos hh]
  · rw [feed_eq_obey, call, if_neg hh]

/-- Feeding lines leaves the converter that calls with them leave. -/
theorem feedAll_fst [Memory] {texts : List Text} (hl : ∀ line ∈ lines, '\n' ∉ line)
    (h : (feedAll lines converter).2 = .ok texts) :
    (feedAll lines converter).1 = converter.after (lines.map .line) := by
  induction lines generalizing converter texts with
  | nil => rfl
  | cons line lines ih =>
    obtain ⟨hline, hlines⟩ := List.forall_mem_cons.1 hl
    cases hf : (feed line converter).2 with
    | error failure =>
      rw [feedAll_cons_of_error hf] at h
      cases h
    | ok text =>
      rw [feedAll_cons_of_ok hf] at h ⊢
      obtain ⟨rest, hrest⟩ := (exists_ok_map _ _).1 ⟨texts, h⟩
      rw [List.map_cons, Converter.after, ← feed_fst hline]
      exact ih hlines hrest

/-- The commands of the head are obeyed, and nothing else changes the front matter. -/
theorem front_of_feedAll [Memory] {texts : List Text} (hl : ∀ line ∈ lines, '\n' ∉ line)
    (h : (feedAll lines (start settings lines)).2 = .ok texts) :
    (feedAll lines (start settings lines)).1.front = FrontMatter.empty.obeyAll (headCommands lines) := by
  have hended : ∀ front : FrontMatter,
      ({ (Converter.new settings).endHead with front } : Converter).progress.mode.Sound := fun _ => ⟨rfl, .inl rfl⟩
  rw [feedAll_fst hl h, start_eq_ite, headCommands]
  split
  · -- no line behind the head says anything of the front matter
    obtain ⟨-, hahead, hbody⟩ := @Converter.run_ahead _ (Converter.new settings) rfl lines hl
    have hsplit : lines.map Call.line =
        (Notes.divide lines).ahead.map .line ++ (Notes.divide lines).body.map .line := by
      rw [← List.map_append, Notes.lines_divide]
    rw [← FrontMatter.readAll_eq, hsplit, Converter.after_append]
    rcases hbody with hnone | ⟨-, hafter⟩
    · rw [hnone]
      exact hahead
    · rw [hafter, Converter.front_after (hended _)]
      rfl
  · exact Converter.front_after (hended .empty) (lines.map .line)

/-- The beginning of a document with a title, an author, a date and packages besides the base packages. -/
def opening (title author date : Text) (settings : Settings) (packages : List Text) : Text :=
  Fragment.command "title" title ++ ['\n'] ++ Fragment.command "author" author ++ ['\n'] ++
    Fragment.command "date" date ++ "\n\n".toList ++
    "\\documentclass[".toList ++ settings.classOptions ++ "]\x7b".toList ++ settings.documentClass ++
    "\x7d\n\n\n".toList ++
    (basePackages ++ packages.map (Fragment.command "usepackage")).flatMap (· ++ "\n\n".toList) ++
    "\n\\begin\x7bdocument\x7d\n\n\n\\maketitle\n\n".toList

/-- The last command counts, or what the settings say if there is none; packages are all loaded. -/
theorem preamble_obeyAll (settings : Settings) (commands : List (Text × Text)) :
    preamble settings (FrontMatter.empty.obeyAll commands) =
      opening ((valuesOf "title".toList commands).getLast?.getD settings.title)
        ((valuesOf "author".toList commands).getLast?.getD settings.author)
        ((valuesOf "date".toList commands).getLast?.getD settings.date) settings
        (settings.packages ++ valuesOf "usepackage".toList commands) := by
  obtain ⟨htitle, hauthor, hdate, hpackages⟩ := FrontMatter.obeyAll_values commands .empty
  have hnone : ∀ last? : Option Text, last?.or none = last? := fun _ => Option.or_none
  have hempty : FrontMatter.empty = ⟨none, none, none, [], []⟩ := rfl
  rw [hempty] at htitle hauthor hdate hpackages ⊢
  simp only [preamble, opening, htitle, hauthor, hdate, hpackages, hnone, List.nil_append]

/-- A document begins with what its settings and the commands in the head of the notes say. -/
theorem begins_of_convertLines [Memory] {document : Text} (hl : ∀ line ∈ lines, '\n' ∉ line)
    (h : (convertLines settings lines).document = .ok document) :
    (∀ line ∈ lines, (line.length : Int) ≤ settings.maxLineLength) ∧
      ∃ rest, document =
        opening ((valuesOf "title".toList (headCommands lines)).getLast?.getD settings.title)
          ((valuesOf "author".toList (headCommands lines)).getLast?.getD settings.author)
          ((valuesOf "date".toList (headCommands lines)).getLast?.getD settings.date) settings
          (settings.packages ++ valuesOf "usepackage".toList (headCommands lines)) ++ '\n' :: rest := by
  unfold convertLines at h
  split at h
  · cases h
  · next hshort =>
    refine ⟨(tooLong?_eq_none_iff 1).1 hshort, ?_⟩
    cases hf : feedAll lines (start settings lines) with
    | mk behind result =>
      rw [hf] at h
      cases result with
      | error failure => cases h
      | ok texts =>
        have htexts : (feedAll lines (start settings lines)).2 = .ok texts := congrArg Prod.snd hf
        obtain ⟨-, hsettings, -⟩ := sound_feedAll hl (ready_start settings lines).sound htexts
        have hfront := front_of_feedAll hl htexts
        rw [hf] at hsettings hfront
        obtain ⟨text, -, rfl⟩ := exists_of_map_eq_ok h
        refine ⟨texts.flatMap (· ++ ['\n']) ++ text ++ ['\n'], ?_⟩
        have hpreamble : behind.close.1.preamble =
            preamble settings (FrontMatter.empty.obeyAll (headCommands lines)) := by
          rw [← hfront, ← settings_start settings lines, ← hsettings]
          rfl
        rw [intercalate_eq, hpreamble, preamble_obeyAll]
        simp only [List.append_assoc]
        rfl

end Document

end Lectern
