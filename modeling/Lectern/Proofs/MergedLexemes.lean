import Mathlib.Data.List.Chain
import Lectern.Converter

/-!
# Neighbouring texts as one

`Lexeme.merge` makes one lexeme of texts that stand next to each other. All that is behind some fragments counts for
one in front of them twice: as what is printed, and as the space that keeps a control word from it. That is their
**`Fragment.face`**, and it is a function of the first fragment and of the face of the others (`face_cons`), the same
for two texts and for the one that they are together, if the first is not empty (`onto_text_text`). How a lexeme is
rendered does not depend on what follows (`renderLexemes_cons`), and a text leaves the open lists alone. So
**`merge_conserves`** goes from one lexeme to the next, whichever of them open lists, fail to, or are no token.
-/

set_option autoImplicit false

namespace Lectern

/-! ## Faces -/

namespace Fragment

/-- The space that keeps a bare control word from the fragments behind it. -/
def space : List Fragment → Text
  | [] => []
  | next :: _ => wordSpace next.print

/-- What counts of fragments for those in front of them. -/
def face (fragments : List Fragment) : Text × Text := (space fragments, printAll fragments)

/-- The face with one more fragment in front. -/
def onto (fragment : Fragment) (behind : Text × Text) : Text × Text :=
  (wordSpace fragment.print, fragment.print ++ (if fragment.isBareControl then behind.1 else []) ++ behind.2)

theorem face_cons (fragment : Fragment) (fragments : List Fragment) :
    face (fragment :: fragments) = onto fragment (face fragments) := by
  cases fragments with
  | nil => simp [face, space, onto, printAll]
  | cons next fragments => rfl

theorem onto_text (content : Text) (behind : Text × Text) :
    onto (.text content) behind = (wordSpace content, content ++ behind.2) :=
  congrArg (fun printed => (wordSpace content, printed ++ behind.2)) (List.append_nil content)

/-- Two texts look from in front as one, if there is a character in the first. -/
theorem onto_text_text {a : Text} (ha : a ≠ []) (b : Text) (behind : Text × Text) :
    onto (.text a) (onto (.text b) behind) = onto (.text (a ++ b)) behind := by
  rw [onto_text, onto_text, onto_text, List.append_assoc]
  cases a with
  | nil => exact absurd rfl ha
  | cons c a => rfl

end Fragment

/-! ## One lexeme after the other -/

namespace Progress

section

variable [Memory]

/-- What is printed for lexemes, and how far the document is behind them. -/
def printLexemes (indentation : Indentation) (lexemes : List Lexeme) (progress : Progress) :
    Progress × Except Failure Text :=
  (progress.renderLexemes indentation lexemes).map id (Except.map Fragment.printAll)

/-- Whether a lexeme can be rendered is known without the lexemes behind it, which are rendered next. -/
theorem renderLexemes_cons (indentation : Indentation) (lexeme : Lexeme) (progress : Progress) :
    (∃ next failure, ∀ lexemes, renderLexemes indentation (lexeme :: lexemes) progress = (next, .error failure)) ∨
      ∃ next fragment, ∀ lexemes, renderLexemes indentation (lexeme :: lexemes) progress =
        (renderLexemes indentation lexemes next).map id (Except.map (fragment :: ·)) := by
  simp only [renderLexemes]
  cases lexeme.token? with
  | error failure => exact .inl ⟨progress, .lexeme failure, fun _ => rfl⟩
  | ok token =>
    dsimp only
    rcases progress.render indentation token with ⟨next, failure | fragment⟩
    · exact .inl ⟨next, failure, fun _ => rfl⟩
    · refine .inr ⟨next, fragment, fun lexemes => ?_⟩
      dsimp only
      rcases renderLexemes indentation lexemes next with ⟨last, failure | fragments⟩ <;> rfl

theorem renderLexemes_text (indentation : Indentation) (a : Text) (lexemes : List Lexeme) (progress : Progress) :
    renderLexemes indentation (⟨.textContent, a⟩ :: lexemes) progress =
      (renderLexemes indentation lexemes progress).map id (Except.map (.text a :: ·)) := by
  simp only [renderLexemes, Lexeme.token?, render, Token.fragment, Token.fragmentWith, Except.mapError]
  rcases renderLexemes indentation lexemes progress with ⟨last, failure | fragments⟩ <;> rfl

/-- The face of what is rendered for lexemes. -/
def faceLexemes (indentation : Indentation) (lexemes : List Lexeme) (progress : Progress) :
    Progress × Except Failure (Text × Text) :=
  (progress.renderLexemes indentation lexemes).map id (Except.map Fragment.face)

theorem printLexemes_eq (indentation : Indentation) (lexemes : List Lexeme) (progress : Progress) :
    progress.printLexemes indentation lexemes =
      (progress.faceLexemes indentation lexemes).map id (Except.map Prod.snd) := by
  rw [printLexemes, faceLexemes]
  rcases progress.renderLexemes indentation lexemes with ⟨last, failure | fragments⟩ <;> rfl

end

theorem map_face (fragment : Fragment) (result : Progress × Except Failure (List Fragment)) :
    (result.map id (Except.map (fragment :: ·))).map id (Except.map Fragment.face) =
      (result.map id (Except.map Fragment.face)).map id (Except.map fragment.onto) := by
  rcases result with ⟨progress, failure | fragments⟩
  · rfl
  · exact congrArg (fun face => (progress, Except.ok face)) (Fragment.face_cons fragment fragments)

end Progress

/-! ## Merging -/

namespace Lexeme

/-- Whether a lexeme is text. -/
def isText (lexeme : Lexeme) : Bool := lexeme.kind = .textContent

/-- What a lexeme contributes to a list, whatever it is merged with: a text its characters, another lexeme itself. -/
def units (lexeme : Lexeme) : List (Char ⊕ Lexeme) :=
  if lexeme.isText then lexeme.value.map .inl else [.inr lexeme]

/-- Lexemes of which no two neighbours are texts. -/
def Apart (lexemes : List Lexeme) : Prop :=
  lexemes.IsChain fun lexeme next => ¬ (lexeme.isText = true ∧ next.isText = true)

variable {lexeme : Lexeme} {lexemes : List Lexeme}

theorem exists_of_isText (h : lexeme.isText = true) : ∃ a, lexeme = ⟨.textContent, a⟩ := by
  obtain ⟨kind, a⟩ := lexeme
  exact ⟨a, congrArg (Lexeme.mk · a) (of_decide_eq_true h)⟩

/-- A lexeme in front of lexemes that are merged already is either a text that its neighbour goes into, or stays. -/
theorem merge_cons (lexeme : Lexeme) (lexemes : List Lexeme) :
    (∃ a b merged, lexeme = ⟨.textContent, a⟩ ∧ merge lexemes = ⟨.textContent, b⟩ :: merged ∧
        merge (lexeme :: lexemes) = ⟨.textContent, a ++ b⟩ :: merged) ∨
      ((∀ next ∈ (merge lexemes).head?, ¬ (lexeme.isText = true ∧ next.isText = true)) ∧
        merge (lexeme :: lexemes) = lexeme :: merge lexemes) := by
  rw [merge.eq_def (lexeme :: lexemes)]
  dsimp only
  split
  · next a b merged heq => exact .inl ⟨a, b, merged, rfl, heq, rfl⟩
  · next lexeme _ _ hother =>
    refine .inr ⟨?_, rfl⟩
    rintro next hnext ⟨hlexeme, htext⟩
    obtain ⟨merged, heq⟩ := List.head?_eq_some_iff.1 hnext
    obtain ⟨a, rfl⟩ := exists_of_isText hlexeme
    obtain ⟨b, rfl⟩ := exists_of_isText htext
    exact hother a b merged rfl heq

theorem apart_merge (lexemes : List Lexeme) : Apart (merge lexemes) := by
  induction lexemes with
  | nil => exact .nil
  | cons lexeme lexemes ih =>
    rcases merge_cons lexeme lexemes with ⟨a, b, merged, rfl, heq, hmerge⟩ | ⟨happart, hmerge⟩
    · rw [heq] at ih
      rw [hmerge]
      -- the text in front of what is merged already is one of which only the value is another
      cases ih with
      | singleton => exact .singleton _
      | cons_cons hnext hrest => exact .cons_cons hnext hrest
    · rw [hmerge]
      exact List.isChain_cons.2 ⟨happart, ih⟩

/-- There is nothing to merge where texts are apart. -/
theorem merge_of_apart (h : Apart lexemes) : merge lexemes = lexemes := by
  induction lexemes with
  | nil => rfl
  | cons lexeme lexemes ih =>
    obtain ⟨happart, hrest⟩ := List.isChain_cons.1 h
    have heq := ih hrest
    rcases merge_cons lexeme lexemes with ⟨a, b, merged, rfl, hmerged, -⟩ | ⟨-, hmerge⟩
    · rw [heq] at hmerged
      exact absurd ⟨rfl, rfl⟩ (happart ⟨.textContent, b⟩ (by rw [hmerged]; rfl))
    · rw [hmerge, heq]

/-- Merging puts no character and no lexeme elsewhere. -/
theorem units_merge (lexemes : List Lexeme) : (merge lexemes).flatMap units = lexemes.flatMap units := by
  induction lexemes with
  | nil => rfl
  | cons lexeme lexemes ih =>
    rcases merge_cons lexeme lexemes with ⟨a, b, merged, rfl, heq, hmerge⟩ | ⟨-, hmerge⟩
    · rw [hmerge, List.flatMap_cons, List.flatMap_cons, ← ih, heq, List.flatMap_cons]
      simp [units, isText]
    · rw [hmerge, List.flatMap_cons, List.flatMap_cons, ih]

/-- The lexemes that are no texts are among what a list is made of. -/
theorem filter_eq_filterMap_units (lexemes : List Lexeme) :
    lexemes.filter (fun lexeme => !lexeme.isText) = (lexemes.flatMap units).filterMap Sum.getRight? := by
  induction lexemes with
  | nil => rfl
  | cons lexeme lexemes ih =>
    rw [List.flatMap_cons, List.filterMap_append, ← ih, units]
    cases h : lexeme.isText with
    | false => simp [h]
    | true => simp [h, List.filterMap_map, Function.comp_def]

/-- Texts that are not empty look the same from in front, merged or not. -/
theorem faceLexemes_merge [Memory] (h : ∀ lexeme ∈ lexemes, lexeme.isText = true → lexeme.value ≠ [])
    (indentation : Indentation) (progress : Progress) :
    progress.faceLexemes indentation (merge lexemes) = progress.faceLexemes indentation lexemes := by
  induction lexemes generalizing progress with
  | nil => rfl
  | cons lexeme lexemes ih =>
    obtain ⟨hfirst, hrest⟩ := List.forall_mem_cons.1 h
    simp only [Progress.faceLexemes] at ih ⊢
    rcases merge_cons lexeme lexemes with ⟨a, b, merged, rfl, heq, hmerge⟩ | ⟨-, hmerge⟩
    · have hbehind := ih hrest progress
      rw [heq, Progress.renderLexemes_text, Progress.map_face] at hbehind
      rw [hmerge, Progress.renderLexemes_text, Progress.renderLexemes_text, Progress.map_face, Progress.map_face,
        ← hbehind]
      rcases progress.renderLexemes indentation merged with ⟨last, failure | fragments⟩
      · rfl
      · have hface := Fragment.onto_text_text (hfirst rfl) b (Fragment.face fragments)
        exact congrArg (fun face => (last, Except.ok face)) hface.symm
    · rw [hmerge]
      rcases Progress.renderLexemes_cons indentation lexeme progress with
        ⟨next, failure, hfails⟩ | ⟨next, fragment, hgoes⟩
      · rw [hfails, hfails]
      · rw [hgoes, hgoes, Progress.map_face, Progress.map_face, ih hrest]

/-- **Merging neighbouring texts changes nothing that is written.** If no text is empty, the merged lexemes are
rendered as the lexemes are, wherever that is: with the same outcome, be it the text or the failure, and with the same
progress behind them. Any merged lexemes have no two texts side by side, the other lexemes are what they were and where
they were among the characters of the texts, and there is nothing left to merge. -/
theorem merge_conserves [Memory] (lexemes : List Lexeme) :
    ((∀ lexeme ∈ lexemes, lexeme.isText = true → lexeme.value ≠ []) →
      ∀ (indentation : Indentation) (progress : Progress),
        progress.printLexemes indentation (merge lexemes) = progress.printLexemes indentation lexemes) ∧
    Apart (merge lexemes) ∧
    (merge lexemes).filter (fun lexeme => !lexeme.isText) = lexemes.filter (fun lexeme => !lexeme.isText) ∧
    (merge lexemes).flatMap units = lexemes.flatMap units ∧
    merge (merge lexemes) = merge lexemes := by
  refine ⟨fun h indentation progress => ?_, apart_merge lexemes, ?_, units_merge lexemes,
    merge_of_apart (apart_merge lexemes)⟩
  · rw [Progress.printLexemes_eq, faceLexemes_merge h, ← Progress.printLexemes_eq]
  · rw [filter_eq_filterMap_units, units_merge, ← filter_eq_filterMap_units]

/-- In a math block the text behind a control word comes in three pieces, and the items of lists come in between; then
the same lexemes with a level that is no numeral behind them. -/
theorem merge_conserves_items :
    let lexemes : List Lexeme := [⟨.arrow, "->".toList⟩, ⟨.textContent, ['a']⟩, ⟨.textContent, ['b']⟩,
      ⟨.textContent, [' ']⟩, ⟨.bullet, ['2']⟩, ⟨.symbol, ">=".toList⟩, ⟨.enumerate, ['1']⟩, ⟨.textContent, ['c']⟩]
    let fails : Lexeme := ⟨.bullet, ['x']⟩
    let progress : Progress := ⟨⟨false, false, "$$".toList⟩, ⟨[.itemize], []⟩, []⟩
    let behind : Progress := { progress with outline := ⟨[.enumerate], [⟨1, .opens .itemize⟩, ⟨1, .closes .itemize⟩,
      ⟨0, .closes .itemize⟩, ⟨0, .opens .enumerate⟩]⟩ }
    (∀ lexeme ∈ lexemes ++ [fails], lexeme.isText = true → lexeme.value ≠ []) ∧
      (merge lexemes).length + 2 = lexemes.length ∧
      progress.printLexemes (.spaces 4) (merge lexemes) =
        (behind, .ok "\\rightarrow ab \\item \\geq\\item c".toList) ∧
      progress.printLexemes (.spaces 4) (merge (lexemes ++ [fails])) =
        (behind, .error (.lexeme (.numeral (.malformed ['x'])))) := by
  intro lexemes fails progress behind
  have hall : ∀ lexeme ∈ lexemes ++ [fails], lexeme.isText = true → lexeme.value ≠ [] := by decide
  have hsome : ∀ lexeme ∈ lexemes, lexeme.isText = true → lexeme.value ≠ [] :=
    fun lexeme hmem => hall lexeme (List.mem_append_left _ hmem)
  refine ⟨hall, by decide, ?_, ?_⟩
  · rw [(merge_conserves lexemes).1 hsome]
    decide +kernel
  · rw [(merge_conserves (lexemes ++ [fails])).1 hall]
    decide +kernel

/-- An empty text in front of a letter leaves the control word without its space, and merging brings it back. -/
example :
    let lexemes : List Lexeme := [⟨.arrow, "->".toList⟩, ⟨.textContent, []⟩, ⟨.textContent, ['a']⟩]
    let progress : Progress := ⟨⟨false, false, "$$".toList⟩, .empty, []⟩
    (progress.printLexemes (.spaces 4) lexemes).2.toOption = some "\\rightarrowa".toList ∧
      (progress.printLexemes (.spaces 4) (merge lexemes)).2.toOption = some "\\rightarrow a".toList := by decide +kernel

end Lexeme

end Lectern
