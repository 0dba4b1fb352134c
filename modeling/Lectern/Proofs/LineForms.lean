import Lectern.Proofs.Findings
import Lectern.Proofs.HeadAndBody
import Lectern.Proofs.OutsideLines

/-!
# What reading makes of a line

Raw text is classified in a loop that looks at one place of a list of tokens: a token that is classified is passed over,
raw text is replaced, and then the same place is looked at again (`Worklist.turn?`). Every turn makes what is still
ahead lighter and leaves what it will be settled to as it is (`Worklist.turn?_cases`), so the loop ends, and it ends
with the settled tokens (`Worklist.ends_settle`). The rules for the start of a line put no more ahead of it than the
line (`light_readStart`), which bounds the number of turns.

What comes of it is **`WellFormed`**: nothing is raw, a token that takes up a line stands alone, a list marker stands
first, glyphs are those of the tables and no text is empty (`filled_of_mem_readInline`). **`read_wellFormed`** says so
of every line, and that of all that a converter remembers reading can only end the head and open or close one block.
-/

set_option autoImplicit false

namespace Lectern

/-! ## The loop -/

/-- A list of tokens in which raw text is being classified: those that are done and those from the place that is looked
at. -/
structure Worklist where
  done : List Token
  ahead : List Token
deriving DecidableEq, Repr

namespace Worklist

/-- One turn of the loop, unless the end of the list is reached: raw text is replaced, any other token is done. -/
def turn? (mode : Mode) : Worklist → Option Worklist
  | ⟨_, []⟩ => none
  | ⟨done, .raw s :: ahead⟩ => some ⟨done, SpanRule.cut mode s ++ ahead⟩
  | ⟨done, t :: ahead⟩ => some ⟨done ++ [t], ahead⟩

/-- The loop ends after a number of turns, and these are its tokens then. -/
inductive Ends (mode : Mode) : Nat → Worklist → List Token → Prop
  | here {work : Worklist} : work.turn? mode = none → Ends mode 0 work work.done
  | turn {turns : Nat} {work next : Worklist} {tokens : List Token} : work.turn? mode = some next →
      Ends mode turns next tokens → Ends mode (turns + 1) work tokens

/-- The tokens that the loop is to end with. -/
def target (mode : Mode) (work : Worklist) : List Token := work.done ++ settle mode work.ahead

variable {mode : Mode}

/-- A turn leads on to the same tokens, with less ahead; there is none at the end of the list only. -/
theorem turn?_cases (mode : Mode) (work : Worklist) :
    (work.turn? mode = none ∧ work.target mode = work.done) ∨
      ∃ next, work.turn? mode = some next ∧ next.target mode = work.target mode ∧
        SpanRule.weight next.ahead < SpanRule.weight work.ahead := by
  obtain ⟨done, ahead⟩ := work
  cases ahead with
  | nil => exact .inl ⟨rfl, by rw [target, settle, List.append_nil]⟩
  | cons t ahead =>
    right
    by_cases ht : ∃ s, t = .raw s
    · obtain ⟨s, rfl⟩ := ht
      refine ⟨⟨done, SpanRule.cut mode s ++ ahead⟩, rfl, by rw [target, target, settle.eq_2], ?_⟩
      have hcut := SpanRule.weight_cut_lt mode s
      simp only [SpanRule.weight_append, SpanRule.weight] at hcut ⊢
      omega
    · have hraw : ∀ s, t ≠ .raw s := fun s he => ht ⟨s, he⟩
      refine ⟨⟨done ++ [t], ahead⟩, ?_, ?_, SpanRule.weight_lt_cons t ahead⟩
      · cases t with
        | raw s => exact absurd rfl (hraw s)
        | _ => rfl
      · rw [target, target, settle_cons hraw, List.append_assoc, List.singleton_append]

/-- **The loop ends with the settled tokens**, and the weight of what is ahead bounds its turns. -/
theorem ends_settle (mode : Mode) (work : Worklist) :
    ∃ turns, turns ≤ SpanRule.weight work.ahead ∧ Ends mode turns work (work.target mode) := by
  induction hn : SpanRule.weight work.ahead using Nat.strongRecOn generalizing work with
  | ind n ih =>
    rcases turn?_cases mode work with ⟨hend, htarget⟩ | ⟨next, hturn, htarget, hlt⟩
    · exact ⟨0, Nat.zero_le _, htarget ▸ .here hend⟩
    · obtain ⟨turns, hturns, hends⟩ := ih _ (hn ▸ hlt) next rfl
      exact ⟨turns + 1, by omega, .turn hturn (htarget ▸ hends)⟩

end Worklist

/-! ## Tokens that are not empty -/

/-- An inline token with something in it: a character at least, or a glyph of its table. -/
inductive Token.Filled : Token → Prop
  | text {content : Text} : content ≠ [] → Filled (.text content)
  | arrow {glyph : Glyph} : glyph ∈ Glyph.arrows → Filled (.arrow glyph)
  | comparison {glyph : Glyph} : glyph ∈ Glyph.comparisons → Filled (.comparison glyph)
  | bold {body : Text} : body ≠ [] → Filled (.bold body)
  | italic {body : Text} : body ≠ [] → Filled (.italic body)
  | verbatim {body : Text} : body ≠ [] → Filled (.verbatim body)
  | math {span : Text} : span ≠ [] → Filled (.math span)

section Filled

variable {mode : Mode} {rule : SpanRule} {s form : Text} {t : Token}

/-- Whatever a rule can find has something in it. -/
theorem filled_of_finds (h : rule.Finds t form) : t.Filled := by
  cases h with
  | dollar | bar | twoStars | star => exact .text (by decide)
  | math _ hbody => exact .math (List.append_ne_nil_of_left_ne_nil (List.append_ne_nil_of_right_ne_nil _ hbody) _)
  | verbatim hbody _ => exact .verbatim hbody
  | escapedGlyph hmem => exact .text (Glyph.sign_ne_nil (SpanRule.mem_of_mem_glyphs hmem))
  | arrow hmem => exact .arrow hmem
  | comparison hmem => exact .comparison hmem
  | bold hbody => exact .bold hbody
  | italic hbody => exact .italic hbody

/-- No token of a text is empty. -/
theorem filled_of_mem_readInline (h : t ∈ readInline mode s) : t.Filled := by
  rcases finding_of_mem_readInline h with ⟨content, hne, rfl⟩ | ⟨rule, u, rest, -, hfound⟩
  · exact .text hne
  · obtain ⟨form, hfinds, -⟩ := SpanRule.exists_finds_of_front? hfound.front
    exact filled_of_finds hfinds

end Filled

/-! ## Tokens at the start of a line -/

/-- Tokens that are no heavier than some bound; no text in them is empty, and apart from what is still raw they have
nothing but ordinary text for a part of the line. -/
structure Light (bound : Nat) (tokens : List Token) : Prop where
  weight_le : SpanRule.weight tokens ≤ bound
  raw_ne_nil : ∀ u, .raw u ∈ tokens → u ≠ []
  isText : ∀ t ∈ tokens, t.isInline = true → t.IsText

section Light

variable {mode mode' : Mode} {rule : LineRule} {rules : List LineRule} {bound : Nat} {s rest : Text} {t : Token}
  {tokens more found : List Token}

theorem Light.nil (bound : Nat) : Light bound [] where
  weight_le := Nat.zero_le bound
  raw_ne_nil := fun _ h => by cases h
  isText := fun _ h => by cases h

theorem Light.append {bound' : Nat} (h : Light bound tokens) (hmore : Light bound' more) :
    Light (bound + bound') (tokens ++ more) where
  weight_le := by
    rw [SpanRule.weight_append]
    exact Nat.add_le_add h.weight_le hmore.weight_le
  raw_ne_nil := fun u hu => (List.mem_append.1 hu).elim (h.raw_ne_nil u) (hmore.raw_ne_nil u)
  isText := fun t ht => (List.mem_append.1 ht).elim (h.isText t) (hmore.isText t)

theorem Light.mono {bound' : Nat} (h : Light bound tokens) (hle : bound ≤ bound') : Light bound' tokens where
  weight_le := Nat.le_trans h.weight_le hle
  raw_ne_nil := h.raw_ne_nil
  isText := h.isText

theorem light_rawIfAny (s : Text) : Light (3 * s.length + 1) (Token.rawIfAny s) := by
  unfold Token.rawIfAny
  split
  · exact .nil _
  · next hs =>
    exact ⟨Nat.le_refl _, fun u hu => by cases List.mem_singleton.1 hu; exact hs, fun t ht hinline => by
      rw [List.mem_singleton.1 ht] at hinline
      cases hinline⟩

/-- A token by itself, which is ordinary text if it is inline. -/
theorem light_singleton (hraw : ∀ u, t ≠ .raw u) (ht : t.isInline = true → t.IsText) : Light 1 [t] where
  weight_le := by
    rw [SpanRule.weight_cons t [] hraw]
    exact Nat.le_refl _
  raw_ne_nil := fun u hu => absurd (List.mem_singleton.1 hu).symm (hraw u)
  isText := fun u hu => by
    rw [List.mem_singleton.1 hu]
    exact ht

/-- A token in front of raw text that is shorter than what both are made of. -/
theorem light_cons_rawIfAny (hraw : ∀ u, t ≠ .raw u) (ht : t.isInline = true → t.IsText)
    (hrest : rest.length < s.length) : Light (3 * s.length + 1) (t :: Token.rawIfAny rest) :=
  ((light_singleton hraw ht).append (light_rawIfAny rest)).mono (by omega)

/-- A line that is read as a command behind a backslash is one. -/
theorem HeadLine.escaped?_of_read? {text : Text} (h : read? s = some (.escaped text)) : escaped? s = some text := by
  unfold read? at h
  split at h
  · cases h
  · split at h
    · next hescaped =>
      cases h
      exact hescaped
    · split at h
      · cases h
      · split at h <;> cases h

/-- What follows a command behind a backslash is shorter than the line. -/
theorem HeadLine.length_lt_of_escaped? {text : Text} (h : escaped? s = some text) : text.length < s.length := by
  unfold escaped? at h
  split at h
  · next s =>
    obtain ⟨⟨key, behind⟩, hkey, h⟩ := Option.bind_eq_some_iff.1 h
    obtain ⟨value, hvalue, h⟩ := Option.bind_eq_some_iff.1 h
    cases h
    have hblanks := congrArg List.length (List.takeWhile_append_dropWhile (p := Text.isBlank) (l := behind))
    have hcontent : value.length ≤ (Text.trimStart behind).length := by
      simp only [Text.lineContent?] at hvalue
      split at hvalue
      · cases hvalue
        exact (List.takeWhile_prefix _).length_le
      · cases hvalue
    rw [eq_of_key? hkey]
    simp only [Text.trimStart, List.length_append, List.length_cons, List.length_nil] at hblanks hcontent ⊢
    omega
  · cases h

/-- The marker of a list item takes up a character at least, and what is behind it is shorter than the line. -/
theorem ListMarker.length_lt_of_readAfter? {kind : ListKind} {indent : Text} {marker : ListMarker}
    (h : readAfter? kind indent s = some marker) : marker.marker ≠ [] ∧ marker.rest.length < s.length := by
  obtain ⟨-, hs, hblank⟩ := parts_of_readAfter? h
  have hne : marker.marker ≠ [] := by
    intro hnil
    rw [hnil] at hblank
    cases hblank
  have hpos := List.length_pos_iff.2 hne
  rw [hs, List.length_append]
  exact ⟨hne, by omega⟩

theorem length_trimStart_le (s : Text) : (Text.trimStart s).length ≤ s.length := (List.dropWhile_suffix _).length_le

theorem light_readHeadLine (mode : Mode) (s : Text) : Light (3 * s.length + 1) (LineRule.readHeadLine mode s).2 := by
  unfold LineRule.readHeadLine
  split
  · exact light_rawIfAny s
  · split
    · exact (light_singleton (fun _ h => by cases h) fun h => by cases h).mono (by omega)
    · next text hread =>
      have hlt := HeadLine.length_lt_of_escaped? (HeadLine.escaped?_of_read? hread)
      exact light_cons_rawIfAny (fun _ h => by cases h) (fun _ => ⟨_, by decide, rfl⟩) hlt
    · exact .nil _
    · exact .nil _
    · exact light_rawIfAny s

theorem light_readHeading (mode : Mode) (s : Text) : Light (3 * s.length + 1) (LineRule.readHeading mode s) := by
  unfold LineRule.readHeading
  split
  · exact light_rawIfAny s
  · split
    · exact (light_singleton (fun _ h => by cases h) fun h => by cases h).mono (by omega)
    · next hescaped =>
      unfold escapedHeading? at hescaped
      split at hescaped
      · next tail _ =>
        cases hescaped
        have hrest := (List.dropWhile_suffix (l := tail) (· == '#')).length_le
        refine light_cons_rawIfAny (fun _ h => by cases h) (fun _ => ⟨_, List.cons_ne_nil _ _, rfl⟩) ?_
        simp only [List.length_cons]
        omega
      · cases hescaped
    · exact light_rawIfAny s

theorem light_readFence (mode : Mode) (hs : s ≠ []) : Light (3 * s.length + 1) (LineRule.readFence mode s).2 := by
  unfold LineRule.readFence
  split
  · exact (light_singleton (fun _ h => by cases h) fun h => by cases h).mono (by omega)
  · split
    · exact (light_singleton (fun _ h => by cases h) fun _ => ⟨_, hs, rfl⟩).mono (by omega)
    · exact light_rawIfAny s

theorem light_readMathBlock (h : (LineRule.readMathBlock mode s).2 = .ok tokens) :
    Light (3 * s.length + 1) tokens := by
  have hdelimiter : ∀ delimiter, Light (3 * s.length + 1) [.delimiter delimiter] := fun _ =>
    (light_singleton (fun _ h => by cases h) fun h => by cases h).mono (by omega)
  unfold LineRule.readMathBlock at h
  repeat' split at h
  all_goals cases h
  all_goals first | exact light_rawIfAny s | exact hdelimiter _

theorem light_readListMarker (kind : ListKind) (mode : Mode) (s : Text) :
    Light (3 * s.length + 1) (LineRule.readListMarker kind mode s) := by
  have htrim := length_trimStart_le s
  unfold LineRule.readListMarker
  split
  · exact light_rawIfAny s
  · split
    · next marker _ hread =>
      have hlt := (ListMarker.length_lt_of_readAfter? hread).2
      exact light_cons_rawIfAny (fun _ h => by cases h) (fun h => by cases h) (by omega)
    · next marker _ hescaped =>
      unfold ListMarker.escaped? at hescaped
      split at hescaped
      · next rest hrest =>
        obtain ⟨hne, hlt⟩ := ListMarker.length_lt_of_readAfter? hescaped
        rw [hrest, List.length_cons] at htrim
        exact light_cons_rawIfAny (fun _ h => by cases h) (fun _ => ⟨_, hne, rfl⟩) (by omega)
      · cases hescaped
    · exact light_rawIfAny s

/-- What a rule makes of a text is no heavier than the raw text. -/
theorem LineRule.light_read (hs : s ≠ []) (h : rule.read mode s = (mode', .ok tokens)) :
    Light (3 * s.length + 1) tokens := by
  have htokens := congrArg Prod.snd h
  cases rule with
  | headLine => exact Except.ok.inj htokens ▸ light_readHeadLine mode s
  | heading => exact Except.ok.inj htokens ▸ light_readHeading mode s
  | fence => exact Except.ok.inj htokens ▸ light_readFence mode hs
  | mathBlock => exact light_readMathBlock htokens
  | listMarker kind => exact Except.ok.inj htokens ▸ light_readListMarker kind mode s

/-- The rules for the start of a line make nothing heavier. -/
theorem light_readStart (hl : Light bound tokens) (h : readStart mode rules tokens = (mode', .ok found)) :
    Light bound found := by
  fun_induction readStart mode rules tokens with
  | case1 mode rule rules s tokens mode' found' hread ih =>
    refine ih ?_ h
    have hraw := hl.raw_ne_nil s List.mem_cons_self
    have htail : Light (SpanRule.weight tokens) tokens :=
      ⟨Nat.le_refl _, fun u hu => hl.raw_ne_nil u (List.mem_cons_of_mem _ hu), fun t ht =>
        hl.isText t (List.mem_cons_of_mem _ ht)⟩
    exact ((LineRule.light_read hraw hread).append htail).mono hl.weight_le
  | case2 => cases h
  | case3 =>
    cases h
    exact hl

/-- What the rules for the start make of a line is no heavier than the line. -/
theorem light_readStart_line {line : Text} (h : readStart mode LineRule.all [.raw line] = (mode', .ok found)) :
    Light (3 * line.length + 1) found := by
  by_cases hline : line = []
  · subst hline
    -- the head rule leaves nothing of an empty line, wherever it stands
    have hempty : ∃ mode'', LineRule.headLine.read mode [] = (mode'', .ok []) := by
      cases hh : mode.head with
      | false => exact ⟨mode, by simp [LineRule.read, LineRule.readHeadLine, hh, Token.rawIfAny]⟩
      | true =>
        have hblank : HeadLine.read? [] = some .blank := by decide
        exact ⟨mode, by simp [LineRule.read, LineRule.readHeadLine, hh, hblank]⟩
    obtain ⟨mode'', hempty⟩ := hempty
    simp only [LineRule.all, readStart, hempty, List.append_nil, Prod.mk.injEq, Except.ok.injEq] at h
    exact h.2 ▸ .nil _
  · exact light_readStart (rawIfAny_of_ne_nil hline ▸ light_rawIfAny line) h

/-- The inline tokens of a line are ordinary text or belong to some text that is read as inline. -/
theorem Light.of_mem_settle (hl : Light bound found) (h : t ∈ settle mode found) (ht : t.isInline = true) :
    t.IsText ∨ ∃ s, t ∈ readInline mode s := by
  rcases mem_settle h with ⟨hmem, -⟩ | ⟨s, -, hread⟩
  · exact .inl (hl.isText t hmem ht)
  · exact .inr ⟨s, hread⟩

/-- No inline token of a line is empty. -/
theorem Light.filled_of_mem_settle (hl : Light bound found) (h : t ∈ settle mode found) (ht : t.isInline = true) :
    t.Filled := by
  rcases hl.of_mem_settle h ht with ⟨content, hne, rfl⟩ | ⟨s, hread⟩
  · exact .text hne
  · exact filled_of_mem_readInline hread

/-- The tokens of a line are what the rules for its start leave, settled. -/
theorem exists_readStart_of_readLine {line : Text} (h : readLine mode line = (mode', .ok tokens)) :
    ∃ found, readStart mode LineRule.all [.raw line] = (mode', .ok found) ∧ settle mode' found = tokens := by
  rw [readLine] at h
  split at h
  · next mode' found hstart =>
    cases h
    exact ⟨found, hstart, rfl⟩
  · cases h

end Light

/-! ## Well-formed lines -/

namespace Lexeme

/-- Whether lexemes of a kind carry text of the line. -/
def Kind.isContent : Kind → Bool
  | .textContent | .bold | .italic | .verb | .math => true
  | _ => false

/-- Whether lexemes of a kind take up a line. -/
def Kind.isLine : Kind → Bool
  | .header | .section | .verbBlock | .mathBlock => true
  | _ => false

/-- Whether lexemes of a kind are list markers. -/
def Kind.isMarker : Kind → Bool
  | .bullet | .enumerate => true
  | _ => false

/-- A lexeme that is classified and has a value of its kind. -/
structure Sound (lexeme : Lexeme) : Prop where
  classified : lexeme.kind ≠ .unlexed
  content : lexeme.kind.isContent = true → lexeme.value ≠ []
  level : lexeme.kind.isMarker = true → ∃ level, 1 ≤ level ∧ lexeme.value = Numeral.write level
  arrow : lexeme.kind = .arrow → ∃ glyph ∈ Glyph.arrows, lexeme.value = glyph.sign
  comparison : lexeme.kind = .symbol → ∃ glyph ∈ Glyph.comparisons, lexeme.value = glyph.sign

theorem sound_of_isLine {lexeme : Lexeme} (h : lexeme.kind.isLine = true) : lexeme.Sound := by
  obtain ⟨kind, value⟩ := lexeme
  cases kind with
  | header | «section» | verbBlock | mathBlock => constructor <;> intro hkind <;> cases hkind
  | _ => cases h

theorem sound_of_filled {t : Token} (h : t.Filled) : t.lexeme.Sound := by
  cases h with
  | arrow hmem => refine ⟨?_, ?_, ?_, fun _ => ⟨_, hmem, rfl⟩, ?_⟩ <;> intro hkind <;> cases hkind
  | comparison hmem => refine ⟨?_, ?_, ?_, ?_, fun _ => ⟨_, hmem, rfl⟩⟩ <;> intro hkind <;> cases hkind
  | text hne | bold hne | italic hne | verbatim hne | math hne =>
    refine ⟨?_, fun _ => hne, ?_, ?_, ?_⟩ <;> intro hkind <;> cases hkind

theorem sound_item (kind : ListKind) (depth : Nat) : (Token.item kind (depth + 1)).lexeme.Sound := by
  have hlevel : ∃ level, 1 ≤ level ∧ Numeral.write (depth + 1) = Numeral.write level :=
    ⟨depth + 1, Nat.le_add_left 1 depth, rfl⟩
  cases kind with
  | itemize | enumerate => refine ⟨?_, ?_, fun _ => hlevel, ?_, ?_⟩ <;> intro hkind <;> cases hkind

end Lexeme

/-- The lexemes of a line: what takes up a line stands alone, and a list marker stands first. -/
structure WellFormed (lexemes : List Lexeme) : Prop where
  sound : ∀ lexeme ∈ lexemes, lexeme.Sound
  alone : ∀ lexeme ∈ lexemes, lexeme.kind.isLine = true → lexemes = [lexeme]
  first : ∀ lexeme ∈ lexemes.tail, lexeme.kind.isMarker = false

section WellFormed

variable {mode mode' : Mode} {tokens : List Token}

theorem WellFormed.nil : WellFormed [] where
  sound := fun _ h => by cases h
  alone := fun _ h => by cases h
  first := fun _ h => by cases h

theorem wellFormed_singleton {lexeme : Lexeme} (h : lexeme.kind.isLine = true) : WellFormed [lexeme] where
  sound := List.forall_mem_singleton.2 (Lexeme.sound_of_isLine h)
  alone := List.forall_mem_singleton.2 fun _ => rfl
  first := fun _ h => by cases h

/-- What can stand behind the first lexeme of a line. -/
theorem Token.Filled.lexeme_sound {t : Token} (h : t.Filled) :
    t.lexeme.Sound ∧ t.lexeme.kind.isLine = false ∧ t.lexeme.kind.isMarker = false := by
  refine ⟨Lexeme.sound_of_filled h, ?_⟩
  cases h <;> exact ⟨rfl, rfl⟩

theorem wellFormed_cons {lexeme : Lexeme} (hsound : lexeme.Sound) (hline : lexeme.kind.isLine = false)
    (hfilled : ∀ t ∈ tokens, t.Filled) : WellFormed (lexeme :: tokens.map Token.lexeme) where
  sound := List.forall_mem_cons.2 ⟨hsound, List.forall_mem_map.2 fun t ht => (hfilled t ht).lexeme_sound.1⟩
  alone := by
    have hnone : ∀ u ∈ lexeme :: tokens.map Token.lexeme, u.kind.isLine = false :=
      List.forall_mem_cons.2 ⟨hline, List.forall_mem_map.2 fun t ht => (hfilled t ht).lexeme_sound.2.1⟩
    intro u hu hkind
    rw [hnone u hu] at hkind
    cases hkind
  first := List.forall_mem_map.2 fun t ht => (hfilled t ht).lexeme_sound.2.2

theorem wellFormed_of_filled (h : ∀ t ∈ tokens, t.Filled) : WellFormed (tokens.map Token.lexeme) := by
  cases tokens with
  | nil => exact .nil
  | cons t tokens =>
    obtain ⟨hsound, hline, -⟩ := (h t List.mem_cons_self).lexeme_sound
    exact wellFormed_cons hsound hline fun u hu => h u (List.mem_cons_of_mem _ hu)

/-- A line is well-formed whatever shape it has, as long as no inline token is empty. -/
theorem LineReading.wellFormed (h : LineReading mode mode' tokens)
    (hfilled : ∀ t ∈ tokens, t.isInline = true → t.Filled) : WellFormed (tokens.map Token.lexeme) := by
  cases h with
  | command => exact wellFormed_singleton rfl
  | blank => exact .nil
  | body h =>
    cases h with
    | fence | opening | closing | heading => exact wellFormed_singleton rfl
    | item kind depth tokens _ hinline =>
      exact wellFormed_cons (Lexeme.sound_item kind depth) (by cases kind <;> rfl) fun t ht =>
        hfilled t (List.mem_cons_of_mem _ ht) (hinline t ht)
    | inline _ hinline => exact wellFormed_of_filled fun t ht => hfilled t ht (hinline t ht)

/-! ## What reading changes -/

/-- What a line can make of a mode: the head can end, and a block can open or close, either a verbatim block or a math
block. -/
structure Mode.Next (mode mode' : Mode) : Prop where
  head : mode'.head = mode.head ∨ mode'.head = false
  block : mode'.delimiter = mode.delimiter ∨ mode'.verbatim = mode.verbatim ∧ mode'.math = !mode.math
  delimiter : mode'.delimiter = [] ∨ mode'.delimiter = "$$".toList ∨ mode'.delimiter = "\\[".toList

theorem LineReading.next (h : LineReading mode mode' tokens)
    (hm : mode.delimiter = [] ∨ mode.delimiter = "$$".toList ∨ mode.delimiter = "\\[".toList) : mode.Next mode' := by
  cases h with
  | command | blank => exact ⟨.inl rfl, .inl rfl, hm⟩
  | body h =>
    cases h with
    | fence | item | heading | inline => exact ⟨.inr rfl, .inl rfl, hm⟩
    | opening delimiter hb ho =>
      have hmath : mode.math = false := (Mode.inBlock_eq_false.1 hb).2
      have hopened : (mode.endHead.toggleMath delimiter).delimiter = delimiter := by
        rw [Mode.toggleMath, (Mode.inBlock_eq_false.1 hb).2]
        rfl
      have hdelimiter := eq_of_mathCloser?_isSome ho
      refine ⟨.inr rfl, .inr ⟨rfl, ?_⟩, by rw [hopened]; exact .inr hdelimiter⟩
      rw [Mode.math, hopened, hmath]
      rcases hdelimiter with rfl | rfl <;> rfl
    | closing delimiter hv hmath hc =>
      have hclosed : (mode.endHead.toggleMath delimiter).delimiter = [] := by
        rw [Mode.toggleMath, hmath]
        rfl
      refine ⟨.inr rfl, .inr ⟨rfl, ?_⟩, .inl hclosed⟩
      rw [Mode.math, hclosed, show mode.math = true from hmath]
      rfl

/-- Only a list marker changes anything when it is rendered, though the text of a bold or italic token is read. -/
theorem Progress.render_of_not_isItem [Memory] {t : Token} (h : t.isItem = false) (indentation : Indentation)
    (progress : Progress) : (progress.render indentation t).1 = progress := by
  cases t with
  | item => cases h
  | _ => rfl

end WellFormed

/-! ## Reading -/

/-- **What reading makes of a line.** The loop that classifies its raw text ends, after at most three turns for every
character and one more, with a well-formed list of tokens. Of all that the converter remembers only the mode changes:
the head can end, and one block can open or close. The text of a token, which is read when the token is rendered,
changes nothing. -/
theorem read_wellFormed [Memory] {converter : Converter}
    (h : converter.progress.mode.delimiter = [] ∨ converter.progress.mode.delimiter = "$$".toList ∨
      converter.progress.mode.delimiter = "\\[".toList) (line : Text) :
    ∃ mode found tokens turns, converter.read line = (converter.withMode mode, .ok tokens) ∧
      readStart converter.progress.mode LineRule.all [.raw line] = (mode, .ok found) ∧
      turns ≤ 3 * line.length + 1 ∧ Worklist.Ends mode turns ⟨[], found⟩ tokens ∧
      WellFormed (tokens.map Token.lexeme) ∧ converter.progress.mode.Next mode ∧
      ∀ t : Token, t.isItem = false → ∀ (indentation : Indentation) (progress : Progress),
        (progress.render indentation t).1 = progress := by
  obtain ⟨mode, tokens, hread, hshape⟩ := readLine_cases (Mode.closable_of_delimiter h) line
  obtain ⟨found, hstart, hsettle⟩ := exists_readStart_of_readLine hread
  have hlight := light_readStart_line hstart
  obtain ⟨turns, hturns, hends⟩ := Worklist.ends_settle mode ⟨[], found⟩
  rw [Worklist.target, List.nil_append, hsettle] at hends
  have hfilled : ∀ t ∈ tokens, t.isInline = true → t.Filled := fun t ht hinline =>
    hlight.filled_of_mem_settle (hsettle ▸ ht) hinline
  exact ⟨mode, found, tokens, turns, Converter.read_of_readLine hread, hstart,
    Nat.le_trans hturns hlight.weight_le, hends, hshape.wellFormed hfilled, hshape.next h,
    fun t ht => Progress.render_of_not_isItem ht⟩

/-- The first line of notes is a list item: it ends the head, and its raw text is classified. -/
theorem read_wellFormed_firstItem :
    let converter := Converter.new .default
    let line := "* **a** <= b".toList
    let tokens : List Token := [.item .itemize 1, .bold "a".toList, .text " ".toList,
      .arrow ⟨"<=".toList, "Leftarrow".toList⟩, .text " b".toList]
    converter.progress.mode.delimiter = [] ∧
      converter.read line = (converter.withMode converter.progress.mode.endHead, .ok tokens) ∧
      (∃ found turns, readStart converter.progress.mode LineRule.all [.raw line] =
        (converter.progress.mode.endHead, .ok found) ∧ turns ≤ 37 ∧
        Worklist.Ends converter.progress.mode.endHead turns ⟨[], found⟩ tokens) ∧
      WellFormed (tokens.map Token.lexeme) := by
  intro converter line tokens
  obtain ⟨mode, found, tokens', turns, hread, hstart, hturns, hends, hwell, -, -⟩ :=
    read_wellFormed (show converter.progress.mode.delimiter = [] ∨ _ from .inl rfl) line
  have hmode : (converter.read line).1.progress.mode = converter.progress.mode.endHead := by decide +kernel
  have htokens : (converter.read line).2.toOption = some tokens := by decide +kernel
  rw [hread] at hmode htokens
  cases htokens
  cases hmode
  exact ⟨rfl, hread, ⟨found, turns, hstart, hturns, hends⟩, hwell⟩

end Lectern
