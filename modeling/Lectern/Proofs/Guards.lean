import Lectern.Proofs.Spans

/-!
# Guarded text

A text can be given as **chunks**: characters, and signs each with a backslash in front of it. A chunk **fits**
(`Chunk.Fits`) in front of a text if no rule finds anything in it but the one that guards it, which finds the sign as
ordinary text; rules that come after the guard do not matter, because by then the chunk has been taken out of the text.
`readsAs_printAll` says that a text in which all chunks fit is read as it stands, without the backslashes: the first
rule that guards any chunk cuts the text at all chunks that it guards, and there is less text between them.
-/

set_option autoImplicit false

namespace Lectern

/-! ## The order of rules -/

namespace SpanRule

/-- The place of a rule among all rules. -/
def rank : SpanRule → Nat
  | .math => 0
  | .verbatim => 1
  | .arrow => 2
  | .comparison => 3
  | .bold => 4
  | .italic => 5

theorem eq_of_rank_eq {rule other : SpanRule} (h : rule.rank = other.rank) : rule = other := by
  cases rule <;> cases other <;> first | rfl | cases h

theorem mem_all (rule : SpanRule) : rule ∈ all := by cases rule <;> decide

/-- Rules that stand before another have a lower rank, and all others do not. -/
theorem rank_lt_iff_mem {before after : List SpanRule} {rule other : SpanRule} (h : all = before ++ rule :: after) :
    other ∈ before ↔ other.rank < rule.rank := by
  have hsorted : all.Pairwise fun first second => first.rank < second.rank := by decide
  rw [h, List.pairwise_append] at hsorted
  obtain ⟨-, hafter, hbefore⟩ := hsorted
  constructor
  · intro ho
    exact hbefore other ho rule List.mem_cons_self
  · intro hlt
    have hmem := mem_all other
    rw [h, List.mem_append, List.mem_cons] at hmem
    rcases hmem with hmem | rfl | hmem
    · exact hmem
    · omega
    · have := (List.pairwise_cons.1 hafter).1 other hmem
      omega

theorem applies_of_outside {mode : Mode} (hm : mode.inBlock = false) (rule : SpanRule) : rule.applies mode = true := by
  have hv : mode.verbatim = false := by
    rw [Mode.inBlock, Bool.or_eq_false_iff] at hm
    exact hm.1
  cases rule <;> simp [applies, hm, hv]

end SpanRule

/-! ## Chunks -/

/-- A piece of a text that is to be read as it stands: a character, or a sign with a backslash in front of it, which a
rule takes away again. -/
inductive Chunk where
  | bare (c : Char)
  | guarded (guard : SpanRule) (sign : Text)
deriving DecidableEq, Repr

namespace Chunk

/-- The rule that takes the backslash away. -/
def guard? : Chunk → Option SpanRule
  | .bare _ => none
  | .guarded guard _ => some guard

/-- The text without the backslash. -/
def value : Chunk → Text
  | .bare c => [c]
  | .guarded _ sign => sign

/-- The text with the backslash. -/
def print : Chunk → Text
  | .bare c => [c]
  | .guarded _ sign => '\\' :: sign

/-- The text of chunks without their backslashes. -/
def valueAll (chunks : List Chunk) : Text := chunks.flatMap value

/-- The text of chunks. -/
def printAll (chunks : List Chunk) : Text := chunks.flatMap print

@[simp] theorem valueAll_cons (chunk : Chunk) (chunks : List Chunk) :
    valueAll (chunk :: chunks) = chunk.value ++ valueAll chunks := rfl

@[simp] theorem printAll_cons (chunk : Chunk) (chunks : List Chunk) :
    printAll (chunk :: chunks) = chunk.print ++ printAll chunks := rfl

@[simp] theorem valueAll_append (chunks more : List Chunk) :
    valueAll (chunks ++ more) = valueAll chunks ++ valueAll more := List.flatMap_append

@[simp] theorem printAll_append (chunks more : List Chunk) :
    printAll (chunks ++ more) = printAll chunks ++ printAll more := List.flatMap_append

theorem printAll_eq_valueAll {chunks : List Chunk} (h : ∀ chunk ∈ chunks, chunk.guard? = none) :
    printAll chunks = valueAll chunks := by
  induction chunks with
  | nil => rfl
  | cons chunk chunks ih =>
    have hchunk := h chunk List.mem_cons_self
    rw [printAll_cons, valueAll_cons, ih fun other ho => h other (List.mem_cons_of_mem _ ho)]
    cases chunk with
    | bare c => rfl
    | guarded guard sign => cases hchunk

/-- A chunk that is read as its value in front of every part of a text: rules before its guard find nothing in it, and
its guard finds the sign. -/
structure Fits (chunk : Chunk) (rest : Text) : Prop where
  inert : ∀ short, short <+: rest → ∀ rule : SpanRule,
    (∀ guard, chunk.guard? = some guard → rule.rank < guard.rank) → rule.Inert chunk.print short
  guards : ∀ short, short <+: rest → ∀ guard, chunk.guard? = some guard →
    guard.front? (chunk.print ++ short) = some (.text chunk.value, short)
  /-- Line ends would get lost. -/
  lineEnd : ∀ c ∈ chunk.value, c ≠ '\r' ∧ c ≠ '\n'

/-- Every chunk fits in front of the others and what follows them. -/
def AllFit : List Chunk → Text → Prop
  | [], _ => True
  | chunk :: chunks, rest => chunk.Fits (printAll chunks ++ rest) ∧ AllFit chunks rest

theorem Fits.shorten {chunk : Chunk} {rest short : Text} (h : chunk.Fits rest) (hs : short <+: rest) :
    chunk.Fits short where
  inert := fun shorter hp => h.inert shorter (hp.trans hs)
  guards := fun shorter hp => h.guards shorter (hp.trans hs)
  lineEnd := h.lineEnd

theorem AllFit.shorten {chunks : List Chunk} {rest short : Text} (h : AllFit chunks rest) (hs : short <+: rest) :
    AllFit chunks short := by
  induction chunks with
  | nil => trivial
  | cons chunk chunks ih => exact ⟨h.1.shorten ((List.prefix_append_right_inj _).2 hs), ih h.2⟩

theorem allFit_append {chunks more : List Chunk} {rest : Text} :
    AllFit (chunks ++ more) rest ↔ AllFit chunks (printAll more ++ rest) ∧ AllFit more rest := by
  induction chunks with
  | nil => exact ⟨fun h => ⟨trivial, h⟩, fun h => h.2⟩
  | cons chunk chunks ih =>
    rw [List.cons_append, AllFit, AllFit, ih, printAll_append, List.append_assoc, and_assoc]

theorem AllFit.left {chunks more : List Chunk} (h : AllFit (chunks ++ more) []) : AllFit chunks [] :=
  (allFit_append.1 h).1.shorten List.nil_prefix

theorem AllFit.right {chunks more : List Chunk} {rest : Text} (h : AllFit (chunks ++ more) rest) : AllFit more rest :=
  (allFit_append.1 h).2

/-! ## What rules find in chunks -/

/-- What a rule finds in a chunk that no rule before it guards. -/
def pieces (rule : SpanRule) (chunk : Chunk) : List Piece :=
  if chunk.guard? = some rule then [.span (.text chunk.value)] else chunk.print.map .plain

theorem pieces_printAll {rule : SpanRule} {chunks : List Chunk} (h : AllFit chunks [])
    (hr : ∀ chunk ∈ chunks, ∀ guard, chunk.guard? = some guard → rule.rank ≤ guard.rank) :
    rule.pieces (printAll chunks) = chunks.flatMap (pieces rule) := by
  induction chunks with
  | nil => rw [printAll, List.flatMap_nil, SpanRule.pieces, List.flatMap_nil]
  | cons chunk chunks ih =>
    obtain ⟨hfits, hrest⟩ := h
    rw [List.append_nil] at hfits
    rw [printAll_cons, List.flatMap_cons, ← ih hrest fun other ho => hr other (List.mem_cons_of_mem _ ho), pieces]
    by_cases hg : chunk.guard? = some rule
    · rw [if_pos hg]
      exact SpanRule.pieces_of_some (hfits.guards _ (List.prefix_refl _) rule hg)
    · rw [if_neg hg]
      refine SpanRule.pieces_append_of_inert (hfits.inert _ (List.prefix_refl _) rule fun guard hguard => ?_)
      have hle := hr chunk List.mem_cons_self guard hguard
      have hne : rule.rank ≠ guard.rank := fun he => hg (SpanRule.eq_of_rank_eq he ▸ hguard)
      omega

/-- Where a rule guards nothing, it finds nothing. -/
theorem pieces_eq_plain {rule : SpanRule} {chunks : List Chunk} (h : ∀ chunk ∈ chunks, chunk.guard? ≠ some rule) :
    chunks.flatMap (pieces rule) = (printAll chunks).map .plain := by
  induction chunks with
  | nil => rfl
  | cons chunk chunks ih =>
    rw [List.flatMap_cons, ih fun other ho => h other (List.mem_cons_of_mem _ ho), pieces,
      if_neg (h chunk List.mem_cons_self), printAll_cons, List.map_append]

/-! ## Reading -/

/-- All that is left of tokens is ordinary text, which makes up a text. -/
def ReadsAs (mode : Mode) (tokens : List Token) (text : Text) : Prop :=
  ∃ texts : List Text, settle mode tokens = texts.map .text ∧ texts.flatten = text

section Reading

variable {mode : Mode}

theorem readsAs_nil (mode : Mode) : ReadsAs mode [] [] := ⟨[], by rw [settle]; rfl, rfl⟩

theorem readsAs_text_cons {tokens : List Token} {text : Text} (content : Text) (h : ReadsAs mode tokens text) :
    ReadsAs mode (.text content :: tokens) (content ++ text) := by
  obtain ⟨texts, hs, ht⟩ := h
  refine ⟨content :: texts, ?_, by rw [List.flatten_cons, ht]⟩
  rw [settle_cons (fun _ h => by cases h), hs, List.map_cons]

theorem ReadsAs.append {tokens more : List Token} {first second : Text} (h₁ : ReadsAs mode tokens first)
    (h₂ : ReadsAs mode more second) : ReadsAs mode (tokens ++ more) (first ++ second) := by
  obtain ⟨texts, hs, rfl⟩ := h₁
  obtain ⟨texts', hs', rfl⟩ := h₂
  exact ⟨texts ++ texts', by rw [settle_append, hs, hs', List.map_append], List.flatten_append⟩

/-- What a rule makes of chunks before the first that it guards, of that one and of those behind it. -/
theorem readsAs_split {rule : SpanRule} {before after : List Chunk} {chunk : Chunk}
    (hn : ∀ other ∈ before, other.guard? ≠ some rule) (hg : chunk.guard? = some rule)
    (hb : ReadsAs mode (Token.rawIfAny (printAll before)) (valueAll before))
    (ha : ReadsAs mode (SpanRule.gather (after.flatMap (pieces rule))) (valueAll after)) :
    ReadsAs mode (SpanRule.gather ((before ++ chunk :: after).flatMap (pieces rule)))
      (valueAll (before ++ chunk :: after)) := by
  have hchunk : pieces rule chunk = [.span (.text chunk.value)] := if_pos hg
  rw [List.flatMap_append, pieces_eq_plain hn, List.flatMap_cons, hchunk, List.singleton_append,
    SpanRule.gather_stretch_append _ _ _ rfl, valueAll_append, valueAll_cons]
  exact hb.append (readsAs_text_cons chunk.value ha)

theorem AllFit.lineEnd {chunks : List Chunk} {rest : Text} (h : AllFit chunks rest) :
    ∀ c ∈ valueAll chunks, c ≠ '\r' ∧ c ≠ '\n' := by
  induction chunks with
  | nil =>
    intro c hc
    cases hc
  | cons chunk chunks ih =>
    intro c hc
    rw [valueAll_cons, List.mem_append] at hc
    exact hc.elim (h.1.lineEnd c) (ih h.2 c)

/-- Text without line ends is left as it is when no rule changes it. -/
theorem textIfAny_of_lineEnd {s : Text} (hs : s ≠ []) (h : ∀ c ∈ s, c ≠ '\r' ∧ c ≠ '\n') :
    Token.textIfAny s = [.text s] := by
  have hfilter : s.filter (fun c => c != '\r' && c != '\n') = s := by
    rw [List.filter_eq_self]
    intro c hc
    obtain ⟨hr, hn⟩ := h c hc
    simp [hr, hn]
  unfold Token.textIfAny
  rw [hfilter]
  cases s with
  | nil => exact absurd rfl hs
  | cons c s => rfl

theorem read_eq_gather (hm : mode.inBlock = false) {rule : SpanRule} {chunks : List Chunk} (h : AllFit chunks [])
    (hr : ∀ chunk ∈ chunks, ∀ guard, chunk.guard? = some guard → rule.rank ≤ guard.rank) :
    rule.read mode (printAll chunks) = SpanRule.gather (chunks.flatMap (pieces rule)) := by
  rw [SpanRule.read, if_pos (SpanRule.applies_of_outside hm rule), pieces_printAll h hr]

/-- A rule that neither guards a chunk nor comes behind a guard changes nothing. -/
theorem read_eq_raw (hm : mode.inBlock = false) {rule : SpanRule} {chunks : List Chunk} (h : AllFit chunks [])
    (hs : printAll chunks ≠ [])
    (hr : ∀ chunk ∈ chunks, ∀ guard, chunk.guard? = some guard → rule.rank < guard.rank) :
    rule.read mode (printAll chunks) = [.raw (printAll chunks)] := by
  have hn : ∀ chunk ∈ chunks, chunk.guard? ≠ some rule := fun chunk hc hg =>
    Nat.lt_irrefl _ (hr chunk hc rule hg)
  rw [read_eq_gather hm h fun chunk hc guard hg => Nat.le_of_lt (hr chunk hc guard hg), pieces_eq_plain hn,
    SpanRule.gather_map_plain, Token.rawIfAny, if_neg hs]

/-- Without any backslash, chunks are ordinary text. -/
theorem readsAs_of_unguarded (hm : mode.inBlock = false) {chunks : List Chunk} (h : AllFit chunks [])
    (hn : ∀ chunk ∈ chunks, chunk.guard? = none) :
    ReadsAs mode (Token.rawIfAny (printAll chunks)) (valueAll chunks) := by
  by_cases hs : printAll chunks = []
  · rw [← printAll_eq_valueAll hn, hs]
    exact readsAs_nil mode
  · have hraw : ∀ rule ∈ SpanRule.all, rule.read mode (printAll chunks) = [.raw (printAll chunks)] := by
      intro rule _
      refine read_eq_raw hm h hs fun chunk hc guard hg => ?_
      rw [hn chunk hc] at hg
      cases hg
    have hlineEnd := h.lineEnd
    rw [← printAll_eq_valueAll hn] at hlineEnd ⊢
    rw [Token.rawIfAny, if_neg hs]
    refine ⟨[printAll chunks], ?_, List.append_nil _⟩
    rw [settle, SpanRule.cut_eq_textIfAny hraw, textIfAny_of_lineEnd hs hlineEnd, List.append_nil,
      settle_cons (fun _ h => by cases h), settle]
    rfl

/-- The first chunk that a rule guards. -/
theorem exists_first_guarded {rule : SpanRule} {chunks : List Chunk} (h : ∃ chunk ∈ chunks, chunk.guard? = some rule) :
    ∃ before chunk after, chunks = before ++ chunk :: after ∧ chunk.guard? = some rule ∧
      ∀ other ∈ before, other.guard? ≠ some rule := by
  induction chunks with
  | nil =>
    obtain ⟨chunk, hc, -⟩ := h
    cases hc
  | cons first chunks ih =>
    by_cases hf : first.guard? = some rule
    · exact ⟨[], first, chunks, rfl, hf, fun _ ho => by cases ho⟩
    · obtain ⟨chunk, hc, hg⟩ := h
      rcases List.mem_cons.1 hc with rfl | hc
      · exact absurd hg hf
      · obtain ⟨before, chunk, after, rfl, hg, hb⟩ := ih ⟨chunk, hc, hg⟩
        exact ⟨first :: before, chunk, after, rfl, hg, List.forall_mem_cons.2 ⟨hf, hb⟩⟩

/-- Chunks are all unguarded, or there is a first rule that guards one of them. -/
theorem exists_first_guard (chunks : List Chunk) :
    (∀ chunk ∈ chunks, chunk.guard? = none) ∨
      ∃ before rule after, SpanRule.all = before ++ rule :: after ∧ (∃ chunk ∈ chunks, chunk.guard? = some rule) ∧
        ∀ chunk ∈ chunks, ∀ guard, chunk.guard? = some guard → rule.rank ≤ guard.rank := by
  have hany : ∀ rule : SpanRule, (chunks.any fun chunk => chunk.guard? == some rule) = true ↔
      ∃ chunk ∈ chunks, chunk.guard? = some rule := by
    intro rule
    simp
  cases hfind : SpanRule.all.find? fun rule => chunks.any fun chunk => chunk.guard? == some rule with
  | none =>
    refine .inl fun chunk hc => ?_
    cases hg : chunk.guard? with
    | none => rfl
    | some guard =>
      have hnone := List.find?_eq_none.1 hfind guard (SpanRule.mem_all guard)
      exact absurd ((hany guard).2 ⟨chunk, hc, hg⟩) hnone
  | some rule =>
    obtain ⟨hrule, before, after, hall, hbefore⟩ := List.find?_eq_some_iff_append.1 hfind
    refine .inr ⟨before, rule, after, hall, (hany rule).1 hrule, fun chunk hc guard hg => ?_⟩
    refine Nat.le_of_not_lt fun hlt => ?_
    have hno := hbefore guard ((SpanRule.rank_lt_iff_mem hall).2 hlt)
    rw [(hany guard).2 ⟨chunk, hc, hg⟩] at hno
    cases hno

/-- The first rule that guards a chunk replaces the text. -/
theorem cut_printAll (hm : mode.inBlock = false) {chunks : List Chunk} (h : AllFit chunks [])
    {before after : List SpanRule} {rule : SpanRule} (hall : SpanRule.all = before ++ rule :: after)
    (hex : ∃ chunk ∈ chunks, chunk.guard? = some rule)
    (hr : ∀ chunk ∈ chunks, ∀ guard, chunk.guard? = some guard → rule.rank ≤ guard.rank) (hs : printAll chunks ≠ []) :
    SpanRule.cut mode (printAll chunks) = SpanRule.gather (chunks.flatMap (pieces rule)) := by
  have hread := read_eq_gather hm h hr
  rw [← hread]
  refine SpanRule.cut_eq_read hall (fun other ho => ?_) fun hraw => ?_
  · have hlt := (SpanRule.rank_lt_iff_mem hall).1 ho
    exact read_eq_raw hm h hs fun chunk hc guard hg => Nat.lt_of_lt_of_le hlt (hr chunk hc guard hg)
  · obtain ⟨chunk, hc, hg⟩ := hex
    have hspan : .span (.text chunk.value) ∈ chunks.flatMap (pieces rule) :=
      List.mem_flatMap.2 ⟨chunk, hc, by rw [pieces, if_pos hg]; exact List.mem_cons_self⟩
    have hmem := SpanRule.mem_gather_of_span hspan rfl
    rw [← hread, hraw, List.mem_singleton] at hmem
    cases hmem

theorem printAll_ne_nil {chunks : List Chunk} {rule : SpanRule} (h : ∃ chunk ∈ chunks, chunk.guard? = some rule) :
    printAll chunks ≠ [] := by
  obtain ⟨chunk, hc, hg⟩ := h
  intro hnil
  have hprint := List.flatMap_eq_nil_iff.1 hnil chunk hc
  cases chunk with
  | bare c => cases hg
  | guarded guard sign => cases hprint

/-- Chunks that all fit are read as their values, also when rules have gone over them that guard no chunk before the
last of these rules. -/
theorem readsAs_pieces (hm : mode.inBlock = false) (chunks : List Chunk) (h : AllFit chunks []) :
    ReadsAs mode (Token.rawIfAny (printAll chunks)) (valueAll chunks) ∧
      ∀ rule : SpanRule, (∀ chunk ∈ chunks, ∀ guard, chunk.guard? = some guard → rule.rank ≤ guard.rank) →
        ReadsAs mode (SpanRule.gather (chunks.flatMap (pieces rule))) (valueAll chunks) := by
  -- both parts go on with fewer chunks, the first with those before a guarded one, the second also with those behind it
  induction hn : chunks.length using Nat.strongRecOn generalizing chunks with
  | ind n ih =>
    have hsplit : ∀ rule : SpanRule,
        (∀ chunk ∈ chunks, ∀ guard, chunk.guard? = some guard → rule.rank ≤ guard.rank) →
        (∃ chunk ∈ chunks, chunk.guard? = some rule) →
        ReadsAs mode (SpanRule.gather (chunks.flatMap (pieces rule))) (valueAll chunks) := by
      intro rule hr hex
      obtain ⟨before, chunk, after, rfl, hg, hb⟩ := exists_first_guarded hex
      rw [List.length_append, List.length_cons] at hn
      have hbefore := ih before.length (by omega) before h.left rfl
      have hafter := ih after.length (by omega) after h.right.2 rfl
      refine readsAs_split hb hg hbefore.1 (hafter.2 rule fun other ho => hr other ?_)
      exact List.mem_append_right _ (List.mem_cons_of_mem _ ho)
    have hraw : ReadsAs mode (Token.rawIfAny (printAll chunks)) (valueAll chunks) := by
      rcases exists_first_guard chunks with hnone | ⟨before, rule, after, hall, hex, hr⟩
      · exact readsAs_of_unguarded hm h hnone
      · have hs := printAll_ne_nil hex
        have hcut := hsplit rule hr hex
        rw [← cut_printAll hm h hall hex hr hs] at hcut
        obtain ⟨texts, hsettle, htexts⟩ := hcut
        refine ⟨texts, ?_, htexts⟩
        rw [Token.rawIfAny, if_neg hs, settle, List.append_nil, hsettle]
    refine ⟨hraw, fun rule hr => ?_⟩
    by_cases hex : ∃ chunk ∈ chunks, chunk.guard? = some rule
    · exact hsplit rule hr hex
    · have hno : ∀ chunk ∈ chunks, chunk.guard? ≠ some rule := fun chunk hc hg => hex ⟨chunk, hc, hg⟩
      rw [pieces_eq_plain hno, SpanRule.gather_map_plain]
      exact hraw

/-- **Chunks that all fit are read as they stand**, without their backslashes. -/
theorem readsAs_printAll (hm : mode.inBlock = false) {chunks : List Chunk} (h : AllFit chunks []) :
    ReadsAs mode (Token.rawIfAny (printAll chunks)) (valueAll chunks) := (readsAs_pieces hm chunks h).1

end Reading

end Chunk

end Lectern
