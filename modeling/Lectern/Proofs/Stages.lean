import Lectern.Proofs.WrittenForms

/-!
# Reading in stages

Settling looks at what a rule leaves raw with all rules again, from the first one on. That is never of use: a rule that
finds nothing in a text finds nothing in any part of it (`inert_of_infix`), because what it finds in front of a text is
there also if the text goes on (`isSome_front?_append`), and it finds nothing in what it has left raw itself
(`settledBy_of_mem_read`). So the rules can as well be applied in **stages**, each of them once to all raw text
(`stage`, `stages`), and what is raw at the end is ordinary text (`finish`). **`readInline_eq_stages`** says that this
gives the same tokens, and that behind any number of stages the rules that have been applied change nothing more.
-/

set_option autoImplicit false

namespace Lectern

/-! ## Stages -/

/-- Every raw token of a list is replaced by tokens that are made of its text. -/
def expandRaw (f : Text → List Token) (tokens : List Token) : List Token :=
  tokens.flatMap fun
    | .raw s => f s
    | t => [t]

/-- Every raw token of a list is replaced by what a rule makes of it. -/
def stage (mode : Mode) (rule : SpanRule) (tokens : List Token) : List Token := expandRaw (rule.read mode) tokens

/-- Stages, one for each rule of a list. -/
def stages (mode : Mode) (rules : List SpanRule) (tokens : List Token) : List Token :=
  rules.foldl (fun tokens rule => stage mode rule tokens) tokens

/-- Every raw token of a list is ordinary text. -/
def finish (tokens : List Token) : List Token := expandRaw Token.textIfAny tokens

section Expand

variable {f g : Text → List Token}

theorem expandRaw_append (f : Text → List Token) (tokens more : List Token) :
    expandRaw f (tokens ++ more) = expandRaw f tokens ++ expandRaw f more := List.flatMap_append

theorem expandRaw_raw (f : Text → List Token) (s : Text) : expandRaw f [.raw s] = f s := List.append_nil _

theorem expandRaw_cons_of_ne_raw {t : Token} (ht : ∀ s, t ≠ .raw s) (tokens : List Token) :
    expandRaw f (t :: tokens) = t :: expandRaw f tokens := by
  cases t with
  | raw s => exact absurd rfl (ht s)
  | _ => rfl

theorem expandRaw_rawIfAny (hf : f [] = []) (s : Text) : expandRaw f (Token.rawIfAny s) = f s := by
  unfold Token.rawIfAny
  split
  · next hs => rw [hs, hf]; rfl
  · exact expandRaw_raw f s

theorem expandRaw_congr {tokens : List Token} (h : ∀ s, .raw s ∈ tokens → f s = g s) :
    expandRaw f tokens = expandRaw g tokens := by
  induction tokens with
  | nil => rfl
  | cons t tokens ih =>
    have htail := ih fun s hs => h s (List.mem_cons_of_mem _ hs)
    rw [← List.singleton_append, expandRaw_append, expandRaw_append, htail]
    cases t with
    | raw s => rw [expandRaw_raw, expandRaw_raw, h s List.mem_cons_self]
    | _ => rfl

theorem expandRaw_expandRaw (f g : Text → List Token) (tokens : List Token) :
    expandRaw g (expandRaw f tokens) = expandRaw (fun s => expandRaw g (f s)) tokens := by
  induction tokens with
  | nil => rfl
  | cons t tokens ih =>
    rw [← List.singleton_append, expandRaw_append, expandRaw_append, expandRaw_append, ih]
    cases t with
    | raw s => rw [expandRaw_raw, expandRaw_raw]
    | _ => rfl

end Expand

/-! ## What is found is there also if the text goes on -/

namespace Text

variable {lead s tail rest : Text}

theorem after?_append (h : after? lead s = some tail) (rest : Text) :
    after? lead (s ++ rest) = some (tail ++ rest) := by
  rw [after?_eq_some] at h ⊢
  rw [h, List.append_assoc]

theorem isSome_splitAt?_append {delimiter : Text} (h : (splitAt? delimiter s).isSome = true) (rest : Text) :
    (splitAt? delimiter (s ++ rest)).isSome = true := by
  induction s with
  | nil =>
    rw [splitAt?, Option.isSome_map] at h
    obtain ⟨tail, htail⟩ := Option.isSome_iff_exists.1 h
    -- nothing is in front of the empty text but the empty delimiter
    have hnil : delimiter = [] := (List.append_eq_nil_iff.1 (after?_eq_some.1 htail).symm).1
    subst hnil
    cases rest <;> rfl
  | cons c s ih =>
    rw [List.cons_append, splitAt?]
    split
    · rfl
    · next hafter =>
      rw [Option.isSome_map]
      refine ih ?_
      rw [splitAt?] at h
      split at h
      · next tail htail =>
        rw [← List.cons_append, after?_append htail] at hafter
        cases hafter
      · rwa [Option.isSome_map] at h

end Text

theorem Glyph.isSome_startOf?_append {table : List Glyph} {s : Text} (h : (startOf? table s).isSome = true)
    (rest : Text) : (startOf? table (s ++ rest)).isSome = true := by
  obtain ⟨⟨glyph, tail⟩, hstart⟩ := Option.isSome_iff_exists.1 h
  obtain ⟨hmem, rfl⟩ := startOf?_eq_some hstart
  rw [startOf?, List.findSome?_isSome_iff]
  refine ⟨glyph, hmem, ?_⟩
  rw [List.append_assoc, Text.after?_eq_some.2 rfl]
  rfl

namespace SpanRule

section Longer

variable {s : Text}

theorem isSome_enclosed?_append {opening closing : Text} (h : (enclosed? opening closing s).isSome = true)
    (rest : Text) : (enclosed? opening closing (s ++ rest)).isSome = true := by
  unfold enclosed? at h
  split at h
  · next c tail hafter =>
    rw [Option.isSome_map] at h
    rw [enclosed?, Text.after?_append hafter, List.cons_append, Option.isSome_map]
    exact Text.isSome_splitAt?_append h rest
  · cases h

theorem isSome_glyphFront?_append {table : List Glyph} {token : Glyph → Token}
    (h : (glyphFront? table token s).isSome = true) (rest : Text) :
    (glyphFront? table token (s ++ rest)).isSome = true := by
  have hplain : (Glyph.startOf? table (s ++ rest)).isSome = true →
      (glyphFront? table token (s ++ rest)).isSome = true := by
    intro hstart
    unfold glyphFront?
    split
    · rfl
    · rwa [Option.isSome_map]
  unfold glyphFront? at h
  split at h
  · next glyph tail hfound =>
    obtain ⟨behind, hafter, hstart⟩ := Option.bind_eq_some_iff.1 hfound
    have hlonger : (Glyph.startOf? table (behind ++ rest)).isSome = true :=
      Glyph.isSome_startOf?_append (by rw [hstart]; rfl) rest
    obtain ⟨found, hfound⟩ := Option.isSome_iff_exists.1 hlonger
    rw [glyphFront?, Text.after?_append hafter, Option.bind_some, hfound]
    rfl
  · rw [Option.isSome_map] at h
    exact hplain (Glyph.isSome_startOf?_append h rest)

theorem isSome_starFront?_append {stars : Text} {token : Text → Token}
    (h : (starFront? stars token s).isSome = true) (rest : Text) :
    (starFront? stars token (s ++ rest)).isSome = true := by
  unfold starFront? at h
  split at h
  · next tail hafter =>
    rw [starFront?, Text.after?_append hafter]
    rfl
  · rw [Option.isSome_map] at h
    unfold starFront?
    split
    · rfl
    · rw [Option.isSome_map]
      exact isSome_enclosed?_append h rest

theorem isSome_mathFront?_append (h : (mathFront? s).isSome = true) (rest : Text) :
    (mathFront? (s ++ rest)).isSome = true := by
  unfold mathFront? at h
  split at h
  · next tail hafter =>
    rw [mathFront?, Text.after?_append hafter]
    rfl
  · rw [Option.isSome_map, mathSpan?, List.findSome?_isSome_iff] at h
    obtain ⟨⟨opening, closing⟩, hmem, hfound⟩ := h
    rw [Option.isSome_map] at hfound
    unfold mathFront?
    split
    · rfl
    · rw [Option.isSome_map, mathSpan?, List.findSome?_isSome_iff]
      refine ⟨(opening, closing), hmem, ?_⟩
      rw [Option.isSome_map]
      exact isSome_enclosed?_append hfound rest

/-- What stands between two bars is verbatim. -/
theorem verbatimFront?_bars {body : Text} (hne : body ≠ []) (hbody : ∀ c ∈ body, c ≠ '|' ∧ c ≠ '\n') (rest : Text) :
    verbatimFront? ('|' :: (body ++ '|' :: rest)) = some (.verbatim body, rest) := by
  have hin : ∀ c ∈ body, (c != '|' && c != '\n') = true := fun c hc => by simp [hbody c hc]
  have htake : (body ++ '|' :: rest).takeWhile (fun c => c != '|' && c != '\n') = body := by
    rw [List.takeWhile_append_of_pos hin]
    simp
  have hdrop : (body ++ '|' :: rest).dropWhile (fun c => c != '|' && c != '\n') = '|' :: rest := by
    rw [List.dropWhile_append_of_pos hin]
    simp
  obtain ⟨c, body, rfl⟩ := List.exists_cons_of_ne_nil hne
  rw [verbatimFront?]
  simp only [htake, hdrop]

theorem isSome_verbatimFront?_append (h : (verbatimFront? s).isSome = true) (rest : Text) :
    (verbatimFront? (s ++ rest)).isSome = true := by
  unfold verbatimFront? at h
  split at h
  · rfl
  · next tail =>
    simp only at h
    split at h
    · cases h
    · next after hdrop hne =>
      -- the body ends in front of a bar, so it is the same in the longer text
      have hwhole := List.takeWhile_append_dropWhile (p := fun c => c != '|' && c != '\n') (l := tail)
      have hbody : ∀ c ∈ tail.takeWhile (fun c => c != '|' && c != '\n'), c ≠ '|' ∧ c ≠ '\n' := fun c hc => by
        simpa using List.all_eq_true.1 List.all_takeWhile c hc
      rw [hdrop] at hwhole
      rw [← hwhole, List.cons_append, List.append_assoc, List.cons_append, verbatimFront?_bars hne hbody]
      rfl
    · cases h
  · cases h

/-- What a rule finds in front of a text it finds also if the text goes on, perhaps something longer. -/
theorem isSome_front?_append {rule : SpanRule} (h : (rule.front? s).isSome = true) (rest : Text) :
    (rule.front? (s ++ rest)).isSome = true := by
  cases rule with
  | math => exact isSome_mathFront?_append h rest
  | verbatim => exact isSome_verbatimFront?_append h rest
  | arrow => exact isSome_glyphFront?_append h rest
  | comparison => exact isSome_glyphFront?_append h rest
  | bold => exact isSome_starFront?_append h rest
  | italic => exact isSome_starFront?_append h rest

end Longer

/-! ## Parts of a text in which a rule finds nothing -/

section Parts

variable {rule : SpanRule} {s stretch rest : Text}

/-- A stretch in which a rule finds nothing is inert also without the text that follows. -/
theorem Inert.alone (h : rule.Inert stretch rest) : rule.Inert stretch [] := by
  intro s hs hsuffix
  have hnone := h s hs hsuffix
  rw [List.append_nil]
  cases hfront : rule.front? s with
  | none => rfl
  | some found =>
    have hsome := isSome_front?_append (by rw [hfront]; rfl) rest
    rw [hnone] at hsome
    cases hsome

/-- Where a rule finds nothing in a text, it finds nothing in any part of it. -/
theorem inert_of_infix (h : rule.Inert s []) (hp : stretch <:+: s) : rule.Inert stretch [] := by
  obtain ⟨before, after, rfl⟩ := hp
  exact h.left.right.alone

/-- What a rule leaves raw is part of the text, and the rule finds nothing in it. -/
theorem inert_of_mem_gather_pieces {u : Text} (h : .raw u ∈ gather (rule.pieces s)) :
    u ≠ [] ∧ u <:+: s ∧ rule.Inert u [] := by
  have hraw : ∀ stretch, .raw u ∈ Token.rawIfAny stretch → u = stretch ∧ u ≠ [] := by
    intro stretch hu
    unfold Token.rawIfAny at hu
    split at hu
    · cases hu
    · next hne =>
      cases List.mem_singleton.1 hu
      exact ⟨rfl, hne⟩
  induction s using pieces_induction rule with
  | inert s hinert =>
    rw [gather_pieces_of_inert hinert] at h
    obtain ⟨rfl, hne⟩ := hraw s h
    exact ⟨hne, List.infix_rfl, hinert⟩
  | span stretch text t rest hinert hfront ih =>
    rw [gather_pieces_append hinert hfront, List.mem_append, List.mem_cons] at h
    rcases h with h | rfl | h
    · obtain ⟨rfl, hne⟩ := hraw stretch h
      exact ⟨hne, (List.prefix_append u text).isInfix, hinert.alone⟩
    · cases isInline_of_front? hfront
    · obtain ⟨form, -, rfl⟩ := exists_written_of_front? hfront
      obtain ⟨hne, hpart, hu⟩ := ih h
      refine ⟨hne, hpart.trans ?_, hu⟩
      exact ((List.suffix_append form rest).trans (List.suffix_append stretch _)).isInfix

end Parts

/-! ## Rules that have been applied -/

section Applied

variable {mode : Mode} {rule : SpanRule} {rules before after : List SpanRule} {s u : Text}

/-- A text that rules leave as it is. -/
structure SettledBy (mode : Mode) (rules : List SpanRule) (s : Text) : Prop where
  /-- Empty text is no token. -/
  ne_nil : s ≠ []
  read_eq : ∀ rule ∈ rules, rule.read mode s = [.raw s]

/-- A rule leaves a text as it is if and only if it finds nothing in it, or does not apply. -/
theorem read_eq_raw_iff (hs : s ≠ []) : rule.read mode s = [.raw s] ↔ (rule.applies mode = true → rule.Inert s []) := by
  have hraw : Token.rawIfAny s = [.raw s] := if_neg hs
  cases ha : rule.applies mode with
  | false => simp [read, ha, hraw]
  | true =>
    simp only [read, ha, if_true, true_implies]
    constructor
    · intro h
      exact (inert_of_mem_gather_pieces (h ▸ List.mem_singleton_self _)).2.2
    · intro h
      rw [gather_pieces_of_inert h, hraw]

/-- A rule leaves nothing raw that it would change, or that a rule would change which leaves the whole text as it is. -/
theorem settledBy_of_mem_read (h : SettledBy mode rules s) (hu : .raw u ∈ rule.read mode s) :
    SettledBy mode (rules ++ [rule]) u := by
  have hpart : u ≠ [] ∧ u <:+: s ∧ (rule.applies mode = true → rule.Inert u []) := by
    unfold read at hu
    split at hu
    · obtain ⟨hne, hpart, hinert⟩ := inert_of_mem_gather_pieces hu
      exact ⟨hne, hpart, fun _ => hinert⟩
    · next ha =>
      rw [Token.rawIfAny, if_neg h.ne_nil] at hu
      cases List.mem_singleton.1 hu
      exact ⟨h.ne_nil, List.infix_rfl, fun ha' => absurd ha' ha⟩
  obtain ⟨hne, hinfix, hown⟩ := hpart
  refine ⟨hne, fun other ho => (read_eq_raw_iff hne).2 ?_⟩
  rcases List.mem_append.1 ho with ho | ho
  · intro ha
    exact inert_of_infix ((read_eq_raw_iff h.ne_nil).1 (h.read_eq other ho) ha) hinfix
  · cases List.mem_singleton.1 ho
    exact hown

end Applied

end SpanRule

/-! ## One stage -/

section Stage

variable {mode : Mode} {rule : SpanRule} {before after : List SpanRule} {tokens : List Token}

/-- All raw text has been settled by some rules. -/
def AllSettledBy (mode : Mode) (rules : List SpanRule) (tokens : List Token) : Prop :=
  ∀ s, .raw s ∈ tokens → SpanRule.SettledBy mode rules s

/-- A stage settles all raw text by one more rule. -/
theorem allSettledBy_stage (h : AllSettledBy mode before tokens) :
    AllSettledBy mode (before ++ [rule]) (stage mode rule tokens) := by
  intro u hu
  obtain ⟨t, ht, hu⟩ := List.mem_flatMap.1 hu
  cases t with
  | raw s => exact SpanRule.settledBy_of_mem_read (h s ht) hu
  | _ => cases List.mem_singleton.1 hu

/-- A stage is a beginning of settling if the rules before it leave the text as it is. -/
theorem settle_stage (hall : SpanRule.all = before ++ rule :: after) (h : AllSettledBy mode before tokens) :
    settle mode (stage mode rule tokens) = settle mode tokens := by
  induction tokens with
  | nil => rfl
  | cons t tokens ih =>
    have htail := ih fun s hs => h s (List.mem_cons_of_mem _ hs)
    rw [show t :: tokens = [t] ++ tokens from rfl, stage, expandRaw_append, ← stage, ← stage, settle_append,
      settle_append, htail]
    congr 1
    cases t with
    | raw s =>
      have hs := h s List.mem_cons_self
      by_cases hchange : rule.read mode s = [.raw s]
      · rw [stage, expandRaw_raw, hchange]
      · rw [stage, expandRaw_raw, settle.eq_2, SpanRule.cut_eq_read hall hs.read_eq hchange, List.append_nil]
    | _ => rfl

/-- Text that all rules leave as it is is finished. -/
theorem settle_eq_finish (h : AllSettledBy mode SpanRule.all tokens) : settle mode tokens = finish tokens := by
  induction tokens with
  | nil => rw [settle]; rfl
  | cons t tokens ih =>
    have htail := ih fun s hs => h s (List.mem_cons_of_mem _ hs)
    rw [show t :: tokens = [t] ++ tokens from rfl, settle_append, finish, expandRaw_append, ← finish, ← finish, htail]
    congr 1
    cases t with
    | raw s =>
      have htext : settle mode (Token.textIfAny s) = Token.textIfAny s := by
        unfold Token.textIfAny
        split
        · rw [settle]
        · rw [settle_cons (fun _ h => by cases h), settle]
      rw [settle, SpanRule.cut_eq_textIfAny (h s List.mem_cons_self).read_eq, List.append_nil, htext, finish,
        expandRaw_raw]
    | _ => rw [settle_cons (fun _ h => by cases h), settle]; rfl

end Stage

/-! ## All stages -/

section Stages

variable {mode : Mode} {before after : List SpanRule} {tokens : List Token}

theorem allSettledBy_stages (h : AllSettledBy mode before tokens) (rules : List SpanRule) :
    AllSettledBy mode (before ++ rules) (stages mode rules tokens) := by
  induction rules generalizing before tokens with
  | nil => rwa [List.append_nil]
  | cons rule rules ih =>
    rw [List.append_cons]
    exact ih (allSettledBy_stage h)

theorem settle_stages (hall : SpanRule.all = before ++ after) (h : AllSettledBy mode before tokens) :
    settle mode (stages mode after tokens) = settle mode tokens := by
  induction after generalizing before tokens with
  | nil => rfl
  | cons rule after ih =>
    have hstage : AllSettledBy mode (before ++ [rule]) (stage mode rule tokens) := allSettledBy_stage h
    exact (ih (by rw [hall, List.append_cons]) hstage).trans (settle_stage hall h)

theorem allSettledBy_rawIfAny (mode : Mode) (s : Text) : AllSettledBy mode [] (Token.rawIfAny s) := by
  intro u hu
  unfold Token.rawIfAny at hu
  split at hu
  · cases hu
  · next hs =>
    cases List.mem_singleton.1 hu
    exact ⟨hs, fun _ hr => nomatch hr⟩

/-- What is left of a text behind all stages are its tokens. -/
theorem finish_stages (mode : Mode) (s : Text) :
    finish (stages mode SpanRule.all (Token.rawIfAny s)) = readInline mode s := by
  have hstart := allSettledBy_rawIfAny mode s
  have hsettle : settle mode (stages mode SpanRule.all (Token.rawIfAny s)) = readInline mode s :=
    settle_stages rfl hstart
  rw [← hsettle]
  exact (settle_eq_finish (allSettledBy_stages hstart _)).symm

/-- **Reading goes by stages**: the tokens of a text are those that come of applying every rule once, in order, to all
text that is still raw, and taking the rest as it is. Behind the stages of any of the first rules, none of these rules
changes the text that is still raw. -/
theorem readInline_eq_stages (mode : Mode) (s : Text) :
    readInline mode s = finish (stages mode SpanRule.all (Token.rawIfAny s)) ∧
      ∀ rules, rules <+: SpanRule.all → ∀ u, .raw u ∈ stages mode rules (Token.rawIfAny s) →
        ∀ rule ∈ rules, rule.read mode u = [.raw u] := by
  refine ⟨(finish_stages mode s).symm, fun rules _ u hu => ?_⟩
  exact (allSettledBy_stages (allSettledBy_rawIfAny mode s) rules u hu).read_eq

/-- What the rule for arrows leaves of two glyphs that overlap is no glyph, neither for it nor for the rules before. -/
theorem readInline_eq_stages_overlap :
    let tokens := Token.rawIfAny "$a$ >=> *b*".toList
    [.math, .verbatim, .arrow] <+: SpanRule.all ∧
      .raw " >".toList ∈ stages ⟨false, false, []⟩ [.math, .verbatim, .arrow] tokens ∧
      SpanRule.math.read ⟨false, false, []⟩ " >".toList = [.raw " >".toList] ∧
      finish (stages ⟨false, false, []⟩ SpanRule.all tokens) =
        [.math "$a$".toList, .text " >".toList, .arrow ⟨"=>".toList, "Rightarrow".toList⟩, .text " ".toList,
          .italic "b".toList] := by
  intro tokens
  have hfirst : [.math, .verbatim, .arrow] <+: SpanRule.all := ⟨[.comparison, .bold, .italic], rfl⟩
  have hraw : .raw " >".toList ∈ stages ⟨false, false, []⟩ [.math, .verbatim, .arrow] tokens := by decide +kernel
  obtain ⟨hread, hsettled⟩ := readInline_eq_stages ⟨false, false, []⟩ "$a$ >=> *b*".toList
  refine ⟨hfirst, hraw, hsettled _ hfirst _ hraw .math List.mem_cons_self, ?_⟩
  rw [← hread]
  decide +kernel

end Stages

end Lectern
