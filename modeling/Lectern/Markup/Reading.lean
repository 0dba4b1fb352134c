import Lectern.Markup.LineStart
import Lectern.Markup.Span

/-!
# Reading lines

**`readLine`** turns a line into tokens: the line rules look at the first token for as long as it is raw, and
**`readInline`** classifies the raw text that they leave. It always works on the first raw token: the first span rule
that changes the token replaces it, and what the replacement leaves raw is looked at again by all rules; text that no
rule changes stands for itself. `weight_read_lt` says why this ends.
-/

set_option autoImplicit false

namespace Lectern

/-- The text that is left when all rules are done: it stands for itself, without its line ends. -/
def Token.textIfAny (s : Text) : List Token :=
  match s.filter fun c => c != '\r' && c != '\n' with
  | [] => []
  | content => [.text content]

namespace SpanRule

/-- What replaces a raw token: what the first rule that changes it makes of it, and otherwise its text. -/
def cut (mode : Mode) (s : Text) : List Token :=
  ((all.map fun rule => rule.read mode s).find? fun tokens => tokens != [.raw s]).getD (Token.textIfAny s)

/-! ## A measure for raw text -/

/-- A measure of tokens that counts a raw character thrice and a token once. -/
def weight : List Token → Nat
  | [] => 0
  | .raw s :: tokens => 3 * s.length + 1 + weight tokens
  | _ :: tokens => 1 + weight tokens

theorem weight_append (ts us : List Token) : weight (ts ++ us) = weight ts + weight us := by
  induction ts with
  | nil => simp [weight]
  | cons t ts ih => cases t <;> simp [weight, ih] <;> omega

theorem gather_map_plain (s : Text) : gather (s.map .plain) = Token.rawIfAny s := by
  induction s with
  | nil => rfl
  | cons c s ih =>
    simp only [List.map_cons, gather, ih]
    cases s <;> simp [Token.rawIfAny]

theorem weight_lt_cons (t : Token) (ts : List Token) : weight ts < weight (t :: ts) := by
  cases t <;> simp [weight]

theorem weight_cons (t : Token) (ts : List Token) (h : ∀ s, t ≠ .raw s) : weight (t :: ts) = 1 + weight ts := by
  cases t <;> simp_all [weight]

/-- What a rule finds is no raw text. -/
theorem front?_ne_raw {rule : SpanRule} {s rest u : Text} {t : Token} (h : rule.front? s = some (t, rest)) :
    t ≠ .raw u := by
  cases rule with
  | verbatim =>
    simp only [front?, verbatimFront?] at h
    split at h <;> try split at h
    all_goals grind
  | _ =>
    simp only [front?, mathFront?, glyphFront?, starFront?] at h
    split at h <;> simp only [Option.map_eq_some_iff, Option.some.injEq, Prod.mk.injEq] at h <;> grind

/-- Unless a rule finds nothing at all, it makes a text lighter. -/
theorem weight_gather_pieces (rule : SpanRule) (s : Text) :
    rule.pieces s = s.map .plain ∨ weight (gather (rule.pieces s)) ≤ 3 * s.length ∧
      ((∀ u ts, gather (rule.pieces s) ≠ .raw u :: ts) → weight (gather (rule.pieces s)) + 1 ≤ 3 * s.length) := by
  fun_induction pieces rule s with
  | case1 => simp
  | case2 c s t rest h ih =>
    have hl := length_lt_of_front? h
    have hw : weight (gather (rule.pieces rest)) ≤ 3 * rest.length + 1 := by
      rcases ih with ih | ih
      · rw [ih, gather_map_plain]
        unfold Token.rawIfAny
        split <;> simp [weight]
      · omega
    simp only [gather]
    rw [weight_cons t _ fun u => front?_ne_raw h]
    right
    omega
  | case3 c s h ih =>
    rcases ih with ih | ⟨h₁, h₂⟩
    · simp [ih]
    · right
      simp only [gather]
      split
      · next u ts hg =>
        rw [hg] at h₁
        simp only [weight, List.length_cons] at h₁ ⊢
        exact ⟨by omega, fun hn => absurd rfl (hn _ _)⟩
      · next hg =>
        have := h₂ fun u ts => hg u ts
        simp only [weight, List.length_cons, List.length_nil]
        exact ⟨by omega, fun hn => absurd rfl (hn _ _)⟩

/-- A rule that changes a raw token makes it lighter. -/
theorem weight_read_lt {rule : SpanRule} {mode : Mode} {s : Text} (h : rule.read mode s ≠ [.raw s]) :
    weight (rule.read mode s) < weight [.raw s] := by
  have hr : Token.rawIfAny s ≠ [.raw s] → weight (Token.rawIfAny s) < weight [.raw s] := by
    unfold Token.rawIfAny
    split <;> simp [weight]
  unfold read at h ⊢
  split at h
  · next ha =>
    simp only [ha, if_true]
    rcases weight_gather_pieces rule s with hp | hp
    · rw [hp, gather_map_plain] at h ⊢
      exact hr h
    · simp only [weight]
      omega
  · next ha =>
    simp only [ha]
    exact hr h

theorem weight_textIfAny_lt (s : Text) : weight (Token.textIfAny s) < weight [.raw s] := by
  unfold Token.textIfAny
  split
  · simp [weight]
  · next content hc =>
    have := List.length_filter_le (fun c => c != '\r' && c != '\n') s
    cases s with
    | nil => simp_all
    | cons c s => simp [weight]

/-- What replaces a raw token is lighter. -/
theorem weight_cut_lt (mode : Mode) (s : Text) : weight (cut mode s) < weight [.raw s] := by
  unfold cut
  cases h : (all.map fun rule => rule.read mode s).find? fun tokens => tokens != [.raw s] with
  | none => exact weight_textIfAny_lt s
  | some tokens =>
    have hp := List.find?_some h
    obtain ⟨rule, -, rfl⟩ := List.mem_map.1 (List.mem_of_find?_eq_some h)
    exact weight_read_lt (by simpa using hp)

end SpanRule

/-! ## Lines -/

/-- Classifies all raw text in a list of tokens. -/
def settle (mode : Mode) : List Token → List Token
  | [] => []
  | .raw s :: tokens => settle mode (SpanRule.cut mode s ++ tokens)
  | token :: tokens => token :: settle mode tokens
termination_by tokens => SpanRule.weight tokens
decreasing_by
  · have := SpanRule.weight_cut_lt mode s
    simp only [SpanRule.weight_append, SpanRule.weight] at this ⊢
    omega
  · exact SpanRule.weight_lt_cons _ _

/-- The tokens of a text in which nothing is sought that belongs to the start of a line. -/
def readInline (mode : Mode) (s : Text) : List Token := settle mode (Token.rawIfAny s)

/-- The line rules, each on the first token if that is still raw; they stop at a line that one of them settles. -/
def readStart (mode : Mode) : List LineRule → List Token → Mode × Except UnknownDelimiter (List Token)
  | rule :: rules, .raw s :: tokens =>
    match rule.read mode s with
    | (mode, .ok found) => readStart mode rules (found ++ tokens)
    | (mode, .error unknown) => (mode, .error unknown)
  | _, tokens => (mode, .ok tokens)

/-- The tokens of a line and the mode behind it. -/
def readLine (mode : Mode) (line : Text) : Mode × Except UnknownDelimiter (List Token) :=
  match readStart mode LineRule.all [.raw line] with
  | (mode, .ok tokens) => (mode, .ok (settle mode tokens))
  | (mode, .error unknown) => (mode, .error unknown)

end Lectern
