import Lectern.Proofs.Outlines

/-!
# The way from lists to lists

The shortest way from open lists to others goes through those that they have in common: lists close until only these are
left, and then the rest of the others open. **`passage`** are the tags on this way, and they lead to the other lists
(`replayAll?_passage`). An outline **passes** to another (`Outline.Passes`) if it writes these tags and no more, and
every step of an outline does (`passes_closeTo`, `passes_reconcile`). `stack_closeTo` and `stack_reconcile` say which
lists are then open.
-/

set_option autoImplicit false

namespace Lectern

/-! ## What lists have in common -/

section Shared

variable {α : Type} [DecidableEq α]

/-- The longest list that two lists begin with. -/
def shared : List α → List α → List α
  | x :: xs, y :: ys => if x = y then x :: shared xs ys else []
  | _, _ => []

theorem shared_isPrefix_left (xs ys : List α) : shared xs ys <+: xs := by
  fun_induction shared xs ys with
  | case1 xs y ys ih => exact (List.prefix_cons_inj y).2 ih
  | case2 => exact List.nil_prefix
  | case3 => exact List.nil_prefix

theorem shared_isPrefix_right (xs ys : List α) : shared xs ys <+: ys := by
  fun_induction shared xs ys with
  | case1 xs y ys ih => exact (List.prefix_cons_inj y).2 ih
  | case2 => exact List.nil_prefix
  | case3 => exact List.nil_prefix

/-- There is no longer one. -/
theorem isPrefix_shared {zs xs ys : List α} (hx : zs <+: xs) (hy : zs <+: ys) : zs <+: shared xs ys := by
  induction zs generalizing xs ys with
  | nil => exact List.nil_prefix
  | cons z zs ih =>
    obtain ⟨xs, rfl⟩ := hx
    obtain ⟨ys, rfl⟩ := hy
    rw [List.cons_append, List.cons_append, shared, if_pos rfl]
    exact (List.prefix_cons_inj z).2 (ih (List.prefix_append _ _) (List.prefix_append _ _))

/-- Two lists have in common what stands in front of where they differ. -/
theorem shared_append (base : List α) {xs ys : List α} (h : ∀ x, xs.head? = some x → ys.head? ≠ some x) :
    shared (base ++ xs) (base ++ ys) = base := by
  induction base with
  | nil =>
    cases xs with
    | nil => rfl
    | cons x xs =>
      cases ys with
      | nil => rfl
      | cons y ys =>
        have hne : x ≠ y := fun he => h x rfl (congrArg some he.symm)
        exact if_neg hne
  | cons b base ih => rw [List.cons_append, List.cons_append, shared, if_pos rfl, ih]

end Shared

/-! ## Tags -/

/-- The tags that close lists, the innermost first. -/
def closingTags : List ListKind → List TagLine
  | [] => []
  | kind :: levels => ⟨levels.length, .closes kind⟩ :: closingTags levels

/-- The tags that open lists, the outermost first, inside of a number of others. -/
def openingTags (depth : Nat) : List ListKind → List TagLine
  | [] => []
  | kind :: kinds => ⟨depth, .opens kind⟩ :: openingTags (depth + 1) kinds

theorem length_closingTags (levels : List ListKind) : (closingTags levels).length = levels.length := by
  induction levels with
  | nil => rfl
  | cons kind levels ih => rw [closingTags, List.length_cons, ih, List.length_cons]

theorem drop_closingTags (n : Nat) (levels : List ListKind) :
    (closingTags levels).drop n = closingTags (levels.drop n) := by
  induction n generalizing levels with
  | zero => rfl
  | succ n ih =>
    cases levels with
    | nil => rfl
    | cons kind levels => rw [closingTags, List.drop_succ_cons, ih, List.drop_succ_cons]

/-- The tags on the way from open lists to others, both with the outermost first: what is not in common closes, and the
others open. -/
def passage (old new : List ListKind) : List TagLine :=
  let depth := (shared old new).length
  (closingTags old.reverse).take (old.length - depth) ++ openingTags depth (new.drop depth)

theorem passage_append (base : List ListKind) {closed opened : List ListKind}
    (h : ∀ kind, closed.head? = some kind → opened.head? ≠ some kind) :
    passage (base ++ closed) (base ++ opened) =
      (closingTags (base ++ closed).reverse).take closed.length ++ openingTags base.length opened := by
  have hlength : (base ++ closed).length - base.length = closed.length := by
    rw [List.length_append, Nat.add_sub_cancel_left]
  rw [passage, shared_append base h, hlength, List.drop_left]

theorem passage_self (stack : List ListKind) : passage stack stack = [] := by
  have h : passage (stack ++ []) (stack ++ []) = [] := passage_append stack fun _ hk => by cases hk
  rwa [List.append_nil] at h

theorem replayAll?_closingTags (n : Nat) (levels : List ListKind) :
    replayAll? ((closingTags levels).take n) levels = some (levels.drop n) := by
  induction n generalizing levels with
  | zero => rfl
  | succ n ih =>
    cases levels with
    | nil => rfl
    | cons kind levels =>
      have hfirst : (TagLine.mk levels.length (.closes kind)).replay? (kind :: levels) = some levels :=
        if_pos ⟨rfl, rfl⟩
      rw [closingTags, List.take_succ_cons, replayAll?, hfirst, List.drop_succ_cons]
      exact ih levels

theorem replayAll?_openingTags (kinds levels : List ListKind) :
    replayAll? (openingTags levels.length kinds) levels = some (kinds.reverse ++ levels) := by
  induction kinds generalizing levels with
  | nil => rfl
  | cons kind kinds ih =>
    have hfirst : (TagLine.mk levels.length (.opens kind)).replay? levels = some (kind :: levels) := if_pos rfl
    rw [openingTags, replayAll?, hfirst, List.reverse_cons, List.append_assoc]
    exact ih (kind :: levels)

/-- The passage arrives. -/
theorem replayAll?_passage (old new : List ListKind) : replayAll? (passage old new) old.reverse = some new.reverse := by
  obtain ⟨closed, hclosed⟩ := shared_isPrefix_left old new
  obtain ⟨opened, hopened⟩ := shared_isPrefix_right old new
  have hlength : old.length - (shared old new).length = closed.length := by
    rw [← congrArg List.length hclosed, List.length_append, Nat.add_sub_cancel_left]
  have hdrop : new.drop (shared old new).length = opened := by
    rw [← congrArg (List.drop (shared old new).length) hopened, List.drop_left]
  have hstay : old.reverse.drop closed.length = (shared old new).reverse := by
    rw [← congrArg List.reverse hclosed, List.reverse_append, ← List.length_reverse, List.drop_left]
  have hnew : opened.reverse ++ (shared old new).reverse = new.reverse := by
    rw [← List.reverse_append, hopened]
  have hopening := replayAll?_openingTags opened (shared old new).reverse
  rw [List.length_reverse, hnew] at hopening
  rw [passage, hlength, hdrop, replayAll?_append, replayAll?_closingTags, hstay]
  exact hopening

namespace Outline

/-- The open lists, the outermost first. -/
def stack (outline : Outline) : List ListKind := outline.levels.reverse

theorem length_stack (outline : Outline) : outline.stack.length = outline.depth := List.length_reverse

/-! ## Closing and opening -/

theorem pending_closeLists (n : Nat) (outline : Outline) :
    (closeLists n outline).pending = outline.pending ++ (closingTags outline.levels).take n := by
  induction n generalizing outline with
  | zero => exact (List.append_nil _).symm
  | succ n ih =>
    obtain ⟨levels, pending⟩ := outline
    rw [closeLists, ih]
    cases levels with
    | nil =>
      rw [closeInnermost, closingTags, List.take_nil, List.take_nil]
    | cons kind levels =>
      rw [closeInnermost, closingTags, List.take_succ_cons, List.append_assoc]
      rfl

theorem pending_closeTo (depth : Nat) (outline : Outline) :
    (outline.closeTo depth).pending = outline.pending ++ (closingTags outline.levels).take (outline.depth - depth) :=
  pending_closeLists _ outline

/-- All lists close. -/
theorem pending_closeTo_zero (outline : Outline) :
    (outline.closeTo 0).pending = outline.pending ++ closingTags outline.levels := by
  rw [pending_closeTo, Nat.sub_zero, depth, ← length_closingTags, List.take_length]

theorem stack_closeTo (depth : Nat) (outline : Outline) : (outline.closeTo depth).stack = outline.stack.take depth := by
  rw [stack, stack, levels_closeTo, List.take_reverse]

theorem openLists_eq (kind : ListKind) (n : Nat) (outline : Outline) :
    openLists kind n outline = ⟨List.replicate n kind ++ outline.levels,
      outline.pending ++ openingTags outline.depth (List.replicate n kind)⟩ := by
  induction n generalizing outline with
  | zero => rw [List.replicate_zero, openingTags, List.append_nil]; rfl
  | succ n ih =>
    rw [openLists, ih, depth_openList, openList, List.append_assoc]
    rw [List.replicate_succ', List.append_assoc]
    rw [← List.replicate_succ', List.replicate_succ]
    rfl

/-- What `exchange` does to a list of another kind. -/
theorem exchange_of_ne {kind innermost : ListKind} {outline : Outline} {levels : List ListKind}
    (hl : outline.levels = innermost :: levels) (hne : innermost ≠ kind) :
    outline.exchange kind = ⟨kind :: levels,
      outline.pending ++ [⟨levels.length, .closes innermost⟩] ++ [⟨levels.length, .opens kind⟩]⟩ := by
  obtain ⟨_, pending⟩ := outline
  cases hl
  exact if_neg hne

theorem exchange_of_eq {kind : ListKind} {outline : Outline} {levels : List ListKind}
    (hl : outline.levels = kind :: levels) : outline.exchange kind = outline := by
  obtain ⟨_, pending⟩ := outline
  cases hl
  exact if_pos rfl

/-! ## Steps -/

/-- The second outline has the tags on the way to its lists to write besides those of the first. -/
def Passes (first second : Outline) : Prop := second.pending = first.pending ++ passage first.stack second.stack

theorem Passes.refl (outline : Outline) : outline.Passes outline := by
  rw [Passes, passage_self, List.append_nil]

/-- Lists close and then others open, the outermost of which differ. -/
theorem passes_of_eq {first second : Outline} (base closed opened : List ListKind)
    (hfirst : first.levels = closed ++ base) (hsecond : second.levels = opened ++ base)
    (hp : second.pending =
      first.pending ++ (closingTags first.levels).take closed.length ++ openingTags base.length opened.reverse)
    (hne : ∀ kind, closed.getLast? = some kind → opened.getLast? ≠ some kind) : first.Passes second := by
  have hstack : first.stack = base.reverse ++ closed.reverse := by rw [stack, hfirst, List.reverse_append]
  have hstack' : second.stack = base.reverse ++ opened.reverse := by rw [stack, hsecond, List.reverse_append]
  have hheads : ∀ kind, closed.reverse.head? = some kind → opened.reverse.head? ≠ some kind := by
    rw [List.head?_reverse, List.head?_reverse]
    exact hne
  rw [Passes, hp, hstack, hstack', passage_append _ hheads, ← hstack, stack, List.reverse_reverse,
    List.length_reverse, List.length_reverse, List.append_assoc]

theorem passes_closeTo (depth : Nat) (outline : Outline) : outline.Passes (outline.closeTo depth) := by
  have hlevels := levels_closeTo depth outline
  refine passes_of_eq (outline.closeTo depth).levels (outline.levels.take (outline.levels.length - depth)) []
    ?_ rfl ?_ fun _ _ h => by cases h
  · rw [hlevels, List.take_append_drop]
  · rw [pending_closeTo, List.length_take, Nat.min_eq_left (Nat.sub_le _ _)]
    exact (List.append_nil _).symm

theorem passes_openLists (kind : ListKind) (n : Nat) (outline : Outline) :
    outline.Passes (openLists kind n outline) := by
  rw [openLists_eq]
  refine passes_of_eq outline.levels [] (List.replicate n kind) rfl rfl ?_ fun _ h => by cases h
  rw [List.reverse_replicate, List.length_nil, List.take_zero, List.append_nil]
  rfl

section Reconcile

variable {kind : ListKind} {depth : Nat} {outline : Outline}

theorem closeTo_of_le (h : outline.depth ≤ depth) : outline.closeTo depth = outline := by
  rw [closeTo, Nat.sub_eq_zero_of_le h]
  rfl

/-- Where fewer lists are open than asked for, the others open. -/
theorem reconcile_of_lt (h : outline.depth < depth) :
    outline.reconcile depth kind = openLists kind (depth - outline.depth) outline := by
  obtain ⟨n, hn⟩ : ∃ n, depth - outline.depth = n + 1 := ⟨depth - outline.depth - 1, by omega⟩
  have hlevels : (openLists kind (depth - outline.depth) outline).levels =
      kind :: (List.replicate n kind ++ outline.levels) := by
    rw [openLists_eq, hn, List.replicate_succ, List.cons_append]
  rw [reconcile, closeTo_of_le (Nat.le_of_lt h), exchange_of_eq hlevels]

/-- Where more are, the others close, and the innermost one that stays may be exchanged. -/
theorem reconcile_of_ge (h : depth ≤ outline.depth) :
    outline.reconcile depth kind = (outline.closeTo depth).exchange kind := by
  have hd : depth - (outline.closeTo depth).depth = 0 := by
    rw [depth_closeTo]
    omega
  rw [reconcile, hd]
  rfl

/-- The lists that stay open when lists are reconciled, the outermost first, and those that open. -/
theorem stack_reconcile (depth : Nat) (kind : ListKind) (outline : Outline) :
    (outline.reconcile (depth + 1) kind).stack =
      outline.stack.take depth ++ List.replicate (depth - outline.depth) kind ++ [kind] := by
  rcases Nat.lt_or_ge outline.depth (depth + 1) with h | h
  · obtain ⟨n, hn⟩ : ∃ n, depth = outline.depth + n := ⟨depth - outline.depth, by omega⟩
    have htake : outline.stack.take depth = outline.stack :=
      List.take_of_length_le (by rw [length_stack]; omega)
    have hopen : depth + 1 - outline.depth = n + 1 := by omega
    have hmissing : depth - outline.depth = n := by omega
    rw [reconcile_of_lt h, openLists_eq, stack, hopen, hmissing, htake, List.reverse_append, List.reverse_replicate,
      List.replicate_succ', List.append_assoc]
    rfl
  · have hmissing : depth - outline.depth = 0 := by omega
    have hlength : outline.depth - (depth + 1) < outline.levels.length := Nat.sub_lt (by omega) (by omega)
    have hrest : outline.depth - (depth + 1) + 1 = outline.depth - depth := by omega
    have hstay : (outline.closeTo (depth + 1)).levels =
        outline.levels[outline.depth - (depth + 1)] :: outline.levels.drop (outline.depth - depth) := by
      rw [levels_closeTo, ← hrest]
      exact List.drop_eq_getElem_cons hlength
    have hlevels : (outline.reconcile (depth + 1) kind).levels =
        kind :: outline.levels.drop (outline.depth - depth) := by
      rw [reconcile_of_ge h]
      by_cases hk : outline.levels[outline.depth - (depth + 1)] = kind
      · rw [hk] at hstay
        rw [exchange_of_eq hstay, hstay]
      · rw [exchange_of_ne hstay hk]
    rw [stack, hlevels, List.reverse_cons, hmissing, List.replicate_zero, List.append_nil, stack, List.take_reverse]
    rfl

/-- Reconciling writes no more tags than needed. -/
theorem passes_reconcile (depth : Nat) (kind : ListKind) (outline : Outline) :
    outline.Passes (outline.reconcile depth kind) := by
  rcases Nat.lt_or_ge outline.depth depth with h | h
  · rw [reconcile_of_lt h]
    exact passes_openLists kind _ outline
  · rw [reconcile_of_ge h]
    cases hstay : (outline.closeTo depth).levels with
    | nil =>
      have hnone : (outline.closeTo depth).exchange kind = outline.closeTo depth := by rw [exchange, hstay]
      rw [hnone]
      exact passes_closeTo depth outline
    | cons innermost levels =>
      by_cases hk : innermost = kind
      · rw [hk] at hstay
        rw [exchange_of_eq hstay]
        exact passes_closeTo depth outline
      · -- the innermost list that would stay closes as well, and one of the other kind opens in its place
        rw [exchange_of_ne hstay hk, pending_closeTo]
        rw [levels_closeTo] at hstay
        have hsplit : outline.levels = outline.levels.take (outline.depth - depth) ++ [innermost] ++ levels := by
          rw [List.append_assoc, List.singleton_append, ← hstay]
          exact (List.take_append_drop _ _).symm
        have hlength : (outline.levels.take (outline.depth - depth) ++ [innermost]).length =
            outline.depth - depth + 1 := by
          have hle : outline.depth - depth ≤ outline.levels.length := Nat.sub_le _ _
          rw [List.length_append, List.length_take, Nat.min_eq_left hle]
          rfl
        refine passes_of_eq levels _ [kind] hsplit rfl ?_ ?_
        · have hnext : ((closingTags outline.levels).drop (outline.depth - depth)).take 1 =
              [⟨levels.length, .closes innermost⟩] := by
            rw [drop_closingTags]
            exact congrArg (fun levels => (closingTags levels).take 1) hstay
          rw [hlength, List.take_add, hnext, ← List.append_assoc]
          rfl
        · intro other hlast
          rw [List.getLast?_concat] at hlast
          cases hlast
          exact fun hsame => hk (Option.some.inj hsame).symm

variable [Memory]

/-- As many lists open as an indentation allows. -/
theorem openListsWithin_cases (indentation : Indentation) (kind : ListKind) (n : Nat) (outline : Outline) :
    ∃ m ≤ n, (∀ inside < m, indentation.allows (outline.depth + inside) = .ok ()) ∧
      ((m = n ∧ openListsWithin indentation kind n outline = (openLists kind n outline, .ok ())) ∨
        (m < n ∧ ∃ reason, indentation.allows (outline.depth + m) = .error reason ∧
          openListsWithin indentation kind n outline = (openLists kind m outline, .error reason))) := by
  induction n generalizing outline with
  | zero => exact ⟨0, Nat.le_refl 0, fun _ h => absurd h (Nat.not_lt_zero _), .inl ⟨rfl, rfl⟩⟩
  | succ n ih =>
    cases ha : indentation.allows outline.depth with
    | error reason =>
      refine ⟨0, Nat.zero_le _, fun _ h => absurd h (Nat.not_lt_zero _), .inr ⟨Nat.zero_lt_succ n, reason, ha, ?_⟩⟩
      simp only [openListsWithin, ha]
      rfl
    | ok done =>
      obtain ⟨m, hm, hallows, hcases⟩ := ih (outline.openList kind)
      have hnext : openListsWithin indentation kind (n + 1) outline =
          openListsWithin indentation kind n (outline.openList kind) := by
        simp only [openListsWithin, ha]
      refine ⟨m + 1, Nat.succ_le_succ hm, fun inside hi => ?_, ?_⟩
      · cases inside with
        | zero => exact ha
        | succ inside =>
          have hinside := hallows inside (by omega)
          rwa [depth_openList, Nat.add_right_comm] at hinside
      · rw [hnext]
        rcases hcases with ⟨rfl, h⟩ | ⟨hlt, reason, he, h⟩
        · exact .inl ⟨rfl, h⟩
        · rw [depth_openList, Nat.add_right_comm] at he
          exact .inr ⟨Nat.succ_lt_succ hlt, reason, he, h⟩

/-- The whole step is done if the indentation allows to open the lists that are missing, and otherwise some of them
open. -/
theorem reconcileWithin_cases (indentation : Indentation) (depth : Nat) (kind : ListKind) (outline : Outline) :
    (outline.reconcileWithin indentation depth kind = (outline.reconcile depth kind, .ok ()) ∧
      (outline.depth < depth → indentation.allows (depth - 1) = .ok ())) ∨
    ∃ m reason, outline.depth + m < depth ∧ indentation.allows (outline.depth + m) = .error reason ∧
      (∀ inside < m, indentation.allows (outline.depth + inside) = .ok ()) ∧
      outline.reconcileWithin indentation depth kind = (openLists kind m outline, .error reason) := by
  obtain ⟨m, -, hallows, ⟨rfl, h⟩ | ⟨hm, reason, he, h⟩⟩ := openListsWithin_cases indentation kind
    (depth - (outline.closeTo depth).depth) (outline.closeTo depth)
  · refine .inl ⟨by simp only [reconcileWithin, h, reconcile], fun hlt => ?_⟩
    rw [closeTo_of_le (Nat.le_of_lt hlt)] at hallows
    have hlast := hallows (depth - outline.depth - 1) (by omega)
    rwa [show outline.depth + (depth - outline.depth - 1) = depth - 1 by omega] at hlast
  · rw [depth_closeTo] at hm
    have hle : outline.depth ≤ depth := by omega
    rw [closeTo_of_le hle] at h he hallows
    refine .inr ⟨m, reason, by omega, he, hallows, ?_⟩
    rw [reconcileWithin, closeTo_of_le hle]
    simp only [h]

end Reconcile

end Outline

end Lectern
