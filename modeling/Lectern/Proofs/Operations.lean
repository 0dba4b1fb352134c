import Lectern.Draft
import Lectern.Proofs.Passages
import Lectern.Proofs.Runs

/-!
# Operations on lists and lines

What is known of a document between two lines can be changed by one **`Operation`** after the other, in any order: lists
are begun and closed, the line is set, blocks open and close, the head ends, and now and then the pending tags are taken
together with the line. **`Progress.Step`** lists all that an operation can do. Tags are only **queued** behind those
that are pending (`queued`) and come out when they are taken (`flushed`); `queued_eq` says that none is lost and none
comes out twice. **`operations_replay`** is what they are good for: read in order, they lead to the lists that are open.
-/

set_option autoImplicit false

namespace Lectern

/-- A step in which what is known of a document between two lines changes. -/
inductive Operation where
  /-- Lists close and open until the innermost one is of a kind and at a level. -/
  | beginList (level : Int) (kind : ListKind)
  /-- Lists close until at most as many are open as a level says. -/
  | closeTo (level : Int)
  | setLine (line : Text)
  /-- The pending tags are written, and the line behind them. -/
  | take
  | toggleVerbatim
  | toggleMath (delimiter : Text)
  | endHead
deriving DecidableEq, Repr

/-- Why an operation fails. -/
inductive Operation.Failure where
  | negativeLevel (failure : NegativeLevel)
  | unindentable (reason : Unindentable)
deriving DecidableEq, Repr

namespace Progress

section Definitions

variable [Memory] (indentation : Indentation)

/-- Carries out an operation; only taking the line gives something. -/
def perform (operation : Operation) (progress : Progress) :
    Progress × Except Operation.Failure (Option WrittenLine) :=
  match operation with
  | .beginList level kind =>
    match depthOfLevel? level with
    | .error failure => (progress, .error (.negativeLevel failure))
    | .ok depth =>
      let (next, done) := progress.reconcile indentation depth kind
      (next, (done.mapError .unindentable).map fun _ => none)
  | .closeTo level => (progress.closeTo level, .ok none)
  | .setLine line => (progress.setLine line, .ok none)
  | .take =>
    let (next, written) := progress.takeWithin indentation
    (next, (written.mapError .unindentable).map some)
  | .toggleVerbatim => (progress.mapMode Mode.toggleVerbatim, .ok none)
  | .toggleMath delimiter => (progress.mapMode (Mode.toggleMath delimiter), .ok none)
  | .endHead => (progress.endHead, .ok none)

/-- The progress behind operations. -/
def behind : List Operation → Progress → Progress
  | [], progress => progress
  | operation :: operations, progress => behind operations (progress.perform indentation operation).1

/-- The tags that an operation puts behind the pending ones. -/
def queuedBy (operation : Operation) (progress : Progress) : List TagLine :=
  if operation = .take then []
  else (progress.perform indentation operation).1.outline.pending.drop progress.outline.pending.length

/-- The tags that come out of an operation. -/
def flushedBy (operation : Operation) (progress : Progress) : List TagLine :=
  match (progress.perform indentation operation).2 with
  | .ok (some written) => written.tags
  | _ => []

/-- The tags that operations put behind the pending ones, in their order. -/
def queued : List Operation → Progress → List TagLine
  | [], _ => []
  | operation :: operations, progress =>
    progress.queuedBy indentation operation ++ queued operations (progress.perform indentation operation).1

/-- The tags that come out of operations, in their order. -/
def flushed : List Operation → Progress → List TagLine
  | [], _ => []
  | operation :: operations, progress =>
    progress.flushedBy indentation operation ++ flushed operations (progress.perform indentation operation).1

end Definitions

/-! ## One operation -/

/-- The innermost list could be opened where it is. -/
def Opened [Memory] (indentation : Indentation) (progress : Progress) : Prop :=
  indentation.allows (progress.outline.depth - 1) = .ok ()

/-- What an operation does to the progress, and what comes of it. -/
inductive Step [Memory] (indentation : Indentation) (progress : Progress) :
    Operation → Progress → Except Operation.Failure (Option WrittenLine) → Prop
  | negative (level : Int) (kind : ListKind) : level < 0 →
      Step indentation progress (.beginList level kind) progress (.error (.negativeLevel ⟨level⟩))
  | begun (depth : Nat) (kind : ListKind) :
      (progress.outline.depth < depth → indentation.allows (depth - 1) = .ok ()) →
      Step indentation progress (.beginList depth kind) (progress.mapOutline (Outline.reconcile depth kind)) (.ok none)
  | stopped (depth : Nat) (kind : ListKind) (opened : Nat) (reason : Unindentable) :
      progress.outline.depth + opened < depth →
      indentation.allows (progress.outline.depth + opened) = .error reason →
      (∀ inside < opened, indentation.allows (progress.outline.depth + inside) = .ok ()) →
      Step indentation progress (.beginList depth kind) (progress.mapOutline (Outline.openLists kind opened))
        (.error (.unindentable reason))
  | closed (level : Int) : Step indentation progress (.closeTo level) (progress.closeTo level) (.ok none)
  | kept (operation : Operation) (next : Progress) : (∀ level kind, operation ≠ .beginList level kind) →
      operation ≠ .take → next.outline = progress.outline → Step indentation progress operation next (.ok none)
  | taken : progress.mode.verbatim = true ∨ progress.line = [] ∨
        indentation.allows progress.outline.depth = .ok () →
      Step indentation progress .take progress.take.2 (.ok (some progress.take.1))
  | untaken (reason : Unindentable) : progress.mode.verbatim = false → progress.line ≠ [] →
      indentation.allows progress.outline.depth = .error reason →
      Step indentation progress .take progress (.error (.unindentable reason))

section Steps

variable {indentation : Indentation} {progress next : Progress} {operation : Operation}
  {result : Except Operation.Failure (Option WrittenLine)} [Memory]

theorem perform_ofNat (depth : Nat) (kind : ListKind) :
    progress.perform indentation (.beginList (.ofNat depth) kind) =
      (progress.mapOutline fun outline => (outline.reconcileWithin indentation depth kind).1,
        ((progress.outline.reconcileWithin indentation depth kind).2.mapError .unindentable).map fun _ => none) := rfl

theorem step_beginList (level : Int) (kind : ListKind) :
    Step indentation progress (.beginList level kind) (progress.perform indentation (.beginList level kind)).1
      (progress.perform indentation (.beginList level kind)).2 := by
  cases level with
  | negSucc n => exact .negative (.negSucc n) kind (Int.negSucc_lt_zero n)
  | ofNat depth =>
    rcases Outline.reconcileWithin_cases indentation depth kind progress.outline with
      ⟨h, ha⟩ | ⟨opened, reason, hlt, he, ha, h⟩
    · have hp : progress.perform indentation (.beginList (.ofNat depth) kind) =
          (progress.mapOutline (Outline.reconcile depth kind), .ok none) := by
        rw [perform_ofNat, mapOutline, h]
        rfl
      rw [hp]
      exact .begun depth kind ha
    · have hp : progress.perform indentation (.beginList (.ofNat depth) kind) =
          (progress.mapOutline (Outline.openLists kind opened), .error (.unindentable reason)) := by
        rw [perform_ofNat, mapOutline, h]
        rfl
      rw [hp]
      exact .stopped depth kind opened reason hlt he ha

theorem step_take : Step indentation progress .take (progress.perform indentation .take).1
    (progress.perform indentation .take).2 := by
  cases h : progress.take.1.depth?.elim (.ok ()) indentation.allows with
  | ok done =>
    have hp : progress.perform indentation .take = (progress.take.2, .ok (some progress.take.1)) := by
      simp only [perform, takeWithin, h]
      rfl
    rw [hp]
    refine .taken ?_
    by_cases hd : (progress.mode.verbatim || progress.line == []) = true
    · rw [Bool.or_eq_true, beq_iff_eq] at hd
      exact hd.imp id .inl
    · rw [take, if_neg hd] at h
      exact .inr (.inr h)
  | error reason =>
    have hp : progress.perform indentation .take = (progress, .error (.unindentable reason)) := by
      simp only [perform, takeWithin, h]
      rfl
    rw [hp]
    by_cases hd : (progress.mode.verbatim || progress.line == []) = true
    · rw [take, if_pos hd] at h
      cases h
    · rw [take, if_neg hd] at h
      rw [Bool.or_eq_true, beq_iff_eq, not_or, Bool.not_eq_true] at hd
      exact .untaken reason hd.1 hd.2 h

/-- Every operation makes a step. -/
theorem step_perform (indentation : Indentation) (operation : Operation) (progress : Progress) :
    Step indentation progress operation (progress.perform indentation operation).1
      (progress.perform indentation operation).2 := by
  cases operation with
  | beginList level kind => exact step_beginList level kind
  | closeTo level => exact .closed level
  | take => exact step_take
  | _ => exact .kept _ _ (fun _ _ h => by cases h) (fun h => by cases h) rfl

/-- Unless the pending tags are taken, those on the shortest way to the new lists are put behind them. -/
theorem Step.passes (h : Step indentation progress operation next result) (ht : operation ≠ .take) :
    progress.outline.Passes next.outline := by
  cases h with
  | negative => exact .refl _
  | begun depth kind ha => exact Outline.passes_reconcile depth kind _
  | stopped depth kind opened reason hlt he ha => exact Outline.passes_openLists kind opened _
  | closed level => exact Outline.passes_closeTo level.toNat _
  | kept operation next hb ht' ho =>
    rw [ho]
    exact .refl _
  | taken => exact absurd rfl ht
  | untaken => exact absurd rfl ht

/-- Taking the pending tags leaves the lists as they are. -/
theorem Step.levels_take (h : Step indentation progress .take next result) :
    next.outline.levels = progress.outline.levels := by
  cases h with
  | kept _ _ hb ht ho => exact absurd rfl ht
  | taken => rfl
  | untaken => rfl

/-- Whatever lists an operation leaves open, the innermost one could be opened. -/
theorem Step.opened (h : Step indentation progress operation next result) (hp : progress.Opened indentation) :
    next.Opened indentation := by
  cases h with
  | negative => exact hp
  | begun depth kind ha =>
    rw [Opened, mapOutline, Outline.depth_reconcile]
    rcases Nat.lt_or_ge progress.outline.depth depth with hlt | hge
    · exact ha hlt
    · exact Indentation.allows_of_le hp (by omega)
  | stopped depth kind opened reason hlt he ha =>
    rw [Opened, mapOutline, Outline.depth_openLists]
    cases opened with
    | zero => exact hp
    | succ opened => exact ha opened (Nat.lt_succ_self _)
  | closed level =>
    rw [Opened, closeTo, mapOutline, Outline.depth_closeTo]
    exact Indentation.allows_of_le hp (by omega)
  | kept operation next hb ht ho => rwa [Opened, ho]
  | taken => exact hp
  | untaken => exact hp

/-- The tags that an operation puts behind the pending ones are those on the shortest way to the new lists. -/
theorem queuedBy_eq_passage (indentation : Indentation) (operation : Operation) (progress : Progress) :
    progress.queuedBy indentation operation =
      passage progress.outline.stack (progress.perform indentation operation).1.outline.stack := by
  have h := step_perform indentation operation progress
  by_cases ht : operation = .take
  · subst ht
    rw [queuedBy, if_pos rfl, Outline.stack, Outline.stack, h.levels_take, passage_self]
  · rw [queuedBy, if_neg ht, h.passes ht, List.drop_left]

/-- They lead from the old lists to the new ones. -/
theorem replayAll?_queuedBy (indentation : Indentation) (operation : Operation) (progress : Progress) :
    replayAll? (progress.queuedBy indentation operation) progress.outline.levels =
      some (progress.perform indentation operation).1.outline.levels := by
  have h := replayAll?_passage progress.outline.stack (progress.perform indentation operation).1.outline.stack
  rwa [← queuedBy_eq_passage, Outline.stack, Outline.stack, List.reverse_reverse, List.reverse_reverse] at h

/-- What was pending or is put behind it either comes out or is pending. -/
theorem pending_append_queuedBy (indentation : Indentation) (operation : Operation) (progress : Progress) :
    progress.outline.pending ++ progress.queuedBy indentation operation =
      progress.flushedBy indentation operation ++ (progress.perform indentation operation).1.outline.pending := by
  have h := step_perform indentation operation progress
  rw [queuedBy_eq_passage, flushedBy]
  generalize (progress.perform indentation operation).1 = next at h ⊢
  generalize (progress.perform indentation operation).2 = result at h ⊢
  by_cases ht : operation = .take
  · subst ht
    rw [Outline.stack, Outline.stack, h.levels_take, passage_self, List.append_nil]
    cases h with
    | kept _ _ hb ht ho => exact absurd rfl ht
    | taken => exact (List.append_nil _).symm
    | untaken => rfl
  · rw [← h.passes ht]
    cases h with
    | taken => exact absurd rfl ht
    | _ => rfl

end Steps

/-! ## All operations -/

section Runs

variable [Memory] {indentation : Indentation}

theorem opened_behind (operations : List Operation) {progress : Progress} (h : progress.Opened indentation) :
    (progress.behind indentation operations).Opened indentation := by
  induction operations generalizing progress with
  | nil => exact h
  | cons operation operations ih => exact ih ((step_perform indentation operation progress).opened h)

/-- Every tag that was ever pending has come out once or is pending still. -/
theorem queued_eq (operations : List Operation) (progress : Progress) :
    progress.outline.pending ++ progress.queued indentation operations =
      progress.flushed indentation operations ++ (progress.behind indentation operations).outline.pending := by
  induction operations generalizing progress with
  | nil => exact List.append_nil _
  | cons operation operations ih =>
    rw [queued, flushed, behind, ← List.append_assoc, pending_append_queuedBy, List.append_assoc, ih,
      List.append_assoc]

/-- The tags lead from the lists that were open at first to those that are open in the end. -/
theorem replayAll?_queued (operations : List Operation) (progress : Progress) :
    replayAll? (progress.queued indentation operations) progress.outline.levels =
      some (progress.behind indentation operations).outline.levels := by
  induction operations generalizing progress with
  | nil => rfl
  | cons operation operations ih =>
    rw [queued, replayAll?_append, replayAll?_queuedBy]
    exact ih _

end Runs

end Progress

/-! ## Spaces -/

/-- The spaces that an operation asks for do not fit into the memory. The tag that opens a list stands one level further
out than its items. -/
def Operation.TooWide [Memory] (width : Int) (progress : Progress) : Operation → Prop
  | .beginList level _ => Memory.size < width * (level - 1)
  | .take => progress.mode.verbatim = false ∧ progress.line ≠ [] ∧
      Memory.size < width * progress.outline.depth
  | _ => False

namespace Progress

/-- What an operation does that indents lines by so many spaces for each list. -/
structure Performs [Memory] (width : Int) (operation : Operation) (progress next : Progress)
    (result : Except Operation.Failure (Option WrittenLine)) : Prop where
  /-- Only the tags on the shortest way to the new lists are queued. -/
  queued : progress.queuedBy (.spaces width) operation = passage progress.outline.stack next.outline.stack
  /-- A level below zero is refused, and nothing else happens. -/
  negative : ∀ level kind, operation = .beginList level kind → level < 0 →
    result = .error (.negativeLevel ⟨level⟩) ∧ next = progress
  /-- What does not fit into the memory is refused. -/
  wide : operation.TooWide width progress → ∃ why, result = .error (.unindentable (.unrepeatable why))
  /-- Nothing else is. -/
  failure : ∀ failure, result = .error failure →
    (∃ level kind, operation = .beginList level kind ∧ level < 0) ∨ operation.TooWide width progress
  /-- A list that begins is the innermost one at its level. -/
  begun : ∀ level kind, operation = .beginList level kind → ∀ written?, result = .ok written? →
    (next.outline.depth : Int) = level ∧ (0 < level → next.outline.levels.head? = some kind)
  /-- Tags that cannot be taken stay where they are, and the line does. -/
  untaken : operation = .take → ∀ failure, result = .error failure → next = progress

section Width

variable {width : Int} {progress next : Progress} {operation : Operation}
  {result : Except Operation.Failure (Option WrittenLine)} [Memory]

theorem fits_of_nonpos {level : Int} (hw : 0 ≤ width) (hl : level ≤ 0) : width * (level - 1) ≤ Memory.size := by
  have h : width * (level - 1) ≤ 0 := Int.mul_nonpos_of_nonneg_of_nonpos hw (by omega)
  omega

/-- A list that can be opened asks for no more spaces than fit. -/
theorem fits_of_allows {depth : Nat} (hw : 0 ≤ width) (h : (Indentation.spaces width).allows (depth - 1) = .ok ()) :
    width * ((depth : Int) - 1) ≤ Memory.size := by
  rcases Nat.eq_zero_or_pos depth with rfl | hd
  · exact fits_of_nonpos hw (Int.le_refl 0)
  · have hfits := (Indentation.allows_iff_fits hw).1 h
    rwa [Int.natCast_sub hd] at hfits

/-- An operation fails for two reasons only. -/
theorem Step.failure_cases {failure : Operation.Failure}
    (h : Step (.spaces width) progress operation next (.error failure)) (hw : 0 ≤ width) :
    (∃ level kind, operation = .beginList level kind ∧ level < 0) ∨
      (∃ why, failure = .unindentable (.unrepeatable why)) ∧ operation.TooWide width progress := by
  cases h with
  | negative level kind hl => exact .inl ⟨level, kind, rfl, hl⟩
  | stopped depth kind opened reason hlt he ha =>
    obtain ⟨why, rfl⟩ := Indentation.unrepeatable_of_allows_spaces he
    have hle : width * ((progress.outline.depth + opened : Nat) : Int) ≤ width * ((depth : Int) - 1) :=
      Int.mul_le_mul_of_nonneg_left (by omega) hw
    exact .inr ⟨⟨why, rfl⟩, Int.lt_of_lt_of_le (Indentation.not_fits_of_allows hw he) hle⟩
  | untaken reason hv hl he =>
    obtain ⟨why, rfl⟩ := Indentation.unrepeatable_of_allows_spaces he
    exact .inr ⟨⟨why, rfl⟩, hv, hl, Indentation.not_fits_of_allows hw he⟩

/-- An operation that does not fail asks for no more spaces than fit. -/
theorem Step.not_tooWide {written? : Option WrittenLine}
    (h : Step (.spaces width) progress operation next (.ok written?)) (hw : 0 ≤ width)
    (hp : progress.Opened (.spaces width)) : ¬ operation.TooWide width progress := by
  cases h with
  | begun depth kind ha =>
    refine Int.not_lt.2 (fits_of_allows hw ?_)
    rcases Nat.lt_or_ge progress.outline.depth depth with hlt | hge
    · exact ha hlt
    · exact Indentation.allows_of_le hp (by omega)
  | closed level => exact id
  | kept _ _ hb ht ho =>
    cases operation with
    | beginList level kind => exact absurd rfl (hb level kind)
    | take => exact absurd rfl ht
    | _ => exact id
  | taken hd =>
    rintro ⟨hv, hl, hwide⟩
    rcases hd with hd | hd | hd
    · rw [hv] at hd
      cases hd
    · exact hl hd
    · exact Int.not_le.2 hwide ((Indentation.allows_iff_fits hw).1 hd)

/-- A list that begins is the innermost one at its level. -/
theorem Step.innermost {level : Int} {kind : ListKind} {written? : Option WrittenLine}
    (h : Step (.spaces width) progress (.beginList level kind) next (.ok written?)) :
    (next.outline.depth : Int) = level ∧ (0 < level → next.outline.levels.head? = some kind) := by
  cases h with
  | begun depth kind ha =>
    refine ⟨congrArg Int.ofNat (Outline.depth_reconcile depth kind progress.outline), fun hl => ?_⟩
    obtain ⟨outer, rfl⟩ : ∃ outer, depth = outer + 1 := ⟨depth - 1, by omega⟩
    have hstack := Outline.stack_reconcile outer kind progress.outline
    have hlast := congrArg List.getLast? hstack
    rwa [Outline.stack, List.getLast?_reverse, List.getLast?_concat] at hlast
  | kept _ _ hb ht ho => exact absurd rfl (hb level kind)

/-- Every operation does what it is to do, wherever the innermost list could be opened. -/
theorem performs_perform (hw : 0 ≤ width) (hp : progress.Opened (.spaces width)) (operation : Operation) :
    Performs width operation progress (progress.perform (.spaces width) operation).1
      (progress.perform (.spaces width) operation).2 := by
  have hqueued := queuedBy_eq_passage (.spaces width) operation progress
  have h := step_perform (.spaces width) operation progress
  generalize (progress.perform (.spaces width) operation).1 = next at hqueued h ⊢
  generalize (progress.perform (.spaces width) operation).2 = result at h ⊢
  refine ⟨hqueued, ?_, fun hwide => ?_, ?_, ?_, ?_⟩
  · rintro level kind rfl hl
    cases h with
    | negative => exact ⟨rfl, rfl⟩
    | kept _ _ hb ht ho => exact absurd rfl (hb level kind)
    | _ => omega
  · cases result with
    | ok written? => exact absurd hwide (h.not_tooWide hw hp)
    | error failure =>
      rcases h.failure_cases hw with ⟨level, kind, rfl, hl⟩ | ⟨⟨why, rfl⟩, -⟩
      · exact absurd hwide (Int.not_lt.2 (fits_of_nonpos hw (Int.le_of_lt hl)))
      · exact ⟨why, rfl⟩
  · rintro failure rfl
    exact (h.failure_cases hw).imp id And.right
  · rintro level kind rfl written? rfl
    exact h.innermost
  · rintro rfl failure rfl
    cases h with
    | untaken => rfl

end Width

/-- **Tags replay to the open lists.** A draft that indents lines by some number of spaces begins with no list, and
whatever operations change it then, in any order: every tag that was queued came out once or is pending still; all of
them, read in order, lead to the lists that are open; and the next line is indented by so many spaces for each of these.
Every further operation is refused only if it asks for a level below zero or for more spaces than the memory holds. -/
theorem operations_replay [Memory] {width : Int} (hw : 1 ≤ width) :
    ∃ draft, Draft.new (RawSettings.default.set .indentWidth (.int width)) = .ok draft ∧
      draft.converter.indentation = .spaces width ∧ draft.converter.progress = initial ∧
      ∀ operations, let reached := initial.behind (.spaces width) operations
        initial.queued (.spaces width) operations =
          initial.flushed (.spaces width) operations ++ reached.outline.pending ∧
        replayAll? (initial.queued (.spaces width) operations) [] = some reached.outline.levels ∧
        Draft.indentation { draft with converter := { draft.converter with progress := reached } } =
          .ok (.int (width * reached.outline.depth)) ∧
        ∀ operation, Performs width operation reached (reached.perform (.spaces width) operation).1
          (reached.perform (.spaces width) operation).2 := by
  have hwidth : 0 ≤ width := by omega
  refine ⟨_, rfl, rfl, rfl, fun operations => ⟨?_, ?_, rfl, fun operation => ?_⟩⟩
  · exact queued_eq operations initial
  · exact replayAll?_queued operations initial
  · have hopened : initial.Opened (.spaces width) := (Indentation.allows_iff_fits hwidth).2 (by
      rw [initial, Outline.depth, Outline.empty, List.length_nil, Int.natCast_zero, Int.mul_zero]
      exact Int.natCast_nonneg _)
    exact performs_perform hwidth (opened_behind operations hopened) operation

/-- Two lists open, their tags are taken, and one list of the other kind takes their place. -/
theorem operations_replay_exchange :
    let operations := [.beginList 2 .itemize, .setLine "a".toList, .take, .beginList 1 .enumerate,
      .beginList (-1) .itemize]
    (1 : Int) ≤ 4 ∧
      [⟨0, .opens .itemize⟩, ⟨1, .opens .itemize⟩, ⟨1, .closes .itemize⟩, ⟨0, .closes .itemize⟩,
          ⟨0, .opens .enumerate⟩] =
        initial.flushed (.spaces 4) operations ++ (initial.behind (.spaces 4) operations).outline.pending ∧
      (initial.flushed (.spaces 4) operations).length = 2 ∧
      replayAll? (initial.queued (.spaces 4) operations) [] = some [.enumerate] := by
  intro operations
  obtain ⟨draft, -, -, -, h⟩ := operations_replay (show (1 : Int) ≤ 4 by decide)
  obtain ⟨hqueued, hreplay, -, -⟩ := h operations
  refine ⟨by decide, ?_, by decide +kernel, ?_⟩
  · rw [← hqueued]
    decide +kernel
  · rw [hreplay]
    decide +kernel

/-- The second of two lists cannot open if one indentation takes more spaces than an index can count. -/
theorem not_only_negative_fails :
    ¬ ∀ width : Int, 1 ≤ width → ∀ (operations : List Operation) (operation : Operation) (failure : Operation.Failure),
      ((initial.behind (.spaces width) operations).perform (.spaces width) operation).2 = .error failure →
      ∃ level kind, operation = .beginList level kind ∧ level < 0 := by
  intro h
  obtain ⟨level, kind, hoperation, hlevel⟩ := h 9223372036854775808 (by decide) [.beginList 1 .itemize]
    (.beginList 2 .itemize) (.unindentable (.unrepeatable .noIndex)) rfl
  cases hoperation
  exact absurd hlevel (by decide)

end Progress

end Lectern
