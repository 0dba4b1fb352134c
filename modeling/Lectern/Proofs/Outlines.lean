import Lectern.Latex.Outline

/-!
# Tags lead from lists to lists

The tags that an outline writes can be read again. **`replayAll?`** reads them in order: a tag that opens a list puts
it on the others, a tag that closes one takes the innermost list away, which has to be of its kind, and each has to
stand as deep as there are lists around its own. An outline **leads** to another (`Outline.Leads`) if the tags that
were written in between replay its lists to those of the other. Every step of an outline does (`leads_closeTo`,
`leads_reconcileWithin`).
-/

set_option autoImplicit false

namespace Lectern

/-- The open lists behind a tag line, if the line can stand there. -/
def TagLine.replay? (line : TagLine) (levels : List ListKind) : Option (List ListKind) :=
  match line.tag, levels with
  | .opens kind, levels => if line.depth = levels.length then some (kind :: levels) else none
  | .closes _, [] => none
  | .closes kind, innermost :: levels =>
    if innermost = kind ∧ line.depth = levels.length then some levels else none

/-- The open lists behind tag lines, if these can stand there. -/
def replayAll? : List TagLine → List ListKind → Option (List ListKind)
  | [], levels => some levels
  | line :: lines, levels => (line.replay? levels).bind (replayAll? lines)

theorem replayAll?_append (lines more : List TagLine) (levels : List ListKind) :
    replayAll? (lines ++ more) levels = (replayAll? lines levels).bind (replayAll? more) := by
  induction lines generalizing levels with
  | nil => rfl
  | cons line lines ih =>
    rw [List.cons_append, replayAll?, replayAll?, Option.bind_assoc]
    exact congrArg _ (funext ih)

namespace Outline

/-- The tags that the second outline has to write besides those of the first lead from its lists to the others. -/
def Leads (first second : Outline) : Prop :=
  ∃ lines, second.pending = first.pending ++ lines ∧ replayAll? lines first.levels = some second.levels

theorem Leads.refl (outline : Outline) : outline.Leads outline := ⟨[], (List.append_nil _).symm, rfl⟩

theorem Leads.trans {first second third : Outline} (h₁ : first.Leads second) (h₂ : second.Leads third) :
    first.Leads third := by
  obtain ⟨lines, hp, hr⟩ := h₁
  obtain ⟨more, hp', hr'⟩ := h₂
  refine ⟨lines ++ more, by rw [hp', hp, List.append_assoc], ?_⟩
  rw [replayAll?_append, hr]
  exact hr'

/-! ## Steps -/

theorem leads_openList (kind : ListKind) (outline : Outline) : outline.Leads (outline.openList kind) := by
  refine ⟨[⟨outline.depth, .opens kind⟩], rfl, ?_⟩
  simp [replayAll?, TagLine.replay?, depth, openList]

theorem leads_closeInnermost (outline : Outline) : outline.Leads outline.closeInnermost := by
  unfold closeInnermost
  split
  · exact .refl outline
  · next kind levels h =>
    refine ⟨[⟨levels.length, .closes kind⟩], rfl, ?_⟩
    simp [replayAll?, TagLine.replay?, h]

theorem leads_closeLists (n : Nat) (outline : Outline) : outline.Leads (closeLists n outline) := by
  induction n generalizing outline with
  | zero => exact .refl outline
  | succ n ih => exact (leads_closeInnermost outline).trans (ih _)

theorem leads_closeTo (depth : Nat) (outline : Outline) : outline.Leads (outline.closeTo depth) :=
  leads_closeLists _ outline

theorem leads_exchange (kind : ListKind) (outline : Outline) : outline.Leads (outline.exchange kind) := by
  unfold exchange
  split
  · exact .refl outline
  · split
    · exact .refl outline
    · exact (leads_closeInnermost outline).trans (leads_openList kind _)

theorem leads_openListsWithin [Memory] (indentation : Indentation) (kind : ListKind) (n : Nat) (outline : Outline) :
    outline.Leads (openListsWithin indentation kind n outline).1 := by
  induction n generalizing outline with
  | zero => exact .refl outline
  | succ n ih =>
    rw [openListsWithin]
    split
    · exact .refl outline
    · exact (leads_openList kind outline).trans (ih _)

/-- Whether or not all lists can be opened, the tags that were written lead to the lists that are open. -/
theorem leads_reconcileWithin [Memory] (indentation : Indentation) (depth : Nat) (kind : ListKind) (outline : Outline) :
    outline.Leads (outline.reconcileWithin indentation depth kind).1 := by
  have h := (leads_closeTo depth outline).trans
    (leads_openListsWithin indentation kind (depth - (outline.closeTo depth).depth) _)
  unfold reconcileWithin
  simp only
  split
  · next opened reason he => rwa [he] at h
  · next opened he =>
    rw [he] at h
    exact h.trans (leads_exchange kind opened)

/-! ## Lists that are left open -/

theorem levels_closeLists (n : Nat) (outline : Outline) : (closeLists n outline).levels = outline.levels.drop n := by
  induction n generalizing outline with
  | zero => rfl
  | succ n ih =>
    rw [closeLists, ih]
    unfold closeInnermost
    split
    · next h => rw [h, List.drop_nil, List.drop_nil]
    · next h => rw [h, List.drop_succ_cons]

/-- The outermost lists stay. -/
theorem levels_closeTo (depth : Nat) (outline : Outline) :
    (outline.closeTo depth).levels = outline.levels.drop (outline.levels.length - depth) :=
  levels_closeLists _ outline

theorem levels_closeTo_zero (outline : Outline) : (outline.closeTo 0).levels = [] := by
  rw [levels_closeTo, Nat.sub_zero, List.drop_length]

/-- Nothing is to be closed where nothing is open. -/
theorem closeTo_of_levels_eq_nil {outline : Outline} (h : outline.levels = []) (depth : Nat) :
    outline.closeTo depth = outline := by
  have hd : outline.depth - depth = 0 := by rw [Outline.depth, h, List.length_nil, Nat.zero_sub]
  rw [closeTo, hd]
  rfl

theorem head?_exchange {kind : ListKind} {outline : Outline} (h : outline.levels ≠ []) :
    (outline.exchange kind).levels.head? = some kind := by
  unfold exchange
  split
  · next hn => exact absurd hn h
  · next innermost levels hl =>
    split
    · next hk => rw [hl, List.head?_cons, hk]
    · rfl

variable [Memory]

theorem depth_openListsWithin {indentation : Indentation} {kind : ListKind} {n : Nat} {outline opened : Outline}
    (h : openListsWithin indentation kind n outline = (opened, .ok ())) : opened.depth = outline.depth + n := by
  induction n generalizing outline with
  | zero =>
    cases h
    rfl
  | succ n ih =>
    rw [openListsWithin] at h
    split at h
    · cases h
    · rw [ih h, depth_openList]
      omega

theorem allows_openListsWithin {indentation : Indentation} {kind : ListKind} {n : Nat} {outline opened : Outline}
    {reason : Unindentable} (h : openListsWithin indentation kind n outline = (opened, .error reason)) :
    indentation.allows opened.depth = .error reason := by
  induction n generalizing outline with
  | zero => cases h
  | succ n ih =>
    rw [openListsWithin] at h
    split at h
    · next ha =>
      cases h
      exact ha
    · exact ih h

/-- A step that fails does so at a depth that is not allowed. -/
theorem allows_reconcileWithin {indentation : Indentation} {depth : Nat} {kind : ListKind}
    {outline reached : Outline} {reason : Unindentable}
    (h : outline.reconcileWithin indentation depth kind = (reached, .error reason)) :
    indentation.allows reached.depth = .error reason := by
  unfold reconcileWithin at h
  simp only at h
  split at h
  · next he =>
    cases h
    exact allows_openListsWithin he
  · cases h

/-- A step that was done arrives at the depth that was asked for. -/
theorem depth_reconcileWithin {indentation : Indentation} {depth : Nat} {kind : ListKind} {outline reached : Outline}
    (h : outline.reconcileWithin indentation depth kind = (reached, .ok ())) : reached.depth = depth := by
  unfold reconcileWithin at h
  simp only at h
  split at h
  · cases h
  · next opened he =>
    cases h
    have hd := depth_openListsWithin he
    rw [depth_closeTo] at hd
    rw [depth_exchange, hd]
    omega

/-- A step that was done leaves a list of the kind that was asked for as the innermost one. -/
theorem head?_reconcileWithin {indentation : Indentation} {depth : Nat} {kind : ListKind} {outline reached : Outline}
    (h : outline.reconcileWithin indentation (depth + 1) kind = (reached, .ok ())) :
    reached.levels.head? = some kind := by
  have hd := depth_reconcileWithin h
  unfold reconcileWithin at h
  simp only at h
  split at h
  · cases h
  · next opened he =>
    cases h
    apply head?_exchange
    intro hn
    rw [depth_exchange, Outline.depth, hn] at hd
    cases hd

end Outline

end Lectern
