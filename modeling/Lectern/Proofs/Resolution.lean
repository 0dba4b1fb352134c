import Lectern.Proofs.Following

/-!
# Resolved paths lead along no link

Replacing links goes step by step: two periods lead up, a name that is no link comes behind the path, and the target of
a link starts from the path or from the top, unless it is known from before what the link leads to. What each of these
steps keeps holds of the path that is left (`Site.Stable.trace`), and one thing that they keep is that no link is on the
path (`Site.Traced`). A strict resolution has looked at every name, so what it gives is **`Site.Direct`**: a path from
the top that leads along no link. One that is not strict gives such a path if the path is `Site.isStraight`, that is if
it meets no link that leads back to itself, and nothing that cannot be looked at, because its text is too long or for a
barrier (**`Site.Proper.direct_of_resolve`**). A direct path is resolved already (`Site.Direct.resolve_eq`).
-/

set_option autoImplicit false

namespace Lectern

/-! ## Steps -/

namespace Site

/-- What holds of the paths on the way while links are replaced. -/
structure Stable (site : Site) (strict : Bool) (P : Path → Prop) : Prop where
  top : P ⟨.top, []⟩
  up : ∀ path, P path → P path.up
  /-- A name comes behind the path if it is no link, as far as one can tell. -/
  child : ∀ path (name : Text), P path → name.IsName → name ≠ ['.', '.'] →
    (∀ target, site.look false (path.child name).text ≠ .ok (.link target)) →
    (strict = true → ∃ node, site.look false (path.child name).text = .ok node) → P (path.child name)

end Site

/-- What is left of a path is a path with some property, or a circle that a strict resolution does not leave. -/
def Trail.Keeps (strict : Bool) (P : Path → Prop) : Trail → Prop
  | .whole path => P path
  | .circular _ => strict = false

/-- What links lead to has some property. -/
def Seen.Keeps (P : Path → Prop) (seen : Seen) : Prop := ∀ entry ∈ seen, ∀ found, entry.2 = some found → P found

namespace Seen.Keeps

variable {P : Path → Prop} {seen : Seen} {s : Text} {found : Path}

theorem nil : Seen.Keeps P [] := fun _ h => absurd h List.not_mem_nil

theorem of_lookup (h : seen.Keeps P) (hl : seen.lookup s = some (some found)) : P found := by
  obtain ⟨front, back, rfl, -⟩ := List.lookup_eq_some_iff.1 hl
  exact h _ (List.mem_append_right _ List.mem_cons_self) found rfl

/-- A link that is met for the first time leads to nothing yet. -/
theorem cons_none (h : seen.Keeps P) (s : Text) : Seen.Keeps P ((s, none) :: seen) :=
  List.forall_mem_cons.2 ⟨fun _ hf => (by cases hf), h⟩

theorem cons_some (h : seen.Keeps P) (s : Text) (hp : P found) : Seen.Keeps P ((s, some found) :: seen) :=
  List.forall_mem_cons.2 ⟨fun _ hf => Option.some.inj hf ▸ hp, h⟩

end Seen.Keeps

namespace Site

/-- A link that is met again without an error is a circle, and the resolution is not strict. -/
theorem eq_of_again? {site : Site} {strict : Bool} {link rest : Text} {known? : Option (Option Path)} {trail : Trail}
    (h : (known?.bind fun _ => site.again? strict link rest) = some (.ok trail)) :
    strict = false ∧ trail = .circular (link.joinPath rest) := by
  obtain ⟨_, -, hagain⟩ := Option.bind_eq_some_iff.1 h
  unfold again? at hagain
  split at hagain
  · split at hagain <;> cases hagain
  · next hlenient =>
    cases hagain
    exact ⟨Bool.eq_false_iff.2 hlenient, rfl⟩

end Site

namespace Site.Stable

variable {site : Site} {strict : Bool} {P : Path → Prop}

theorem baseOf (h : site.Stable strict P) {path : Path} (hp : P path) (target : Text) : P (path.baseOf target) := by
  unfold Path.baseOf
  split
  · exact h.top
  · exact hp

/-- What each step keeps holds of what is left, and of what links are known to lead to. -/
theorem trace (h : site.Stable strict P) {depth : Nat} {seen left : Seen} {path : Path} {parts : List Text}
    {trail : Trail} (hp : P path) (hseen : seen.Keeps P) (hparts : ∀ part ∈ parts, '/' ∉ part)
    (ht : site.trace strict depth seen path parts = .ok (trail, left)) : trail.Keeps strict P ∧ left.Keeps P := by
  have htarget : ∀ {target : Text}, ∀ part ∈ target.splitSlashes, '/' ∉ part := fun part hm =>
    Text.not_mem_of_mem_splitSlashes hm
  fun_induction Site.trace site strict depth seen path parts generalizing trail left with
  | case1 =>
    cases ht
    exact ⟨hp, hseen⟩
  | case2 depth seen path part parts hidle ih => exact ih hp hseen (List.forall_mem_cons.1 hparts).2 ht
  | case3 depth seen path parts hidle ih => exact ih (h.up _ hp) hseen (List.forall_mem_cons.1 hparts).2 ht
  | case6 depth seen path part parts hidle hdots next error hlook hstrict =>
    rename_i ih
    obtain ⟨hpart, hparts⟩ := List.forall_mem_cons.1 hparts
    refine ih (h.child _ _ hp ⟨hpart, Bool.eq_false_iff.2 hidle⟩ hdots ?_ ?_) hseen hparts ht
    · intro target hl
      rw [hlook] at hl
      cases hl
    · exact fun hs => absurd hs hstrict
  | case7 depth seen path part parts hidle hdots next target hlook found hfound =>
    rename_i ih
    exact ih (hseen.of_lookup hfound) hseen (List.forall_mem_cons.1 hparts).2 ht
  | case8 depth seen path part parts hidle hdots next target hlook rest result =>
    rename_i hagain
    cases result with
    | error error => cases ht
    | ok trail =>
      cases ht
      obtain ⟨hlenient, rfl⟩ := eq_of_again? hagain
      exact ⟨hlenient, hseen⟩
  | case11 seen path part parts hidle hdots next target hlook rest depth s reached hinner hnew =>
    rename_i ih
    cases ht
    have hkept := ih (h.baseOf hp target) (hseen.cons_none _) htarget hinner
    exact hkept
  | case12 seen path part parts hidle hdots next target hlook rest depth found reached hinner hnew hagain =>
    rename_i ihinner ih
    obtain ⟨hkept, hreached⟩ := ihinner (h.baseOf hp target) (hseen.cons_none _) htarget hinner
    exact ih hkept (hreached.cons_some _ hkept) (List.forall_mem_cons.1 hparts).2 ht
  | case13 depth seen path part parts hidle hdots next node hnode hlook =>
    rename_i ih
    obtain ⟨hpart, hparts⟩ := List.forall_mem_cons.1 hparts
    refine ih (h.child _ _ hp ⟨hpart, Bool.eq_false_iff.2 hidle⟩ hdots ?_ ?_) hseen hparts ht
    · intro target hl
      rw [hlook] at hl
      cases hl
      exact hnode target rfl
    · exact fun _ => ⟨node, hlook⟩
  | _ => cases ht

end Site.Stable

/-! ## No links -/

/-- A barrier is in the way. -/
def Refusal.isBarred : Refusal → Bool
  | .barred _ => true
  | _ => false

namespace Site

/-- What there is at the end of a path is at the place that the path leads to. -/
theorem exists_locate_of_look {site : Site} {last : Bool} {s : Text} {node : Node} (h : site.look last s = .ok node) :
    ∃ place, site.locate last s = .ok place ∧ site.tree.get? place = some node := by
  unfold look at h
  cases hl : site.locate last s with
  | error error =>
    rw [hl] at h
    cases h
  | ok place =>
    rw [hl] at h
    simp only [bind, Except.bind] at h
    split at h
    · next found hfound =>
      cases h
      exact ⟨place, rfl, hfound⟩
    · cases h

theorem locate_ne_unfit {site : Site} {last : Bool} {s : Text} (h : site.Fits s) (reason : Unfit) :
    site.locate last s ≠ .error (.unfit reason) := by
  rw [locate, unfit?_eq_none_iff.2 h]
  dsimp only
  intro he
  split at he
  · cases he
  · split at he
    · cases he
    · cases hf : site.follow last maxLinks (s.origin site.directory) s.steps <;> rw [hf] at he <;> cases he

theorem look_ne_unfit {site : Site} {last : Bool} {s : Text} (h : site.Fits s) (reason : Unfit) :
    site.look last s ≠ .error (.unfit reason) := by
  unfold look
  cases hl : site.locate last s with
  | error error =>
    intro he
    cases he
    exact locate_ne_unfit h reason hl
  | ok place =>
    simp only [bind, Except.bind]
    split <;> intro he <;> cases he

theorem look_of_locate {site : Site} {last : Bool} {s : Text} {place : Place} {node : Node}
    (h : site.locate last s = .ok place) (hn : site.tree.get? place = some node) : site.look last s = .ok node := by
  simp only [look, h, bind, Except.bind, hn]
  rfl

/-- A path whose text is short enough and that no barrier keeps a program from looking at. -/
def isVisible (site : Site) (path : Path) : Bool :=
  path.text.byteCount < maxPathBytes &&
    match site.locate false path.text with
    | .ok _ => true
    | .error (.unfit _) => false
    | .error (.refused error) => !error.reason.isBarred

theorem follow_of_isBarred {site : Site} {last : Bool} {s : Text} {error : AccessError}
    (h : site.locate last s = .error (.refused error)) (hb : error.reason.isBarred = true) :
    site.follow last maxLinks (s.origin site.directory) s.steps = .error error.reason := by
  unfold locate at h
  split at h
  · cases h
  · obtain ⟨reason, hreason, he⟩ := exists_of_mapError_eq_error h
    cases he
    split at hreason
    · cases hreason
      cases hb
    · split at hreason
      · cases hreason
        cases hb
      · exact hreason

/-- What keeps a program from staying in a directory keeps it from following names there. -/
theorem follow_of_idle {site : Site} {links : Nat} {here : Place} {names : List Text} {reason : Refusal}
    (h : site.follow false links here [['.']] = .error reason) (hne : names ≠ []) :
    site.follow false links here names = .error reason := by
  obtain ⟨name, names, rfl⟩ := List.exists_cons_of_ne_nil hne
  rw [follow] at h ⊢
  split at h
  · next hdirectory =>
    rw [if_pos hdirectory]
    exact h
  · next hdirectory =>
    rw [if_neg hdirectory]
    split at h
    · exact h
    · rw [if_pos rfl, follow] at h
      cases h

/-- What is on a path that is visible is visible too. -/
theorem isVisible_front {site : Site} {root : Root} {front back : List Text}
    (hp : (⟨root, front ++ back⟩ : Path).Plain) (h : site.isVisible ⟨root, front ++ back⟩ = true) :
    site.isVisible ⟨root, front⟩ = true := by
  obtain ⟨hlen, hlocate⟩ := Bool.and_eq_true_iff.1 h
  have hlen := of_decide_eq_true hlen
  have hfits : site.Fits (⟨root, front ++ back⟩ : Path).text := by
    refine unfit?_eq_none_iff.1 (Option.eq_none_iff_forall_ne_some.2 fun reason hreason => ?_)
    rw [locate, hreason] at hlocate
    cases hlocate
  have hfitsFront : site.Fits (⟨root, front⟩ : Path).text := by
    intro c hc
    rcases hp.mem_text_append hc with rfl | rfl | hmem
    · rfl
    · rfl
    · exact hfits c hmem
  have hfront : (⟨root, front⟩ : Path).Plain :=
    ⟨hp.root, fun name hm => hp.names name (List.mem_append_left _ hm)⟩
  refine Bool.and_eq_true_iff.2 ⟨decide_eq_true (Nat.lt_of_le_of_lt hp.byteCount_text_le hlen), ?_⟩
  split
  · rfl
  · next reason hreason => exact absurd hreason (locate_ne_unfit hfitsFront reason)
  · next error herror =>
    -- a barrier on the way along the front is a barrier on the way along the whole path
    by_cases hb : error.reason.isBarred = true
    · have hfollow := follow_of_isBarred herror hb
      have hwhole : site.follow false maxLinks ((⟨root, front ++ back⟩ : Path).text.origin site.directory)
          (⟨root, front ++ back⟩ : Path).text.steps = .error error.reason := by
        rw [hfront.origin_text, hfront.steps_text] at hfollow
        rw [hp.origin_text, hp.steps_text]
        by_cases hnil : front = []
        · subst hnil
          by_cases hback : back = []
          · subst hback
            exact hfollow
          · rw [List.nil_append, if_neg hback]
            exact follow_of_idle hfollow hback
        · rw [if_neg hnil] at hfollow
          rw [if_neg (List.append_ne_nil_of_left_ne_nil hnil back)]
          exact follow_append_of_error hfollow false back
      rw [locate_of_follow_error hfits (Path.text_ne_nil _) hlen hwhole] at hlocate
      simp only [hb] at hlocate
      cases hlocate
    · rw [Bool.eq_false_iff.2 hb]
      rfl

/-- What can be located can be looked at. -/
theorem isVisible_of_locate {site : Site} {path : Path} {place : Place}
    (h : site.locate false path.text = .ok place) : site.isVisible path = true := by
  rw [isVisible, h, decide_eq_true (locate_eq_ok_iff.1 h).2.2.1]
  rfl

/-- A path that is visible leads to the place that it says if there is something. -/
theorem Proper.locate_of_isVisible {site : Site} (hs : site.Proper) {path : Path} (hp : path.Reduced)
    (h : site.isVisible path = true) {node : Node} (hn : site.tree.get? (path.place site.directory) = some node) :
    site.locate false path.text = .ok (path.place site.directory) := by
  obtain ⟨hlen, hlocate⟩ := Bool.and_eq_true_iff.1 h
  rcases hs.locate_of_get? hp (of_decide_eq_true hlen) hn (.inl rfl) with hlocated | ⟨barrier, hbarred⟩
  · exact hlocated
  · rw [hbarred] at hlocate
    cases hlocate

/-- No link is on a path, as far as the names on it have been looked at. -/
structure Traced (site : Site) (strict : Bool) (path : Path) : Prop extends path.Reduced where
  free : ∀ front, front <+: path.names → (strict = true ∨ site.isVisible ⟨path.root, front⟩ = true) →
    ∀ target, site.tree.get? ((⟨path.root, front⟩ : Path).place site.directory) ≠ some (.link target)

namespace Traced

variable {site : Site} {strict : Bool} {path : Path}

theorem nil (hs : site.Proper) {root : Root} (h : root ≠ .doubleTop) : site.Traced strict ⟨root, []⟩ := by
  refine ⟨.nil h, fun front hf _ target => ?_⟩
  rw [List.prefix_nil.1 hf]
  have hstart : site.tree.get? ((⟨root, []⟩ : Path).place site.directory) = some .directory := by
    cases root with
    | here => exact hs.directory
    | top => exact Tree.get?_nil _
    | doubleTop => exact absurd rfl h
  rw [hstart]
  intro he
  cases he

theorem up (hs : site.Proper) (h : site.Traced strict path) : site.Traced strict path.up := by
  refine ⟨h.toReduced.up, ?_⟩
  rcases h.up_cases with he | he | ⟨he, hroot, hall⟩
  · rw [he]
    exact fun front hf => h.free front (hf.trans (List.dropLast_prefix _))
  · rw [he]
    exact h.free
  · rw [he]
    intro front hf hshort target
    rcases List.prefix_concat_iff.1 hf with rfl | hf
    · have hdots : ∀ name ∈ path.names ++ [['.', '.']], name = ['.', '.'] := by
        intro name hm
        rcases List.mem_append.1 hm with hm | hm
        · exact hall name hm
        · exact List.mem_singleton.1 hm
      have hplace := (hs.follow_ups hdots hs.directory []).1
      have hwhere : (⟨path.root, path.names ++ [['.', '.']]⟩ : Path).place site.directory =
          (path.names ++ [['.', '.']]).foldl Place.enter site.directory := by
        rw [Path.place, hroot, if_pos rfl]
      rw [Path.child, hwhere, hplace]
      intro he
      cases he
    · exact h.free front hf hshort target

theorem child (hs : site.Proper) (h : site.Traced strict path) {name : Text} (hn : name.IsName)
    (hd : name ≠ ['.', '.']) (hlook : ∀ target, site.look false (path.child name).text ≠ .ok (.link target))
    (hstrict : strict = true → ∃ node, site.look false (path.child name).text = .ok node) :
    site.Traced strict (path.child name) := by
  have hreduced := h.toReduced.child hn hd
  refine ⟨hreduced, fun front hf hshort target => ?_⟩
  rcases List.prefix_concat_iff.1 hf with rfl | hf
  · intro hget
    have hvisible : site.isVisible (path.child name) = true := by
      rcases hshort with hs | hvisible
      · obtain ⟨node, hnode⟩ := hstrict hs
        obtain ⟨place, hplace, -⟩ := exists_locate_of_look hnode
        exact isVisible_of_locate hplace
      · exact hvisible
    exact hlook target (look_of_locate (hs.locate_of_isVisible hreduced hvisible hget) hget)
  · exact h.free front hf hshort target

end Traced

/-- Replacing links leaves no link, as far as the names have been looked at. -/
theorem Proper.stable_traced {site : Site} (hs : site.Proper) (strict : Bool) :
    site.Stable strict (site.Traced strict) where
  top := Traced.nil hs (by decide)
  up := fun _ hp => hp.up hs
  child := fun _ _ hp hn hd hlook hstrict => hp.child hs hn hd hlook hstrict

/-! ## Resolved paths -/

/-- Where there is something, or a directory is around it, a path without links says so. -/
theorem Traced.linkFree {site : Site} (hs : site.Proper) {strict : Bool} {path : Path} (h : site.Traced strict path)
    (hvisible : strict = true ∨ site.isVisible path = true) :
    site.tree.LinkFree (path.place site.directory) := by
  obtain ⟨ups, rest, base, happroach⟩ := hs.exists_approach h.toReduced
  rw [happroach.place_eq]
  intro front hf target
  rcases List.prefix_or_prefix_of_prefix hf (List.prefix_append base rest) with ⟨back, hback⟩ | ⟨more, rfl⟩
  · -- around the names there are directories
    have hdirectory : site.tree.get? front = some .directory := by
      by_cases hb : back = []
      · rw [hb, List.append_nil] at hback
        rw [hback]
        exact happroach.directory
      · exact hs.get?_front (hback ▸ happroach.directory) hb
    rw [hdirectory]
    intro he
    cases he
  · -- the names have been looked at
    obtain ⟨back, hback⟩ : more <+: rest := (List.prefix_append_right_inj base).1 hf
    have hnames : path.names = ups ++ more ++ back := by
      rw [happroach.names_eq, ← hback, List.append_assoc]
    rw [← happroach.place more ⟨back, hback⟩]
    refine h.free (ups ++ more) ⟨back, hnames.symm⟩ (hvisible.imp_right fun hwhole => ?_) target
    obtain ⟨root, names⟩ := path
    cases hnames
    exact isVisible_front h.toPlain hwhole

/-- A path from the top directory that leads along no link. -/
structure Direct (site : Site) (path : Path) : Prop extends path.Reduced where
  root_eq : path.root = .top
  free : site.tree.LinkFree path.names

namespace Direct

variable {site : Site} {path : Path}

theorem dots_not_mem (h : site.Direct path) : ['.', '.'] ∉ path.names := by
  obtain ⟨ups, rest, hnames, -, hrest, hroot⟩ := h.shape
  rw [hnames, hroot fun he => Root.noConfusion (h.root_eq.symm.trans he)]
  exact hrest

theorem place_eq (h : site.Direct path) : path.place site.directory = path.names := by
  rw [Path.place, if_neg fun he => Root.noConfusion (h.root_eq.symm.trans he),
    Path.foldl_enter_of_not_mem h.dots_not_mem, List.nil_append]

theorem parent (h : site.Direct path) : site.Direct path.parent where
  toReduced := h.toReduced.parent
  root_eq := h.root_eq
  free := fun front hf => h.free front (hf.trans (List.dropLast_prefix _))

/-- Such a path leads to the place that its names say or nowhere. -/
theorem eq_of_locate (h : site.Direct path) (hs : site.Proper) {last : Bool} {reached : Place}
    (hl : site.locate last path.text = .ok reached) : reached = path.names := by
  have hfree := h.free
  rw [← h.place_eq] at hfree ⊢
  exact hs.eq_of_locate h.toReduced hfree hl

/-- What there is at the end of a path without links is at the place that its names say. -/
theorem get?_of_status (h : site.Direct path) (hs : site.Proper) {node : Node} (hn : site.status path.text = .ok node) :
    site.tree.get? path.names = some node := by
  obtain ⟨place, hplace, hget⟩ := exists_locate_of_look hn
  rwa [← h.eq_of_locate hs hplace]

/-- What there is at such a place is found, unless the text of the path is too long or there is a barrier. -/
theorem status_of_get? (h : site.Direct path) (hs : site.Proper) {node : Node}
    (hn : site.tree.get? path.names = some node) :
    site.locate true path.text = .ok path.names ∧ site.status path.text = .ok node ∨
      ∃ reason, reason.isAbsence = false ∧ site.status path.text = .error (.refused ⟨reason, path.text⟩) := by
  have hlink : ∀ target, node ≠ .link target := by
    rintro target rfl
    exact h.free path.names (List.prefix_refl _) target hn
  have hplace : site.tree.get? (path.place site.directory) = some node := by rwa [h.place_eq]
  by_cases hlen : path.text.byteCount < maxPathBytes
  · rcases hs.locate_of_get? h.toReduced hlen hplace (.inr hlink) with hlocate | ⟨barrier, hlocate⟩
    · rw [h.place_eq] at hlocate
      exact .inl ⟨hlocate, look_of_locate hlocate hn⟩
    · exact .inr ⟨.barred barrier, rfl, by rw [status, look, hlocate]; rfl⟩
  · refine .inr ⟨.nameTooLong, rfl, ?_⟩
    rw [status, look, locate, unfit?_eq_none_iff.2 (hs.fits_text h.toReduced hplace)]
    dsimp only
    rw [if_neg (Path.text_ne_nil path), if_pos (Nat.not_lt.1 hlen)]
    rfl

theorem front (h : site.Direct path) {names : List Text} (hf : names <+: path.names) : site.Direct ⟨.top, names⟩ where
  root := Root.noConfusion
  names := fun _ hm => h.names _ (hf.subset hm)
  shape := ⟨[], names, rfl, fun _ hm => absurd hm List.not_mem_nil, fun hm => h.dots_not_mem (hf.subset hm),
    fun _ => rfl⟩
  root_eq := rfl
  free := fun other ho => h.free other (ho.trans hf)

/-- Looking at something on a path without links finds no link, and its text can be looked at. -/
theorem look_ne (h : site.Direct path) (hs : site.Proper) {node : Node} (hn : site.tree.get? path.names = some node) :
    (∀ target, site.look false path.text ≠ .ok (.link target)) ∧
      ∀ reason, site.look false path.text ≠ .error (.unfit reason) := by
  constructor
  · intro target hl
    obtain ⟨place, hplace, hget⟩ := exists_locate_of_look hl
    rw [h.eq_of_locate hs hplace] at hget
    exact h.free path.names (List.prefix_refl _) target hget
  · rw [← h.place_eq] at hn
    exact look_ne_unfit (hs.fits_text h.toReduced hn)

/-- No link is replaced on such a path. -/
theorem trace_eq (h : site.Direct path) (hs : site.Proper) {node : Node} (hn : site.tree.get? path.names = some node)
    (depth : Nat) (seen : Seen) {front names : List Text} (hnames : path.names = front ++ names) :
    site.trace false depth seen ⟨.top, front⟩ names = .ok (.whole ⟨.top, path.names⟩, seen) := by
  induction names generalizing front with
  | nil => rw [trace, hnames, List.append_nil]
  | cons name names ih =>
    have hname : name ∈ path.names := hnames ▸ List.mem_append_right _ List.mem_cons_self
    have hdots : name ≠ ['.', '.'] := fun he => h.dots_not_mem (he ▸ hname)
    rw [← List.singleton_append, ← List.append_assoc] at hnames
    obtain ⟨next, hnext⟩ : ∃ next, site.tree.get? (front ++ [name]) = some next := by
      by_cases hnil : names = []
      · rw [hnil, List.append_nil] at hnames
        exact ⟨node, hnames ▸ hn⟩
      · exact ⟨.directory, hs.get?_front (hnames ▸ hn) hnil⟩
    have hdirect : site.Direct ((⟨.top, front⟩ : Path).child name) := h.front ⟨names, hnames.symm⟩
    obtain ⟨hlink, hunfit⟩ := hdirect.look_ne hs hnext
    have hrest := ih hnames
    rw [trace, (h.names name hname).2, if_neg hdots]
    simp only [Bool.false_eq_true, if_false]
    split
    · next reason hlook => exact absurd hlook (hunfit reason)
    · exact hrest
    · next target hlook => exact absurd hlook (hlink target)
    · exact hrest

/-- Behind the slash at its front, the text of such a path is split into its names. -/
theorem exists_text (h : site.Direct path) :
    ∃ rest : Text, path.text = '/' :: rest ∧
      (rest.splitSlashes = path.names ∨ rest.splitSlashes = [[]] ∧ path.names = []) := by
  obtain ⟨root, names⟩ := path
  obtain rfl : root = .top := h.root_eq
  cases names with
  | nil => exact ⟨[], rfl, .inr ⟨rfl, rfl⟩⟩
  | cons name names =>
    refine ⟨List.intercalate ['/'] (name :: names), ?_, .inl ?_⟩
    · rw [Path.text_cons (h.names name List.mem_cons_self).ne_nil]
      rfl
    · exact Text.splitSlashes_intercalate (List.cons_ne_nil _ _) fun other hm => (h.names other hm).1

/-- The path of something that leads along no link is resolved already. -/
theorem resolve_eq (h : site.Direct path) (hs : site.Proper) {node : Node}
    (hn : site.tree.get? path.names = some node) :
    site.resolve false path = .ok path := by
  have hpath : (⟨.top, path.names⟩ : Path) = path := by
    rw [← h.root_eq]
  have htrace : site.trace false site.system.linkDepth [] ((⟨.here, []⟩ : Path).baseOf path.text)
      path.text.splitSlashes = .ok (.whole path, []) := by
    obtain ⟨rest, htext, hrest⟩ := h.exists_text
    have htrace := h.trace_eq hs hn site.system.linkDepth [] (List.nil_append _).symm
    rw [htext, Text.splitSlashes, if_pos rfl, trace, if_pos (by decide), ← hpath]
    rcases hrest with hrest | ⟨hrest, hnil⟩
    · rw [hrest]
      exact htrace
    · rw [hrest, trace, if_pos (by decide), trace, hnil]
      rfl
  have habsolute : site.absolute path.text = path := by
    rw [absolute_text hs.dots_not_mem h.toPlain, h.place_eq, hpath]
  unfold resolve
  dsimp only
  rw [htrace]
  dsimp only [Trail.text]
  rw [habsolute, if_neg Bool.false_ne_true]
  rcases h.status_of_get? hs hn with ⟨-, hstatus⟩ | ⟨reason, hreason, hstatus⟩
  · rw [hstatus]
  · rw [hstatus]
    dsimp only
    rw [if_neg fun he => ?_]
    rw [he] at hreason
    cases hreason

end Direct

/-- The path can be resolved as a whole: no link on it leads back to itself, and what is left of it when the links are
replaced can be looked at. -/
def isStraight (site : Site) (path : Path) : Bool :=
  match site.trace false site.system.linkDepth [] ((⟨.here, []⟩ : Path).baseOf path.text) path.text.splitSlashes with
  | .ok (.whole trail, _) => site.isVisible trail
  | _ => false

namespace Proper

variable {site : Site} {path resolved : Path} {strict : Bool}

/-- The path from the top directory of a path without links has none either. -/
theorem direct_absolute (hs : site.Proper) (h : site.Traced strict path)
    (hvisible : strict = true ∨ site.isVisible path = true) : site.Direct (site.absolute path.text) := by
  rw [absolute_text hs.dots_not_mem h.toPlain]
  have hfree := h.linkFree hs hvisible
  obtain ⟨ups, rest, base, happroach⟩ := hs.exists_approach h.toReduced
  have hnames : ∀ name ∈ path.place site.directory, name.IsName ∧ name ≠ ['.', '.'] := by
    intro name hm
    rw [happroach.place_eq] at hm
    rcases List.mem_append.1 hm with hm | hm
    · have hfile := hs.isFileName happroach.directory name hm
      exact ⟨hfile.1.1, hfile.1.2.1⟩
    · exact happroach.isName h.toPlain name hm
  have hdots : ['.', '.'] ∉ path.place site.directory := fun hm => (hnames _ hm).2 rfl
  refine ⟨⟨⟨Root.noConfusion, fun name hm => (hnames name hm).1⟩, ?_⟩, rfl, hfree⟩
  exact ⟨[], path.place site.directory, rfl, fun name hm => absurd hm List.not_mem_nil, hdots, fun _ => rfl⟩

theorem keeps_trace (hs : site.Proper) (strict : Bool) (s : Text) {depth : Nat} {trail : Trail} {seen : Seen}
    (h : site.trace strict depth [] ((⟨.here, []⟩ : Path).baseOf s) s.splitSlashes = .ok (trail, seen)) :
    trail.Keeps strict (site.Traced strict) := by
  have hstable := hs.stable_traced strict
  have hstart : site.Traced strict ⟨.here, []⟩ := Traced.nil hs Root.noConfusion
  exact (hstable.trace (hstable.baseOf hstart s) .nil (fun part hm => Text.not_mem_of_mem_splitSlashes hm) h).1

theorem exists_trail (h : site.resolve strict path = .ok resolved) :
    ∃ trail seen, site.trace strict site.system.linkDepth [] ((⟨.here, []⟩ : Path).baseOf path.text)
        path.text.splitSlashes = .ok (trail, seen) ∧ resolved = site.absolute trail.text := by
  unfold resolve at h
  dsimp only at h
  split at h
  · cases h
  · next trail seen ht =>
    refine ⟨trail, seen, ht, ?_⟩
    split at h
    · exact (Except.ok.inj h).symm
    · split at h
      · split at h
        · cases h
        · exact (Except.ok.inj h).symm
      · cases h
      · exact (Except.ok.inj h).symm

/-- A resolved path leads along no link, unless it was resolved by its text alone. -/
theorem direct_of_resolve (hs : site.Proper) (h : site.resolve strict path = .ok resolved)
    (hstraight : strict = true ∨ site.isStraight path = true) : site.Direct resolved := by
  obtain ⟨trail, seen, ht, rfl⟩ := exists_trail h
  have hkeeps := hs.keeps_trace strict path.text ht
  cases trail with
  | whole left =>
    refine hs.direct_absolute hkeeps ?_
    cases strict with
    | true => exact .inl rfl
    | false =>
      have hvisible := hstraight.resolve_left Bool.false_ne_true
      rw [isStraight, ht] at hvisible
      exact .inr hvisible
  | circular s =>
    have hlenient : strict = false := hkeeps
    subst hlenient
    have hvisible := hstraight.resolve_left Bool.false_ne_true
    rw [isStraight, ht] at hvisible
    cases hvisible

end Proper

end Site

end Lectern
