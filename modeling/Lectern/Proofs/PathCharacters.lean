import Lectern.Proofs.Resolution

/-!
# Characters of paths

A text with a character that a path cannot hold leads nowhere and has an error of its own. In a proper tree no name and
no link holds such a character, so a path gets none while it is expanded and resolved: **`Site.Proper.resolve_cases`**
says that what comes of a path without such characters (**`Path.IsClean`**) has none, and that a resolution that is not
strict fails only for links that lead back to themselves or that the stack has no room for.
-/

set_option autoImplicit false

namespace Lectern

/-- All characters on a path are such that a path can hold them. -/
def Path.IsClean (site : Site) (path : Path) : Prop := ∀ name ∈ path.names, site.Fits name

/-- All characters of what is left of a path are such that a path can hold them. -/
def Trail.IsClean (site : Site) : Trail → Prop
  | .whole path => path.IsClean site
  | .circular s => site.Fits s

namespace Path

variable {site : Site} {path : Path} {s : Text}

namespace IsClean

theorem fits_text (h : path.IsClean site) : site.Fits path.text := Site.fits_of_names h

theorem child (h : path.IsClean site) {name : Text} (hn : site.Fits name) : (path.child name).IsClean site := by
  intro other hm
  rcases List.mem_append.1 hm with hm | hm
  · exact h other hm
  · rw [List.mem_singleton.1 hm]
    exact hn

theorem parent (h : path.IsClean site) : path.parent.IsClean site := fun name hm => h name (List.dropLast_subset _ hm)

theorem up (h : path.IsClean site) : path.up.IsClean site := by
  have hdots : (path.child ['.', '.']).IsClean site :=
    h.child (List.forall_mem_cons.2 ⟨rfl, List.forall_mem_singleton.2 rfl⟩)
  unfold Path.up
  split
  · split
    · exact hdots
    · exact h
  · next name hname =>
    split
    · next hd =>
      rw [hd]
      exact hdots
    · exact h.parent

theorem baseOf (h : path.IsClean site) (target : Text) : (path.baseOf target).IsClean site := by
  unfold Path.baseOf
  split
  · exact fun name hm => absurd hm List.not_mem_nil
  · exact h

end IsClean

theorem fits_of_mem_split (h : site.Fits s) {part : Text} (hp : part ∈ s.splitSlashes) : site.Fits part :=
  fun c hc => h c (Text.mem_of_mem_splitSlashes hp c hc).2

theorem isClean_parse (h : site.Fits s) : (parse s).IsClean site :=
  fun _ hm => fits_of_mem_split h ((List.mem_filter.1 hm).1)

theorem isClean_normal (h : path.IsClean site) : path.normal.IsClean site := by
  unfold normal
  have hfold : ∀ (names : List Text) (start : Path), start.IsClean site → (∀ name ∈ names, site.Fits name) →
      (names.foldl (fun path name => if name = ['.', '.'] then path.up else path.child name) start).IsClean site := by
    intro names
    induction names with
    | nil => exact fun start hstart _ => hstart
    | cons name names ih =>
      intro start hstart hnames
      obtain ⟨hname, hnames⟩ := List.forall_mem_cons.1 hnames
      rw [List.foldl_cons]
      refine ih _ ?_ hnames
      split
      · exact hstart.up
      · exact hstart.child hname
  exact hfold path.names _ (fun name hm => absurd hm List.not_mem_nil) h

end Path

namespace Site

/-- Texts that a path can hold are a path that can be. -/
theorem Fits.joinPath {site : Site} {s t : Text} (hs : site.Fits s) (ht : site.Fits t) : site.Fits (s.joinPath t) := by
  unfold Text.joinPath
  split
  · exact ht
  · split
    · exact List.forall_mem_append.2 ⟨hs, ht⟩
    · exact List.forall_mem_append.2 ⟨List.forall_mem_append.2 ⟨hs, List.forall_mem_singleton.2 rfl⟩, ht⟩

theorem Fits.dropSlashes {site : Site} {s : Text} (h : site.Fits s) : site.Fits s.dropSlashes := by
  unfold Text.dropSlashes
  split
  · exact List.forall_mem_singleton.2 rfl
  · intro c hc
    exact h c (List.mem_reverse.1 ((List.dropWhile_sublist _).subset (List.mem_reverse.1 hc)))

theorem fits_intercalate {site : Site} {parts : List Text} (h : ∀ part ∈ parts, site.Fits part) :
    site.Fits (List.intercalate ['/'] parts) := by
  intro c hc
  rcases Path.mem_intercalate hc with rfl | ⟨part, hp, hc⟩
  · rfl
  · exact h part hp c hc

end Site

namespace Site

variable {site : Site} {path : Path} {strict : Bool}

/-- A path can hold the characters of a text that leads somewhere. -/
theorem fits_of_locate {last : Bool} {s : Text} {place : Place} (h : site.locate last s = .ok place) : site.Fits s := by
  unfold locate at h
  split at h
  · cases h
  · next hnone => exact unfit?_eq_none_iff.1 hnone

/-- What comes of replacing links when all characters are such that a path can hold them. -/
def TraceClean (site : Site) : Except ResolveError (Trail × Seen) → Prop
  | .ok (trail, seen) => trail.IsClean site ∧ seen.Keeps (Path.IsClean site)
  | .error error => ∀ reason, error ≠ .unusable (.unfit reason)

/-- A path that can be looked at has no error of a text that is no path. -/
theorem ofPathError_ne_unfit {error : PathError} (h : ∀ reason, error ≠ .unfit reason) (reason : Unfit) :
    ResolveError.ofPathError error ≠ .unusable (.unfit reason) := by
  cases error with
  | unfit other => exact absurd rfl (h other)
  | refused error =>
    unfold ResolveError.ofPathError
    dsimp only
    split <;> intro he <;> cases he

/-- A circle is an error for what there is at the end of its link. -/
theorem error_of_again? {link rest : Text} {known? : Option (Option Path)} {error : ResolveError}
    (h : (known?.bind fun _ => site.again? strict link rest) = some (.error error)) :
    ∃ wrong, site.status link = .error wrong ∧ error = .ofPathError wrong := by
  obtain ⟨_, -, hagain⟩ := Option.bind_eq_some_iff.1 h
  unfold again? at hagain
  split at hagain
  · split at hagain
    · next wrong hstatus =>
      cases hagain
      exact ⟨wrong, hstatus, rfl⟩
    · cases hagain
  · cases hagain

/-- Replacing links brings no character that a path cannot hold. -/
theorem Proper.traceClean (hs : site.Proper) {depth : Nat} {seen : Seen} {parts : List Text}
    (hpath : path.IsClean site) (hseen : seen.Keeps (Path.IsClean site)) (hparts : ∀ part ∈ parts, site.Fits part) :
    site.TraceClean (site.trace strict depth seen path parts) := by
  have htarget : ∀ {s target : Text}, site.look false s = .ok (.link target) →
      ∀ part ∈ target.splitSlashes, site.Fits part := by
    intro s target hlook part hm
    obtain ⟨place, -, hget⟩ := exists_locate_of_look hlook
    exact Path.fits_of_mem_split (hs.fits_target hget) hm
  fun_induction Site.trace site strict depth seen path parts with
  | case1 => exact ⟨hpath, hseen⟩
  | case2 depth seen path part parts hidle ih => exact ih hpath hseen (List.forall_mem_cons.1 hparts).2
  | case3 depth seen path parts hidle ih => exact ih hpath.up hseen (List.forall_mem_cons.1 hparts).2
  | case4 depth seen path part parts hidle hdots next reason hlook =>
    exact absurd hlook (look_ne_unfit ((hpath.child (List.forall_mem_cons.1 hparts).1).fits_text) reason)
  | case5 depth seen path part parts hidle hdots next error hlook hstrict =>
    exact ofPathError_ne_unfit fun _ he => (by cases he)
  | case6 depth seen path part parts hidle hdots next error hlook hstrict =>
    rename_i ih
    exact ih (hpath.child (List.forall_mem_cons.1 hparts).1) hseen (List.forall_mem_cons.1 hparts).2
  | case7 depth seen path part parts hidle hdots next target hlook found hfound =>
    rename_i ih
    exact ih (hseen.of_lookup hfound) hseen (List.forall_mem_cons.1 hparts).2
  | case8 depth seen path part parts hidle hdots next target hlook rest result =>
    rename_i hagain
    have hnext := (hpath.child (List.forall_mem_cons.1 hparts).1).fits_text
    cases result with
    | error error =>
      obtain ⟨wrong, hstatus, rfl⟩ := error_of_again? hagain
      exact ofPathError_ne_unfit fun reason he => look_ne_unfit hnext reason (he ▸ hstatus)
    | ok trail =>
      obtain ⟨-, rfl⟩ := eq_of_again? hagain
      exact ⟨hnext.joinPath (fits_intercalate (List.forall_mem_cons.1 hparts).2), hseen⟩
  | case9 => exact fun _ he => (by cases he)
  | case10 seen path part parts hidle hdots next target hlook rest depth error hinner hnew =>
    rename_i ih
    have hclean := ih (hpath.baseOf target) (hseen.cons_none _) (htarget hlook)
    rwa [hinner] at hclean
  | case11 seen path part parts hidle hdots next target hlook rest depth s reached hinner hnew =>
    rename_i ih
    have hclean := ih (hpath.baseOf target) (hseen.cons_none _) (htarget hlook)
    rw [hinner] at hclean
    exact ⟨hclean.1.joinPath (fits_intercalate (List.forall_mem_cons.1 hparts).2), hclean.2⟩
  | case12 seen path part parts hidle hdots next target hlook rest depth found reached hinner hnew hagain =>
    rename_i ihinner ih
    have hclean := ihinner (hpath.baseOf target) (hseen.cons_none _) (htarget hlook)
    rw [hinner] at hclean
    exact ih hclean.1 (hclean.2.cons_some _ hclean.1) (List.forall_mem_cons.1 hparts).2
  | case13 depth seen path part parts hidle hdots next node hnode hlook =>
    rename_i ih
    exact ih (hpath.child (List.forall_mem_cons.1 hparts).1) hseen (List.forall_mem_cons.1 hparts).2

theorem Proper.isClean_absolute (hs : site.Proper) {s : Text} (h : site.Fits s) : (site.absolute s).IsClean site := by
  have hinner := Path.isClean_parse h
  have hdirectory : ∀ name ∈ site.directory, site.Fits name := fun name hm =>
    (hs.isFileName hs.directory name hm).2
  refine Path.isClean_normal ?_
  unfold Path.join
  dsimp only
  split
  · exact List.forall_mem_append.2 ⟨hdirectory, hinner⟩
  · exact hinner

/-- Unless the resolution is strict, replacing links fails only for too many of them and for texts that are no path. -/
theorem trace_error {depth : Nat} {seen : Seen} {parts : List Text} {error : ResolveError}
    (h : site.trace false depth seen path parts = .error error) :
    error = .tooDeep ∨ ∃ reason, error = .unusable (.unfit reason) := by
  fun_induction Site.trace site false depth seen path parts with
  | case1 => cases h
  | case4 =>
    cases h
    exact .inr ⟨_, rfl⟩
  | case5 depth seen path part parts hidle hdots next wrong hlook hstrict => cases hstrict
  | case8 depth seen path part parts hidle hdots next target hlook rest result =>
    rename_i hagain
    obtain ⟨_, -, hagain⟩ := Option.bind_eq_some_iff.1 hagain
    cases hagain
    cases h
  | case9 =>
    cases h
    exact .inl rfl
  | case10 seen path part parts hidle hdots next target hlook rest depth wrong hinner hnew =>
    rename_i ih
    exact ih (hinner.trans h)
  | case11 => cases h
  | _ =>
    rename_i ih
    exact ih h

theorem resolve_error {error : ResolveError} (h : site.resolve false path = .error error) :
    (∃ s, error = .circular s) ∨ error = .tooDeep ∨ ∃ reason, error = .unusable (.unfit reason) := by
  unfold resolve at h
  dsimp only at h
  split at h
  · next wrong hwrong =>
    cases h
    exact .inr (trace_error hwrong)
  · rw [if_neg Bool.false_ne_true] at h
    split at h
    · split at h
      · cases h
        exact .inl ⟨_, rfl⟩
      · cases h
    · cases h
      exact .inr (.inr ⟨_, rfl⟩)
    · cases h

theorem expand_error {error : ResolveError} (h : site.expand path = .error error) :
    error = .noHome ∨ ∃ reason, error = .unusable (.unfit reason) := by
  unfold expand at h
  split at h
  · next user names =>
    rcases cases_of_bind_eq_error h with h | ⟨home, -, h⟩
    · unfold homeOf at h
      split at h
      · cases h
      · split at h
        · cases h
          exact .inr ⟨_, rfl⟩
        · split at h
          · cases h
          · cases h
            exact .inl rfl
    · split at h
      · cases h
        exact .inl rfl
      · cases h
  · cases h

/-- Unless links lead back to themselves or are too many, a path without characters that a path cannot hold has a
resolved form without them. -/
theorem Proper.resolve_cases (hs : site.Proper) (h : path.IsClean site) :
    (∃ s, site.resolve false path = .error (.circular s)) ∨ site.resolve false path = .error .tooDeep ∨
      ∃ resolved, site.resolve false path = .ok resolved ∧ resolved.IsClean site := by
  have hstart : ((⟨.here, []⟩ : Path).baseOf path.text).IsClean site :=
    Path.IsClean.baseOf (fun name hm => absurd hm List.not_mem_nil) _
  have htrace : site.TraceClean (site.trace false site.system.linkDepth [] _ path.text.splitSlashes) :=
    hs.traceClean hstart .nil fun part hm => Path.fits_of_mem_split h.fits_text hm
  have hclean : ∀ {trail seen}, site.trace false site.system.linkDepth [] ((⟨.here, []⟩ : Path).baseOf path.text)
      path.text.splitSlashes = .ok (trail, seen) → (site.absolute trail.text).IsClean site := by
    intro trail seen ht
    rw [ht] at htrace
    refine hs.isClean_absolute ?_
    cases trail with
    | whole left => exact Path.IsClean.fits_text htrace.1
    | circular s => exact htrace.1
  cases hr : site.resolve false path with
  | ok resolved =>
    obtain ⟨trail, seen, ht, rfl⟩ := Proper.exists_trail hr
    exact .inr (.inr ⟨_, rfl, hclean ht⟩)
  | error error =>
    rcases resolve_error hr with ⟨s, rfl⟩ | rfl | ⟨reason, rfl⟩
    · exact .inl ⟨s, rfl⟩
    · exact .inr (.inl rfl)
    · exfalso
      unfold resolve at hr
      dsimp only at hr
      split at hr
      · next wrong hwrong =>
        rw [hwrong] at htrace
        exact htrace reason (Except.error.inj hr)
      · next trail seen ht =>
        rw [if_neg Bool.false_ne_true] at hr
        split at hr
        · split at hr <;> cases hr
        · next other hunfit => exact look_ne_unfit (hclean ht).fits_text other hunfit
        · cases hr

/-- Unless a user has no directory, a path without characters that a path cannot hold is expanded to one without
them. -/
theorem Proper.expand_cases (hs : site.Proper) (h : path.IsClean site) :
    site.expand path = .error .noHome ∨ ∃ expanded, site.expand path = .ok expanded ∧ expanded.IsClean site := by
  unfold expand
  split
  · next user names =>
    obtain ⟨huser, hnames⟩ := List.forall_mem_cons.1 h
    have hhome : site.homeOf user = .error .noHome ∨ ∃ home, site.homeOf user = .ok home ∧ site.Fits home := by
      unfold homeOf
      split
      · exact .inr ⟨_, rfl, hs.home.dropSlashes⟩
      · rw [unfit?_eq_none_iff.2 fun c hc => huser c (List.mem_cons_of_mem _ hc)]
        dsimp only
        split
        · next home hlookup =>
          obtain ⟨front, back, he, -⟩ := List.lookup_eq_some_iff.1 hlookup
          refine .inr ⟨_, rfl, (hs.homes (user, home) ?_).dropSlashes⟩
          rw [he]
          exact List.mem_append_right _ List.mem_cons_self
        · exact .inl rfl
    rcases hhome with hhome | ⟨home, hhome, hclean⟩
    · rw [hhome]
      exact .inl rfl
    · rw [hhome]
      simp only [bind, Except.bind]
      split
      · exact .inl rfl
      · exact .inr ⟨_, rfl, List.forall_mem_append.2 ⟨Path.isClean_parse hclean, hnames⟩⟩
  · exact .inr ⟨path, rfl, h⟩

end Site

end Lectern
