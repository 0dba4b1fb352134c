import Lectern.Files.Replacement
import Lectern.Proofs.Resolution
import Lectern.Settings.Search

/-!
# Trees that differ in files

Two file trees may be the same but for some places, where each of them has a file or nothing (**`Tree.SameBut`**). No
link is among these places, so names are followed alike on a system with either tree until they end at one of the
places, or in vain behind it (`Site.SameBut.follow_cases`). What is found at the end of a path is then the same, or a
file at one of the places, or nothing (`Site.SameBut.look_cases`, `Site.SameBut.look_of_hinges`). A path is resolved to
the same one in both (**`Site.SameBut.resolve_eq`**), and `Site.SameBut.table?_cases` says which tables are found.
-/

set_option autoImplicit false

namespace Lectern

/-! ## Trees -/

/-- Two trees have the same at all places but some, and at these the first one has a file or nothing. -/
structure Tree.SameBut (changed : Place → Prop) (tree other : Tree) : Prop where
  same : ∀ place, ¬ changed place → other.get? place = tree.get? place
  isFile : ∀ place node, changed place → tree.get? place = some node → node.isFile = true

namespace Tree.SameBut

variable {tree other : Tree} {changed : Place → Prop} {here : Place}

/-- What is no file and is there is there in both trees. -/
theorem get?_of_not_isFile (h : tree.SameBut changed other) {place : Place} {node : Node}
    (hget : tree.get? place = some node) (hn : node.isFile = false) : other.get? place = some node := by
  rw [h.same place ?_, hget]
  intro hc
  rw [h.isFile place node hc hget] at hn
  cases hn

theorem all_isDirectory (h : tree.SameBut changed other)
    (hopen : ¬ (tree.get? here).all (!·.isDirectory) = true) :
    ¬ (other.get? here).all (!·.isDirectory) = true := by
  cases hget : tree.get? here with
  | none => exact absurd (by rw [hget]; rfl) hopen
  | some node =>
    cases node with
    | directory =>
      rw [h.get?_of_not_isFile hget rfl]
      decide
    | _ => exact absurd (by rw [hget]; rfl) hopen

end Tree.SameBut

/-! ### Changes at one place -/

namespace Tree

variable {tree : Tree} {place : Place}

theorem sameBut_put (hne : place ≠ []) (hold : ∀ node, tree.get? place = some node → node.isFile = true)
    (node : Node) : tree.SameBut (· = place) (tree.put place node) where
  same := fun other ho => by rw [get?_put _ _ _ _ hne, if_neg ho]
  isFile := fun _ found hc hget => hold found (hc ▸ hget)

/-- What is taken away is gone, and all else stays. -/
theorem get?_remove (tree : Tree) (place other : Place) (h : place ≠ []) :
    (tree.remove place).get? other = if other = place then none else tree.get? other := by
  by_cases ho : other = []
  · subst ho
    rw [get?_nil, get?_nil, if_neg (Ne.symm h)]
  · rw [get?, get?, if_neg ho, if_neg ho, remove]
    by_cases he : other = place
    · rw [if_pos he, List.lookup_eq_none_iff]
      intro entry hm
      have hkept := (List.mem_filter.1 hm).2
      rw [bne_iff_ne] at hkept ⊢
      exact fun hk => hkept (hk.symm.trans he)
    · rw [if_neg he]
      induction tree.entries with
      | nil => rfl
      | cons entry entries ih =>
        by_cases hk : entry.1 = place
        · have hp : (other == entry.1) = false := beq_eq_false_iff_ne.2 fun ho => he (ho.trans hk)
          rw [List.filter_cons_of_neg (by simp [hk]), List.lookup_cons, hp, ih]
        · rw [List.filter_cons_of_pos (by simpa using hk), List.lookup_cons, List.lookup_cons, ih]

end Tree

/-! ## Looking for files -/

/-- Two systems are the same but for what the program may do with the files at some places. -/
structure System.SameBut (changed : Place → Prop) (system other : System) : Prop where
  search : other.rights.search = system.rights.search
  read : ∀ place, ¬ changed place → other.rights.read place = system.rights.read place
  codec : other.codec = system.codec
  linkDepth : other.linkDepth = system.linkDepth
  valueDepth : other.valueDepth = system.valueDepth

namespace System.SameBut

variable {system other : System} {changed : Place → Prop}

theorem refl (changed : Place → Prop) (system : System) : system.SameBut changed system :=
  ⟨rfl, fun _ _ => rfl, rfl, rfl, rfl⟩

theorem symm (h : system.SameBut changed other) : other.SameBut changed system :=
  ⟨h.search.symm, fun place hc => (h.read place hc).symm, h.codec.symm, h.linkDepth.symm, h.valueDepth.symm⟩

end System.SameBut

/-- Two sites are the same but for some places, where each of them has a file or nothing. -/
structure Site.SameBut (changed : Place → Prop) (site other : Site) : Prop where
  tree : site.tree.SameBut changed other.tree
  tree_other : other.tree.SameBut changed site.tree
  directory : other.directory = site.directory
  home : other.home = site.home
  homes : other.homes = site.homes
  system : site.system.SameBut changed other.system

/-- The site where what there is at a place is taken away. -/
def Site.without (site : Site) (place : Place) : Site := { site with tree := site.tree.remove place }

/-- What comes of following names is a matter of some places: they end at one of these, or in vain. -/
def Tree.Hinges (changed : Place → Prop) : Except Refusal Place → Prop
  | .ok place => changed place
  | .error reason => reason = .notFound ∨ reason = .notDirectory

/-- Where a text leads is a matter of some places: it is one of these, or nowhere. -/
def Site.Hinges (changed : Place → Prop) : Except PathError Place → Prop
  | .ok place => changed place
  | .error (.refused error) => error.reason = .notFound ∨ error.reason = .notDirectory
  | .error (.unfit _) => False

namespace Site.SameBut

variable {site other : Site} {changed : Place → Prop} {last : Bool} {s : Text}

theorem symm (h : site.SameBut changed other) : other.SameBut changed site :=
  ⟨h.tree_other, h.tree, h.directory.symm, h.home.symm, h.homes.symm, h.system.symm⟩

theorem sameBut_without {place : Place} {bytes : List UInt8} {mode : Nat}
    (hold : site.tree.get? place = some (.file bytes mode)) : site.SameBut (· = place) (site.without place) := by
  have hne := site.tree.ne_nil_of_get? hold Node.noConfusion
  refine ⟨⟨fun other ho => ?_, fun other node hc hget => ?_⟩, ⟨fun other ho => ?_, fun other node hc hget => ?_⟩,
    rfl, rfl, rfl, .refl _ _⟩
  · rw [without, Tree.get?_remove _ _ _ hne, if_neg ho]
  · subst hc
    rw [hold] at hget
    cases hget
    rfl
  · rw [without, Tree.get?_remove _ _ _ hne, if_neg ho]
  · rw [without, Tree.get?_remove _ _ _ hne, if_pos hc] at hget
    cases hget

/-- Nothing lies in a file. -/
theorem hinges_follow (h : site.SameBut changed other) {here : Place} (hc : changed here) (last : Bool) (links : Nat)
    (names : List Text) : Tree.Hinges changed (site.follow last links here names) := by
  cases names with
  | nil =>
    rw [follow]
    exact hc
  | cons name names =>
    have hclosed : (site.tree.get? here).all (!·.isDirectory) = true := by
      cases hget : site.tree.get? here with
      | none => rfl
      | some node =>
        have hfile := h.tree.isFile here node hc hget
        cases node with
        | file bytes mode => rfl
        | _ => cases hfile
    rw [follow, if_pos hclosed]
    exact .inr rfl

/-- Names are followed alike, unless it is a matter of the places that differ where they lead to. -/
theorem follow_cases (h : site.SameBut changed other) (last : Bool) (links : Nat) (here : Place) (names : List Text) :
    other.follow last links here names = site.follow last links here names ∨
      Tree.Hinges changed (site.follow last links here names) := by
  fun_induction Site.follow site last links here names with
  | case1 links here =>
    rw [follow]
    exact .inl rfl
  | case2 links here name names hclosed => exact .inr (.inr rfl)
  | case3 links here name names hopen barrier hb =>
    rw [follow, if_neg (h.tree.all_isDirectory hopen), h.system.search, hb]
    exact .inl rfl
  | case4 links here names hopen hb ih =>
    rw [follow, if_neg (h.tree.all_isDirectory hopen), h.system.search, hb]
    exact ih
  | case5 links here names hopen hb hdot ih =>
    rw [follow, if_neg (h.tree.all_isDirectory hopen), h.system.search, hb]
    exact ih
  | case6 links here name names hopen hb hdot hdots hcount =>
    rw [follow, if_neg (h.tree.all_isDirectory hopen), h.system.search, hb]
    simp [hdot, hdots, hcount]
  | case7 links here name names hopen hb hdot hdots hcount hget => exact .inr (.inl rfl)
  | case8 links here name names hopen hb hdot hdots hcount target hget hend =>
    rw [follow, if_neg (h.tree.all_isDirectory hopen), h.system.search, hb]
    simp [hdot, hdots, hcount, h.tree.get?_of_not_isFile hget rfl, hend]
  | case9 here name names hopen hb hdot hdots hcount target hget hend =>
    rw [follow, if_neg (h.tree.all_isDirectory hopen), h.system.search, hb]
    simp [hdot, hdots, hcount, h.tree.get?_of_not_isFile hget rfl, hend]
  | case10 here name names hopen hb hdot hdots hcount target hget hend links ih =>
    rw [follow, if_neg (h.tree.all_isDirectory hopen), h.system.search, hb]
    simpa only [hdot, hdots, hcount, h.tree.get?_of_not_isFile hget rfl, hend, if_false] using ih
  | case11 links here name names hopen hb hdot hdots hcount node hlink hget ih =>
    by_cases hc : changed (here ++ [name])
    · exact .inr (h.hinges_follow hc last links names)
    · rw [follow, if_neg (h.tree.all_isDirectory hopen), h.system.search, hb]
      dsimp only
      rw [if_neg hdot, if_neg hdots, if_neg hcount, h.tree.same _ hc, hget]
      cases node with
      | link target => exact absurd rfl (hlink target)
      | _ => exact ih

/-- A text leads to the same place, unless it is a matter of the places that differ where it leads. -/
theorem locate_cases (h : site.SameBut changed other) (last : Bool) (s : Text) :
    other.locate last s = site.locate last s ∨
      Hinges changed (site.locate last s) ∧ Hinges changed (other.locate last s) := by
  have hunfit : other.unfit? s = site.unfit? s := by
    rw [unfit?, unfit?, System.unencodable?, System.unencodable?, h.system.codec]
  unfold locate
  rw [h.directory, hunfit]
  split
  · exact .inl rfl
  · dsimp only
    split
    · exact .inl rfl
    · split
      · exact .inl rfl
      · have hlift : ∀ result : Except Refusal Place, Tree.Hinges changed result →
            Hinges changed (result.mapError fun reason => .refused ⟨reason, s⟩) := by
          intro result hresult
          cases result <;> exact hresult
        rcases h.follow_cases last maxLinks (s.origin site.directory) s.steps with hsame | hone
        · rw [hsame]
          exact .inl rfl
        · rcases h.symm.follow_cases last maxLinks (s.origin site.directory) s.steps with hsame | hother
          · rw [hsame]
            exact .inl rfl
          · exact .inr ⟨hlift _ hone, hlift _ hother⟩

/-- Where it is a matter of the places that differ, there is a file at one of them or nothing. -/
theorem look_of_hinges (h : site.SameBut changed other) (hh : Hinges changed (site.locate last s)) :
    (∃ place bytes mode, changed place ∧ site.locate last s = .ok place ∧
      site.tree.get? place = some (.file bytes mode) ∧ site.look last s = .ok (.file bytes mode)) ∨
      ∃ error, site.look last s = .error (.refused error) ∧
        (error.reason = .notFound ∨ error.reason = .notDirectory) := by
  cases hl : site.locate last s with
  | error error =>
    rw [hl] at hh
    cases error with
    | unfit reason => exact hh.elim
    | refused error =>
      refine .inr ⟨error, ?_, hh⟩
      rw [look, hl]
      rfl
  | ok place =>
    rw [hl] at hh
    cases hget : site.tree.get? place with
    | none =>
      refine .inr ⟨⟨.notFound, s⟩, ?_, .inl rfl⟩
      simp only [look, hl, bind, Except.bind, hget]
      rfl
    | some node =>
      have hfile := h.tree.isFile place node hh hget
      cases node with
      | file bytes mode => exact .inl ⟨place, bytes, mode, hh, rfl, hget, look_of_locate hl hget⟩
      | _ => cases hfile

/-- The same is found at the same place, unless it is a matter of the places that differ what there is. -/
theorem look_cases (h : site.SameBut changed other) (last : Bool) (s : Text) :
    (other.locate last s = site.locate last s ∧ other.look last s = site.look last s ∧
        ∀ place, site.locate last s = .ok place → ¬ changed place) ∨
      Hinges changed (site.locate last s) ∧ Hinges changed (other.locate last s) := by
  rcases h.locate_cases last s with hsame | hhinges
  · cases hl : site.locate last s with
    | error error =>
      rw [hl] at hsame
      refine .inl ⟨hsame, ?_, fun place he => by cases he⟩
      rw [look, look, hl, hsame]
      rfl
    | ok place =>
      rw [hl] at hsame
      by_cases hc : changed place
      · rw [hsame]
        exact .inr ⟨hc, hc⟩
      · refine .inl ⟨hsame, ?_, fun reached he => ?_⟩
        · simp only [look, hl, hsame, bind, Except.bind, h.tree.same place hc]
        · cases he
          exact hc
  · exact .inr hhinges

/-- What is found alike at a place that does not differ is read alike. -/
theorem read_eq (h : site.SameBut changed other) (hlocate : other.locate true s = site.locate true s)
    (hstatus : other.status s = site.status s) (hsame : ∀ place, site.locate true s = .ok place → ¬ changed place) :
    other.read s = site.read s := by
  rw [read, read, hlocate, hstatus]
  cases hl : site.locate true s with
  | error error => rfl
  | ok place => simp only [bind, Except.bind, h.system.read place (hsame place hl)]

end Site.SameBut

/-! ## Resolving paths -/

/-- What is looked at is no link, as far as one can tell, so that a path which is resolved leads on along its name. -/
def Site.Passes : Except PathError Node → Prop
  | .ok (.link _) | .error (.unfit _) => False
  | _ => True

namespace Site.SameBut

variable {site other : Site} {changed : Place → Prop} {s : Text}

theorem passes_of_hinges (h : site.SameBut changed other) (hh : Hinges changed (site.locate false s)) :
    Passes (site.look false s) := by
  rcases h.look_of_hinges hh with ⟨_, _, _, -, -, -, hlook⟩ | ⟨error, hlook, -⟩
  · rw [hlook]
    trivial
  · rw [hlook]
    trivial

theorem passes (h : site.SameBut changed other) (hp : Passes (site.look false s)) : Passes (other.look false s) := by
  rcases h.look_cases false s with ⟨-, hsame, -⟩ | ⟨-, hother⟩
  · rwa [hsame]
  · exact h.symm.passes_of_hinges hother

theorem look_eq (h : site.SameBut changed other) (hp : ¬ Passes (site.look false s)) :
    other.look false s = site.look false s :=
  ((h.look_cases false s).resolve_right fun hhinges => hp (h.passes_of_hinges hhinges.1)).2.1

/-- What there is is no circle of links where it is a matter of the places that differ. -/
theorem status_of_hinges (h : site.SameBut changed other) (hh : Hinges changed (site.locate true s)) :
    (∃ node, site.status s = .ok node) ∨
      ∃ error, site.status s = .error (.refused error) ∧ error.reason ≠ .tooManyLinks := by
  rcases h.look_of_hinges hh with ⟨_, _, _, -, -, -, hlook⟩ | ⟨error, hlook, hreason⟩
  · exact .inl ⟨_, hlook⟩
  · refine .inr ⟨error, hlook, ?_⟩
    rcases hreason with hreason | hreason <;> rw [hreason] <;> exact Refusal.noConfusion

end Site.SameBut

namespace Site

variable {site : Site} {depth : Nat} {seen : Seen} {path : Path} {part : Text} {parts : List Text}

theorem trace_of_passes (hidle : ¬ part.isIdle = true) (hdots : part ≠ ['.', '.'])
    (hp : Passes (site.look false (path.child part).text)) :
    site.trace false depth seen path (part :: parts) = site.trace false depth seen (path.child part) parts := by
  rw [trace, if_neg hidle, if_neg hdots]
  dsimp only
  split
  · next hlook =>
    rw [hlook] at hp
    exact hp.elim
  · rfl
  · next target hlook =>
    rw [hlook] at hp
    exact hp.elim
  · rfl

/-- What a link leads to is known, or it is just being replaced, or it is replaced now. -/
theorem trace_of_link {target : Text} (hidle : ¬ part.isIdle = true) (hdots : part ≠ ['.', '.'])
    (hlink : site.look false (path.child part).text = .ok (.link target)) :
    site.trace false depth seen path (part :: parts) =
      match seen.lookup (path.child part).text with
      | some (some found) => site.trace false depth seen found parts
      | some none => .ok (.circular ((path.child part).text.joinPath (List.intercalate ['/'] parts)), seen)
      | none =>
        match depth with
        | 0 => .error .tooDeep
        | depth + 1 =>
          match site.trace false depth (((path.child part).text, none) :: seen) (path.baseOf target)
            target.splitSlashes with
          | .error error => .error error
          | .ok (.circular s, seen) => .ok (.circular (s.joinPath (List.intercalate ['/'] parts)), seen)
          | .ok (.whole found, seen) =>
            site.trace false (depth + 1) (((path.child part).text, some found) :: seen) found parts := by
  rw [trace, if_neg hidle, if_neg hdots]
  dsimp only
  rw [hlink]
  dsimp only
  cases hlookup : seen.lookup (path.child part).text with
  | none => rfl
  | some entry => cases entry <;> rfl

/-- Unless a resolution is strict, a link that is met again is a circle. -/
theorem eq_none_of_again? {link rest : Text} {known? : Option (Option Path)}
    (h : (known?.bind fun _ => site.again? false link rest) = none) : known? = none := by
  cases known? with
  | none => rfl
  | some entry => cases h

/-- Links are replaced alike. -/
theorem SameBut.trace_eq {other : Site} {changed : Place → Prop} (h : site.SameBut changed other) (depth : Nat)
    (seen : Seen) (path : Path) (parts : List Text) :
    other.trace false depth seen path parts = site.trace false depth seen path parts := by
  -- a link, or a text that is no path, is met in both
  have hmet : ∀ {s : Text} {result : Except PathError Node}, site.look false s = result → ¬ Passes result →
      other.look false s = result := by
    rintro s result rfl hp
    exact h.look_eq hp
  fun_induction Site.trace site false depth seen path parts with
  | case1 => rw [trace]
  | case2 depth seen path part parts hidle ih =>
    rw [trace, if_pos hidle]
    exact ih
  | case3 depth seen path parts hidle ih =>
    rw [trace, if_neg hidle, if_pos rfl]
    exact ih
  | case4 depth seen path part parts hidle hdots next reason hunfit =>
    have hother : other.look false (path.child part).text = _ := hmet hunfit fun hp => hp
    rw [trace, if_neg hidle, if_neg hdots]
    dsimp only
    rw [hother]
  | case5 depth seen path part parts hidle hdots next error hrefused hstrict => cases hstrict
  | case6 depth seen path part parts hidle hdots next error hrefused hstrict ih =>
    rw [trace_of_passes hidle hdots (h.passes (by rw [hrefused]; trivial))]
    exact ih
  | case7 depth seen path part parts hidle hdots next target hlink found hfound ih =>
    rw [trace_of_link hidle hdots (hmet hlink fun hp => hp), hfound]
    exact ih
  | case8 depth seen path part parts hidle hdots next target hlink rest result =>
    rename_i hnew hagain
    rw [trace_of_link hidle hdots (hmet hlink fun hp => hp)]
    obtain ⟨entry, hentry, hagain⟩ := Option.bind_eq_some_iff.1 hagain
    rw [hentry] at hnew ⊢
    cases hagain
    cases entry with
    | none => rfl
    | some found => exact absurd rfl (hnew found)
  | case9 seen path part parts hidle hdots next target hlink =>
    rename_i hagain
    rw [trace_of_link hidle hdots (hmet hlink fun hp => hp), eq_none_of_again? hagain]
  | case10 seen path part parts hidle hdots next target hlink rest depth error hinner hnew =>
    rename_i hagain ih
    rw [trace_of_link hidle hdots (hmet hlink fun hp => hp), eq_none_of_again? hagain]
    dsimp only
    rw [ih, hinner]
  | case11 seen path part parts hidle hdots next target hlink rest depth s reached hinner hnew =>
    rename_i hagain ih
    rw [trace_of_link hidle hdots (hmet hlink fun hp => hp), eq_none_of_again? hagain]
    dsimp only
    rw [ih, hinner]
  | case12 seen path part parts hidle hdots next target hlink rest depth found reached hinner hnew hagain =>
    rename_i ihinner ih
    rw [trace_of_link hidle hdots (hmet hlink fun hp => hp), eq_none_of_again? hagain]
    dsimp only
    rw [ihinner, hinner]
    exact ih
  | case13 depth seen path part parts hidle hdots next node hnode hfound ih =>
    rw [trace_of_passes hidle hdots (h.passes ?_)]
    · exact ih
    · rw [hfound]
      cases node with
      | link target => exact absurd rfl (hnode target)
      | _ => trivial

/-- A path that is left is the resolved one, unless there are links behind it that lead back to themselves. -/
theorem resolve_of_trail {trail : Trail}
    (htrail : site.trace false site.system.linkDepth [] ((⟨.here, []⟩ : Path).baseOf path.text)
      path.text.splitSlashes = .ok (trail, seen))
    (hend : (∃ node, site.status (site.absolute trail.text).text = .ok node) ∨
      ∃ error, site.status (site.absolute trail.text).text = .error (.refused error) ∧ error.reason ≠ .tooManyLinks) :
    site.resolve false path = .ok (site.absolute trail.text) := by
  unfold resolve
  dsimp only
  rw [htrail]
  dsimp only
  rw [if_neg Bool.false_ne_true]
  rcases hend with ⟨node, hnode⟩ | ⟨error, herror, hreason⟩
  · rw [hnode]
  · rw [herror]
    exact if_neg hreason

/-- A path is resolved to the same one. -/
theorem SameBut.resolve_eq {other : Site} {changed : Place → Prop} (h : site.SameBut changed other) (path : Path) :
    other.resolve false path = site.resolve false path := by
  cases htrail : site.trace false site.system.linkDepth [] ((⟨.here, []⟩ : Path).baseOf path.text)
      path.text.splitSlashes with
  | error error =>
    unfold resolve
    dsimp only
    rw [h.trace_eq, h.system.linkDepth, htrail]
  | ok result =>
    obtain ⟨trail, seen⟩ := result
    have htrail' : other.trace false other.system.linkDepth [] ((⟨.here, []⟩ : Path).baseOf path.text)
        path.text.splitSlashes = .ok (trail, seen) := by
      rw [h.system.linkDepth, h.trace_eq, htrail]
    have habsolute : other.absolute trail.text = site.absolute trail.text := by
      rw [absolute, absolute, h.directory]
    rcases h.look_cases true (site.absolute trail.text).text with ⟨-, hsame, -⟩ | ⟨hone, hother⟩
    · unfold resolve
      dsimp only
      rw [htrail', htrail]
      dsimp only
      rw [habsolute, status, hsame, status]
    · rw [resolve_of_trail htrail (h.status_of_hinges hone), resolve_of_trail htrail' ?_, habsolute]
      rw [habsolute]
      exact h.symm.status_of_hinges hother

/-! ## Tables -/

/-- There is no table where there is nothing. -/
theorem table?_of_absent {path : Path} {error : AccessError}
    (h : site.status path.text = .error (.refused error))
    (hreason : error.reason = .notFound ∨ error.reason = .notDirectory) : site.table? path = .ok none := by
  have habsent : error.reason.isAbsence = true := by
    rcases hreason with hreason | hreason <;> rw [hreason] <;> rfl
  have hfree : site.occupied path.text = .ok false := by
    rw [occupied, has, h]
    exact if_pos habsent
  rw [table?, hfree]
  rfl

/-- The same table is found, unless it is a matter of the places that differ what there is. -/
theorem SameBut.table?_cases {other : Site} {changed : Place → Prop} (h : site.SameBut changed other) (path : Path) :
    other.table? path = site.table? path ∨
      Hinges changed (site.locate true path.text) ∧ Hinges changed (other.locate true path.text) := by
  refine (h.look_cases true path.text).imp_left fun ⟨hlocate, hstatus, hsame⟩ => ?_
  have hoccupied : other.occupied path.text = site.occupied path.text := by
    rw [occupied, occupied, has, has, status, status, hstatus]
  rw [table?, table?, hoccupied, h.read_eq hlocate hstatus hsame, h.system.valueDepth]

/-- Then there is a file at one of them, or no table. -/
theorem SameBut.table?_of_hinges {other : Site} {changed : Place → Prop} (h : site.SameBut changed other) {path : Path}
    (hh : Hinges changed (site.locate true path.text)) :
    (∃ place bytes mode, changed place ∧ site.locate true path.text = .ok place ∧
      site.tree.get? place = some (.file bytes mode) ∧ site.status path.text = .ok (.file bytes mode)) ∨
      site.table? path = .ok none :=
  (h.look_of_hinges hh).imp_right fun ⟨_, hlook, hreason⟩ => table?_of_absent hlook hreason

/-- Taking a file away leaves the tables of all others, and there is no table where it was. -/
theorem table?_without {place : Place} {bytes : List UInt8} {mode : Nat}
    (hold : site.tree.get? place = some (.file bytes mode)) (path : Path) :
    (site.without place).table? path = site.table? path ∨
      (site.without place).table? path = .ok none ∧ site.locate true path.text = .ok place ∧
        site.status path.text = .ok (.file bytes mode) := by
  have hsame := SameBut.sameBut_without hold
  have hgone : (site.without place).tree.get? place = none := by
    rw [without, Tree.get?_remove _ _ _ (site.tree.ne_nil_of_get? hold Node.noConfusion), if_pos rfl]
  rcases hsame.table?_cases path with heq | ⟨hone, hother⟩
  · exact .inl heq
  · rcases hsame.symm.table?_of_hinges hother with ⟨other, _, _, rfl, -, hget, -⟩ | hnone'
    · rw [hgone] at hget
      cases hget
    · rcases hsame.table?_of_hinges hone with ⟨other, bytes', mode', rfl, hlocate, hget, hstatus⟩ | hnone
      · cases hold.symm.trans hget
        exact .inr ⟨hnone', hlocate, hstatus⟩
      · exact .inl (hnone'.trans hnone.symm)

end Site

end Lectern
