import Lectern.Proofs.Attempts
import Lectern.Proofs.PathTexts

/-!
# Following paths

In a proper file tree (**`Site.Proper`**) whatever there is lies in a directory under a name that a file can have. So a
path that leads along no link is followed to the place that its text says (`Site.Proper.locate_of_get?`): if there is
something at that place, no step on the way there is refused but for a barrier. And where no link is on the way, there
is no other place that the path could be followed to (`Site.follow_eq_of_linkFree`). What keeps a program from following
some names keeps it from following more of them (`Site.follow_append_of_error`).
-/

set_option autoImplicit false

namespace Lectern

/-! ## Proper trees -/

/-- A name that a file can have. -/
def Text.IsFileName (name : Text) : Prop := name.IsName ∧ name ≠ ['.', '.'] ∧ name.byteCount ≤ maxNameBytes

instance : DecidablePred Text.IsName := fun _ => inferInstanceAs (Decidable (_ ∧ _))

instance : DecidablePred Text.IsFileName := fun _ => inferInstanceAs (Decidable (_ ∧ _))

/-- A path can hold the characters of a text. -/
def Site.Fits (site : Site) (s : Text) : Prop := ∀ c ∈ s, site.fits c = true

instance (site : Site) : DecidablePred site.Fits := fun _ => inferInstanceAs (Decidable (∀ c ∈ _, _))

/-- A path can hold the text of a path if it can hold the names on it. -/
theorem Site.fits_of_names {site : Site} {path : Path} (h : ∀ name ∈ path.names, site.Fits name) :
    site.Fits path.text := by
  intro c hm
  by_cases hslash : c = '/'
  · rw [hslash]
    rfl
  · by_cases hdot : c = '.'
    · rw [hdot]
      rfl
    · obtain ⟨name, hn, hc⟩ := Path.exists_of_mem_text hm hslash hdot
      exact h name hn c hc

/-- A link has a target that a path can be. -/
def Site.Links (site : Site) : Node → Prop
  | .link target => site.Fits target
  | _ => True

instance (site : Site) : DecidablePred site.Links := fun node =>
  match node with
  | .link target => inferInstanceAs (Decidable (site.Fits target))
  | .file _ _ | .directory | .device => isTrue trivial

/-- A file tree as there can be one, seen from a directory in it. -/
structure Site.Proper (site : Site) : Prop where
  /-- Whatever there is lies in a directory. -/
  inside : ∀ entry ∈ site.tree.entries, site.tree.get? entry.1.dropLast = some .directory
  named : ∀ entry ∈ site.tree.entries, ∀ name ∈ entry.1, name.IsFileName ∧ site.Fits name
  linked : ∀ entry ∈ site.tree.entries, site.Links entry.2
  directory : site.tree.get? site.directory = some .directory
  home : site.Fits site.home
  homes : ∀ entry ∈ site.homes, site.Fits entry.2

instance (site : Site) : Decidable site.Proper :=
  decidable_of_iff
    ((∀ entry ∈ site.tree.entries, site.tree.get? entry.1.dropLast = some .directory) ∧
      (∀ entry ∈ site.tree.entries, ∀ name ∈ entry.1, name.IsFileName ∧ site.Fits name) ∧
      (∀ entry ∈ site.tree.entries, site.Links entry.2) ∧ site.tree.get? site.directory = some .directory ∧
      site.Fits site.home ∧ ∀ entry ∈ site.homes, site.Fits entry.2)
    ⟨fun ⟨inside, named, linked, directory, home, homes⟩ => ⟨inside, named, linked, directory, home, homes⟩,
      fun h => ⟨h.inside, h.named, h.linked, h.directory, h.home, h.homes⟩⟩

theorem Tree.mem_entries {tree : Tree} {place : Place} {node : Node} (h : tree.get? place = some node)
    (hne : place ≠ []) : (place, node) ∈ tree.entries := by
  rw [get?, if_neg hne] at h
  obtain ⟨before, after, he, -⟩ := List.lookup_eq_some_iff.1 h
  rw [he]
  exact List.mem_append_right _ List.mem_cons_self

theorem Tree.ne_nil_of_get? {tree : Tree} {place : Place} {node : Node} (h : tree.get? place = some node)
    (hn : node ≠ .directory) : place ≠ [] := by
  rintro rfl
  rw [get?_nil] at h
  exact hn (Option.some.inj h).symm

namespace Site.Proper

variable {site : Site} {place front back : Place} {node : Node}

theorem get?_around (hs : site.Proper) {name : Text} (h : site.tree.get? (place ++ [name]) = some node) :
    site.tree.get? place = some .directory := by
  have hinside := hs.inside _ (Tree.mem_entries h (by simp))
  rwa [List.dropLast_concat] at hinside

/-- Around whatever there is, there are directories. -/
theorem get?_front (hs : site.Proper) (h : site.tree.get? (front ++ back) = some node) (hne : back ≠ []) :
    site.tree.get? front = some .directory := by
  induction back generalizing front node with
  | nil => exact absurd rfl hne
  | cons name back ih =>
    cases back with
    | nil => exact hs.get?_around h
    | cons next back =>
      rw [← List.singleton_append, ← List.append_assoc] at h
      exact hs.get?_around (ih h (List.cons_ne_nil _ _))

theorem isFileName (hs : site.Proper) (h : site.tree.get? place = some node) :
    ∀ name ∈ place, name.IsFileName ∧ site.Fits name := by
  intro name hm
  exact hs.named _ (Tree.mem_entries h (List.ne_nil_of_mem hm)) name hm

theorem fits_target (hs : site.Proper) {target : Text} (h : site.tree.get? place = some (.link target)) :
    site.Fits target :=
  hs.linked _ (Tree.mem_entries h (Tree.ne_nil_of_get? h Node.noConfusion))

theorem get?_dropLast (hs : site.Proper) (h : site.tree.get? place = some .directory) :
    site.tree.get? place.dropLast = some .directory := by
  by_cases hne : place = []
  · rwa [hne] at h ⊢
  · rw [← List.dropLast_concat_getLast hne] at h
    exact hs.get?_front h (List.cons_ne_nil _ _)

end Site.Proper

/-! ## Following names -/

namespace Site.Proper

variable {site : Site} {here : Place} {node : Node}

/-- What keeps a program from searching a directory keeps it from following any name there. -/
theorem follow_of_search (last : Bool) (links : Nat) (h : site.tree.get? here = some .directory) {barrier : Barrier}
    (hb : site.system.rights.search here = some barrier) (name : Text) (names : List Text) :
    site.follow last links here (name :: names) = .error (.barred barrier) := by
  rw [follow, h, hb]
  rfl

/-- Two periods lead up to a directory, unless there is a barrier. -/
theorem follow_ups (hs : site.Proper) {ups : List Text} (hups : ∀ name ∈ ups, name = ['.', '.'])
    (h : site.tree.get? here = some .directory) (names : List Text) :
    site.tree.get? (ups.foldl Place.enter here) = some .directory ∧
      ((∀ last links, site.follow last links here (ups ++ names) =
          site.follow last links (ups.foldl Place.enter here) names) ∨
        ∃ barrier, ∀ last links, site.follow last links here (ups ++ names) = .error (.barred barrier)) := by
  induction ups generalizing here with
  | nil => exact ⟨h, .inl fun _ _ => rfl⟩
  | cons name ups ih =>
    obtain ⟨rfl, hrest⟩ := List.forall_mem_cons.1 hups
    obtain ⟨hdirectory, hfollow⟩ := ih hrest (hs.get?_dropLast h)
    refine ⟨hdirectory, ?_⟩
    cases hb : site.system.rights.search here with
    | some barrier => exact .inr ⟨barrier, fun last links => follow_of_search last links h hb _ _⟩
    | none =>
      have hstep : ∀ last links, site.follow last links here (['.', '.'] :: (ups ++ names)) =
          site.follow last links here.dropLast (ups ++ names) := by
        intro last links
        rw [follow, h, hb]
        rfl
      rcases hfollow with hfollow | ⟨barrier, hfollow⟩
      · exact .inl fun last links => (hstep last links).trans (hfollow last links)
      · exact .inr ⟨barrier, fun last links => (hstep last links).trans (hfollow last links)⟩

/-- Names are followed to what they lead to, unless there is a barrier. -/
theorem follow_names (hs : site.Proper) {last : Bool} (links : Nat) {names : List Text}
    (h : site.tree.get? (here ++ names) = some node) (hlast : last = false ∨ ∀ target, node ≠ .link target) :
    site.follow last links here names = .ok (here ++ names) ∨
      ∃ barrier, site.follow last links here names = .error (.barred barrier) := by
  induction names generalizing here with
  | nil =>
    left
    rw [follow, List.append_nil]
  | cons name names ih =>
    have hhere := hs.get?_front h (List.cons_ne_nil _ _)
    obtain ⟨⟨⟨-, hidle⟩, hdots, hcount⟩, -⟩ := hs.isFileName h name (List.mem_append_right _ List.mem_cons_self)
    have hdot : name ≠ ['.'] := by
      rintro rfl
      exact absurd hidle (by decide)
    rw [← List.singleton_append, ← List.append_assoc] at h
    have hrest := ih h
    rw [List.append_assoc, List.singleton_append] at hrest
    cases hb : site.system.rights.search here with
    | some barrier => exact .inr ⟨barrier, follow_of_search last links hhere hb _ _⟩
    | none =>
      rw [follow, hhere, if_neg (by decide), hb]
      dsimp only
      rw [if_neg hdot, if_neg hdots, if_neg (Nat.not_lt.2 hcount)]
      cases names with
      | nil =>
        rw [List.append_nil] at h
        rw [h]
        cases node with
        | link target =>
          have hfalse := hlast.resolve_right fun hne => hne target rfl
          simp [hfalse]
        | _ => exact hrest
      | cons next names =>
        rw [hs.get?_front h (List.cons_ne_nil _ _)]
        exact hrest

end Site.Proper

/-- What keeps a program from following names, up to a link at their end, keeps it from following more of them. -/
theorem Site.follow_append_of_error {site : Site} {links : Nat} {here : Place} {names : List Text} {reason : Refusal}
    (h : site.follow false links here names = .error reason) (last : Bool) (more : List Text) :
    site.follow last links here (names ++ more) = .error reason := by
  fun_induction site.follow false links here names with
  | case1 => cases h
  | case2 links here name names hdirectory =>
    rw [List.cons_append, follow, if_pos hdirectory]
    exact h
  | case3 links here name names hdirectory barrier hb =>
    rw [List.cons_append, follow, if_neg hdirectory, hb]
    exact h
  | case4 links here names hdirectory hb ih =>
    rw [List.cons_append, follow, if_neg hdirectory, hb]
    exact ih h
  | case5 links here names hdirectory hb _ ih =>
    rw [List.cons_append, follow, if_neg hdirectory, hb]
    exact ih h
  | case6 links here name names hdirectory hb hdot hdots hlong =>
    rw [List.cons_append, follow, if_neg hdirectory, hb]
    dsimp only
    rw [if_neg hdot, if_neg hdots, if_pos hlong]
    exact h
  | case7 links here name names hdirectory hb hdot hdots hlong hget =>
    rw [List.cons_append, follow, if_neg hdirectory, hb]
    dsimp only
    rw [if_neg hdot, if_neg hdots, if_neg hlong, hget]
    exact h
  | case8 => cases h
  | case9 here name names hdirectory hb hdot hdots hlong target hget hlink =>
    rw [List.cons_append, follow, if_neg hdirectory, hb]
    dsimp only
    rw [if_neg hdot, if_neg hdots, if_neg hlong, hget]
    dsimp only
    rw [if_neg fun hnil => hlink ⟨(List.append_eq_nil_iff.1 hnil.1).1, rfl⟩]
    exact h
  | case10 here name names hdirectory hb hdot hdots hlong target hget hlink links ih =>
    rw [List.cons_append, follow, if_neg hdirectory, hb]
    dsimp only
    rw [if_neg hdot, if_neg hdots, if_neg hlong, hget]
    dsimp only
    rw [if_neg fun hnil => hlink ⟨(List.append_eq_nil_iff.1 hnil.1).1, rfl⟩, ← List.append_assoc]
    exact ih h
  | case11 links here name names hdirectory hb hdot hdots hlong node hnode hget ih =>
    rw [List.cons_append, follow, if_neg hdirectory, hb]
    dsimp only
    rw [if_neg hdot, if_neg hdots, if_neg hlong, hget]
    cases node with
    | link target => exact absurd rfl (hnode target)
    | _ => exact ih h

/-! ## Places without links -/

/-- Nothing on the way to a place is a link, nor is what is there. -/
def Tree.LinkFree (tree : Tree) (place : Place) : Prop :=
  ∀ front, front <+: place → ∀ target, tree.get? front ≠ some (.link target)

theorem Tree.LinkFree.shorten {tree : Tree} {here : Place} {names : List Text} (h : tree.LinkFree (here ++ names)) :
    tree.LinkFree here :=
  fun _ hf => h _ (hf.trans (List.prefix_append _ _))

/-- Where no link is on the way, names lead to the place that they say or nowhere. -/
theorem Site.follow_eq_of_linkFree {site : Site} {here : Place} {names : List Text}
    (h : site.tree.LinkFree (here ++ names)) (hn : ∀ name ∈ names, name.IsName ∧ name ≠ ['.', '.']) {last : Bool}
    {links : Nat} {reached : Place} (hf : site.follow last links here names = .ok reached) :
    reached = here ++ names := by
  induction names generalizing here with
  | nil =>
    rw [follow] at hf
    cases hf
    exact (List.append_nil _).symm
  | cons name names ih =>
    obtain ⟨⟨⟨-, hidle⟩, hdots⟩, hnames⟩ := List.forall_mem_cons.1 hn
    have hdot : name ≠ ['.'] := by
      rintro rfl
      exact absurd hidle (by decide)
    rw [← List.singleton_append, ← List.append_assoc] at h ⊢
    rw [follow, if_neg hdot, if_neg hdots] at hf
    split at hf
    · cases hf
    · split at hf
      · cases hf
      · split at hf
        · cases hf
        · split at hf
          · cases hf
          · next target hl => exact absurd hl (h.shorten _ (List.prefix_refl _) target)
          · exact ih h hnames hf

/-! ## Following paths -/

/-- A path in which two periods stand in front of all other names, and only if it starts where a program works. -/
structure Path.Reduced (path : Path) : Prop extends path.Plain where
  shape : ∃ ups rest, path.names = ups ++ rest ∧ (∀ name ∈ ups, name = ['.', '.']) ∧ ['.', '.'] ∉ rest ∧
    (path.root ≠ .here → ups = [])

namespace Path.Reduced

variable {path : Path}

theorem nil {root : Root} (h : root ≠ .doubleTop) : (⟨root, []⟩ : Path).Reduced where
  root := h
  names := fun _ hm => nomatch hm
  shape := ⟨[], [], rfl, (fun _ hm => nomatch hm), List.not_mem_nil, fun _ => rfl⟩

theorem child (h : path.Reduced) {name : Text} (hn : name.IsName) (hd : name ≠ ['.', '.']) :
    (path.child name).Reduced := by
  obtain ⟨ups, rest, hnames, hups, hrest, hroot⟩ := h.shape
  refine ⟨h.toPlain.child hn, ups, rest ++ [name], ?_, hups, ?_, hroot⟩
  · rw [Path.child, hnames, List.append_assoc]
  · rw [List.mem_append, List.mem_singleton, not_or]
    exact ⟨hrest, Ne.symm hd⟩

/-- Two periods take the last name away, or come in front of what will follow; at the top they change nothing. -/
theorem up_cases (h : path.Reduced) :
    path.up = path.parent ∨ path.up = path ∨
      path.up = path.child ['.', '.'] ∧ path.root = .here ∧ ∀ name ∈ path.names, name = ['.', '.'] := by
  obtain ⟨ups, rest, hnames, hups, hrest, hroot⟩ := h.shape
  unfold Path.up
  cases hl : path.names.getLast? with
  | none =>
    have hnil := List.getLast?_eq_none_iff.1 hl
    dsimp only
    split
    · next hr => exact .inr (.inr ⟨rfl, hr, fun name hm => by rw [hnil] at hm; cases hm⟩)
    · exact .inr (.inl rfl)
  | some last =>
    dsimp only
    split
    · next hd =>
      subst hd
      have hnil : rest = [] := by
        cases hr : rest.getLast? with
        | none => exact List.getLast?_eq_none_iff.1 hr
        | some last =>
          rw [hnames, List.getLast?_append, hr] at hl
          cases hl
          exact absurd (List.mem_of_getLast? hr) hrest
      rw [hnil, List.append_nil] at hnames
      rw [← hnames] at hups
      refine .inr (.inr ⟨rfl, Classical.byContradiction fun hne => ?_, hups⟩)
      rw [hnames, hroot hne] at hl
      cases hl
    · exact .inl rfl

theorem parent (h : path.Reduced) : path.parent.Reduced := by
  obtain ⟨ups, rest, hnames, hups, hrest, hroot⟩ := h.shape
  refine ⟨h.toPlain.dropLast, ?_⟩
  by_cases hne : rest = []
  · refine ⟨ups.dropLast, [], ?_, fun name hm => hups name (List.dropLast_subset _ hm), List.not_mem_nil, ?_⟩
    · rw [Path.parent, hnames, hne, List.append_nil, List.append_nil]
    · intro hr
      rw [hroot hr]
      rfl
  · refine ⟨ups, rest.dropLast, ?_, hups, fun hm => hrest (List.dropLast_subset _ hm), hroot⟩
    rw [Path.parent, hnames, List.dropLast_append_of_ne_nil hne]

theorem up (h : path.Reduced) : path.up.Reduced := by
  rcases h.up_cases with he | he | ⟨he, hr, hall⟩
  · rw [he]
    exact h.parent
  · rw [he]
    exact h
  · rw [he]
    refine ⟨h.toPlain.child Text.isName_dots, path.names ++ [['.', '.']], [], ?_, ?_, List.not_mem_nil, ?_⟩
    · exact (List.append_nil _).symm
    · intro name hm
      rcases List.mem_append.1 hm with hm | hm
      · exact hall name hm
      · exact List.mem_singleton.1 hm
    · exact fun hne => absurd hr hne

end Path.Reduced

namespace Site

/-- A text leads to a place if it can be a path at all and its names lead there. -/
theorem locate_eq_ok_iff {site : Site} {last : Bool} {s : Text} {reached : Place} :
    site.locate last s = .ok reached ↔ site.Fits s ∧ s ≠ [] ∧ s.byteCount < maxPathBytes ∧
      site.follow last maxLinks (s.origin site.directory) s.steps = .ok reached := by
  unfold locate
  cases hunfit : site.unfit? s with
  | some reason =>
    have hfits : ¬ site.Fits s := fun hfits => by
      rw [unfit?_eq_none_iff.2 hfits] at hunfit
      cases hunfit
    simp [hfits]
  | none =>
    have hfits : site.Fits s := unfit?_eq_none_iff.1 hunfit
    dsimp only
    split
    · next hnil => simp [hnil, mapError_error]
    · next hnil =>
      split
      · next hlen => simp [Nat.not_lt.2 hlen, mapError_error]
      · next hlen =>
        cases hf : site.follow last maxLinks (s.origin site.directory) s.steps with
        | error reason => simp [mapError_error]
        | ok place => simp [hfits, hnil, Nat.not_le.1 hlen, mapError_ok]

/-- A text of fair length whose names lead nowhere leads nowhere. -/
theorem locate_of_follow_error {site : Site} {last : Bool} {s : Text} {reason : Refusal} (hfits : site.Fits s)
    (hne : s ≠ []) (hlen : s.byteCount < maxPathBytes)
    (h : site.follow last maxLinks (s.origin site.directory) s.steps = .error reason) :
    site.locate last s = .error (.refused ⟨reason, s⟩) := by
  rw [locate, unfit?_eq_none_iff.2 hfits]
  dsimp only
  rw [if_neg hne, if_neg (Nat.not_le.2 hlen), h]
  rfl

variable {site : Site} {path : Path} {node : Node}

/-- How a path is followed: two periods lead to a directory, and the other names lead on from there, unless there is a
barrier on the way up. -/
structure Approach (site : Site) (path : Path) (ups rest : List Text) (base : Place) : Prop where
  names_eq : path.names = ups ++ rest
  eq_dots : ∀ name ∈ ups, name = ['.', '.']
  dots_not_mem : ['.', '.'] ∉ rest
  directory : site.tree.get? base = some .directory
  place : ∀ front, front <+: rest → (⟨path.root, ups ++ front⟩ : Path).place site.directory = base ++ front
  follow : (∀ last links, site.follow last links (path.text.origin site.directory) path.text.steps =
      site.follow last links base rest) ∨
    ∃ barrier, ∀ last links,
      site.follow last links (path.text.origin site.directory) path.text.steps = .error (.barred barrier)

namespace Approach

variable {ups rest : List Text} {base : Place}

theorem place_eq (h : site.Approach path ups rest base) : path.place site.directory = base ++ rest := by
  have hplace := h.place rest (List.prefix_refl _)
  rwa [← h.names_eq] at hplace

theorem isName (h : site.Approach path ups rest base) (hp : path.Plain) :
    ∀ name ∈ rest, name.IsName ∧ name ≠ ['.', '.'] := by
  intro name hm
  refine ⟨hp.names name ?_, fun hd => h.dots_not_mem (hd ▸ hm)⟩
  rw [h.names_eq]
  exact List.mem_append_right _ hm

end Approach

namespace Proper

theorem dots_not_mem (hs : site.Proper) : ['.', '.'] ∉ site.directory := fun hm =>
  (hs.isFileName hs.directory _ hm).1.2.1 rfl

theorem exists_approach (hs : site.Proper) (hp : path.Reduced) : ∃ ups rest base, site.Approach path ups rest base := by
  obtain ⟨ups, rest, hnames, hups, hrest, hroot⟩ := hp.shape
  obtain ⟨start, hstart⟩ : ∃ start, start = if path.root = .here then site.directory else [] := ⟨_, rfl⟩
  have hdirectory : site.tree.get? start = some .directory := by
    rw [hstart]
    split
    · exact hs.directory
    · exact Tree.get?_nil _
  obtain ⟨hbase, hfollow⟩ := hs.follow_ups hups hdirectory rest
  refine ⟨ups, rest, ups.foldl Place.enter start, hnames, hups, hrest, hbase, ?_, ?_⟩
  · intro front hf
    rw [Path.place, ← hstart, List.foldl_append, Path.foldl_enter_of_not_mem fun hm => hrest (hf.subset hm)]
  · rw [hp.origin_text, ← hstart, hp.steps_text]
    split
    · next hnil =>
      -- the text of no names is a single period
      rw [hnil] at hnames
      obtain ⟨rfl, rfl⟩ := List.append_eq_nil_iff.1 hnames.symm
      cases hb : site.system.rights.search start with
      | some barrier => exact .inr ⟨barrier, fun last links => follow_of_search last links hdirectory hb _ _⟩
      | none =>
        refine .inl fun last links => ?_
        conv => lhs; rw [follow, hdirectory, hb]
        rfl
    · rw [hnames]
      exact hfollow

/-- A path can hold the text of a path that says where there is something. -/
theorem fits_text (hs : site.Proper) (hp : path.Reduced)
    (h : site.tree.get? (path.place site.directory) = some node) : site.Fits path.text := by
  obtain ⟨ups, rest, base, happroach⟩ := hs.exists_approach hp
  rw [happroach.place_eq] at h
  refine fits_of_names fun name hn => ?_
  rw [happroach.names_eq] at hn
  rcases List.mem_append.1 hn with hn | hn
  · rw [happroach.eq_dots name hn]
    exact List.forall_mem_cons.2 ⟨rfl, List.forall_mem_singleton.2 rfl⟩
  · exact (hs.isFileName h name (List.mem_append_right _ hn)).2

/-- Where there is something, a path that says so leads there, unless its text is too long or there is a barrier. -/
theorem locate_of_get? (hs : site.Proper) (hp : path.Reduced) (hlen : path.text.byteCount < maxPathBytes)
    (h : site.tree.get? (path.place site.directory) = some node) {last : Bool}
    (hlast : last = false ∨ ∀ target, node ≠ .link target) :
    site.locate last path.text = .ok (path.place site.directory) ∨
      ∃ barrier, site.locate last path.text = .error (.refused ⟨.barred barrier, path.text⟩) := by
  have hfits := hs.fits_text hp h
  obtain ⟨ups, rest, base, happroach⟩ := hs.exists_approach hp
  rw [happroach.place_eq] at h ⊢
  have hbarred : ∀ barrier, site.follow last maxLinks (path.text.origin site.directory) path.text.steps =
      .error (.barred barrier) → site.locate last path.text = .error (.refused ⟨.barred barrier, path.text⟩) :=
    fun barrier hb => locate_of_follow_error hfits (Path.text_ne_nil path) hlen hb
  rcases happroach.follow with hfollow | ⟨barrier, hfollow⟩
  · rcases hs.follow_names maxLinks h hlast with hnames | ⟨barrier, hnames⟩
    · exact .inl (locate_eq_ok_iff.2 ⟨hfits, Path.text_ne_nil path, hlen, (hfollow _ _).trans hnames⟩)
    · exact .inr ⟨barrier, hbarred barrier ((hfollow _ _).trans hnames)⟩
  · exact .inr ⟨barrier, hbarred barrier (hfollow _ _)⟩

/-- Where no link is on the way, a path leads to the place that it says or nowhere. -/
theorem eq_of_locate (hs : site.Proper) (hp : path.Reduced)
    (hfree : site.tree.LinkFree (path.place site.directory)) {last : Bool} {reached : Place}
    (h : site.locate last path.text = .ok reached) : reached = path.place site.directory := by
  obtain ⟨ups, rest, base, happroach⟩ := hs.exists_approach hp
  rw [happroach.place_eq] at hfree ⊢
  obtain ⟨-, -, -, hlocated⟩ := locate_eq_ok_iff.1 h
  rcases happroach.follow with hfollow | ⟨barrier, hfollow⟩
  · rw [hfollow] at hlocated
    exact follow_eq_of_linkFree hfree (happroach.isName hp.toPlain) hlocated
  · rw [hfollow] at hlocated
    cases hlocated

end Proper

end Site

end Lectern
