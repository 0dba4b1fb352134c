import Lectern.Files.Resolve

/-!
# Texts of paths

A path is written with slashes between its names, and the names are read back from the text if each of them is one that
a path can hold (`Path.Plain.parse_text`). So the text of such a path leads along its names (`Path.Plain.steps_text`),
and what two periods in it lead to can be told from the names before them alone, which `Path.place` does: the place that
a path has from the top directory is the one of its text (`Site.absolute_text`).
-/

set_option autoImplicit false

namespace Lectern

namespace Text

/-! ## Slashes -/

theorem splitSlashes_of_not_mem {s : Text} (h : '/' ∉ s) : splitSlashes s = [s] := by
  induction s with
  | nil => rfl
  | cons c s ih =>
    rw [List.mem_cons, not_or] at h
    obtain ⟨hc, hs⟩ := h
    rw [splitSlashes, if_neg (Ne.symm hc), ih hs]

theorem splitSlashes_append {s : Text} (h : '/' ∉ s) (t : Text) :
    splitSlashes (s ++ '/' :: t) = s :: splitSlashes t := by
  induction s with
  | nil => rfl
  | cons c s ih =>
    rw [List.mem_cons, not_or] at h
    obtain ⟨hc, hs⟩ := h
    rw [List.cons_append, splitSlashes, if_neg (Ne.symm hc), ih hs]

/-- Names with slashes between them are read back. -/
theorem splitSlashes_intercalate {names : List Text} (hne : names ≠ []) (h : ∀ name ∈ names, '/' ∉ name) :
    splitSlashes (List.intercalate ['/'] names) = names := by
  induction names with
  | nil => exact absurd rfl hne
  | cons name names ih =>
    obtain ⟨hname, hnames⟩ := List.forall_mem_cons.1 h
    cases names with
    | nil =>
      rw [List.intercalate_singleton]
      exact splitSlashes_of_not_mem hname
    | cons next names =>
      rw [List.intercalate_cons_cons, List.append_assoc, List.singleton_append, splitSlashes_append hname,
        ih (List.cons_ne_nil _ _) hnames]

/-- The parts of a text hold no slash, and nothing that the text does not hold. -/
theorem mem_of_mem_splitSlashes {s part : Text} (h : part ∈ splitSlashes s) : ∀ c ∈ part, c ≠ '/' ∧ c ∈ s := by
  induction s generalizing part with
  | nil =>
    rw [List.mem_singleton.1 h]
    exact fun c hc => nomatch hc
  | cons d s ih =>
    have hback : ∀ part ∈ splitSlashes s, ∀ c ∈ part, c ≠ '/' ∧ c ∈ d :: s := fun part hp c hc =>
      ⟨(ih hp c hc).1, List.mem_cons_of_mem _ (ih hp c hc).2⟩
    rw [splitSlashes] at h
    split at h
    · rcases List.mem_cons.1 h with rfl | h
      · exact fun c hc => nomatch hc
      · exact hback part h
    · next hd =>
      split at h
      · rw [List.mem_singleton.1 h]
        intro c hc
        rw [List.mem_singleton.1 hc]
        exact ⟨hd, List.mem_cons_self⟩
      · next name names hs =>
        rcases List.mem_cons.1 h with rfl | h
        · intro c hc
          rcases List.mem_cons.1 hc with rfl | hc
          · exact ⟨hd, List.mem_cons_self⟩
          · exact hback name (hs ▸ List.mem_cons_self) c hc
        · exact hback part (hs ▸ List.mem_cons_of_mem _ h)

theorem not_mem_of_mem_splitSlashes {s part : Text} (h : part ∈ splitSlashes s) : '/' ∉ part :=
  fun hc => (mem_of_mem_splitSlashes h _ hc).1 rfl

/-- A name that a path can hold and that leads out of the directory, or up. -/
def IsName (name : Text) : Prop := '/' ∉ name ∧ name.isIdle = false

theorem IsName.ne_nil {name : Text} (h : name.IsName) : name ≠ [] := by
  rintro rfl
  exact absurd h.2 (by decide)

theorem isName_dots : IsName ['.', '.'] := ⟨by decide, by decide⟩

/-! ## Bytes -/

theorem byteCount_cons (c : Char) (s : Text) : byteCount (c :: s) = c.utf8Size + byteCount s := by
  have hshift : ∀ (s : Text) (n : Nat), s.foldl (fun n c => n + c.utf8Size) n = n + byteCount s := by
    intro s
    induction s with
    | nil => exact fun n => rfl
    | cons c s ih =>
      intro n
      rw [byteCount, List.foldl_cons, List.foldl_cons, ih, ih]
      omega
  rw [byteCount, List.foldl_cons, hshift]
  omega

theorem byteCount_append (s t : Text) : byteCount (s ++ t) = byteCount s + byteCount t := by
  induction s with
  | nil => exact (Nat.zero_add _).symm
  | cons c s ih =>
    rw [List.cons_append, byteCount_cons, byteCount_cons, ih]
    omega

theorem byteCount_pos {s : Text} (h : s ≠ []) : 0 < byteCount s := by
  cases s with
  | nil => exact absurd rfl h
  | cons c s =>
    rw [byteCount_cons]
    have := c.utf8Size_pos
    omega

end Text

namespace Path

variable {path : Path}

/-! ## Reading a path back -/

/-- A path that can be told from its text. -/
structure Plain (path : Path) : Prop where
  root : path.root ≠ .doubleTop
  names : ∀ name ∈ path.names, name.IsName

theorem Plain.dropLast (h : path.Plain) : path.parent.Plain :=
  ⟨h.root, fun name hm => h.names name (List.dropLast_subset _ hm)⟩

theorem Plain.child (h : path.Plain) {name : Text} (hn : name.IsName) : (path.child name).Plain := by
  refine ⟨h.root, fun other hm => ?_⟩
  rcases List.mem_append.1 hm with hm | hm
  · exact h.names other hm
  · rw [List.mem_singleton.1 hm]
    exact hn

section Names

variable {root : Root} {name : Text} {names : List Text}

theorem head?_intercalate (h : name ≠ []) : (List.intercalate ['/'] (name :: names)).head? = name.head? := by
  cases name with
  | nil => exact absurd rfl h
  | cons c name =>
    cases names with
    | nil => rw [List.intercalate_singleton]
    | cons next names =>
      rw [List.intercalate_cons_cons]
      rfl

theorem intercalate_ne_nil (h : name ≠ []) : List.intercalate ['/'] (name :: names) ≠ [] := by
  intro he
  have hhead : (List.intercalate ['/'] (name :: names)).head? = name.head? := head?_intercalate h
  rw [he] at hhead
  cases name with
  | nil => exact h rfl
  | cons c name => cases hhead

theorem text_cons (h : name ≠ []) :
    (⟨root, name :: names⟩ : Path).text = root.text ++ List.intercalate ['/'] (name :: names) := by
  unfold text
  split
  · next he => exact absurd (List.append_eq_nil_iff.1 he).2 (intercalate_ne_nil h)
  · rfl

theorem rootOf_eq_here {s : Text} (h : s.head? ≠ some '/') : rootOf s = .here := by
  unfold rootOf
  split
  · exact absurd rfl h
  · exact absurd rfl h
  · exact absurd rfl h
  · rfl

theorem rootOf_eq_top {s : Text} (h : s.head? ≠ some '/') : rootOf ('/' :: s) = .top := by
  unfold rootOf
  split
  · rfl
  · next he =>
    cases he
    exact absurd rfl h
  · rfl
  · next hne => exact absurd rfl (hne s)

theorem head?_ne_slash (h : name.IsName) : (List.intercalate ['/'] (name :: names)).head? ≠ some '/' := by
  rw [head?_intercalate h.ne_nil]
  intro he
  exact h.1 (List.mem_of_head? he)

end Names

/-- A path is what its text stands for. -/
theorem Plain.parse_text (h : path.Plain) : parse path.text = path := by
  obtain ⟨root, names⟩ := path
  have hfilter : names.filter (fun name => !name.isIdle) = names :=
    List.filter_eq_self.2 fun name hm => by rw [(h.names name hm).2]; rfl
  cases names with
  | nil =>
    cases root with
    | here => rfl
    | top => rfl
    | doubleTop => exact absurd rfl h.root
  | cons name names =>
    have hname := h.names name List.mem_cons_self
    have hsplit : Text.splitSlashes (List.intercalate ['/'] (name :: names)) = name :: names :=
      Text.splitSlashes_intercalate (List.cons_ne_nil _ _) fun other hm => (h.names other hm).1
    rw [text_cons hname.ne_nil]
    cases root with
    | here => rw [Root.text, List.nil_append, parse, rootOf_eq_here (head?_ne_slash hname), hsplit, hfilter]
    | top =>
      rw [Root.text, List.singleton_append, parse, rootOf_eq_top (head?_ne_slash hname), Text.splitSlashes, if_pos rfl,
        hsplit, List.filter_cons_of_neg (by decide), hfilter]
    | doubleTop => exact absurd rfl h.root

/-- A text leads along the names of its path; where there are none, it stays where it is. -/
theorem Plain.steps_text (h : path.Plain) :
    path.text.steps = if path.names = [] then [['.']] else path.names := by
  obtain ⟨root, names⟩ := path
  cases names with
  | nil =>
    cases root with
    | here => rfl
    | top => rfl
    | doubleTop => exact absurd rfl h.root
  | cons name names =>
    have hname := h.names name List.mem_cons_self
    have hfilter : (name :: names).filter (· != []) = name :: names :=
      List.filter_eq_self.2 fun other hm => by simpa using (h.names other hm).ne_nil
    have hlast : (name :: names).getLast? ≠ some [] := fun he =>
      (h.names [] (List.mem_of_getLast? he)).ne_nil rfl
    have hsplit : Text.splitSlashes (List.intercalate ['/'] (name :: names)) = name :: names :=
      Text.splitSlashes_intercalate (List.cons_ne_nil _ _) fun other hm => (h.names other hm).1
    rw [text_cons hname.ne_nil, if_neg (List.cons_ne_nil _ _)]
    cases root with
    | here => rw [Root.text, List.nil_append, Text.steps, hsplit, hfilter, if_neg hlast, List.append_nil]
    | top =>
      have hlast' : ([] :: name :: names).getLast? ≠ some [] := by rwa [List.getLast?_cons_cons]
      rw [Root.text, List.singleton_append, Text.steps, Text.splitSlashes, if_pos rfl, hsplit, if_neg hlast',
        List.filter_cons_of_neg (by decide), hfilter, List.append_nil]
    | doubleTop => exact absurd rfl h.root

theorem Plain.origin_text (h : path.Plain) (here : Place) :
    path.text.origin here = if path.root = .here then here else [] := by
  obtain ⟨root, names⟩ := path
  have horigin : ∀ s : Text, s.head? ≠ some '/' → s.origin here = here := by
    intro s hs
    unfold Text.origin
    split
    · exact absurd rfl hs
    · rfl
  cases root with
  | here =>
    rw [if_pos rfl]
    cases names with
    | nil => rfl
    | cons name names =>
      have hname := h.names name List.mem_cons_self
      rw [text_cons hname.ne_nil]
      exact horigin _ (head?_ne_slash hname)
  | top =>
    rw [if_neg Root.noConfusion]
    cases names with
    | nil => rfl
    | cons name names =>
      rw [text_cons (h.names name List.mem_cons_self).ne_nil]
      rfl
  | doubleTop => exact absurd rfl h.root

theorem mem_intercalate {c : Char} {names : List Text} (h : c ∈ List.intercalate ['/'] names) :
    c = '/' ∨ ∃ name ∈ names, c ∈ name := by
  induction names with
  | nil => cases h
  | cons name names ih =>
    cases names with
    | nil =>
      rw [List.intercalate_singleton] at h
      exact .inr ⟨name, List.mem_cons_self, h⟩
    | cons next names =>
      rw [List.intercalate_cons_cons, List.append_assoc, List.mem_append, List.mem_append, List.mem_singleton] at h
      rcases h with h | h | h
      · exact .inr ⟨name, List.mem_cons_self, h⟩
      · exact .inl h
      · rcases ih h with h | ⟨other, hm, h⟩
        · exact .inl h
        · exact .inr ⟨other, List.mem_cons_of_mem _ hm, h⟩

/-- The text of a path holds a character that is neither a slash nor a period only if a name does. -/
theorem exists_of_mem_text {c : Char} (h : c ∈ path.text) (hs : c ≠ '/') (hp : c ≠ '.') :
    ∃ name ∈ path.names, c ∈ name := by
  unfold text at h
  split at h
  · exact absurd (List.mem_singleton.1 h) hp
  · rcases List.mem_append.1 h with h | h
    · obtain ⟨root, names⟩ := path
      have hslash : c = '/' := by
        cases root with
        | here => cases h
        | top => exact List.mem_singleton.1 h
        | doubleTop => simpa [Root.text] using h
      exact absurd hslash hs
    · rcases mem_intercalate h with h | h
      · exact absurd h hs
      · exact h

theorem text_ne_nil (path : Path) : path.text ≠ [] := by
  unfold text
  split
  · exact List.cons_ne_nil _ _
  · next hne => exact fun he => hne he

theorem exists_intercalate_append (name : Text) (front back : List Text) :
    ∃ rest, List.intercalate ['/'] (name :: (front ++ back)) = List.intercalate ['/'] (name :: front) ++ rest := by
  induction front generalizing name with
  | nil =>
    cases back with
    | nil => exact ⟨[], (List.append_nil _).symm⟩
    | cons next back =>
      refine ⟨'/' :: List.intercalate ['/'] (next :: back), ?_⟩
      rw [List.nil_append, List.intercalate_cons_cons, List.intercalate_singleton, List.append_assoc,
        List.singleton_append]
  | cons next front ih =>
    obtain ⟨rest, hrest⟩ := ih next
    refine ⟨rest, ?_⟩
    rw [List.cons_append, List.intercalate_cons_cons, List.intercalate_cons_cons, hrest]
    exact (List.append_assoc _ _ _).symm

/-- The text of a path that goes on holds the characters of the text before. -/
theorem Plain.mem_text_append {root : Root} {front back : List Text} (h : (⟨root, front ++ back⟩ : Path).Plain)
    {c : Char} (hc : c ∈ (⟨root, front⟩ : Path).text) :
    c = '.' ∨ c = '/' ∨ c ∈ (⟨root, front ++ back⟩ : Path).text := by
  cases front with
  | nil =>
    cases root with
    | here => exact .inl (List.mem_singleton.1 hc)
    | top => exact .inr (.inl (List.mem_singleton.1 hc))
    | doubleTop => exact absurd rfl h.root
  | cons name front =>
    have hname := (h.names name List.mem_cons_self).ne_nil
    obtain ⟨rest, hrest⟩ := exists_intercalate_append name front back
    rw [text_cons hname] at hc
    rw [List.cons_append, text_cons hname, hrest, ← List.append_assoc]
    exact .inr (.inr (List.mem_append_left _ hc))

/-- A path that goes on has no shorter text. -/
theorem Plain.byteCount_text_le {root : Root} {front back : List Text} (h : (⟨root, front ++ back⟩ : Path).Plain) :
    (⟨root, front⟩ : Path).text.byteCount ≤ (⟨root, front ++ back⟩ : Path).text.byteCount := by
  cases front with
  | nil =>
    have hone : (⟨root, []⟩ : Path).text.byteCount = 1 := by
      cases root with
      | here => rfl
      | top => rfl
      | doubleTop => exact absurd rfl h.root
    rw [hone]
    exact Text.byteCount_pos (text_ne_nil _)
  | cons name front =>
    have hname := (h.names name List.mem_cons_self).ne_nil
    obtain ⟨rest, hrest⟩ := exists_intercalate_append name front back
    rw [List.cons_append, text_cons hname, text_cons hname, hrest, ← List.append_assoc,
      Text.byteCount_append (root.text ++ _)]
    exact Nat.le_add_right _ _

/-! ## Places -/

end Path

/-- The place that a name leads to, if two periods lead to the place around. -/
def Place.enter (place : Place) (name : Text) : Place := if name = ['.', '.'] then place.dropLast else place ++ [name]

namespace Path

variable {path : Path}

/-- The place that a path leads to from a directory, if there is no link on the way. -/
def place (directory : Place) (path : Path) : Place :=
  path.names.foldl Place.enter (if path.root = .here then directory else [])

theorem foldl_enter_of_not_mem {names : List Text} (h : ['.', '.'] ∉ names) (place : Place) :
    names.foldl Place.enter place = place ++ names := by
  induction names generalizing place with
  | nil => exact (List.append_nil _).symm
  | cons name names ih =>
    rw [List.mem_cons, not_or] at h
    rw [List.foldl_cons, Place.enter, if_neg (Ne.symm h.1), ih h.2, List.append_assoc, List.singleton_append]

/-- From the top directory, names lead where their texts say. -/
theorem foldl_normal (names : List Text) {place : Place} (h : ['.', '.'] ∉ place) :
    names.foldl (fun path name => if name = ['.', '.'] then path.up else path.child name) (⟨.top, place⟩ : Path) =
      ⟨.top, names.foldl Place.enter place⟩ := by
  induction names generalizing place with
  | nil => rfl
  | cons name names ih =>
    rw [List.foldl_cons, List.foldl_cons, Place.enter]
    split
    · have hup : (⟨.top, place⟩ : Path).up = ⟨.top, place.dropLast⟩ := by
        unfold up
        cases hl : place.getLast? with
        | none =>
          rw [List.getLast?_eq_none_iff.1 hl]
          rfl
        | some last =>
          have hlast : last ≠ ['.', '.'] := fun he => h (he ▸ List.mem_of_getLast? hl)
          simp [hlast, parent]
      rw [hup, ih fun hm => h (List.dropLast_subset _ hm)]
    · next hn =>
      have hplace : ['.', '.'] ∉ place ++ [name] := fun hm => by
        rcases List.mem_append.1 hm with hm | hm
        · exact h hm
        · exact hn (List.mem_singleton.1 hm).symm
      exact ih hplace

end Path

/-- The path of a text from the top directory is the place that the text leads to. -/
theorem Site.absolute_text {site : Site} (hd : ['.', '.'] ∉ site.directory) {path : Path} (h : path.Plain) :
    site.absolute path.text = ⟨.top, path.place site.directory⟩ := by
  have hnil : ['.', '.'] ∉ ([] : Place) := List.not_mem_nil
  rw [absolute, Path.join, h.parse_text]
  dsimp only
  unfold Path.place
  split
  · next hr =>
    rw [Path.normal, List.foldl_append, Path.foldl_normal _ hnil, Path.foldl_enter_of_not_mem hd, List.nil_append,
      Path.foldl_normal _ hd]
  · next hr =>
    obtain ⟨root, names⟩ := path
    cases root with
    | here => exact absurd rfl hr
    | top => rw [Path.normal, Path.foldl_normal _ hnil]
    | doubleTop => exact absurd rfl h.root

end Lectern
