import Mathlib
import Lectern.Proofs.Encoding
import Lectern.Proofs.FileVariants
import Lectern.Proofs.SettingsEntries

/-!
# The nearest settings decide alone

An entry is the nearest one if its file holds a value for it and no file holds one for an entry before it
(**`Site.Nearest`**). Unless the search fails before, its value decides: a table of settings sets what it lists, and
anything else is an error. Nothing that stands in other files changes what comes of it, nor do changes to these files
(**`Site.settings_of_nearest`**).

A file without an entry does not fail the search if it is damaged in most ways. A numeral with too many digits fails it
nevertheless (`Site.not_settings_of_nearest`).
-/

set_option autoImplicit false

namespace Lectern

namespace Site

/-! ## Other files -/

/-- A path leads to none of some places. -/
def Avoids (site : Site) (changed : Place → Prop) (path : Path) : Prop :=
  ∀ place, site.locate true path.text = .ok place → ¬ changed place

section Others

variable {site other : Site} {changed : Place → Prop} {path directory resolved : Path} {name : Text}

/-- A table at a path is the same if the path leads to no file that differs. -/
theorem SameBut.table?_of_avoids (h : site.SameBut changed other) (hone : site.Avoids changed path)
    (hother : other.Avoids changed path) : other.table? path = site.table? path := by
  rcases h.table?_cases path with hsame | ⟨hh, hh'⟩
  · exact hsame
  · have hnone : site.table? path = .ok none :=
      (h.table?_of_hinges hh).resolve_left fun ⟨_, _, _, hc, hl, _⟩ => hone _ hl hc
    have hnone' : other.table? path = .ok none :=
      (h.symm.table?_of_hinges hh').resolve_left fun ⟨_, _, _, hc, hl, _⟩ => hother _ hl hc
    rw [hnone, hnone']

theorem answer?_congr {entry : SettingsEntry} (h : other.table? entry.path = site.table? entry.path) :
    other.answer? entry = site.answer? entry := by
  rw [answer?, answer?, h]

/-- A search that gets an answer looks no further. -/
theorem loadSettings_of_answers {before after : List SettingsEntry} {entry : SettingsEntry}
    (hr : site.resolve false directory = .ok resolved) (hr' : other.resolve false directory = .ok resolved)
    (haround : SettingsEntry.around resolved = before ++ entry :: after) (hanswer : site.answer? entry ≠ none)
    (hsame : ∀ nearer ∈ before ++ [entry], other.answer? nearer = site.answer? nearer) :
    other.loadSettings directory = site.loadSettings directory := by
  obtain ⟨result, hresult⟩ := Option.ne_none_iff_exists'.1 hanswer
  obtain ⟨first, hfirst⟩ : ∃ first, (before ++ [entry]).findSome? site.answer? = some first := by
    rw [List.findSome?_append, List.findSome?_singleton, hresult]
    cases before.findSome? site.answer? with
    | none => exact ⟨result, rfl⟩
    | some first => exact ⟨first, rfl⟩
  have hsplit : ∀ answer? : SettingsEntry → Option (Except SearchError RawSettings),
      (SettingsEntry.around resolved).findSome? answer? =
        ((before ++ [entry]).findSome? answer?).or (after.findSome? answer?) := by
    intro answer?
    rw [haround, List.append_cons]
    exact List.findSome?_append
  rw [loadSettings_eq hr, loadSettings_eq hr', hsplit, hsplit, findSome?_congr hsame, hfirst, Option.some_or,
    Option.some_or]

/-! ## Paths without links -/

theorem Direct.child (h : site.Direct path) (hn : name.IsName) (hd : name ≠ ['.', '.'])
    (hlink : ∀ target, site.tree.get? (path.child name).names ≠ some (.link target)) :
    site.Direct (path.child name) where
  toReduced := h.toReduced.child hn hd
  root_eq := h.root_eq
  free := fun front hf => by
    rcases List.prefix_concat_iff.1 hf with rfl | hf
    · exact hlink
    · exact h.free front hf

/-- The files that differ are no links. -/
theorem SameBut.direct (hsame : site.SameBut changed other) (h : site.Direct path) : other.Direct path where
  toReduced := h.toReduced
  root_eq := h.root_eq
  free := fun front hf target hget =>
    h.free front hf target (hsame.tree_other.get?_of_not_isFile hget rfl)

theorem Direct.avoids (h : site.Direct path) (hs : site.Proper) (hc : ¬ changed path.names) :
    site.Avoids changed path :=
  fun _ hl => h.eq_of_locate hs hl ▸ hc

theorem Direct.of_mem_around (h : site.Direct resolved) (hm : path ∈ resolved.around) : site.Direct path := by
  obtain ⟨n, -, rfl⟩ := List.mem_map.1 hm
  have hfront := h.front (List.take_prefix (resolved.names.length - n) resolved.names)
  rwa [← h.root_eq] at hfront

theorem cases_of_mem_within {entry : SettingsEntry} (hm : entry ∈ SettingsEntry.within directory) :
    entry.directory = directory ∧ entry.file.IsName ∧ entry.file ≠ ['.', '.'] := by
  have hproject : Text.IsName "pyproject.toml".toList ∧ "pyproject.toml".toList ≠ ['.', '.'] :=
    ⟨⟨by decide, by decide⟩, by decide⟩
  have hown : Text.IsName ".sparkdown.toml".toList ∧ ".sparkdown.toml".toList ≠ ['.', '.'] :=
    ⟨⟨by decide, by decide⟩, by decide⟩
  simp only [SettingsEntry.within, List.mem_cons, List.not_mem_nil, or_false] at hm
  rcases hm with rfl | rfl | rfl
  · exact ⟨rfl, hproject⟩
  · exact ⟨rfl, hown⟩
  · exact ⟨rfl, hown⟩

/-- The path of an entry around a resolved directory leads along no link, unless its file is one. -/
theorem Direct.entry (h : site.Direct resolved) {entry : SettingsEntry} (hm : entry ∈ SettingsEntry.around resolved)
    (hlink : ∀ target, site.tree.get? entry.path.names ≠ some (.link target)) : site.Direct entry.path := by
  obtain ⟨directory, hdirectory, hentry⟩ := List.mem_flatMap.1 hm
  obtain ⟨rfl, hn, hd⟩ := cases_of_mem_within hentry
  exact (h.of_mem_around hdirectory).child hn hd hlink

end Others

/-! ## The nearest entry -/

/-- The nearest entry around a directory that a file holds a value for; the entries before it come to nothing. -/
structure Nearest (site : Site) (resolved : Path) (before : List SettingsEntry) (entry : SettingsEntry)
    (value : Value) : Prop where
  around : ∃ after, SettingsEntry.around resolved = before ++ entry :: after
  first : ∀ nearer ∈ before, ∀ other, ¬ site.Holds nearer other
  holds : site.Holds entry value

/-- Where no entry up to the nearest one leads to a file that differs, the settings are the same. -/
theorem Nearest.loadSettings_eq {site other : Site} {changed : Place → Prop} {directory resolved : Path}
    {before : List SettingsEntry} {entry : SettingsEntry} {value : Value}
    (h : site.Nearest resolved before entry value) (hr : site.resolve false directory = .ok resolved)
    (hsame : site.SameBut changed other)
    (havoid : ∀ nearer ∈ before ++ [entry], site.Avoids changed nearer.path ∧ other.Avoids changed nearer.path) :
    other.loadSettings directory = site.loadSettings directory := by
  obtain ⟨after, haround⟩ := h.around
  have hanswer : site.answer? entry ≠ none := by
    rw [answer?_of_holds h.holds]
    exact Option.some_ne_none _
  refine loadSettings_of_answers hr ((hsame.resolve_eq directory).trans hr) haround hanswer fun nearer hm => ?_
  exact answer?_congr (hsame.table?_of_avoids (havoid nearer hm).1 (havoid nearer hm).2)

/-- **The nearest entry decides alone.** If there is telling what is in the files before it, its value gives the
settings that it lists, or it is the error that the value is no table of settings. Whatever becomes of files that no
entry up to it leads to and of the rights to read them, the settings are the same; these are all files elsewhere if no
such entry is a link and the directory does not run through a circle of links. Where there is no entry, all settings
have their defaults. -/
theorem settings_of_nearest (site : Site) (directory resolved : Path)
    (hresolved : site.resolve false directory = .ok resolved) :
    (∀ before entry value, site.Nearest resolved before entry value →
      ((∀ nearer ∈ before, ∀ error, ¬ site.TableFails nearer.path error) →
        (∃ entries, value.Lists entries ∧ site.loadSettings directory = .ok (RawSettings.listed entries)) ∨
          (∀ entries, ¬ value.Lists entries) ∧
            site.loadSettings directory = .error (.settings (.badTable entry.table entry.path.text))) ∧
      (∀ changed other, site.SameBut changed other →
        (∀ nearer ∈ before ++ [entry], site.Avoids changed nearer.path ∧ other.Avoids changed nearer.path) →
          other.loadSettings directory = site.loadSettings directory) ∧
      (site.Proper → site.isStraight directory = true →
        (∀ nearer ∈ before ++ [entry], ∀ target, site.tree.get? nearer.path.names ≠ some (.link target)) →
          ∀ changed other, site.SameBut changed other → other.Proper →
            (∀ nearer ∈ before ++ [entry], ¬ changed nearer.path.names) →
              other.loadSettings directory = site.loadSettings directory)) ∧
    ((∀ entry ∈ SettingsEntry.around resolved,
        (∀ value, ¬ site.Holds entry value) ∧ ∀ error, ¬ site.TableFails entry.path error) →
      site.loadSettings directory = .ok .default) := by
  refine ⟨fun before entry value hn => ⟨fun hfails => ?_, ?_, ?_⟩, fun hnone => ?_⟩
  · obtain ⟨after, haround⟩ := hn.around
    have hbefore : ∀ nearer ∈ before, site.answer? nearer = none := fun nearer hm =>
      answer?_eq_none_iff.2 ⟨hfails nearer hm, hn.first nearer hm⟩
    rw [loadSettings_of_answer hresolved haround hbefore (answer?_of_holds hn.holds)]
    rcases RawSettings.ofValue_cases hn.holds.distinct entry.table entry.path.text with
      ⟨entries, hlists, hvalue⟩ | ⟨hlists, hvalue⟩
    · rw [hvalue]
      exact .inl ⟨entries, hlists, rfl⟩
    · rw [hvalue]
      exact .inr ⟨hlists, rfl⟩
  · intro changed other hsame havoid
    exact hn.loadSettings_eq hresolved hsame havoid
  · intro hs hstraight hlink changed other hsame hs' hplaces
    refine hn.loadSettings_eq hresolved hsame fun nearer hm => ?_
    obtain ⟨after, haround⟩ := hn.around
    have hmem : nearer ∈ SettingsEntry.around resolved := by
      rw [haround, List.append_cons]
      exact List.mem_append_left _ hm
    have hdirect := (hs.direct_of_resolve hresolved (.inr hstraight)).entry hmem (hlink nearer hm)
    exact ⟨hdirect.avoids hs (hplaces nearer hm), (hsame.direct hdirect).avoids hs' (hplaces nearer hm)⟩
  · have hall : (SettingsEntry.around resolved).findSome? site.answer? = none :=
      List.findSome?_eq_none_iff.2 fun entry hm => answer?_eq_none_iff.2 (hnone entry hm).symm
    rw [loadSettings_eq hresolved, hall]
    rfl

/-- A directory with a damaged file and settings, below a file with wrong settings. -/
def titledSite : Site where
  tree := ⟨[(["a".toList], .directory), (["a".toList, "pyproject.toml".toList], .file (Utf8.encode "=".toList) 0o644),
    (["a".toList, ".sparkdown.toml".toList], .file (Utf8.encode "[sparkdown]\ntitle = 'T'".toList) 0o644),
    (["pyproject.toml".toList], .file (Utf8.encode "[tool.sparkdown]\ncolour = 1".toList) 0o644)]⟩
  directory := []
  home := "/".toList
  homes := []
  system := .free

theorem nearest_titledSite :
    titledSite.Nearest ⟨.top, ["a".toList]⟩
      [⟨⟨.top, ["a".toList]⟩, "pyproject.toml".toList, ["tool".toList, "sparkdown".toList]⟩]
      ⟨⟨.top, ["a".toList]⟩, ".sparkdown.toml".toList, ["sparkdown".toList]⟩
      (.table [("title".toList, .text "T".toList)]) where
  around := ⟨_, rfl⟩
  first := by
    intro nearer hm other hholds
    rw [List.mem_singleton.1 hm] at hholds
    obtain ⟨table, htable, -⟩ := holds_iff.1 hholds
    have hnone : titledSite.table? ⟨.top, ["a".toList, "pyproject.toml".toList]⟩ = .ok none := by cbv
    cases hnone.symm.trans htable
  holds := ⟨_, "[sparkdown]\ntitle = 'T'".toList, [("sparkdown".toList, .table [("title".toList, .text "T".toList)])],
    by cbv, by cbv, by cbv, by cbv⟩

/-- Where the file above is taken away, the title is the same. -/
theorem settings_of_nearest_titled :
    titledSite.resolve false ⟨.here, ["a".toList]⟩ = .ok ⟨.top, ["a".toList]⟩ ∧
      titledSite.loadSettings ⟨.here, ["a".toList]⟩ =
        .ok (RawSettings.listed [("title".toList, .text "T".toList)]) ∧
      (titledSite.without ["pyproject.toml".toList]).loadSettings ⟨.here, ["a".toList]⟩ =
        titledSite.loadSettings ⟨.here, ["a".toList]⟩ := by
  have hresolved : titledSite.resolve false ⟨.here, ["a".toList]⟩ = .ok ⟨.top, ["a".toList]⟩ := by cbv
  obtain ⟨hdecides, -, hother⟩ := (settings_of_nearest _ _ _ hresolved).1 _ _ _ nearest_titledSite
  refine ⟨hresolved, ?_, ?_⟩
  · have hfails : ∀ error, ¬ titledSite.TableFails ⟨.top, ["a".toList, "pyproject.toml".toList]⟩ error := by
      intro error hfails
      have hnone : titledSite.table? ⟨.top, ["a".toList, "pyproject.toml".toList]⟩ = .ok none := by cbv
      cases hnone.symm.trans (table?_eq_error_iff.2 hfails)
    rcases hdecides fun nearer hm => List.mem_singleton.1 hm ▸ hfails with ⟨entries, hlists, hload⟩ | ⟨hlists, -⟩
    · cases hlists.eq_table
      exact hload
    · refine absurd ⟨rfl, fun entry hm => ?_⟩ (hlists [("title".toList, .text "T".toList)])
      exact ⟨.title, List.mem_singleton.1 hm ▸ rfl⟩
  · have hfile : titledSite.tree.get? ["pyproject.toml".toList] =
        some (.file (Utf8.encode "[tool.sparkdown]\ncolour = 1".toList) 0o644) := rfl
    refine hother (by decide +kernel) (by cbv) ?_ _ _ (SameBut.sameBut_without hfile) (by decide +kernel) (by decide)
    intro nearer hm target hlink
    rcases List.mem_append.1 hm with hm | hm <;> obtain rfl := List.mem_singleton.1 hm <;> cases hlink

end Site

/-! ## Long numerals -/

namespace Toml

/-- A row of ones. -/
def ones (n : Nat) : Text := List.replicate n '1'

theorem digitsAfter_ones (n : Nat) : digitsAfter isDecimal (ones n) = (ones n, []) := by
  induction n with
  | zero => rfl
  | succ n ih =>
    have hones : ones (n + 1) = '1' :: ones n := rfl
    rw [hones, digitsAfter]
    · have hdigit : isDecimal '1' = true := by decide
      rw [if_pos hdigit, ih]
    · intro c s h
      exact absurd h (by decide)

theorem scalar_ones {n : Nat} (h : Numeral.maxDigits < n + 5) : scalar (ones (n + 5)) = .error (.tooLong (n + 5)) := by
  have hones : ones (n + 5) = '1' :: '1' :: '1' :: '1' :: '1' :: ones n := rfl
  have hwhole : wholePart? (ones (n + 5)) = some (ones (n + 5), []) := by
    have hrow : digitRow? isDecimal ('1' :: ones (n + 4)) = some (ones (n + 5), []) := by
      rw [digitRow?, if_pos (by decide), digitsAfter_ones]
      rfl
    exact hrow
  have htruth : truthValue? (ones (n + 5)) = none := rfl
  have hdate : dateTime? (ones (n + 5)) = none := rfl
  have htime : time? (ones (n + 5)) = none := rfl
  have hbased : basedInteger? (ones (n + 5)) = none := rfl
  have hsign : Numeral.splitSign (ones (n + 5)) = (false, ones (n + 5)) := rfl
  have hdecimal : decimal? (ones (n + 5)) = some (.error (.tooLong (n + 5))) := by
    unfold decimal?
    rw [hsign]
    dsimp only
    rw [hwhole]
    simp only [bind, Option.bind, fractionPart, exponentPart]
    rw [ones, List.length_replicate, if_pos h]
    rfl
  rw [scalar, htruth, hdate, htime, hbased, hdecimal]

theorem unifyLineEnds_ones (n : Nat) : unifyLineEnds (ones n) = ones n := by
  induction n with
  | zero => rfl
  | succ n ih =>
    have hones : ones (n + 1) = '1' :: ones n := rfl
    rw [hones, unifyLineEnds, ih]
    intro s h
    exact absurd h (by decide)

theorem value_ones {n : Nat} (h : Numeral.maxDigits < n + 5) (depth rounds : Nat) :
    value depth (rounds + 1) (ones (n + 5)) = .error (.tooLong (n + 5)) := by
  have hones : ones (n + 5) = '1' :: ones (n + 4) := rfl
  have hscalar := scalar_ones h
  rw [hones] at hscalar ⊢
  rw [value]
  · rw [if_neg (by decide)]
    exact hscalar
  · intro he
    exact absurd he (by decide)
  · intro he
    exact absurd he (by decide)

theorem statement_ones {n : Nat} (h : Numeral.maxDigits < n + 5) (depth : Nat) (draft : Draft) (current : Path) :
    statement depth draft current ("x = ".toList ++ ones (n + 5)) = .error (.tooLong (n + 5)) := by
  have hpath : ∀ rounds, path (rounds + 1) ("x = ".toList ++ ones (n + 5)) =
      .ok (["x".toList], "= ".toList ++ ones (n + 5)) := fun _ => rfl
  have hspace : skipSpace (" ".toList ++ ones (n + 5)) = ones (n + 5) := rfl
  have hexpect : expect ['='] ("= ".toList ++ ones (n + 5)) = .ok (" ".toList ++ ones (n + 5)) := rfl
  unfold statement
  split
  · next he => exact absurd (List.cons.inj he).1 (by decide)
  · next he => exact absurd (List.cons.inj he).1 (by decide)
  · next he => exact absurd (List.cons.inj he).1 (by decide)
  · next he => exact absurd (List.cons.inj he).1 (by decide)
  · next he => cases he
  · simp only [hpath, bind, Except.bind, hexpect, hspace, value_ones h]

/-- A numeral with too many digits is no table, and nothing else that is wrong. -/
theorem read_ones {n : Nat} (h : Numeral.maxDigits < n + 5) (depth : Nat) :
    read depth ("x = ".toList ++ ones (n + 5)) = .error (.tooLong (n + 5)) := by
  have hlines : unifyLineEnds ("x = ".toList ++ ones (n + 5)) = "x = ".toList ++ ones (n + 5) := by
    have hones := congrArg ("x = ".toList ++ ·) (unifyLineEnds_ones (n + 5))
    exact hones
  have hspace : skipSpace ("x = ".toList ++ ones (n + 5)) = "x = ".toList ++ ones (n + 5) := rfl
  rw [read, hlines, statements, hspace, statement_ones h]
  rfl

end Toml

namespace Site

/-- A file of a project with some bytes. -/
def projectSite (bytes : List UInt8) : Site where
  tree := ⟨[(["pyproject.toml".toList], .file bytes 0o644)]⟩
  directory := []
  home := "/".toList
  homes := []
  system := .free

theorem resolve_projectSite (bytes : List UInt8) :
    (projectSite bytes).resolve false ⟨.here, []⟩ = .ok ⟨.top, []⟩ := by cbv

theorem status_projectSite (bytes : List UInt8) :
    (projectSite bytes).status (⟨.here, []⟩ : Path).text = .ok .directory := by cbv

theorem read_project (bytes : List UInt8) :
    (projectSite bytes).read (⟨.top, ["pyproject.toml".toList]⟩ : Path).text = .ok bytes := by cbv

/-- The entries around the top directory are those in it, and only the project has a file. -/
theorem read_projectSite {bytes found : List UInt8} {entry : SettingsEntry}
    (hm : entry ∈ SettingsEntry.around ⟨.top, []⟩) (h : (projectSite bytes).read entry.path.text = .ok found) :
    found = bytes := by
  have hproject := read_project bytes
  have hown : ∀ found, (projectSite bytes).read (⟨.top, [".sparkdown.toml".toList]⟩ : Path).text ≠ .ok found := by
    have herror : (projectSite bytes).read (⟨.top, [".sparkdown.toml".toList]⟩ : Path).text =
        .error (.refused ⟨.notFound, "/.sparkdown.toml".toList⟩) := by cbv
    intro found hfound
    cases herror.symm.trans hfound
  obtain ⟨directory, hdirectory, hm⟩ := List.mem_flatMap.1 hm
  obtain rfl := List.mem_singleton.1 hdirectory
  simp only [SettingsEntry.within, List.mem_cons, List.not_mem_nil, or_false] at hm
  rcases hm with rfl | rfl | rfl
  · exact Except.ok.inj (h.symm.trans hproject)
  · exact absurd h (hown found)
  · exact absurd h (hown found)

/-- A numeral with too many digits fails the search, though the file that it is in has no entry. -/
theorem not_settings_of_nearest :
    ¬ ∀ (site : Site) (directory resolved : Path), site.status directory.text = .ok .directory →
      site.resolve false directory = .ok resolved →
      (∀ entry ∈ SettingsEntry.around resolved, ∀ bytes, site.read entry.path.text = .ok bytes →
        ∃ s, Utf8.decode bytes = .ok s) →
      (∀ entry ∈ SettingsEntry.around resolved, ∀ value, ¬ site.Holds entry value) →
      site.loadSettings directory = .ok .default := by
  intro h
  have hmalformed : ∀ depth, Toml.read depth ("x = ".toList ++ Toml.ones 4301) = .error (.tooLong 4301) :=
    Toml.read_ones (by decide)
  generalize "x = ".toList ++ Toml.ones 4301 = content at hmalformed
  have hload := h (projectSite (Utf8.encode content)) _ _ (status_projectSite _) (resolve_projectSite _)
    (fun entry hm bytes hread => ⟨content, read_projectSite hm hread ▸ Utf8.decode_encode _⟩) ?_
  · have hfails : (projectSite (Utf8.encode content)).TableFails ⟨.top, ["pyproject.toml".toList]⟩
        (.numeral (.tooLong 4301)) := .numeral (read_project _) (Utf8.decode_encode _) (hmalformed _)
    have haround : SettingsEntry.around ⟨.top, []⟩ =
        [] ++ ⟨⟨.top, []⟩, "pyproject.toml".toList, ["tool".toList, "sparkdown".toList]⟩ :: _ := rfl
    have herror := loadSettings_of_answer (resolve_projectSite _) haround (fun _ hm => absurd hm List.not_mem_nil)
      (answer?_of_fails hfails)
    cases hload.symm.trans herror
  · rintro entry hm value ⟨bytes, s, entries, hread, hdecode, hentries, -⟩
    rw [read_projectSite hm hread, Utf8.decode_encode] at hdecode
    rw [← Except.ok.inj hdecode, hmalformed] at hentries
    cases hentries

end Site

end Lectern
