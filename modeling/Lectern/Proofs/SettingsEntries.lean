import Lectern.Proofs.SettingsSearch
import Lectern.Proofs.TableKeys

/-!
# The search for settings, entry by entry

Settings may stand in three entries of a directory: one in the file of a project and two in the file of this tool. Each
entry answers the search with settings, with an error or not at all (`Site.answer?`), and loading settings is to take
the first answer around a directory (**`Site.loadSettings_eq`**). An entry has no answer iff its file can be told and
holds nothing there (`Site.answer?_eq_none_iff`), and **`Site.answer?_cases`** tells its answers apart.
-/

set_option autoImplicit false

namespace Lectern

/-! ## Entries -/

/-- Where settings may stand: in a table of a file, which some keys lead to. -/
structure SettingsEntry where
  directory : Path
  file : Text
  keys : List Text
deriving DecidableEq, Repr

namespace SettingsEntry

/-- The path of the file. -/
def path (entry : SettingsEntry) : Path := entry.directory.child entry.file

/-- The keys as a message writes them. -/
def table (entry : SettingsEntry) : Text := List.intercalate ['.'] entry.keys

/-- The entries in the files of a directory, in the order in which they count. -/
def within (directory : Path) : List SettingsEntry :=
  [⟨directory, "pyproject.toml".toList, ["tool".toList, "sparkdown".toList]⟩,
    ⟨directory, ".sparkdown.toml".toList, ["sparkdown".toList]⟩,
    ⟨directory, ".sparkdown.toml".toList, ["tool".toList, "sparkdown".toList]⟩]

/-- The entries in a directory and all around it, from the nearest to the top. -/
def around (directory : Path) : List SettingsEntry := directory.around.flatMap within

theorem within_eq (directory : Path) :
    within directory =
      SettingsFile.all.flatMap fun file => file.tables.map fun keys => ⟨directory, file.name, keys⟩ := rfl

end SettingsEntry

/-- The file of an entry is a table in text, and the keys of the entry lead to a value in it. -/
def Site.Holds (site : Site) (entry : SettingsEntry) (value : Value) : Prop :=
  ∃ bytes s entries, site.read entry.path.text = .ok bytes ∧ Utf8.decode bytes = .ok s ∧
    Toml.read site.system.valueDepth s = .ok entries ∧ (Value.table entries).at? entry.keys = some value

/-! ## Tables of settings -/

theorem Setting.ofKey?_eq_some_iff {key : Text} {setting : Setting} :
    ofKey? key = some setting ↔ setting.key = key := by
  constructor
  · intro h
    have hkey : (setting.key == key) = true := List.find?_some (p := fun other : Setting => other.key == key) h
    exact eq_of_beq hkey
  · rintro rfl
    cases setting <;> decide +kernel

theorem Setting.key_injective {setting other : Setting} (h : setting.key = other.key) : setting = other :=
  Option.some.inj ((ofKey?_eq_some_iff.2 h).symm.trans (ofKey?_eq_some_iff.2 rfl))

/-- A value is a table in which every key is that of a setting. -/
structure Value.Lists (value : Value) (entries : List (Text × Value)) : Prop where
  eq_table : value = .table entries
  known : ∀ entry ∈ entries, ∃ setting : Setting, setting.key = entry.1

namespace RawSettings

variable {entries : List (Text × Value)}

/-- The settings that a table lists; all others have their defaults. -/
def listed (entries : List (Text × Value)) : RawSettings :=
  fun setting => (entries.lookup setting.key).getD (default setting)

theorem known_of_changes? {changes : List (Setting × Value)} (h : changes? entries = .ok changes) :
    ∀ entry ∈ entries, ∃ setting : Setting, setting.key = entry.1 := by
  induction entries generalizing changes with
  | nil => exact fun _ hm => absurd hm List.not_mem_nil
  | cons entry entries ih =>
    rw [changes?, List.mapM_cons] at h
    obtain ⟨change, hchange, h⟩ := exists_of_bind_eq_ok h
    obtain ⟨others, hothers, h⟩ := exists_of_bind_eq_ok h
    refine List.forall_mem_cons.2 ⟨?_, ih hothers⟩
    obtain ⟨key, value⟩ := entry
    dsimp only at hchange
    split at hchange
    · next setting hsetting => exact ⟨setting, Setting.ofKey?_eq_some_iff.1 hsetting⟩
    · cases hchange

/-- Entries with keys of settings change these, each at most once, and no others. -/
theorem setAll_of_changes? {changes : List (Setting × Value)} (h : changes? entries = .ok changes)
    (hkeys : (entries.map Prod.fst).Nodup) (raw : RawSettings) (setting : Setting) :
    raw.setAll changes setting = (entries.lookup setting.key).getD (raw setting) := by
  induction entries generalizing changes raw with
  | nil =>
    cases h
    rfl
  | cons entry entries ih =>
    obtain ⟨key, value⟩ := entry
    obtain ⟨hnew, hnodup⟩ := List.nodup_cons.1 hkeys
    rw [changes?, List.mapM_cons] at h
    obtain ⟨change, hchange, h⟩ := exists_of_bind_eq_ok h
    obtain ⟨others, hothers, h⟩ := exists_of_bind_eq_ok h
    cases h
    dsimp only at hchange
    split at hchange
    · next found hfound =>
      cases hchange
      obtain rfl := Setting.ofKey?_eq_some_iff.1 hfound
      have hrest : raw.setAll ((found, value) :: others) = (raw.set found value).setAll others := rfl
      rw [hrest, ih hothers hnodup, List.lookup_cons]
      by_cases hs : setting = found
      · subst hs
        have hlookup : entries.lookup setting.key = none := by
          refine List.lookup_eq_none_iff.2 fun entry hm => bne_iff_ne.2 fun he => hnew ?_
          have hkey : entry.1 ∈ entries.map Prod.fst := List.mem_map_of_mem hm
          rwa [← he] at hkey
        rw [hlookup, beq_self_eq_true]
        exact if_pos rfl
      · have hne : (setting.key == found.key) = false := beq_eq_false_iff_ne.2 fun he => hs (Setting.key_injective he)
        rw [hne, set, if_neg hs]
    · cases hchange

/-- A table of settings gives those that it lists, and everything else is wrong. -/
theorem ofValue_cases {value : Value} (hd : value.Distinct) (table file : Text) :
    (∃ entries, value.Lists entries ∧ ofValue table file value = .ok (listed entries)) ∨
      (∀ entries, ¬ value.Lists entries) ∧ ofValue table file value = .error (.badTable table file) := by
  cases value with
  | table entries =>
    cases hchanges : changes? entries with
    | ok changes =>
      refine .inl ⟨entries, ⟨rfl, known_of_changes? hchanges⟩, ?_⟩
      rw [ofValue, ofEntries?, hchanges]
      refine congrArg Except.ok (funext fun setting => ?_)
      exact setAll_of_changes? hchanges hd.nodup default setting
    | error wrong =>
      refine .inr ⟨fun others hlists => ?_, ?_⟩
      · cases hlists.eq_table
        obtain ⟨changes, hok⟩ : ∃ changes, changes? entries = .ok changes := by
          refine exists_mapM fun ⟨key, value⟩ hm => ?_
          obtain ⟨setting, hsetting⟩ := hlists.known _ hm
          dsimp only
          rw [Setting.ofKey?_eq_some_iff.2 hsetting]
          exact ⟨_, rfl⟩
        rw [hok] at hchanges
        cases hchanges
      · rw [ofValue, ofEntries?, hchanges]
        rfl
  | _ =>
    refine .inr ⟨fun _ hlists => ?_, rfl⟩
    cases hlists.eq_table

theorem ofValue_of_lists {value : Value} (hd : value.Distinct) (h : value.Lists entries) (table file : Text) :
    ofValue table file value = .ok (listed entries) := by
  rcases ofValue_cases hd table file with ⟨others, hlists, hok⟩ | ⟨hlists, -⟩
  · cases h.eq_table
    cases hlists.eq_table
    exact hok
  · exact absurd h (hlists entries)

end RawSettings

/-! ## Tables of files -/

namespace Site

variable {site : Site} {path : Path} {error : SearchError} {entry : SettingsEntry}

theorem status_of_read {bytes : List UInt8} (h : site.read path.text = .ok bytes) :
    ∃ node, site.status path.text = .ok node := by
  obtain ⟨place, -, h⟩ := RawSettings.exists_of_bind_eq_ok h
  obtain ⟨node, hnode, -⟩ := RawSettings.exists_of_bind_eq_ok h
  exact ⟨node, hnode⟩

theorem table?_of_read {bytes : List UInt8} (h : site.read path.text = .ok bytes) :
    site.table? path =
      match Utf8.decode bytes with
      | .error failure => .error (.undecodable failure)
      | .ok s =>
        match Toml.read site.system.valueDepth s with
        | .error .malformed => .ok none
        | .error (.tooLong digits) => .error (.numeral (.tooLong digits))
        | .error .tooDeep => .error .tooDeep
        | .ok entries => .ok (some (.table entries)) := by
  obtain ⟨node, hnode⟩ := status_of_read h
  have hoccupied : site.occupied path.text = .ok true := by
    rw [occupied, has, hnode]
  rw [table?, hoccupied]
  dsimp only
  rw [h]
  dsimp only
  cases Utf8.decode bytes with
  | error failure => rfl
  | ok s => rcases Toml.read site.system.valueDepth s with ⟨_ | _ | _⟩ | _ <;> rfl

/-- The search fails at a file iff there is no telling what table is in it. -/
theorem table?_eq_error_iff : site.table? path = .error error ↔ site.TableFails path error := by
  refine ⟨tableFails_of_table?, fun hfails => ?_⟩
  cases hfails with
  | refused hstatus habsence =>
    rw [table?, occupied, has, hstatus]
    dsimp only
    rw [habsence]
    rfl
  | undecodable hread hdecode => rw [table?_of_read hread, hdecode]
  | numeral hread hdecode htable =>
    rw [table?_of_read hread, hdecode]
    dsimp only
    rw [htable]
  | tooDeep hread hdecode htable =>
    rw [table?_of_read hread, hdecode]
    dsimp only
    rw [htable]

theorem table?_eq_some_iff {value : Value} :
    site.table? path = .ok (some value) ↔
      ∃ bytes s entries, site.read path.text = .ok bytes ∧ Utf8.decode bytes = .ok s ∧
        Toml.read site.system.valueDepth s = .ok entries ∧ value = .table entries := by
  constructor
  · intro h
    unfold table? at h
    split at h
    · cases h
    · cases h
    · split at h
      · cases h
      · next bytes hread =>
        split at h
        · cases h
        · next s hdecode =>
          split at h
          · cases h
          · cases h
          · cases h
          · next entries htable =>
            cases h
            exact ⟨bytes, s, entries, hread, hdecode, htable, rfl⟩
  · rintro ⟨bytes, s, entries, hread, hdecode, htable, rfl⟩
    rw [table?_of_read hread, hdecode]
    dsimp only
    rw [htable]

/-! ## Answers -/

/-- What an entry says of the settings, if anything. -/
def answer? (site : Site) (entry : SettingsEntry) : Option (Except SearchError RawSettings) :=
  match site.table? entry.path with
  | .error error => some (.error error)
  | .ok none => none
  | .ok (some value) =>
    (value.at? entry.keys).map fun value =>
      (RawSettings.ofValue entry.table entry.path.text value).mapError .settings

/-- A result that may be missing, as an answer that may be. -/
def asAnswer {ε α : Type} : Except ε (Option α) → Option (Except ε α)
  | .error error => some (.error error)
  | .ok none => none
  | .ok (some a) => some (.ok a)

theorem asAnswer_settingsIn? (site : Site) (directory : Path) {file : SettingsFile} (hfile : file.tables ≠ []) :
    asAnswer (site.settingsIn? directory file) =
      (file.tables.map fun keys => ⟨directory, file.name, keys⟩).findSome? site.answer? := by
  have hpath : ∀ keys, (⟨directory, file.name, keys⟩ : SettingsEntry).path = directory.child file.name :=
    fun _ => rfl
  rw [List.findSome?_map, settingsIn?]
  cases htable : site.table? (directory.child file.name) with
  | error error =>
    obtain ⟨keys, tables, htables⟩ := List.exists_cons_of_ne_nil hfile
    simp only [htables, bind, Except.bind, List.findSome?_cons, Function.comp_apply, answer?, hpath, htable, asAnswer]
  | ok value? =>
    cases value? with
    | none =>
      have hnone : file.tables.findSome? (site.answer? ∘ fun keys => ⟨directory, file.name, keys⟩) = none :=
        List.findSome?_eq_none_iff.2 fun keys _ => by simp only [Function.comp_apply, answer?, hpath, htable]
      rw [hnone]
      rfl
    | some value =>
      have hanswer : (site.answer? ∘ fun keys => ⟨directory, file.name, keys⟩) =
          Option.map (Except.mapError SearchError.settings) ∘ fun keys => (value.at? keys).map
            (RawSettings.ofValue (List.intercalate ['.'] keys) (directory.child file.name).text) := by
        funext keys
        simp only [Function.comp_apply, answer?, hpath, htable, Option.map_map]
        rfl
      rw [hanswer, ← List.map_findSome?]
      simp only [bind, Except.bind, RawSettings.firstOf?]
      split
      · next hfirst =>
        rw [hfirst]
        rfl
      · next raw hfirst =>
        rw [hfirst]
        rfl
      · next error hfirst =>
        rw [hfirst]
        rfl

theorem asAnswer_firstSettings? (site : Site) (places : List (Path × SettingsFile)) :
    asAnswer (site.firstSettings? places) =
      places.findSome? fun place => asAnswer (site.settingsIn? place.1 place.2) := by
  induction places with
  | nil => rfl
  | cons place places ih =>
    rw [firstSettings?, List.findSome?_cons]
    cases hplace : site.settingsIn? place.1 place.2 with
    | error error => rfl
    | ok raw? =>
      cases raw? with
      | none => exact ih
      | some raw => rfl

theorem findSome?_congr {α β : Type} {f g : α → Option β} {xs : List α} (h : ∀ x ∈ xs, f x = g x) :
    xs.findSome? f = xs.findSome? g := by
  induction xs with
  | nil => rfl
  | cons x xs ih =>
    obtain ⟨hx, hxs⟩ := List.forall_mem_cons.1 h
    rw [List.findSome?_cons, List.findSome?_cons, hx, ih hxs]

/-- The first answer of one list after the other. -/
theorem findSome?_flatMap {α β γ : Type} (f : β → Option γ) (g : α → List β) (xs : List α) :
    (xs.flatMap g).findSome? f = xs.findSome? fun x => (g x).findSome? f := by
  induction xs with
  | nil => rfl
  | cons x xs ih =>
    rw [List.flatMap_cons, List.findSome?_append, List.findSome?_cons, ih]
    cases (g x).findSome? f <;> rfl

/-- The first answer around a directory decides the settings. -/
theorem loadSettings_eq {directory resolved : Path} (hr : site.resolve false directory = .ok resolved) :
    site.loadSettings directory =
      ((SettingsEntry.around resolved).findSome? site.answer?).getD (.ok .default) := by
  have htables : ∀ file ∈ SettingsFile.all, file.tables ≠ [] := by decide
  have hdirectory : ∀ path : Path,
      (SettingsFile.all.map fun file => (path, file)).findSome? (fun place =>
        asAnswer (site.settingsIn? place.1 place.2)) = (SettingsEntry.within path).findSome? site.answer? := by
    intro path
    rw [SettingsEntry.within_eq, findSome?_flatMap, List.findSome?_map]
    refine findSome?_congr fun file hfile => ?_
    exact asAnswer_settingsIn? site path (htables file hfile)
  have hfirst : asAnswer (site.firstSettings?
      (resolved.around.flatMap fun path => SettingsFile.all.map fun file => (path, file))) =
      (SettingsEntry.around resolved).findSome? site.answer? := by
    rw [asAnswer_firstSettings?, SettingsEntry.around, findSome?_flatMap, findSome?_flatMap]
    exact findSome?_congr fun path _ => hdirectory path
  rw [loadSettings, hr, ← hfirst]
  dsimp only
  rcases site.firstSettings? _ with error | _ | raw <;> rfl

theorem loadSettings_of_answer {directory resolved : Path} {before after : List SettingsEntry}
    {result : Except SearchError RawSettings} (hr : site.resolve false directory = .ok resolved)
    (haround : SettingsEntry.around resolved = before ++ entry :: after)
    (hbefore : ∀ nearer ∈ before, site.answer? nearer = none) (hanswer : site.answer? entry = some result) :
    site.loadSettings directory = result := by
  have hfirst : (SettingsEntry.around resolved).findSome? site.answer? = some result :=
    List.findSome?_eq_some_iff.2 ⟨before, entry, after, haround, hanswer, hbefore⟩
  rw [loadSettings_eq hr, hfirst]
  rfl

/-! ## What an entry answers -/

theorem holds_iff {value : Value} :
    site.Holds entry value ↔
      ∃ table, site.table? entry.path = .ok (some table) ∧ table.at? entry.keys = some value := by
  constructor
  · rintro ⟨bytes, s, entries, hread, hdecode, htable, hat⟩
    exact ⟨_, table?_eq_some_iff.2 ⟨bytes, s, entries, hread, hdecode, htable, rfl⟩, hat⟩
  · rintro ⟨table, htable, hat⟩
    obtain ⟨bytes, s, entries, hread, hdecode, hentries, rfl⟩ := table?_eq_some_iff.1 htable
    exact ⟨bytes, s, entries, hread, hdecode, hentries, hat⟩

/-- No table in what a file holds has a key twice. -/
theorem Holds.distinct {value : Value} (h : site.Holds entry value) : value.Distinct := by
  obtain ⟨bytes, s, entries, -, -, hentries, hat⟩ := h
  exact (Toml.distinct_read hentries).of_at? hat

theorem answer?_of_fails (h : site.TableFails entry.path error) : site.answer? entry = some (.error error) := by
  rw [answer?, table?_eq_error_iff.2 h]

theorem answer?_of_holds {value : Value} (h : site.Holds entry value) :
    site.answer? entry =
      some ((RawSettings.ofValue entry.table entry.path.text value).mapError .settings) := by
  obtain ⟨table, htable, hat⟩ := holds_iff.1 h
  rw [answer?, htable]
  dsimp only
  rw [hat]
  rfl

/-- An entry answers for its file if there is no telling what is in it, and for the value that the file holds. -/
theorem answer?_cases {result : Except SearchError RawSettings} (h : site.answer? entry = some result) :
    (∃ error, site.TableFails entry.path error ∧ result = .error error) ∨
      ∃ value, site.Holds entry value ∧
        result = (RawSettings.ofValue entry.table entry.path.text value).mapError .settings := by
  unfold answer? at h
  split at h
  · next error htable =>
    cases h
    exact .inl ⟨error, table?_eq_error_iff.1 htable, rfl⟩
  · cases h
  · next table htable =>
    obtain ⟨value, hat, rfl⟩ := Option.map_eq_some_iff.1 h
    exact .inr ⟨value, holds_iff.2 ⟨table, htable, hat⟩, rfl⟩

theorem answer?_eq_none_iff :
    site.answer? entry = none ↔
      (∀ error, ¬ site.TableFails entry.path error) ∧ ∀ value, ¬ site.Holds entry value := by
  constructor
  · intro h
    constructor
    · intro error hfails
      rw [answer?_of_fails hfails] at h
      cases h
    · intro value hholds
      rw [answer?_of_holds hholds] at h
      cases h
  · rintro ⟨hfails, hholds⟩
    cases hanswer : site.answer? entry with
    | none => rfl
    | some result =>
      rcases answer?_cases hanswer with ⟨error, herror, -⟩ | ⟨value, hvalue, -⟩
      · exact absurd herror (hfails error)
      · exact absurd hvalue (hholds value)

end Site

end Lectern
