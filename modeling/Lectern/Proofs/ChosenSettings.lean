import Lectern.Proofs.Beginnings
import Lectern.Proofs.CommandEndings
import Lectern.Proofs.NearestSettings

/-!
# Which settings a run uses

A run of the command finds the settings of the nearest entry, changes those that its options choose, lets the
environment set the limits, and converts the notes, whose head may say something else. **`Command.Settled`** says what
each setting is then, and **`Command.run_settings`** how the document begins that comes of it.
-/

set_option autoImplicit false

namespace Lectern

/-! ## What decides -/

/-- The entries of the table of settings that decides around a directory; there are none if no file holds one. -/
inductive Site.Deciding (site : Site) (resolved : Path) : List (Text × Value) → Prop where
  | nearest {before : List SettingsEntry} {entry : SettingsEntry} {value : Value} {entries : List (Text × Value)} :
      site.Nearest resolved before entry value → value.Lists entries → Deciding site resolved entries
  | none : (∀ entry ∈ SettingsEntry.around resolved, ∀ value, ¬ site.Holds entry value) → Deciding site resolved []

namespace Site

variable {site : Site} {directory : Path} {raw : RawSettings}

/-- Loaded settings are those that the deciding table lists. -/
theorem exists_deciding (h : site.loadSettings directory = .ok raw) :
    ∃ resolved entries, site.resolve false directory = .ok resolved ∧ site.Deciding resolved entries ∧
      raw = RawSettings.listed entries := by
  cases hr : site.resolve false directory with
  | error error =>
    rw [loadSettings, hr] at h
    cases h
  | ok resolved =>
    refine ⟨resolved, ?_⟩
    rw [loadSettings_eq hr] at h
    cases hfirst : (SettingsEntry.around resolved).findSome? site.answer? with
    | none =>
      rw [hfirst] at h
      cases h
      have hnone := fun entry hm => (answer?_eq_none_iff.1 (List.findSome?_eq_none_iff.1 hfirst entry hm)).2
      exact ⟨[], rfl, .none hnone, rfl⟩
    | some result =>
      rw [hfirst] at h
      obtain rfl : result = .ok raw := h
      obtain ⟨before, entry, after, haround, hanswer, hbefore⟩ := List.findSome?_eq_some_iff.1 hfirst
      rcases answer?_cases hanswer with ⟨error, -, herror⟩ | ⟨value, hholds, hvalue⟩
      · cases herror
      rcases RawSettings.ofValue_cases hholds.distinct entry.table entry.path.text with
        ⟨entries, hlists, hok⟩ | ⟨-, herror⟩
      · rw [hok] at hvalue
        exact ⟨entries, rfl, .nearest ⟨⟨after, haround⟩, fun nearer hm => (answer?_eq_none_iff.1 (hbefore nearer hm)).2,
          hholds⟩ hlists, Except.ok.inj hvalue⟩
      · rw [herror] at hvalue
        cases hvalue

end Site

namespace Command

/-! ## What options choose -/

variable {parameters : Parameters}

/-- The value that options choose for a setting. -/
def choice? (parameters : Parameters) : Setting → Option Value
  | .title => (parameters.title?).map .text
  | .author => (parameters.author?).map .text
  | .date => (parameters.date?).map .text
  | .strictBlocks => if parameters.strict then some (.bool true) else none
  | _ => none

/-- The entries for some settings, with the values that are chosen for them. -/
def choices (choice? : Setting → Option Value) (settings : List Setting) : List (Text × Value) :=
  settings.filterMap fun setting => (choice? setting).map fun value => (setting.key, value)

theorem choices_cons (choice? : Setting → Option Value) (setting : Setting) (settings : List Setting) :
    choices choice? (setting :: settings) =
      ((choice? setting).map fun value => (setting.key, value)).toList ++ choices choice? settings := by
  rw [choices, List.filterMap_cons]
  cases choice? setting <;> rfl

/-- What is chosen for a setting stands under its key. -/
theorem lookup_choices {choice? : Setting → Option Value} {setting : Setting} {settings : List Setting}
    (h : setting ∈ settings ∨ choice? setting = none) :
    (choices choice? settings).lookup setting.key = choice? setting := by
  induction settings with
  | nil => exact (h.resolve_left List.not_mem_nil).symm
  | cons first settings ih =>
    rw [choices_cons]
    by_cases he : setting = first
    · subst he
      cases hchoice : choice? setting with
      | none => exact (ih (.inr hchoice)).trans hchoice
      | some value =>
        simp only [Option.map_some, Option.toList, List.singleton_append, List.lookup_cons, beq_self_eq_true]
    · have hrest := ih (h.imp_left fun hm => (List.mem_cons.1 hm).resolve_left he)
      have hne : (setting.key == first.key) = false := beq_eq_false_iff_ne.2 fun hk => he (Setting.key_injective hk)
      cases choice? first with
      | none => exact hrest
      | some value => simpa only [Option.map_some, Option.toList, List.singleton_append, List.lookup_cons, hne]

theorem keys_choices_sublist (choice? : Setting → Option Value) (settings : List Setting) :
    ((choices choice? settings).map Prod.fst).Sublist (settings.map Setting.key) := by
  induction settings with
  | nil => exact .slnil
  | cons first settings ih =>
    rw [choices_cons]
    cases choice? first with
    | none => exact ih.cons _
    | some value => exact ih.cons_cons _

/-- The settings that options can choose. -/
def choosable : List Setting := [.title, .author, .date, .strictBlocks]

theorem changes_eq (parameters : Parameters) : changes parameters = choices (choice? parameters) choosable := by
  simp only [changes, choosable, choices_cons, choice?]
  cases parameters.title? <;> cases parameters.author? <;> cases parameters.date? <;>
    cases parameters.strict <;> rfl

theorem lookup_changes (parameters : Parameters) (setting : Setting) :
    (changes parameters).lookup setting.key = choice? parameters setting := by
  rw [changes_eq]
  refine lookup_choices ?_
  cases setting with
  | title | author | date | strictBlocks => exact .inl (by decide)
  | _ => exact .inr rfl

theorem nodup_changes (parameters : Parameters) : ((changes parameters).map Prod.fst).Nodup := by
  rw [changes_eq]
  exact (keys_choices_sublist _ choosable).nodup (by decide +kernel)

/-- Options choose values for settings, never to leave them as they are. -/
theorem chosen_changes (parameters : Parameters) : RawSettings.chosen (changes parameters) = changes parameters := by
  refine List.filter_eq_self.2 fun change hm => ?_
  rw [changes_eq] at hm
  obtain ⟨setting, -, hchange⟩ := List.mem_filterMap.1 hm
  obtain ⟨value, hvalue, rfl⟩ := Option.map_eq_some_iff.1 hchange
  have htext : ∀ s? : Option Text, s?.map Value.text = some value → ∃ s, value = .text s := by
    intro s? hs
    obtain ⟨s, -, rfl⟩ := Option.map_eq_some_iff.1 hs
    exact ⟨s, rfl⟩
  cases setting with
  | title | author | date =>
    obtain ⟨s, rfl⟩ := htext _ hvalue
    rfl
  | strictBlocks =>
    rw [choice?] at hvalue
    split at hvalue
    · cases hvalue
      rfl
    · cases hvalue
  | _ => cases hvalue

/-- Options change the settings that they choose and no others. -/
theorem override_changes {raw changed : RawSettings} (h : raw.override? (changes parameters) = .ok changed)
    (setting : Setting) : changed setting = (choice? parameters setting).getD (raw setting) := by
  unfold RawSettings.override? at h
  obtain ⟨-, -, h⟩ := RawSettings.exists_of_bind_eq_ok h
  obtain ⟨changed', hchanges, h⟩ := RawSettings.exists_of_bind_eq_ok h
  rw [chosen_changes] at hchanges
  rw [← Except.ok.inj h, ← lookup_changes]
  exact RawSettings.setAll_of_changes? hchanges (nodup_changes parameters) raw setting

theorem value_of_buildSettings {site : Site} {directory : Path} {settings : Settings}
    (h : site.buildSettings directory (changes parameters) = .ok settings) :
    ∃ raw, site.loadSettings directory = .ok raw ∧
      ∀ setting, settings.value setting = (choice? parameters setting).getD (raw setting) := by
  unfold Site.buildSettings at h
  obtain ⟨⟨⟩, -, h⟩ := RawSettings.exists_of_bind_eq_ok h
  obtain ⟨raw, hraw, h⟩ := RawSettings.exists_of_bind_eq_ok h
  obtain ⟨changed, hchanged, h⟩ := RawSettings.exists_of_bind_eq_ok h
  rw [RawSettings.value_of_check (eq_ok_of_mapError_eq_ok h)]
  exact ⟨raw, hraw, override_changes (eq_ok_of_mapError_eq_ok hchanged)⟩

end Command

/-! ## Limits -/

namespace Limit

/-- The setting that a limit takes the place of. -/
def setting : Limit → Setting
  | .fileSize => .maxFileSize
  | .lineLength => .maxLineLength

theorem inEffect_eq_ok {environment : Environment} {limit : Limit} {default n : Int}
    (h : limit.inEffect environment default = .ok n) :
    environment.lookup limit.variableName = none ∧ n = default ∨
      ∃ s, environment.lookup limit.variableName = some s ∧ Numeral.read s = .ok n ∧ 0 < n := by
  unfold inEffect at h
  split at h
  · next hlookup =>
    cases h
    exact .inl ⟨hlookup, rfl⟩
  · next s hlookup =>
    split at h
    · cases h
    · next m hread =>
      split at h
      · cases h
      · next hpos =>
        cases h
        exact .inr ⟨s, hlookup, hread, Int.not_le.1 hpos⟩

end Limit

namespace Command

/-! ## Settings of a run -/

/-- The settings of a run: the table that decides lists them, options choose some in its place, and the environment sets
the limits. -/
structure Settled (environment : Environment) (parameters : Parameters) (entries : List (Text × Value))
    (settings : Settings) : Prop where
  /-- An option counts even if its value is empty. -/
  chosen : ∀ setting, (∀ limit : Limit, limit.setting ≠ setting) →
    settings.value setting = (choice? parameters setting).getD (RawSettings.listed entries setting)
  limited : ∀ limit : Limit,
    environment.lookup limit.variableName = none ∧
        settings.value limit.setting = RawSettings.listed entries limit.setting ∨
      ∃ s n, environment.lookup limit.variableName = some s ∧ Numeral.read s = .ok n ∧ 0 < n ∧
        settings.value limit.setting = .int n

theorem settled_of_limitedBy {environment : Environment} {parameters : Parameters} {entries : List (Text × Value)}
    {found settings : Settings}
    (hfound : ∀ setting,
      found.value setting = (choice? parameters setting).getD (RawSettings.listed entries setting))
    (h : found.limitedBy environment = .ok settings) : Settled environment parameters entries settings := by
  unfold Settings.limitedBy at h
  obtain ⟨maxFileSize, hsize, h⟩ := RawSettings.exists_of_bind_eq_ok h
  obtain ⟨maxLineLength, hlength, h⟩ := RawSettings.exists_of_bind_eq_ok h
  cases h
  refine ⟨fun setting hlimit => ?_, fun limit => ?_⟩
  · rw [← hfound]
    cases setting with
    | maxFileSize => exact absurd rfl (hlimit .fileSize)
    | maxLineLength => exact absurd rfl (hlimit .lineLength)
    | _ => rfl
  · cases limit with
    | fileSize =>
      rcases Limit.inEffect_eq_ok hsize with ⟨hnone, rfl⟩ | ⟨s, hsome, hread, hpos⟩
      · exact .inl ⟨hnone, hfound .maxFileSize⟩
      · exact .inr ⟨s, maxFileSize, hsome, hread, hpos, rfl⟩
    | lineLength =>
      rcases Limit.inEffect_eq_ok hlength with ⟨hnone, rfl⟩ | ⟨s, hsome, hread, hpos⟩
      · exact .inl ⟨hnone, hfound .maxLineLength⟩
      · exact .inr ⟨s, maxLineLength, hsome, hread, hpos, rfl⟩

/-! ## Runs that convert notes -/

variable {kit : Toolkit} {request : Request} {parameters : Parameters} {plan : Plan} {document : Text}

section

variable [Memory]

/-- Where the document of a run is afterwards: in the file that an option names, or else it is printed. -/
inductive Delivered (kit : Toolkit) (request : Request) (parameters : Parameters) (document : Text) : Prop where
  | printed {output : Text} : parameters.output? = none → kit.echo document = .ok output →
      (run kit request).site = request.site → (run kit request).output = output →
      Delivered kit request parameters document
  | written {output : Text} {named path : Path} {place : Place} {mode : Nat} :
      parameters.output? = some output → request.site.expand (.parse output) = .ok named →
      request.site.resolve false named = .ok path → request.site.placeFor path = .ok place →
      (run kit request).site =
        { request.site with tree := request.site.tree.put place (.file (Utf8.encode document) mode) } →
      Delivered kit request parameters document

/-- A run has converted notes with its settings. -/
structure Converted (kit : Toolkit) (request : Request) (parameters : Parameters) (notes : Path) (settings : Settings)
    (commands : List (Text × Text)) (document : Text) : Prop where
  found : request.site.findNotes parameters.notes = .ok notes
  settled : ∃ resolved entries, request.site.resolve false notes.parent = .ok resolved ∧
    request.site.Deciding resolved entries ∧ Settled request.environment parameters entries settings
  sized : ∃ size, request.site.size notes = .ok size ∧ (size : Int) ≤ settings.maxFileSize
  /-- The commands are those in the head of the notes, none of whose lines is too long. -/
  read : ∃ content, request.site.readText notes = .ok content ∧
    Document.headCommands (Document.lines content) = commands ∧
    (∀ line ∈ Document.lines content, (line.length : Int) ≤ settings.maxLineLength) ∧
    (Document.convertLines settings (Document.lines content)).document = .ok document
  /-- The last command with a key counts, and all that ask for packages do. -/
  begins : ∃ rest, document =
    Document.opening ((valuesOf "title".toList commands).getLast?.getD settings.title)
      ((valuesOf "author".toList commands).getLast?.getD settings.author)
      ((valuesOf "date".toList commands).getLast?.getD settings.date) settings
      (settings.packages ++ valuesOf "usepackage".toList commands) ++ '\n' :: rest
  delivered : Delivered kit request parameters document

theorem delivered_of_prepared (hkit : kit.Documented) (hp : Prepared kit request parameters plan)
    (hdocument : (NotesFile.convertChecked request.site plan.settings plan.notes).document = .ok document)
    (hend : (run kit request).ending = .exit 0) : Delivered kit request parameters document := by
  have hplanned := planned_of_eq_ok hp.planned
  cases hd : plan.destination? with
  | none =>
    have hnone : parameters.output? = none := by
      have hplaced := hplanned.placed
      rw [hd] at hplaced
      cases houtput : parameters.output? with
      | none => rfl
      | some output =>
        rw [houtput] at hplaced
        obtain ⟨destination, -, hdestination⟩ := exists_of_map_eq_ok hplaced
        cases hdestination
    obtain ⟨printed, hconsent, document', output, hdocument', hdelivered, houtput⟩ := exists_of_run hkit hp hend
    obtain rfl := Except.ok.inj (hdocument.symm.trans hdocument')
    rw [consent, hd] at hconsent
    cases hconsent
    rw [hd, deliver] at hdelivered
    split at hdelivered
    · next found hfound =>
      obtain rfl : found = output := congrArg Prod.snd (Except.ok.inj hdelivered)
      exact .printed hnone hfound (site_run_of_printed hkit hp hd) houtput
    · cases hdelivered
  | some destination =>
    obtain ⟨output, houtput, hdestination⟩ := hplanned.exists_output hd
    obtain ⟨named, occupied, hnamed, hresolved, -⟩ := exists_of_destination hdestination
    obtain ⟨-, -, document', hdocument', hwrite⟩ := exists_of_written_run hkit hp hd hend
    obtain rfl := Except.ok.inj (hdocument.symm.trans hdocument')
    obtain ⟨place, mode, hplace, -, hsite⟩ := Site.write_eq_ok hwrite
    exact .written houtput hnamed hresolved hplace hsite

/-- **Settings take effect in one order.** A run that has parameters and ends well has a document that begins with what
the last command in the head of the notes says, or else what options choose, or else what the deciding table lists, or
else the defaults. Packages come from the table and from the head, all in order, and limits from the environment or else
from the table. -/
theorem run_settings {kit : Toolkit} (hkit : kit.Documented) (request : Request) (parameters : Parameters)
    (hparsed : request.parsed kit = .parameters parameters) (hend : (run kit request).ending = .exit 0) :
    ∃ notes settings commands document, Converted kit request parameters notes settings commands document := by
  cases hplan : Command.plan request.site request.environment parameters with
  | error stop =>
    rw [run_of_parsed hparsed, convert, hplan] at hend
    exact absurd hend (ending_halt_ne hkit _ _ _)
  | ok plan =>
    have hp : Prepared kit request parameters plan := ⟨hparsed, hplan⟩
    have hplanned := planned_of_eq_ok hplan
    obtain ⟨printed, -, document, output, hdocument, -, -⟩ := exists_of_run hkit hp hend
    obtain ⟨content, hcontent, hconverted⟩ := exists_of_convertChecked hdocument
    obtain ⟨found, hfound, hlimited⟩ := hplanned.settings
    obtain ⟨raw, hraw, hvalue⟩ := value_of_buildSettings hfound
    obtain ⟨resolved, entries, hresolved, hdeciding, rfl⟩ := Site.exists_deciding hraw
    obtain ⟨size, hsize⟩ := hplanned.sized
    obtain ⟨hshort, hbegins⟩ :=
      Document.begins_of_convertLines (fun line hm => Document.not_mem_of_mem_lines hm) hconverted
    exact ⟨plan.notes, plan.settings, _, document, {
      found := hplanned.notes
      settled := ⟨resolved, entries, hresolved, hdeciding, settled_of_limitedBy hvalue hlimited⟩
      sized := ⟨size, size_of_sizeWithin hsize⟩
      read := ⟨content, hcontent, rfl, hshort, hconverted⟩
      begins := hbegins
      delivered := delivered_of_prepared hkit hp hdocument hend }⟩

end

/-- Notes with a title, beside settings. -/
def settledSite : Site where
  tree := ⟨[(["in.sd".toList], .file (Utf8.encode "$title: T\nHello".toList) 0o644),
    (["pyproject.toml".toList], .file (Utf8.encode "[tool.sparkdown]\nauthor = 'A'".toList) 0o644)]⟩
  directory := []
  home := "/".toList
  homes := []
  system := .free

theorem nearest_settledSite :
    settledSite.Nearest ⟨.top, []⟩ [] ⟨⟨.top, []⟩, "pyproject.toml".toList, ["tool".toList, "sparkdown".toList]⟩
      (.table [("author".toList, .text "A".toList)]) where
  around := ⟨_, rfl⟩
  first := fun _ hm => absurd hm List.not_mem_nil
  holds := ⟨_, "[tool.sparkdown]\nauthor = 'A'".toList,
    [("tool".toList, .table [("sparkdown".toList, .table [("author".toList, .text "A".toList)])])],
    by cbv, by cbv, by cbv, by cbv⟩

theorem loadSettings_settledSite :
    settledSite.loadSettings ⟨.top, []⟩ = .ok (RawSettings.listed [("author".toList, .text "A".toList)]) := by
  have hresolved : settledSite.resolve false ⟨.top, []⟩ = .ok ⟨.top, []⟩ := by cbv
  obtain ⟨after, haround⟩ := nearest_settledSite.around
  rw [Site.loadSettings_of_answer hresolved haround (fun _ hm => absurd hm List.not_mem_nil)
    (Site.answer?_of_holds nearest_settledSite.holds)]
  rw [RawSettings.ofValue_of_lists nearest_settledSite.holds.distinct
    ⟨rfl, fun entry hm => ⟨.author, List.mem_singleton.1 hm ▸ rfl⟩⟩]
  rfl

/-- The environment of a user who sets the length of a line. -/
def lengthEnvironment : Environment := [("SPARKDOWN_MAX_LINE_LENGTH".toList, "80".toList)]

theorem read_eighty : Numeral.read "80".toList = .ok 80 := by decide +kernel

/-- The settings of a run on these notes. -/
def settledSettings : Settings :=
  { Settings.default with title := "O".toList, author := "A".toList, maxLineLength := 80 }

theorem limitedBy_lengthEnvironment :
    Settings.limitedBy lengthEnvironment { settledSettings with maxLineLength := 10000 } = .ok settledSettings := by
  have hsize : Limit.fileSize.inEffect lengthEnvironment settledSettings.maxFileSize =
      .ok settledSettings.maxFileSize := rfl
  have hlength : Limit.lineLength.inEffect lengthEnvironment 10000 = .ok 80 := by
    have hlookup : lengthEnvironment.lookup Limit.lineLength.variableName = some "80".toList := rfl
    rw [Limit.inEffect, hlookup]
    dsimp only
    rw [read_eighty]
    rfl
  unfold Settings.limitedBy
  rw [hsize, hlength]
  rfl

/-- The parameters of a run that prints these notes with another title. -/
def settledParameters : Parameters := ⟨"in.sd".toList, none, false, some "O".toList, none, none, false⟩

theorem planned_settledSite :
    Planned settledSite lengthEnvironment settledParameters ⟨⟨.top, ["in.sd".toList]⟩, settledSettings, none⟩ where
  notes := by cbv
  settings := by
    refine ⟨{ settledSettings with maxLineLength := 10000 }, ?_, limitedBy_lengthEnvironment⟩
    have hparent : (⟨.top, ["in.sd".toList]⟩ : Path).parent = ⟨.top, []⟩ := rfl
    unfold Site.buildSettings
    rw [hparent, loadSettings_settledSite]
    rfl
  sized := ⟨15, by cbv⟩
  placed := rfl

/-- The option chooses the title, though the head says another one, and the environment sets the length of a line. -/
theorem run_settings_titled :
    let request : Request := ⟨settledSite, lengthEnvironment, ["in.sd".toList, "--title".toList, "O".toList], []⟩
    Program.toolkit.Documented ∧ request.parsed Program.toolkit = .parameters settledParameters ∧
      (run Program.toolkit request).ending = .exit 0 ∧
      ∃ notes settings commands document,
        Converted Program.toolkit request settledParameters notes settings commands document ∧
        settings.title = "O".toList ∧ settings.maxLineLength = 80 := by
  intro request
  have hkit := Program.documented_toolkit
  have hread : Program.Invocation.read request.arguments = .ok ⟨[⟨.title, some "O".toList⟩], ["in.sd".toList]⟩ := rfl
  have hoperands : Program.checkOperands settledSite ["in.sd".toList] = .ok "in.sd".toList := by cbv
  have hparsed : request.parsed Program.toolkit = .parameters settledParameters :=
    Program.parse_of_read hread rfl rfl hoperands
  have hp : Prepared Program.toolkit request settledParameters _ := ⟨hparsed, planned_settledSite.eq_ok⟩
  have hcontent : settledSite.readText ⟨.top, ["in.sd".toList]⟩ = .ok "$title: T\nHello".toList := by cbv
  obtain ⟨document, -, hdocument⟩ := exists_of_readText settledSettings hcontent (by decide +kernel)
  have hecho : Program.toolkit.echo document = .ok (Text.withoutCodes document) := rfl
  obtain ⟨-, hend⟩ := run_of_deliver hp rfl hdocument (deliver_of_echo hecho)
  obtain ⟨notes, settings, commands, document, hconverted⟩ := run_settings hkit request settledParameters hparsed hend
  obtain ⟨resolved, entries, -, -, hsettled⟩ := hconverted.settled
  refine ⟨hkit, hparsed, hend, notes, settings, commands, document, hconverted, ?_, ?_⟩
  · exact Value.text.inj (hsettled.chosen .title (by intro limit; cases limit <;> decide))
  · rcases hsettled.limited .lineLength with ⟨hnone, -⟩ | ⟨s, n, hsome, hn, -, hvalue⟩
    · cases hnone
    · cases hsome
      cases hn.symm.trans read_eighty
      exact Value.int.inj hvalue

end Command

end Lectern
