import Mathlib
import Lectern.Proofs.Arguments
import Lectern.Proofs.Plans
import Lectern.Proofs.WrittenFiles

/-!
# What a run changes

A run of the command changes one file at most: the one that it writes the document to. **`Command.Written`** says what
that is like then, and what was there before. The notes are told from it by their resolved paths, which serves if the
path of the output can be resolved as a whole (**`Command.IsStraight`**): all else is found as it was then
(**`Command.Spared`**), the notes among it (`status_notes`). A path that runs through a circle of links is resolved by
its text alone, and may lead to the notes by another way.
-/

set_option autoImplicit false

namespace Lectern.Command

/-- The path of the output, if there is one, can be resolved as a whole. -/
def IsStraight (site : Site) (parameters : Parameters) : Prop :=
  ∀ output path, parameters.output? = some output → site.expand (.parse output) = .ok path → site.isStraight path = true

/-- The user lets the document take the place of a file: an option or the reply to the question says so. -/
def Agrees (request : Request) (parameters : Parameters) : Prop := parameters.overwrite = true ∨ Agreed request.input

/-- A run has written a document to a place. -/
structure Written [Memory] (kit : Toolkit) (request : Request) (parameters : Parameters) (plan : Plan)
    (destination : Destination) (place : Place) (document : Text) (mode : Nat) : Prop where
  converted : (NotesFile.convertChecked request.site plan.settings plan.notes).document = .ok document
  located : request.site.placeFor destination.path = .ok place
  holds : (run kit request).site.tree.get? place = some (.file (Utf8.encode document) mode)
  others : ∀ other, other ≠ place → (run kit request).site.tree.get? other = request.site.tree.get? other
  /-- Whatever free place the hidden file had, it is gone; and had the replacement ended before its last step, nothing
  would have changed. -/
  hidden : ∀ hidden, request.site.tree.get? hidden = none → hidden ≠ place → ∀ n,
    Replacement.attempt hidden place (Utf8.encode document) mode n request.site.tree =
      if n < (Replacement.steps place (Utf8.encode document) mode).length then request.site.tree
      else (run kit request).site.tree
  kept : ∀ bytes previous, request.site.status destination.path.text = .ok (.file bytes previous) → mode = previous
  new : ∀ error, request.site.status destination.path.text = .error error → mode = Site.newFileMode
  agreed : ∀ node, request.site.status destination.path.text = .ok node → Agrees request parameters

/-- A run has written a document to the place that the path of the output says, and spared all else. -/
structure Spared [Memory] (kit : Toolkit) (request : Request) (parameters : Parameters) (destination : Destination)
    (place : Place) (mode : Nat) : Prop where
  place_eq : place = destination.path.names
  /-- There was a file with the same permissions, which the user gives up, or nothing. -/
  before : (∃ bytes, request.site.tree.get? place = some (.file bytes mode)) ∧ Agrees request parameters ∨
    request.site.tree.get? place = none ∧ mode = Site.newFileMode
  /-- Every text that led to another place still leads to what it led to. -/
  found : ∀ s reached, request.site.locate true s = .ok reached → reached ≠ place →
    (run kit request).site.status s = request.site.status s

variable {kit : Toolkit} {request : Request} {parameters : Parameters} {plan : Plan} {destination : Destination}
  {document : Text} {place : Place} {mode : Nat}

/-! ## Runs that write nothing -/

section

variable [Memory]

/-- A run whose arguments give no parameters changes nothing. -/
theorem site_run_of_unparsed (h : ∀ parameters, request.parsed kit ≠ .parameters parameters) :
    (run kit request).site = request.site := by
  unfold run
  split
  · rfl
  · rfl
  · next parameters hparsed => exact absurd hparsed (h parameters)

theorem site_run_of_plan_eq_error {stop : Stop} (hparsed : request.parsed kit = .parameters parameters)
    (h : Command.plan request.site request.environment parameters = .error stop) :
    (run kit request).site = request.site := by
  rw [run_of_parsed hparsed, convert, h]
  exact site_halt ..

/-- A run that is to print the document changes nothing. -/
theorem site_run_of_printed (hkit : kit.Documented) (hp : Prepared kit request parameters plan)
    (hd : plan.destination? = none) : (run kit request).site = request.site := by
  by_cases hend : (run kit request).ending = .exit 0
  · obtain ⟨printed, -, document, output, -, hdelivered, -⟩ := exists_of_run hkit hp hend
    rw [hd, deliver] at hdelivered
    split at hdelivered
    · exact (congrArg Prod.fst (Except.ok.inj hdelivered)).symm
    · cases hdelivered
  · exact site_run_of_ne_exit_zero hend

/-- Without an option for it, nothing is written. -/
theorem site_run_of_no_output (hkit : kit.Documented) (hparsed : request.parsed kit = .parameters parameters)
    (houtput : parameters.output? = none) : (run kit request).site = request.site := by
  cases hp : Command.plan request.site request.environment parameters with
  | error stop => exact site_run_of_plan_eq_error hparsed hp
  | ok plan =>
    have hplaced := (planned_of_eq_ok hp).placed
    rw [houtput] at hplaced
    exact site_run_of_printed hkit ⟨hparsed, hp⟩ (Except.ok.inj hplaced).symm

/-! ## Runs that write a document -/

/-- A run that is to write the document and ends well has written it. -/
theorem exists_of_written_run (hkit : kit.Documented) (hp : Prepared kit request parameters plan)
    (hd : plan.destination? = some destination) (hend : (run kit request).ending = .exit 0) :
    ∃ printed, consent kit request.input plan = .ok (printed, true) ∧ ∃ document,
      (NotesFile.convertChecked request.site plan.settings plan.notes).document = .ok document ∧
      request.site.write destination.path document = .ok (run kit request).site := by
  obtain ⟨printed, hconsent, document, output, hdocument, hdelivered, -⟩ := exists_of_run hkit hp hend
  refine ⟨printed, hconsent, document, hdocument, ?_⟩
  rw [hd, deliver] at hdelivered
  split at hdelivered
  · next written hwritten =>
    have hsite : written = (run kit request).site := congrArg Prod.fst (Except.ok.inj hdelivered)
    rw [hwritten, hsite]
  · cases hdelivered

end

/-- Something takes the place of a file only if the user agrees. -/
theorem agrees_of_occupied (hkit : kit.Documented) (hp : Prepared kit request parameters plan)
    (hd : plan.destination? = some destination) {printed : Text}
    (hconsent : consent kit request.input plan = .ok (printed, true)) {node : Node}
    (hn : request.site.status destination.path.text = .ok node) : Agrees request parameters := by
  obtain ⟨output, -, hdestination⟩ := (planned_of_eq_ok hp.planned).exists_output hd
  obtain ⟨path, occupied, -, -, -, hoccupied, hask⟩ := exists_of_destination hdestination
  rcases Site.has_cases hoccupied with ⟨found, -, rfl⟩ | ⟨⟨error, herror, -⟩, -⟩
  · by_cases hoverwrite : parameters.overwrite = true
    · exact .inl hoverwrite
    · refine .inr (agreed_of_consent hkit hd ?_ hconsent)
      rw [hask, Bool.eq_false_iff.2 hoverwrite]
      rfl
  · rw [hn] at herror
    cases herror

/-- A run that is to write the document and ends well changes one place, as its replacement by a hidden file says. -/
theorem exists_written [Memory] (hkit : kit.Documented) (hp : Prepared kit request parameters plan)
    (hd : plan.destination? = some destination) (hend : (run kit request).ending = .exit 0) :
    ∃ place document mode, Written kit request parameters plan destination place document mode := by
  obtain ⟨printed, hconsent, document, hdocument, hwrite⟩ := exists_of_written_run hkit hp hd hend
  obtain ⟨place, mode, hplace, hmode, hsite⟩ := Site.write_eq_ok hwrite
  have hne := Site.ne_nil_of_placeFor hplace
  have htree : (run kit request).site.tree = request.site.tree.put place (.file (Utf8.encode document) mode) :=
    congrArg Site.tree hsite
  refine ⟨place, document, mode, hdocument, hplace, ?_, ?_, ?_, ?_, ?_, ?_⟩
  · rw [htree, Tree.get?_put_self _ hne]
  · intro other hother
    rw [htree, Tree.get?_put _ _ _ _ hne, if_neg hother]
  · intro hidden hfree hother n
    split
    · next hn => exact Replacement.attempt_of_lt hfree place _ mode hn
    · next hn =>
      rw [htree]
      exact Replacement.attempt_of_le hfree hne hother _ mode (Nat.not_lt.1 hn)
  · intro bytes previous hstatus
    rcases Site.modeFor_cases hmode with ⟨bytes', hstatus'⟩ | ⟨⟨error, herror, -⟩, -⟩
    · rw [hstatus] at hstatus'
      cases hstatus'
      rfl
    · rw [hstatus] at herror
      cases herror
  · intro error herror
    rcases Site.modeFor_cases hmode with ⟨bytes, hstatus⟩ | ⟨-, hnew⟩
    · rw [herror] at hstatus
      cases hstatus
    · exact hnew
  · exact fun node hn => agrees_of_occupied hkit hp hd hconsent hn

/-! ## Notes -/

theorem exists_of_findNotes {site : Site} {s : Text} {notes : Path} (h : site.findNotes s = .ok notes) :
    ∃ path, site.expand (.parse s) = .ok path ∧ site.resolve true path = .ok notes ∧
      site.has Node.isFile notes.text = .ok true := by
  unfold Site.findNotes at h
  split at h
  · cases h
  · next path hpath =>
    split at h
    · cases h
    · cases h
    · next resolved hresolved =>
      split at h
      · cases h
      · next regular hregular =>
        split at h
        · next hr =>
          cases h
          exact ⟨path, hpath, hresolved, hr ▸ hregular⟩
        · cases h

/-- The path of the notes leads along no link to a file at the place that its names say. -/
theorem notes_of_findNotes {site : Site} (hs : site.Proper) {s : Text} {notes : Path}
    (h : site.findNotes s = .ok notes) :
    site.Direct notes ∧ site.locate true notes.text = .ok notes.names ∧
      ∃ bytes mode, site.tree.get? notes.names = some (.file bytes mode) := by
  obtain ⟨path, -, hresolved, hregular⟩ := exists_of_findNotes h
  have hdirect := hs.direct_of_resolve hresolved (.inl rfl)
  rcases Site.has_cases hregular with ⟨node, hnode, hfile⟩ | ⟨-, hfalse⟩
  · obtain ⟨reached, hreached, hget⟩ := Site.exists_locate_of_look hnode
    obtain rfl := hdirect.eq_of_locate hs hreached
    cases node with
    | file bytes mode => exact ⟨hdirect, hreached, bytes, mode, hget⟩
    | _ => cases hfile
  · cases hfalse

theorem direct_notes (hs : request.site.Proper) (hp : Prepared kit request parameters plan) :
    request.site.Direct plan.notes ∧ request.site.locate true plan.notes.text = .ok plan.notes.names := by
  obtain ⟨hdirect, hlocate, -⟩ := notes_of_findNotes hs (planned_of_eq_ok hp.planned).notes
  exact ⟨hdirect, hlocate⟩

/-- If the path of the output can be resolved as a whole, it leads along no link to another place than the notes. -/
theorem direct_output (hs : request.site.Proper) (hstraight : IsStraight request.site parameters)
    (hp : Prepared kit request parameters plan) (hd : plan.destination? = some destination) :
    request.site.Direct destination.path ∧ destination.path.names ≠ plan.notes.names := by
  obtain ⟨output, houtput, hdestination⟩ := (planned_of_eq_ok hp.planned).exists_output hd
  obtain ⟨path, occupied, hpath, hresolved, hne, -, -⟩ := exists_of_destination hdestination
  have hdirect := hs.direct_of_resolve hresolved (.inr (hstraight output path houtput hpath))
  refine ⟨hdirect, fun hnames => hne ?_⟩
  have hroot : destination.path.root = plan.notes.root :=
    hdirect.root_eq.trans (direct_notes hs hp).1.root_eq.symm
  cases hleft : destination.path
  cases hright : plan.notes
  rw [hleft, hright] at hnames hroot
  cases hnames
  cases hroot
  rfl

/-- If the path of the output can be resolved as a whole, nothing else is damaged. -/
theorem Written.spared [Memory] (hkit : kit.Documented) (hs : request.site.Proper)
    (hstraight : IsStraight request.site parameters) (hp : Prepared kit request parameters plan)
    (hd : plan.destination? = some destination) (hend : (run kit request).ending = .exit 0)
    (hw : Written kit request parameters plan destination place document mode) :
    Spared kit request parameters destination place mode := by
  obtain ⟨hdirect, -⟩ := direct_output hs hstraight hp hd
  obtain rfl := hdirect.placeFor_eq hs hw.located
  obtain ⟨printed, -, document', -, hwrite⟩ := exists_of_written_run hkit hp hd hend
  obtain ⟨mode', hplace, hsite, hbefore⟩ := hdirect.write_cases hs hwrite
  have hne := Site.ne_nil_of_placeFor hplace
  have hmode : mode' = mode := by
    have hholds := hw.holds
    rw [hsite, Tree.get?_put_self _ hne] at hholds
    exact (Node.file.inj (Option.some.inj hholds)).2
  subst hmode
  refine ⟨rfl, ?_, fun s reached hreached hother => ?_⟩
  · rcases hbefore with ⟨bytes, hstatus, hfile⟩ | hnew
    · exact .inl ⟨⟨bytes, hfile⟩, hw.agreed _ hstatus⟩
    · exact .inr hnew
  · rw [hsite]
    refine Site.status_put hne (fun node hnode => ?_) _ _ hreached hother
    rcases hbefore with ⟨bytes, -, hfile⟩ | ⟨hnone, -⟩
    · rw [hnode] at hfile
      cases hfile
      rfl
    · rw [hnode] at hnone
      cases hnone

/-- The notes keep their bytes and their permissions. -/
theorem status_notes [Memory] (hkit : kit.Documented) (hs : request.site.Proper)
    (hstraight : IsStraight request.site parameters) (hp : Prepared kit request parameters plan) :
    (run kit request).site.status plan.notes.text = request.site.status plan.notes.text := by
  cases hd : plan.destination? with
  | none => rw [site_run_of_printed hkit hp hd]
  | some destination =>
    by_cases hend : (run kit request).ending = .exit 0
    · obtain ⟨place, document, mode, hw⟩ := exists_written hkit hp hd hend
      have hspared := hw.spared hkit hs hstraight hp hd hend
      refine hspared.found _ _ (direct_notes hs hp).2 ?_
      rw [hspared.place_eq]
      exact Ne.symm (direct_output hs hstraight hp hd).2
    · rw [site_run_of_ne_exit_zero hend]

/-- **The command damages no files**, unless the path of its output runs through a circle of links. A run that does not
end well changes nothing, nor does one that has no parameters or no plan or is to print the document; any other changes
one place at most, which then holds the document with the permissions of the file that was there or those of a new one,
and what was there is replaced only if the user agrees. The notes stay as they are. -/
theorem run_changes [Memory] {kit : Toolkit} (hkit : kit.Documented) (hs : request.site.Proper) :
    ((run kit request).ending ≠ .exit 0 → (run kit request).site = request.site) ∧
      ((∀ parameters, request.parsed kit ≠ .parameters parameters) → (run kit request).site = request.site) ∧
      ∀ parameters, request.parsed kit = .parameters parameters →
        (parameters.output? = none → (run kit request).site = request.site) ∧
        (∀ stop, Command.plan request.site request.environment parameters = .error stop →
          (run kit request).site = request.site) ∧
        ∀ plan, Command.plan request.site request.environment parameters = .ok plan →
          (IsStraight request.site parameters →
            (run kit request).site.status plan.notes.text = request.site.status plan.notes.text) ∧
          ∀ destination, plan.destination? = some destination → (run kit request).ending = .exit 0 →
            ∃ place document mode, Written kit request parameters plan destination place document mode ∧
              (IsStraight request.site parameters → Spared kit request parameters destination place mode) := by
  refine ⟨site_run_of_ne_exit_zero, site_run_of_unparsed, fun parameters hparsed => ⟨?_, ?_, fun plan hplan => ?_⟩⟩
  · exact site_run_of_no_output hkit hparsed
  · exact fun stop => site_run_of_plan_eq_error hparsed
  · have hp : Prepared kit request parameters plan := ⟨hparsed, hplan⟩
    refine ⟨fun hstraight => status_notes hkit hs hstraight hp, fun destination hd hend => ?_⟩
    obtain ⟨place, document, mode, hw⟩ := exists_written hkit hp hd hend
    exact ⟨place, document, mode, hw, fun hstraight => hw.spared hkit hs hstraight hp hd hend⟩

/-- Notes, an output, a link that leads to itself and one to the directory that it is in. -/
def smallSite : Site where
  tree := ⟨[(["in.sd".toList], .file (Utf8.encode "Hello".toList) 0o644), (["out".toList], .file [] 0o600),
    (["a".toList], .link "a".toList), (["l".toList], .link ".".toList)]⟩
  directory := []
  home := "/".toList
  homes := []
  system := .free

/-- The notes of that site with an output. -/
def smallParameters (output : Text) (overwrite : Bool) : Parameters :=
  ⟨"in.sd".toList, some output, overwrite, none, none, none, false⟩

/-- All that such a plan depends on is where the document goes. -/
theorem plan_smallSite (output : Text) (overwrite : Bool) :
    Command.plan smallSite [] (smallParameters output overwrite) =
      (destination? smallSite ⟨.top, ["in.sd".toList]⟩ overwrite (some output)).map fun place =>
        ⟨⟨.top, ["in.sd".toList]⟩, .default, place⟩ := by
  have hnotes : smallSite.findNotes "in.sd".toList = .ok ⟨.top, ["in.sd".toList]⟩ := by cbv
  have hfound : smallSite.buildSettings (⟨.top, ["in.sd".toList]⟩ : Path).parent
      (changes (smallParameters output overwrite)) = .ok .default := by
    have hchanges : changes (smallParameters output overwrite) = [] := rfl
    rw [hchanges]
    cbv
  have hlimited : Settings.default.limitedBy [] = .ok .default := rfl
  have hsize : smallSite.sizeWithin ⟨.top, ["in.sd".toList]⟩ Settings.default.maxFileSize = .ok 5 := by cbv
  unfold smallParameters at hfound
  unfold Command.plan smallParameters
  simp only [mapError_ok, bind, Except.bind, hnotes, hfound, hlimited, hsize]
  cases destination? smallSite ⟨.top, ["in.sd".toList]⟩ overwrite (some output) <;> rfl

theorem exists_smallSite_document : ∃ document,
    (NotesFile.convertChecked smallSite .default ⟨.top, ["in.sd".toList]⟩).document = .ok document ∧
      Utf8.encode document ≠ Utf8.encode "Hello".toList := by
  have hread : smallSite.readText ⟨.top, ["in.sd".toList]⟩ = .ok "Hello".toList := by cbv
  have hdiffer : ((Document.convertLines .default (Document.lines "Hello".toList)).document.toOption.map
      fun document => decide (Utf8.encode document ≠ Utf8.encode "Hello".toList)) = some true := by decide +kernel
  unfold NotesFile.convertChecked
  rw [hread]
  dsimp only
  cases hd : (Document.convertLines .default (Document.lines "Hello".toList)).document with
  | error failure =>
    rw [hd] at hdiffer
    cases hdiffer
  | ok document =>
    rw [hd] at hdiffer
    exact ⟨document, rfl, of_decide_eq_true (Option.some.inj hdiffer)⟩

/-- A request about that site, of the toolkit of the program. -/
def smallRequest (arguments : List Text) (input : Text) : Request := ⟨smallSite, [], arguments, input⟩

theorem parsed_smallRequest {arguments : List Text} {invocation : Program.Invocation}
    (hread : Program.Invocation.read arguments = .ok invocation) (hanswer : Program.answer? invocation = none)
    (hoperands : invocation.operands = ["in.sd".toList])
    (houtput : Program.checkOutput smallSite (invocation.value? .output) = .ok ()) (input : Text) :
    (smallRequest arguments input).parsed Program.toolkit =
      .parameters ⟨"in.sd".toList, invocation.value? .output, invocation.has .overwrite, invocation.value? .title,
        invocation.value? .author, invocation.value? .date, invocation.has .strict⟩ := by
  have hnotes : Program.checkOperands smallSite invocation.operands = .ok "in.sd".toList := by
    rw [hoperands]
    cbv
  exact Program.parse_of_read hread hanswer houtput hnotes

theorem prepared_smallSite (input : Text) :
    Prepared Program.toolkit (smallRequest ["in.sd".toList, "-o".toList, "out".toList] input)
      (smallParameters "out".toList false)
      ⟨⟨.top, ["in.sd".toList]⟩, .default, some ⟨⟨.top, ["out".toList]⟩, true⟩⟩ where
  parsed := by
    have hread : Program.Invocation.read ["in.sd".toList, "-o".toList, "out".toList] =
        .ok ⟨[⟨.output, some "out".toList⟩], ["in.sd".toList]⟩ := rfl
    exact parsed_smallRequest hread rfl rfl (by cbv) input
  planned := by
    have hplaced : destination? smallSite ⟨.top, ["in.sd".toList]⟩ false (some "out".toList) =
        .ok (some ⟨⟨.top, ["out".toList]⟩, true⟩) := by cbv
    exact (plan_smallSite _ _).trans (congrArg _ hplaced)

/-- A reply lets the document take the place of a file. -/
theorem run_changes_replied :
    let request : Request := smallRequest ["in.sd".toList, "-o".toList, "out".toList] "y\n".toList
    let parameters := smallParameters "out".toList false
    Program.toolkit.Documented ∧ request.site.Proper ∧ IsStraight request.site parameters ∧
      (run Program.toolkit request).ending = .exit 0 ∧
      ∃ plan destination, Prepared Program.toolkit request parameters plan ∧ plan.destination? = some destination ∧
        (run Program.toolkit request).site.status plan.notes.text = request.site.status plan.notes.text ∧
        ∃ place document, Written Program.toolkit request parameters plan destination place document 0o600 ∧
          Spared Program.toolkit request parameters destination place 0o600 := by
  intro request parameters
  have hkit := Program.documented_toolkit
  have hs : request.site.Proper := by decide +kernel
  have hp : Prepared Program.toolkit request parameters _ := prepared_smallSite "y\n".toList
  have hstraight : IsStraight request.site parameters := by
    intro output path houtput hpath
    obtain rfl : "out".toList = output := Option.some.inj houtput
    obtain rfl : (⟨.here, ["out".toList]⟩ : Path) = path := Except.ok.inj hpath
    cbv
  obtain ⟨printed, hconsent⟩ : ∃ printed, Program.toolkit.confirm (question ⟨.top, ["out".toList]⟩) "y\n".toList =
      .ok (printed, true) := ⟨_, by cbv⟩
  obtain ⟨document, hdocument, -⟩ := exists_smallSite_document
  have hhidden : request.site.hiddenError? ⟨.top, ["out".toList]⟩ document = none :=
    Site.hiddenError?_of_free rfl (by decide) document
  have hmode : request.site.modeFor ⟨.top, ["out".toList]⟩ = .ok 0o600 := by cbv
  have hplace : request.site.placeFor ⟨.top, ["out".toList]⟩ = .ok ["out".toList] := by cbv
  have hwrite := Site.write_of_placeFor (by cbv) hmode hhidden hplace
  have hend := (run_of_deliver hp hconsent hdocument (deliver_of_write hwrite)).2
  obtain ⟨-, -, hchanges⟩ := run_changes hkit hs
  obtain ⟨hnotes, hwritten⟩ := (hchanges _ hp.parsed).2.2 _ hp.planned
  obtain ⟨place, document, mode, hw, hspared⟩ := hwritten _ rfl hend
  have hbefore : request.site.status "/out".toList = .ok (.file [] 0o600) := by cbv
  obtain rfl : mode = 0o600 := hw.kept _ _ hbefore
  exact ⟨hkit, hs, hstraight, hend, _, _, hp, rfl, hnotes hstraight, place, document, hw, hspared hstraight⟩

/-- A link that leads to itself hides that the path of the output leads to the notes. -/
theorem not_status_notes : ¬ ∀ (kit : Toolkit) (request : Request) (parameters : Parameters) (plan : Plan),
    kit.Documented → request.site.Proper → (∀ argument ∈ request.arguments, '\x00' ∉ argument) →
    Prepared kit request parameters plan →
    (run kit request).site.status plan.notes.text = request.site.status plan.notes.text := by
  intro h
  have hplaced : destination? smallSite ⟨.top, ["in.sd".toList]⟩ true (some "a/../l/in.sd".toList) =
      .ok (some ⟨⟨.top, ["l".toList, "in.sd".toList]⟩, false⟩) := by cbv
  have hread : Program.Invocation.read ["in.sd".toList, "-w".toList, "-o".toList, "a/../l/in.sd".toList] =
      .ok ⟨[⟨.overwrite, none⟩, ⟨.output, some "a/../l/in.sd".toList⟩], ["in.sd".toList]⟩ := rfl
  have hp : Prepared Program.toolkit
      (smallRequest ["in.sd".toList, "-w".toList, "-o".toList, "a/../l/in.sd".toList] [])
      (smallParameters "a/../l/in.sd".toList true) _ :=
    ⟨parsed_smallRequest hread rfl rfl (by cbv) [], (plan_smallSite _ _).trans (congrArg _ hplaced)⟩
  obtain ⟨document, hdocument, hdiffer⟩ := exists_smallSite_document
  have hhidden : smallSite.hiddenError? ⟨.top, ["l".toList, "in.sd".toList]⟩ document = none :=
    Site.hiddenError?_of_free rfl (by decide) document
  have hmode : smallSite.modeFor ⟨.top, ["l".toList, "in.sd".toList]⟩ = .ok 0o644 := by cbv
  have hplace : smallSite.placeFor ⟨.top, ["l".toList, "in.sd".toList]⟩ = .ok ["in.sd".toList] := by cbv
  have hwrite := Site.write_of_placeFor (by cbv) hmode hhidden hplace
  have hsame := h _ _ _ _ Program.documented_toolkit (by decide +kernel) (by decide) hp
  rw [(run_of_deliver hp rfl hdocument (deliver_of_write hwrite)).1] at hsame
  have hbefore : smallSite.status "/in.sd".toList = .ok (.file (Utf8.encode "Hello".toList) 0o644) := by cbv
  have hafter : ({ smallSite with tree := smallSite.tree.put ["in.sd".toList] (.file (Utf8.encode document) 0o644) } :
      Site).status "/in.sd".toList = .ok (.file (Utf8.encode document) 0o644) := by cbv
  have hequal := hafter.symm.trans (hsame.trans hbefore)
  exact hdiffer (Node.file.inj (Except.ok.inj hequal)).1

end Lectern.Command
