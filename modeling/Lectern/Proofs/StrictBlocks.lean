import Lectern.Proofs.Outcomes

/-!
# Strict blocks

Strict settings change one thing: a block that is open at the end is an error instead of a warning. No line is fed
differently (`Document.feedAll_withStrict`), so a strict conversion reaches the end of the lines with the converter that
a lenient one reaches it with, and what is left to compare is how the two close it (`Document.tightened_assemble`).
**`Document.convert_strict`** says what this comes to for whole documents.
-/

set_option autoImplicit false

namespace Lectern

/-- The settings with another word on open blocks. -/
def Settings.withStrict (strict : Bool) (settings : Settings) : Settings := { settings with strictBlocks := strict }

/-- A warning tells which block is open. -/
theorem Block.eq_of_warning_eq {block other : Block} (h : block.warning = other.warning) : block = other := by
  revert h
  cases block <;> cases other <;> decide

/-! ## Settings -/

namespace RawSettings

section Strict

variable (raw : RawSettings) (strict : Bool)

/-- The settings with another word on open blocks, not yet checked. -/
def withStrict : RawSettings := raw.set .strictBlocks (.bool strict)

theorem withStrict_of_ne {setting : Setting} (h : setting ≠ .strictBlocks) :
    raw.withStrict strict setting = raw setting :=
  if_neg h

theorem text_withStrict {setting : Setting} (h : setting ≠ .strictBlocks) :
    (raw.withStrict strict).text setting = raw.text setting := by
  rw [text, text, withStrict_of_ne raw strict h]

theorem int_withStrict {setting : Setting} (h : setting ≠ .strictBlocks) :
    (raw.withStrict strict).int setting = raw.int setting := by
  rw [int, int, withStrict_of_ne raw strict h]

theorem packages_withStrict : (raw.withStrict strict).packages = raw.packages := by
  rw [packages, packages, withStrict_of_ne raw strict (by decide)]

theorem bool_withStrict : (raw.withStrict strict).bool .strictBlocks = .ok strict := rfl

/-- Whether settings pass the check does not hang on their word on open blocks, and no other one of them does. -/
theorem check_withStrict :
    (raw.withStrict strict).check = (raw.withStrict false).check.map (Settings.withStrict strict) := by
  show _ = Settings.withStrict strict <$> (raw.withStrict false).check
  unfold check
  simp only [text_withStrict raw _ (show Setting.title ≠ .strictBlocks by decide),
    text_withStrict raw _ (show Setting.author ≠ .strictBlocks by decide),
    text_withStrict raw _ (show Setting.date ≠ .strictBlocks by decide),
    text_withStrict raw _ (show Setting.documentClass ≠ .strictBlocks by decide),
    text_withStrict raw _ (show Setting.classOptions ≠ .strictBlocks by decide),
    int_withStrict raw _ (show Setting.indentWidth ≠ .strictBlocks by decide),
    int_withStrict raw _ (show Setting.maxFileSize ≠ .strictBlocks by decide),
    int_withStrict raw _ (show Setting.maxLineLength ≠ .strictBlocks by decide),
    packages_withStrict, bool_withStrict, map_bind, map_pure]
  rfl

end Strict

end RawSettings

/-! ## Converters -/

namespace Converter

variable {converter : Converter}

/-- The converter with another word on open blocks. -/
def withStrict (strict : Bool) (converter : Converter) : Converter :=
  { converter with settings := converter.settings.withStrict strict }

/-- A line is converted alike whatever the settings say of open blocks. -/
theorem headLine_withStrict [Memory] (strict : Bool) (line : Text) (converter : Converter) :
    (converter.withStrict strict).headLine line =
      ((converter.headLine line).1.withStrict strict, (converter.headLine line).2) := by
  have hread : (converter.withStrict strict).read line =
      ((converter.read line).1.withStrict strict, (converter.read line).2) := rfl
  cases hr : converter.read line with
  | mk reached result =>
    rw [hr] at hread
    cases result with
    | error failure => simp only [headLine, hr, hread]
    | ok tokens =>
      cases tokens with
      | nil => simp only [headLine, hr, hread]
      | cons t tokens =>
        by_cases hc : ∃ assignment, t = .command assignment
        · obtain ⟨assignment, rfl⟩ := hc
          simp only [headLine, hr, hread]
          rfl
        · have ht : ∀ assignment, t ≠ .command assignment := fun assignment he => hc ⟨assignment, he⟩
          rw [headLine_eq_write hr ht, headLine_eq_write hread ht]
          rfl

theorem bodyLine_withStrict [Memory] (strict : Bool) (line : Text) (converter : Converter) :
    (converter.withStrict strict).bodyLine line =
      ((converter.bodyLine line).1.withStrict strict, (converter.bodyLine line).2) := by
  cases hr : readLine converter.progress.mode line with
  | mk mode tokens =>
    cases tokens with
    | error unknown => simp only [bodyLine, read, withStrict, hr]; rfl
    | ok tokens => simp only [bodyLine, read, withStrict, hr]; rfl

theorem contentLine_withStrict [Memory] (strict : Bool) (content : Text) (converter : Converter) :
    (converter.withStrict strict).contentLine content =
      ((converter.contentLine content).1.withStrict strict, (converter.contentLine content).2) := by
  have hhead : (converter.withStrict strict).progress.mode.head = converter.progress.mode.head := rfl
  unfold contentLine
  rw [hhead]
  split
  · exact headLine_withStrict strict content converter
  · rw [bodyLine_withStrict]

theorem closeParts_withStrict (strict : Bool) (converter : Converter) :
    (converter.withStrict strict).closeParts = converter.closeParts := rfl

variable [Memory]

theorem Sound.withStrict (hs : converter.Sound) (strict : Bool) : (converter.withStrict strict).Sound :=
  ⟨hs.coherent, hs.outermost⟩

/-- A lenient end comes with a warning for each open block. -/
theorem Sound.close_lenient (hs : converter.Sound) :
    (converter.withStrict false).close.2 =
      ⟨converter.progress.mode.openBlocks.map Block.warning, .ok (Part.printAll converter.closeParts)⟩ :=
  (hs.withStrict false).close_eq

/-- A strict end is that of the first open block, if there is one. -/
theorem Sound.close_strict (hs : converter.Sound) :
    (converter.withStrict true).close.2 =
      match converter.progress.mode.openBlocks with
      | block :: _ => ⟨[], .error (.unterminated block)⟩
      | [] => ⟨[], .ok (Part.printAll converter.closeParts)⟩ := by
  have hclose := (hs.withStrict true).close_eq
  have hmode : (converter.withStrict true).progress.mode.openBlocks = converter.progress.mode.openBlocks := rfl
  rw [hclose, hmode, closeParts_withStrict]
  cases converter.progress.mode.openBlocks <;> rfl

end Converter

/-! ## Documents -/

namespace Document

variable {settings : Settings} {lines : List Text} {converter : Converter}

theorem feed_withStrict [Memory] (strict : Bool) (line : Text) (converter : Converter) :
    feed line (converter.withStrict strict) = ((feed line converter).1.withStrict strict, (feed line converter).2) := by
  have hhead : (converter.withStrict strict).progress.mode.head = converter.progress.mode.head := rfl
  unfold feed
  rw [hhead]
  split
  · rw [Converter.headLine_withStrict]
    rfl
  · simp only [Converter.line, Converter.contentLine_withStrict]
    rfl

/-- Lines are fed alike whatever the settings say of open blocks. -/
theorem feedAll_withStrict [Memory] (strict : Bool) (lines : List Text) (converter : Converter) :
    feedAll lines (converter.withStrict strict) =
      ((feedAll lines converter).1.withStrict strict, (feedAll lines converter).2) := by
  induction lines generalizing converter with
  | nil => rfl
  | cons line lines ih =>
    have hfeed := feed_withStrict strict line converter
    cases hf : (feed line converter).2 with
    | error failure =>
      rw [feedAll_cons_of_error hf, feedAll_cons_of_error (by rw [hfeed, hf]), hfeed]
    | ok text =>
      rw [feedAll_cons_of_ok hf, feedAll_cons_of_ok (by rw [hfeed, hf]), hfeed, ih]

theorem start_withStrict (strict : Bool) (settings : Settings) (lines : List Text) :
    start (settings.withStrict strict) lines = (start settings lines).withStrict strict := by
  unfold start
  split <;> rfl

/-- What strict settings make of an outcome: it is the same if it has no warnings, and otherwise an error in the place
of the first of them. -/
inductive Tightened : Outcome → Outcome → Prop
  | same (document : Except Failure Text) : (∀ block, document ≠ .error (.conversion (.unterminated block))) →
      Tightened ⟨[], document⟩ ⟨[], document⟩
  | raised (block : Block) (blocks : List Block) (text : Text) :
      Tightened ⟨[], .error (.conversion (.unterminated block))⟩ ⟨(block :: blocks).map Block.warning, .ok text⟩

theorem preamble_close (strict : Bool) (converter : Converter) :
    (converter.withStrict strict).close.1.preamble = converter.preamble := rfl

/-- Of a document that ends in both ways, strict settings leave the one without open blocks. -/
theorem tightened_assemble [Memory] (hs : converter.Sound) (texts : List Text) :
    Tightened (assemble (converter.withStrict true).close.1 texts (converter.withStrict true).close.2)
      (assemble (converter.withStrict false).close.1 texts (converter.withStrict false).close.2) := by
  simp only [assemble, preamble_close, hs.close_lenient, hs.close_strict]
  cases converter.progress.mode.openBlocks with
  | nil => exact .same _ fun block he => nomatch he
  | cons block blocks => exact .raised block blocks _

/-- Lines that are too long or cannot be indented fail alike; all others reach their end. -/
theorem tightened_convertLines [Memory] (settings : Settings) (hl : ∀ line ∈ lines, '\n' ∉ line) :
    Tightened (convertLines (settings.withStrict true) lines) (convertLines (settings.withStrict false) lines) := by
  have hlimit : ∀ strict, (settings.withStrict strict).maxLineLength = settings.maxLineLength := fun _ => rfl
  have hsound := (ready_start settings lines).sound
  simp only [convertLines, hlimit, start_withStrict, feedAll_withStrict]
  split
  · exact .same _ fun block he => nomatch he
  · cases hf : feedAll lines (start settings lines) with
    | mk behind result =>
      cases result with
      | error failure =>
        obtain ⟨reason, depth, rfl, -⟩ := unindentable_of_feedAll hsound (congrArg Prod.snd hf)
        exact .same _ fun block he => nomatch he
      | ok texts =>
        have hbehind := (sound_feedAll hl hsound (congrArg Prod.snd hf)).1
        rw [hf] at hbehind
        exact tightened_assemble hbehind texts

theorem tightened_convert [Memory] (raw : RawSettings) (content : Text) :
    Tightened (convert (raw.withStrict true) content) (convert (raw.withStrict false) content) := by
  have hstrict := raw.check_withStrict true
  unfold convert
  cases hc : (raw.withStrict false).check with
  | error failure =>
    rw [hc] at hstrict
    rw [hstrict]
    exact .same _ fun block he => nomatch he
  | ok settings =>
    have hlenient := raw.check_withStrict false
    rw [hc] at hstrict hlenient
    have hsame : settings.withStrict false = settings := (Except.ok.inj hlenient).symm
    have hl : ∀ line ∈ lines content, '\n' ∉ line := fun line hline => not_mem_of_mem_lines hline
    have htightened := tightened_convertLines settings hl
    rw [hsame] at htightened
    rw [hstrict]
    exact htightened

namespace Tightened

variable {strict lenient : Outcome}

theorem warnings_eq_nil (h : Tightened strict lenient) : strict.warnings = [] := by
  cases h <;> rfl

theorem unterminated_iff (h : Tightened strict lenient) (block : Block) :
    strict.document = .error (.conversion (.unterminated block)) ↔ lenient.warnings.head? = some block.warning := by
  cases h with
  | same document hd => exact iff_of_false (hd block) fun he => nomatch he
  | raised first blocks text =>
    constructor
    · intro he
      cases he
      rfl
    · intro he
      have hname : first = block := Block.eq_of_warning_eq (Option.some.inj he)
      rw [hname]

theorem raised_iff (h : Tightened strict lenient) :
    (∃ block, strict.document = .error (.conversion (.unterminated block))) ↔ lenient.warnings ≠ [] := by
  cases h with
  | same document hd => exact iff_of_false (fun ⟨block, he⟩ => hd block he) fun hne => hne rfl
  | raised block blocks text => exact iff_of_true ⟨block, rfl⟩ fun he => nomatch he

theorem document_eq (h : Tightened strict lenient)
    (hd : ∀ block, strict.document ≠ .error (.conversion (.unterminated block))) :
    strict.document = lenient.document := by
  cases h with
  | same document => rfl
  | raised block blocks text => exact absurd rfl (hd block)

end Tightened

/-- **Strictness only adds an error.** Two conversions of the same notes are compared, the settings of which differ in
their word on open blocks at most. The strict one fails for an open block if and only if the lenient one warns, and the
block is that of the first warning. In all other cases the two give the same document or fail alike. The strict one
never warns. -/
theorem convert_strict [Memory] (raw : RawSettings) (content : Text) :
    let strict := convert (raw.set .strictBlocks (.bool true)) content
    let lenient := convert (raw.set .strictBlocks (.bool false)) content
    ((∃ block, strict.document = .error (.conversion (.unterminated block))) ↔ lenient.warnings ≠ []) ∧
    (∀ block, strict.document = .error (.conversion (.unterminated block)) ↔
      lenient.warnings.head? = some block.warning) ∧
    ((∀ block, strict.document ≠ .error (.conversion (.unterminated block))) → strict.document = lenient.document) ∧
    strict.warnings = [] := by
  intro strict lenient
  have h : Tightened strict lenient := tightened_convert raw content
  exact ⟨h.raised_iff, h.unterminated_iff, h.document_eq, h.warnings_eq_nil⟩

/-- A fence that is left open in a math block gives two warnings and one error. -/
example : (convert (RawSettings.default.set .strictBlocks (.bool false)) "$$\n```".toList).warnings =
      [Block.verbatim.warning, Block.math.warning] ∧
    (convert (RawSettings.default.set .strictBlocks (.bool true)) "$$\n```".toList).document.toOption = none := by
  decide +kernel

end Document

end Lectern
