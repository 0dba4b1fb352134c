import Lectern.Program.Toolkit
import Lectern.Proofs.Attempts

/-!
# The toolkit of the program

Telling options and operands apart brings no characters in: the values of options and the operands are made of what
stands in the arguments (`Invocation.lacks_of_read`). An argument that is no path is therefore told for a character in
it, and the other promises of a toolkit are kept too (**`documented_toolkit`**).
-/

set_option autoImplicit false

namespace Lectern.Program

/-- A character does not stand in the value of an option. -/
def Given.Lacks (c : Char) (given : Given) : Prop := ∀ value, given.value? = some value → c ∉ value

namespace Word

variable {c : Char} {s : Text} {word : Word}

theorem lacks_of_ofLong {switch : Switch} {name : Text} {value? : Option Text}
    (hv : ∀ value, value? = some value → c ∉ value) (h : ofLong switch name value? = .ok word) :
    ∀ given ∈ word.given, given.Lacks c := by
  unfold ofLong at h
  split at h
  · cases h
    exact fun given hm => absurd hm List.not_mem_nil
  · cases h
  · cases h
    intro given hm
    rw [List.mem_singleton.1 hm]
    exact hv

theorem lacks_of_ofLetters (hs : c ∉ s) (h : ofLetters s = .ok word) : ∀ given ∈ word.given, given.Lacks c := by
  induction s generalizing word with
  | nil =>
    cases h
    exact fun given hm => absurd hm List.not_mem_nil
  | cons d s ih =>
    rw [List.mem_cons, not_or] at hs
    rw [ofLetters] at h
    split at h
    · cases h
    · next switch hswitch =>
      split at h
      · split at h
        · cases h
          exact fun given hm => absurd hm List.not_mem_nil
        · cases h
          intro given hm
          rw [List.mem_singleton.1 hm]
          rintro value ⟨rfl⟩
          exact hs.2
      · obtain ⟨inner, hinner, rfl⟩ := exists_of_map_eq_ok h
        intro given hm
        rcases List.mem_cons.1 hm with rfl | hm
        · exact fun value hv => by cases hv
        · exact ih hs.2 hinner given hm

/-- The values of options stand in the word. -/
theorem lacks_of_read (hs : c ∉ s) (h : read s = .ok word) : ∀ given ∈ word.given, given.Lacks c := by
  have htail : c ∉ s.tail := fun hm => hs (List.mem_of_mem_tail hm)
  unfold read at h
  split at h
  next name value? hsplit =>
  have hvalue : ∀ value, value? = some value → c ∉ value := by
    rintro value rfl
    split at hsplit
    · next before rest hat =>
      cases hsplit
      rw [Text.splitAt?_eq_some hat] at hs
      exact fun hm => hs (List.mem_append_right _ hm)
    · cases hsplit
  split at h
  · exact lacks_of_ofLong hvalue h
  · split at h
    · cases h
    · exact lacks_of_ofLetters htail h

end Word

namespace Invocation

variable {c : Char} {arguments : List Text} {invocation : Invocation}

/-- The values of options and the operands stand in the arguments. -/
theorem lacks_of_read (ha : ∀ argument ∈ arguments, c ∉ argument) (h : read arguments = .ok invocation) :
    (∀ given ∈ invocation.given, given.Lacks c) ∧ ∀ s ∈ invocation.operands, c ∉ s := by
  fun_induction read arguments generalizing invocation with
  | case1 =>
    cases h
    exact ⟨fun given hm => absurd hm List.not_mem_nil, fun s hm => absurd hm List.not_mem_nil⟩
  | case2 words =>
    cases h
    exact ⟨fun given hm => absurd hm List.not_mem_nil, (List.forall_mem_cons.1 ha).2⟩
  | case4 word words hend hoption given hword ih =>
    obtain ⟨hc, hrest⟩ := List.forall_mem_cons.1 ha
    obtain ⟨inner, hinner, rfl⟩ := exists_of_map_eq_ok h
    obtain ⟨hgiven, hoperands⟩ := ih hrest hinner
    refine ⟨fun other hm => ?_, hoperands⟩
    rcases List.mem_append.1 hm with hm | hm
    · exact Word.lacks_of_read hc hword other hm
    · exact hgiven other hm
  | case6 word hend hoption given switch name hword value words ih =>
    obtain ⟨hc, hrest⟩ := List.forall_mem_cons.1 ha
    obtain ⟨hvalue, hrest⟩ := List.forall_mem_cons.1 hrest
    obtain ⟨inner, hinner, rfl⟩ := exists_of_map_eq_ok h
    obtain ⟨hgiven, hoperands⟩ := ih hrest hinner
    refine ⟨fun other hm => ?_, hoperands⟩
    rcases List.mem_append.1 hm with hm | hm
    · exact Word.lacks_of_read hc hword other hm
    · rcases List.mem_cons.1 hm with rfl | hm
      · rintro value' ⟨rfl⟩
        exact hvalue
      · exact hgiven other hm
  | case7 word words hend hoption ih =>
    obtain ⟨hc, hrest⟩ := List.forall_mem_cons.1 ha
    obtain ⟨inner, hinner, rfl⟩ := exists_of_map_eq_ok h
    obtain ⟨hgiven, hoperands⟩ := ih hrest hinner
    exact ⟨hgiven, List.forall_mem_cons.2 ⟨hc, hoperands⟩⟩
  | _ => cases h

theorem not_mem_of_value? (h : ∀ given ∈ invocation.given, given.Lacks c) {switch : Switch} {value : Text}
    (hv : invocation.value? switch = some value) : c ∉ value := by
  obtain ⟨given, hm, hvalue⟩ := List.exists_of_findSome?_eq_some hv
  split at hvalue
  · exact h given (List.mem_reverse.1 hm) value hvalue
  · cases hvalue

end Invocation

/-! ## Messages -/

/-- Codes are left out behind a text without an escape character as they are without it. -/
theorem withoutCodes_append {front : Text} (h : '\x1B' ∉ front) (s : Text) :
    Text.withoutCodes (front ++ s) = front ++ Text.withoutCodes s := by
  induction front with
  | nil => rfl
  | cons c front ih =>
    rw [List.mem_cons, not_or] at h
    have hc : Text.afterCode? (c :: (front ++ s)) = none := by
      unfold Text.afterCode?
      split
      · next he => exact absurd (List.head_eq_of_cons_eq he).symm h.1
      · rfl
    rw [List.cons_append, Text.withoutCodes]
    split
    · next hs =>
      rw [hc] at hs
      cases hs
    · rw [ih h.2]
      rfl

theorem errorLine_ne_nil (message : Text) : errorLine message ≠ [] := by
  rw [errorLine, List.append_assoc, withoutCodes_append (by decide)]
  exact List.append_ne_nil_of_left_ne_nil (by decide) _

/-! ## Replies -/

/-- One who agrees has said yes. -/
theorem agreed_of_ask {question : Text} {replies : List Text} (h : (ask question replies).2 = true) :
    ∃ reply ∈ replies, saysYes reply = true := by
  induction replies with
  | nil => cases h
  | cons reply replies ih =>
    rw [ask] at h
    cases hm : meaning? reply with
    | none =>
      rw [hm] at h
      obtain ⟨other, hother, hyes⟩ := ih h
      exact ⟨other, List.mem_cons_of_mem _ hother, hyes⟩
    | some agreed =>
      rw [hm] at h
      obtain rfl : agreed = true := h
      refine ⟨reply, List.mem_cons_self, Classical.byContradiction fun hno => ?_⟩
      unfold meaning? at hm
      rw [if_neg hno] at hm
      split at hm <;> cases hm

/-! ## What arguments say -/

section Parse

variable {site : Site} {parameter : PathParameter} {s : Text} {parsed : Parsed}

/-- A path is not allowed because it is none, or for a problem that is told. -/
theorem cases_of_check (h : parameter.check site s = .error parsed) :
    (∃ reason, parsed = .unfit reason ∧ site.status s = .error (.unfit reason)) ∨
      ∃ error : ArgumentError, parsed = error.ended := by
  unfold PathParameter.check at h
  split at h
  · next reason hreason =>
    cases h
    refine .inl ⟨reason, rfl, ?_⟩
    unfold PathParameter.problem? at hreason
    split at hreason
    · next hstatus => rw [hstatus, Except.error.inj hreason]
    · cases hreason
    · cases hreason
  · cases h
    exact .inr ⟨_, rfl⟩
  · cases h

theorem status_of_check (hexists : parameter.mustExist = true) (h : parameter.check site s = .ok ()) :
    ∃ node, site.status s = .ok node ∧ node.isDirectory = false := by
  unfold PathParameter.check at h
  split at h
  · cases h
  · cases h
  · next hnone =>
    unfold PathParameter.problem? at hnone
    split at hnone
    · cases hnone
    · rw [hexists] at hnone
      cases hnone
    · next node hnode =>
      refine ⟨node, hnode, Bool.eq_false_iff.2 fun hdirectory => ?_⟩
      dsimp only at hnone
      rw [if_pos hdirectory] at hnone
      cases hnone

theorem mem_operands_of_checkOperands {operands : List Text} (h : checkOperands site operands = .ok s) :
    s ∈ operands ∧ notesParameter.check site s = .ok () := by
  unfold checkOperands at h
  split at h
  · cases h
  · obtain ⟨⟨⟩, hcheck, h⟩ := RawSettings.exists_of_bind_eq_ok h
    split at h
    · cases h
      exact ⟨List.mem_cons_self, hcheck⟩
    · cases h

theorem cases_of_checkOperands {operands : List Text} (h : checkOperands site operands = .error parsed) :
    (∃ s ∈ operands, ∃ reason, parsed = .unfit reason ∧ site.status s = .error (.unfit reason)) ∨
      ∃ error : ArgumentError, parsed = error.ended := by
  unfold checkOperands at h
  split at h
  · cases h
    exact .inr ⟨_, rfl⟩
  · next s extra =>
    rcases cases_of_bind_eq_error h with h | ⟨⟨⟩, -, h⟩
    · rcases cases_of_check h with ⟨reason, rfl, hstatus⟩ | herror
      · exact .inl ⟨s, List.mem_cons_self, reason, rfl, hstatus⟩
      · exact .inr herror
    · split at h
      · cases h
      · cases h
        exact .inr ⟨_, rfl⟩

/-- A text that is no path has a character that no path can hold. -/
theorem exists_of_status {reason : Unfit} (h : site.status s = .error (.unfit reason)) :
    ∃ c ∈ s, site.fits c = false := by
  refine Classical.byContradiction fun hnone => ?_
  have hfits : site.unfit? s = none := by
    refine Site.unfit?_eq_none_iff.2 fun c hc => Classical.byContradiction fun hne => ?_
    exact hnone ⟨c, hc, Bool.eq_false_iff.2 hne⟩
  unfold Site.status Site.look at h
  rcases cases_of_bind_eq_error h with h | ⟨place, -, h⟩
  · unfold Site.locate at h
    rw [hfits] at h
    obtain ⟨other, -, he⟩ := exists_of_mapError_eq_error h
    cases he
  · split at h <;> cases h

end Parse

variable {site : Site} {arguments : List Text}

/-- What arguments say is an answer, an error, or that one of the texts in them is no path. -/
theorem cases_of_parameters {parsed : Parsed} (h : parameters site arguments = .error parsed) :
    (∃ text, parsed = .ended 0 text []) ∨ (∃ error : ArgumentError, parsed = error.ended) ∨
      ∃ reason, parsed = .unfit reason ∧ ∃ argument ∈ arguments, ∃ c ∈ argument, site.fits c = false := by
  unfold parameters at h
  rcases cases_of_bind_eq_error h with h | ⟨invocation, hread, h⟩
  · obtain ⟨error, -, rfl⟩ := exists_of_mapError_eq_error h
    exact .inr (.inl ⟨_, rfl⟩)
  have hread := eq_ok_of_mapError_eq_ok hread
  -- characters that a path cannot hold come from the arguments
  have hfrom : ∀ {s : Text} {reason : Unfit}, site.status s = .error (.unfit reason) →
      (∀ c, (∀ argument ∈ arguments, c ∉ argument) → c ∉ s) →
      ∃ argument ∈ arguments, ∃ c ∈ argument, site.fits c = false := by
    intro s reason hstatus hlacks
    obtain ⟨c, hc, hunfit⟩ := exists_of_status hstatus
    refine Classical.byContradiction fun hnone => ?_
    exact hlacks c (fun argument ha hm => hnone ⟨argument, ha, c, hm, hunfit⟩) hc
  split at h
  · cases h
    exact .inl ⟨_, rfl⟩
  · rcases cases_of_bind_eq_error h with h | ⟨⟨⟩, -, h⟩
    · unfold checkOutput at h
      split at h
      · cases h
      · next s hs =>
        rcases cases_of_check h with ⟨reason, rfl, hstatus⟩ | herror
        · refine .inr (.inr ⟨reason, rfl, hfrom hstatus fun c ha => ?_⟩)
          exact Invocation.not_mem_of_value? (Invocation.lacks_of_read ha hread).1 hs
        · exact .inr (.inl herror)
    rcases cases_of_bind_eq_error h with h | ⟨s, -, h⟩
    · rcases cases_of_checkOperands h with ⟨s, hs, reason, rfl, hstatus⟩ | herror
      · refine .inr (.inr ⟨reason, rfl, hfrom hstatus fun c ha => ?_⟩)
        exact (Invocation.lacks_of_read ha hread).2 s hs
      · exact .inr (.inl herror)
    · cases h

theorem exists_of_parameters {result : Parameters} (h : parameters site arguments = .ok result) :
    ∃ invocation, Invocation.read arguments = .ok invocation ∧ result.output? = invocation.value? .output ∧
      result.notes ∈ invocation.operands ∧ notesParameter.check site result.notes = .ok () := by
  unfold parameters at h
  obtain ⟨invocation, hread, h⟩ := RawSettings.exists_of_bind_eq_ok h
  split at h
  · cases h
  · obtain ⟨⟨⟩, -, h⟩ := RawSettings.exists_of_bind_eq_ok h
    obtain ⟨notes, hnotes, h⟩ := RawSettings.exists_of_bind_eq_ok h
    cases h
    exact ⟨invocation, eq_ok_of_mapError_eq_ok hread, rfl, mem_operands_of_checkOperands hnotes⟩

/-- Arguments that are told apart and ask for no answer give parameters if their paths are allowed. -/
theorem parse_of_read {invocation : Invocation} {s : Text} (hread : Invocation.read arguments = .ok invocation)
    (hanswer : answer? invocation = none) (houtput : checkOutput site (invocation.value? .output) = .ok ())
    (hnotes : checkOperands site invocation.operands = .ok s) :
    parse site arguments = .parameters ⟨s, invocation.value? .output, invocation.has .overwrite,
      invocation.value? .title, invocation.value? .author, invocation.value? .date, invocation.has .strict⟩ := by
  have hparameters : parameters site arguments = .ok ⟨s, invocation.value? .output, invocation.has .overwrite,
      invocation.value? .title, invocation.value? .author, invocation.value? .date, invocation.has .strict⟩ := by
    unfold parameters
    rw [hread]
    simp only [mapError_ok, bind, Except.bind, hanswer, houtput, hnotes]
    rfl
  rw [parse, hparameters]

theorem parameters_of_parse {result : Parameters} (h : parse site arguments = .parameters result) :
    parameters site arguments = .ok result := by
  unfold parse at h
  cases hp : parameters site arguments with
  | ok other =>
    rw [hp] at h
    rw [Parsed.parameters.inj h]
  | error parsed =>
    rw [hp] at h
    rcases cases_of_parameters hp with ⟨_, rfl⟩ | ⟨_, rfl⟩ | ⟨_, rfl, -⟩ <;> cases h

theorem cases_of_parse {parsed : Parsed} (h : parse site arguments = parsed)
    (hne : ∀ result, parsed ≠ .parameters result) :
    (∃ text, parsed = .ended 0 text []) ∨ (∃ error : ArgumentError, parsed = error.ended) ∨
      ∃ reason, parsed = .unfit reason ∧ ∃ argument ∈ arguments, ∃ c ∈ argument, site.fits c = false := by
  unfold parse at h
  split at h
  · next result hresult => exact absurd h.symm (hne result)
  · next other hother =>
    subst h
    exact cases_of_parameters hother

/-- **The toolkit of the program keeps its promises.** -/
theorem documented_toolkit : toolkit.Documented where
  notes := by
    intro site _ arguments result h
    obtain ⟨-, -, -, -, hcheck⟩ := exists_of_parameters (parameters_of_parse h)
    exact status_of_check rfl hcheck
  output := by
    intro site _ arguments result s h hs c hc
    obtain ⟨invocation, hread, houtput, -⟩ := exists_of_parameters (parameters_of_parse h)
    refine Classical.byContradiction fun hnone => ?_
    have hlacks : ∀ argument ∈ arguments, c ∉ argument := fun argument ha hm => hnone ⟨argument, ha, hm⟩
    exact Invocation.not_mem_of_value? (Invocation.lacks_of_read hlacks hread).1 (houtput.symm.trans hs) hc
  ended := by
    intro site _ arguments code printed errors h
    rcases cases_of_parse h fun _ he => (by cases he) with ⟨text, he⟩ | ⟨error, he⟩ | ⟨reason, he, -⟩
    · cases he
      exact .inl rfl
    · cases he
      exact .inr ⟨Nat.le_refl 2, List.append_ne_nil_of_right_ne_nil _ (errorLine_ne_nil _)⟩
    · cases he
  unfit := by
    intro site _ arguments reason h
    rcases cases_of_parse h fun _ he => (by cases he) with ⟨text, he⟩ | ⟨error, he⟩ | ⟨other, -, hunfit⟩
    · cases he
    · cases he
    · exact hunfit
  code_badParameter := fun _ => rfl
  code_failure := fun _ => rfl
  code_aborted := rfl
  complain_badParameter := fun message => ⟨hint, by
    have hline : errorLine ("Invalid value: ".toList ++ message) =
        Text.withoutCodes ("Error: Invalid value: ".toList ++ message ++ ['\n']) := rfl
    exact congrArg (hint ++ ·) hline⟩
  complain_failure := fun _ => rfl
  complain_aborted := (Text.withoutCodes_of_plain (by decide)).symm
  echoError_nil := Text.withoutCodes_of_plain List.not_mem_nil
  echoError_plain := by
    intro front hfront s
    refine withoutCodes_append (fun hm => ?_) s
    have hplain := hfront _ hm
    revert hplain
    decide
  confirm := by
    intro question input printed h
    have hagreed := congrArg Prod.snd (Except.ok.inj h)
    exact agreed_of_ask hagreed

end Lectern.Program
