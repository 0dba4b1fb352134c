import Lectern.Proofs.Attempts
import Lectern.Settings.Search

/-!
# Tables have no key twice

A file defines its table statement by statement. A statement puts an entry with a new key into a table or changes what
an old key stands for, so no table gets a key twice: **`Toml.distinct_read`** says so of the whole table that is read,
with all tables in it.
-/

set_option autoImplicit false

namespace Lectern

/-- No table in a value has a key twice. -/
inductive Value.Distinct : Value → Prop where
  | plain {value : Value} : Toml.isClosed value = false → Distinct value
  | array {items : List Value} : (∀ item ∈ items, Distinct item) → Distinct (.array items)
  | table {entries : List (Text × Value)} : (entries.map Prod.fst).Nodup → (∀ entry ∈ entries, Distinct entry.2) →
      Distinct (.table entries)

namespace Value.Distinct

variable {entries : List (Text × Value)} {items : List Value} {key : Text} {value : Value}

theorem of_mem_array (h : (Value.array items).Distinct) : ∀ item ∈ items, item.Distinct := by
  cases h with
  | plain hc => cases hc
  | array hitems => exact hitems

theorem nodup (h : (Value.table entries).Distinct) : (entries.map Prod.fst).Nodup := by
  cases h with
  | plain hc => cases hc
  | table hkeys => exact hkeys

theorem of_mem_table (h : (Value.table entries).Distinct) : ∀ entry ∈ entries, entry.2.Distinct := by
  cases h with
  | plain hc => cases hc
  | table _ hentries => exact hentries

theorem of_lookup (h : (Value.table entries).Distinct) (hl : entries.lookup key = some value) : value.Distinct := by
  obtain ⟨before, after, rfl, -⟩ := List.lookup_eq_some_iff.1 hl
  exact h.of_mem_table _ (List.mem_append_right _ List.mem_cons_self)

end Value.Distinct

theorem mem_insertEntry {key : Text} {value : Value} {entries : List (Text × Value)} {entry : Text × Value}
    (h : entry ∈ insertEntry key value entries) : entry = (key, value) ∨ entry ∈ entries := by
  induction entries with
  | nil => exact .inl (List.mem_singleton.1 h)
  | cons first entries ih =>
    obtain ⟨k, v⟩ := first
    rw [insertEntry] at h
    split at h
    · next hk =>
      subst hk
      exact (List.mem_cons.1 h).imp_right (List.mem_cons_of_mem _)
    · rcases List.mem_cons.1 h with rfl | h
      · exact .inr List.mem_cons_self
      · exact (ih h).imp_right (List.mem_cons_of_mem _)

theorem distinct_insertEntry {key : Text} {value : Value} {entries : List (Text × Value)}
    (h : (Value.table entries).Distinct) (hv : value.Distinct) :
    (Value.table (insertEntry key value entries)).Distinct := by
  refine .table ?_ fun entry hm => ?_
  · have hkeys := h.nodup
    clear h
    induction entries with
    | nil => exact List.pairwise_singleton _ _
    | cons first entries ih =>
      obtain ⟨k, v⟩ := first
      obtain ⟨hfirst, hkeys⟩ := List.nodup_cons.1 hkeys
      rw [insertEntry]
      split
      · exact List.nodup_cons.2 ⟨hfirst, hkeys⟩
      · next hk =>
        refine List.nodup_cons.2 ⟨fun hm => ?_, ih hkeys⟩
        obtain ⟨entry, hentry, he⟩ := List.mem_map.1 hm
        rcases mem_insertEntry hentry with rfl | hentry
        · exact hk he.symm
        · exact hfirst (he ▸ List.mem_map_of_mem hentry)
  · rcases mem_insertEntry hm with rfl | hm
    · exact hv
    · exact h.of_mem_table entry hm

namespace Toml

/-- A change of entries keeps keys apart. -/
def KeepsDistinct (f : Entries → Option Entries) : Prop :=
  ∀ entries changed, f entries = some changed → (Value.table entries).Distinct → (Value.table changed).Distinct

theorem keepsDistinct_updateEntry {key : Text} {f : Option Value → Option Value}
    (hf : ∀ old new, f old = some new → (∀ value, old = some value → value.Distinct) → new.Distinct) :
    KeepsDistinct (updateEntry key f) := by
  intro entries changed h hd
  obtain ⟨value, hvalue, rfl⟩ := Option.map_eq_some_iff.1 h
  exact distinct_insertEntry hd (hf _ _ hvalue fun old hold => hd.of_lookup hold)

theorem keepsDistinct_updateTable {throughLists : Bool} {f : Entries → Option Entries} (hf : KeepsDistinct f)
    (path : Path) : KeepsDistinct (updateTable throughLists f path) := by
  induction path with
  | nil => exact hf
  | cons key path ih =>
    refine keepsDistinct_updateEntry fun old new h hold => ?_
    split at h
    · obtain ⟨inner, hinner, rfl⟩ := Option.map_eq_some_iff.1 h
      exact ih _ _ hinner (.table List.nodup_nil fun _ hm => absurd hm List.not_mem_nil)
    · next entries =>
      obtain ⟨inner, hinner, rfl⟩ := Option.map_eq_some_iff.1 h
      exact ih _ _ hinner (hold _ rfl)
    · next items =>
      have hitems := (hold _ rfl).of_mem_array
      split at h
      · next entries hlast =>
        obtain ⟨inner, hinner, rfl⟩ := Option.map_eq_some_iff.1 h
        refine .array fun item hm => ?_
        rcases List.mem_append.1 hm with hm | hm
        · exact hitems item (List.dropLast_subset _ hm)
        · rw [List.mem_singleton.1 hm]
          exact ih _ _ hinner (hitems _ (List.mem_of_getLast? hlast))
      · cases h
    · cases h

theorem keepsDistinct_addEntry {key : Text} {value : Value} (hv : value.Distinct) :
    KeepsDistinct (addEntry key value) := by
  intro entries changed h hd
  unfold addEntry at h
  split at h
  · next hnew =>
    cases h
    refine .table ?_ fun entry hm => ?_
    · rw [List.map_append]
      refine List.nodup_append.2 ⟨hd.nodup, List.pairwise_singleton _ _, fun a ha b hb he => ?_⟩
      obtain ⟨entry, hentry, rfl⟩ := List.mem_map.1 ha
      have hne := List.lookup_eq_none_iff.1 hnew entry hentry
      rw [he, List.mem_singleton.1 hb] at hne
      simp at hne
    · rcases List.mem_append.1 hm with hm | hm
      · exact hd.of_mem_table entry hm
      · rw [List.mem_singleton.1 hm]
        exact hv
  · cases h

theorem distinct_nil : (Value.table []).Distinct := .table List.nodup_nil fun _ hm => absurd hm List.not_mem_nil

/-! ## Statements -/

namespace Draft

variable {draft changed : Draft} {path : Path} {value : Value}

theorem distinct_assign {header : Path} (h : draft.assign header path value = some changed) (hv : value.Distinct)
    (hd : (Value.table draft.entries).Distinct) : (Value.table changed.entries).Distinct := by
  unfold assign at h
  dsimp only at h
  split at h
  · cases h
  · obtain ⟨key, -, h⟩ := Option.bind_eq_some_iff.1 h
    obtain ⟨entries, hentries, h⟩ := Option.bind_eq_some_iff.1 h
    cases h
    exact keepsDistinct_updateTable (keepsDistinct_addEntry hv) _ _ _ hentries hd

theorem distinct_openTable (h : draft.openTable path = some changed) (hd : (Value.table draft.entries).Distinct) :
    (Value.table changed.entries).Distinct := by
  unfold openTable at h
  split at h
  · cases h
  · obtain ⟨entries, hentries, rfl⟩ := Option.map_eq_some_iff.1 h
    refine keepsDistinct_updateTable (fun _ _ he hd => ?_) _ _ _ hentries hd
    cases he
    exact hd

theorem distinct_openItem (h : draft.openItem path = some changed) (hd : (Value.table draft.entries).Distinct) :
    (Value.table changed.entries).Distinct := by
  unfold openItem at h
  split at h
  · cases h
  · obtain ⟨key, -, h⟩ := Option.bind_eq_some_iff.1 h
    obtain ⟨entries, hentries, h⟩ := Option.bind_eq_some_iff.1 h
    cases h
    refine keepsDistinct_updateTable (keepsDistinct_updateEntry fun old new he hold => ?_) _ _ _ hentries hd
    split at he
    · cases he
      exact .array fun item hm => List.mem_singleton.1 hm ▸ distinct_nil
    · next items =>
      cases he
      refine .array fun item hm => ?_
      rcases List.mem_append.1 hm with hm | hm
      · exact (hold _ rfl).of_mem_array item hm
      · exact List.mem_singleton.1 hm ▸ distinct_nil
    · cases he

end Draft

theorem InlineDraft.distinct_assign {draft changed : InlineDraft} {path : Path} {value : Value}
    (h : draft.assign path value = some changed) (hv : value.Distinct) (hd : (Value.table draft.entries).Distinct) :
    (Value.table changed.entries).Distinct := by
  unfold assign at h
  split at h
  · cases h
  · obtain ⟨key, -, h⟩ := Option.bind_eq_some_iff.1 h
    obtain ⟨entries, hentries, h⟩ := Option.bind_eq_some_iff.1 h
    cases h
    exact keepsDistinct_updateTable (keepsDistinct_addEntry hv) _ _ _ hentries hd

/-! ## Values -/

theorem isClosed_of_truthValue? {s rest : Text} {value : Value} (h : truthValue? s = some (value, rest)) :
    isClosed value = false := by
  unfold truthValue? at h
  split at h
  · cases h
    rfl
  · obtain ⟨_, -, h⟩ := Option.map_eq_some_iff.1 h
    cases h
    rfl

theorem isClosed_of_dateTime? {s rest : Text} {value : Value} (h : dateTime? s = some (.ok (value, rest))) :
    isClosed value = false := by
  have hvalid : ∀ {date : Date} {value' : Value} {rest' : Text},
      (if date.isValid then .ok (value', rest') else malformed : Except Failure (Value × Text)) = .ok (value, rest) →
        value = value' := by
    intro date value' rest' h
    split at h <;> cases h
    rfl
  unfold dateTime? at h
  obtain ⟨⟨date, s⟩, -, h⟩ := Option.bind_eq_some_iff.1 h
  dsimp only at h
  split at h
  · rw [hvalid (Option.some.inj h)]
    rfl
  · split at h
    · rw [hvalid (Option.some.inj h)]
      rfl
    · rw [hvalid (Option.some.inj h)]
      rfl

theorem isClosed_of_decimal? {s rest : Text} {value : Value} (h : decimal? s = some (.ok (value, rest))) :
    isClosed value = false := by
  unfold decimal? at h
  dsimp only at h
  obtain ⟨⟨whole, s⟩, -, h⟩ := Option.bind_eq_some_iff.1 h
  dsimp only at h
  split at h
  · split at h
    · cases h
    · cases h
      rfl
  · cases h
    rfl

theorem isClosed_of_specialNumber? {s rest : Text} {value : Value} (h : specialNumber? s = some (value, rest)) :
    isClosed value = false := by
  unfold specialNumber? at h
  dsimp only at h
  split at h
  · cases h
    rfl
  · obtain ⟨⟨x, s⟩, -, h⟩ := Option.bind_eq_some_iff.1 h
    cases h
    rfl

theorem isClosed_of_scalar {s rest : Text} {value : Value} (h : scalar s = .ok (value, rest)) :
    isClosed value = false := by
  unfold scalar at h
  split at h
  · next found hfound =>
    cases h
    exact isClosed_of_truthValue? hfound
  · split at h
    · next found hfound =>
      rw [h] at hfound
      exact isClosed_of_dateTime? hfound
    · split at h
      · cases h
        rfl
      · split at h
        · cases h
          rfl
        · split at h
          · next found hfound =>
            rw [h] at hfound
            exact isClosed_of_decimal? hfound
          · split at h
            · next found hfound =>
              cases h
              exact isClosed_of_specialNumber? hfound
            · cases h

/-- What is read in some rounds has no key twice: a value, the elements of a list, the entries of an inline table. -/
theorem distinct_reading (rounds : Nat) :
    (∀ depth s value rest, Toml.value depth rounds s = .ok (value, rest) → value.Distinct) ∧
      (∀ depth s found rest, items depth rounds s = .ok (found, rest) → ∀ item ∈ found, item.Distinct) ∧
      ∀ depth s draft found rest, inlineEntries depth rounds draft s = .ok (found, rest) →
        (Value.table draft.entries).Distinct → (Value.table found).Distinct := by
  induction rounds with
  | zero =>
    refine ⟨fun depth s value rest h => ?_, fun depth s found rest h => ?_, fun depth s draft found rest h => ?_⟩
    · unfold Toml.value at h
      cases h
    · unfold items at h
      cases h
    · unfold inlineEntries at h
      cases h
  | succ rounds ih =>
    obtain ⟨ihvalue, ihitems, ihentries⟩ := ih
    refine ⟨fun depth s value rest h => ?_, fun depth s found rest h => ?_, fun depth s draft found rest h hd => ?_⟩
    · unfold Toml.value at h
      split at h
      · split at h
        · cases h
        · obtain ⟨gap, -, h⟩ := RawSettings.exists_of_bind_eq_ok h
          split at h
          · cases h
            exact .array fun _ hm => absurd hm List.not_mem_nil
          · obtain ⟨⟨found, rest'⟩, hfound, he⟩ := exists_of_map_eq_ok h
            cases he
            exact .array (ihitems _ _ _ _ hfound)
      · split at h
        · cases h
        · split at h
          · cases h
            exact distinct_nil
          · obtain ⟨⟨found, rest'⟩, hfound, he⟩ := exists_of_map_eq_ok h
            cases he
            exact ihentries _ _ _ _ _ hfound distinct_nil
      · split at h
        · obtain ⟨⟨content, rest'⟩, -, he⟩ := exists_of_map_eq_ok h
          cases he
          exact .plain rfl
        · exact .plain (isClosed_of_scalar h)
      · cases h
    · unfold items at h
      obtain ⟨⟨first, rest'⟩, hfirst, h⟩ := RawSettings.exists_of_bind_eq_ok h
      have hone : ∀ item ∈ [first], item.Distinct := fun item hm =>
        List.mem_singleton.1 hm ▸ ihvalue _ _ _ _ hfirst
      obtain ⟨gap, -, h⟩ := RawSettings.exists_of_bind_eq_ok h
      split at h
      · cases h
        exact hone
      · obtain ⟨gap, -, h⟩ := RawSettings.exists_of_bind_eq_ok h
        split at h
        · cases h
          exact hone
        · obtain ⟨⟨others, rest'⟩, hothers, he⟩ := exists_of_map_eq_ok h
          cases he
          exact List.forall_mem_cons.2 ⟨hone _ List.mem_cons_self, ihitems _ _ _ _ hothers⟩
      · cases h
    · unfold inlineEntries at h
      obtain ⟨⟨keys, rest₁⟩, -, h⟩ := RawSettings.exists_of_bind_eq_ok h
      obtain ⟨rest₂, -, h⟩ := RawSettings.exists_of_bind_eq_ok h
      obtain ⟨⟨first, rest₃⟩, hfirst, h⟩ := RawSettings.exists_of_bind_eq_ok h
      dsimp only at h
      split at h
      · cases h
      · next changed hchanged =>
        have hd' := InlineDraft.distinct_assign hchanged (ihvalue _ _ _ _ hfirst) hd
        split at h
        · cases h
          exact hd'
        · exact ihentries _ _ _ _ _ h hd'
        · cases h

theorem distinct_value {depth rounds : Nat} {s rest : Text} {value : Value}
    (h : Toml.value depth rounds s = .ok (value, rest)) : value.Distinct :=
  (distinct_reading rounds).1 depth s value rest h

/-! ## Files -/

theorem eq_some_of_accepted {draft? : Option Draft} {draft : Draft} (h : accepted draft? = .ok draft) :
    draft? = some draft := by
  cases draft? with
  | none => cases h
  | some other =>
    cases h
    rfl

/-- A statement keeps the keys apart. -/
theorem distinct_statement {depth : Nat} {draft changed : Draft} {current next : Path} {s rest : Text}
    (h : statement depth draft current s = .ok (changed, next, rest)) (hd : (Value.table draft.entries).Distinct) :
    (Value.table changed.entries).Distinct := by
  unfold statement at h
  split at h
  · obtain ⟨⟨keys, rest'⟩, -, h⟩ := RawSettings.exists_of_bind_eq_ok h
    obtain ⟨other, hother, h⟩ := RawSettings.exists_of_bind_eq_ok h
    cases h
    exact Draft.distinct_openItem (eq_some_of_accepted hother) hd
  · obtain ⟨⟨keys, rest'⟩, -, h⟩ := RawSettings.exists_of_bind_eq_ok h
    obtain ⟨other, hother, h⟩ := RawSettings.exists_of_bind_eq_ok h
    cases h
    exact Draft.distinct_openTable (eq_some_of_accepted hother) hd
  · cases h
    exact hd
  · cases h
    exact hd
  · cases h
    exact hd
  · obtain ⟨⟨keys, rest'⟩, -, h⟩ := RawSettings.exists_of_bind_eq_ok h
    obtain ⟨rest', -, h⟩ := RawSettings.exists_of_bind_eq_ok h
    obtain ⟨⟨value, rest'⟩, hvalue, h⟩ := RawSettings.exists_of_bind_eq_ok h
    obtain ⟨other, hother, h⟩ := RawSettings.exists_of_bind_eq_ok h
    cases h
    exact Draft.distinct_assign (eq_some_of_accepted hother) (distinct_value hvalue) hd

theorem distinct_statements {depth rounds : Nat} {draft : Draft} {current : Path} {s : Text} {entries : Entries}
    (h : statements depth rounds draft current s = .ok entries) (hd : (Value.table draft.entries).Distinct) :
    (Value.table entries).Distinct := by
  induction rounds generalizing draft current s with
  | zero =>
    cases h
    exact hd
  | succ rounds ih =>
    obtain ⟨⟨changed, next, rest⟩, hstatement, h⟩ := RawSettings.exists_of_bind_eq_ok h
    have hd' := distinct_statement hstatement hd
    obtain ⟨gap, -, h⟩ := RawSettings.exists_of_bind_eq_ok h
    split at h
    · cases h
      exact hd'
    · exact ih h hd'
    · cases h

/-- No table of a file has a key twice. -/
theorem distinct_read {depth : Nat} {content : Text} {entries : Entries} (h : read depth content = .ok entries) :
    (Value.table entries).Distinct := distinct_statements h distinct_nil

end Toml

/-- A value in a table that has no key twice has none twice either. -/
theorem Value.Distinct.of_at? {keys : List Text} {value inner : Value} (h : value.Distinct)
    (hat : value.at? keys = some inner) : inner.Distinct := by
  induction keys generalizing value with
  | nil =>
    rw [at?] at hat
    exact Option.some.inj hat ▸ h
  | cons key keys ih =>
    cases value with
    | table entries =>
      rw [at?] at hat
      obtain ⟨value, hvalue, hat⟩ := Option.bind_eq_some_iff.1 hat
      exact ih (h.of_lookup hvalue) hat
    | _ => cases hat

end Lectern
