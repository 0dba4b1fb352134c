import Lectern.Value.Calendar

/-!
# Values

Settings come from sources that do not know their types. A **`Value`** is anything that such a source can give.
-/

set_option autoImplicit false

namespace Lectern

/-- A value of a type that is not known beforehand. -/
inductive Value where
  | null
  | bool (b : Bool)
  | int (n : Int)
  | float (x : Float)
  | text (s : Text)
  | date (date : Date)
  | time (time : Time)
  /-- A date and a time of day, perhaps with the distance of a zone from universal time in minutes. -/
  | dateTime (date : Date) (time : Time) (offset : Option Int)
  | array (items : List Value)
  | table (entries : List (Text × Value))

instance : Inhabited Value := ⟨.null⟩

namespace Value

/-- The text that a value is. -/
def text? : Value → Option Text
  | .text s => some s
  | _ => none

/-- The integer that a value is; a truth value is none. -/
def int? : Value → Option Int
  | .int n => some n
  | _ => none

/-- The truth value that a value is. -/
def bool? : Value → Option Bool
  | .bool b => some b
  | _ => none

/-- The elements of a list of which every one is a text and not empty. -/
def names? : Value → Option (List Text)
  | .array items =>
    items.mapM fun item =>
      match item with
      | .text (c :: s) => some (c :: s)
      | _ => none
  | _ => none

theorem eq_of_text?_eq_some {v : Value} {s : Text} (h : v.text? = some s) : v = .text s := by
  cases v <;> simp_all [text?]

theorem eq_of_int?_eq_some {v : Value} {n : Int} (h : v.int? = some n) : v = .int n := by
  cases v <;> simp_all [int?]

theorem eq_of_bool?_eq_some {v : Value} {b : Bool} (h : v.bool? = some b) : v = .bool b := by
  cases v <;> simp_all [bool?]

/-- A value that is a list of names is the list of their texts. -/
theorem eq_of_names?_eq_some {v : Value} {names : List Text} (h : v.names? = some names) :
    v = .array (names.map .text) := by
  unfold names? at h
  split at h
  · next items =>
    congr 1
    induction items generalizing names with
    | nil =>
      cases h
      rfl
    | cons item items ih =>
      simp only [List.mapM_cons, bind, Option.bind_eq_some_iff, pure, Option.some.injEq] at h
      obtain ⟨name, hname, rest, hrest, rfl⟩ := h
      split at hname
      · cases hname
        rw [ih hrest, List.map_cons]
      · cases hname
  · cases h

/-- No name is empty. -/
theorem ne_nil_of_mem_names? {v : Value} {names : List Text} (h : v.names? = some names) :
    ∀ name ∈ names, name ≠ [] := by
  unfold names? at h
  split at h
  · next items =>
    induction items generalizing names with
    | nil =>
      cases h
      exact fun _ hm => absurd hm List.not_mem_nil
    | cons item items ih =>
      simp only [List.mapM_cons, bind, Option.bind_eq_some_iff, pure, Option.some.injEq] at h
      obtain ⟨name, hname, rest, hrest, rfl⟩ := h
      split at hname
      · cases hname
        intro other hm
        rcases List.mem_cons.1 hm with rfl | hm
        · exact List.cons_ne_nil _ _
        · exact ih hrest other hm
      · cases hname
  · cases h

end Value

end Lectern
