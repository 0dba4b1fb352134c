import Lectern.Text.Utf8

/-!
# Reading what was written

A text that is written as bytes is read again as it was (**`decode_encode`**). The bytes of one character are read one
by one: the first one says how many there are (`start?_two`, `start?_three`, `start?_four`), and each of the others is
within the bounds that the one before it has set (`decodeFrom_next`, `decodeFrom_last`).
-/

set_option autoImplicit false

namespace Lectern.Utf8

/-! ## One byte -/

section Bytes

variable {done : Text} {position n : Nat} {pending : Pending} {bytes : List UInt8}

theorem toNat_ofNat (h : n < 256) : (UInt8.ofNat n).toNat = n := UInt8.toNat_ofNat_of_lt' h

theorem start?_two (h : 0xC2 ≤ n ∧ n ≤ 0xDF) :
    start? (UInt8.ofNat n) = some ⟨UInt8.ofNat n, 1, n - 0xC0, 1, 0x80, 0xBF⟩ := by
  have hn := toNat_ofNat (show n < 256 by omega)
  have hb : 0xC2 ≤ UInt8.ofNat n ∧ UInt8.ofNat n ≤ 0xDF := by
    rw [UInt8.le_iff_toNat_le, UInt8.le_iff_toNat_le, hn]
    exact h
  rw [start?, if_pos hb, hn]

theorem start?_three (h : 0xE0 ≤ n ∧ n ≤ 0xEF) :
    start? (UInt8.ofNat n) = some ⟨UInt8.ofNat n, 1, n - 0xE0, 2, if n = 0xE0 then 0xA0 else 0x80,
      if n = 0xED then 0x9F else 0xBF⟩ := by
  have hn := toNat_ofNat (show n < 256 by omega)
  have htwo : ¬ (0xC2 ≤ UInt8.ofNat n ∧ UInt8.ofNat n ≤ 0xDF) := by
    rw [UInt8.le_iff_toNat_le, UInt8.le_iff_toNat_le, hn]
    exact fun hb => absurd hb.2 (Nat.not_le.2 h.1)
  have hthree : 0xE0 ≤ UInt8.ofNat n ∧ UInt8.ofNat n ≤ 0xEF := by
    rw [UInt8.le_iff_toNat_le, UInt8.le_iff_toNat_le, hn]
    exact h
  have hlow : UInt8.ofNat n = 0xE0 ↔ n = 0xE0 := by rw [← UInt8.toNat_inj, hn]; rfl
  have hhigh : UInt8.ofNat n = 0xED ↔ n = 0xED := by rw [← UInt8.toNat_inj, hn]; rfl
  simp only [start?, if_neg htwo, if_pos hthree, hn, hlow, hhigh]

theorem start?_four (h : 0xF0 ≤ n ∧ n ≤ 0xF4) :
    start? (UInt8.ofNat n) = some ⟨UInt8.ofNat n, 1, n - 0xF0, 3, if n = 0xF0 then 0x90 else 0x80,
      if n = 0xF4 then 0x8F else 0xBF⟩ := by
  have hn := toNat_ofNat (show n < 256 by omega)
  have htwo : ¬ (0xC2 ≤ UInt8.ofNat n ∧ UInt8.ofNat n ≤ 0xDF) := by
    rw [UInt8.le_iff_toNat_le, UInt8.le_iff_toNat_le, hn]
    exact fun hb => absurd hb.2 (Nat.not_le.2 (Nat.lt_of_lt_of_le (by decide) h.1))
  have hthree : ¬ (0xE0 ≤ UInt8.ofNat n ∧ UInt8.ofNat n ≤ 0xEF) := by
    rw [UInt8.le_iff_toNat_le, UInt8.le_iff_toNat_le, hn]
    exact fun hb => absurd hb.2 (Nat.not_le.2 h.1)
  have hfour : 0xF0 ≤ UInt8.ofNat n ∧ UInt8.ofNat n ≤ 0xF4 := by
    rw [UInt8.le_iff_toNat_le, UInt8.le_iff_toNat_le, hn]
    exact h
  have hlow : UInt8.ofNat n = 0xF0 ↔ n = 0xF0 := by rw [← UInt8.toNat_inj, hn]; rfl
  have hhigh : UInt8.ofNat n = 0xF4 ↔ n = 0xF4 := by rw [← UInt8.toNat_inj, hn]; rfl
  simp only [start?, if_neg htwo, if_neg hthree, if_pos hfour, hn, hlow, hhigh]

theorem decodeFrom_ascii (h : n < 0x80) :
    decodeFrom done position none (UInt8.ofNat n :: bytes) =
      decodeFrom (Char.ofNat n :: done) (position + 1) none bytes := by
  have hn := toNat_ofNat (show n < 256 by omega)
  have hb : UInt8.ofNat n < 0x80 := by
    rw [UInt8.lt_iff_toNat_lt, hn]
    exact h
  rw [decodeFrom, if_pos hb, hn]

theorem decodeFrom_start (h : 0x80 ≤ n) (hn : n < 256) (hs : start? (UInt8.ofNat n) = some pending) :
    decodeFrom done position none (UInt8.ofNat n :: bytes) = decodeFrom done (position + 1) (some pending) bytes := by
  have hb : ¬ UInt8.ofNat n < 0x80 := by
    rw [UInt8.lt_iff_toNat_lt, toNat_ofNat hn]
    exact Nat.not_lt.2 h
  simp only [decodeFrom, if_neg hb, hs]

/-- The last byte of a character. -/
theorem decodeFrom_last {first low high : UInt8} {count value : Nat} (h : low.toNat ≤ n ∧ n ≤ high.toNat)
    (hn : n < 256) :
    decodeFrom done position (some ⟨first, count, value, 1, low, high⟩) (UInt8.ofNat n :: bytes) =
      decodeFrom (Char.ofNat (64 * value + (n - 0x80)) :: done) (position + 1) none bytes := by
  have hb : low ≤ UInt8.ofNat n ∧ UInt8.ofNat n ≤ high := by
    rw [UInt8.le_iff_toNat_le, UInt8.le_iff_toNat_le, toNat_ofNat hn]
    exact h
  simp only [decodeFrom, if_pos hb, if_true, toNat_ofNat hn]

/-- A byte in the middle of a character; any byte that goes on a character can follow. -/
theorem decodeFrom_next {first low high : UInt8} {count value missing : Nat} (h : low.toNat ≤ n ∧ n ≤ high.toNat)
    (hn : n < 256) :
    decodeFrom done position (some ⟨first, count, value, missing + 2, low, high⟩) (UInt8.ofNat n :: bytes) =
      decodeFrom done (position + 1)
        (some ⟨first, count + 1, 64 * value + (n - 0x80), missing + 1, 0x80, 0xBF⟩) bytes := by
  have hb : low ≤ UInt8.ofNat n ∧ UInt8.ofNat n ≤ high := by
    rw [UInt8.le_iff_toNat_le, UInt8.le_iff_toNat_le, toNat_ofNat hn]
    exact h
  have hm : missing + 2 ≠ 1 := by omega
  simp only [decodeFrom, if_pos hb, if_neg hm, toNat_ofNat hn]
  rfl

/-- Six bits behind the mark of a byte that goes on a character. -/
theorem tail_bounds (h : n < 64) : (0x80 : UInt8).toNat ≤ n + 0x80 ∧ n + 0x80 ≤ (0xBF : UInt8).toNat := by
  show 0x80 ≤ n + 0x80 ∧ n + 0x80 ≤ 0xBF
  omega

end Bytes

/-! ## One character -/

section Characters

variable {done : Text} {position v : Nat} {bytes : List UInt8}

theorem decodeFrom_two (hl : 0x7F < v) (hu : v ≤ 0x7FF) :
    decodeFrom done position none (UInt8.ofNat (v / 64 % 32 + 0xC0) :: UInt8.ofNat (v % 64 + 0x80) :: bytes) =
      decodeFrom (Char.ofNat v :: done) (position + 2) none bytes := by
  have hvalue : 64 * (v / 64 % 32 + 0xC0 - 0xC0) + (v % 64 + 0x80 - 0x80) = v := by omega
  rw [decodeFrom_start (by omega) (by omega) (start?_two (by omega)),
    decodeFrom_last (tail_bounds (Nat.mod_lt v (by decide))) (by omega), hvalue]

/-- The second byte rules out characters with fewer bytes, and surrogates. -/
theorem decodeFrom_three (hl : 0x7FF < v) (hu : v ≤ 0xFFFF) (hs : v < 0xD800 ∨ 0xDFFF < v) :
    decodeFrom done position none (UInt8.ofNat (v / 4096 % 16 + 0xE0) :: UInt8.ofNat (v / 64 % 64 + 0x80) ::
        UInt8.ofNat (v % 64 + 0x80) :: bytes) =
      decodeFrom (Char.ofNat v :: done) (position + 3) none bytes := by
  have hlow : (if v / 4096 % 16 + 0xE0 = 0xE0 then (0xA0 : UInt8) else 0x80).toNat ≤ v / 64 % 64 + 0x80 := by
    split
    · show 0xA0 ≤ _
      omega
    · show 0x80 ≤ _
      omega
  have hhigh : v / 64 % 64 + 0x80 ≤ (if v / 4096 % 16 + 0xE0 = 0xED then (0x9F : UInt8) else 0xBF).toNat := by
    split
    · show _ ≤ 0x9F
      omega
    · show _ ≤ 0xBF
      omega
  have hvalue : 64 * (64 * (v / 4096 % 16 + 0xE0 - 0xE0) + (v / 64 % 64 + 0x80 - 0x80)) +
      (v % 64 + 0x80 - 0x80) = v := by omega
  rw [decodeFrom_start (by omega) (by omega) (start?_three (by omega)), decodeFrom_next ⟨hlow, hhigh⟩ (by omega),
    decodeFrom_last (tail_bounds (Nat.mod_lt v (by decide))) (by omega), hvalue]

/-- The second byte rules out characters with fewer bytes, and numbers beyond the last character. -/
theorem decodeFrom_four (hl : 0xFFFF < v) (hu : v < 0x110000) :
    decodeFrom done position none (UInt8.ofNat (v / 262144 % 8 + 0xF0) :: UInt8.ofNat (v / 4096 % 64 + 0x80) ::
        UInt8.ofNat (v / 64 % 64 + 0x80) :: UInt8.ofNat (v % 64 + 0x80) :: bytes) =
      decodeFrom (Char.ofNat v :: done) (position + 4) none bytes := by
  have hlow : (if v / 262144 % 8 + 0xF0 = 0xF0 then (0x90 : UInt8) else 0x80).toNat ≤ v / 4096 % 64 + 0x80 := by
    split
    · show 0x90 ≤ _
      omega
    · show 0x80 ≤ _
      omega
  have hhigh : v / 4096 % 64 + 0x80 ≤ (if v / 262144 % 8 + 0xF0 = 0xF4 then (0x8F : UInt8) else 0xBF).toNat := by
    split
    · show _ ≤ 0x8F
      omega
    · show _ ≤ 0xBF
      omega
  have hvalue : 64 * (64 * (64 * (v / 262144 % 8 + 0xF0 - 0xF0) + (v / 4096 % 64 + 0x80 - 0x80)) +
      (v / 64 % 64 + 0x80 - 0x80)) + (v % 64 + 0x80 - 0x80) = v := by omega
  rw [decodeFrom_start (by omega) (by omega) (start?_four (by omega)), decodeFrom_next ⟨hlow, hhigh⟩ (by omega),
    decodeFrom_next (tail_bounds (Nat.mod_lt _ (by decide))) (by omega),
    decodeFrom_last (tail_bounds (Nat.mod_lt v (by decide))) (by omega), hvalue]

/-- The bytes of a character are read as that character. -/
theorem decodeFrom_utf8EncodeChar (c : Char) :
    ∃ next, decodeFrom done position none (String.utf8EncodeChar c ++ bytes) =
      decodeFrom (c :: done) next none bytes := by
  have hc : Char.ofNat c.val.toNat = c := Char.ofNat_toNat c
  have hvalid : c.val.toNat < 0xD800 ∨ 0xDFFF < c.val.toNat ∧ c.val.toNat < 0x110000 := c.valid
  rw [String.utf8EncodeChar]
  generalize c.val.toNat = v at hc hvalid ⊢
  subst hc
  by_cases h1 : v ≤ 0x7F
  · rw [if_pos h1]
    exact ⟨_, decodeFrom_ascii (by omega)⟩
  rw [if_neg h1]
  by_cases h2 : v ≤ 0x7FF
  · rw [if_pos h2]
    exact ⟨_, decodeFrom_two (by omega) h2⟩
  rw [if_neg h2]
  by_cases h3 : v ≤ 0xFFFF
  · rw [if_pos h3]
    exact ⟨_, decodeFrom_three (by omega) h3 (by omega)⟩
  · rw [if_neg h3]
    exact ⟨_, decodeFrom_four (by omega) (by omega)⟩

end Characters

/-! ## Texts -/

theorem decodeFrom_encode (done : Text) (position : Nat) (s : Text) :
    decodeFrom done position none (encode s) = .ok (done.reverse ++ s) := by
  induction s generalizing done position with
  | nil => rw [List.append_nil]; rfl
  | cons c s ih =>
    obtain ⟨next, hnext⟩ := @decodeFrom_utf8EncodeChar done position (encode s) c
    rw [encode, List.flatMap_cons, ← encode, hnext, ih, List.reverse_cons, List.append_assoc]
    rfl

/-- **A text that is written as bytes is read again as it was.** -/
theorem decode_encode (s : Text) : decode (encode s) = .ok s := decodeFrom_encode [] 0 s

end Lectern.Utf8
