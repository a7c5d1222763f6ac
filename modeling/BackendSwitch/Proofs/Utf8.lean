import BackendSwitch.Text.Utf8

/-! # Decoding what was encoded

A text is decoded from its bytes, one character at a time. The first byte of a character tells how many bytes follow, and
what it demands of the second one holds because the bytes are those of a character. -/
namespace BackendSwitch.Utf8
set_option autoImplicit false

/-! ## Bytes -/

theorem tail_bounds {m : Nat} (h : m < 64) : (0x80 : UInt8) ≤ .ofNat (m + 128) ∧ UInt8.ofNat (m + 128) ≤ 0xbf ∧
    (UInt8.ofNat (m + 128)).toNat - 0x80 = m := by
  have hall : ∀ m : Fin 64, (0x80 : UInt8) ≤ .ofNat (m + 128) ∧ UInt8.ofNat (m + 128) ≤ 0xbf ∧
      (UInt8.ofNat (m + 128)).toNat - 0x80 = m := by decide
  exact hall ⟨m, h⟩

/-- A byte that begins a character and lets another byte be the second one. -/
def Begins (b b' : UInt8) (missing value : Nat) : Bool :=
  !decide (b < 0x80) && match lead? b with
    | some p => p.missing == missing && p.value == value && p.read == 1 && decide (p.low ≤ b') && decide (b' ≤ p.high)
    | none => false

theorem exists_of_begins {b b' : UInt8} {missing value : Nat} (h : Begins b b' missing value = true) :
    ¬ b < 0x80 ∧ ∃ p, lead? b = some p ∧ p.missing = missing ∧ p.value = value ∧ p.read = 1 ∧
      p.low ≤ b' ∧ b' ≤ p.high := by
  simp only [Begins, Bool.and_eq_true, Bool.not_eq_true', decide_eq_false_iff_not] at h
  obtain ⟨hb, h⟩ := h
  cases hlead : lead? b with
  | none =>
    rw [hlead] at h
    cases h
  | some p =>
    simp only [hlead, Bool.and_eq_true, beq_iff_eq, decide_eq_true_eq] at h
    obtain ⟨⟨⟨⟨hmissing, hvalue⟩, hread⟩, hlow⟩, hhigh⟩ := h
    exact ⟨hb, p, rfl, hmissing, hvalue, hread, hlow, hhigh⟩

theorem begins_two {n m : Nat} (hn : n < 32) (hm : m < 64) (h : 2 ≤ n) :
    Begins (.ofNat (n + 192)) (.ofNat (m + 128)) 1 n = true := by
  have hall : ∀ (n : Fin 32) (m : Fin 64), 2 ≤ n.val → Begins (.ofNat (n + 192)) (.ofNat (m + 128)) 1 n = true := by
    decide +kernel
  exact hall ⟨n, hn⟩ ⟨m, hm⟩ h

/-- Three bytes are for codes that need them and are no surrogates. -/
theorem begins_three {n m : Nat} (hn : n < 16) (hm : m < 64) (h : n = 0 → 32 ≤ m) (h' : n = 13 → m < 32) :
    Begins (.ofNat (n + 224)) (.ofNat (m + 128)) 2 n = true := by
  have hall : ∀ (n : Fin 16) (m : Fin 64), (n.val = 0 → 32 ≤ m.val) → (n.val = 13 → m.val < 32) →
      Begins (.ofNat (n + 224)) (.ofNat (m + 128)) 2 n = true := by decide +kernel
  exact hall ⟨n, hn⟩ ⟨m, hm⟩ h h'

/-- Four bytes are for codes that need them, up to the last one. -/
theorem begins_four {n m : Nat} (hn : n < 5) (hm : m < 64) (h : n = 0 → 16 ≤ m) (h' : n = 4 → m < 16) :
    Begins (.ofNat (n + 240)) (.ofNat (m + 128)) 3 n = true := by
  have hall : ∀ (n : Fin 5) (m : Fin 64), (n.val = 0 → 16 ≤ m.val) → (n.val = 4 → m.val < 16) →
      Begins (.ofNat (n + 240)) (.ofNat (m + 128)) 3 n = true := by decide +kernel
  exact hall ⟨n, hn⟩ ⟨m, hm⟩ h h'

/-! ## Steps of the decoder -/

variable {index : Nat} {bs : Bytes}

theorem decodeFrom_ascii {n : Nat} (h : n ≤ 127) :
    decodeFrom index none (.ofNat n :: bs) = prepend (Char.ofNat n) (decodeFrom (index + 1) none bs) := by
  have hbyte : (UInt8.ofNat n).toNat = n := UInt8.toNat_ofNat_of_lt (by show n < 256; omega)
  have hlt : UInt8.ofNat n < 0x80 := by
    rw [UInt8.lt_iff_toNat_lt, hbyte]
    exact Nat.lt_succ_of_le h
  rw [decodeFrom, if_pos hlt, hbyte]

theorem decodeFrom_begins {b : UInt8} {missing value m : Nat} (hm : m < 64)
    (h : Begins b (.ofNat (m + 128)) missing value = true) :
    decodeFrom index none (b :: .ofNat (m + 128) :: bs) =
      if missing = 1 then prepend (Char.ofNat (value * 64 + m)) (decodeFrom (index + 2) none bs)
      else decodeFrom index (some ⟨missing - 1, 0x80, 0xbf, value * 64 + m, 2⟩) bs := by
  obtain ⟨-, -, hvalue⟩ := tail_bounds hm
  obtain ⟨hb, p, hlead, rfl, rfl, hread, hlow, hhigh⟩ := exists_of_begins h
  rw [decodeFrom, if_neg hb]
  simp only [hlead]
  rw [decodeFrom, if_pos ⟨hlow, hhigh⟩, hread, hvalue]

theorem decodeFrom_last {value read m : Nat} (hm : m < 64) :
    decodeFrom index (some ⟨1, 0x80, 0xbf, value, read⟩) (.ofNat (m + 128) :: bs) =
      prepend (Char.ofNat (value * 64 + m)) (decodeFrom (index + read + 1) none bs) := by
  obtain ⟨hlow, hhigh, hvalue⟩ := tail_bounds hm
  rw [decodeFrom, if_pos ⟨hlow, hhigh⟩, if_pos rfl, hvalue]

theorem decodeFrom_next {value read m : Nat} (hm : m < 64) :
    decodeFrom index (some ⟨2, 0x80, 0xbf, value, read⟩) (.ofNat (m + 128) :: bs) =
      decodeFrom index (some ⟨1, 0x80, 0xbf, value * 64 + m, read + 1⟩) bs := by
  obtain ⟨hlow, hhigh, hvalue⟩ := tail_bounds hm
  have hmore : ¬ (2 : Nat) = 1 := by decide
  rw [decodeFrom, if_pos ⟨hlow, hhigh⟩, if_neg hmore, hvalue]
  rfl

/-! ## Characters and texts -/

theorem decodeFrom_char (c : Char) :
    ∃ index', decodeFrom index none (String.utf8EncodeChar c ++ bs) = prepend c (decodeFrom index' none bs) := by
  have hvalid := c.valid
  have hchar : Char.ofNat c.val.toNat = c := Char.ofNat_toNat c
  unfold UInt32.isValidChar Nat.isValidChar at hvalid
  unfold String.utf8EncodeChar
  generalize c.val.toNat = v at hvalid hchar
  -- one case for each length of the encoding; the value is put together again from its base 64 digits
  have tail : ∀ n, n % 64 < 64 := fun n => Nat.mod_lt n (by decide)
  by_cases h1 : v ≤ 127
  · refine ⟨index + 1, ?_⟩
    rw [if_pos h1, List.singleton_append, decodeFrom_ascii h1, hchar]
  by_cases h2 : v ≤ 2047
  · have hfirst := begins_two (Nat.mod_lt (v / 64) (by decide)) (tail v) (by omega)
    have hvalue : v / 64 % 32 * 64 + v % 64 = v := by omega
    refine ⟨index + 2, ?_⟩
    rw [if_neg h1, if_pos h2, List.cons_append, List.singleton_append, decodeFrom_begins (tail v) hfirst, if_pos rfl,
      hvalue, hchar]
  by_cases h3 : v ≤ 65535
  · have hfirst := begins_three (Nat.mod_lt (v / 4096) (by decide)) (tail (v / 64)) (by omega) (by omega)
    have hvalue : (v / 4096 % 16 * 64 + v / 64 % 64) * 64 + v % 64 = v := by omega
    refine ⟨index + 2 + 1, ?_⟩
    rw [if_neg h1, if_neg h2, if_pos h3, List.cons_append, List.cons_append, List.singleton_append,
      decodeFrom_begins (tail _) hfirst, if_neg (by decide), decodeFrom_last (tail v), hvalue, hchar]
  · have hfour : v / 262144 % 8 < 5 := by omega
    have hfirst := begins_four hfour (tail (v / 4096)) (by omega) (by omega)
    have hvalue : ((v / 262144 % 8 * 64 + v / 4096 % 64) * 64 + v / 64 % 64) * 64 + v % 64 = v := by omega
    refine ⟨index + 3 + 1, ?_⟩
    rw [if_neg h1, if_neg h2, if_neg h3, List.cons_append, List.cons_append, List.cons_append, List.singleton_append,
      decodeFrom_begins (tail _) hfirst, if_neg (by decide), decodeFrom_next (tail _), decodeFrom_last (tail v), hvalue,
      hchar]

theorem decodeFrom_encode (t : Text) : decodeFrom index none (encode t) = .ok t := by
  induction t generalizing index with
  | nil => rfl
  | cons c t ih =>
    obtain ⟨index', h⟩ : ∃ index', decodeFrom index none (String.utf8EncodeChar c ++ encode t) =
        prepend c (decodeFrom index' none (encode t)) := decodeFrom_char c
    rw [encode, List.flatMap_cons, ← encode, h, ih]
    rfl

theorem decode_encode (t : Text) : decode (encode t) = .ok t := decodeFrom_encode t

end BackendSwitch.Utf8
