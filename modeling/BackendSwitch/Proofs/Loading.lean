import BackendSwitch.Proofs.Files

/-! # Bytes that are no text

Bytes are decoded as far as they are a text. Behind that stands either a character that the end cuts short, or bytes
that begin no character. While a character is read, what may complete it is exactly what the decoder waits for, so
it stops at the first byte with which the bytes read so far begin no character any more. -/
namespace BackendSwitch
set_option autoImplicit false

namespace Utf8

/-- Bytes that a character may begin with. -/
def Opens (l : Bytes) : Prop := ∃ c, l <+: String.utf8EncodeChar c

/-- Some, but not all of the bytes of a character. -/
def Cut (l : Bytes) : Prop := l ≠ [] ∧ ∃ c, l <+: String.utf8EncodeChar c ∧ l ≠ String.utf8EncodeChar c

theorem Opens.shorten {l l' : Bytes} (h : Opens l) (hl : l' <+: l) : Opens l' := by
  obtain ⟨c, hc⟩ := h
  exact ⟨c, hl.trans hc⟩

/-! ## Characters from their digits -/

theorem exists_char {v : Nat} (h : v.isValidChar) : ∃ c : Char, c.val.toNat = v := ⟨.ofNatAux v h, rfl⟩

/-- Digits to the base 64 that two bytes are for make a character of two bytes. -/
theorem exists_char_two {n m : Nat} (hn : 2 ≤ n) (hn' : n < 32) (hm : m < 64) :
    ∃ c, String.utf8EncodeChar c = [.ofNat (n + 192), .ofNat (m + 128)] ∧ c.val.toNat = n * 64 + m := by
  obtain ⟨c, hc⟩ := exists_char (v := n * 64 + m) (.inl (by omega))
  have h1 : (n * 64 + m) / 64 % 32 = n := by omega
  have h2 : (n * 64 + m) % 64 = m := by omega
  refine ⟨c, ?_, hc⟩
  unfold String.utf8EncodeChar
  rw [hc, if_neg (by omega), if_pos (by omega), h1, h2]

theorem exists_char_three {n m k : Nat} (hn : n < 16) (hm : m < 64) (hk : k < 64) (hlow : n = 0 → 32 ≤ m)
    (hhigh : n = 13 → m < 32) : ∃ c, String.utf8EncodeChar c = [.ofNat (n + 224), .ofNat (m + 128), .ofNat (k + 128)] ∧
      c.val.toNat = (n * 64 + m) * 64 + k := by
  obtain ⟨c, hc⟩ := exists_char (v := (n * 64 + m) * 64 + k) (by unfold Nat.isValidChar; omega)
  have h1 : ((n * 64 + m) * 64 + k) / 4096 % 16 = n := by omega
  have h2 : ((n * 64 + m) * 64 + k) / 64 % 64 = m := by omega
  have h3 : ((n * 64 + m) * 64 + k) % 64 = k := by omega
  refine ⟨c, ?_, hc⟩
  unfold String.utf8EncodeChar
  rw [hc, if_neg (by omega), if_neg (by omega), if_pos (by omega), h1, h2, h3]

theorem exists_char_four {n m k j : Nat} (hn : n < 5) (hm : m < 64) (hk : k < 64) (hj : j < 64) (hlow : n = 0 → 16 ≤ m)
    (hhigh : n = 4 → m < 16) :
    ∃ c, String.utf8EncodeChar c = [.ofNat (n + 240), .ofNat (m + 128), .ofNat (k + 128), .ofNat (j + 128)] ∧
      c.val.toNat = ((n * 64 + m) * 64 + k) * 64 + j := by
  obtain ⟨c, hc⟩ := exists_char (v := ((n * 64 + m) * 64 + k) * 64 + j) (by unfold Nat.isValidChar; omega)
  have h1 : (((n * 64 + m) * 64 + k) * 64 + j) / 262144 % 8 = n := by omega
  have h2 : (((n * 64 + m) * 64 + k) * 64 + j) / 4096 % 64 = m := by omega
  have h3 : (((n * 64 + m) * 64 + k) * 64 + j) / 64 % 64 = k := by omega
  have h4 : (((n * 64 + m) * 64 + k) * 64 + j) % 64 = j := by omega
  refine ⟨c, ?_, hc⟩
  unfold String.utf8EncodeChar
  rw [hc, if_neg (by omega), if_neg (by omega), if_neg (by omega), h1, h2, h3, h4]

/-! ## What a pending character waits for -/

/-- A byte that is not the first of a character. -/
def Tail (b : UInt8) : Prop := 0x80 ≤ b ∧ b ≤ 0xbf

theorem Tail.exists_digit {b : UInt8} (h : Tail b) : ∃ m < 64, b = .ofNat (m + 128) ∧ b.toNat - 0x80 = m := by
  have hlow : 128 ≤ b.toNat := UInt8.le_iff_toNat_le.mp h.1
  have hhigh : b.toNat ≤ 191 := UInt8.le_iff_toNat_le.mp h.2
  refine ⟨b.toNat - 128, by omega, ?_, rfl⟩
  rw [Nat.sub_add_cancel hlow, UInt8.ofNat_toNat]

namespace Pending

/-- The bytes that complete a character: one within the bounds, and then the others that are missing. -/
def Fits (p : Pending) : Bytes → Prop
  | [] => False
  | b :: bs => (p.low ≤ b ∧ b ≤ p.high) ∧ bs.length + 1 = p.missing ∧ ∀ b' ∈ bs, Tail b'

/-- The code of the character with some bytes more. -/
def code (p : Pending) (bs : Bytes) : Nat := bs.foldl (fun v b => v * 64 + (b.toNat - 0x80)) p.value

/-- The pending character with one byte more. -/
def next (p : Pending) (b : UInt8) : Pending :=
  ⟨p.missing - 1, 0x80, 0xbf, p.value * 64 + (b.toNat - 0x80), p.read + 1⟩

theorem code_next (p : Pending) (b : UInt8) (bs : Bytes) : (p.next b).code bs = p.code (b :: bs) := by
  unfold code next
  rw [List.foldl_cons]

/-- Of a character the given bytes have been read, and the decoder waits for exactly what completes it. -/
structure Stands (p : Pending) (got : Bytes) : Prop where
  read : got.length = p.read
  pos : 0 < p.read
  missing : 0 < p.missing
  bounds : p.low ≤ p.high
  char : ∀ tail, p.Fits tail → ∃ c, String.utf8EncodeChar c = got ++ tail ∧ c.val.toNat = p.code tail
  fits : ∀ tail c, String.utf8EncodeChar c = got ++ tail → p.Fits tail

end Pending

/-- What the first byte of a character makes the decoder wait for follows in each character that begins with it. -/
theorem fits_of_utf8EncodeChar {c : Char} {b : UInt8} {tail : Bytes} (h : String.utf8EncodeChar c = b :: tail) :
    b < 0x80 ∧ tail = [] ∨ ¬ b < 0x80 ∧ ∃ p, lead? b = some p ∧ p.Fits tail := by
  have hvalid := c.valid
  unfold UInt32.isValidChar Nat.isValidChar at hvalid
  unfold String.utf8EncodeChar at h
  generalize c.val.toNat = v at hvalid h
  have digit : ∀ n, Tail (.ofNat (n % 64 + 128)) := fun n =>
    ⟨(tail_bounds (Nat.mod_lt n (by decide))).1, (tail_bounds (Nat.mod_lt n (by decide))).2.1⟩
  by_cases h1 : v ≤ 127
  · rw [if_pos h1] at h
    obtain ⟨rfl, rfl⟩ := List.cons.inj h
    have hbyte : (UInt8.ofNat v).toNat = v := UInt8.toNat_ofNat_of_lt (by show v < 256; omega)
    refine .inl ⟨?_, rfl⟩
    rw [UInt8.lt_iff_toNat_lt, hbyte]
    exact Nat.lt_succ_of_le h1
  by_cases h2 : v ≤ 2047
  · rw [if_neg h1, if_pos h2] at h
    obtain ⟨rfl, rfl⟩ := List.cons.inj h
    obtain ⟨hb, p, hlead, hmissing, -, -, hbounds⟩ := exists_of_begins
      (begins_two (Nat.mod_lt (v / 64) (by decide)) (Nat.mod_lt v (by decide)) (by omega))
    exact .inr ⟨hb, p, hlead, hbounds, hmissing.symm, by simp⟩
  by_cases h3 : v ≤ 65535
  · rw [if_neg h1, if_neg h2, if_pos h3] at h
    obtain ⟨rfl, rfl⟩ := List.cons.inj h
    obtain ⟨hb, p, hlead, hmissing, -, -, hbounds⟩ := exists_of_begins
      (begins_three (Nat.mod_lt (v / 4096) (by decide)) (Nat.mod_lt (v / 64) (by decide)) (by omega) (by omega))
    exact .inr ⟨hb, p, hlead, hbounds, hmissing.symm, List.forall_mem_singleton.mpr (digit v)⟩
  · rw [if_neg h1, if_neg h2, if_neg h3] at h
    obtain ⟨rfl, rfl⟩ := List.cons.inj h
    have hfour : v / 262144 % 8 < 5 := by omega
    obtain ⟨hb, p, hlead, hmissing, -, -, hbounds⟩ := exists_of_begins
      (begins_four hfour (Nat.mod_lt (v / 4096) (by decide)) (by omega) (by omega))
    have hdigits := List.forall_mem_cons.mpr ⟨digit (v / 64), List.forall_mem_singleton.mpr (digit v)⟩
    exact .inr ⟨hb, p, hlead, hbounds, hmissing.symm, hdigits⟩

/-- What a first byte says of the second one, as digits to the base 64. -/
inductive Leads (b : UInt8) (p : Pending) : Prop where
  | two (hmissing : p.missing = 1) (hb : b = .ofNat (p.value + 192)) (hlow : 2 ≤ p.value) (hhigh : p.value < 32)
  | three (hmissing : p.missing = 2) (hb : b = .ofNat (p.value + 224)) (hvalue : p.value < 16)
      (hlow : p.value = 0 → p.low = 0xa0) (hhigh : p.value = 13 → p.high = 0x9f)
  | four (hmissing : p.missing = 3) (hb : b = .ofNat (p.value + 240)) (hvalue : p.value < 5)
      (hlow : p.value = 0 → p.low = 0x90) (hhigh : p.value = 4 → p.high = 0x8f)

theorem leads_of_lead? {b : UInt8} {p : Pending} (h : lead? b = some p) :
    Leads b p ∧ p.read = 1 ∧ 0x80 ≤ p.low ∧ p.low ≤ p.high ∧ p.high ≤ 0xbf := by
  have hb : ∀ k, k ≤ b.toNat → b = .ofNat (b.toNat - k + k) := by
    intro k hk
    rw [Nat.sub_add_cancel hk, UInt8.ofNat_toNat]
  have hge : ∀ k : UInt8, k ≤ b → k.toNat ≤ b.toNat := fun k => UInt8.le_iff_toNat_le.mp
  have hle : ∀ k : UInt8, b ≤ k → b.toNat ≤ k.toNat := fun k => UInt8.le_iff_toNat_le.mp
  have hbounds : (0x80 : UInt8) ≤ 0x80 ∧ (0x80 : UInt8) ≤ 0xbf ∧ (0xbf : UInt8) ≤ 0xbf := by decide
  unfold lead? at h
  split at h
  · next hrange =>
    obtain rfl := Option.some.inj h
    have h1 : 194 ≤ b.toNat := hge _ hrange.1
    have h2 : b.toNat ≤ 223 := hle _ hrange.2
    exact ⟨.two rfl (hb 192 (by omega)) (by show 2 ≤ b.toNat - 192; omega) (by show b.toNat - 192 < 32; omega), rfl,
      hbounds⟩
  split at h
  · next heq =>
    obtain rfl := Option.some.inj h
    exact ⟨.three rfl heq (by decide) (fun _ => rfl) (fun h => by cases h), rfl, by decide, by decide, by decide⟩
  split at h
  · next heq =>
    obtain rfl := Option.some.inj h
    exact ⟨.three rfl heq (by decide) (fun h => by cases h) (fun _ => rfl), rfl, by decide, by decide, by decide⟩
  split at h
  · next hnone hsurrogate hrange =>
    obtain rfl := Option.some.inj h
    have h1 : 225 ≤ b.toNat := hge _ hrange.1
    have h2 : b.toNat ≤ 239 := hle _ hrange.2
    have h3 : b.toNat ≠ 237 := fun h => hsurrogate (by rw [← UInt8.ofNat_toNat (x := b), h]; rfl)
    exact ⟨.three rfl (hb 224 (by omega)) (by show b.toNat - 224 < 16; omega)
      (fun h => absurd (show b.toNat - 224 = 0 from h) (by omega))
      (fun h => absurd (show b.toNat - 224 = 13 from h) (by omega)), rfl, hbounds⟩
  split at h
  · next heq =>
    obtain rfl := Option.some.inj h
    exact ⟨.four rfl heq (by decide) (fun _ => rfl) (fun h => by cases h), rfl, by decide, by decide, by decide⟩
  split at h
  · next hrange =>
    obtain rfl := Option.some.inj h
    have h1 : 241 ≤ b.toNat := hge _ hrange.1
    have h2 : b.toNat ≤ 243 := hle _ hrange.2
    exact ⟨.four rfl (hb 240 (by omega)) (by show b.toNat - 240 < 5; omega)
      (fun h => absurd (show b.toNat - 240 = 0 from h) (by omega))
      (fun h => absurd (show b.toNat - 240 = 4 from h) (by omega)), rfl, hbounds⟩
  split at h
  · next heq =>
    obtain rfl := Option.some.inj h
    exact ⟨.four rfl heq (by decide) (fun h => by cases h) (fun _ => rfl), rfl, by decide, by decide, by decide⟩
  · cases h

/-- The bytes that complete a character come to a code of the length that the first byte says: the bounds of the second
byte keep out codes that need fewer bytes, surrogates and codes that are too large. -/
theorem Leads.exists_char {b : UInt8} {p : Pending} (h : Leads b p) (hlow : 0x80 ≤ p.low) (hhigh : p.high ≤ 0xbf)
    {tail : Bytes} (htail : p.Fits tail) :
    ∃ c, String.utf8EncodeChar c = b :: tail ∧ c.val.toNat = p.code tail := by
  cases tail with
  | nil => exact htail.elim
  | cons b' tail =>
    obtain ⟨hb', hlength, htail⟩ := htail
    have hcontinues : Tail b' := ⟨UInt8.le_trans hlow hb'.1, UInt8.le_trans hb'.2 hhigh⟩
    obtain ⟨m, hm, rfl, hdigit⟩ := hcontinues.exists_digit
    have hbyte : (UInt8.ofNat (m + 128)).toNat = m + 128 := UInt8.toNat_ofNat_of_lt (by show m + 128 < 256; omega)
    have hge : p.low.toNat ≤ m + 128 := hbyte ▸ UInt8.le_iff_toNat_le.mp hb'.1
    have hle : m + 128 ≤ p.high.toNat := hbyte ▸ UInt8.le_iff_toNat_le.mp hb'.2
    cases h with
    | two hmissing hb hmin hmax =>
      obtain rfl : tail = [] := List.eq_nil_of_length_eq_zero (by omega)
      obtain ⟨c, hc, hcode⟩ := exists_char_two hmin hmax hm
      refine ⟨c, by rw [hc, hb], ?_⟩
      rw [hcode, Pending.code, List.foldl_cons, List.foldl_nil, hdigit]
    | three hmissing hb hvalue hmin hmax =>
      obtain ⟨b₂, rfl⟩ : ∃ b₂, tail = [b₂] := List.length_eq_one_iff.mp (by omega)
      obtain ⟨k, hk, rfl, hdigit₂⟩ := (htail b₂ (List.mem_cons_self ..)).exists_digit
      have hmin' : p.value = 0 → 160 ≤ m + 128 := fun h0 => by rwa [hmin h0] at hge
      have hmax' : p.value = 13 → m + 128 ≤ 159 := fun h0 => by rwa [hmax h0] at hle
      obtain ⟨c, hc, hcode⟩ := exists_char_three hvalue hm hk (by omega) (by omega)
      refine ⟨c, by rw [hc, hb], ?_⟩
      rw [hcode, Pending.code, List.foldl_cons, List.foldl_cons, List.foldl_nil, hdigit, hdigit₂]
    | four hmissing hb hvalue hmin hmax =>
      obtain ⟨b₂, rest, rfl⟩ : ∃ b₂ rest, tail = b₂ :: rest := List.exists_cons_of_length_pos (by omega)
      rw [List.length_cons] at hlength
      obtain ⟨b₃, rfl⟩ : ∃ b₃, rest = [b₃] := List.length_eq_one_iff.mp (by omega)
      obtain ⟨k, hk, rfl, hdigit₂⟩ := (htail b₂ (List.mem_cons_self ..)).exists_digit
      obtain ⟨j, hj, rfl, hdigit₃⟩ := (htail b₃ (List.mem_cons_of_mem _ (List.mem_cons_self ..))).exists_digit
      have hmin' : p.value = 0 → 144 ≤ m + 128 := fun h0 => by rwa [hmin h0] at hge
      have hmax' : p.value = 4 → m + 128 ≤ 143 := fun h0 => by rwa [hmax h0] at hle
      obtain ⟨c, hc, hcode⟩ := exists_char_four hvalue hm hk hj (by omega) (by omega)
      refine ⟨c, by rw [hc, hb], ?_⟩
      rw [hcode, Pending.code, List.foldl_cons, List.foldl_cons, List.foldl_cons, List.foldl_nil, hdigit, hdigit₂, hdigit₃]

theorem stands_of_lead? {b : UInt8} {p : Pending} (hb : ¬ b < 0x80) (h : lead? b = some p) : p.Stands [b] := by
  obtain ⟨hleads, hread, hlow, hbounds, hhigh⟩ := leads_of_lead? h
  have hmissing : 0 < p.missing := by cases hleads <;> omega
  refine ⟨hread.symm, by omega, hmissing, hbounds, fun tail htail => hleads.exists_char hlow hhigh htail, ?_⟩
  intro tail c hc
  rcases fits_of_utf8EncodeChar hc with ⟨hascii, -⟩ | ⟨-, q, hq, hfits⟩
  · exact absurd hascii hb
  · obtain rfl := Option.some.inj (h.symm.trans hq)
    exact hfits

theorem Pending.Stands.next {p : Pending} {got : Bytes} {b : UInt8} (h : p.Stands got) (hb : p.low ≤ b ∧ b ≤ p.high)
    (hmissing : p.missing ≠ 1) : (p.next b).Stands (got ++ [b]) where
  read := by rw [List.length_append, h.read]; rfl
  pos := Nat.succ_pos _
  missing := by
    have hpos := h.missing
    show 0 < p.missing - 1
    omega
  bounds := by
    show (0x80 : UInt8) ≤ 0xbf
    decide
  char tail htail := by
    cases tail with
    | nil => exact htail.elim
    | cons b' tail =>
      obtain ⟨hb', hlength, htail⟩ := htail
      have hlength' : tail.length + 1 = p.missing - 1 := hlength
      have hfits : p.Fits (b :: b' :: tail) :=
        ⟨hb, by rw [List.length_cons]; omega, List.forall_mem_cons.mpr ⟨hb', htail⟩⟩
      obtain ⟨c, hc, hcode⟩ := h.char _ hfits
      exact ⟨c, by rw [hc, List.append_assoc]; rfl, by rw [hcode, code_next]⟩
  fits tail c hc := by
    obtain ⟨-, hlength, htail⟩ := h.fits (b :: tail) c (by rw [hc, List.append_assoc]; rfl)
    cases tail with
    | nil => exact absurd hlength.symm hmissing
    | cons b' tail =>
      obtain ⟨hb', htail⟩ := List.forall_mem_cons.mp htail
      refine ⟨hb', ?_, htail⟩
      show tail.length + 1 = p.missing - 1
      rw [List.length_cons] at hlength
      omega

/-- The bytes of a pending character begin some character. -/
theorem Pending.Stands.opens {p : Pending} {got : Bytes} (h : p.Stands got) : Opens got := by
  have hfits : p.Fits (p.low :: List.replicate (p.missing - 1) 0x80) := by
    refine ⟨⟨UInt8.le_refl _, h.bounds⟩, ?_, fun b hb => ?_⟩
    · rw [List.length_replicate]
      exact Nat.sub_add_cancel h.missing
    · rw [List.eq_of_mem_replicate hb]
      exact ⟨by decide, by decide⟩
  obtain ⟨c, hc, -⟩ := h.char _ hfits
  exact ⟨c, hc ▸ List.prefix_append _ _⟩

/-- They are not all bytes of it, whatever follows. -/
theorem Pending.Stands.not_char {p : Pending} {got : Bytes} (h : p.Stands got) (c : Char) :
    String.utf8EncodeChar c ≠ got := by
  intro hc
  exact h.fits [] c (by rw [hc, List.append_nil])

/-- A byte out of bounds fits no character that begins with the bytes read so far. -/
theorem Pending.Stands.not_opens {p : Pending} {got : Bytes} {b : UInt8} (h : p.Stands got)
    (hb : ¬ (p.low ≤ b ∧ b ≤ p.high)) : ¬ Opens (got ++ [b]) := by
  rintro ⟨c, tail, hc⟩
  obtain ⟨hb', -⟩ := h.fits (b :: tail) c (by rw [← hc, List.append_assoc]; rfl)
  exact hb hb'

/-! ## Where decoding stops -/

/-- No byte of a character is missing in front of another one. -/
theorem char_eq_of_begins {c c' : Char} (h : String.utf8EncodeChar c <+: String.utf8EncodeChar c') : c = c' := by
  obtain ⟨tail, htail⟩ := h
  obtain ⟨index, hfirst⟩ : ∃ index, decodeFrom 0 none (String.utf8EncodeChar c ++ tail) =
      prepend c (decodeFrom index none tail) := decodeFrom_char c
  have hall : decodeFrom 0 none (String.utf8EncodeChar c') = .ok [c'] := by
    have henc := decode_encode [c']
    rwa [decode, encode, List.flatMap_cons, List.flatMap_nil, List.append_nil] at henc
  rw [htail, hall] at hfirst
  cases hrest : decodeFrom index none tail with
  | error f =>
    rw [hrest] at hfirst
    cases hfirst
  | ok t =>
    rw [hrest] at hfirst
    exact (List.cons.inj (Except.ok.inj hfirst)).1.symm

/-- What stands where bytes stop to be a text: a character that the end cuts short, or bytes that begin a character up
to one byte that does not belong to it. -/
inductive Stuck (rest : Bytes) : Option Nat → Prop where
  | short (hopens : Opens rest) (hne : rest ≠ []) (hchar : ∀ c, String.utf8EncodeChar c ≠ rest) : Stuck rest none
  | wrong {l more : Bytes} {b : UInt8} (hrest : rest = l ++ b :: more) (hopens : Opens l)
      (hchar : ∀ c, String.utf8EncodeChar c ≠ l) (hstop : ¬ Opens (l ++ [b])) : Stuck rest (some (max 1 l.length))

/-- What decoding gives, of bytes that begin with those of a pending character, at a place with a number of bytes in front. -/
def Decodes (index : Nat) (bs : Bytes) : Except Fault Text → Prop
  | .ok t => bs = encode t
  | .error f => ∃ t rest, bs = encode t ++ rest ∧ f.index = index + (encode t).length ∧ Stuck rest f.wrong

theorem Decodes.prepend {index : Nat} {bs : Bytes} {c : Char} {result : Except Fault Text}
    (h : Decodes (index + (String.utf8EncodeChar c).length) bs result) :
    Decodes index (String.utf8EncodeChar c ++ bs) (prepend c result) := by
  cases result with
  | ok t =>
    obtain rfl : bs = encode t := h
    rfl
  | error f =>
    obtain ⟨t, rest, rfl, hindex, hstuck⟩ := h
    refine ⟨c :: t, rest, by rw [encode, encode, List.flatMap_cons, List.append_assoc], ?_, hstuck⟩
    rw [hindex, encode, encode, List.flatMap_cons, List.length_append, Nat.add_assoc]

theorem utf8EncodeChar_ofNat {c : Char} {n : Nat} {l : Bytes} (hc : String.utf8EncodeChar c = l)
    (hcode : c.val.toNat = n) : String.utf8EncodeChar (Char.ofNat n) = l := by
  rw [← hcode]
  exact (congrArg String.utf8EncodeChar (Char.ofNat_toNat c)).trans hc

theorem utf8EncodeChar_ascii {b : UInt8} (hb : b < 0x80) : String.utf8EncodeChar (Char.ofNat b.toNat) = [b] := by
  have hlt : b.toNat < 128 := UInt8.lt_iff_toNat_lt.mp hb
  obtain ⟨c, hc⟩ := exists_char (v := b.toNat) (.inl (by omega))
  refine utf8EncodeChar_ofNat ?_ hc
  unfold String.utf8EncodeChar
  rw [hc, if_pos (by omega), UInt8.ofNat_toNat]

theorem utf8EncodeChar_ne_nil (c : Char) : String.utf8EncodeChar c ≠ [] := by
  unfold String.utf8EncodeChar
  dsimp only
  repeat' split
  all_goals exact List.cons_ne_nil _ _

/-- A byte that begins no character. -/
theorem stuck_of_lead? {b : UInt8} {bs : Bytes} (hb : ¬ b < 0x80) (h : lead? b = none) : Stuck (b :: bs) (some 1) := by
  refine .wrong (List.nil_append (b :: bs)).symm ⟨' ', List.nil_prefix⟩ utf8EncodeChar_ne_nil ?_
  rintro ⟨c, tail, hc⟩
  rcases fits_of_utf8EncodeChar hc.symm with ⟨hascii, -⟩ | ⟨-, p, hp, -⟩
  · exact hb hascii
  · rw [h] at hp
    cases hp

/-- The induction is on the bytes, for the decoder between characters and within one at the same time. -/
theorem decodes_decodeFrom (bs : Bytes) (index : Nat) :
    Decodes index bs (decodeFrom index none bs) ∧
      ∀ p got, Pending.Stands p got → Decodes index (got ++ bs) (decodeFrom index (some p) bs) := by
  induction bs generalizing index with
  | nil =>
    refine ⟨rfl, fun p got h => ?_⟩
    refine ⟨[], got, by simp [encode], rfl, .short h.opens ?_ h.not_char⟩
    rintro rfl
    exact absurd h.read (Nat.ne_of_lt h.pos)
  | cons b bs ih =>
    constructor
    · by_cases hb : b < 0x80
      · have hrest := @Decodes.prepend index bs (Char.ofNat b.toNat) _ (by
          rw [utf8EncodeChar_ascii hb]
          exact (ih (index + 1)).1)
        rw [utf8EncodeChar_ascii hb] at hrest
        rw [decodeFrom, if_pos hb]
        exact hrest
      · rw [decodeFrom, if_neg hb]
        cases hlead : lead? b with
        | none => exact ⟨[], b :: bs, rfl, rfl, stuck_of_lead? hb hlead⟩
        | some p => exact (ih index).2 p [b] (stands_of_lead? hb hlead)
    · intro p got h
      rw [decodeFrom]
      split
      · next hbounds =>
        dsimp only
        split
        · next hmissing =>
          obtain ⟨c, hc, hcode⟩ := h.char [b] ⟨hbounds, hmissing.symm, by simp⟩
          have hchar := utf8EncodeChar_ofNat hc hcode
          have hrest := @Decodes.prepend index bs (Char.ofNat (p.code [b])) _ (by
            rw [hchar, List.length_append, h.read, List.length_singleton, ← Nat.add_assoc]
            exact (ih (index + p.read + 1)).1)
          rw [hchar, List.append_assoc] at hrest
          exact hrest
        · next hmissing =>
          have hrest := (ih index).2 _ _ (h.next hbounds hmissing)
          rw [List.append_assoc] at hrest
          exact hrest
      · next hbounds =>
        refine ⟨[], got ++ b :: bs, rfl, rfl, ?_⟩
        have hstuck : Stuck (got ++ b :: bs) (some (max 1 got.length)) :=
          .wrong rfl h.opens h.not_char (h.not_opens hbounds)
        rwa [Nat.max_eq_right (by rw [h.read]; exact h.pos), h.read] at hstuck

/-! ## The first fault -/

theorem not_prefix_of_opens {l : Bytes} (hopens : Opens l) (hchar : ∀ c, String.utf8EncodeChar c ≠ l) (c : Char) :
    ¬ String.utf8EncodeChar c <+: l := by
  intro hc
  obtain ⟨c', hc'⟩ := hopens
  obtain rfl := char_eq_of_begins (hc.trans hc')
  exact hchar c (hc.eq_of_length_le hc'.length_le)

/-- Longer beginnings of the bytes than up to the byte that stops the decoder begin no character. -/
theorem length_le_of_opens {l l' more : Bytes} {b : UInt8} (hstop : ¬ Opens (l ++ [b])) (h : l' <+: l ++ b :: more)
    (hopens : Opens l') : l'.length ≤ l.length := by
  have hb : l ++ [b] <+: l ++ b :: more := ⟨more, by rw [List.append_assoc]; rfl⟩
  rcases List.prefix_or_prefix_of_prefix h hb with hl | hl
  · rcases List.prefix_concat_iff.mp hl with rfl | hl
    · exact absurd hopens hstop
    · exact hl.length_le
  · exact absurd (hopens.shorten hl) hstop

namespace Stuck

variable {rest : Bytes} {wrong : Option Nat}

theorem not_char (h : Stuck rest wrong) (c : Char) : ¬ String.utf8EncodeChar c <+: rest := by
  cases h with
  | short hopens _ hchar => exact not_prefix_of_opens hopens hchar c
  | @wrong l more b hrest hopens hchar hstop =>
    intro hc
    rw [hrest] at hc
    have hlength := length_le_of_opens hstop hc ⟨c, List.prefix_refl _⟩
    exact not_prefix_of_opens hopens hchar c (List.prefix_of_prefix_length_le hc (List.prefix_append ..) hlength)

/-- No longer text than the decoded one is in front of the fault. -/
theorem longest (h : Stuck rest wrong) {t t' : Text} (ht : encode t' <+: encode t ++ rest) :
    (encode t').length ≤ (encode t).length := by
  induction t generalizing t' with
  | nil =>
    cases t' with
    | nil => exact Nat.le_refl _
    | cons c t' => exact absurd ((List.prefix_append ..).trans ht) (h.not_char c)
  | cons c t ih =>
    cases t' with
    | nil => exact Nat.zero_le _
    | cons c' t' =>
      have hcons : ∀ (c : Char) (t : Text), encode (c :: t) = String.utf8EncodeChar c ++ encode t := fun _ _ => rfl
      rw [hcons, hcons, List.append_assoc] at ht
      have hsame : c' = c := by
        rcases List.prefix_or_prefix_of_prefix ((List.prefix_append ..).trans ht) (List.prefix_append ..) with hc | hc
        · exact char_eq_of_begins hc
        · exact (char_eq_of_begins hc).symm
      subst hsame
      have hle := ih ((List.prefix_append_right_inj _).mp ht)
      rw [hcons, hcons, List.length_append, List.length_append]
      omega

theorem cut_iff (h : Stuck rest wrong) : Cut rest ↔ wrong = none := by
  cases h with
  | short hopens hne hchar =>
    obtain ⟨c, hc⟩ := hopens
    exact ⟨fun _ => rfl, fun _ => ⟨hne, c, hc, (hchar c).symm⟩⟩
  | @wrong l more b hrest _ _ hstop =>
    constructor
    · rintro ⟨-, c, hc, -⟩
      refine absurd ⟨c, List.IsPrefix.trans ⟨more, ?_⟩ hc⟩ hstop
      rw [hrest, List.append_assoc]
      rfl
    · intro h
      cases h

theorem exists_longest {n : Nat} (h : Stuck rest (some n)) : ∃ l, l <+: rest ∧ Opens l ∧
    (∀ l', l' <+: rest → Opens l' → l'.length ≤ l.length) ∧ n = max 1 l.length := by
  cases h with
  | @wrong l more b hrest hopens _ hstop =>
    subst hrest
    exact ⟨l, List.prefix_append .., hopens, fun l' hl' => length_le_of_opens hstop hl', rfl⟩

end Stuck

/-- Bytes that are no text are one up to the index of the fault, and no longer text is in front of them. -/
theorem decode_eq_error {bs : Bytes} {f : Fault} (h : decode bs = .error f) : ∃ t rest,
    bs = encode t ++ rest ∧ f.index = (encode t).length ∧ Stuck rest f.wrong := by
  have hdecodes := (decodes_decodeFrom bs 0).1
  rw [← decode, h] at hdecodes
  obtain ⟨t, rest, hbs, hindex, hstuck⟩ := hdecodes
  exact ⟨t, rest, hbs, by rw [hindex, Nat.zero_add], hstuck⟩

theorem eq_encode_of_decode {bs : Bytes} {t : Text} (h : decode bs = .ok t) : bs = encode t := by
  have hdecodes := (decodes_decodeFrom bs 0).1
  rwa [← decode, h] at hdecodes

end Utf8

/-! ## Loading -/

namespace Document

open Utf8 (Bytes encode Opens Cut)

/-- A file is loaded as the text that its bytes are. If they are none, the failure names the length of the longest text at
their beginning, and tells whether a character is cut short there or how many of the bytes there could begin one. -/
theorem load_of_bytes {fs : FileSystem} {path : Text} {bs : Bytes} (h : fs.read path = .ok bs) :
    (∀ t, bs = encode t → load fs path = parse path t) ∧
    ((∀ t, bs ≠ encode t) → ∃ t rest, bs = encode t ++ rest ∧
      (∀ t', encode t' <+: bs → (encode t').length ≤ (encode t).length) ∧
      (Cut rest → load fs path = .error (.malformed path ("file is not valid UTF-8: ".toList ++
        ("incomplete utf-8 byte sequence from index ".toList ++ Nat.toDigits 10 (encode t).length)) none none none)) ∧
      (¬ Cut rest → ∃ l, l <+: rest ∧ Opens l ∧ (∀ l', l' <+: rest → Opens l' → l'.length ≤ l.length) ∧
        load fs path = .error (.malformed path ("file is not valid UTF-8: ".toList ++
          ("invalid utf-8 sequence of ".toList ++ Nat.toDigits 10 (max 1 l.length) ++ " bytes from index ".toList ++
            Nat.toDigits 10 (encode t).length)) none none none))) := by
  refine ⟨fun t ht => load_of_read (by rw [h, ht]), fun hnone => ?_⟩
  cases hdecode : Utf8.decode bs with
  | ok t => exact absurd (Utf8.eq_encode_of_decode hdecode) (hnone t)
  | error f =>
    have hload : load fs path =
        .error (.malformed path ("file is not valid UTF-8: ".toList ++ f.message) none none none) := by
      rw [load, h, ofRead, hdecode]
    obtain ⟨index, wrong⟩ := f
    obtain ⟨t, rest, hbs, rfl, hstuck⟩ := Utf8.decode_eq_error hdecode
    refine ⟨t, rest, hbs, fun t' ht' => hstuck.longest (hbs ▸ ht'), fun hcut => ?_, fun hcut => ?_⟩
    · obtain rfl := hstuck.cut_iff.mp hcut
      exact hload
    · cases wrong with
      | none => exact absurd (hstuck.cut_iff.mpr rfl) hcut
      | some n =>
        obtain ⟨l, hl, hopens, hlongest, rfl⟩ := hstuck.exists_longest
        exact ⟨l, hl, hopens, hlongest, hload⟩

/-- A character of two bytes, two bytes of a character of four, and a letter. -/
def brokenBytes : Bytes := [0xc3, 0xa9, 0xf0, 0x90, 0x61]

def brokenFile : FileSystem := .ofList [("main.tf".toList, some brokenBytes)]

theorem load_of_bytes_broken : brokenFile.read "main.tf".toList = .ok brokenBytes ∧ (∀ t, brokenBytes ≠ encode t) ∧
    ∃ t rest, brokenBytes = encode t ++ rest ∧
      (∀ t', encode t' <+: brokenBytes → (encode t').length ≤ (encode t).length) ∧
      (Cut rest → load brokenFile "main.tf".toList = .error (.malformed "main.tf".toList
        ("file is not valid UTF-8: ".toList ++ ("incomplete utf-8 byte sequence from index ".toList ++
          Nat.toDigits 10 (encode t).length)) none none none)) ∧
      (¬ Cut rest → ∃ l, l <+: rest ∧ Opens l ∧ (∀ l', l' <+: rest → Opens l' → l'.length ≤ l.length) ∧
        load brokenFile "main.tf".toList = .error (.malformed "main.tf".toList ("file is not valid UTF-8: ".toList ++
          ("invalid utf-8 sequence of ".toList ++ Nat.toDigits 10 (max 1 l.length) ++ " bytes from index ".toList ++
            Nat.toDigits 10 (encode t).length)) none none none)) := by
  have hread : brokenFile.read "main.tf".toList = .ok brokenBytes := rfl
  have hnone : ∀ t, brokenBytes ≠ encode t := by
    intro t ht
    have hfault : Utf8.decode brokenBytes = .error ⟨2, some 2⟩ := rfl
    rw [ht, Utf8.decode_encode] at hfault
    cases hfault
  exact ⟨hread, hnone, (load_of_bytes hread).2 hnone⟩

end Document
end BackendSwitch
