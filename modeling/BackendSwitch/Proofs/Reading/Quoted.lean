import BackendSwitch.Grammar.Template
import BackendSwitch.Proofs.Reading.Steps

/-! # Escaped text is read back

Text inside quotes is written with every template marker doubled and every special character escaped, and read back one
fragment at a time. The doubling is where the writing can go wrong: behind the first marker a sign hides the one right
after it. A text whose markers are all doubled is legible. -/
namespace BackendSwitch
set_option autoImplicit false

namespace Escape

/-! ## Doubled markers -/

/-- The text with the sign of every marker doubled. -/
def doubled : Text → Text
  | [] => []
  | c :: '{' :: t => if isMarkerSign c then c :: c :: '{' :: doubled t else c :: doubled ('{' :: t)
  | c :: t => c :: doubled t

/-- A text of which no marker is written as it is. -/
def Legible (t : Text) : Prop := markers t = doubled t

instance (t : Text) : Decidable (Legible t) := inferInstanceAs (Decidable (_ = _))

/-- A text does not end with the sign of the marker that begins behind it. -/
def Parted (t r : Text) : Prop :=
  r.head? ≠ some '{' ∧ ∀ c v, isMarkerSign c = true → r = c :: '{' :: v → t.getLast? ≠ some c

theorem Parted.tail {c : Char} {t r : Text} (h : Parted (c :: t) r) : Parted t r := by
  refine ⟨h.1, fun d v hd hr hlast => h.2 d v hd hr ?_⟩
  rw [List.getLast?_cons, hlast]
  rfl

theorem isMarkerSign_iff {c : Char} : isMarkerSign c = true ↔ c = '$' ∨ c = '%' := by simp [isMarkerSign]

/-- A sign in front of the given text would make a marker, or a doubled one. -/
def Opens (c : Char) (u : Text) : Prop := u.head? = some '{' ∨ ∃ v, u = c :: '{' :: v

theorem doubled_of_sign {c : Char} {t : Text} (h : isMarkerSign c = true) :
    doubled (c :: '{' :: t) = c :: c :: '{' :: doubled t := by
  simp [doubled, h]

theorem doubled_of_plain {c : Char} {t : Text} (h : isMarkerSign c = false ∨ t.head? ≠ some '{') :
    doubled (c :: t) = c :: doubled t := by
  by_cases ht : t.head? = some '{'
  · obtain ⟨u, rfl⟩ : ∃ u, t = '{' :: u := by
      cases t with
      | nil => cases ht
      | cons d u => exact ⟨u, by rw [Option.some.inj ht]⟩
    have hsign : isMarkerSign c = false := h.resolve_right (fun e => e ht)
    rw [doubled.eq_2, hsign]
    rfl
  · exact doubled.eq_3 c t fun u hu => ht (by rw [hu]; rfl)

/-- Texts by their markers: one that begins with a marker, or with any other character. -/
theorem marker_cases (c : Char) (t : Text) :
    (isMarkerSign c = true ∧ ∃ u, t = '{' :: u) ∨ (isMarkerSign c = false ∨ t.head? ≠ some '{') := by
  cases hc : isMarkerSign c with
  | false => exact .inr (.inl rfl)
  | true =>
    match t with
    | [] => exact .inr (.inr (by simp))
    | d :: u =>
      by_cases hd : d = '{'
      · exact .inl ⟨rfl, u, by rw [hd]⟩
      · exact .inr (.inr (by simp [hd]))

theorem length_le_doubled (t : Text) : t.length ≤ (doubled t).length := by
  fun_induction doubled t with
  | case1 => simp
  | case2 c t _ ih =>
    simp only [List.length_cons]
    omega
  | case3 c t _ ih =>
    simp only [List.length_cons] at ih ⊢
    omega
  | case4 c t _ ih =>
    simp only [List.length_cons]
    omega

theorem head_doubled {t r : Text} (h : (doubled t ++ r).head? = some '{') (hr : r.head? ≠ some '{') :
    t.head? = some '{' := by
  match t with
  | [] => exact absurd h hr
  | c :: t =>
    rcases marker_cases c t with ⟨hc, u, rfl⟩ | hplain
    · rw [doubled_of_sign hc] at h
      exact h
    · rw [doubled_of_plain hplain] at h
      exact h

/-- Behind a sign that is kept as it is, the doubled text does not begin a marker with it. -/
theorem not_opens_doubled {c : Char} {t r : Text} (hc : isMarkerSign c = true) (ht : t.head? ≠ some '{')
    (h : Parted (c :: t) r) : ¬ Opens c (doubled t ++ r) := by
  rintro (hhead | ⟨v, hv⟩)
  · exact ht (head_doubled hhead h.1)
  · match t with
    | [] => exact h.2 c v hc hv rfl
    | d :: t =>
      rcases marker_cases d t with ⟨hd, u, rfl⟩ | hplain
      · rw [doubled_of_sign hd] at hv
        injection hv with h1 h2
        injection h2 with h2 _
        rw [h2] at hd
        exact absurd hd (by decide)
      · rw [doubled_of_plain hplain, List.cons_append] at hv
        injection hv with h1 h2
        subst h1
        have hbrace : t.head? = some '{' := head_doubled (by rw [h2]; rfl) h.1
        exact hplain.elim (fun e => by simp [hc] at e) (fun e => e hbrace)

/-! ## Characters -/

theorem char_of_sign {c : Char} (h : isMarkerSign c = true) : char c = [c] := by
  rcases isMarkerSign_iff.mp h with rfl | rfl
  · rfl
  · rfl

theorem char_brace : char '{' = ['{'] := rfl

theorem chars_cons (c : Char) (t : Text) : chars (c :: t) = char c ++ chars t := rfl

/-- An escaped character begins with itself or with a backslash. -/
theorem char_eq_cons (c : Char) : ∃ d u, char c = d :: u ∧ (d = c ∧ u = [] ∨ d = '\\') := by
  unfold char
  repeat' split
  all_goals exact ⟨_, _, rfl, by simp⟩

theorem length_le_chars (t : Text) : t.length ≤ (chars t).length := by
  refine Reader.length_le_length_flatMap fun c _ => ?_
  obtain ⟨d, u, hd, -⟩ := char_eq_cons c
  simp [hd]

theorem head_chars {t r : Text} {c : Char} (h : (chars t ++ r).head? = some c) (hc : c ≠ '\\') :
    (t ++ r).head? = some c := by
  cases t with
  | nil => exact h
  | cons d t =>
    obtain ⟨e, u, he, ⟨rfl, -⟩ | rfl⟩ := char_eq_cons d
    · rw [chars_cons, he] at h
      exact h
    · rw [chars_cons, he] at h
      exact absurd (Option.some.inj h).symm hc

/-- Escaping characters makes no marker. -/
theorem not_opens_chars {c : Char} {t r : Text} (hc : isMarkerSign c = true) (h : ¬ Opens c (t ++ r)) :
    ¬ Opens c (chars t ++ r) := by
  rintro (hhead | ⟨v, hv⟩)
  · exact h (.inl (head_chars hhead (by decide)))
  · match t with
    | [] => exact h (.inr ⟨v, hv⟩)
    | d :: t =>
      have hslash : c ≠ '\\' := fun e => by simp [e, isMarkerSign] at hc
      obtain ⟨e, u, he, ⟨rfl, rfl⟩ | rfl⟩ := char_eq_cons d
      · rw [chars_cons, he, List.cons_append, List.nil_append, List.cons_append] at hv
        injection hv with h1 h2
        have hbrace : (t ++ r).head? = some '{' := head_chars (by rw [h2]; rfl) (by decide)
        cases hu : t ++ r with
        | nil => simp [hu] at hbrace
        | cons f w =>
          have hf : f = '{' := by simpa [hu] using hbrace
          refine h (.inr ⟨w, ?_⟩)
          rw [List.cons_append, h1, hu, hf]
      · rw [chars_cons, he] at hv
        exact absurd (List.cons.inj hv).1.symm hslash

/-- A character that is no quote and no backslash in escaped text stands for itself. -/
theorem chars_eq_cons {c : Char} {u v r : Text} (h : chars u ++ '"' :: r = c :: v) (hquote : c ≠ '"') (hslash : c ≠ '\\') :
    ∃ w, u = c :: w ∧ chars w ++ '"' :: r = v := by
  match u with
  | [] => exact absurd (List.cons.inj h).1.symm hquote
  | d :: w =>
    obtain ⟨e, x, he, ⟨rfl, rfl⟩ | rfl⟩ := char_eq_cons d
    · rw [chars_cons, he] at h
      obtain ⟨rfl, hrest⟩ := List.cons.inj h
      exact ⟨w, rfl, hrest⟩
    · rw [chars_cons, he] at h
      exact absurd (List.cons.inj h).1.symm hslash

end Escape

namespace Grammar

open Escape

/-! ## Escapes -/

theorem hexValue?_hexDigit {d : Nat} (h : d < 16) : hexValue? (hexDigit d) = some d := by
  have all : ∀ d, d < 16 → hexValue? (hexDigit d) = some d := by decide
  exact all d h

theorem codedChar_hexDigits {c : Char} (h : c.toNat < 256) (r : Text) :
    codedChar 4 .shortHex ('0' :: '0' :: hexDigit (c.toNat / 16) :: hexDigit (c.toNat % 16) :: r) = .ok c r := by
  have high := hexValue?_hexDigit (d := c.toNat / 16) (by omega)
  have low := hexValue?_hexDigit (d := c.toNat % 16) (by omega)
  have hzero : hexValue? '0' = some 0 := rfl
  have hvalue : 16 * (16 * (16 * (16 * 0 + 0) + 0) + c.toNat / 16) + c.toNat % 16 = c.toNat := by omega
  have hvalid : c.toNat.isValidChar := c.valid
  simp only [codedChar, hexDigits?, hzero, high, low, hvalue]
  rw [if_pos hvalid, Char.ofNat_toNat]

theorem fragment_eq_self {c : Char} {u : Text} (hquote : c ≠ '"') (hslash : c ≠ '\\')
    (hsign : isMarkerSign c = true → ¬ Opens c u) : fragment (c :: u) = .ok [c] u := by
  unfold fragment
  split
  · next h => cases h
  · next h => exact absurd (List.cons.inj h).1 hquote
  · next h => exact absurd (List.cons.inj h).1 hslash
  · next v h =>
    injection h with h1 h2
    subst h1
    exact absurd (.inr ⟨v, h2⟩) (hsign rfl)
  · next v h =>
    injection h with h1 h2
    subst h1
    exact absurd (.inl (by rw [h2]; rfl)) (hsign rfl)
  · next v h =>
    injection h with h1 h2
    subst h1
    exact absurd (.inr ⟨v, h2⟩) (hsign rfl)
  · next v h =>
    injection h with h1 h2
    subst h1
    exact absurd (.inl (by rw [h2]; rfl)) (hsign rfl)
  · next d v _ _ _ _ _ _ h =>
    injection h with h1 h2
    subst h1 h2
    rfl

theorem fragment_char (c : Char) {u : Text} (h : isMarkerSign c = true → ¬ Opens c u) :
    fragment (Escape.char c ++ u) = .ok [c] u := by
  unfold Escape.char
  split
  · next e => rw [e]; rfl
  split
  · next e => rw [e]; rfl
  split
  · next e => rw [e]; rfl
  split
  · next e => rw [e]; rfl
  split
  · next e => rw [e]; rfl
  split
  · next e => rw [e]; rfl
  split
  · next e => rw [e]; rfl
  split
  · next hcode =>
    have hsmall : c.toNat < 256 := by
      simp only [Bool.or_eq_true, decide_eq_true_eq] at hcode
      rcases hcode with h1 | h1
      · exact Nat.lt_trans h1 (by decide)
      · rw [h1]
        decide
    have hread := codedChar_hexDigits hsmall u
    have hbind : escaped ('u' :: '0' :: '0' :: hexDigit (c.toNat / 16) :: hexDigit (c.toNat % 16) :: u) = .ok c u := hread
    exact Reader.bind_of_ok hbind
  · next hquote hslash _ => exact fragment_eq_self hquote hslash h

theorem fragment_doubled {c : Char} (h : isMarkerSign c = true) (u : Text) :
    fragment (c :: c :: '{' :: u) = .ok [c, '{'] u := by
  rcases isMarkerSign_iff.mp h with rfl | rfl
  · rfl
  · rfl

/-! ## Quoted text -/

/-- The first fragment of a text, and the text behind it. -/
theorem fragment_chars {t r : Text} (hne : t ≠ []) (h : Parted t r) :
    ∃ a b, t = a ++ b ∧ a ≠ [] ∧ Parted b r ∧
      fragment (chars (doubled t) ++ r) = .ok a (chars (doubled b) ++ r) := by
  match t with
  | [] => exact absurd rfl hne
  | c :: t =>
    rcases marker_cases c t with ⟨hc, u, rfl⟩ | hplain
    · refine ⟨[c, '{'], u, rfl, by simp, h.tail.tail, ?_⟩
      rw [doubled_of_sign hc]
      simp only [chars_cons, char_of_sign hc, char_brace, List.cons_append, List.nil_append]
      exact fragment_doubled hc _
    · refine ⟨[c], t, rfl, by simp, h.tail, ?_⟩
      rw [doubled_of_plain hplain, chars_cons, List.append_assoc]
      refine fragment_char c fun hc => ?_
      have ht : t.head? ≠ some '{' := hplain.resolve_left (by simp [hc])
      exact not_opens_chars hc (not_opens_doubled hc ht h)

theorem laterFragments_chars {r : Text} (hr : fragment r = .soft) {n : Nat} {t : Text} (hn : t.length ≤ n)
    (h : Parted t r) : laterFragments n (chars (doubled t) ++ r) = (t, r) := by
  induction n generalizing t with
  | zero =>
    have hnil : t = [] := List.length_eq_zero_iff.mp (by omega)
    subst hnil
    rfl
  | succ n ih =>
    by_cases hne : t = []
    · subst hne
      simp only [doubled, chars, List.flatMap_nil, List.nil_append, laterFragments, hr]
    · obtain ⟨a, b, rfl, ha, hparted, hread⟩ := fragment_chars hne h
      have hpos : 0 < a.length := List.length_pos_iff.mpr ha
      have hlater := ih (t := b) (by simp only [List.length_append] at hn; omega) hparted
      simp only [laterFragments, hread, hlater]

theorem fragments_chars {t r : Text} (hne : t ≠ []) (hr : fragment r = .soft) (h : Parted t r) :
    fragments (chars (doubled t) ++ r) = .ok t r := by
  obtain ⟨a, b, rfl, -, hparted, hread⟩ := fragment_chars hne h
  have hn : b.length ≤ (chars (doubled b) ++ r).length := by
    have h1 := length_le_doubled b
    have h2 := length_le_chars (doubled b)
    simp only [List.length_append]
    omega
  refine Reader.bind_iff.mpr ⟨a, _, hread, ?_⟩
  rw [laterFragments_chars hr hn hparted]

theorem parted_quote (t r : Text) : Parted t ('"' :: r) :=
  ⟨by simp, fun c v hc hv => by
    rw [← (List.cons.inj hv).1] at hc
    exact absurd hc (by decide)⟩

theorem quotedText_quoted {t : Text} (h : Legible t) (r : Text) : quotedText (Escape.quoted t ++ r) = .ok t r := by
  have hclose : fragment ('"' :: r) = .soft := rfl
  have htext : Escape.quoted t ++ r = '"' :: (chars (doubled t) ++ '"' :: r) := by
    rw [Escape.quoted, show markers t = doubled t from h]
    simp
  have hbody : fragments.optional (chars (doubled t) ++ '"' :: r) = .ok (if t = [] then none else some t) ('"' :: r) := by
    split
    · next hnil =>
      subst hnil
      exact Reader.optional_eq_none_iff.mpr ⟨Reader.bind_of_soft hclose, rfl⟩
    · next hne => exact Reader.optional_eq_some_iff.mpr (fragments_chars hne hclose (parted_quote t r))
  rw [htext, quotedText, Reader.bind_of_ok (Reader.char_cons ..), Reader.bind_of_ok hbody,
    Reader.bind_of_ok (Reader.char_cons ..), Reader.pure_apply]
  split
  · next hnil => rw [hnil]; rfl
  · rfl

/-! ## Nothing else is read back -/

theorem fragment_marker {c : Char} (h : isMarkerSign c = true) (u : Text) : fragment (c :: '{' :: u) = .soft := by
  rcases isMarkerSign_iff.mp h with rfl | rfl
  · rfl
  · rfl

/-- Only the doubled text reads as a text up to the closing quote. -/
theorem eq_doubled_of_laterFragments {r s : Text} {n : Nat} {u t : Text}
    (h : laterFragments n (chars u ++ '"' :: r) = (t, '"' :: s)) : u = doubled t := by
  induction n generalizing u t with
  | zero =>
    obtain ⟨rfl, hrest⟩ := Prod.mk.inj h
    match u with
    | [] => rfl
    | c :: u =>
      obtain ⟨d, v, hd, hc⟩ := char_eq_cons c
      rw [chars_cons, hd] at hrest
      obtain rfl : d = '"' := (List.cons.inj hrest).1
      obtain ⟨rfl, rfl⟩ | hslash := hc
      · cases hd
      · cases hslash
  | succ n ih =>
    match u with
    | [] =>
      obtain ⟨rfl, -⟩ := Prod.mk.inj h
      rfl
    | c :: u =>
      by_cases hopens : isMarkerSign c = true ∧ Opens c (chars u ++ '"' :: r)
      · obtain ⟨hc, hopens⟩ := hopens
        have hquote : c ≠ '"' := fun e => by simp [e, isMarkerSign] at hc
        have hslash : c ≠ '\\' := fun e => by simp [e, isMarkerSign] at hc
        rw [chars_cons, char_of_sign hc, List.singleton_append, List.cons_append] at h
        obtain hbrace | ⟨v, hv⟩ := hopens
        · obtain ⟨v, hv⟩ : ∃ v, chars u ++ '"' :: r = '{' :: v := by
            cases hu : chars u ++ '"' :: r with
            | nil => simp [hu] at hbrace
            | cons d v => exact ⟨v, by rw [hu] at hbrace; rw [Option.some.inj hbrace]⟩
          rw [hv, laterFragments, fragment_marker hc] at h
          exact absurd (List.cons.inj (Prod.mk.inj h).2).1 hquote
        · obtain ⟨u, rfl, hu⟩ := chars_eq_cons hv hquote hslash
          obtain ⟨u, rfl, rfl⟩ := chars_eq_cons hu (by decide) (by decide)
          cases hlater : laterFragments n (chars u ++ '"' :: r) with
          | mk later rest =>
            simp only [hv, laterFragments, fragment_doubled hc, hlater, Prod.mk.injEq] at h
            obtain ⟨rfl, rfl⟩ := h
            rw [ih hlater]
            exact (doubled_of_sign hc).symm
      · have hread : fragment (chars (c :: u) ++ '"' :: r) = .ok [c] (chars u ++ '"' :: r) := by
          rw [chars_cons, List.append_assoc]
          exact fragment_char c fun hc h => hopens ⟨hc, h⟩
        cases hlater : laterFragments n (chars u ++ '"' :: r) with
        | mk later rest =>
          simp only [laterFragments, hread, hlater, Prod.mk.injEq] at h
          obtain ⟨rfl, rfl⟩ := h
          have hu := ih hlater
          rcases marker_cases c later with ⟨hc, v, rfl⟩ | hplain
          · rw [doubled_of_plain (.inl rfl)] at hu
            exact absurd ⟨hc, .inl (by rw [hu]; rfl)⟩ hopens
          · rw [hu]
            exact (doubled_of_plain hplain).symm

theorem legible_of_quotedText {t r r' : Text} (h : quotedText (Escape.quoted t ++ r) = .ok t r') : Legible t := by
  have htext : Escape.quoted t ++ r = '"' :: (chars (markers t) ++ '"' :: r) := by
    rw [Escape.quoted]
    simp
  rw [htext, quotedText, Reader.bind_of_ok (Reader.char_cons ..)] at h
  obtain ⟨read, v, hread, h⟩ := Reader.bind_eq_ok_iff.mp h
  obtain ⟨_, w, hclose, h⟩ := Reader.bind_eq_ok_iff.mp h
  obtain rfl := Reader.char_eq_ok_iff.mp hclose
  obtain ⟨ht, rfl⟩ := Reader.pure_iff.mp h
  cases read with
  | none =>
    obtain ⟨-, hsame⟩ := Reader.optional_eq_none_iff.mp hread
    exact eq_doubled_of_laterFragments (r := r) (s := w) (n := 0) (Prod.ext ht hsame)
  | some later =>
    have hfragments := Reader.optional_eq_some_iff.mp hread
    obtain ⟨a, s, hfirst, hlater⟩ := Reader.bind_eq_ok_iff.mp hfragments
    obtain ⟨h1, h2⟩ := Reply.ok.inj hlater
    refine eq_doubled_of_laterFragments (r := r) (s := w) (n := s.length + 1) ?_
    rw [laterFragments, hfirst]
    exact Prod.ext (h1.trans ht) h2

/-! ## Plain text -/

theorem rawRun_of_stop {stop : Text → Bool} {r : Text} (h : r = [] ∨ stop r = true ∨ opensMarker r = true) :
    rawRun stop r = ([], r) := by
  cases r with
  | nil => rfl
  | cons c r =>
    unfold rawRun
    rcases h with h | h | h
    · cases h
    · simp [h]
    · by_cases hs : stop (c :: r) = true
      · simp [hs]
      · simp [hs, h]

theorem opensMarker_eq_false {c : Char} {u : Text} (h : isMarkerSign c = true → u.head? ≠ some '{') :
    opensMarker (c :: u) = false := by
  unfold opensMarker
  split
  · next d v heq =>
    injection heq with h1 h2
    subst h1 h2
    cases hc : isMarkerSign c with
    | false => rfl
    | true => exact absurd rfl (h hc)
  · rfl

theorem rawRun_cons {stop : Text → Bool} {c : Char} {u t v : Text} (hstop : stop (c :: u) = false)
    (hsign : isMarkerSign c = true → ¬ Opens c u) (h : rawRun stop u = (t, v)) :
    rawRun stop (c :: u) = (c :: t, v) := by
  have hopens : opensMarker (c :: u) = false := opensMarker_eq_false fun hc hbrace => hsign hc (.inl hbrace)
  unfold rawRun
  simp only [hstop, hopens, Bool.false_eq_true, if_false]
  split
  · next d e w =>
    split
    · next hdouble =>
      simp only [Bool.and_eq_true, beq_iff_eq] at hdouble
      obtain ⟨⟨hc, rfl⟩, rfl⟩ := hdouble
      exact absurd (.inr ⟨w, rfl⟩) (hsign hc)
    · rw [h]
  · rw [h]

theorem rawRun_doubled_cons {stop : Text → Bool} {c : Char} {u t v : Text} (hc : isMarkerSign c = true)
    (hstop : stop (c :: c :: '{' :: u) = false) (h : rawRun stop u = (t, v)) :
    rawRun stop (c :: c :: '{' :: u) = (c :: '{' :: t, v) := by
  have hopens : opensMarker (c :: c :: '{' :: u) = false := by
    refine opensMarker_eq_false fun _ hbrace => ?_
    have heq : c = '{' := Option.some.inj hbrace
    rw [heq] at hc
    exact absurd hc (by decide)
  unfold rawRun
  simp [hstop, hopens, hc, h]

/-- Plain text with doubled markers is read back up to where it stops. -/
theorem rawRun_doubled {stop : Text → Bool} {t r : Text} (hstop : ∀ a b, doubled t = a ++ b → b ≠ [] → stop (b ++ r) = false)
    (hr : r = [] ∨ stop r = true ∨ opensMarker r = true) (h : Parted t r) :
    rawRun stop (doubled t ++ r) = (t, r) := by
  -- on the length, since a doubled marker takes two characters of the text at once
  induction hn : t.length using Nat.strongRecOn generalizing t with
  | ind n ih =>
    match t with
    | [] => exact rawRun_of_stop hr
    | c :: t =>
      rcases marker_cases c t with ⟨hc, u, rfl⟩ | hplain
      · rw [doubled_of_sign hc] at hstop ⊢
        have hrest := ih u.length (by simp only [List.length_cons] at hn; omega) (t := u)
          (fun a b hab hb => hstop (c :: c :: '{' :: a) b (by rw [hab]; rfl) hb) h.tail.tail rfl
        exact rawRun_doubled_cons hc (hstop [] _ rfl (by simp)) hrest
      · rw [doubled_of_plain hplain] at hstop ⊢
        have hrest := ih t.length (by rw [← hn]; simp) (t := t)
          (fun a b hab hb => hstop (c :: a) b (by rw [hab]; rfl) hb) h.tail rfl
        refine rawRun_cons (hstop [] _ rfl (by simp)) (fun hc => ?_) hrest
        exact not_opens_doubled hc (hplain.resolve_left (by simp [hc])) h

end Grammar
end BackendSwitch
