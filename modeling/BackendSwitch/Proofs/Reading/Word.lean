import BackendSwitch.Grammar.Expression
import BackendSwitch.Proofs.Reading.Blank
import BackendSwitch.Tree.Printer

/-! # Words and numbers are read as they stand

A name or a number is read as far as its characters go. It is read again in front of any text that does not go on
with more of its characters, or that goes on with the same character as the text it was first read from. -/
namespace BackendSwitch.Grammar
set_option autoImplicit false

open Identifier (startsWith extendsWith)

/-! ## Characters that run on -/

theorem extendsWith_of_isDigit {c : Char} (h : c.isDigit = true) : extendsWith c = true := by
  simp [extendsWith, h]

/-- A text that goes on like another one as far as words and numbers are concerned: a character with which one of these
could run on is the one that stood there before, and it does not begin an exponent. -/
def Alike (r r' : Text) : Prop :=
  ∀ c, r'.head? = some c → extendsWith c = true → r.head? = some c ∧ c ≠ 'e' ∧ c ≠ 'E'

/-- A text that does not begin like the decimal places of a number. -/
def NoPlaces (r : Text) : Prop := ∀ c t, r = '.' :: c :: t → c.isDigit = false

theorem Alike.avoids {r r' : Text} {f : Char → Bool} (h : Alike r r') (hf : ∀ c, f c = true → extendsWith c = true)
    (hr : r.Avoids f) : r'.Avoids f := by
  intro c hc
  cases hfc : f c with
  | false => rfl
  | true =>
    have same := (h c hc (hf c hfc)).1
    rw [hr c same] at hfc
    cases hfc

theorem Alike.avoids_exponent {r r' : Text} (h : Alike r r') : r'.Avoids fun c => c == 'e' || c == 'E' := by
  intro c hc
  by_cases hext : extendsWith c = true
  · obtain ⟨-, hlow, hup⟩ := h c hc hext
    simp [hlow, hup]
  · simp only [Bool.or_eq_false_iff, beq_eq_false_iff_ne]
    constructor
    · rintro rfl
      exact hext rfl
    · rintro rfl
      exact hext rfl

theorem alike_of_avoids {r r' : Text} (h : r'.Avoids extendsWith) : Alike r r' := by
  intro c hc hext
  rw [h c hc] at hext
  cases hext

theorem alike_cons {c : Char} {t t' : Text} (hlow : c ≠ 'e') (hup : c ≠ 'E') : Alike (c :: t) (c :: t') := by
  intro d hd _
  cases hd
  exact ⟨rfl, hlow, hup⟩

/-! ## Names -/

def IsIdentifier (t : Text) : Prop :=
  ∃ c u, t = c :: u ∧ startsWith c = true ∧ ∀ d ∈ u, extendsWith d = true

theorem identifier_eq_ok {s t r : Text} (h : identifier s = .ok t r) :
    s = t ++ r ∧ IsIdentifier t ∧ r.Avoids extendsWith := by
  unfold identifier at h
  split at h
  · cases h
  · next c u =>
    split at h
    · next hc =>
      injection h with h1 h2
      subst h1 h2
      refine ⟨?_, ⟨c, _, rfl, hc, fun d hd => List.all_eq_true.mp List.all_takeWhile d hd⟩, Text.avoids_dropWhile _ _⟩
      rw [List.cons_append, List.takeWhile_append_dropWhile]
    · cases h

theorem identifier_append {t r : Text} (ht : IsIdentifier t) (hr : r.Avoids extendsWith) :
    identifier (t ++ r) = .ok t r := by
  obtain ⟨c, u, rfl, hc, hu⟩ := ht
  simp only [List.cons_append, identifier, hc, if_true, Text.takeWhile_append_of_all hu hr,
    Text.dropWhile_append_of_all hu hr]

theorem identifier_eq_soft {s : Text} (h : s.Avoids startsWith) : identifier s = .soft := by
  cases s with
  | nil => rfl
  | cons c s => simp [identifier, Text.avoids_cons.mp h]

theorem IsIdentifier.ne_nil {t : Text} (h : IsIdentifier t) : t ≠ [] := by
  obtain ⟨c, u, rfl, -⟩ := h
  simp

/-! ## Digits -/

theorem digits_eq_ok {s t r : Text} (h : digits s = .ok t r) :
    s = t ++ r ∧ (∃ c u, t = c :: u ∧ c.isDigit = true) ∧ (∀ d ∈ t, d.isDigit = true) ∧ r.Avoids Char.isDigit := by
  unfold digits Reader.span1 at h
  split at h
  · cases h
  · next c u =>
    split at h
    · next hc =>
      injection h with h1 h2
      subst h1 h2
      refine ⟨?_, ⟨c, _, rfl, hc⟩, ?_, Text.avoids_dropWhile _ _⟩
      · rw [List.cons_append, List.takeWhile_append_dropWhile]
      · intro d hd
        rcases List.mem_cons.mp hd with rfl | hd
        · exact hc
        · exact List.all_eq_true.mp List.all_takeWhile d hd
    · cases h

theorem digits_append {t r : Text} (hne : t ≠ []) (ht : ∀ d ∈ t, d.isDigit = true) (hr : r.Avoids Char.isDigit) :
    digits (t ++ r) = .ok t r := by
  cases t with
  | nil => exact absurd rfl hne
  | cons c u =>
    have hu : ∀ d ∈ u, d.isDigit = true := fun d hd => ht d (List.mem_cons_of_mem c hd)
    simp only [List.cons_append, digits, Reader.span1, ht c (List.mem_cons_self ..), if_true,
      Text.takeWhile_append_of_all hu hr, Text.dropWhile_append_of_all hu hr]

theorem digits_eq_soft {s : Text} (h : s.Avoids Char.isDigit) : digits s = .soft := by
  cases s with
  | nil => rfl
  | cons c s => simp [digits, Reader.span1, Text.avoids_cons.mp h]

/-! ## Numbers -/

theorem exponent_eq_ok {s t r : Text} {v : Int} (h : exponent s = .ok (t, v) r) :
    s = t ++ r ∧ r.Avoids Char.isDigit ∧ (∃ c u, t = c :: u ∧ (c == 'e' || c == 'E') = true) ∧
      ∀ r', r'.Avoids Char.isDigit → exponent (t ++ r') = .ok (t, v) r' := by
  unfold exponent at h ⊢
  simp only [Reader.bind_iff, Reader.pure_iff, Reader.require_eq_ok_iff, Prod.mk.injEq] at h
  obtain ⟨letter, s1, hletter, sign, s2, hsign, ds, s3, hds, ⟨rfl, rfl⟩, rfl⟩ := h
  obtain ⟨rfl, hclass⟩ := Reader.oneOf_eq_ok_iff.mp hletter
  obtain ⟨rfl, ⟨c, u, rfl, hc⟩, hall, havoid⟩ := digits_eq_ok hds
  have hsigned : s1 = sign.toList ++ (c :: u ++ s3) ∧ ∀ r',
      ((Reader.oneOf fun c => c == '+' || c == '-').optional) (sign.toList ++ (c :: u ++ r')) =
        .ok sign (c :: u ++ r') := by
    cases sign with
    | some d =>
      rw [Reader.optional_eq_some_iff] at hsign
      obtain ⟨rfl, hd⟩ := Reader.oneOf_eq_ok_iff.mp hsign
      exact ⟨rfl, fun r' => Reader.optional_eq_some_iff.mpr (Reader.oneOf_eq_ok_iff.mpr ⟨rfl, hd⟩)⟩
    | none =>
      obtain ⟨-, rfl⟩ := Reader.optional_eq_none_iff.mp hsign
      refine ⟨rfl, fun r' => Reader.optional_eq_none_iff.mpr ⟨?_, rfl⟩⟩
      refine Reader.oneOf_of_avoids (Text.avoids_cons.mpr ?_)
      simp only [Bool.or_eq_false_iff, beq_eq_false_iff_ne]
      constructor
      · rintro rfl
        exact absurd hc (by decide)
      · rintro rfl
        exact absurd hc (by decide)
  obtain ⟨rfl, hagain⟩ := hsigned
  refine ⟨by simp, havoid, ⟨letter, _, rfl, hclass⟩, fun r' hr' => ?_⟩
  have hword : (letter :: (sign.toList ++ (c :: u))) ++ r' = letter :: (sign.toList ++ (c :: u ++ r')) := by simp
  rw [hword, Reader.bind_of_ok (Reader.oneOf_eq_ok_iff.mpr ⟨rfl, hclass⟩), Reader.bind_of_ok (hagain r'),
    Reader.bind_of_ok (Reader.require_eq_ok_iff.mpr (digits_append (by simp) hall hr'))]
  rfl

theorem exponent_eq_soft {s : Text} (h : s.Avoids fun c => c == 'e' || c == 'E') : exponent s = .soft :=
  Reader.bind_of_soft (Reader.oneOf_of_avoids h)

/-- The decimal places and the exponent of a number as they are written. -/
def decimalsText (places : Option Text) (power : Option (Text × Int)) : Text :=
  (match places with | none => [] | some ds => '.' :: ds) ++ (power.map Prod.fst).getD []

theorem optional_exponent_eq_ok {s r : Text} {power : Option (Text × Int)}
    (h : exponent.optional s = .ok power r) (hs : s.Avoids Char.isDigit) :
    s = (power.map Prod.fst).getD [] ++ r ∧ r.Avoids Char.isDigit ∧
      ∀ r', Alike r r' → exponent.optional ((power.map Prod.fst).getD [] ++ r') = .ok power r' := by
  cases power with
  | some p =>
    obtain ⟨t, v⟩ := p
    obtain ⟨rfl, havoid, -, hagain⟩ := exponent_eq_ok (Reader.optional_eq_some_iff.mp h)
    exact ⟨rfl, havoid, fun r' hr' => Reader.optional_eq_some_iff.mpr
      (hagain r' (hr'.avoids (fun _ => extendsWith_of_isDigit) havoid))⟩
  | none =>
    obtain ⟨-, rfl⟩ := Reader.optional_eq_none_iff.mp h
    exact ⟨rfl, hs, fun r' hr' => Reader.optional_eq_none_iff.mpr ⟨exponent_eq_soft hr'.avoids_exponent, rfl⟩⟩

theorem avoids_append_exponent {power : Option (Text × Int)} {s r r' : Text}
    (h : exponent.optional s = .ok power r) (hr' : r'.Avoids Char.isDigit) :
    ((power.map Prod.fst).getD [] ++ r').Avoids Char.isDigit := by
  cases power with
  | none => exact hr'
  | some p =>
    obtain ⟨t, v⟩ := p
    obtain ⟨-, -, ⟨c, u, rfl, hc⟩, -⟩ := exponent_eq_ok (Reader.optional_eq_some_iff.mp h)
    have hletter : c = 'e' ∨ c = 'E' := by simpa using hc
    rcases hletter with rfl | rfl
    · exact Text.avoids_cons.mpr rfl
    · exact Text.avoids_cons.mpr rfl

theorem decimals_eq_ok {s r : Text} {places : Option Text} {power : Option (Text × Int)}
    (h : decimals s = .ok (places, power) r) :
    s = decimalsText places power ++ r ∧ s.Avoids Char.isDigit ∧
      ∀ r', Alike r r' → decimals (decimalsText places power ++ r') = .ok (places, power) r' ∧
        (decimalsText places power ++ r').Avoids Char.isDigit := by
  unfold decimals at h ⊢
  rw [Reader.or_eq_ok_iff] at h
  rcases h with h | ⟨-, h⟩
  · simp only [Reader.bind_iff, Reader.pure_iff, Reader.char_eq_ok_iff, Prod.mk.injEq] at h
    obtain ⟨_, s1, rfl, ds, s2, hds, power', s3, hpower, ⟨rfl, rfl⟩, rfl⟩ := h
    obtain ⟨rfl, ⟨c, u, rfl, hc⟩, hall, havoid⟩ := digits_eq_ok hds
    obtain ⟨rfl, hend, hagain⟩ := optional_exponent_eq_ok hpower havoid
    refine ⟨by simp [decimalsText], Text.avoids_cons.mpr rfl, fun r' hr' => ⟨Reader.or_of_ok ?_, Text.avoids_cons.mpr rfl⟩⟩
    have hmore := avoids_append_exponent hpower (hr'.avoids (fun _ => extendsWith_of_isDigit) hend)
    simp only [decimalsText, List.cons_append, List.append_assoc]
    rw [Reader.bind_of_ok (Reader.char_cons ..), ← List.cons_append, Reader.bind_of_ok (digits_append (by simp) hall hmore),
      Reader.bind_of_ok (hagain r' hr')]
    rfl
  · simp only [Reader.bind_iff, Reader.pure_iff, Prod.mk.injEq] at h
    obtain ⟨⟨t, v⟩, s1, hpower, ⟨rfl, rfl⟩, rfl⟩ := h
    obtain ⟨rfl, havoid, ⟨c, u, rfl, hc⟩, hagain⟩ := exponent_eq_ok hpower
    have hclass : c ≠ '.' ∧ c.isDigit = false := by
      have hletter : c = 'e' ∨ c = 'E' := by simpa using hc
      rcases hletter with rfl | rfl
      · exact ⟨by decide, rfl⟩
      · exact ⟨by decide, rfl⟩
    refine ⟨rfl, Text.avoids_cons.mpr hclass.2, fun r' hr' => ⟨?_, Text.avoids_cons.mpr hclass.2⟩⟩
    have hdot : Reader.char '.' (c :: u ++ r') = .soft := Reader.char_of_head (by simp [hclass.1])
    have hpow := hagain r' (hr'.avoids (fun _ => extendsWith_of_isDigit) havoid)
    change Reader.or _ _ (c :: u ++ r') = _
    rw [Reader.or_of_soft (Reader.bind_of_soft hdot), Reader.bind_of_ok hpow]
    rfl

theorem decimals_eq_soft {r : Text} (hdot : NoPlaces r) (he : r.Avoids fun c => c == 'e' || c == 'E') :
    decimals r = .soft := by
  unfold decimals
  have hpower : (do let power ← exponent; return ((none, some power) : Option Text × Option (Text × Int))) r = .soft :=
    Reader.bind_of_soft (exponent_eq_soft he)
  refine (Reader.or_of_soft ?_).trans hpower
  match r with
  | [] => rfl
  | '.' :: [] => rfl
  | '.' :: c :: t =>
    rw [Reader.bind_of_ok (Reader.char_cons ..)]
    exact Reader.bind_of_soft (digits_eq_soft (Text.avoids_cons.mpr (hdot c t rfl)))
  | d :: t =>
    by_cases hd : d = '.'
    · subst hd
      rw [Reader.bind_of_ok (Reader.char_cons ..)]
      refine Reader.bind_of_soft (digits_eq_soft ?_)
      intro c hc
      cases t with
      | nil => cases hc
      | cons c' t =>
        cases hc
        exact hdot c t rfl
    · exact Reader.bind_of_soft (Reader.char_of_head (by simp [hd]))

/-- The value of a number with decimal places or an exponent, if it is in range. -/
def decimalValue? (whole : Text) (places : Option Text) (power : Option (Text × Int)) : Option (Nat × Nat) :=
  Binary64.ofDecimal? (ofDigits (whole ++ places.getD [])) ((power.map Prod.snd).getD 0 - (places.getD []).length)

theorem decimal_of_parts {s t r whole : Text} {places : Option Text} {power : Option (Text × Int)}
    (hwhole : digits s = .ok whole t) (hmore : decimals t = .ok (places, power) r) :
    decimal s = match decimalValue? whole places power with
      | some (m, k) => .ok ⟨whole ++ decimalsText places power, .ofDouble m k⟩ r
      | none => .soft := by
  unfold decimal
  rw [Reader.bind_of_ok hwhole, Reader.bind_of_ok hmore]
  cases hvalue : decimalValue? whole places power with
  | none =>
    unfold decimalValue? at hvalue
    simp only [hvalue]
    rfl
  | some p =>
    unfold decimalValue? at hvalue
    cases places <;> simp only [hvalue, Reader.pure_apply, decimalsText, List.append_assoc]

theorem number_eq_ok {s r : Text} {n : Numeral} (h : number s = .ok n r) :
    s = n.text ++ r ∧ (∃ c u, n.text = c :: u ∧ c.isDigit = true) ∧
      ∀ r', Alike r r' → NoPlaces r' → number (n.text ++ r') = .ok n r' := by
  rw [number, Reader.or_eq_ok_iff] at h
  rcases h with h | ⟨-, h⟩
  · have hparts := h
    simp only [decimal, Reader.bind_iff] at hparts
    obtain ⟨whole, s1, hwhole, ⟨places, power⟩, s2, hmore, -⟩ := hparts
    rw [decimal_of_parts hwhole hmore] at h
    obtain ⟨rfl, ⟨c, u, rfl, hc⟩, hall, -⟩ := digits_eq_ok hwhole
    obtain ⟨rfl, -, hagain⟩ := decimals_eq_ok hmore
    cases hvalue : decimalValue? (c :: u) places power with
    | none =>
      rw [hvalue] at h
      cases h
    | some p =>
      rw [hvalue] at h
      injection h with h1 h2
      subst h1 h2
      refine ⟨(List.append_assoc _ _ _).symm, ⟨c, _, rfl, hc⟩, fun r' hr' _ => Reader.or_of_ok ?_⟩
      obtain ⟨hread, havoid⟩ := hagain r' hr'
      rw [List.append_assoc, decimal_of_parts (digits_append (by simp) hall havoid) hread, hvalue]
  · simp only [wholeNumber, Reader.bind_iff] at h
    obtain ⟨ds, s1, hds, h⟩ := h
    obtain ⟨rfl, ⟨c, u, rfl, hc⟩, hall, havoid⟩ := digits_eq_ok hds
    split at h
    · next hrange =>
      obtain ⟨rfl, rfl⟩ := Reader.pure_iff.mp h
      refine ⟨rfl, ⟨c, u, rfl, hc⟩, fun r' hr' hplaces => ?_⟩
      have hdigits := digits_append (t := c :: u) (by simp) hall (hr'.avoids (fun _ => extendsWith_of_isDigit) havoid)
      have hsoft : decimal (c :: u ++ r') = .soft := by
        unfold decimal
        rw [Reader.bind_of_ok hdigits]
        exact Reader.bind_of_soft (decimals_eq_soft hplaces hr'.avoids_exponent)
      rw [number, Reader.or_of_soft hsoft, wholeNumber, Reader.bind_of_ok hdigits, if_pos hrange]
      rfl
    · cases h

theorem number_eq_soft {s : Text} (h : s.Avoids Char.isDigit) : number s = .soft := by
  have hdecimal : decimal s = .soft := Reader.bind_of_soft (digits_eq_soft h)
  rw [number, Reader.or_of_soft hdecimal]
  exact Reader.bind_of_soft (digits_eq_soft h)

theorem negativeNumber_eq_ok {s r : Text} {n : Numeral} (h : negativeNumber s = .ok n r) :
    s = n.text ++ r ∧ (∃ u, n.text = '-' :: u) ∧
      ∀ r', Alike r r' → NoPlaces r' → negativeNumber (n.text ++ r') = .ok n r' := by
  unfold negativeNumber at h ⊢
  simp only [Reader.bind_iff, Reader.pure_iff, Reader.char_eq_ok_iff] at h
  obtain ⟨_, s1, rfl, blank, s2, hblank, m, s3, hnumber, rfl, rfl⟩ := h
  obtain ⟨t, u, ht, rfl, hinline, hend⟩ := inline_spec s1
  rw [ht] at hblank
  injection hblank with h1 h2
  subst h1 h2
  obtain ⟨rfl, ⟨c, w, hc, hdigit⟩, hagain⟩ := number_eq_ok hnumber
  refine ⟨by simp, ⟨_, rfl⟩, fun r' hr' hplaces => ?_⟩
  have hstart : InlineEnd (m.text ++ r') := by
    rw [hc]
    refine blankOf_of_soft (Text.avoids_cons.mpr ?_) ?_
    · simp only [isSpace, Bool.or_eq_false_iff, beq_eq_false_iff_ne]
      constructor
      · rintro rfl
        exact absurd hdigit (by decide)
      · rintro rfl
        exact absurd hdigit (by decide)
    · unfold inlineComment
      split
      · next h =>
        injection h with h _
        rw [h] at hdigit
        exact absurd hdigit (by decide)
      · rfl
  have htext : ('-' :: (t ++ m.text)) ++ r' = '-' :: (t ++ (m.text ++ r')) := by simp
  rw [htext, Reader.bind_of_ok (Reader.char_cons ..), Reader.bind_of_ok (inline_append hinline hstart),
    Reader.bind_of_ok (hagain r' hr' hplaces)]
  rfl

/-! ## Names with blank text around them -/

theorem isSolid_of_extendsWith {c : Char} (h : extendsWith c = true) : isSolid c = true := by
  simp only [isSolid, isWhite, Bool.and_eq_true, Bool.not_eq_true', Bool.or_eq_false_iff, beq_eq_false_iff_ne, bne_iff_ne]
  refine ⟨⟨⟨⟨⟨?_, ?_⟩, ?_⟩, ?_⟩, ?_⟩, ?_⟩ <;> (rintro rfl; exact absurd h (by decide))

theorem isSolid_of_startsWith {c : Char} (h : startsWith c = true) : isSolid c = true :=
  isSolid_of_extendsWith (Identifier.extendsWith_of_startsWith h)

theorem IsIdentifier.written_ne_nil {n : Name} (h : IsIdentifier n.text) : n.written ≠ [] := by
  simp [Name.written, h.ne_nil]

theorem blankEnd_of_isIdentifier {t : Text} (h : IsIdentifier t) (r : Text) : BlankEnd (t ++ r) := by
  obtain ⟨c, u, rfl, hc, -⟩ := h
  exact blankEnd_cons (isSolid_of_startsWith hc)

theorem nameWithin_eq_ok {newlines : Bool} {s r : Text} {n : Name} (h : nameWithin (gap newlines) s = .ok n r)
    (hr : r ≠ []) :
    s = n.written ++ r ∧ IsIdentifier n.text ∧ GapEnd newlines r ∧
      ∀ r', Alike r r' → GapEnd newlines r' → nameWithin (gap newlines) (n.written ++ r') = .ok n r' := by
  simp only [nameWithin, Reader.bind_iff, Reader.pure_iff, Reader.require_eq_ok_iff] at h
  obtain ⟨before, s1, hbefore, text, s2, htext, after, s3, hafter, rfl, rfl⟩ := h
  obtain ⟨rfl, hafter, hend⟩ := gap_eq_ok hafter hr
  obtain ⟨rfl, hident, havoid⟩ := identifier_eq_ok htext
  obtain ⟨rfl, hbefore, -⟩ := gap_eq_ok hbefore (by simp [hident.ne_nil])
  refine ⟨by simp [Name.written], hident, hend, fun r' hr' hend' => ?_⟩
  have hmore : (after ++ r').Avoids extendsWith := by
    cases after with
    | nil => exact hr'.avoids (fun _ h => h) havoid
    | cons c after => exact Text.avoids_cons.mpr (Text.avoids_cons.mp havoid)
  have hwritten : (Name.mk before text after).written ++ r' = before ++ (text ++ (after ++ r')) := by
    simp [Name.written]
  rw [hwritten, nameWithin, Reader.bind_of_ok (gap_append hbefore (blankEnd_of_isIdentifier hident _).gapEnd),
    Reader.bind_of_ok (Reader.require_eq_ok_iff.mpr (identifier_append hident hmore)),
    Reader.bind_of_ok (gap_append hafter hend')]
  rfl

/-! ## Positions and operators -/

theorem position_eq_ok {s t r : Text} (h : position s = .ok t r) :
    s = t ++ r ∧ (∃ c u, t = c :: u ∧ c.isDigit = true) ∧ ∀ r', Alike r r' → position (t ++ r') = .ok t r' := by
  unfold position at h
  split at h
  · next u =>
    injection h with h1 h2
    subst h1 h2
    exact ⟨rfl, ⟨'0', [], rfl, rfl⟩, fun r' _ => rfl⟩
  · next hzero =>
    obtain ⟨ds, u, hds, h⟩ := Reader.bind_eq_ok_iff.mp h
    split at h
    · next hrange =>
      obtain ⟨rfl, rfl⟩ := Reader.pure_iff.mp h
      obtain ⟨rfl, ⟨c, v, rfl, hc⟩, hall, havoid⟩ := digits_eq_ok hds
      refine ⟨rfl, ⟨c, v, rfl, hc⟩, fun r' hr' => ?_⟩
      have hdigits := digits_append (t := c :: v) (by simp) hall (hr'.avoids (fun _ => extendsWith_of_isDigit) havoid)
      have hne : c ≠ '0' := fun e => hzero (v ++ u) (by rw [e]; rfl)
      have hread : position (c :: v ++ r') = (digits.bind fun ds =>
          if ofDigits ds ≤ NumberValue.maxWhole then Reader.pure ds else Reader.fail) (c :: v ++ r') :=
        position.eq_2 _ fun w hw => hne (List.cons.inj hw).1
      rw [hread]
      refine Reader.bind_eq_ok_iff.mpr ⟨_, _, hdigits, ?_⟩
      rw [if_pos hrange]
      rfl
    · cases h

theorem operator_eq_ok {s r : Text} {o : Operator} (h : operator s = .ok o r) : s = o.symbol ++ r := by
  unfold operator at h
  split at h
  all_goals cases h
  all_goals rfl

/-- An operator must not have an equals sign behind it, which could belong to it. -/
theorem operator_append (o : Operator) {r : Text} (h : r.head? ≠ some '=') : operator (o.symbol ++ r) = .ok o r := by
  cases r with
  | nil => cases o <;> rfl
  | cons c r =>
    have hne : c ≠ '=' := fun e => h (by rw [e]; rfl)
    cases o <;> simp [operator, Operator.symbol, hne]

end BackendSwitch.Grammar
