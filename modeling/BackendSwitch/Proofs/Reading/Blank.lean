import BackendSwitch.Grammar.Layout
import BackendSwitch.Proofs.Reading.Steps

/-! # Blank text is read as it stands

White space and comments are read as far as they go, and what was read is the text itself. The same blank text is
read again in front of any text that does not go on with more of it. A comment up to the end of its line is the one
case that needs care: it is blank text only in front of a line end. -/
namespace BackendSwitch.Grammar
set_option autoImplicit false

/-! ## White space with comments between -/

section
variable {space : Char → Bool} {comment : Reader Text} {c : Char} {s t u v r : Text}

/-- Comments are read as they stand or not at all, and no comment is empty. -/
def IsVerbatim (comment : Reader Text) : Prop :=
  ∀ s, comment s = .soft ∨ ∃ u r, comment s = .ok u r ∧ s = u ++ r ∧ u ≠ []

/-- A comment with the white space behind it. -/
def spaced (space : Char → Bool) (comment : Reader Text) : Reader Text := do
  let c ← comment
  let s ← .span space
  return c ++ s

theorem spaced_of_ok (h : comment s = .ok u r) :
    spaced space comment s = .ok (u ++ r.takeWhile space) (r.dropWhile space) := by
  unfold spaced
  rw [Reader.bind_of_ok h]
  rfl

theorem length_lt_of_spaced (hc : IsVerbatim comment) (s t r : Text) (h : spaced space comment s = .ok t r) :
    r.length < s.length := by
  rcases hc s with hs | ⟨u, v, hs, rfl, hu⟩
  · unfold spaced at h
    rw [Reader.bind_of_soft hs] at h
    cases h
  · rw [spaced_of_ok hs] at h
    injection h with h1 h2
    have h3 : (v.dropWhile space).length ≤ v.length := (List.dropWhile_sublist space).length_le
    have h4 : 0 < u.length := List.length_pos_iff.mpr hu
    rw [← h2, List.length_append]
    omega

theorem blankOf_eq (s : Text) :
    blankOf space comment s =
      (do let more ← Reader.many (spaced space comment); return s.takeWhile space ++ more.flatten)
        (s.dropWhile space) := rfl

theorem blankOf_of_space (hspace : space c = true) (h : blankOf space comment s = .ok t r) :
    blankOf space comment (c :: s) = .ok (c :: t) r := by
  rw [blankOf_eq] at h ⊢
  rw [List.takeWhile_cons_of_pos hspace, List.dropWhile_cons_of_pos hspace]
  obtain ⟨more, v, hm, hpure⟩ := Reader.bind_iff.mp h
  obtain ⟨rfl, rfl⟩ := Reader.pure_iff.mp hpure
  rw [Reader.bind_of_ok hm]
  rfl

theorem blankOf_of_comment (hc : IsVerbatim comment) (hhead : s.Avoids space)
    (hs : comment s = .ok u v) (h : blankOf space comment v = .ok t r) :
    blankOf space comment s = .ok (u ++ t) r := by
  rw [blankOf_eq] at h ⊢
  obtain ⟨more, w, hm, hpure⟩ := Reader.bind_iff.mp h
  obtain ⟨rfl, rfl⟩ := Reader.pure_iff.mp hpure
  rw [Reader.many_eq_upTo (length_lt_of_spaced hc) (Nat.lt_succ_self _)] at hm
  have all : Reader.many (spaced space comment) s = .ok ((u ++ v.takeWhile space) :: more) w := by
    simp only [Reader.many, spaced_of_ok hs, hm]
  rw [Text.takeWhile_of_avoids hhead, Text.dropWhile_of_avoids hhead, Reader.bind_of_ok all]
  simp [Reader.pure_apply]

theorem avoids_of_blankOf (h : blankOf space comment s = .ok [] r) : s.Avoids space := by
  rw [blankOf_eq] at h
  obtain ⟨more, v, -, hpure⟩ := Reader.bind_iff.mp h
  have hnil : s.takeWhile space = [] := List.append_eq_nil_iff.mp (Reader.pure_iff.mp hpure).1 |>.1
  cases s with
  | nil => exact Text.avoids_nil
  | cons d s =>
    refine Text.avoids_cons.mpr ?_
    by_cases hd : space d = true
    · rw [List.takeWhile_cons_of_pos hd] at hnil
      cases hnil
    · simpa using hd

theorem blankOf_of_soft (hhead : r.Avoids space) (hr : comment r = .soft) :
    blankOf space comment r = .ok [] r := by
  have hsoft : spaced space comment r = .soft := Reader.bind_of_soft hr
  have none : Reader.many (spaced space comment) r = .ok [] r := by simp only [Reader.many, hsoft]
  rw [blankOf_eq, Text.takeWhile_of_avoids hhead, Text.dropWhile_of_avoids hhead, Reader.bind_of_ok none]
  rfl

end

/-! ## Comments -/

/-- A text that starts with a line end. -/
def AtLineEnd (s : Text) : Prop := (∃ r, s = '\n' :: r) ∨ ∃ r, s = '\r' :: '\n' :: r

theorem throughCommentEnd_ne_nil {s t r : Text} (h : throughCommentEnd s = some (t, r)) : t ≠ [] := by
  fun_cases throughCommentEnd s with
  | case1 => cases h
  | case2 r' =>
    cases h
    simp
  | case3 c s hne =>
    rw [throughCommentEnd.eq_3 c s hne, Option.map_eq_some_iff] at h
    obtain ⟨p, -, hp⟩ := h
    cases hp
    simp

theorem throughCommentEnd_append {s t r : Text} (h : throughCommentEnd s = some (t, r)) (u : Text) :
    s = t ++ r ∧ throughCommentEnd (t ++ u) = some (t, u) := by
  fun_induction throughCommentEnd s generalizing t with
  | case1 => cases h
  | case2 r' =>
    cases h
    exact ⟨rfl, rfl⟩
  | case3 c s hne ih =>
    obtain ⟨⟨t', r'⟩, hs, hp⟩ := Option.map_eq_some_iff.mp h
    cases hp
    obtain ⟨rfl, hu⟩ := ih hs
    refine ⟨rfl, ?_⟩
    obtain ⟨d, t'', rfl⟩ := List.exists_cons_of_ne_nil (throughCommentEnd_ne_nil hs)
    have hopen : ∀ r, c = '*' → d :: t'' ++ u = '/' :: r → False := by
      intro r hc hr
      cases hr
      exact hne _ hc rfl
    rw [List.cons_append, throughCommentEnd.eq_3 _ _ hopen, hu]
    rfl

/-- Text within a line. -/
def IsLine (t : Text) : Prop := ∀ c ∈ t, c ≠ '\n' ∧ c ≠ '\r'

theorem isLine_cons {c : Char} {t : Text} : IsLine (c :: t) ↔ (c ≠ '\n' ∧ c ≠ '\r') ∧ IsLine t := by
  simp [IsLine]

theorem beforeLineEnd_eq_some {s t r : Text} (h : beforeLineEnd s = some (t, r)) :
    s = t ++ r ∧ IsLine t ∧ (r = [] ∨ AtLineEnd r) := by
  fun_induction beforeLineEnd s generalizing t with
  | case1 =>
    cases h
    exact ⟨rfl, by simp [IsLine], .inl rfl⟩
  | case2 r' =>
    cases h
    exact ⟨rfl, by simp [IsLine], .inr (.inl ⟨_, rfl⟩)⟩
  | case3 r' =>
    cases h
    exact ⟨rfl, by simp [IsLine], .inr (.inr ⟨_, rfl⟩)⟩
  | case4 tail hne => cases h
  | case5 c s hn hrn hr ih =>
    obtain ⟨⟨t', r'⟩, hs, hp⟩ := Option.map_eq_some_iff.mp h
    cases hp
    obtain ⟨rfl, hline, hend⟩ := ih hs
    exact ⟨rfl, isLine_cons.mpr ⟨⟨hn, hr⟩, hline⟩, hend⟩

theorem beforeLineEnd_append {t r : Text} (ht : IsLine t) (hr : r = [] ∨ AtLineEnd r) :
    beforeLineEnd (t ++ r) = some (t, r) := by
  induction t with
  | nil =>
    rcases hr with rfl | ⟨u, rfl⟩ | ⟨u, rfl⟩
    · rfl
    · rfl
    · rfl
  | cons c t ih =>
    obtain ⟨⟨hn, hcr⟩, ht⟩ := isLine_cons.mp ht
    rw [List.cons_append, beforeLineEnd.eq_5 c (t ++ r) hn (fun _ hc _ => hcr hc) hcr, ih ht]
    rfl

/-- A comment that says where it ends. -/
def IsComment (t : Text) : Prop := ∃ u, t = '/' :: '*' :: u ∧ throughCommentEnd u = some (u, [])

/-- A comment up to the end of a line. -/
def IsLineComment (t : Text) : Prop := ∃ u, IsLine u ∧ (t = '#' :: u ∨ t = '/' :: '/' :: u)

theorem inlineComment_eq_ok {s t r : Text} (h : inlineComment s = .ok t r) : s = t ++ r ∧ IsComment t := by
  unfold inlineComment at h
  split at h
  · next u =>
    split at h
    · next v rest hv =>
      injection h with h1 h2
      obtain ⟨rfl, hend⟩ := throughCommentEnd_append hv []
      rw [List.append_nil] at hend
      exact ⟨by rw [← h1, ← h2]; rfl, v, h1.symm, hend⟩
    · cases h
  · cases h

theorem inlineComment_append {t : Text} (h : IsComment t) (r : Text) : inlineComment (t ++ r) = .ok t r := by
  obtain ⟨u, rfl, hu⟩ := h
  have hr := (throughCommentEnd_append hu r).2
  simp [inlineComment, hr]

theorem lineComment_eq_ok {s t r : Text} (h : lineComment s = .ok t r) :
    s = t ++ r ∧ IsLineComment t ∧ (r = [] ∨ AtLineEnd r) := by
  unfold lineComment at h
  split at h
  · next u =>
    split at h
    · next v rest hv =>
      injection h with h1 h2
      obtain ⟨rfl, hline, hend⟩ := beforeLineEnd_eq_some hv
      exact ⟨by rw [← h1, ← h2]; rfl, ⟨v, hline, .inl h1.symm⟩, h2 ▸ hend⟩
    · cases h
  · next u =>
    split at h
    · next v rest hv =>
      injection h with h1 h2
      obtain ⟨rfl, hline, hend⟩ := beforeLineEnd_eq_some hv
      exact ⟨by rw [← h1, ← h2]; rfl, ⟨v, hline, .inr h1.symm⟩, h2 ▸ hend⟩
    · cases h
  · cases h

theorem lineComment_append {t r : Text} (h : IsLineComment t) (hr : r = [] ∨ AtLineEnd r) :
    lineComment (t ++ r) = .ok t r := by
  obtain ⟨u, hu, rfl | rfl⟩ := h
  · simp [lineComment, beforeLineEnd_append hu hr]
  · simp [lineComment, beforeLineEnd_append hu hr]

theorem isVerbatim_inlineComment : IsVerbatim inlineComment := by
  intro s
  cases h : inlineComment s with
  | soft => exact .inl rfl
  | ok t r =>
    obtain ⟨hs, u, hu, -⟩ := inlineComment_eq_ok h
    exact .inr ⟨t, r, rfl, hs, by rw [hu]; simp⟩
  | hard c r =>
    unfold inlineComment at h
    repeat' split at h
    all_goals cases h

theorem isVerbatim_anyComment : IsVerbatim (lineComment.or inlineComment) := by
  intro s
  cases h : lineComment s with
  | soft =>
    rw [Reader.or_of_soft h]
    exact isVerbatim_inlineComment s
  | ok t r =>
    obtain ⟨hs, ⟨u, -, hu⟩, -⟩ := lineComment_eq_ok h
    refine .inr ⟨t, r, Reader.or_of_ok h, hs, ?_⟩
    rcases hu with rfl | rfl <;> simp
  | hard c r =>
    unfold lineComment at h
    repeat' split at h
    all_goals cases h

/-! ## Blank text -/

/-- Blank text within a line. -/
inductive Inline : Text → Prop
  | nil : Inline []
  | space {c : Char} {t : Text} : isSpace c = true → Inline t → Inline (c :: t)
  | comment {u t : Text} : IsComment u → Inline t → Inline (u ++ t)

/-- Blank text over any number of lines. A comment up to the end of its line has that line end behind it. -/
inductive Blank : Text → Prop
  | nil : Blank []
  | white {c : Char} {t : Text} : isWhite c = true → Blank t → Blank (c :: t)
  | comment {u t : Text} : IsComment u → Blank t → Blank (u ++ t)
  | line {u t : Text} : IsLineComment u → AtLineEnd t → Blank t → Blank (u ++ t)

theorem isWhite_of_isSpace {c : Char} (h : isSpace c = true) : isWhite c = true := by
  simp only [isSpace, isWhite, Bool.or_eq_true] at h ⊢
  exact .inl (.inl h)

theorem Inline.blank {t : Text} (h : Inline t) : Blank t := by
  induction h with
  | nil => exact .nil
  | space hc _ ih => exact .white (isWhite_of_isSpace hc) ih
  | comment hu _ ih => exact .comment hu ih

theorem Inline.append {t u : Text} (ht : Inline t) (hu : Inline u) : Inline (t ++ u) := by
  induction ht with
  | nil => exact hu
  | space hc _ ih => exact .space hc ih
  | comment hv _ ih =>
    rw [List.append_assoc]
    exact .comment hv ih

theorem avoids_of_isComment {f : Char → Bool} {t r : Text} (h : IsComment t) (hf : f '/' = false) :
    (t ++ r).Avoids f := by
  obtain ⟨u, rfl, -⟩ := h
  exact Text.avoids_cons.mpr hf

theorem avoids_of_isLineComment {f : Char → Bool} {t r : Text} (h : IsLineComment t) (hf : f '/' = false)
    (hf' : f '#' = false) : (t ++ r).Avoids f := by
  obtain ⟨u, -, rfl | rfl⟩ := h
  · exact Text.avoids_cons.mpr hf'
  · exact Text.avoids_cons.mpr hf

theorem lineComment_of_isComment {t r : Text} (h : IsComment t) : lineComment (t ++ r) = .soft := by
  obtain ⟨u, rfl, -⟩ := h
  rfl

/-- A place at which blank text within a line ends. -/
def InlineEnd (r : Text) : Prop := inline r = .ok [] r

/-- A place at which blank text over several lines ends. -/
def BlankEnd (r : Text) : Prop := blank r = .ok [] r

theorem inline_append {t r : Text} (ht : Inline t) (hr : InlineEnd r) : inline (t ++ r) = .ok t r := by
  induction ht with
  | nil => exact hr
  | space hc _ ih => exact blankOf_of_space hc ih
  | @comment u t hu _ ih =>
    rw [List.append_assoc]
    exact blankOf_of_comment isVerbatim_inlineComment (avoids_of_isComment hu rfl) (inlineComment_append hu _) ih

theorem AtLineEnd.append {t : Text} (h : AtLineEnd t) (u : Text) : AtLineEnd (t ++ u) := by
  rcases h with ⟨v, rfl⟩ | ⟨v, rfl⟩
  · exact .inl ⟨v ++ u, rfl⟩
  · exact .inr ⟨v ++ u, rfl⟩

theorem Blank.append {t u : Text} (ht : Blank t) (hu : Blank u) : Blank (t ++ u) := by
  induction ht with
  | nil => exact hu
  | white hc _ ih => exact .white hc ih
  | comment hv _ ih =>
    rw [List.append_assoc]
    exact .comment hv ih
  | line hv hend _ ih =>
    rw [List.append_assoc]
    exact .line hv (hend.append u) ih

/-- Blank text joins the blank text that is read behind it. -/
theorem blank_join {t r a u : Text} (ht : Blank t) (hr : blank r = .ok a u) : blank (t ++ r) = .ok (t ++ a) u := by
  induction ht with
  | nil => exact hr
  | white hc _ ih => exact blankOf_of_space hc ih
  | @comment v t hv _ ih =>
    rw [List.append_assoc, List.append_assoc]
    refine blankOf_of_comment isVerbatim_anyComment (avoids_of_isComment hv rfl) ?_ ih
    rw [Reader.or_of_soft (lineComment_of_isComment hv)]
    exact inlineComment_append hv _
  | @line v t hv hend _ ih =>
    rw [List.append_assoc, List.append_assoc]
    exact blankOf_of_comment isVerbatim_anyComment (avoids_of_isLineComment hv rfl rfl)
      (Reader.or_of_ok (lineComment_append hv (.inr (hend.append r)))) ih

theorem blank_append {t r : Text} (ht : Blank t) (hr : BlankEnd r) : blank (t ++ r) = .ok t r := by
  have h := blank_join ht hr
  rwa [List.append_nil] at h

theorem BlankEnd.avoids {r : Text} (h : BlankEnd r) : r.Avoids isWhite := avoids_of_blankOf h

/-- No line end can begin in blank text and end behind it. -/
theorem BlankEnd.atLineEnd_of_append {t r : Text} (hr : BlankEnd r) (h : AtLineEnd (t ++ r)) : AtLineEnd t := by
  match t, h with
  | [], .inl ⟨u, hu⟩ =>
    rw [List.nil_append] at hu
    exact absurd (hr.avoids '\n' (by rw [hu]; rfl)) (by decide)
  | [], .inr ⟨u, hu⟩ =>
    rw [List.nil_append] at hu
    exact absurd (hr.avoids '\r' (by rw [hu]; rfl)) (by decide)
  | [c], .inr ⟨u, hu⟩ =>
    have hu' : r = '\n' :: u := by injection hu
    exact absurd (hr.avoids '\n' (by rw [hu']; rfl)) (by decide)
  | c :: t, .inl ⟨u, hu⟩ =>
    have hc : c = '\n' := by injection hu
    exact .inl ⟨t, by rw [hc]⟩
  | c :: d :: t, .inr ⟨u, hu⟩ =>
    have hc : c = '\r' := by injection hu
    have hd : d = '\n' := by injection hu with _ hu; injection hu
    exact .inr ⟨t, by rw [hc, hd]⟩

/-- Blank text within a line is read as it stands, up to where it ends. -/
theorem inline_spec (s : Text) : ∃ t r, inline s = .ok t r ∧ s = t ++ r ∧ Inline t ∧ InlineEnd r := by
  induction hn : s.length using Nat.strongRecOn generalizing s with
  | ind n ih =>
    by_cases hhead : s.Avoids isSpace
    · rcases isVerbatim_inlineComment s with hs | ⟨u, v, hs, rfl, hu⟩
      · have hstop : inline s = .ok [] s := blankOf_of_soft hhead hs
        exact ⟨[], s, hstop, rfl, .nil, hstop⟩
      · have hlen : v.length < n := by
          have hpos : 0 < u.length := List.length_pos_iff.mpr hu
          rw [← hn, List.length_append]
          omega
        obtain ⟨t, r, ht, rfl, hinline, hr⟩ := ih v.length hlen v rfl
        exact ⟨u ++ t, r, blankOf_of_comment isVerbatim_inlineComment hhead hs ht, (List.append_assoc _ _ _).symm,
          .comment (inlineComment_eq_ok hs).2 hinline, hr⟩
    · cases s with
      | nil => exact absurd Text.avoids_nil hhead
      | cons c s =>
        have hc : isSpace c = true := by simpa [Text.avoids_cons] using hhead
        obtain ⟨t, r, ht, rfl, hinline, hr⟩ := ih s.length (by rw [← hn]; simp) s rfl
        exact ⟨c :: t, r, blankOf_of_space hc ht, rfl, .space hc hinline, hr⟩

/-- Blank text is read as it stands, up to where it ends. Only at the end of the whole text can a comment up to the
end of its line be the last of it. -/
theorem blank_spec (s : Text) : ∃ t r, blank s = .ok t r ∧ s = t ++ r ∧ BlankEnd r ∧ (r ≠ [] → Blank t) := by
  induction hn : s.length using Nat.strongRecOn generalizing s with
  | ind n ih =>
    by_cases hhead : s.Avoids isWhite
    · rcases isVerbatim_anyComment s with hs | ⟨u, v, hs, rfl, hu⟩
      · have hstop : blank s = .ok [] s := blankOf_of_soft hhead hs
        exact ⟨[], s, hstop, rfl, hstop, fun _ => .nil⟩
      · have hlen : v.length < n := by
          have hpos : 0 < u.length := List.length_pos_iff.mpr hu
          rw [← hn, List.length_append]
          omega
        obtain ⟨t, r, ht, rfl, hr, hblank⟩ := ih v.length hlen v rfl
        refine ⟨u ++ t, r, blankOf_of_comment isVerbatim_anyComment hhead hs ht, (List.append_assoc _ _ _).symm, hr,
          fun hne => ?_⟩
        rcases Reader.or_eq_ok_iff.mp hs with hline | ⟨-, hinline⟩
        · obtain ⟨-, hu', hend⟩ := lineComment_eq_ok hline
          have hend' : AtLineEnd (t ++ r) := hend.resolve_left fun e => hne (List.append_eq_nil_iff.mp e).2
          exact .line hu' (hr.atLineEnd_of_append hend') (hblank hne)
        · exact .comment (inlineComment_eq_ok hinline).2 (hblank hne)
    · cases s with
      | nil => exact absurd Text.avoids_nil hhead
      | cons c s =>
        have hc : isWhite c = true := by simpa [Text.avoids_cons] using hhead
        obtain ⟨t, r, ht, rfl, hr, hblank⟩ := ih s.length (by rw [← hn]; simp) s rfl
        exact ⟨c :: t, r, blankOf_of_space hc ht, rfl, hr, fun hne => .white hc (hblank hne)⟩

/-! ## Where blank text of several lines leaves its first line -/

theorem BlankEnd.inlineEnd {r : Text} (h : BlankEnd r) : InlineEnd r := by
  have hspace : r.Avoids isSpace := by
    intro c hc
    have hw := h.avoids c hc
    cases hs : isSpace c with
    | false => rfl
    | true => exact absurd (isWhite_of_isSpace hs) (by simp [hw])
  obtain ⟨t, u, ht, rfl, hinline, -⟩ := inline_spec r
  cases hinline with
  | nil => exact ht
  | space hc _ => exact absurd (hspace _ rfl) (by simp [hc])
  | comment hu htail =>
    have hread := blank_join (Inline.comment hu htail).blank (blank_spec u).choose_spec.choose_spec.1
    rw [h] at hread
    injection hread with hnil _
    obtain ⟨v, rfl, -⟩ := hu
    cases hnil

/-- A text at which blank text leaves its line. -/
def Pause (r : Text) : Prop :=
  (∃ c u, r = c :: u ∧ (c = '\n' ∨ c = '\r' ∨ c = '#')) ∨ ∃ u, r = '/' :: '/' :: u

theorem Pause.inlineEnd {r : Text} (h : Pause r) : InlineEnd r := by
  rcases h with ⟨c, u, rfl, rfl | rfl | rfl⟩ | ⟨u, rfl⟩
  · exact blankOf_of_soft (Text.avoids_cons.mpr rfl) rfl
  · exact blankOf_of_soft (Text.avoids_cons.mpr rfl) rfl
  · exact blankOf_of_soft (Text.avoids_cons.mpr rfl) rfl
  · exact blankOf_of_soft (Text.avoids_cons.mpr rfl) rfl

theorem isWhite_iff {c : Char} : isWhite c = true ↔ isSpace c = true ∨ c = '\n' ∨ c = '\r' := by
  simp [isWhite, isSpace, or_assoc]

/-- Read as blank text within a line, blank text is read to its end or up to where it leaves the line. -/
theorem inline_of_blank {t r : Text} (ht : Blank t) (hr : InlineEnd r) :
    ∃ a u, inline (t ++ r) = .ok a u ∧ (u = r ∧ a = t ∨ Pause u) := by
  induction ht with
  | nil => exact ⟨[], r, hr, .inl ⟨rfl, rfl⟩⟩
  | @white c t hc _ ih =>
    rcases isWhite_iff.mp hc with hs | hn | hn
    · obtain ⟨a, u, ha, hu⟩ := ih
      refine ⟨c :: a, u, blankOf_of_space hs ha, hu.imp_left ?_⟩
      rintro ⟨hu, ha⟩
      exact ⟨hu, by rw [ha]⟩
    · have hp : Pause (c :: (t ++ r)) := .inl ⟨c, _, rfl, .inl hn⟩
      exact ⟨[], _, hp.inlineEnd, .inr hp⟩
    · have hp : Pause (c :: (t ++ r)) := .inl ⟨c, _, rfl, .inr (.inl hn)⟩
      exact ⟨[], _, hp.inlineEnd, .inr hp⟩
  | @comment v t hv _ ih =>
    obtain ⟨a, u, ha, hu⟩ := ih
    rw [List.append_assoc]
    refine ⟨v ++ a, u, blankOf_of_comment isVerbatim_inlineComment (avoids_of_isComment hv rfl)
      (inlineComment_append hv _) ha, hu.imp_left ?_⟩
    rintro ⟨hu, ha⟩
    exact ⟨hu, by rw [ha]⟩
  | @line v t hv _ _ _ =>
    have hp : Pause (v ++ t ++ r) := by
      obtain ⟨w, -, rfl | rfl⟩ := hv
      · exact .inl ⟨'#', _, rfl, .inr (.inr rfl)⟩
      · exact .inr ⟨_, rfl⟩
    exact ⟨[], _, hp.inlineEnd, .inr hp⟩

/-! ## Blank text where newlines count or not -/

/-- A character at which no blank text goes on. -/
def isSolid (c : Char) : Bool := !isWhite c && c != '#' && c != '/'

theorem blankEnd_cons {c : Char} {t : Text} (h : isSolid c = true) : BlankEnd (c :: t) := by
  simp only [isSolid, Bool.and_eq_true, Bool.not_eq_true', bne_iff_ne, ne_eq] at h
  obtain ⟨⟨hwhite, hhash⟩, hslash⟩ := h
  refine blankOf_of_soft (Text.avoids_cons.mpr hwhite) ?_
  have hline : lineComment (c :: t) = .soft := by
    unfold lineComment
    split
    · next h => exact absurd (List.cons.inj h).1 hhash
    · next h => exact absurd (List.cons.inj h).1 hslash
    · rfl
  rw [Reader.or_of_soft hline]
  unfold inlineComment
  split
  · next h => exact absurd (List.cons.inj h).1 hslash
  · rfl

theorem blankEnd_nil : BlankEnd [] := rfl

def IsGap (newlines : Bool) (t : Text) : Prop := if newlines then Blank t else Inline t

def GapEnd (newlines : Bool) (r : Text) : Prop := gap newlines r = .ok [] r

variable {newlines : Bool} {s t r : Text}

theorem IsGap.blank (h : IsGap newlines t) : Blank t := by
  cases newlines with
  | true => exact h
  | false => exact Inline.blank h

theorem BlankEnd.gapEnd (h : BlankEnd r) : GapEnd newlines r := by
  cases newlines with
  | true => exact h
  | false => exact h.inlineEnd

theorem inline_eq_ok (h : inline s = .ok t r) : s = t ++ r ∧ Inline t ∧ InlineEnd r := by
  obtain ⟨t', r', ht, hs, hspec⟩ := inline_spec s
  rw [h] at ht
  injection ht with h1 h2
  subst h1 h2
  exact ⟨hs, hspec⟩

theorem blank_eq_ok (h : blank s = .ok t r) (hr : r ≠ []) : s = t ++ r ∧ Blank t ∧ BlankEnd r := by
  obtain ⟨t', r', ht, hs, hend, hblank⟩ := blank_spec s
  rw [h] at ht
  injection ht with h1 h2
  subst h1 h2
  exact ⟨hs, hblank hr, hend⟩

theorem gap_eq_ok (h : gap newlines s = .ok t r) (hr : r ≠ []) : s = t ++ r ∧ IsGap newlines t ∧ GapEnd newlines r := by
  cases newlines with
  | true => exact blank_eq_ok h hr
  | false => exact inline_eq_ok h

theorem gap_append (ht : IsGap newlines t) (hr : GapEnd newlines r) : gap newlines (t ++ r) = .ok t r := by
  cases newlines with
  | true => exact blank_append ht hr
  | false => exact inline_append ht hr

theorem gap_spec (newlines : Bool) (s : Text) :
    ∃ t r, gap newlines s = .ok t r ∧ s = t ++ r ∧ GapEnd newlines r := by
  cases newlines with
  | true =>
    obtain ⟨t, r, ht, hs, hend, -⟩ := blank_spec s
    exact ⟨t, r, ht, hs, hend⟩
  | false =>
    obtain ⟨t, r, ht, hs, -, hend⟩ := inline_spec s
    exact ⟨t, r, ht, hs, hend⟩

end BackendSwitch.Grammar
