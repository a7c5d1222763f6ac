import BackendSwitch.Proofs.Reading.Template

/-! # A template is read again part by part

The literals of a template are read up to the markers between them, so a template without a fault falls into the same
parts again. In a quoted template the literals are escaped; elsewhere only their markers are doubled. -/
namespace BackendSwitch
set_option autoImplicit false

open Grammar Escape

/-! ## Literals and markers -/

theorem Element.eq_literal_or (e : Element) : (∃ t, e = .literal t) ∨ e.isLiteral = false := by
  cases e with
  | literal t => exact .inl ⟨t, rfl⟩
  | interpolation strip e => exact .inr rfl
  | branch strip before test yes middle no close => exact .inr rfl
  | loop strip intro body close => exact .inr rfl

theorem Element.text_of_not_literal {e : Element} (h : e.isLiteral = false) :
    ∃ c t, e.text = c :: '{' :: t ∧ isMarkerSign c = true := by
  cases e with
  | literal t => cases h
  | interpolation strip e => exact ⟨'$', _, Element.text_interpolation .., rfl⟩
  | branch strip before test yes middle no close => exact ⟨'%', _, Element.text_branch .., rfl⟩
  | loop strip intro body close => exact ⟨'%', _, Element.text_loop .., rfl⟩

theorem Element.quotedText_of_not_literal {e : Element} (h : e.isLiteral = false) : e.quotedText = e.text := by
  cases e with
  | literal t => cases h
  | interpolation strip e => rfl
  | branch strip before test yes middle no close => rfl
  | loop strip intro body close => rfl

theorem Escape.Parted.congr {t x y : Text} (h : Parted t x) (hxy : x.take 2 = y.take 2) : Parted t y := by
  obtain ⟨hbrace, hsign⟩ := h
  match x, y with
  | [], [] => exact ⟨hbrace, hsign⟩
  | [], _ :: _ => cases hxy
  | _ :: _, [] => cases hxy
  | c :: x, d :: y =>
    simp only [List.take_succ_cons, List.cons.injEq] at hxy
    obtain ⟨rfl, hxy⟩ := hxy
    refine ⟨hbrace, fun e v he hv => ?_⟩
    cases hv
    cases x with
    | nil => cases hxy
    | cons d x =>
      simp only [List.take_succ_cons, List.cons.injEq] at hxy
      exact hsign c x he (by rw [hxy.1])

theorem Escape.parted_of_plain {c : Char} {t r : Text} (hc : isMarkerSign c = false) (hbrace : c ≠ '{') :
    Parted t (c :: r) := by
  refine ⟨by simpa using hbrace, fun d v hd hv => ?_⟩
  cases hv
  rw [hc] at hd
  cases hd

theorem Woven.literal {following : Text} {es pre post : List Element} {t : Text} (h : Woven following es)
    (hes : es = pre ++ .literal t :: post) :
    t ≠ [] ∧ Legible t ∧ Parted t (post.flatMap Element.text ++ following) ∧
      ∀ e, post.head? = some e → e.isLiteral = false := by
  induction pre generalizing es with
  | nil =>
    subst hes
    exact h.1
  | cons e pre ih =>
    subst hes
    cases e with
    | literal u => exact @ih (pre ++ .literal t :: post) h.2 rfl
    | interpolation strip e => exact @ih (pre ++ .literal t :: post) h rfl
    | branch strip before test yes middle no close => exact @ih (pre ++ .literal t :: post) h rfl
    | loop strip intro body close => exact @ih (pre ++ .literal t :: post) h rfl

namespace Grammar

variable {inner inner' : Inner} {k : Nat}

/-! ## Plain templates -/

theorem rawText_of_run {stop : Text → Bool} {s t r : Text} (h : rawRun stop s = (t, r)) (ht : t ≠ []) :
    rawText stop s = .ok (.literal t) r := by
  unfold rawText
  rw [h]
  cases t with
  | nil => exact absurd rfl ht
  | cons c t => rfl

theorem rawText_of_stop {stop : Text → Bool} {r : Text} (h : r = [] ∨ stop r = true ∨ opensMarker r = true) :
    rawText stop r = .soft := by
  unfold rawText
  rw [rawRun_of_stop h]

theorem opensMarker_of_sign {c : Char} {t : Text} (h : isMarkerSign c = true) : opensMarker (c :: '{' :: t) = true := h

theorem doubled_ne_nil {t : Text} (h : t ≠ []) : doubled t ≠ [] := by
  have hlen := length_le_doubled t
  have hpos : 0 < t.length := List.length_pos_iff.mpr h
  exact List.length_pos_iff.mp (by omega)

/-- Behind a literal stands a marker or the end of the template. -/
theorem flatMap_eq_marker {es : List Element} (h : ∀ e, es.head? = some e → e.isLiteral = false) :
    es = [] ∨ ∃ c t, isMarkerSign c = true ∧ es.flatMap Element.text = c :: '{' :: t := by
  cases es with
  | nil => exact .inl rfl
  | cons e es =>
    obtain ⟨c, t, ht, hc⟩ := Element.text_of_not_literal (h e rfl)
    exact .inr ⟨c, t ++ es.flatMap Element.text, hc, by rw [List.flatMap_cons, ht]; rfl⟩

section
variable {stop : Text → Bool} {following r : Text} {es : List Element}

/-- A literal outside quotes is read again up to the marker behind it or the end of the template. -/
theorem rawText_of_literal (hw : Woven following es) (hr : ∀ t, Parted t following → Parted t r)
    (hstop : ∀ u v, es.flatMap Element.text = u ++ v → v ≠ [] → stop (v ++ r) = false)
    (hend : stop r = true ∨ opensMarker r = true) {pre post : List Element} {t : Text}
    (hes : es = pre ++ .literal t :: post) :
    rawText stop (doubled t ++ (post.flatMap Element.text ++ r)) = .ok (.literal t) (post.flatMap Element.text ++ r) := by
  obtain ⟨hne, hlegible, hparted, hnext⟩ := hw.literal hes
  have htext : es.flatMap Element.text = pre.flatMap Element.text ++ (doubled t ++ post.flatMap Element.text) := by
    simp [hes, Element.text_literal, show markers t = doubled t from hlegible]
  have hrest : (post.flatMap Element.text ++ r = [] ∨ stop (post.flatMap Element.text ++ r) = true ∨
      opensMarker (post.flatMap Element.text ++ r) = true) ∧ Parted t (post.flatMap Element.text ++ r) := by
    rcases flatMap_eq_marker hnext with rfl | ⟨c, v, hc, hv⟩
    · exact ⟨.inr hend, hr t hparted⟩
    · rw [hv] at hparted ⊢
      exact ⟨.inr (.inr (opensMarker_of_sign hc)), hparted.congr rfl⟩
  have hrun : rawRun stop (doubled t ++ (post.flatMap Element.text ++ r)) = (t, post.flatMap Element.text ++ r) := by
    refine rawRun_doubled (fun a b hab hb => ?_) hrest.1 hrest.2
    have hfree := hstop (pre.flatMap Element.text ++ a) (b ++ post.flatMap Element.text)
      (by rw [htext, hab]; simp) (by simp [hb])
    rwa [List.append_assoc] at hfree
  exact rawText_of_run hrun hne

/-- A template outside quotes is read again up to where it stops. -/
theorem plainTemplate_repeats (hparts : ∀ e ∈ es, e.isLiteral = false → ∀ r', templatePart inner' (e.text ++ r') = .ok e r')
    (hw : Woven following es) (hr : ∀ t, Parted t following → Parted t r)
    (hstop : ∀ u v, es.flatMap Element.text = u ++ v → v ≠ [] → stop (v ++ r) = false)
    (hend : stop r = true ∨ opensMarker r = true) (hsoft : templatePart inner' r = .soft) :
    plainTemplate inner' stop (es.flatMap Element.text ++ r) = .ok es r := by
  have hliteral : ∀ t, .literal t ∈ es → t ≠ [] ∧ (Element.literal t).text = doubled t := by
    intro t ht
    obtain ⟨pre, post, hes⟩ := List.append_of_mem ht
    obtain ⟨hne, hlegible, -⟩ := hw.literal hes
    exact ⟨hne, (Element.text_literal t).trans hlegible⟩
  refine Reader.many_flatMap (fun e he => ?_) (fun pre e post hes => ?_) ?_
  · rcases e.eq_literal_or with ⟨t, rfl⟩ | hlit
    · obtain ⟨hne, htext⟩ := hliteral t he
      rw [htext]
      exact doubled_ne_nil hne
    · obtain ⟨c, t, ht, -⟩ := Element.text_of_not_literal hlit
      simp [ht]
  · rcases e.eq_literal_or with ⟨t, rfl⟩ | hlit
    · rw [(hliteral t (by simp [hes])).2]
      exact Reader.or_of_ok (rawText_of_literal hw hr hstop hend hes)
    · obtain ⟨c, t, ht, hc⟩ := Element.text_of_not_literal hlit
      have hraw : rawText stop (e.text ++ (post.flatMap Element.text ++ r)) = .soft := by
        rw [ht]
        exact rawText_of_stop (.inr (.inr (opensMarker_of_sign hc)))
      rw [Reader.or_of_soft hraw]
      exact hparts e (by simp [hes]) hlit _
  · have hraw : rawText stop r = .soft := rawText_of_stop (.inr hend)
    rw [Reader.or_of_soft hraw, hsoft]

end

theorem templatePart_of_mem {stop : Text → Bool} {s r : Text} {es : List Element}
    (h : plainTemplate inner stop s = .ok es r) {e : Element} (he : e ∈ es) (hlit : e.isLiteral = false) :
    ∃ t u, templatePart inner t = .ok e u := by
  obtain ⟨t, u, hread⟩ := Reader.exists_of_mem_many h he
  rcases Reader.or_eq_ok_iff.mp hread with hraw | ⟨-, hpart⟩
  · unfold rawText at hraw
    split at hraw
    · cases hraw
    · injection hraw with hraw _
      rw [← hraw] at hlit
      cases hlit
  · exact ⟨t, u, hpart⟩

theorem length_text_le {es : List Element} {e : Element} (he : e ∈ es) :
    e.text.length ≤ (es.flatMap Element.text).length := by
  obtain ⟨pre, post, rfl⟩ := List.append_of_mem he
  simp only [List.flatMap_append, List.flatMap_cons, List.length_append]
  omega

/-- The template inside a branch or a loop is read again in front of the marker that ends it. -/
theorem nestedTemplate_repeats (h : inner.Repeats inner' k) {s r : Text} {es : List Element}
    (hs : nestedTemplate inner s = .ok es r) (sound : ElementsSound es) (hw : Woven ['%', '{'] es)
    (hk : (es.flatMap Element.text).length ≤ k) {r' : Text} (hr' : TemplateEnd r') :
    nestedTemplate inner' (es.flatMap Element.text ++ r') = .ok es r' := by
  have hmarker : ∃ v, r' = '%' :: '{' :: v := by
    obtain ⟨strip, before, t, rfl, -⟩ := hr'
    exact ⟨_, rfl⟩
  obtain ⟨v, hv⟩ := hmarker
  refine plainTemplate_repeats (fun e he hlit => ?_) hw (fun t ht => ?_) (fun _ _ _ _ => rfl) (.inr ?_)
    (templatePart_of_templateEnd hr')
  · obtain ⟨t, u, hpart⟩ := templatePart_of_mem hs he hlit
    have hlen := length_text_le he
    exact (templatePart_repeats h hpart ((elementsSound_iff es).mp sound e he) (by omega)).2
  · rw [hv]
    exact ht.congr rfl
  · rw [hv]
    rfl

/-! ## Quoted templates -/

theorem fragment_of_marker {c : Char} (h : isMarkerSign c = true) (t : Text) : fragment (c :: '{' :: t) = .soft := by
  rcases isMarkerSign_iff.mp h with rfl | rfl
  · rfl
  · rfl

theorem flatMap_quoted_eq_marker {es : List Element} (h : ∀ e, es.head? = some e → e.isLiteral = false) :
    es = [] ∨ ∃ c t u, isMarkerSign c = true ∧ es.flatMap Element.text = c :: '{' :: t ∧
      es.flatMap Element.quotedText = c :: '{' :: u := by
  cases es with
  | nil => exact .inl rfl
  | cons e es =>
    obtain ⟨c, t, ht, hc⟩ := Element.text_of_not_literal (h e rfl)
    exact .inr ⟨c, t ++ es.flatMap Element.text, t ++ es.flatMap Element.quotedText, hc, by rw [List.flatMap_cons, ht]; rfl,
      by rw [List.flatMap_cons, Element.quotedText_of_not_literal (h e rfl), ht]; rfl⟩

/-- A literal of a quoted template is read again up to the marker or the quote behind it. -/
theorem fragments_of_literal {es pre post : List Element} {t r : Text} (h : Woven ['"'] es)
    (hes : es = pre ++ .literal t :: post) :
    fragments (chars (markers t) ++ (post.flatMap Element.quotedText ++ '"' :: r)) =
      .ok t (post.flatMap Element.quotedText ++ '"' :: r) := by
  obtain ⟨hne, hlegible, hparted, hnext⟩ := h.literal hes
  rw [show markers t = doubled t from hlegible]
  rcases flatMap_quoted_eq_marker hnext with rfl | ⟨c, v, w, hc, hv, hw⟩
  · exact fragments_chars hne rfl (parted_quote _ _)
  · rw [hw]
    rw [hv] at hparted
    exact fragments_chars hne (fragment_of_marker hc _) (hparted.congr rfl)

theorem quotedText_ne_nil {es : List Element} (h : Woven ['"'] es) {e : Element} (he : e ∈ es) : e.quotedText ≠ [] := by
  rcases e.eq_literal_or with ⟨t, rfl⟩ | hlit
  · obtain ⟨pre, post, hes⟩ := List.append_of_mem he
    obtain ⟨hne, hlegible, -⟩ := h.literal hes
    have hlen := length_le_chars (doubled t)
    have hpos : 0 < (doubled t).length := List.length_pos_iff.mpr (doubled_ne_nil hne)
    rw [Element.quotedText, show markers t = doubled t from hlegible]
    exact List.length_pos_iff.mp (by omega)
  · obtain ⟨c, t, ht, -⟩ := Element.text_of_not_literal hlit
    simp [Element.quotedText_of_not_literal hlit, ht]

theorem quotedTemplate_repeats {es : List Element}
    (hparts : ∀ e ∈ es, e.isLiteral = false → ∀ r', templatePart inner' (e.text ++ r') = .ok e r')
    (h : QuotedSound es) (r : Text) : quotedTemplate inner' ((Node.template es).text ++ r) = .ok es r := by
  have htext : (Node.template es).text ++ r = '"' :: (es.flatMap Element.quotedText ++ '"' :: r) := by
    simp [Node.text_template, h.text]
  have hmany : Reader.many ((do return Element.literal (← fragments)).or (templatePart inner'))
      (es.flatMap Element.quotedText ++ '"' :: r) = .ok es ('"' :: r) := by
    refine Reader.many_flatMap (fun e he => quotedText_ne_nil h.woven he) (fun pre e post hes => ?_) ?_
    · rcases e.eq_literal_or with ⟨t, rfl⟩ | hlit
      · exact Reader.or_of_ok (Reader.bind_ok (fragments_of_literal h.woven hes) rfl)
      · obtain ⟨c, t, ht, hc⟩ := Element.text_of_not_literal hlit
        have hread := hparts e (by simp [hes]) hlit (post.flatMap Element.quotedText ++ '"' :: r)
        rw [Element.quotedText_of_not_literal hlit]
        refine (Reader.or_of_soft ?_).trans hread
        rw [ht]
        exact Reader.bind_of_soft (Reader.bind_of_soft (fragment_of_marker hc _))
    · refine (Reader.or_of_soft ?_).trans (templatePart_of_head (by simp) (by simp))
      exact Reader.bind_of_soft (Reader.bind_of_soft rfl)
  rw [htext]
  exact Reader.bind_ok (Reader.char_cons _ _) <| Reader.bind_ok hmany <| Reader.bind_ok (Reader.char_cons _ _) rfl

/-- A template with a part that is no literal is not read as a plain string. -/
theorem quotedText_of_template {es : List Element} (h : QuotedSound es) (r : Text) :
    Grammar.quotedText ((Node.template es).text ++ r) = .soft := by
  have htext : (Node.template es).text ++ r = '"' :: (es.flatMap Element.quotedText ++ '"' :: r) := by
    simp [Node.text_template, h.text]
  -- what is read as text is the literal in front of the first marker, or nothing
  have hfirst : ∃ o c t, isMarkerSign c = true ∧
      fragments.optional (es.flatMap Element.quotedText ++ '"' :: r) = .ok o (c :: '{' :: t) := by
    cases es with
    | nil =>
      obtain ⟨e, he, -⟩ := h.mixed
      cases he
    | cons e es =>
      rcases e.eq_literal_or with ⟨t, rfl⟩ | hlit
      · obtain ⟨-, -, -, hnext⟩ := h.woven.literal (List.nil_append _).symm
        rcases flatMap_quoted_eq_marker hnext with rfl | ⟨c, v, w, hc, -, hw⟩
        · obtain ⟨e, he, hfalse⟩ := h.mixed
          rw [List.mem_singleton.mp he] at hfalse
          cases hfalse
        · have hread := fragments_of_literal (r := r) h.woven (List.nil_append _).symm
          rw [hw] at hread
          refine ⟨some t, c, w ++ '"' :: r, hc, Reader.optional_eq_some_iff.mpr ?_⟩
          rw [List.flatMap_cons, List.append_assoc, hw]
          exact hread
      · obtain ⟨c, t, ht, hc⟩ := Element.text_of_not_literal hlit
        refine ⟨none, c, t ++ es.flatMap Element.quotedText ++ '"' :: r, hc, ?_⟩
        rw [List.flatMap_cons, Element.quotedText_of_not_literal hlit, ht]
        exact Reader.optional_eq_none_iff.mpr ⟨Reader.bind_of_soft (fragment_of_marker hc _), rfl⟩
  obtain ⟨o, c, t, hc, hread⟩ := hfirst
  have hquote : (c :: '{' :: t).head? ≠ some '"' := by
    rintro ⟨⟩
    exact absurd hc (by decide)
  rw [htext, Grammar.quotedText, Reader.bind_of_ok (Reader.char_cons ..), Reader.bind_of_ok hread]
  exact Reader.bind_of_soft (Reader.char_of_head hquote)

end Grammar
end BackendSwitch
