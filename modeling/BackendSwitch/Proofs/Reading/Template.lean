import BackendSwitch.Proofs.Reading.Repeats

/-! # Templates are read again

Interpolations, branches and loops are read again from their texts, given readers that repeat what is nested in them. A
template is then read again one part after another, its literals as text with doubled markers. -/
namespace BackendSwitch.Grammar
set_option autoImplicit false

open Escape
open Reader (flagText)

variable {inner inner' : Inner} {k : Nat}

/-! ## Markers -/

theorem closeMarker_eq_ok_iff {s r : Text} {u : Unit} : closeMarker s = .ok u r ↔ s = '}' :: r := by
  rw [closeMarker, Reader.require_eq_ok_iff, Reader.char_eq_ok_iff]

theorem closeMarker_cons (r : Text) : closeMarker ('}' :: r) = .ok () r := closeMarker_eq_ok_iff.mpr rfl

theorem flag_eq_ok {c : Char} {s r : Text} {b : Bool} (h : Reader.flag c s = .ok b r) : s = flagText c b ++ r := by
  rcases Reader.flag_eq_ok_iff.mp h with ⟨rfl, rfl⟩ | ⟨rfl, rfl, -⟩
  · rfl
  · rfl

/-- The end of a marker, with the sign that strips white space or without it. -/
def markerEnd (strip : Bool) (r : Text) : Text := flagText '~' strip ++ '}' :: r

theorem markerEnd_ne_nil (strip : Bool) (r : Text) : markerEnd strip r ≠ [] := by
  cases strip <;> simp [markerEnd, flagText]

theorem stopper_markerEnd {c strip : Bool} {r : Text} : Stopper c (markerEnd strip r) := by
  cases strip
  · exact stopper_closer rfl
  · exact stopper_closer rfl

theorem blankEnd_markerEnd {strip : Bool} {r : Text} : BlankEnd (markerEnd strip r) :=
  (stopper_markerEnd (c := true)).blankEnd

theorem alike_markerEnd (strip : Bool) (r r' : Text) : Alike (markerEnd strip r) (markerEnd strip r') := by
  cases strip
  · exact alike_cons (by decide) (by decide)
  · exact alike_cons (by decide) (by decide)

theorem flag_markerEnd (strip : Bool) (r : Text) : Reader.flag '~' (markerEnd strip r) = .ok strip ('}' :: r) :=
  Reader.flag_append (by simp)

theorem flag_blank {strip : Bool} {b r : Text} (hb : Blank b) (hr : r.head? ≠ some '~') :
    Reader.flag '~' (flagText '~' strip ++ (b ++ r)) = .ok strip (b ++ r) :=
  Reader.flag_append (head_of_blank hb rfl hr)

theorem wordMarker_eq_ok {w : Reader Unit} {c : Char} {word : Text} (hc : Identifier.startsWith c = true)
    (hw : ∀ s r, w s = .ok () r ↔ s = c :: word ++ r) {s r : Text} {m : Marker} (h : wordMarker w s = .ok m r) :
    Blank m.before ∧ ∀ r', wordMarker w (m.written (c :: word) ++ r') = .ok m r' := by
  simp only [wordMarker, Reader.bind_iff, Reader.pure_iff, Reader.word_eq_ok_iff, closeMarker_eq_ok_iff] at h
  obtain ⟨_, s1, rfl, strip, s2, hflag, before, s3, hbefore, _, s4, hword, after, s5, hafter, strip', s6, hflag', _, s7,
    rfl, rfl, rfl⟩ := h
  obtain rfl := (hw s3 s4).mp hword
  obtain rfl := flag_eq_ok hflag'
  obtain ⟨rfl, hafter, -⟩ := blank_eq_ok hafter (markerEnd_ne_nil strip' s7)
  obtain ⟨rfl, hbefore, -⟩ := blank_eq_ok hbefore (by simp)
  refine ⟨hbefore, fun r' => ?_⟩
  have htext : (Marker.mk ⟨strip, strip'⟩ before after).written (c :: word) ++ r' =
      ['%', '{'] ++ (flagText '~' strip ++ (before ++ (c :: word ++ (after ++ markerEnd strip' r')))) := by
    simp [Marker.written_eq, markerEnd]
  have hhead : (c :: word ++ (after ++ markerEnd strip' r')).head? ≠ some '~' := by
    intro e
    cases e
    exact absurd hc (by decide)
  rw [htext]
  exact Reader.bind_ok (Reader.word_append _ _) <| Reader.bind_ok (flag_blank hbefore hhead) <|
    Reader.bind_ok (blank_append hbefore (blankEnd_cons (isSolid_of_startsWith hc))) <|
    Reader.bind_ok ((hw _ _).mpr rfl) <| Reader.bind_ok (blank_append hafter blankEnd_markerEnd) <|
    Reader.bind_ok (flag_markerEnd strip' r') <| Reader.bind_ok (closeMarker_cons r') rfl

theorem templateEnd_written {m : Marker} (h : Blank m.before) (word r : Text) :
    TemplateEnd (m.written ('e' :: word) ++ r) :=
  ⟨m.strip.before, m.before, word ++ (m.after ++ (flagText '~' m.strip.after ++ '}' :: r)),
    by simp [Marker.written_eq], h⟩

theorem wordMarker_of_other {w : Reader Unit} {strip : Bool} {before r : Text} (hb : Blank before) (hr : BlankEnd r)
    (hhead : r.head? ≠ some '~') (hw : w r = .soft) :
    wordMarker w ('%' :: '{' :: (flagText '~' strip ++ (before ++ r))) = .soft := by
  have hword : Reader.word ['%', '{'] ('%' :: '{' :: (flagText '~' strip ++ (before ++ r))) =
      .ok () (flagText '~' strip ++ (before ++ r)) := Reader.word_append ['%', '{'] _
  rw [wordMarker, Reader.bind_of_ok hword, Reader.bind_of_ok (flag_blank hb hhead),
    Reader.bind_of_ok (blank_append hb hr), Reader.bind_of_soft hw]

/-! ## Interpolations -/

theorem interpolation_repeats (h : inner.Repeats inner' k) {s r : Text} {el : Element}
    (hs : interpolation inner s = .ok el r) (hsound : el.Sound) (hk : el.text.length ≤ k) :
    el.isLiteral = false ∧ ∀ r', interpolation inner' (el.text ++ r') = .ok el r' := by
  simp only [interpolation, Reader.bind_iff, Reader.pure_iff, Reader.word_eq_ok_iff, closeMarker_eq_ok_iff] at hs
  obtain ⟨_, s1, rfl, strip, s2, -, b, s3, hb, e, s4, he, a, s5, ha, strip', s6, hflag, _, s7, rfl, rfl, rfl⟩ := hs
  obtain rfl := flag_eq_ok hflag
  have sound : e.node.Sound := Expr.sound_of_within (b := b) (a := a) hsound
  have hlen : e.node.text.length < k := by
    simp only [Element.text_interpolation, Expr.within_text, List.length_cons, List.length_append] at hk
    omega
  obtain ⟨hstart, hblank, -, hagain⟩ := h.enclosed true true hb he ha (markerEnd_ne_nil strip' s7) sound hlen
  refine ⟨rfl, fun r' => ?_⟩
  obtain ⟨hb', he', ha'⟩ := hagain (markerEnd strip' r') stopper_markerEnd (alike_markerEnd _ _ _)
  have htext : (Element.interpolation ⟨strip, strip'⟩ (e.within b a)).text ++ r' =
      ['$', '{'] ++ (flagText '~' strip ++ (b ++ (e.node.text ++ (a ++ markerEnd strip' r')))) := by
    simp [Element.text_interpolation, Expr.within_text, markerEnd]
  rw [htext]
  exact Reader.bind_ok (Reader.word_append _ _) <|
    Reader.bind_ok (flag_blank hblank ((hstart.append _).head rfl)) <| Reader.bind_ok hb' <| Reader.bind_ok he' <|
    Reader.bind_ok ha' <| Reader.bind_ok (flag_markerEnd strip' r') <| Reader.bind_ok (closeMarker_cons r') rfl

/-! ## Branches -/

theorem word_iff {w : Text} {c : Complaint} : ∀ s r, (Reader.word w).require c s = .ok () r ↔ s = w ++ r := by
  intro s r
  rw [Reader.require_eq_ok_iff, Reader.word_eq_ok_iff]

/-- What stands between the first half of a branch and its end is read again, and the first half ends in front of it. -/
theorem otherwise_repeats (h : inner.Repeats inner' k) {s u : Text} {otherwise : Option (Marker × List Element)}
    {close : Marker} (hs : (Reader.optional do
      let middle ← wordMarker (Reader.word ['e', 'l', 's', 'e'])
      let no ← inner.template
      return (middle, no)) s = .ok otherwise u)
    (sound : ElementsSound ((otherwise.map Prod.snd).getD []))
    (hwoven : Woven ['%', '{'] ((otherwise.map Prod.snd).getD []))
    (hk : (Element.middleText (otherwise.map Prod.fst) ((otherwise.map Prod.snd).getD [])).length < k)
    (hclose : Blank close.before) (r' : Text) :
    TemplateEnd (Element.middleText (otherwise.map Prod.fst) ((otherwise.map Prod.snd).getD []) ++
        (close.written ['e', 'n', 'd', 'i', 'f'] ++ r')) ∧
      (Reader.optional do
        let middle ← wordMarker (Reader.word ['e', 'l', 's', 'e'])
        let no ← inner'.template
        return (middle, no))
        (Element.middleText (otherwise.map Prod.fst) ((otherwise.map Prod.snd).getD []) ++
          (close.written ['e', 'n', 'd', 'i', 'f'] ++ r')) =
        .ok otherwise (close.written ['e', 'n', 'd', 'i', 'f'] ++ r') := by
  have hend := templateEnd_written hclose ['n', 'd', 'i', 'f'] r'
  cases otherwise with
  | none =>
    refine ⟨hend, Reader.optional_eq_none_iff.mpr ⟨Reader.bind_of_soft ?_, rfl⟩⟩
    rw [Marker.written_eq]
    simp only [Element.middleText, Option.map_none, List.nil_append, List.cons_append, List.append_assoc]
    exact wordMarker_of_other hclose (blankEnd_cons rfl) (by simp) rfl
  | some p =>
    obtain ⟨middle, no⟩ := p
    simp only [Reader.optional_eq_some_iff, Reader.bind_iff, Reader.pure_iff, Prod.mk.injEq] at hs
    obtain ⟨_, t1, hmiddle, _, t2, hno, ⟨rfl, rfl⟩, rfl⟩ := hs
    obtain ⟨hmiddleBlank, hmiddle'⟩ := wordMarker_eq_ok (by decide) (fun _ _ => Reader.word_eq_ok_iff) hmiddle
    simp only [Element.middleText, Option.map_some, Option.getD_some, List.length_append] at hk sound hwoven
    simp only [Element.middleText, Option.map_some, Option.getD_some, List.append_assoc]
    have hno' := h.template _ _ _ hno sound hwoven (by omega) _ hend
    refine ⟨templateEnd_written hmiddleBlank _ _, Reader.optional_eq_some_iff.mpr ?_⟩
    rw [Reader.bind_of_ok (hmiddle' _), Reader.bind_of_ok hno']
    rfl

theorem branch_repeats (h : inner.Repeats inner' k) {s r : Text} {el : Element}
    (hs : branch inner s = .ok el r) (sound : el.Sound) (hk : el.text.length ≤ k) :
    el.isLiteral = false ∧ ∀ r', branch inner' (el.text ++ r') = .ok el r' := by
  simp only [branch, Reader.bind_iff, Reader.pure_iff, Reader.word_eq_ok_iff, closeMarker_eq_ok_iff] at hs
  obtain ⟨_, s1, rfl, strip, s2, -, before, s3, hbefore, _, s4, rfl, b, s5, hb, test, s6, htest, a, s7, ha, strip', s8,
    hflag, _, s9, rfl, yes, s10, hyes, otherwise, s11, hother, close, s12, hclose, rfl, rfl⟩ := hs
  obtain rfl := flag_eq_ok hflag
  obtain ⟨hsound, ⟨hyesSound, hyesWoven⟩, hnoSound, hnoWoven⟩ := sound
  obtain ⟨-, hbefore, -⟩ := blank_eq_ok hbefore (by simp)
  simp only [Element.text_branch, Expr.within_text, List.length_cons, List.length_append] at hk
  obtain ⟨-, -, -, hagain⟩ := h.enclosed true true hb htest ha (markerEnd_ne_nil strip' s9)
    (Expr.sound_of_within (b := b) (a := a) hsound) (by omega)
  obtain ⟨hcloseBlank, hclose'⟩ := wordMarker_eq_ok (by decide) word_iff hclose
  refine ⟨rfl, fun r' => ?_⟩
  obtain ⟨hyesEnd, hother'⟩ := otherwise_repeats h hother hnoSound hnoWoven (by omega) hcloseBlank r'
  obtain ⟨hb', htest', ha'⟩ := hagain (markerEnd strip' (yes.flatMap Element.text ++
    (Element.middleText (otherwise.map Prod.fst) ((otherwise.map Prod.snd).getD []) ++
      (close.written ['e', 'n', 'd', 'i', 'f'] ++ r')))) stopper_markerEnd (alike_markerEnd _ _ _)
  have hyes' := h.template _ _ _ hyes hyesSound hyesWoven (by omega) _ hyesEnd
  have htext : (Element.branch ⟨strip, strip'⟩ before (test.within b a) yes (otherwise.map Prod.fst)
        ((otherwise.map Prod.snd).getD []) close).text ++ r' =
      ['%', '{'] ++ (flagText '~' strip ++ (before ++ (['i', 'f'] ++ (b ++ (test.node.text ++ (a ++
        markerEnd strip' (yes.flatMap Element.text ++
          (Element.middleText (otherwise.map Prod.fst) ((otherwise.map Prod.snd).getD []) ++
            (close.written ['e', 'n', 'd', 'i', 'f'] ++ r'))))))))) := by
    simp [Element.text_branch, Expr.within_text, markerEnd]
  rw [htext]
  exact Reader.bind_ok (Reader.word_append _ _) <| Reader.bind_ok (flag_blank hbefore (by simp)) <|
    Reader.bind_ok (blank_append hbefore (blankEnd_cons rfl)) <| Reader.bind_ok (Reader.word_append _ _) <|
    Reader.bind_ok hb' <| Reader.bind_ok htest' <| Reader.bind_ok ha' <| Reader.bind_ok (flag_markerEnd _ _) <|
    Reader.bind_ok (closeMarker_cons _) <| Reader.bind_ok hyes' <| Reader.bind_ok hother' <|
    Reader.bind_ok (hclose' r') rfl

/-! ## Loops -/

theorem loopNames_repeats {s1 s2 t : Text} {first : Name} {second : Option Name}
    (hfirst : nameWithin blank s1 = .ok first s2)
    (hsecond : (Reader.optional do
      Reader.char ','
      nameWithin blank) s2 = .ok second ('i' :: 'n' :: t)) (t' : Text) :
    nameWithin blank (first.written ++ (ForIntro.secondText second ++ ('i' :: 'n' :: t'))) =
        .ok first (ForIntro.secondText second ++ ('i' :: 'n' :: t')) ∧
      (Reader.optional do
        Reader.char ','
        nameWithin blank) (ForIntro.secondText second ++ ('i' :: 'n' :: t')) = .ok second ('i' :: 'n' :: t') := by
  have hin : Alike ('i' :: 'n' :: t) ('i' :: 'n' :: t') := alike_cons (by decide) (by decide)
  cases second with
  | none =>
    obtain ⟨-, rfl⟩ := Reader.optional_eq_none_iff.mp hsecond
    obtain ⟨-, -, -, hfirst'⟩ := nameWithin_eq_ok (show nameWithin (gap true) _ = _ from hfirst) (by simp)
    have hcomma : ('i' :: 'n' :: t').head? ≠ some ',' := by simp
    exact ⟨hfirst' _ hin (blankEnd_cons rfl),
      Reader.optional_eq_none_iff.mpr ⟨Reader.bind_of_soft (Reader.char_of_head hcomma), rfl⟩⟩
  | some name =>
    simp only [Reader.optional_eq_some_iff, Reader.bind_iff, Reader.char_eq_ok_iff] at hsecond
    obtain ⟨_, u, rfl, hname⟩ := hsecond
    obtain ⟨-, -, -, hfirst'⟩ := nameWithin_eq_ok (show nameWithin (gap true) _ = _ from hfirst) (by simp)
    obtain ⟨-, -, -, hname'⟩ := nameWithin_eq_ok (show nameWithin (gap true) _ = _ from hname) (by simp)
    refine ⟨hfirst' _ (alike_cons (by decide) (by decide)) (blankEnd_cons rfl), Reader.optional_eq_some_iff.mpr ?_⟩
    exact Reader.bind_ok (Reader.char_cons _ _) (hname' _ hin (blankEnd_cons rfl))

/-- The beginning of a loop, from the word `for` on, is read again in front of anything that ends an expression. -/
theorem loopIntro_repeats (h : inner.Repeats inner' k) {before s u : Text} {intro : ForIntro}
    (hs : loopIntro inner before s = .ok intro u) (hu : u ≠ []) (sound : intro.Sound) (hk : intro.head.length ≤ k) :
    intro.before = before ∧ (∃ t, s = 'f' :: t) ∧ (∀ x, opensLoop (intro.head ++ x) = opensLoop s) ∧
      ∀ u', Stopper true u' → Alike u u' → loopIntro inner' before (intro.head ++ u') = .ok intro u' := by
  simp only [loopIntro, Reader.bind_iff, Reader.pure_iff, Reader.word_eq_ok_iff, Reader.require_eq_ok_iff] at hs
  obtain ⟨_, s1, rfl, first, s2, hfirst, second, s3, hsecond, _, s4, rfl, b, s5, hb, e, s6, he, a, s7, ha, rfl, rfl⟩ := hs
  have hlen : e.node.text.length < k := by
    simp only [ForIntro.head, Expr.within_text, List.length_cons, List.length_append] at hk
    omega
  obtain ⟨-, -, -, hagain⟩ := h.enclosed true true hb he ha hu (Expr.sound_of_within (b := b) (a := a) sound) hlen
  refine ⟨rfl, ⟨_, rfl⟩, fun x => ?_, fun u' hstop halike => ?_⟩
  · -- the character behind `for` is the first one of what is written for the name
    have hs2 : s2 ≠ [] := by
      rintro rfl
      cases second with
      | none => cases (Reader.optional_eq_none_iff.mp hsecond).2
      | some name =>
        rw [Reader.optional_eq_some_iff] at hsecond
        cases hsecond
    obtain ⟨rfl, hident, -, -⟩ := nameWithin_eq_ok (show nameWithin (gap true) _ = _ from hfirst) hs2
    obtain ⟨c, v, hv⟩ := List.exists_cons_of_ne_nil hident.written_ne_nil
    simp only [ForIntro.head, hv]
    rfl
  · obtain ⟨hb', he', ha'⟩ := hagain u' hstop halike
    obtain ⟨hfirst', hsecond'⟩ := loopNames_repeats hfirst hsecond (b ++ (e.node.text ++ (a ++ u')))
    have htext : (ForIntro.mk before first second (e.within b a)).head ++ u' =
        ['f', 'o', 'r'] ++ (first.written ++ (ForIntro.secondText second ++
          ('i' :: 'n' :: (b ++ (e.node.text ++ (a ++ u')))))) := by
      simp [ForIntro.head, Expr.within_text]
    rw [htext]
    exact Reader.bind_ok (Reader.word_append _ _) <| Reader.bind_ok hfirst' <| Reader.bind_ok hsecond' <|
      Reader.bind_ok (word_iff _ _ |>.mpr rfl) <| Reader.bind_ok hb' <| Reader.bind_ok he' <| Reader.bind_ok ha' rfl

theorem loop_repeats (h : inner.Repeats inner' k) {s r : Text} {el : Element}
    (hs : loop inner s = .ok el r) (hsound : el.Sound) (hk : el.text.length ≤ k) :
    el.isLiteral = false ∧ ∃ strip before t, el.text = '%' :: '{' :: (flagText '~' strip ++ (before ++ 'f' :: t)) ∧
      Blank before ∧ ∀ r', loop inner' (el.text ++ r') = .ok el r' := by
  simp only [loop, Reader.bind_iff, Reader.pure_iff, Reader.word_eq_ok_iff, closeMarker_eq_ok_iff] at hs
  obtain ⟨_, s1, rfl, strip, s2, -, before, s3, hbefore, intro, s4, hintro, strip', s5, hflag, _, s6, rfl, body, s7, hbody,
    close, s8, hclose, rfl, rfl⟩ := hs
  obtain rfl := flag_eq_ok hflag
  obtain ⟨hintroSound, hbodySound, hbodyWoven⟩ := hsound
  simp only [Element.text_loop, ForIntro.text_eq, List.length_cons, List.length_append] at hk
  obtain ⟨rfl, ⟨t, rfl⟩, -, hintro'⟩ := loopIntro_repeats h hintro (markerEnd_ne_nil strip' s6) hintroSound (by omega)
  obtain ⟨-, hbefore, -⟩ := blank_eq_ok hbefore (by simp)
  obtain ⟨hcloseBlank, hclose'⟩ := wordMarker_eq_ok (by decide) word_iff hclose
  obtain ⟨v, hv⟩ := intro.head_eq_cons
  refine ⟨rfl, strip, intro.before, v ++ (flagText '~' strip' ++ '}' :: (body.flatMap Element.text ++
    close.written ['e', 'n', 'd', 'f', 'o', 'r'])), ?_, hbefore, fun r' => ?_⟩
  · simp [Element.text_loop, ForIntro.text_eq, hv]
  have hbody' := h.template _ _ _ hbody hbodySound hbodyWoven (by omega) _
    (templateEnd_written hcloseBlank ['n', 'd', 'f', 'o', 'r'] r')
  have hread := hintro' (markerEnd strip' (body.flatMap Element.text ++
    (close.written ['e', 'n', 'd', 'f', 'o', 'r'] ++ r'))) stopper_markerEnd (alike_markerEnd _ _ _)
  have htext : (Element.loop ⟨strip, strip'⟩ intro body close).text ++ r' =
      ['%', '{'] ++ (flagText '~' strip ++ (intro.before ++ (intro.head ++ markerEnd strip' (body.flatMap Element.text ++
        (close.written ['e', 'n', 'd', 'f', 'o', 'r'] ++ r'))))) := by
    simp [Element.text_loop, ForIntro.text_eq, markerEnd]
  rw [htext]
  exact Reader.bind_ok (Reader.word_append _ _) <| Reader.bind_ok (flag_blank hbefore (by simp [hv])) <|
    Reader.bind_ok (blank_append hbefore (by rw [hv]; exact blankEnd_cons rfl)) <| Reader.bind_ok hread <|
    Reader.bind_ok (flag_markerEnd _ _) <| Reader.bind_ok (closeMarker_cons _) <| Reader.bind_ok hbody' <|
    Reader.bind_ok (hclose' r') rfl

/-! ## Parts -/

/-- A marker with a word that begins no branch is not read as one. -/
theorem branch_eq_soft {strip : Bool} {before : Text} {c : Char} {t : Text} (hb : Blank before)
    (hc : Identifier.startsWith c = true) (hi : c ≠ 'i') :
    branch inner ('%' :: '{' :: (flagText '~' strip ++ (before ++ c :: t))) = .soft := by
  have hword : Reader.word ['%', '{'] ('%' :: '{' :: (flagText '~' strip ++ (before ++ c :: t))) =
      .ok () (flagText '~' strip ++ (before ++ c :: t)) := Reader.word_append ['%', '{'] _
  have hhead : (c :: t).head? ≠ some '~' := by
    rintro ⟨⟩
    exact absurd hc (by decide)
  rw [branch, Reader.bind_of_ok hword, Reader.bind_of_ok (flag_blank hb hhead),
    Reader.bind_of_ok (blank_append hb (blankEnd_cons (isSolid_of_startsWith hc)))]
  exact Reader.bind_of_soft (Reader.word_eq_soft_of_head (by simpa using hi))

theorem templatePart_of_templateEnd {r : Text} (h : TemplateEnd r) : templatePart inner r = .soft := by
  obtain ⟨strip, before, t, rfl, hb⟩ := h
  have hinterpolation : interpolation inner ('%' :: '{' :: (flagText '~' strip ++ (before ++ 'e' :: t))) = .soft :=
    Reader.bind_of_soft (Reader.word_eq_soft_of_head (by simp))
  have hword : Reader.word ['%', '{'] ('%' :: '{' :: (flagText '~' strip ++ (before ++ 'e' :: t))) =
      .ok () (flagText '~' strip ++ (before ++ 'e' :: t)) := Reader.word_append ['%', '{'] _
  rw [templatePart, Reader.or_of_soft, loop, Reader.bind_of_ok hword, Reader.bind_of_ok (flag_blank hb (by simp)),
    Reader.bind_of_ok (blank_append hb (blankEnd_cons rfl))]
  · exact Reader.bind_of_soft (Reader.bind_of_soft (Reader.word_eq_soft_of_head (by simp)))
  · rw [Reader.or_of_soft hinterpolation]
    exact branch_eq_soft hb (by decide) (by decide)

theorem templatePart_of_head {r : Text} (hdollar : r.head? ≠ some '$') (hpercent : r.head? ≠ some '%') :
    templatePart inner r = .soft := by
  have hinterpolation : interpolation inner r = .soft := Reader.bind_of_soft (Reader.word_eq_soft_of_head hdollar)
  have hbranch : branch inner r = .soft := Reader.bind_of_soft (Reader.word_eq_soft_of_head hpercent)
  rw [templatePart, Reader.or_of_soft]
  · exact Reader.bind_of_soft (Reader.word_eq_soft_of_head hpercent)
  · rw [Reader.or_of_soft hinterpolation, hbranch]

/-- A part of a template that is no literal is read again wherever it stands. -/
theorem templatePart_repeats (h : inner.Repeats inner' k) {s r : Text} {el : Element}
    (hs : templatePart inner s = .ok el r) (sound : el.Sound) (hk : el.text.length ≤ k) :
    el.isLiteral = false ∧ ∀ r', templatePart inner' (el.text ++ r') = .ok el r' := by
  simp only [templatePart, Reader.or_eq_ok_iff] at hs
  rcases hs with (hs | ⟨-, hs⟩) | ⟨-, hs⟩
  · obtain ⟨hliteral, hagain⟩ := interpolation_repeats h hs sound hk
    exact ⟨hliteral, fun r' => Reader.or_of_ok (Reader.or_of_ok (hagain r'))⟩
  · obtain ⟨hliteral, hagain⟩ := branch_repeats h hs sound hk
    refine ⟨hliteral, fun r' => Reader.or_of_ok ?_⟩
    have hread := hagain r'
    have hhead : (el.text ++ r').head? ≠ some '$' := by
      have hspec := hread
      simp only [branch, Reader.bind_iff, Reader.word_eq_ok_iff] at hspec
      obtain ⟨_, t, ht, -⟩ := hspec
      rw [ht]
      simp
    have hinterpolation : interpolation inner' (el.text ++ r') = .soft :=
      Reader.bind_of_soft (Reader.word_eq_soft_of_head hhead)
    rw [Reader.or_of_soft hinterpolation, hread]
  · obtain ⟨hliteral, strip, before, t, htext, hblank, hagain⟩ := loop_repeats h hs sound hk
    refine ⟨hliteral, fun r' => ?_⟩
    have hwhole : el.text ++ r' = '%' :: '{' :: (flagText '~' strip ++ (before ++ 'f' :: (t ++ r'))) := by
      rw [htext]
      simp
    have hinterpolation : interpolation inner' (el.text ++ r') = .soft :=
      Reader.bind_of_soft (Reader.word_eq_soft_of_head (by rw [hwhole]; simp))
    have hbranch : branch inner' (el.text ++ r') = .soft := by
      rw [hwhole]
      exact branch_eq_soft hblank (by decide) (by decide)
    have hboth : ((interpolation inner').or (branch inner')) (el.text ++ r') = .soft := by
      rw [Reader.or_of_soft hinterpolation, hbranch]
    rw [templatePart, Reader.or_of_soft hboth, hagain r']

end BackendSwitch.Grammar
