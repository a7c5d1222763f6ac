import BackendSwitch.Proofs.Verbatim.Kept

/-! # Templates stand as they are written

A part of a template that is kept stands in the text as it is written, and so does a template as a whole, given readers that
do not go wrong with what is nested in it. -/
namespace BackendSwitch
set_option autoImplicit false

/-! ## Expressions as they stand -/

/-- An expression stands in a text as it is written but for blank text in front of it, and has none behind it. -/
structure Expr.Stands (e : Expr) (s r : Text) : Prop where
  text : s = e.node.text ++ r
  tail : e.decor.tail = []

namespace Expr

variable {e : Expr}

theorem text_ofNode (node : Node) : (ofNode node).text = node.text := by
  rw [text_eq]
  exact List.append_nil _

theorem text_withBefore (h : e.decor.tail = []) (before : Text) : (e.withBefore before).text = before ++ e.node.text := by
  rw [text_eq, show (e.withBefore before).decor.tail = [] from h, List.append_nil]
  rfl

theorem text_withAfter (h : e.decor.tail = []) (after : Text) : (e.withAfter after).text = e.text ++ after := by
  have htail : (e.withAfter after).decor.tail = after := rfl
  rw [text_eq, text_eq e, htail, h]
  simp [withAfter, Decor.lead]

end Expr

namespace Grammar

open Reader (flagText passes_of_ok both_of_ok)

/-- What the readers of a keeper read from places that they keep stands there as it is written. -/
structure Keeper.Sound (k : Keeper) : Prop where
  expression : ∀ ctx s e r, k.expression ctx s = .ok e r → k.expressionKept ctx s = true → e.Stands s r
  template : k.template.Keeps k.templateKept (List.flatMap Element.text)

variable {k : Keeper} {inner : Inner} {s r : Text}

theorem gap_text {newlines : Bool} {a : Text} (h : gap newlines s = .ok a r) : s = a ++ r := by
  obtain ⟨a', r', ha, hs, -⟩ := gap_spec newlines s
  rw [h] at ha
  injection ha with h1 h2
  rw [hs, h1, h2]

theorem blank_text {a : Text} (h : blank s = .ok a r) : s = a ++ r := gap_text (show gap true s = .ok a r from h)

theorem inline_text {a : Text} (h : inline s = .ok a r) : s = a ++ r := (inline_eq_ok h).1

/-- An expression with blank text around it stands in the text as it is written. -/
theorem Keeper.Sound.enclosed (h : k.Sound) {x y : Bool} {ctx : Context} {s1 s2 b a : Text} {e : Expr}
    {behind : Text → Bool} (hb : gap x s = .ok b s1) (he : k.expression ctx s1 = .ok e s2) (ha : gap y s2 = .ok a r)
    (hkept : enclosedKept k x y ctx behind s = true) : s = (e.within b a).text ++ r ∧ behind r = true := by
  rw [enclosedKept, passes_of_ok hb, both_of_ok he, passes_of_ok ha] at hkept
  refine ⟨?_, hkept.2⟩
  rw [gap_text hb, (h.expression ctx s1 e s2 he hkept.1).text, gap_text ha, Expr.within_text]
  simp

/-! ## Markers -/

theorem wordMarker_text {w : Reader Unit} {word : Text} {m : Marker} (hw : ∀ s r, w s = .ok () r → s = word ++ r)
    (h : wordMarker w s = .ok m r) : s = m.written word ++ r := by
  simp only [wordMarker, Reader.bind_iff, Reader.pure_iff, Reader.word_eq_ok_iff, closeMarker_eq_ok_iff] at h
  obtain ⟨_, s1, rfl, strip, s2, hflag, before, s3, hbefore, _, s4, hword, after, s5, hafter, strip', s6, hflag', _, s7,
    rfl, rfl, rfl⟩ := h
  rw [flag_eq_ok hflag, blank_text hbefore, hw s3 s4 hword, blank_text hafter, flag_eq_ok hflag', Marker.written_eq]
  simp

theorem interpolation_keeps (h : k.Sound) : (interpolation k.toInner).Keeps (interpolationKept k) Element.text := by
  intro s el r hread hkept
  simp only [interpolation, Reader.bind_iff, Reader.pure_iff] at hread
  obtain ⟨_, s1, hopen, strip, s2, hflag, b, s3, hb, e, s4, he, a, s5, ha, strip', s6, hflag', _, s7, hclose, rfl, rfl⟩ :=
    hread
  rw [interpolationKept, passes_of_ok hopen, passes_of_ok hflag] at hkept
  obtain ⟨htext, -⟩ := h.enclosed (x := true) (y := true) hb he ha hkept
  rw [Reader.word_eq_ok_iff.mp hopen, flag_eq_ok hflag, htext, flag_eq_ok hflag', closeMarker_eq_ok_iff.mp hclose,
    Element.text_interpolation]
  simp

/-! ## Branches -/

theorem branch_keeps (h : k.Sound) : (branch k.toInner).Keeps (branchKept k) Element.text := by
  intro s el r hread hkept
  simp only [branch, Reader.bind_iff, Reader.pure_iff] at hread
  obtain ⟨_, s1, hopen, strip, s2, hflag, before, s3, hbefore, _, s4, hif, b, s5, hb, test, s6, htest, a, s7, ha, strip',
    s8, hflag', _, s9, hclose, yes, s10, hyes, otherwise, s11, hother, close, s12, hend, rfl, rfl⟩ := hread
  rw [branchKept, passes_of_ok hopen, passes_of_ok hflag, passes_of_ok hbefore, passes_of_ok hif] at hkept
  obtain ⟨htestText, hkept⟩ := h.enclosed (x := true) (y := true) hb htest ha hkept
  rw [passes_of_ok hflag', passes_of_ok hclose, both_of_ok hyes] at hkept
  obtain ⟨hyesKept, hmiddleKept⟩ := hkept
  have hmiddle : s10 = Element.middleText (otherwise.map Prod.fst) ((otherwise.map Prod.snd).getD []) ++ s11 := by
    cases otherwise with
    | none => exact (Reader.optional_eq_none_iff.mp hother).2
    | some p =>
      obtain ⟨middle, no⟩ := p
      simp only [Reader.optional_eq_some_iff, Reader.bind_iff, Reader.pure_iff, Prod.mk.injEq] at hother
      obtain ⟨_, u1, hmiddle, _, u2, hno, ⟨rfl, rfl⟩, rfl⟩ := hother
      rw [passes_of_ok hmiddle] at hmiddleKept
      rw [wordMarker_text (fun _ _ => Reader.word_eq_ok_iff.mp) hmiddle, h.template u1 _ u2 hno hmiddleKept]
      simp [Element.middleText]
  rw [Reader.word_eq_ok_iff.mp hopen, flag_eq_ok hflag, blank_text hbefore, Reader.word_eq_ok_iff.mp hif, htestText,
    flag_eq_ok hflag', closeMarker_eq_ok_iff.mp hclose, h.template s9 yes s10 hyes hyesKept, hmiddle,
    wordMarker_text (fun _ _ hw => (word_iff _ _).mp hw) hend, Element.text_branch]
  simp

/-! ## Loops -/

theorem nameWithin_text {newlines : Bool} {n : Name} (h : nameWithin (gap newlines) s = .ok n r) : s = n.written ++ r := by
  simp only [nameWithin, Reader.bind_iff, Reader.pure_iff, Reader.require_eq_ok_iff] at h
  obtain ⟨before, s1, hbefore, text, s2, htext, after, s3, hafter, rfl, rfl⟩ := h
  rw [gap_text hbefore, (identifier_eq_ok htext).1, gap_text hafter]
  simp [Name.written]

/-- The beginning of a loop stands as it is written, from the word `for` on. -/
theorem loopIntro_keeps (h : k.Sound) (before : Text) :
    (loopIntro k.toInner before).Keeps (loopIntroKept k) ForIntro.head := by
  intro s intro r hread hkept
  simp only [loopIntro, Reader.bind_iff, Reader.pure_iff, Reader.require_eq_ok_iff] at hread
  obtain ⟨_, s1, hfor, first, s2, hfirst, second, s3, hsecond, _, s4, hin, b, s5, hb, e, s6, he, a, s7, ha, rfl, rfl⟩ := hread
  rw [loopIntroKept, passes_of_ok hfor, passes_of_ok hfirst, passes_of_ok hsecond, passes_of_ok hin] at hkept
  obtain ⟨htext, -⟩ := h.enclosed (x := true) (y := true) hb he ha hkept
  have hsecondText : s2 = ForIntro.secondText second ++ s3 := by
    cases second with
    | none => exact (Reader.optional_eq_none_iff.mp hsecond).2
    | some name =>
      simp only [Reader.optional_eq_some_iff, Reader.bind_iff, Reader.char_eq_ok_iff] at hsecond
      obtain ⟨_, u, rfl, hname⟩ := hsecond
      rw [nameWithin_text (show nameWithin (gap true) u = _ from hname)]
      rfl
  rw [Reader.word_eq_ok_iff.mp hfor, nameWithin_text (show nameWithin (gap true) s1 = _ from hfirst), hsecondText,
    Reader.word_eq_ok_iff.mp hin, htext]
  simp [ForIntro.head]

theorem before_of_loopIntro {before : Text} {intro : ForIntro} (h : loopIntro inner before s = .ok intro r) :
    intro.before = before := by
  simp only [loopIntro, Reader.bind_iff, Reader.pure_iff] at h
  obtain ⟨_, _, -, _, _, -, _, _, -, _, _, -, _, _, -, _, _, -, _, _, -, rfl, -⟩ := h
  rfl

theorem loop_keeps (h : k.Sound) : (loop k.toInner).Keeps (loopKept k) Element.text := by
  intro s el r hread hkept
  simp only [loop, Reader.bind_iff, Reader.pure_iff] at hread
  obtain ⟨_, s1, hopen, strip, s2, hflag, before, s3, hbefore, intro, s4, hintro, strip', s5, hflag', _, s6, hclose, body, s7,
    hbody, close, s8, hend, rfl, rfl⟩ := hread
  rw [loopKept, passes_of_ok hopen, passes_of_ok hflag, passes_of_ok hbefore, both_of_ok hintro, passes_of_ok hflag',
    passes_of_ok hclose] at hkept
  obtain ⟨hintroKept, hbodyKept⟩ := hkept
  obtain rfl := before_of_loopIntro hintro
  rw [Reader.word_eq_ok_iff.mp hopen, flag_eq_ok hflag, blank_text hbefore,
    loopIntro_keeps h _ s3 intro s4 hintro hintroKept, flag_eq_ok hflag', closeMarker_eq_ok_iff.mp hclose,
    h.template s6 body s7 hbody hbodyKept, wordMarker_text (fun _ _ hw => (word_iff _ _).mp hw) hend, Element.text_loop,
    ForIntro.text_eq]
  simp

/-! ## Templates -/

theorem templatePart_keeps (h : k.Sound) : (templatePart k.toInner).Keeps (templatePartKept k) Element.text := by
  intro s el r hread hkept
  simp only [templatePartKept, Bool.and_eq_true] at hkept
  obtain ⟨⟨hinterpolation, hbranch⟩, hloop⟩ := hkept
  simp only [templatePart, Reader.or_eq_ok_iff] at hread
  rcases hread with (hread | ⟨-, hread⟩) | ⟨-, hread⟩
  · exact interpolation_keeps h s el r hread hinterpolation
  · exact branch_keeps h s el r hread hbranch
  · exact loop_keeps h s el r hread hloop

theorem rawText_keeps (stop : Text → Bool) : (rawText stop).Keeps (rawTextKept stop) Element.text := by
  intro s el r hread hkept
  rw [rawTextKept, passes_of_ok hread] at hkept
  exact of_decide_eq_true hkept

theorem plainTemplate_keeps (h : k.Sound) (stop : Text → Bool) :
    (plainTemplate k.toInner stop).Keeps (plainTemplateKept k stop) (List.flatMap Element.text) := by
  refine Reader.Keeps.many fun s el r hread hkept => ?_
  obtain ⟨hraw, hpart⟩ := Bool.and_eq_true_iff.mp hkept
  rcases Reader.or_eq_ok_iff.mp hread with hread | ⟨-, hread⟩
  · exact rawText_keeps stop s el r hread hraw
  · exact templatePart_keeps h s el r hread hpart

/-! ## Quoted templates -/

theorem quotedParts_text (h : k.Sound) {n : Nat} {es : List Element} {escaping : Bool}
    (hread : Reader.upTo n (quotedPart k.toInner) s = .ok es r) (hkept : quotedPartsKept k es.length escaping s = true) :
    s = render escaping (templatePieces es) ++ r := by
  induction es generalizing n s escaping with
  | nil => exact (Reader.upTo_eq_nil hread).symm
  | cons el es ih =>
    obtain ⟨m, u, hpart, hmore⟩ := Reader.upTo_eq_cons hread
    rw [List.length_cons, quotedPartsKept, passes_of_ok hpart, Bool.and_eq_true] at hkept
    obtain ⟨hhere, hbehind⟩ := hkept
    have hfirst : s = render escaping el.pieces ++ u := by
      cases hliteral : el.isLiteral with
      | true =>
        rw [if_pos hliteral] at hhere
        exact of_decide_eq_true hhere
      | false =>
        simp only [hliteral, Bool.false_eq_true, if_false, Bool.and_eq_true, decide_eq_true_eq] at hhere
        obtain ⟨hpartKept, halike⟩ := hhere
        rcases Reader.or_eq_ok_iff.mp hpart with hpart | ⟨-, hpart⟩
        · simp only [Reader.bind_iff, Reader.pure_iff] at hpart
          obtain ⟨_, _, -, rfl, -⟩ := hpart
          cases hliteral
        · rw [halike]
          exact templatePart_keeps h s el u hpart hpartKept
    rw [hfirst, ih hmore hbehind, templatePieces, render_append, List.append_assoc]

theorem quotedTemplate_keeps (h : k.Sound) :
    (quotedTemplate k.toInner).Keeps (quotedTemplateKept k) (fun es => (Node.template es).text) := by
  intro s es r hread hkept
  rw [quotedTemplateKept, passes_of_ok hread] at hkept
  simp only [quotedTemplate, Reader.bind_iff, Reader.pure_iff] at hread
  obtain ⟨_, s1, hopen, es, s2, hmany, _, s3, hclose, rfl, rfl⟩ := hread
  rw [passes_of_ok hopen] at hkept
  obtain ⟨n, hup⟩ := Reader.exists_upTo_of_many hmany
  rw [Reader.char_eq_ok_iff.mp hopen, quotedParts_text h hup hkept, Reader.char_eq_ok_iff.mp hclose]
  simp [Node.text_template]

theorem quotedText_keeps : quotedText.Keeps quotedTextKept Escape.quoted := by
  intro s u r hread hkept
  rw [quotedTextKept, passes_of_ok hread] at hkept
  exact of_decide_eq_true hkept

end Grammar

/-! ## Heredocs -/

namespace Escape

variable {x : Char}

theorem markersFrom_concat (hbrace : x ≠ '{') (u : Text) : markersFrom (u ++ [x]) = markersFrom u ++ [x] := by
  fun_induction markersFrom u with
  | case1 => rfl
  | case2 c =>
    simp only [List.cons_append, List.nil_append, markersFrom, hbrace, if_false]
    split <;> rfl
  | case3 c t hc ih => simp [markersFrom, hc, ih]
  | case4 c d t hc hd ih => simp [markersFrom, hc, hd, ih]
  | case5 c d t hc ih =>
    simp only [List.cons_append, markersFrom, hc, Bool.false_eq_true, if_false] at ih ⊢
    rw [ih]

/-- A character that does not open a marker is written as it is behind any text. -/
theorem markers_concat (hbrace : x ≠ '{') (u : Text) : markers (u ++ [x]) = markers u ++ [x] := by
  induction u with
  | nil => simp [markers, opensMarker]
  | cons c u ih =>
    have hopens : opensMarker (c :: (u ++ [x])) = opensMarker (c :: u) := by
      cases u with
      | nil => simp [opensMarker, hbrace]
      | cons d u => by_cases hd : d = '{' <;> simp [opensMarker, hd]
    rw [List.cons_append, markers, markers, hopens, ih]
    split
    · exact markersFrom_concat hbrace (c :: u)
    · rfl

theorem markers_append_of_not_mem {final : Text} (hbrace : '{' ∉ final) (u : Text) :
    markers (u ++ final) = markers u ++ final := by
  induction final generalizing u with
  | nil => simp
  | cons x final ih =>
    obtain ⟨hx, hfinal⟩ : '{' ≠ x ∧ '{' ∉ final := by simpa using hbrace
    rw [List.append_cons, ih hfinal, markers_concat (Ne.symm hx), List.append_assoc]
    rfl

end Escape

namespace Grammar

open Reader (flagText passes_of_ok both_of_ok)

variable {k : Keeper} {s r : Text}

/-- The text of a template with a line end that was added behind it. -/
theorem text_appendLiteral {final : Text} (hbrace : '{' ∉ final) (es : List Element) :
    (appendLiteral final es).flatMap Element.text = es.flatMap Element.text ++ final := by
  fun_induction appendLiteral final es with
  | case1 => simpa [Element.text_literal, Escape.markers] using Escape.markers_append_of_not_mem hbrace []
  | case2 u => simp [Element.text_literal, Escape.markers_append_of_not_mem hbrace]
  | case3 e es _ ih => simp [ih]

theorem newline_text {v : Text} (h : newline s = .ok v r) : s = v ++ r ∧ '{' ∉ v := by
  unfold newline at h
  split at h
  · cases h
    exact ⟨rfl, by decide⟩
  · cases h
    exact ⟨rfl, by decide⟩
  · cases h

theorem eq_of_newlineKept {v : Text} (h : newline s = .ok v r) (hkept : newlineKept s = true) : s = '\n' :: r := by
  rw [newlineKept, passes_of_ok h] at hkept
  obtain rfl : v = ['\n'] := of_decide_eq_true hkept
  exact (newline_text h).1

theorem heredocBody_keeps (h : k.Sound) (d : Text) :
    (heredocBody k.toInner d).Keeps (heredocBodyKept k d) (List.flatMap Element.text) := by
  intro s es r hread hkept
  simp only [heredocBody, Reader.bind_iff, Reader.pure_iff] at hread
  obtain ⟨found, s1, hfound, rfl, rfl⟩ := hread
  cases found with
  | none => exact (Reader.optional_eq_none_iff.mp hfound).2
  | some es =>
    simp only [Reader.optional_eq_some_iff, Reader.bind_iff, Reader.pure_iff] at hfound
    obtain ⟨body, s2, hbody, v, s3, hline, rfl, rfl⟩ := hfound
    rw [heredocBodyKept, passes_of_ok hbody, passes_of_ok hline] at hkept
    obtain ⟨htext, hbrace⟩ := newline_text hline
    rw [plainTemplate_keeps h _ s body s2 hbody hkept, htext, Option.getD_some, text_appendLiteral hbrace, List.append_assoc]

/-- A heredoc stands as it is written if the margin that was taken away from it is put back. -/
theorem heredoc_keeps (h : k.Sound) : (heredoc k.toInner).Keeps (heredocKept k) Node.text := by
  intro s node r hread hkept
  simp only [heredoc, Reader.bind_iff, Reader.pure_iff, Reader.require_eq_ok_iff] at hread
  obtain ⟨_, s1, hopen, indented, s2, hflag, d, s3, hd, v, s4, hline, elements, s5, hbody, tail, s6, htail, _, s7, hclose,
    hnode, rfl⟩ := hread
  rw [heredocKept, passes_of_ok hopen, passes_of_ok hflag, passes_of_ok hd, both_of_ok hline, passes_of_ok hbody,
    Bool.and_eq_true] at hkept
  obtain ⟨hlineKept, hbodyKept, hmargin⟩ := hkept
  have htailText : s5 = tail ++ s6 := by
    unfold Reader.span at htail
    injection htail with h1 h2
    rw [← h1, ← h2, List.takeWhile_append_dropWhile]
  have htext : s = '<' :: '<' :: (flagText '-' indented ++ (d ++ '\n' :: (elements.flatMap Element.text ++
      (tail ++ (d ++ s7))))) := by
    rw [Reader.word_eq_ok_iff.mp hopen, flag_eq_ok hflag, (identifier_eq_ok hd).1, eq_of_newlineKept hline hlineKept,
      heredocBody_keeps h d s4 elements s5 hbody hbodyKept, htailText, Reader.word_eq_ok_iff.mp hclose]
    rfl
  rw [htext]
  cases indented with
  | false =>
    obtain rfl : Node.heredoc d none elements tail = node := hnode
    simp [flagText, Node.text_heredoc]
  | true =>
    replace hmargin : keepsMargin elements = true := by simpa using hmargin
    unfold keepsMargin at hmargin
    cases hmeasure : Indentation.measure? elements with
    | none => simp [hmeasure] at hmargin
    | some n =>
      simp only [hmeasure, decide_eq_true_eq, if_true] at hmargin hnode
      subst hnode
      rw [Node.text_heredoc_indented, hmargin]
      simp [flagText]

end Grammar
end BackendSwitch
