import BackendSwitch.Proofs.Verbatim.Term

/-! # Expressions stand as they are written

An expression that is kept stands in the text as it is written, however deep it is nested: if the readers of one level do
not go wrong with what they keep, neither do those of the next. -/
namespace BackendSwitch.Grammar
set_option autoImplicit false

open Reader (passes_of_ok both_of_ok)

variable {k : Keeper} {ctx : Context} {s r : Text}

/-! ## Steps -/

theorem dotStep_text {st : Step} (h : dotStep s = .ok st r) : s = st.text ++ r := by
  simp only [dotStep, Reader.bind_iff, Reader.char_eq_ok_iff, Reader.peek_eq_ok_iff] at h
  obtain ⟨_, s1, rfl, before, s2, hbefore, c, s3, ⟨-, rfl⟩, h⟩ := h
  rw [blank_text hbefore]
  split at h
  · simp only [Reader.bind_iff, Reader.pure_iff, Reader.char_eq_ok_iff] at h
    obtain ⟨_, s3, rfl, rfl, rfl⟩ := h
    simp [Step.text_splat]
  split at h
  · simp only [Reader.bind_iff, Reader.pure_iff] at h
    obtain ⟨ds, s3, hds, rfl, rfl⟩ := h
    rw [(position_eq_ok hds).1, Step.text_position]
    simp
  split at h
  · simp only [Reader.bind_iff, Reader.pure_iff] at h
    obtain ⟨name, s3, hname, rfl, rfl⟩ := h
    rw [(identifier_eq_ok hname).1, Step.text_field]
    simp
  · cases h

theorem bracketStep_keeps (h : k.Sound) : (bracketStep k.toInner).Keeps (bracketStepKept k) Step.text := by
  intro s st r hread hkept
  simp only [bracketStep, Reader.bind_iff, Reader.pure_iff, Reader.require_eq_ok_iff] at hread
  obtain ⟨_, s1, hopen, before, s2, hbefore, st, s3, hst, _, s4, hclose, rfl, rfl⟩ := hread
  rw [bracketStepKept, passes_of_ok hopen, passes_of_ok hbefore] at hkept
  rw [Reader.char_eq_ok_iff.mp hopen, blank_text hbefore]
  rcases Reader.or_eq_ok_iff.mp hst with hst | ⟨-, hst⟩
  · simp only [fullSplat, Reader.bind_iff, Reader.pure_iff, Reader.char_eq_ok_iff] at hst
    obtain ⟨_, s5, rfl, after, s6, hafter, rfl, rfl⟩ := hst
    rw [blank_text hafter, Reader.char_eq_ok_iff.mp hclose]
    simp [Step.text_fullSplat]
  · simp only [index, Reader.bind_iff, Reader.pure_iff] at hst
    obtain ⟨e, s5, he, after, s6, hafter, rfl, rfl⟩ := hst
    rw [(h.expression _ s2 e s5 he hkept).text, blank_text hafter, Reader.char_eq_ok_iff.mp hclose]
    simp [Step.text_index, Expr.within_text]

theorem step_keeps (h : k.Sound) (newlines : Bool) : (step k.toInner newlines).Keeps (stepKept k newlines) Step.text := by
  intro s st r hread hkept
  simp only [step, Reader.bind_iff, Reader.absent_eq_ok_iff] at hread
  obtain ⟨before, s1, hbefore, _, s2, ⟨-, rfl⟩, hst⟩ := hread
  rw [stepKept, passes_of_ok hbefore, Bool.and_eq_true, decide_eq_true_eq] at hkept
  obtain ⟨rfl, hbracket⟩ := hkept
  rw [gap_text hbefore, List.nil_append]
  rcases Reader.or_eq_ok_iff.mp hst with hst | ⟨-, hst⟩
  · exact dotStep_text hst
  · exact bracketStep_keeps h s1 st r hst hbracket

theorem steps_keeps (h : k.Sound) (newlines : Bool) :
    (steps k.toInner newlines).Keeps (stepsKept k newlines) (List.flatMap Step.text) := by
  intro s sts r hread hkept
  simp only [steps, Reader.bind_iff, Reader.pure_iff] at hread
  obtain ⟨first, s1, hfirst, more, s2, hmore, rfl, rfl⟩ := hread
  obtain ⟨hfirstKept, hmoreKept⟩ := (both_of_ok hfirst).mp hkept
  have hmoreText := (step_keeps h newlines).many s1 more _ hmore hmoreKept
  rw [step_keeps h newlines s first s1 hfirst hfirstKept, List.flatMap_cons, List.append_assoc, ← hmoreText]

/-! ## What follows a term -/

theorem rightSide_keeps (h : k.Sound) {e : Expr} (hread : rightSide k.toInner ctx s = .ok e r)
    (hkept : rightSideKept k ctx s = true) : s = e.text ++ r ∧ e.decor.tail = [] := by
  simp only [rightSide, Reader.bind_iff, Reader.pure_iff] at hread
  obtain ⟨before, s1, hbefore, e, s2, he, rfl, rfl⟩ := hread
  rw [rightSideKept, passes_of_ok hbefore] at hkept
  have hstands := h.expression ctx s1 e _ he hkept
  refine ⟨?_, hstands.tail⟩
  rw [gap_text hbefore, Expr.text_withBefore hstands.tail, hstands.text, List.append_assoc]

theorem conditional_keeps (h : k.Sound) {test e : Expr} (hread : conditional k.toInner ctx test s = .ok e r)
    (hkept : conditionalKept k ctx s = true) : e.Stands (test.text ++ s) r := by
  simp only [conditional, Reader.bind_iff, Reader.pure_iff, Reader.require_eq_ok_iff] at hread
  obtain ⟨_, s1, hsign, yes, s2, hyes, after, s3, hafter, _, s4, hcolon, no, s5, hno, rfl, rfl⟩ := hread
  rw [conditionalKept, passes_of_ok hsign, both_of_ok hyes, passes_of_ok hafter, passes_of_ok hcolon] at hkept
  obtain ⟨hyesText, htail⟩ := rightSide_keeps h hyes hkept.1
  obtain ⟨hnoText, -⟩ := rightSide_keeps h hno hkept.2
  refine ⟨?_, rfl⟩
  rw [Reader.char_eq_ok_iff.mp hsign, hyesText, gap_text hafter, Reader.char_eq_ok_iff.mp hcolon, hnoText]
  simp [Expr.ofNode, Node.text_conditional, Expr.text_withAfter htail]

theorem goesOn_of_gap {conditionals newlines : Bool} {after : Text} (h : gap newlines s = .ok after r) :
    goesOn conditionals newlines s = (continuation? conditionals r).isSome := by
  rw [goesOn, passes_of_ok h]

/-- What an expression goes on from stands as it is written with the blank text in front of it where the expression goes on,
and without it where it ends. From behind the first extension on there is no such blank text. -/
theorem extend_keeps (h : k.Sound) {c : Bool} {n : Nat} {e e' : Expr} {s0 : Text} (htail : e.decor.tail = [])
    (hends : n = 0 ∨ goesOn c ctx.newlines s = false → s0 = e.node.text ++ s)
    (hgoes : goesOn c ctx.newlines s = true → s0 = e.text ++ s) (hread : extend k.toInner c n ctx e s = .ok e' r)
    (hkept : extendKept k c n ctx s = true) : e'.Stands s0 r := by
  induction n generalizing ctx e s with
  | zero =>
    obtain ⟨rfl, rfl⟩ := Reader.pure_iff.mp hread
    exact ⟨hends (.inl rfl), htail⟩
  | succ n ih =>
    obtain ⟨after, u, hgap, hs, -⟩ := gap_spec ctx.newlines s
    rw [extend_of_gap hgap] at hread
    rw [extendKept, passes_of_ok hgap] at hkept
    rw [goesOn_of_gap hgap] at hends hgoes
    cases hcont : continuation? c u with
    | none =>
      rw [hcont] at hread hends
      cases hread
      exact ⟨hends (.inr rfl), htail⟩
    | some way =>
      have htext : s0 = (e.withAfter after).text ++ u := by
        rw [hgoes (by rw [hcont]; rfl), hs, Expr.text_withAfter htail, List.append_assoc]
      rw [hcont] at hread hkept
      cases way with
      | traversal =>
        obtain ⟨more, v, hmore, hread⟩ := Reader.bind_eq_ok_iff.mp hread
        obtain ⟨hmoreKept, hbehind⟩ := (both_of_ok hmore).mp hkept
        have hnew : s0 = (Node.traversal (e.withAfter after) more).text ++ v := by
          rw [htext, steps_keeps h _ u more v hmore hmoreKept, Node.text_traversal, List.append_assoc]
        exact ih rfl (fun _ => hnew) (fun _ => by rwa [Expr.text_ofNode]) hread hbehind
      | conditional => exact htext ▸ conditional_keeps h hread hkept
      | operator =>
        obtain ⟨op, v, hop, hread⟩ := Reader.bind_eq_ok_iff.mp hread
        obtain ⟨right, w, hright, hread⟩ := Reader.bind_eq_ok_iff.mp hread
        rw [passes_of_ok hop, both_of_ok hright] at hkept
        have hnew : s0 = (Node.binary (e.withAfter after) op right).text ++ w := by
          rw [htext, operator_eq_ok hop, (rightSide_keeps h hright hkept.1).1, Node.text_binary]
          simp
        exact ih rfl (fun _ => hnew) (fun _ => by rwa [Expr.text_ofNode]) hread hkept.2

/-! ## Levels -/

theorem expressionFrom_keeps (h : k.Sound) {e : Expr} (hread : expressionFrom k.toInner ctx s = .ok e r)
    (hkept : expressionFromKept k ctx s = true) : e.Stands s r := by
  obtain ⟨⟨e0, newlines⟩, s2, hterm, hextend⟩ := Reader.bind_eq_ok_iff.mp hread
  simp only [term, Reader.bind_iff, Reader.pure_iff, Prod.mk.injEq] at hterm
  obtain ⟨signs, s1, hsigns, ⟨e1, newlines⟩, s2, he, ⟨rfl, rfl⟩, rfl⟩ := hterm
  rw [expressionFromKept, passes_of_ok hsigns, passes_of_ok he, Bool.and_eq_true, Bool.and_eq_true] at hkept
  obtain ⟨hoperand, hsignsKept, hextendKept⟩ := hkept
  have hstands := operand_keeps h he hoperand
  have htext : s = termText (goesOn (!ctx.operand) newlines s2) (applySigns e1 signs) ++ s2 := by
    rw [signs_text hsigns, termText_of_signs hstands (lead_of_operand he) hsignsKept]
  refine extend_keeps h (tail_applySigns hstands.tail signs) ?_ ?_ hextend hextendKept
  · rintro (hzero | hends)
    · cases hzero
    · simpa only [termText, hends, Bool.false_eq_true, if_false] using htext
  · intro hgoes
    simpa only [termText, hgoes, if_true] using htext

/-- The readers of every level are sound, by induction on the number of levels. -/
theorem keeper_sound (n : Nat) : (keeper n).Sound := by
  induction n with
  | zero => exact ⟨fun _ _ _ _ h => (by cases h), fun _ _ _ h => (by cases h)⟩
  | succ n ih =>
    refine ⟨fun ctx s e r hread hkept => ?_, fun s es r hread hkept => ?_⟩
    · have hlevel : expressionFrom (keeper n).toInner ctx s = .ok e r := by
        rw [keeper_toInner]
        exact hread
      exact expressionFrom_keeps ih hlevel hkept
    · exact plainTemplate_keeps ih _ s es r (by rw [keeper_toInner]; exact hread) hkept

theorem expression_keeps {e : Expr} (hread : expression s = .ok e r) (hkept : expressionKept s = true) : e.Stands s r := by
  refine (keeper_sound (s.length + 1)).expression .fresh s e r ?_ hkept
  rw [keeper_toInner]
  exact hread

end BackendSwitch.Grammar
