import BackendSwitch.Proofs.Reading.Structure
import BackendSwitch.Proofs.Reread

/-! # Reading an attribute from its text

An attribute is read from its text as it is, but for blank text that was left to the printer. Its value ends with its line,
whatever stands on the next lines. -/
namespace BackendSwitch
set_option autoImplicit false

open Grammar
open Identifier (startsWith extendsWith)

/-! ## Values -/

/-- A value from which no blank text has moved and whose text is read as the value wherever a value can end. -/
structure Expr.Repeats (e : Expr) : Prop where
  closed : e.Closed
  starts : StartsTerm e.node.text
  reads : ∀ r, r.Avoids extendsWith → Halts true r →
    ∃ before, expression (e.node.text ++ r) = .ok ⟨⟨before, e.decor.after⟩, e.node⟩ r

/-- A value that is read and written without a fault. -/
structure Expr.Faultless (e : Expr) : Prop where
  sound : e.node.Sound
  closed : e.Closed

/-- The quoted text of a label is read back. -/
def Label.Legible : Label → Prop
  | .quoted text _ => Escape.Legible text
  | .bare _ _ => True

instance : (l : Label) → Decidable l.Legible
  | .quoted text _ => inferInstanceAs (Decidable (Escape.Legible text))
  | .bare _ _ => .isTrue trivial

theorem Expr.repeats_of_isRead {e : Expr} (h : e.IsRead) (hfaultless : e.Faultless) : e.Repeats := by
  obtain ⟨f, s, r, hf, hnode, hafter⟩ := h
  obtain ⟨sound, closed⟩ := hfaultless
  have hclosed : f.Closed := by
    rw [Expr.Closed, Decor.tail, hafter]
    exact closed
  rw [← hnode] at sound
  obtain ⟨-, hstart, hread⟩ := expression_repeats hf sound
  rw [hnode] at hstart
  refine ⟨closed, hstart, fun r' havoid hhalts => ⟨f.decor.before.map fun _ => [], ?_⟩⟩
  have hagain := hread r' (alike_of_avoids havoid) (stops_of_halts hhalts _)
  rw [hnode] at hagain
  rw [hagain, ← hnode, ← hafter, ← hclosed.plain_after]
  rfl

theorem Expr.Closed.reread_eq {e : Expr} (h : e.Closed) :
    e.reread = ⟨⟨some (e.decor.before.getD [' ']), e.decor.after⟩, e.node⟩ := by
  obtain ⟨⟨before, after⟩, node⟩ := e
  cases after with
  | none => rfl
  | some t =>
    obtain rfl : t = [] := h
    rfl

theorem Attribute.rest_of_closed {a : Attribute} (h : a.value.Closed) (tail : Text) :
    a.rest tail = a.decor.after.getD tail := by
  rw [Attribute.rest, show a.value.decor.tail = [] from h, List.nil_append]

namespace Grammar

theorem value_append {e : Expr} (hbefore : Inline (e.decor.before.getD [' '])) (he : e.Repeats) {r : Text}
    (havoid : r.Avoids extendsWith) (hhalts : Halts true r) :
    value (e.decor.before.getD [' '] ++ (e.node.text ++ r)) = .ok e.reread r := by
  obtain ⟨before, hread⟩ := he.reads r havoid hhalts
  rw [he.closed.reread_eq]
  exact Reader.bind_ok (inline_append hbefore (he.starts.append r).blankEnd.inlineEnd) <| Reader.bind_ok hread rfl

/-! ## Attributes on the line of a brace -/

theorem avoids_of_closer {c : Char} {t : Text} (h : isCloser c = true) : Text.Avoids extendsWith (c :: t) := by
  refine Text.avoids_cons.mpr ?_
  simp only [isCloser, Bool.or_eq_true, beq_iff_eq] at h
  rcases h with ((((rfl | rfl) | rfl) | rfl) | rfl) | rfl <;> rfl

theorem inlineEnd_of_isIdentifier {t : Text} (h : IsIdentifier t) (r : Text) : InlineEnd (t ++ r) :=
  (blankEnd_of_isIdentifier h r).inlineEnd

/-- The attribute of a body that is written on one line is read with all blank text up to the closing brace. -/
theorem lineAttribute_append {x after r : Text} {a : Attribute} (hx : Inline x) (ha : a.Formed)
    (hv : a.value.Repeats) (hafter : Inline after) :
    lineAttribute (x ++ (a.key ++ (a.keyAfter.getD [' '] ++
      '=' :: (a.value.decor.before.getD [' '] ++ (a.value.node.text ++ (after ++ '}' :: r)))))) =
      .ok (.attr (a.reread (.around x after))) ('}' :: r) := by
  have hclose : InlineEnd ('}' :: r) := (blankEnd_cons rfl).inlineEnd
  refine Reader.bind_ok (inline_append hx (inlineEnd_of_isIdentifier ha.key _)) <|
    Reader.bind_ok (identifier_append ha.key (avoids_of_blank ha.keyAfter.blank (Text.avoids_cons.mpr rfl))) <|
    Reader.bind_ok (inline_append ha.keyAfter (blankEnd_cons rfl).inlineEnd) <|
    Reader.bind_ok (Reader.require_eq_ok_iff.mpr (Reader.char_cons _ _)) <|
    Reader.bind_ok (value_append ha.before hv (avoids_of_blank hafter.blank (avoids_of_closer (c := '}') rfl))
      (halts_of_stopper hafter.blank (stopper_closer (d := '}') rfl))) <|
    Reader.bind_ok (inline_append hafter hclose) rfl

/-! ## Attributes with a line of their own -/

/-- Something in a document may stand at the end of a line. -/
def LineGoesOn (r : Text) : Prop := r = [] ∨ ∃ u, r = '\n' :: u ∧ Onward u

theorem LineGoesOn.lineBreak {r : Text} (h : LineGoesOn r) : LineBreak r := h.imp_right fun ⟨u, hu, _⟩ => ⟨u, hu⟩

theorem structureLine_of_parts {body : Reader Body} {used : List Text} {s s1 s2 s3 s4 r before ident identAfter after : Text}
    {build : Decor → Structure} (hbefore : blank s = .ok before s1) (hident : identifier s1 = .ok ident s2)
    (hidentAfter : inline s2 = .ok identAfter s3)
    (hbuild : afterIdentifier body (used.contains ident) s1 ident identAfter s3 = .ok build s4)
    (hafter : trailing s4 = .ok after r) (hr : LineBreak r) :
    structureLine body used s = .ok (build (.around before after), r.isEmpty) (r.drop 1) := by
  obtain ⟨u, hend, rfl⟩ := hr.lineEnd
  refine Reader.bind_ok hbefore ?_
  refine Reader.bind_ok (Reader.bind_ok hident <| Reader.bind_ok hidentAfter hbuild) ?_
  exact Reader.bind_ok hafter <| Reader.bind_ok (Reader.require_eq_ok_iff.mpr hend) rfl

theorem attributeLine_append {body : Reader Body} {used : List Text} {r : Text} {a : Attribute} (hdecor : a.decor.Formed)
    (ha : a.Formed) (hv : a.value.Repeats) (hkey : a.key ∉ used) (hr : LineGoesOn r) :
    structureLine body used (a.text [] [] ++ r) = .ok ((Structure.attr a).reread, r.isEmpty) (r.drop 1) := by
  have hfree : used.contains a.key = false := by
    rw [← Bool.not_eq_true, List.contains_iff_mem]
    exact hkey
  obtain ⟨i, c, htrail, hi, hc⟩ := hdecor.after
  have htext : a.decor.after.getD [] ++ r = i ++ (c ++ r) := by rw [htrail, List.append_assoc]
  have hout : LineOut (c ++ r) := lineOut_append hc hr
  have hvalue : value (a.value.decor.before.getD [' '] ++ (a.value.node.text ++ (a.decor.after.getD [] ++ r))) =
      .ok a.value.reread (a.decor.after.getD [] ++ r) := by
    rw [htext]
    exact value_append ha.before hv (avoids_of_blank hi.blank hout.avoids) (halts_of_lineOut hi.blank hout)
  have hbuild : ∀ start, afterIdentifier body false start a.key (a.keyAfter.getD [' ']) ('=' ::
      (a.value.decor.before.getD [' '] ++ (a.value.node.text ++ (a.decor.after.getD [] ++ r)))) =
      .ok (fun decor => .attr (a.reread decor)) (a.decor.after.getD [] ++ r) := fun start =>
    Reader.bind_ok (Reader.peek_cons _ _) <| Reader.bind_ok (Reader.char_cons _ _) <| Reader.bind_ok hvalue rfl
  have hline := structureLine_of_parts (blank_append hdecor.before (blankEnd_of_isIdentifier ha.key _))
    (identifier_append ha.key (avoids_of_blank ha.keyAfter.blank (Text.avoids_cons.mpr rfl)))
    (inline_append ha.keyAfter (blankEnd_cons (c := '=') rfl).inlineEnd) (hfree ▸ hbuild _)
    (trailing_append hdecor.after hr.lineBreak) hr.lineBreak
  rw [Structure.reread, Attribute.text_eq, Attribute.rest_of_closed hv.closed, ← hline]
  simp only [List.append_assoc, List.cons_append]

end Grammar
end BackendSwitch
