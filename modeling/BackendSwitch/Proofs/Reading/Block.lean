import BackendSwitch.Proofs.Reading.Attribute

/-! # Reading a block from its text

The labels of a block are read one by one, and its body is read either on the line of its braces or by the reader for
structures with lines of their own. -/
namespace BackendSwitch
set_option autoImplicit false

open Grammar
open Identifier (startsWith extendsWith)

/-! ## Labels -/

theorem LabelsFormed.append {ls ms : List Label} (h : LabelsFormed (ls ++ ms)) : LabelsFormed ms := by
  induction ls with
  | nil => exact h
  | cons l ls ih =>
    cases l with
    | quoted t a => exact ih h.2
    | bare t a => exact ih h.2

theorem Label.written_ne_nil {l : Label} {ls : List Label} (h : LabelsFormed (l :: ls)) : l.written ≠ [] := by
  cases l with
  | quoted t a => simp [Label.written, Escape.quoted]
  | bare t a =>
    obtain ⟨⟨⟨c, u, rfl, -⟩, -⟩, -⟩ := h
    simp [Label.written]

namespace Grammar

/-- What stands behind a name or a label of a block: another label or the body. -/
theorem labels_head {ls : List Label} (h : LabelsFormed ls) (r : Text) :
    ∃ c u, ls.flatMap Label.written ++ '{' :: r = c :: u ∧
      (c = '{' ∨ c = '"' ∨ startsWith c = true ∧ ∃ t a, ls.head? = some (.bare t a)) := by
  match ls with
  | [] => exact ⟨'{', r, rfl, .inl rfl⟩
  | .quoted t a :: ls => exact ⟨'"', _, rfl, .inr (.inl rfl)⟩
  | .bare t a :: ls =>
    obtain ⟨⟨⟨c, u, rfl, hc, -⟩, -⟩, -⟩ := h
    exact ⟨c, _, rfl, .inr (.inr ⟨hc, _, a, rfl⟩)⟩

theorem labels_inlineEnd {ls : List Label} (h : LabelsFormed ls) (r : Text) :
    InlineEnd (ls.flatMap Label.written ++ '{' :: r) := by
  obtain ⟨c, u, hcu, hc⟩ := labels_head h r
  rw [hcu]
  refine (blankEnd_cons ?_).inlineEnd
  rcases hc with rfl | rfl | ⟨hc, -⟩
  · rfl
  · rfl
  · exact isSolid_of_startsWith hc

theorem avoids_of_inline {t r : Text} (ht : Inline t) (hne : t ≠ []) : (t ++ r).Avoids extendsWith := by
  cases ht with
  | nil => exact absurd rfl hne
  | @space c _ hc _ =>
    have hcases : c = ' ' ∨ c = '\t' := by simpa [isSpace] using hc
    rcases hcases with rfl | rfl
    · exact Text.avoids_cons.mpr rfl
    · exact Text.avoids_cons.mpr rfl
  | comment hu _ =>
    rw [List.append_assoc]
    exact avoids_of_isComment hu rfl

/-- A name in front of labels is read up to its end. -/
theorem labels_avoids {after : Option Text} {ls : List Label} (hafter : Inline (after.getD [' '])) (hapart : Apart after ls)
    (h : LabelsFormed ls) (r : Text) :
    (after.getD [' '] ++ (ls.flatMap Label.written ++ '{' :: r)).Avoids extendsWith := by
  by_cases hne : after.getD [' '] = []
  · obtain ⟨c, u, hcu, hc⟩ := labels_head h r
    rw [hne, List.nil_append, hcu]
    refine Text.avoids_cons.mpr ?_
    rcases hc with rfl | rfl | ⟨-, t, a, hbare⟩
    · rfl
    · rfl
    · exact absurd hbare (hapart hne t a)
  · exact avoids_of_inline hafter hne

theorem label_append {l : Label} {ls : List Label} (h : LabelsFormed (l :: ls)) (hl : l.Legible) (r : Text) :
    label (l.written ++ (ls.flatMap Label.written ++ '{' :: r)) = .ok l.reread (ls.flatMap Label.written ++ '{' :: r) := by
  cases l with
  | quoted t a =>
    obtain ⟨ha, hls⟩ := h
    rw [Label.written, List.append_assoc]
    exact Reader.or_of_ok <| Reader.bind_ok (quotedText_quoted hl _) <|
      Reader.bind_ok (inline_append ha (labels_inlineEnd hls r)) rfl
  | bare t a =>
    obtain ⟨⟨ht, ha, hapart⟩, hls⟩ := h
    rw [Label.written, List.append_assoc]
    have hsoft : quotedText (t ++ (a.getD [' '] ++ (ls.flatMap Label.written ++ '{' :: r))) = .soft := by
      obtain ⟨c, u, rfl, hc, -⟩ := ht
      have hquote : c ≠ '"' := by
        rintro rfl
        cases hc
      exact Reader.bind_of_soft (Reader.char_of_head (by simpa using hquote))
    rw [label, Reader.or_of_soft (Reader.bind_of_soft hsoft)]
    exact Reader.bind_ok (identifier_append ht (labels_avoids ha hapart hls r)) <|
      Reader.bind_ok (inline_append ha (labels_inlineEnd hls r)) rfl

theorem many_label_append {ls : List Label} (h : LabelsFormed ls) (hl : ∀ l ∈ ls, l.Legible) (r : Text) :
    Reader.many label (ls.flatMap Label.written ++ '{' :: r) = .ok (ls.map Label.reread) ('{' :: r) := by
  rw [← Label.written_map_reread]
  have hsuffix : ∀ pre l post, ls.map Label.reread = pre ++ l :: post →
      ∃ m ms, l = m.reread ∧ post = ms.map Label.reread ∧ LabelsFormed (m :: ms) ∧ m.Legible := by
    intro pre l post hsplit
    obtain ⟨before, rest, rfl, -, hrest⟩ := List.map_eq_append_iff.mp hsplit
    obtain ⟨m, ms, rfl, rfl, rfl⟩ := List.map_eq_cons_iff.mp hrest
    exact ⟨m, ms, rfl, rfl, h.append, hl m (by simp)⟩
  refine Reader.many_flatMap (fun l hmem => ?_) (fun pre l post hsplit => ?_) rfl
  · obtain ⟨pre, post, hsplit⟩ := List.append_of_mem hmem
    obtain ⟨m, ms, rfl, -, hm, -⟩ := hsuffix pre l post hsplit
    rw [Label.written_reread]
    exact Label.written_ne_nil hm
  · obtain ⟨m, ms, rfl, rfl, hm, hlegible⟩ := hsuffix pre l post hsplit
    rw [Label.written_reread, Label.written_map_reread]
    exact label_append hm hlegible r

end Grammar

/-! ## Bodies -/

namespace Grammar

/-- The reader of a body reads again the structures of bodies up to a length. -/
def RereadsLines (body : Reader Body) (k : Nat) : Prop :=
  ∀ b : Body, b.LinesFormed → b.Each Expr.Repeats Label.Legible → (linesText false b.items).length < k →
    ∀ r, body (linesText false b.items ++ (b.decor.after.getD [] ++ '}' :: r)) =
      .ok ⟨⟨none, some (b.decor.after.getD [])⟩, b.items.map Structure.reread, false, false⟩ ('}' :: r)

theorem trailing_of_solid {i u : Text} {c : Char} (hi : Inline i) (hc : isSolid c = true) :
    trailing (i ++ c :: u) = .ok i (c :: u) := by
  have hsoft : lineComment (c :: u) = .soft := by
    have hne : c ≠ '#' ∧ c ≠ '/' := by
      simp only [isSolid, Bool.and_eq_true, bne_iff_ne] at hc
      exact ⟨hc.1.2, hc.2⟩
    unfold lineComment
    split
    · next h => exact absurd (List.cons.inj h).1 hne.1
    · next h => exact absurd (List.cons.inj h).1 hne.2
    · rfl
  refine Reader.bind_ok (inline_append hi (blankEnd_cons hc).inlineEnd) <|
    Reader.bind_ok (Reader.optional_eq_none_iff.mpr ⟨hsoft, rfl⟩) ?_
  rw [Reader.pure_apply, Option.getD_none, List.append_nil]

theorem newline_of_solid {c : Char} (u : Text) (hc : isSolid c = true) : newline (c :: u) = .soft := by
  have hne : c ≠ '\n' ∧ c ≠ '\r' := by
    constructor
    · rintro rfl
      cases hc
    · rintro rfl
      cases hc
  unfold newline
  split
  · next h => exact absurd (List.cons.inj h).1 hne.1
  · next h => exact absurd (List.cons.inj h).1 hne.2
  · rfl

variable {body : Reader Body} {k : Nat}

/-- A body is written on the line of its braces if something else than a line end follows the opening one. -/
theorem blockBody_of_lineBody {i u r : Text} {c : Char} {b : Body} (hi : Inline i) (hc : isSolid c = true)
    (h : lineBody (i ++ c :: u) = .ok b ('}' :: r)) : blockBody body ('{' :: (i ++ c :: u)) = .ok b r := by
  refine Reader.bind_ok (Reader.require_eq_ok_iff.mpr (Reader.char_cons _ _)) ?_
  refine Reader.bind_ok (t := '}' :: r) ?_ (Reader.bind_ok (Reader.require_eq_ok_iff.mpr (Reader.char_cons _ _)) rfl)
  rw [Reader.or_of_soft ((Reader.bind_of_ok (trailing_of_solid hi hc)).trans (Reader.bind_of_soft (newline_of_solid u hc)))]
  exact h

theorem lineBody_empty {i r : Text} (hi : Inline i) :
    lineBody (i ++ '}' :: r) = .ok ⟨⟨none, some i⟩, [], true, false⟩ ('}' :: r) := by
  have hinline : inline (i ++ '}' :: r) = .ok i ('}' :: r) := inline_append hi (blankEnd_cons rfl).inlineEnd
  have hsoft : lineAttribute (i ++ '}' :: r) = .soft :=
    (Reader.bind_of_ok hinline).trans (Reader.bind_of_soft (identifier_eq_soft (Text.avoids_cons.mpr rfl)))
  exact Reader.bind_ok (Reader.optional_eq_none_iff.mpr ⟨hsoft, rfl⟩) <| Reader.bind_ok hinline rfl

theorem lineBody_attribute {x after r : Text} {a : Attribute} (hx : Inline x) (ha : a.Formed) (hv : a.value.Repeats)
    (hafter : Inline after) :
    lineBody (x ++ (a.key ++ (a.keyAfter.getD [' '] ++
      '=' :: (a.value.decor.before.getD [' '] ++ (a.value.node.text ++ (after ++ '}' :: r)))))) =
      .ok ⟨⟨none, some []⟩, [.attr (a.reread (.around x after))], true, false⟩ ('}' :: r) := by
  have hread := Reader.optional_eq_some_iff.mpr (lineAttribute_append (r := r) hx ha hv hafter)
  have hend : inline ('}' :: r) = .ok [] ('}' :: r) := inline_append .nil (blankEnd_cons (c := '}') rfl).inlineEnd
  exact Reader.bind_ok hread (Reader.bind_ok hend rfl)

theorem blockBody_of_isLine {b : Body} (hline : b.isLine = true) (hb : b.LineFormed)
    (hv : b.Each Expr.Repeats Label.Legible) (r : Text) :
    blockBody body ('{' :: (b.inside ++ '}' :: r)) = .ok b.reread r := by
  match b with
  | ⟨decor, [], true, openEnd⟩ =>
    rw [Body.inside_of_empty]
    have hi := hb.before.append hb.after
    exact blockBody_of_lineBody hi rfl (lineBody_empty hi)
  | ⟨decor, [.attr a], true, openEnd⟩ =>
    obtain ⟨⟨hbefore, hafter⟩, ha⟩ := hb.attr a (List.mem_singleton.mpr rfl)
    have hx := hb.before.append hbefore
    have hread := lineBody_attribute (r := r) hx ha hv.1 (hafter.append hb.after)
    rw [Body.inside_of_attribute, Attribute.text_eq, Body.reread, Attribute.rest_of_closed hv.1.closed]
    obtain ⟨c, u, hkey, hc, -⟩ := ha.key
    simp only [hkey, List.append_assoc, List.cons_append] at hread ⊢
    rw [← List.append_assoc] at hread ⊢
    exact blockBody_of_lineBody hx (isSolid_of_startsWith hc) hread

theorem blockBody_of_not_isLine (hbody : RereadsLines body k) {b : Body} (hline : b.isLine = false) (hb : b.LinesFormed)
    (hv : b.Each Expr.Repeats Label.Legible) (hk : b.inside.length ≤ k) (r : Text) :
    blockBody body ('{' :: (b.inside ++ '}' :: r)) = .ok b.reread r := by
  have htext := Body.inside_of_lines hline
  have hshort : (linesText false b.items).length < k := by
    rw [htext] at hk
    simp only [List.length_append, List.length_cons] at hk
    omega
  have hread := hbody b hb hv hshort r
  rw [htext, Body.reread_of_not_isLine hline]
  simp only [List.append_assoc, List.cons_append]
  have htrailing := trailing_append (r := '\n' :: (linesText false b.items ++ (b.decor.after.getD [] ++ '}' :: r)))
    hb.before (.inr ⟨_, rfl⟩)
  refine Reader.bind_ok (Reader.require_eq_ok_iff.mpr (Reader.char_cons _ _)) ?_
  refine Reader.bind_ok (Reader.or_of_ok ?_) (Reader.bind_ok (Reader.require_eq_ok_iff.mpr (Reader.char_cons _ _)) rfl)
  exact Reader.bind_ok htrailing (Reader.bind_ok rfl (Reader.bind_ok hread rfl))

theorem blockBody_append (hbody : RereadsLines body k) {b : Body} (hb : b.Formed) (hv : b.Each Expr.Repeats Label.Legible)
    (hk : b.inside.length ≤ k) (r : Text) : blockBody body ('{' :: (b.inside ++ '}' :: r)) = .ok b.reread r := by
  cases hline : b.isLine with
  | true => exact blockBody_of_isLine hline (hb.line hline) hv r
  | false => exact blockBody_of_not_isLine hbody hline hb.lines hv hk r

end Grammar
end BackendSwitch
