import BackendSwitch.Proofs.Sound

/-! # Reading again what was read

A reader of nested parts repeats another one if it reads the text of everything the other has read, and gives the same
tree. The text may stand in front of anything that lets the expression end. Blank text that moved to the outside of an
expression is not part of its text, so it is not read again. -/
namespace BackendSwitch
set_option autoImplicit false

open Grammar
open Identifier (startsWith extendsWith)

/-- An expression without the blank text that moved to its outside. -/
def Expr.plain (e : Expr) : Expr :=
  { e with decor := ⟨e.decor.before.map fun _ => [], e.decor.after.map fun _ => []⟩ }

namespace Expr

@[simp] theorem plain_node (e : Expr) : e.plain.node = e.node := rfl

@[simp] theorem within_plain (e : Expr) (b a : Text) : e.plain.within b a = e.within b a := rfl

@[simp] theorem within_node (e : Expr) (b a : Text) : (e.within b a).node = e.node := rfl

theorem within_text (e : Expr) (b a : Text) : (e.within b a).text = b ++ (e.node.text ++ a) := by
  rw [Expr.text_eq]
  rfl

/-- An expression that nothing moved out of keeps what is behind it. -/
theorem Closed.plain_after {e : Expr} (h : e.Closed) : e.plain.decor.after = e.decor.after := by
  obtain ⟨⟨before, after⟩, node⟩ := e
  cases after with
  | none => rfl
  | some t =>
    have ht : t = [] := h
    rw [ht]
    rfl

end Expr

namespace Grammar

/-! ## First characters -/

/-- The characters with which an expression begins. -/
def startsTerm (c : Char) : Bool :=
  c == '"' || c == '[' || c == '{' || c == '<' || c == '-' || c == '(' || c == '!' || c.isDigit || startsWith c

theorem isSolid_of_startsTerm {c : Char} (h : startsTerm c = true) : isSolid c = true := by
  have hne := fun d => Text.ne_of_class h (d := d)
  simp [isSolid, isWhite, hne ' ' rfl, hne '\t' rfl, hne '\n' rfl, hne '\r' rfl, hne '#' rfl, hne '/' rfl]

/-- A text that begins like an expression. -/
def StartsTerm (s : Text) : Prop := ∃ c u, s = c :: u ∧ startsTerm c = true

theorem StartsTerm.append {s : Text} (h : StartsTerm s) (r : Text) : StartsTerm (s ++ r) := by
  obtain ⟨c, u, rfl, hc⟩ := h
  exact ⟨c, u ++ r, rfl, hc⟩

theorem StartsTerm.blankEnd {s : Text} (h : StartsTerm s) : BlankEnd s := by
  obtain ⟨c, u, rfl, hc⟩ := h
  exact blankEnd_cons (isSolid_of_startsTerm hc)

theorem StartsTerm.head {s : Text} (h : StartsTerm s) {d : Char} (hd : startsTerm d = false) : s.head? ≠ some d := by
  obtain ⟨c, u, rfl, hc⟩ := h
  simpa using Text.ne_of_class hc hd

theorem StartsTerm.ne_nil {s : Text} (h : StartsTerm s) : s ≠ [] := by
  obtain ⟨c, u, rfl, -⟩ := h
  simp

/-! ## Nested templates -/

/-- A marker with a word that begins no part of a template: `else`, `endif` or `endfor`. -/
def TemplateEnd (r : Text) : Prop :=
  ∃ strip before t, r = '%' :: '{' :: (Reader.flagText '~' strip ++ (before ++ 'e' :: t)) ∧ Blank before

end Grammar

/-! ## Repeating -/

namespace Grammar.Inner

/-- The second readers read again what the first have read, up to the given length. -/
structure Repeats (inner inner' : Inner) (k : Nat) : Prop where
  starts : ∀ ctx s e r, inner.expression ctx s = .ok e r → e.node.Sound → s ≠ [] ∧ StartsTerm e.node.text
  expression : ∀ ctx s e r, inner.expression ctx s = .ok e r → e.node.Sound → e.node.text.length < k →
    ∀ r', Alike r r' → e.node.Stops ctx.newlines (!ctx.operand) r' →
      inner'.expression ctx (e.node.text ++ r') = .ok e.plain r'
  template : ∀ s es r, inner.template s = .ok es r → ElementsSound es → Woven ['%', '{'] es →
    (es.flatMap Element.text).length < k →
    ∀ r', TemplateEnd r' → inner'.template (es.flatMap Element.text ++ r') = .ok es r'

variable {inner inner' : Inner} {k : Nat}

/-- An expression with blank text around it is read again in front of anything that ends it. -/
theorem Repeats.enclosed (h : inner.Repeats inner' k) (x y : Bool) {ctx : Context} {s s1 s2 b a u : Text} {e : Expr}
    (hb : gap x s = .ok b s1) (he : inner.expression ctx s1 = .ok e s2) (ha : gap y s2 = .ok a u) (hu : u ≠ [])
    (sound : e.node.Sound) (hk : e.node.text.length < k) :
    StartsTerm e.node.text ∧ IsGap x b ∧ IsGap y a ∧ ∀ u', Stopper (!ctx.operand) u' → Alike u u' →
      gap x (b ++ (e.node.text ++ (a ++ u'))) = .ok b (e.node.text ++ (a ++ u')) ∧
      inner'.expression ctx (e.node.text ++ (a ++ u')) = .ok e.plain (a ++ u') ∧
      gap y (a ++ u') = .ok a u' := by
  obtain ⟨hs1, hstart⟩ := h.starts ctx s1 e s2 he sound
  obtain ⟨-, hb, -⟩ := gap_eq_ok hb hs1
  obtain ⟨rfl, ha, -⟩ := gap_eq_ok ha hu
  refine ⟨hstart, hb, ha, fun u' hstop halike => ⟨?_, ?_, ?_⟩⟩
  · exact gap_append hb (hstart.append _).blankEnd.gapEnd
  · exact h.expression ctx s1 e _ he sound hk _ (alike_append ha.blank halike)
      (stops_of_halts (halts_of_stopper ha.blank hstop) _)
  · exact gap_append ha hstop.blankEnd.gapEnd

end Grammar.Inner

end BackendSwitch
