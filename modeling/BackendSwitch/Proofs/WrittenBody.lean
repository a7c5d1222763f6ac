import BackendSwitch.Proofs.Written

/-! # The text of a body

Structures stand one below another, each with its own text, and a block puts the text of its body between braces. -/
namespace BackendSwitch
set_option autoImplicit false

/-! ## The state behind a structure -/

theorem Attribute.settled (lead tail : Text) (a : Attribute) : escapingAfter false (a.pieces lead tail) = false := by
  simp [Attribute.pieces, escapingAfter, escapingAfter_append]

mutual

@[simp]
theorem Structure.settled : (s : Structure) → escapingAfter false s.pieces = false
  | .attr a => Attribute.settled [] [] a
  | .block b => Block.settled b

@[simp]
theorem Block.settled : (b : Block) → escapingAfter false b.pieces = false
  | ⟨_, _, _, _, body⟩ => by simp [Block.pieces, escapingAfter, escapingAfter_append, Body.settled body]

@[simp]
theorem Body.settled : (b : Body) → escapingAfter false b.pieces = false
  | ⟨_, [], true, _⟩ => by simp [Body.pieces, escapingAfter]
  | ⟨_, [.attr a], true, _⟩ => by simp [Body.pieces, escapingAfter, escapingAfter_append, Attribute.settled]
  | ⟨_, .block b :: ss, true, _⟩ => by
    simp [Body.pieces, escapingAfter, escapingAfter_append, lines_settled (.block b :: ss)]
  | ⟨_, .attr a :: s :: ss, true, _⟩ => by
    simp [Body.pieces, escapingAfter, escapingAfter_append, lines_settled (.attr a :: s :: ss)]
  | ⟨_, items, false, _⟩ => by simp [Body.pieces, escapingAfter, escapingAfter_append, lines_settled items]

@[simp]
theorem lines_settled : (ss : List Structure) → escapingAfter false (linesPieces ss) = false
  | [] => rfl
  | s :: ss => by simp [linesPieces, escapingAfter, escapingAfter_append, Structure.settled s, lines_settled ss]

end

/-! ## Texts -/

namespace Attribute

/-- The text of an attribute; `lead` and `tail` stand where it carries no blank text of its own. -/
def text (lead tail : Text) (a : Attribute) : Text := render false (a.pieces lead tail)

/-- The blank text behind the value of an attribute. -/
def rest (tail : Text) (a : Attribute) : Text := a.value.decor.tail ++ a.decor.after.getD tail

theorem text_eq (lead tail : Text) (a : Attribute) :
    a.text lead tail = a.decor.before.getD lead ++ (a.key ++ (a.keyAfter.getD [' '] ++
      '=' :: (a.value.decor.before.getD [' '] ++ (a.value.node.text ++ a.rest tail)))) := by
  obtain ⟨decor, key, keyAfter, ⟨valueDecor, node⟩⟩ := a
  simp [text, pieces, Expr.pieces, render, render_append, Node.text, rest, Decor.tail]

end Attribute

namespace Structure

def text (s : Structure) : Text := render false s.pieces

end Structure

namespace Body

/-- The text of a body between its braces. -/
def inside (b : Body) : Text := render false b.pieces

/-- Whether a body is written on one line. -/
def isLine (b : Body) : Bool :=
  match b.oneLine, b.items with
  | true, [] => true
  | true, [.attr _] => true
  | _, _ => false

end Body

/-- The text of a block from its identifier on. -/
def Block.core (b : Block) : Text :=
  b.ident ++ (b.identAfter.getD [' '] ++ (b.labels.flatMap Label.written ++
    '{' :: (b.body.inside ++ '}' :: b.decor.after.getD [])))

theorem Structure.text_block (b : Block) : (Structure.block b).text = b.decor.before.getD [] ++ b.core := by
  obtain ⟨decor, ident, identAfter, labels, body⟩ := b
  simp [Structure.text, Structure.pieces, Block.pieces, render, render_append, Body.inside, Block.core]

/-- Structures with a line end behind each but possibly the last. -/
def linesText (openEnd : Bool) : List Structure → Text
  | [] => []
  | [s] => s.text ++ if openEnd then [] else ['\n']
  | s :: t :: ss => s.text ++ '\n' :: linesText openEnd (t :: ss)

theorem render_openLines (openEnd : Bool) (ss : List Structure) :
    render false (openLinesPieces openEnd ss) = linesText openEnd ss := by
  fun_induction openLinesPieces openEnd ss with
  | case1 => rfl
  | case2 s => cases openEnd <;> simp [render, render_append, linesText, Structure.text]
  | case3 s t ss ih => simp [render, render_append, linesText, ih, Structure.text]

theorem linesText_false (ss : List Structure) : linesText false ss = ss.flatMap fun s => s.text ++ ['\n'] := by
  induction ss with
  | nil => rfl
  | cons s ss ih =>
    cases ss with
    | nil => simp [linesText]
    | cons t ss => simp [linesText, ih]

theorem render_lines (ss : List Structure) : render false (linesPieces ss) = linesText false ss := by
  rw [linesText_false]
  induction ss with
  | nil => rfl
  | cons s ss ih => simp [linesPieces, render, render_append, ih, Structure.text]

namespace Body

theorem text_eq (b : Body) :
    b.text = b.decor.before.getD [] ++ (linesText b.openEnd b.items ++ b.decor.after.getD []) := by
  simp [text, documentPieces, render, render_append, render_openLines]

theorem inside_of_lines : {b : Body} → b.isLine = false →
    b.inside = b.decor.before.getD [] ++ '\n' :: (linesText false b.items ++ b.decor.after.getD [])
  | ⟨_, [], true, _⟩, h => by cases h
  | ⟨_, [.attr _], true, _⟩, h => by cases h
  | ⟨_, .block _ :: _, true, _⟩, _ => by simp [inside, Body.pieces, render, render_append, render_lines]
  | ⟨_, .attr _ :: _ :: _, true, _⟩, _ => by simp [inside, Body.pieces, render, render_append, render_lines]
  | ⟨_, _, false, _⟩, _ => by simp [inside, Body.pieces, render, render_append, render_lines]

theorem inside_of_empty (decor : Decor) (openEnd : Bool) :
    (Body.mk decor [] true openEnd).inside = decor.before.getD [] ++ decor.after.getD [] := by
  simp [inside, Body.pieces, render]

theorem inside_of_attribute (decor : Decor) (a : Attribute) (openEnd : Bool) :
    (Body.mk decor [.attr a] true openEnd).inside =
      decor.before.getD [] ++ (a.text [' '] [' '] ++ decor.after.getD []) := by
  simp [inside, Body.pieces, render, render_append, Attribute.text]

end Body
end BackendSwitch
