import BackendSwitch.Tree.Printer
import BackendSwitch.Proofs.Reading.Steps

/-! # The text of a tree

The printer turns a tree into pieces, and only a quoted template changes the state in which the pieces behind it are
rendered. Outside of one every part of a tree has a text of its own, and the text of a tree is put together from those of
its parts. -/
namespace BackendSwitch
set_option autoImplicit false

/-! ## The state behind a tree -/

theorem escapingAfter_append (escaping : Bool) (ps qs : List Piece) :
    escapingAfter escaping (ps ++ qs) = escapingAfter (escapingAfter escaping ps) qs := by
  induction ps generalizing escaping with
  | nil => rfl
  | cons p ps ih => cases p <;> simp [escapingAfter, ih]

mutual

@[simp]
theorem Expr.settled (lead tail : Text) : (e : Expr) → escapingAfter false (e.pieces lead tail) = false
  | ⟨decor, node⟩ => by simp [Expr.pieces, escapingAfter, escapingAfter_append, Node.settled node]

@[simp]
theorem Node.settled : (n : Node) → escapingAfter false n.pieces = false
  | .null => rfl
  | .bool true => rfl
  | .bool false => rfl
  | .number _ => rfl
  | .string _ => rfl
  | .array items _ _ => by simp [Node.pieces, escapingAfter, escapingAfter_append, separated_settled items]
  | .object items _ => by simp [Node.pieces, escapingAfter, escapingAfter_append, objectItems_settled items]
  | .template _ => by simp [Node.pieces, escapingAfter, escapingAfter_append]
  | .heredoc _ none elements _ => by
    simp [Node.pieces, escapingAfter, escapingAfter_append, template_settled elements]
  | .heredoc _ (some _) _ _ => rfl
  | .parenthesis inner => by simp [Node.pieces, escapingAfter, escapingAfter_append, Expr.settled [] [] inner]
  | .variable _ => rfl
  | .conditional test yes no => by
    simp [Node.pieces, escapingAfter, escapingAfter_append, Expr.settled [] [] test, Expr.settled [] [] yes,
      Expr.settled [] [] no]
  | .call _ arguments _ _ => by simp [Node.pieces, escapingAfter, escapingAfter_append, separated_settled arguments]
  | .traversal base steps => by simp [Node.pieces, escapingAfter_append, Expr.settled [] [] base, steps_settled steps]
  | .unary _ operand => by simp [Node.pieces, escapingAfter, Expr.settled [] [] operand]
  | .binary left _ right => by
    simp [Node.pieces, escapingAfter, escapingAfter_append, Expr.settled [] [] left, Expr.settled [] [] right]
  | .forArray intro value test => by
    simp [Node.pieces, escapingAfter, escapingAfter_append, ForIntro.settled [':'] intro, Expr.settled [] [] value,
      test_settled test]
  | .forObject intro key value _ test => by
    simp [Node.pieces, escapingAfter, escapingAfter_append, ForIntro.settled [':'] intro, Expr.settled [] [] key,
      Expr.settled [] [] value, test_settled test]

@[simp]
theorem ForIntro.settled (close : Text) : (i : ForIntro) → escapingAfter false (i.pieces close) = false
  | ⟨_, _, _, source⟩ => by simp [ForIntro.pieces, escapingAfter, escapingAfter_append, Expr.settled [] [] source]

@[simp]
theorem test_settled : (test : Option Expr) → escapingAfter false (testPieces test) = false
  | none => rfl
  | some test => by simp [testPieces, escapingAfter, Expr.settled [] [] test]

@[simp]
theorem separated_settled : (es : List Expr) → escapingAfter false (separatedPieces es) = false
  | [] => rfl
  | e :: es => by simp [separatedPieces, escapingAfter_append, Expr.settled [] [] e, following_settled es]

@[simp]
theorem following_settled : (es : List Expr) → escapingAfter false (followingPieces es) = false
  | [] => rfl
  | e :: es => by
    simp [followingPieces, escapingAfter, escapingAfter_append, Expr.settled [] [] e, following_settled es]

@[simp]
theorem objectItems_settled : (items : List ObjectItem) → escapingAfter false (objectPieces items) = false
  | [] => rfl
  | item :: items => by simp [objectPieces, escapingAfter_append, ObjectItem.settled item, objectItems_settled items]

@[simp]
theorem ObjectItem.settled : (item : ObjectItem) → escapingAfter false item.pieces = false
  | ⟨key, _, value, _⟩ => by
    simp [ObjectItem.pieces, escapingAfter, escapingAfter_append, Key.settled key, Expr.settled [] [] value]

@[simp]
theorem Key.settled : (key : Key) → escapingAfter false key.pieces = false
  | .name _ => rfl
  | .expr e => by simp [Key.pieces, Expr.settled [] [] e]

@[simp]
theorem steps_settled : (steps : List Step) → escapingAfter false (stepsPieces steps) = false
  | [] => rfl
  | step :: steps => by simp [stepsPieces, escapingAfter_append, Step.settled step, steps_settled steps]

@[simp]
theorem Step.settled : (step : Step) → escapingAfter false step.pieces = false
  | .field _ _ => rfl
  | .position _ _ => rfl
  | .splat _ => rfl
  | .fullSplat _ _ => rfl
  | .index e => by simp [Step.pieces, escapingAfter, escapingAfter_append, Expr.settled [] [] e]

@[simp]
theorem template_settled : (es : List Element) → escapingAfter false (templatePieces es) = false
  | [] => rfl
  | e :: es => by simp [templatePieces, escapingAfter_append, Element.settled e, template_settled es]

@[simp]
theorem Element.settled : (e : Element) → escapingAfter false e.pieces = false
  | .literal _ => rfl
  | .interpolation _ e => by simp [Element.pieces, escapingAfter, escapingAfter_append, Expr.settled [] [] e]
  | .branch _ _ test yes none _ _ => by
    simp [Element.pieces, escapingAfter, escapingAfter_append, Expr.settled [] [] test, template_settled yes]
  | .branch _ _ test yes (some _) no _ => by
    simp [Element.pieces, escapingAfter, escapingAfter_append, Expr.settled [] [] test, template_settled yes,
      template_settled no]
  | .loop strip intro body _ => by
    simp [Element.pieces, escapingAfter, escapingAfter_append, ForIntro.settled (markerClose strip) intro,
      template_settled body]

end

/-! ## Texts of parts -/

namespace Node

def text (n : Node) : Text := render false n.pieces

end Node

namespace ObjectItem

def text (i : ObjectItem) : Text := render false i.pieces

end ObjectItem

namespace Key

def text (k : Key) : Text := render false k.pieces

end Key

namespace Step

def text (s : Step) : Text := render false s.pieces

end Step

namespace Element

/-- The text of a part of a template outside quotes. -/
def text (e : Element) : Text := render false e.pieces

end Element

namespace ForIntro

def text (i : ForIntro) (close : Text) : Text := render false (i.pieces close)

end ForIntro

def testText (test : Option Expr) : Text := render false (testPieces test)

/-- The text of expressions with commas between them. -/
def separatedText : List Expr → Text
  | [] => []
  | e :: es => e.text ++ es.flatMap fun e => ',' :: e.text

namespace Decor

def lead (d : Decor) : Text := d.before.getD []

def tail (d : Decor) : Text := d.after.getD []

end Decor

theorem Expr.text_eq (e : Expr) : e.text = e.decor.lead ++ (e.node.text ++ e.decor.tail) := by
  cases e
  simp [Expr.text, Expr.pieces, render, render_append, Node.text, Decor.lead, Decor.tail]

theorem render_separated (es : List Expr) : render false (separatedPieces es) = separatedText es := by
  have following : ∀ es : List Expr, render false (followingPieces es) = es.flatMap fun e => ',' :: e.text := by
    intro es
    induction es with
    | nil => rfl
    | cons e es ih => simp [followingPieces, render, render_append, ih, Expr.text]
  cases es with
  | nil => rfl
  | cons e es => simp [separatedPieces, render_append, following, separatedText, Expr.text]

theorem render_objectItems (items : List ObjectItem) :
    render false (objectPieces items) = items.flatMap ObjectItem.text := by
  induction items with
  | nil => rfl
  | cons item items ih => simp [objectPieces, render_append, ih, ObjectItem.text]

theorem render_steps (steps : List Step) : render false (stepsPieces steps) = steps.flatMap Step.text := by
  induction steps with
  | nil => rfl
  | cons step steps ih => simp [stepsPieces, render_append, ih, Step.text]

theorem render_template (es : List Element) : render false (templatePieces es) = es.flatMap Element.text := by
  induction es with
  | nil => rfl
  | cons e es ih => simp [templatePieces, render_append, ih, Element.text]

/-! ## Nodes -/

namespace Node

theorem text_variable (name : Text) : (Node.variable name).text = name := by simp [text, pieces, render]

theorem text_number (n : Numeral) : (number n).text = n.text := by simp [text, pieces, render]

theorem text_array (items : List Expr) (comma : Bool) (tail : Text) :
    (array items comma tail).text = '[' :: (separatedText items ++ (Reader.flagText ',' comma ++ (tail ++ [']']))) := by
  cases comma <;> simp [text, pieces, render, render_append, render_separated, Reader.flagText]

theorem text_object (items : List ObjectItem) (tail : Text) :
    (object items tail).text = '{' :: (items.flatMap ObjectItem.text ++ (tail ++ ['}'])) := by
  simp [text, pieces, render, render_append, render_objectItems]

theorem text_template (elements : List Element) :
    (template elements).text = '"' :: (render true (templatePieces elements) ++ ['"']) := by
  simp [text, pieces, render, render_append]

theorem text_heredoc (delimiter : Text) (elements : List Element) (tail : Text) :
    (heredoc delimiter none elements tail).text =
      '<' :: '<' :: (delimiter ++ '\n' :: (elements.flatMap Element.text ++ (tail ++ delimiter))) := by
  simp [text, pieces, render, render_append, render_template]

theorem text_heredoc_indented (delimiter : Text) (n : Nat) (elements : List Element) (tail : Text) :
    (heredoc delimiter (some n) elements tail).text =
      '<' :: '<' :: '-' :: (delimiter ++ '\n' :: (indentBy n (elements.flatMap Element.text) ++ (tail ++ delimiter))) := by
  simp [text, pieces, render, render_template]

theorem text_parenthesis (inner : Expr) : (parenthesis inner).text = '(' :: (inner.text ++ [')']) := by
  simp [text, pieces, render, render_append, Expr.text]

theorem text_conditional (test yes no : Expr) :
    (conditional test yes no).text = test.text ++ '?' :: (yes.text ++ ':' :: no.text) := by
  simp [text, pieces, render, render_append, Expr.text]

theorem text_call (names : List Name) (arguments : List Expr) (ending : Ending) (tail : Text) :
    (call names arguments ending tail).text =
      List.intercalate [':', ':'] (names.map Name.written) ++
        '(' :: (separatedText arguments ++ (ending.symbol ++ (tail ++ [')']))) := by
  simp [text, pieces, render, render_append, render_separated]

theorem text_traversal (base : Expr) (steps : List Step) :
    (traversal base steps).text = base.text ++ steps.flatMap Step.text := by
  simp [text, pieces, render_append, Expr.text, render_steps]

theorem text_unary (sign : Sign) (operand : Expr) : (unary sign operand).text = sign.symbol ++ operand.text := by
  simp [text, pieces, render, Expr.text]

theorem text_binary (left : Expr) (operator : Operator) (right : Expr) :
    (binary left operator right).text = left.text ++ (operator.symbol ++ right.text) := by
  simp [text, pieces, render, render_append, Expr.text]

theorem text_forArray (intro : ForIntro) (value : Expr) (test : Option Expr) :
    (forArray intro value test).text = '[' :: (intro.text [':'] ++ (value.text ++ (testText test ++ [']']))) := by
  simp [text, pieces, render, render_append, Expr.text, ForIntro.text, testText]

/-- The dots of a loop over an object with the blank text behind them. -/
def spreadText : Option Text → Text
  | none => []
  | some blank => '.' :: '.' :: '.' :: blank

theorem text_forObject (intro : ForIntro) (key value : Expr) (spread : Option Text) (test : Option Expr) :
    (forObject intro key value spread test).text =
      '{' :: (intro.text [':'] ++ (key.text ++ '=' :: '>' ::
        (value.text ++ (spreadText spread ++ (testText test ++ ['}']))))) := by
  cases spread <;>
    simp [text, pieces, render, render_append, Expr.text, ForIntro.text, testText, spreadText]

end Node

/-! ## Smaller parts -/

/-- The comma and the name behind it, where a loop binds two names. -/
def ForIntro.secondText : Option Name → Text
  | none => []
  | some name => ',' :: name.written

/-- The beginning of a loop from the word `for` on. -/
def ForIntro.head : ForIntro → Text
  | ⟨_, first, second, source⟩ =>
    'f' :: 'o' :: 'r' :: (first.written ++ (ForIntro.secondText second ++ 'i' :: 'n' :: source.text))

theorem ForIntro.head_eq_cons (i : ForIntro) : ∃ t, i.head = 'f' :: t := by
  cases i
  exact ⟨_, rfl⟩

theorem ForIntro.text_eq (i : ForIntro) (close : Text) : i.text close = i.before ++ (i.head ++ close) := by
  obtain ⟨before, first, second, source⟩ := i
  cases second <;>
    simp [ForIntro.text, ForIntro.pieces, render, render_append, Expr.text, ForIntro.secondText, ForIntro.head]

theorem testText_some (test : Expr) : testText (some test) = 'i' :: 'f' :: test.text := by
  simp [testText, testPieces, render, Expr.text]

theorem ObjectItem.text_eq (key : Key) (colon : Bool) (value : Expr) (terminator : Terminator) :
    (ObjectItem.mk key colon value terminator).text =
      key.text ++ (if colon then ':' else '=') :: (value.text ++ terminator.symbol) := by
  simp [ObjectItem.text, ObjectItem.pieces, render, render_append, Expr.text, Key.text]

theorem Key.text_name (name : Name) : (Key.name name).text = name.written := by simp [Key.text, Key.pieces, render]

theorem Key.text_expr (e : Expr) : (Key.expr e).text = e.text := rfl

namespace Step

theorem text_field (before name : Text) : (field before name).text = '.' :: (before ++ name) := by
  simp [text, pieces, render]

theorem text_position (before digits : Text) : (position before digits).text = '.' :: (before ++ digits) := by
  simp [text, pieces, render]

theorem text_splat (before : Text) : (splat before).text = '.' :: (before ++ ['*']) := by
  simp [text, pieces, render]

theorem text_fullSplat (before after : Text) :
    (fullSplat before after).text = '[' :: (before ++ '*' :: (after ++ [']'])) := by
  simp [text, pieces, render]

theorem text_index (e : Expr) : (index e).text = '[' :: (e.text ++ [']']) := by
  simp [text, pieces, render, render_append, Expr.text]

end Step

/-! ## Templates -/

theorem markerOpen_eq (s : Strip) : markerOpen s = '%' :: '{' :: Reader.flagText '~' s.before := rfl

theorem markerClose_eq (s : Strip) : markerClose s = Reader.flagText '~' s.after ++ ['}'] := by
  cases h : s.after <;> simp [markerClose, Reader.flagText, h]

theorem Marker.written_eq (word : Text) (m : Marker) :
    m.written word = '%' :: '{' :: (Reader.flagText '~' m.strip.before ++ (m.before ++ (word ++ (m.after ++
      (Reader.flagText '~' m.strip.after ++ ['}']))))) := by
  simp [Marker.written, markerOpen_eq, markerClose_eq]

namespace Element

theorem text_literal (t : Text) : (literal t).text = Escape.markers t := by simp [text, pieces, render]

theorem text_interpolation (strip : Strip) (e : Expr) :
    (interpolation strip e).text =
      '$' :: '{' :: (Reader.flagText '~' strip.before ++ (e.text ++ (Reader.flagText '~' strip.after ++ ['}']))) := by
  cases strip
  simp [text, pieces, render, render_append, Expr.text, markerClose_eq, Reader.flagText]

/-- The second half of a branch. -/
def middleText (middle : Option Marker) (no : List Element) : Text :=
  match middle with
  | none => []
  | some marker => marker.written ['e', 'l', 's', 'e'] ++ no.flatMap text

theorem text_branch (strip : Strip) (before : Text) (test : Expr) (yes : List Element) (middle : Option Marker)
    (no : List Element) (close : Marker) :
    (branch strip before test yes middle no close).text =
      '%' :: '{' :: (Reader.flagText '~' strip.before ++ (before ++ 'i' :: 'f' :: (test.text ++
        (Reader.flagText '~' strip.after ++ '}' :: (yes.flatMap text ++ (middleText middle no ++
          close.written ['e', 'n', 'd', 'i', 'f'])))))) := by
  cases middle <;>
    simp [text, pieces, render, render_append, Expr.text, markerOpen_eq, markerClose_eq, render_template, middleText]

theorem text_loop (strip : Strip) (intro : ForIntro) (body : List Element) (close : Marker) :
    (loop strip intro body close).text =
      '%' :: '{' :: (Reader.flagText '~' strip.before ++ (intro.text (Reader.flagText '~' strip.after ++ ['}']) ++
        (body.flatMap text ++ close.written ['e', 'n', 'd', 'f', 'o', 'r']))) := by
  simp [text, pieces, render, render_append, ForIntro.text, markerOpen_eq, markerClose_eq, render_template]

end Element
end BackendSwitch
