import BackendSwitch.Text.Escape
import BackendSwitch.Tree.Body

/-! Writing trees. A tree becomes a list of pieces, part by part and by plain concatenation; `render` then turns
pieces into text. Only rendering carries a state: whether literals of templates are escaped, which is switched
on by the opening quote of a template and off by a closing one. -/
namespace BackendSwitch
set_option autoImplicit false

/-! ## Pieces -/

inductive Piece where
  | verbatim (text : Text)
  | literal (text : Text)
  | openQuote
  | closeQuote
deriving DecidableEq, Repr

/-- The text of a list of pieces. -/
def render (escaping : Bool) : List Piece → Text
  | [] => []
  | .verbatim t :: ps => t ++ render escaping ps
  | .literal t :: ps =>
    (if escaping then Escape.chars (Escape.markers t) else Escape.markers t) ++ render escaping ps
  | .openQuote :: ps => '"' :: render true ps
  | .closeQuote :: ps => '"' :: render false ps

/-- Whether literals are escaped behind some pieces. -/
def escapingAfter (escaping : Bool) : List Piece → Bool
  | [] => escaping
  | .verbatim _ :: ps => escapingAfter escaping ps
  | .literal _ :: ps => escapingAfter escaping ps
  | .openQuote :: ps => escapingAfter true ps
  | .closeQuote :: ps => escapingAfter false ps

theorem render_append (escaping : Bool) (ps qs : List Piece) :
    render escaping (ps ++ qs) = render escaping ps ++ render (escapingAfter escaping ps) qs := by
  induction ps generalizing escaping with
  | nil => rfl
  | cons p ps ih => cases p <;> simp [render, escapingAfter, ih]

/-! ## Expressions and templates -/

/-- Puts a margin of blanks before every line that is not empty. -/
def indentBy (n : Nat) (t : Text) : Text :=
  t.mapLines fun ls => ls.map fun l => if l.isEmpty then l else List.replicate n ' ' ++ l

namespace Name

def written (n : Name) : Text := n.before ++ n.text ++ n.after

end Name

namespace Ending

def symbol : Ending → Text
  | .plain => []
  | .comma => [',']
  | .spread => ['.', '.', '.']

end Ending

namespace Terminator

def symbol : Terminator → Text
  | .absent => []
  | .newline => ['\n']
  | .comma => [',']

end Terminator

def markerOpen (s : Strip) : Text := ['%', '{'] ++ if s.before then ['~'] else []

def markerClose (s : Strip) : Text := if s.after then ['~', '}'] else ['}']

namespace Marker

def written (word : Text) (m : Marker) : Text :=
  markerOpen m.strip ++ m.before ++ word ++ m.after ++ markerClose m.strip

end Marker

mutual

/-- The pieces of an expression; `lead` and `tail` stand where it carries no blank text of its own. -/
def Expr.pieces (lead tail : Text) : Expr → List Piece
  | ⟨decor, node⟩ => .verbatim (decor.before.getD lead) :: (node.pieces ++ [.verbatim (decor.after.getD tail)])

def Node.pieces : Node → List Piece
  | .null => [.verbatim ['n', 'u', 'l', 'l']]
  | .bool true => [.verbatim ['t', 'r', 'u', 'e']]
  | .bool false => [.verbatim ['f', 'a', 'l', 's', 'e']]
  | .number n => [.verbatim n.text]
  | .string t => [.verbatim (Escape.quoted t)]
  | .array items comma tail =>
    .verbatim ['['] :: (separatedPieces items ++ [.verbatim ((if comma then [','] else []) ++ tail ++ [']'])])
  | .object items tail => .verbatim ['{'] :: (objectPieces items ++ [.verbatim (tail ++ ['}'])])
  | .template elements => .openQuote :: (templatePieces elements ++ [.closeQuote])
  | .heredoc delimiter none elements tail =>
    .verbatim (['<', '<'] ++ delimiter ++ ['\n']) :: (templatePieces elements ++ [.verbatim (tail ++ delimiter)])
  | .heredoc delimiter (some n) elements tail =>
    [.verbatim (['<', '<', '-'] ++ delimiter ++ ['\n'] ++ indentBy n (render false (templatePieces elements))
      ++ tail ++ delimiter)]
  | .parenthesis inner => .verbatim ['('] :: (inner.pieces [] [] ++ [.verbatim [')']])
  | .variable name => [.verbatim name]
  | .conditional test yes no =>
    test.pieces [] [] ++ .verbatim ['?'] :: (yes.pieces [] [] ++ .verbatim [':'] :: no.pieces [] [])
  | .call names arguments ending tail =>
    .verbatim (List.intercalate [':', ':'] (names.map Name.written) ++ ['('])
      :: (separatedPieces arguments ++ [.verbatim (ending.symbol ++ tail ++ [')'])])
  | .traversal base steps => base.pieces [] [] ++ stepsPieces steps
  | .unary sign operand => .verbatim sign.symbol :: operand.pieces [] []
  | .binary left operator right =>
    left.pieces [] [] ++ .verbatim operator.symbol :: right.pieces [] []
  | .forArray intro value test =>
    .verbatim ['['] :: (intro.pieces [':'] ++ value.pieces [] [] ++ testPieces test ++ [.verbatim [']']])
  | .forObject intro key value spread test =>
    .verbatim ['{'] :: (intro.pieces [':'] ++ key.pieces [] [] ++ .verbatim ['=', '>'] :: value.pieces [] []
      ++ .verbatim (match spread with | none => [] | some blank => ['.', '.', '.'] ++ blank)
      :: (testPieces test ++ [.verbatim ['}']]))

/-- The names that a loop binds and what it runs over, up to the given closing text. -/
def ForIntro.pieces (close : Text) : ForIntro → List Piece
  | ⟨before, first, second, source⟩ =>
    .verbatim (before ++ ['f', 'o', 'r'] ++ first.written
      ++ (match second with | none => [] | some name => ',' :: name.written) ++ ['i', 'n'])
      :: (source.pieces [] [] ++ [.verbatim close])

def testPieces : Option Expr → List Piece
  | none => []
  | some test => .verbatim ['i', 'f'] :: test.pieces [] []

/-- Expressions with commas between them. -/
def separatedPieces : List Expr → List Piece
  | [] => []
  | e :: es => e.pieces [] [] ++ followingPieces es

def followingPieces : List Expr → List Piece
  | [] => []
  | e :: es => .verbatim [','] :: (e.pieces [] [] ++ followingPieces es)

def objectPieces : List ObjectItem → List Piece
  | [] => []
  | item :: items => item.pieces ++ objectPieces items

def ObjectItem.pieces : ObjectItem → List Piece
  | ⟨key, colon, value, terminator⟩ =>
    key.pieces ++ .verbatim [if colon then ':' else '='] :: (value.pieces [] [] ++ [.verbatim terminator.symbol])

def Key.pieces : Key → List Piece
  | .name name => [.verbatim name.written]
  | .expr e => e.pieces [] []

def stepsPieces : List Step → List Piece
  | [] => []
  | step :: steps => step.pieces ++ stepsPieces steps

def Step.pieces : Step → List Piece
  | .field before name => [.verbatim ('.' :: (before ++ name))]
  | .position before digits => [.verbatim ('.' :: (before ++ digits))]
  | .splat before => [.verbatim ('.' :: (before ++ ['*']))]
  | .fullSplat before after => [.verbatim ('[' :: (before ++ ['*'] ++ after ++ [']']))]
  | .index e => .verbatim ['['] :: (e.pieces [] [] ++ [.verbatim [']']])

def templatePieces : List Element → List Piece
  | [] => []
  | element :: elements => element.pieces ++ templatePieces elements

def Element.pieces : Element → List Piece
  | .literal t => [.literal t]
  | .interpolation strip e =>
    .verbatim (['$', '{'] ++ if strip.before then ['~'] else []) :: (e.pieces [] [] ++ [.verbatim (markerClose strip)])
  | .branch strip before test yes middle no close =>
    .verbatim (markerOpen strip ++ before ++ ['i', 'f']) :: (test.pieces [] [] ++ .verbatim (markerClose strip)
      :: (templatePieces yes
        ++ (match middle with
          | none => []
          | some marker => .verbatim (marker.written ['e', 'l', 's', 'e']) :: templatePieces no)
        ++ [.verbatim (close.written ['e', 'n', 'd', 'i', 'f'])]))
  | .loop strip intro body close =>
    .verbatim (markerOpen strip) :: (intro.pieces (markerClose strip) ++ templatePieces body
      ++ [.verbatim (close.written ['e', 'n', 'd', 'f', 'o', 'r'])])

end

/-- The text of an expression with the blank text around it. -/
def Expr.text (e : Expr) : Text := render false (e.pieces [] [])

/-! ## Bodies -/

namespace Attribute

def pieces (lead tail : Text) (a : Attribute) : List Piece :=
  .verbatim (a.decor.before.getD lead ++ a.key ++ a.keyAfter.getD [' '] ++ ['='])
    :: (a.value.pieces [' '] [] ++ [.verbatim (a.decor.after.getD tail)])

end Attribute

namespace Label

def written : Label → Text
  | quoted text after => Escape.quoted text ++ after.getD [' ']
  | bare text after => text ++ after.getD [' ']

end Label

mutual

def Structure.pieces : Structure → List Piece
  | .attr a => a.pieces [] []
  | .block b => b.pieces

def Block.pieces : Block → List Piece
  | ⟨decor, ident, identAfter, labels, body⟩ =>
    .verbatim (decor.before.getD [] ++ ident ++ identAfter.getD [' '] ++ labels.flatMap Label.written ++ ['{'])
      :: (body.pieces ++ [.verbatim ('}' :: decor.after.getD [])])

/-- A block body between its braces. It is written on one line if it is marked so and holds nothing that
needs lines: no structure at all, or a single attribute. -/
def Body.pieces : Body → List Piece
  | ⟨decor, items, oneLine, _⟩ =>
    .verbatim (decor.before.getD [])
      :: ((match oneLine, items with
        | true, [] => []
        | true, [.attr a] => a.pieces [' '] [' ']
        | _, _ => .verbatim ['\n'] :: linesPieces items) ++ [.verbatim (decor.after.getD [])])

/-- Structures with a line end behind each. -/
def linesPieces : List Structure → List Piece
  | [] => []
  | s :: ss => s.pieces ++ .verbatim ['\n'] :: linesPieces ss

end

/-- Structures with a line end behind each but possibly the last. -/
def openLinesPieces (openEnd : Bool) : List Structure → List Piece
  | [] => []
  | [s] => s.pieces ++ if openEnd then [] else [.verbatim ['\n']]
  | s :: t :: ss => s.pieces ++ .verbatim ['\n'] :: openLinesPieces openEnd (t :: ss)

namespace Body

/-- The pieces of the body of a whole document. -/
def documentPieces (b : Body) : List Piece :=
  .verbatim (b.decor.before.getD []) :: (openLinesPieces b.openEnd b.items ++ [.verbatim (b.decor.after.getD [])])

/-- The text of a body as a whole document. -/
def text (b : Body) : Text := render false b.documentPieces

end Body
end BackendSwitch
