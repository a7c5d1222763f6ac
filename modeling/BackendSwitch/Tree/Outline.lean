import BackendSwitch.Tree.Body

/-! What a tree says, apart from how it is laid out. An outline has a tag and parts at every node; the blank text
around the parts of a tree and the spelling of numbers do not show in it. What shows is blank text that belongs to a
sign: before a closing bracket or delimiter and inside a template marker. The main definition is `Outline.agrees`, by
which the keys of objects are compared. -/
namespace BackendSwitch
set_option autoImplicit false

/-! ## Tags -/

/-- What stands at a node of an outline. -/
inductive Tag where
  | null
  | bool (value : Bool)
  | number (value : NumberValue)
  | string (value : Text)
  | array (comma : Bool) (tail : Text)
  | object (tail : Text)
  | item (colon : Bool) (terminator : Terminator)
  | template
  | heredoc (delimiter : Text) (indent : Option Nat) (tail : Text)
  | literal (text : Text)
  | interpolation (strip : Strip)
  | branch (strip : Strip) (before : Text) (middle : Option Marker) (close : Marker)
  | loop (strip : Strip) (before : Text) (close : Marker)
  | sequence
  | parenthesis
  | variable (name : Text)
  | conditional
  | call (names : List Text) (comma : Bool) (tail : Text)
  | traversal
  | field (name : Text)
  | position (digits : Text)
  | splat
  | fullSplat
  | index
  | unary (sign : Sign)
  | binary (operator : Operator)
  | forArray
  | forObject (spread : Bool)
  | intro (first : Text) (second : Option Text)
  | test
  | name (text : Text)
deriving DecidableEq, Repr

namespace Tag

/-- The blank text that belongs to a tag. -/
def blank : Tag → Text
  | array _ tail => tail
  | object tail => tail
  | heredoc _ _ tail => tail
  | branch _ before middle close =>
    before ++ (match middle with | some m => m.before ++ m.after | none => []) ++ close.before ++ close.after
  | loop _ before close => before ++ close.before ++ close.after
  | call _ _ tail => tail
  | _ => []

def isObject : Tag → Bool
  | object _ => true
  | _ => false

/-- Whether two tags of different parts of a text agree. Blank text agrees with no other, since it is known by its place
in the text: tags agree only where both have none. -/
def agrees : Tag → Tag → Bool
  | number m, number n => m.agrees n
  | s, t => decide (s = t) && s.blank.isEmpty

end Tag

/-! ## Agreement -/

inductive Outline where
  | node (tag : Tag) (parts : List Outline)

namespace Outline

mutual

/-- Whether the outlines of two different parts of a text agree. The items of an object count in any order. -/
def agrees : Outline → Outline → Bool
  | node s ps, node t qs =>
    s.agrees t && if s.isObject then ps.length == qs.length && eachIn ps qs else allAgree ps qs

def allAgree : List Outline → List Outline → Bool
  | [], [] => true
  | p :: ps, q :: qs => agrees p q && allAgree ps qs
  | [], _ :: _ => false
  | _ :: _, [] => false

/-- Whether each item agrees with the first of the others that has its key. The key is the first part of an item. -/
def eachIn : List Outline → List Outline → Bool
  | [], _ => true
  | node _ [] :: _, _ => false
  | node s (key :: ps) :: items, others =>
    let hasKey := fun
      | node _ (key' :: _) => agrees key key'
      | node _ [] => false
    (match others.find? hasKey with
      | some (node t (_ :: qs)) => s.agrees t && allAgree ps qs
      | _ => false) && eachIn items others

end

end Outline

/-! ## Outlines of expressions -/

mutual

def Expr.outline : Expr → Outline
  | ⟨_, node⟩ => node.outline

def Node.outline : Node → Outline
  | .null => .node .null []
  | .bool b => .node (.bool b) []
  | .number n => .node (.number n.value) []
  | .string t => .node (.string t) []
  | .array items comma tail => .node (.array comma tail) (outlines items)
  | .object items tail => .node (.object tail) (itemOutlines items)
  | .template elements => .node .template (elementOutlines elements)
  | .heredoc delimiter indent elements tail => .node (.heredoc delimiter indent tail) (elementOutlines elements)
  | .parenthesis inner => .node .parenthesis [inner.outline]
  | .variable name => .node (.variable name) []
  | .conditional test yes no => .node .conditional [test.outline, yes.outline, no.outline]
  | .call names arguments ending tail =>
    .node (.call (names.map Name.text) (decide (ending = .comma)) tail) (outlines arguments)
  | .traversal base steps => .node .traversal (base.outline :: stepOutlines steps)
  | .unary sign operand => .node (.unary sign) [operand.outline]
  | .binary left operator right => .node (.binary operator) [left.outline, right.outline]
  | .forArray intro value test => .node .forArray (intro.outline :: value.outline :: testOutlines test)
  | .forObject intro key value spread test =>
    .node (.forObject spread.isSome) (intro.outline :: key.outline :: value.outline :: testOutlines test)

def ForIntro.outline : ForIntro → Outline
  | ⟨_, first, second, source⟩ => .node (.intro first.text (second.map Name.text)) [source.outline]

def testOutlines : Option Expr → List Outline
  | none => []
  | some test => [.node .test [test.outline]]

def outlines : List Expr → List Outline
  | [] => []
  | e :: es => e.outline :: outlines es

def itemOutlines : List ObjectItem → List Outline
  | [] => []
  | item :: items => item.outline :: itemOutlines items

def ObjectItem.outline : ObjectItem → Outline
  | ⟨key, colon, value, terminator⟩ => .node (.item colon terminator) [key.outline, value.outline]

def Key.outline : Key → Outline
  | .name name => .node (.name name.text) []
  | .expr e => e.outline

def stepOutlines : List Step → List Outline
  | [] => []
  | step :: steps => step.outline :: stepOutlines steps

def Step.outline : Step → Outline
  | .field _ name => .node (.field name) []
  | .position _ digits => .node (.position digits) []
  | .splat _ => .node .splat []
  | .fullSplat _ _ => .node .fullSplat []
  | .index e => .node .index [e.outline]

def elementOutlines : List Element → List Outline
  | [] => []
  | element :: elements => element.outline :: elementOutlines elements

def Element.outline : Element → Outline
  | .literal t => .node (.literal t) []
  | .interpolation strip e => .node (.interpolation strip) [e.outline]
  | .branch strip before test yes middle no close =>
    .node (.branch strip before middle close)
      [test.outline, .node .sequence (elementOutlines yes), .node .sequence (elementOutlines no)]
  | .loop strip intro body close =>
    .node (.loop strip intro.before close) (intro.outline :: elementOutlines body)

end
end BackendSwitch
