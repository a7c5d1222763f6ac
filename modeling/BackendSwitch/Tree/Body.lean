import BackendSwitch.Tree.Expr

/-! Bodies: attributes and blocks in the order in which they stand, with the blank text around them. -/
namespace BackendSwitch
set_option autoImplicit false

structure Attribute where
  decor : Decor
  key : Text
  keyAfter : Option Text
  value : Expr

/-- A label of a block, in quotes or as a bare name, with the blank text behind it. -/
inductive Label where
  | quoted (text : Text) (after : Option Text)
  | bare (text : Text) (after : Option Text)
deriving DecidableEq, Repr

namespace Label

def text : Label → Text
  | quoted text _ => text
  | bare text _ => text

end Label

mutual

structure Block where
  decor : Decor
  ident : Text
  identAfter : Option Text
  labels : List Label
  body : Body

/-- A sequence of structures. `oneLine` records that a block body was written on one line, `openEnd` that the
last structure of a document has no line end behind it. -/
structure Body where
  decor : Decor
  items : List Structure
  oneLine : Bool
  openEnd : Bool

inductive Structure where
  | attr (attr : Attribute)
  | block (block : Block)

end

namespace Structure

def decor : Structure → Decor
  | attr a => a.decor
  | block b => b.decor

def withDecor (decor : Decor) : Structure → Structure
  | attr a => .attr { a with decor := decor }
  | block b => .block { b with decor := decor }

/-- Whether this is a block with the given identifier. -/
def isBlock (ident : Text) : Structure → Bool
  | attr _ => false
  | block b => b.ident == ident

end Structure

namespace Body

def empty : Body := ⟨.bare, [], false, false⟩

def push (s : Structure) (b : Body) : Body := { b with items := b.items ++ [s] }

@[simp] theorem items_push (s : Structure) (b : Body) : (b.push s).items = b.items ++ [s] := rfl

end Body
end BackendSwitch
