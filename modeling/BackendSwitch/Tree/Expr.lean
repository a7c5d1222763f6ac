import BackendSwitch.Number.Basic

/-! Expressions and templates as trees that keep the blank text (white space and comments) around every
part, so that a tree can be written back as it was read. -/
namespace BackendSwitch
set_option autoImplicit false

/-! ## Blank text and names -/

/-- The blank text around a part of a tree. Where it is absent the printer supplies its own. -/
structure Decor where
  before : Option Text
  after : Option Text
deriving DecidableEq, Repr

namespace Decor

def bare : Decor := ⟨none, none⟩

def around (before after : Text) : Decor := ⟨some before, some after⟩

end Decor

/-- A name and the blank text around it. -/
structure Name where
  before : Text
  text : Text
  after : Text
deriving DecidableEq, Repr

/-! ## Signs of the language -/

inductive Sign where
  | minus
  | not
deriving DecidableEq, Repr

inductive Operator where
  | equal | notEqual | lessEqual | greaterEqual | less | greater
  | plus | minus | times | divide | modulo | both | either
deriving DecidableEq, Repr

/-- What ends the arguments of a call: nothing, a comma, or the dots that spread the last one. -/
inductive Ending where
  | plain
  | comma
  | spread
deriving DecidableEq, Repr

/-- What ends an item of an object. -/
inductive Terminator where
  | absent
  | newline
  | comma
deriving DecidableEq, Repr

/-- Whether the white space before and after a template marker is to be stripped. -/
structure Strip where
  before : Bool
  after : Bool
deriving DecidableEq, Repr

/-- A marker that consists of one word, such as the end of a loop. -/
structure Marker where
  strip : Strip
  before : Text
  after : Text
deriving DecidableEq, Repr

/-! ## Trees -/

mutual

structure Expr where
  decor : Decor
  node : Node

/-- An expression without the blank text around it. -/
inductive Node where
  | null
  | bool (value : Bool)
  | number (value : Numeral)
  | string (value : Text)
  | array (items : List Expr) (comma : Bool) (tail : Text)
  | object (items : List ObjectItem) (tail : Text)
  | template (elements : List Element)
  | heredoc (delimiter : Text) (indent : Option Nat) (elements : List Element) (tail : Text)
  | parenthesis (inner : Expr)
  | variable (name : Text)
  | conditional (test yes no : Expr)
  | call (names : List Name) (arguments : List Expr) (ending : Ending) (tail : Text)
  | traversal (base : Expr) (steps : List Step)
  | unary (sign : Sign) (operand : Expr)
  | binary (left : Expr) (operator : Operator) (right : Expr)
  | forArray (intro : ForIntro) (value : Expr) (test : Option Expr)
  | forObject (intro : ForIntro) (key value : Expr) (spread : Option Text) (test : Option Expr)

/-- The beginning of a `for` expression: the names it binds and what it runs over. -/
structure ForIntro where
  before : Text
  first : Name
  second : Option Name
  source : Expr

structure ObjectItem where
  key : Key
  colon : Bool
  value : Expr
  terminator : Terminator

inductive Key where
  | name (name : Name)
  | expr (expr : Expr)

/-- One step of a traversal. -/
inductive Step where
  | field (before name : Text)
  | position (before digits : Text)
  | splat (before : Text)
  | fullSplat (before after : Text)
  | index (index : Expr)

/-- A part of a template. -/
inductive Element where
  | literal (text : Text)
  | interpolation (strip : Strip) (expr : Expr)
  | branch (strip : Strip) (before : Text) (test : Expr) (yes : List Element) (middle : Option Marker)
      (no : List Element) (close : Marker)
  | loop (strip : Strip) (intro : ForIntro) (body : List Element) (close : Marker)

end

/-! ## Decorating -/

namespace Expr

def ofNode (node : Node) : Expr := ⟨.bare, node⟩

def withBefore (e : Expr) (before : Text) : Expr := { e with decor := { e.decor with before := some before } }

def withAfter (e : Expr) (after : Text) : Expr := { e with decor := { e.decor with after := some after } }

def within (e : Expr) (before after : Text) : Expr := { e with decor := .around before after }

end Expr

/-! ## Kinds -/

/-- The outermost form of an expression. -/
inductive Kind where
  | null | bool | number | string | array | object | template | heredoc | parenthesis | variable
  | conditional | call | traversal | unary | binary | forExpr
deriving DecidableEq, Repr

def Node.kind : Node → Kind
  | .null => .null
  | .bool _ => .bool
  | .number _ => .number
  | .string _ => .string
  | .array .. => .array
  | .object .. => .object
  | .template _ => .template
  | .heredoc .. => .heredoc
  | .parenthesis _ => .parenthesis
  | .variable _ => .variable
  | .conditional .. => .conditional
  | .call .. => .call
  | .traversal .. => .traversal
  | .unary .. => .unary
  | .binary .. => .binary
  | .forArray .. => .forExpr
  | .forObject .. => .forExpr

namespace Operator

def symbol : Operator → Text
  | .equal => ['=', '=']
  | .notEqual => ['!', '=']
  | .lessEqual => ['<', '=']
  | .greaterEqual => ['>', '=']
  | .less => ['<']
  | .greater => ['>']
  | .plus => ['+']
  | .minus => ['-']
  | .times => ['*']
  | .divide => ['/']
  | .modulo => ['%']
  | .both => ['&', '&']
  | .either => ['|', '|']

end Operator

namespace Sign

def symbol : Sign → Text
  | .minus => ['-']
  | .not => ['!']

end Sign
end BackendSwitch
