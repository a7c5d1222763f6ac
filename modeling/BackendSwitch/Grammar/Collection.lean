import BackendSwitch.Grammar.Template
import BackendSwitch.Tree.Object

/-! Arrays and objects, each either listed or built by a loop. A loop is recognised by its first word, before anything
of it is read. -/
namespace BackendSwitch.Grammar
set_option autoImplicit false

/-! ## Brackets -/

/-- Looks ahead for the word `for` with something behind it that ends the word. -/
def loopAhead : Reader Bool := fun s =>
  match blank s with
  | .ok _ r =>
    match r with
    | 'f' :: 'o' :: 'r' :: c :: _ => .ok (isSpace c || c == '#' || c == '/' || c == '\n') s
    | _ => .ok false s
  | _ => .ok false s

def loopTest (inner : Inner) (ctx : Context) : Reader Expr := do
  Reader.word ['i', 'f']
  let before ← blank
  let test ← inner.expression ctx
  let after ← blank
  return test.within before after

def bracketIntro (inner : Inner) : Reader ForIntro := do
  let before ← blank
  let intro ← loopIntro inner before
  (Reader.char ':').require .colon
  return intro

def forArray (inner : Inner) (ctx : Context) : Reader Node := do
  let intro ← bracketIntro inner
  let before ← blank
  let value ← inner.expression ctx
  let after ← blank
  let test ← (loopTest inner ctx).optional
  return .forArray intro (value.within before after) test

def arrayItem (inner : Inner) (ctx : Context) : Reader Expr := do
  let before ← blank
  Reader.absent (Reader.char ']')
  let e ← inner.expression ctx
  let after ← blank
  return e.within before after

/-- One or more expressions with commas between them. -/
def separated (item : Reader Expr) : Reader (List Expr) := do
  let first ← item
  let more ← Reader.many do
    Reader.char ','
    item
  return first :: more

def plainArray (inner : Inner) (ctx : Context) : Reader Node := do
  let items ← (separated (arrayItem inner ctx)).optional
  let comma ← Reader.flag ','
  let tail ← blank
  return .array (items.getD []) comma tail

def array (inner : Inner) (ctx : Context) : Reader Node := do
  Reader.char '['
  let isLoop ← loopAhead
  let node ← if isLoop then forArray inner ctx else plainArray inner ctx
  (Reader.char ']').require (.closing ']')
  return node

/-! ## Braces -/

/-- A loop that builds an object. The blank text behind the dots belongs to the test; where there is none, it
moves behind the whole expression. -/
def forObject (inner : Inner) (ctx : Context) : Reader Expr := do
  let intro ← bracketIntro inner
  let keyBefore ← blank
  let key ← inner.expression .fresh
  let keyAfter ← blank
  (Reader.word ['=', '>']).require .arrow
  let valueBefore ← blank
  let value ← inner.expression .fresh
  let valueAfter ← blank
  let spread ← Reader.optional do
    Reader.word ['.', '.', '.']
    blank
  let test ← (loopTest inner ctx).optional
  let node := fun spread =>
    Node.forObject intro (key.within keyBefore keyAfter) (value.within valueBefore valueAfter) spread test
  return match spread, test with
    | some tail, none => (Expr.ofNode (node (some []))).withAfter tail
    | spread, _ => .ofNode (node spread)

def itemKey (inner : Inner) : Reader Key := do
  let before ← blank
  Reader.absent (Reader.char '}')
  let e ← inner.expression .fresh
  let after ← inline
  return match e.node with
    | .variable name => .name ⟨before, name, after⟩
    | _ => .expr (e.within before after)

/-- The sign between key and value; tells whether it is a colon. A wrong character counts as read. -/
def itemSign : Reader Bool := fun s =>
  match s with
  | [] => .soft
  | '=' :: r => .ok false r
  | ':' :: r => .ok true r
  | _ :: r => .hard .itemSign r

/-- What ends an item of an object: the closing brace, which is left, or a line end or a comma. A comment before
the line end comes along. -/
def itemEnd : Reader (Text × Terminator) := fun s =>
  match s with
  | [] => .soft
  | '}' :: r => .ok ([], .absent) ('}' :: r)
  | ',' :: r => .ok ([], .comma) r
  | c :: r =>
    if c == '\n' || c == '\r' then (newline.bind fun _ => Reader.pure ([], .newline)) (c :: r)
    else if c == '#' || c == '/' then
      (lineComment.bind fun comment => newline.bind fun _ => Reader.pure (comment, .newline)) (c :: r)
    else .hard .itemEnd s

def objectItem (inner : Inner) : Reader ObjectItem := do
  let key ← itemKey inner
  let colon ← itemSign
  let before ← inline
  let value ← inner.expression .fresh
  let after ← inline
  let (comment, terminator) ← itemEnd
  return ⟨key, colon, value.within before (after ++ comment), terminator⟩

def plainObject (inner : Inner) : Reader Expr := do
  let items ← Reader.many (objectItem inner)
  let tail ← blank
  Reader.absent (Reader.absent (Reader.char '}'))
  return .ofNode (.object (ObjectItem.merge items) tail)

/-- An object or a loop that builds one, with what it makes of newlines behind it. -/
def object (inner : Inner) (ctx : Context) : Reader (Expr × Bool) := do
  Reader.char '{'
  let isLoop ← loopAhead
  let newlines := ctx.newlines || isLoop
  let e ← if isLoop then forObject inner { ctx with newlines := true } else plainObject inner
  closeMarker
  return (e, newlines)

end BackendSwitch.Grammar
