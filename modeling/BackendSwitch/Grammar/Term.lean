import BackendSwitch.Grammar.Collection

/-! Terms: what an expression consists of between its operators, with the signs in front. -/
namespace BackendSwitch.Grammar
set_option autoImplicit false

/-! ## Parentheses and calls -/

def parenthesis (inner : Inner) : Reader Node := do
  Reader.char '('
  let before ← blank
  let e ← inner.expression .enclosed
  let after ← blank
  (Reader.char ')').require (.closing ')')
  return .parenthesis (e.within before after)

def argument (inner : Inner) (ctx : Context) : Reader Expr := do
  let before ← blank
  Reader.absent (Reader.oneOf fun c => c == ',' || c == '.' || c == ')')
  let e ← inner.expression ctx
  let after ← blank
  return e.within before after

def ending : Reader Ending := do
  let sign ← (Reader.oneOf fun c => c == ',' || c == '.').optional
  match sign with
  | none => return .plain
  | some '.' =>
    (Reader.word ['.', '.']).require .spread
    return .spread
  | some _ => return .comma

def arguments (inner : Inner) (ctx : Context) : Reader (List Expr × Ending) := do
  let es ← separated (argument inner ctx)
  let last ← ending
  return (es, last)

/-- Whether a name is followed by a namespace or by arguments. -/
def callAhead : Text → Bool
  | ':' :: ':' :: _ => true
  | '(' :: _ :: _ => true
  | _ => false

/-- A call, of which the first name has been read. -/
def call (inner : Inner) (ctx : Context) (first : Name) : Reader Node := do
  let more ← Reader.many do
    Reader.word [':', ':']
    nameWithin (gap ctx.newlines)
  (Reader.char '(').require .argumentsOpen
  let given ← (arguments inner { ctx with newlines := true }).optional
  let (es, last) := given.getD ([], .plain)
  let tail ← blank
  (Reader.char ')').require .argumentsClose
  return .call (first :: more) es last tail

def constant (name : Text) : Node :=
  if name = ['n', 'u', 'l', 'l'] then .null
  else if name = ['t', 'r', 'u', 'e'] then .bool true
  else if name = ['f', 'a', 'l', 's', 'e'] then .bool false
  else .variable name

/-- A call, a constant or a variable. Blank text behind the name is read only for a call. -/
def named (inner : Inner) (ctx : Context) : Reader (Node × Bool) := do
  let name ← identifier
  fun s =>
    match gap ctx.newlines s with
    | .ok after r =>
      if callAhead r then ((call inner ctx ⟨[], name, after⟩).bind fun node => Reader.pure (node, true)) r
      else .ok (constant name, ctx.newlines) s
    | _ => .soft

/-! ## Terms -/

def quoted (inner : Inner) : Reader Node :=
  Reader.or (do return .string (← quotedText)) (do return .template (← quotedTemplate inner))

/-- A term without signs, and whether newlines are white space behind it. -/
def operand (inner : Inner) (ctx : Context) : Reader (Expr × Bool) := do
  let c ← Reader.peek
  let plain (p : Reader Node) : Reader (Expr × Bool) := do return (.ofNode (← p), ctx.newlines)
  if c = '"' then plain (quoted inner)
  else if c = '[' then (do return (.ofNode (← array inner { ctx with newlines := true }), true))
  else if c = '{' then object inner ctx
  else if c.isDigit then plain (do return .number (← number))
  else if c = '<' then plain (heredoc inner)
  else if c = '-' then plain (do return .number (← negativeNumber))
  else if c = '(' then plain (parenthesis inner)
  else if Identifier.startsWith c then (do
    let (node, newlines) ← named inner ctx
    return (.ofNode node, newlines))
  else Reader.stop .expression

/-- A sign and the blank text behind it. A minus right before a number is not one: it belongs to the number. -/
def sign : Reader (Sign × Text) := do
  let c ← Reader.oneOf fun c => c == '!' || c == '-'
  let s ← inline
  if c = '!' then return (.not, s) else return (.minus, s)

def signBeforeTerm : Reader (Sign × Text) := do
  Reader.absent negativeNumber
  sign

/-- Of several signs only the last one is kept as such. The text from behind the first sign to behind the last
one becomes the blank text before the term. -/
def applySigns (e : Expr) : List (Sign × Text) → Expr
  | [] => e
  | first :: more =>
    let (last, blank) := more.foldl (fun (_, blank) (s, t) => (s, blank ++ s.symbol ++ t)) first
    (Expr.ofNode (.unary last e)).withBefore blank

def term (inner : Inner) (ctx : Context) : Reader (Expr × Bool) := do
  let signs ← Reader.many signBeforeTerm
  let (e, newlines) ← operand inner ctx
  return (applySigns e signs, newlines)

end BackendSwitch.Grammar
