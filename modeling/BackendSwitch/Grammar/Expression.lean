import BackendSwitch.Grammar.Term

/-! Expressions: a term and what follows it. There is no precedence: the right side of a binary operator takes all that
follows. What stands inside an expression is read by the readers of the next level. -/
namespace BackendSwitch.Grammar
set_option autoImplicit false

/-! ## Traversals and operators -/

/-- A position without leading zeros and of at most 64 bits. -/
def position : Reader Text := fun s =>
  match s with
  | '0' :: r => .ok ['0'] r
  | _ => (digits.bind fun ds => if ofDigits ds ≤ NumberValue.maxWhole then Reader.pure ds else Reader.fail) s

def dotStep : Reader Step := do
  Reader.char '.'
  let before ← blank
  let c ← Reader.peek
  if c = '*' then (do
    Reader.char '*'
    return .splat before)
  else if c.isDigit then (do return .position before (← position))
  else if Identifier.startsWith c then (do return .field before (← identifier))
  else Reader.stop .traversalStep

def fullSplat (before : Text) : Reader Step := do
  Reader.char '*'
  let after ← blank
  return .fullSplat before after

def index (inner : Inner) (before : Text) : Reader Step := do
  let e ← inner.expression .enclosed
  let after ← blank
  return .index (e.within before after)

def bracketStep (inner : Inner) : Reader Step := do
  Reader.char '['
  let before ← blank
  let step ← (fullSplat before).or (index inner before)
  (Reader.char ']').require (.closing ']')
  return step

def step (inner : Inner) (newlines : Bool) : Reader Step := do
  let _ ← gap newlines
  Reader.absent (Reader.word ['.', '.'])
  dotStep.or (bracketStep inner)

def steps (inner : Inner) (newlines : Bool) : Reader (List Step) := do
  let first ← step inner newlines
  let more ← Reader.many (step inner newlines)
  return first :: more

def operator : Reader Operator := fun s =>
  match s with
  | '=' :: '=' :: r => .ok .equal r
  | '!' :: '=' :: r => .ok .notEqual r
  | '<' :: '=' :: r => .ok .lessEqual r
  | '>' :: '=' :: r => .ok .greaterEqual r
  | '&' :: '&' :: r => .ok .both r
  | '|' :: '|' :: r => .ok .either r
  | '<' :: r => .ok .less r
  | '>' :: r => .ok .greater r
  | '+' :: r => .ok .plus r
  | '-' :: r => .ok .minus r
  | '*' :: r => .ok .times r
  | '/' :: r => .ok .divide r
  | '%' :: r => .ok .modulo r
  | _ => .soft

/-- How an expression may go on. -/
inductive Continuation where
  | traversal
  | conditional
  | operator
deriving DecidableEq, Repr

/-- Tells from the next two characters how an expression goes on, if it does. -/
def continuation? (conditionals : Bool) : Text → Option Continuation
  | c :: d :: _ =>
    if c == '/' && (d == '/' || d == '*') then none
    else if c == '.' && d == '.' then none
    else if c == '.' || c == '[' then some .traversal
    else if c == '?' then if conditionals then some .conditional else none
    else if c == '=' && d == '=' then some .operator
    else if ['!', '<', '>', '+', '-', '*', '/', '%', '&', '|'].contains c then some .operator
    else none
  | _ => none

def rightSide (inner : Inner) (ctx : Context) : Reader Expr := do
  let before ← gap ctx.newlines
  let e ← inner.expression ctx
  return e.withBefore before

def conditional (inner : Inner) (ctx : Context) (test : Expr) : Reader Expr := do
  Reader.char '?'
  let yes ← rightSide inner ctx
  let after ← gap ctx.newlines
  (Reader.char ':').require .colon
  let no ← rightSide inner ctx
  return .ofNode (.conditional test (yes.withAfter after) no)

/-- What follows a term: traversals, operators and at the end perhaps a conditional. Blank text that turns out to
stand before none of these is not read. -/
def extend (inner : Inner) (conditionals : Bool) : Nat → Context → Expr → Reader Expr
  | 0, _, e => Reader.pure e
  | n + 1, ctx, e => fun s =>
    match gap ctx.newlines s with
    | .ok after r =>
      match continuation? conditionals r with
      | none => .ok e s
      | some .traversal =>
        ((steps inner ctx.newlines).bind fun more =>
          extend inner conditionals n ctx (.ofNode (.traversal (e.withAfter after) more))) r
      | some .conditional => conditional inner ctx (e.withAfter after) r
      | some .operator =>
        (operator.bind fun op =>
          (rightSide inner { ctx with operand := true }).bind fun right =>
            extend inner conditionals n { ctx with operand := true } (.ofNode (.binary (e.withAfter after) op right))) r
    | _ => .soft

/-! ## Levels -/

/-- An expression whose parts are read one level deeper. -/
def expressionFrom (inner : Inner) (ctx : Context) : Reader Expr := do
  let (e, newlines) ← term inner ctx
  fun s => extend inner (!ctx.operand) (s.length + 1) { ctx with newlines := newlines } e s

/-- The readers for at most `n` levels. -/
def level : Nat → Inner
  | 0 => ⟨fun _ => Reader.fail, Reader.fail⟩
  | n + 1 => ⟨fun ctx s => expressionFrom (level n) ctx s, fun s => nestedTemplate (level n) s⟩

/-- An expression. Each level of nesting has a character of its own, so there are fewer levels than characters. -/
def expression : Reader Expr := fun s => (level (s.length + 1)).expression .fresh s

end BackendSwitch.Grammar
