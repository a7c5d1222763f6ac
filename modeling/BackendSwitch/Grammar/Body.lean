import BackendSwitch.Grammar.Expression
import BackendSwitch.Tree.Body

/-! Bodies: structures one below another, blocks within blocks. A key may be set once in a body. -/
namespace BackendSwitch.Grammar
set_option autoImplicit false

/-! ## Attributes -/

/-- The value behind an equals sign. -/
def value : Reader Expr := do
  let before ← inline
  let e ← expression
  return e.withBefore before

/-! ## Blocks -/

def label : Reader Label :=
  Reader.or
    (do
      let t ← quotedText
      let after ← inline
      return .quoted t (some after))
    (do
      let t ← identifier
      let after ← inline
      return .bare t (some after))

/-- The attribute of a block that is written on one line. -/
def lineAttribute : Reader Structure := do
  let before ← inline
  let key ← identifier
  let keyAfter ← inline
  (Reader.char '=').require .attributeSign
  let e ← value
  let after ← inline
  return .attr ⟨.around before after, key, some keyAfter, e⟩

def lineBody : Reader Body := do
  let item ← lineAttribute.optional
  let after ← inline
  return ⟨⟨none, some after⟩, item.toList, true, false⟩

def blockBody (body : Reader Body) : Reader Body := do
  (Reader.char '{').require .blockOpen
  let b ← Reader.or
    (do
      let before ← trailing
      let _ ← newline
      let b ← body
      return { b with decor := { b.decor with before := some before } })
    lineBody
  (Reader.char '}').require .blockBody
  return b

/-! ## Structures -/

/-- What follows an identifier: the value of an attribute, or labels and the body of a block. `taken` tells
whether the identifier is a key already, `start` is the text from the identifier on. -/
def afterIdentifier (body : Reader Body) (taken : Bool) (start ident identAfter : Text) :
    Reader (Decor → Structure) := do
  let c ← Reader.peek
  if c = '=' then
    if taken then (fun _ => .hard .repeatedKey start)
    else (do
      Reader.char '='
      let e ← value
      return fun decor => .attr ⟨decor, ident, some identAfter, e⟩)
  else if c = '{' || c = '"' || Identifier.startsWith c then (do
    let labels ← Reader.many label
    let b ← blockBody body
    return fun decor => .block ⟨decor, ident, some identAfter, labels, b⟩)
  else Reader.stop .structureStart

/-- A structure with the blank text around it, and whether it ended with the text; `used` are the keys that are
taken. -/
def structureLine (body : Reader Body) (used : List Text) : Reader (Structure × Bool) := do
  let before ← blank
  let build ← (fun start => Reader.bind identifier (fun ident => Reader.bind inline (fun identAfter =>
    afterIdentifier body (used.contains ident) start ident identAfter)) start : Reader (Decor → Structure))
  let after ← trailing
  let ended ← lineEnd.require .lineEnd
  return (build (.around before after), ended)

/-- Structures up to the first soft failure, and whether the last of them ended with the text. -/
def structures (body : Reader Body) : Nat → List Text → Bool → Reader (List Structure × Bool)
  | 0, _, ended => Reader.pure ([], ended)
  | n + 1, used, ended => fun s =>
    match structureLine body used s with
    | .ok (item, ended') r =>
      let used' := match item with | .attr a => a.key :: used | .block _ => used
      ((structures body n used' ended').bind fun (items, last) => Reader.pure (item :: items, last)) r
    | .soft => .ok ([], ended) s
    | .hard c r => .hard c r

def bodyFrom (body : Reader Body) : Reader Body := fun s =>
  Reader.bind (structures body (s.length + 1) [] false)
    (fun (items, ended) => do
      let after ← blank
      return ⟨⟨none, some after⟩, items, false, ended⟩) s

/-- A body with at most `n` levels of blocks. -/
def bodyLevel : Nat → Reader Body
  | 0 => Reader.fail
  | n + 1 => fun s => bodyFrom (bodyLevel n) s

/-- A body that takes up the whole text. Each block has a character of its own, so there are fewer levels than
characters. -/
def document : Reader Body := fun s =>
  Reader.bind (bodyLevel (s.length + 1))
    (fun b t =>
      match t with
      | [] => .ok b []
      | t => .hard .unexpectedToken t) s

end BackendSwitch.Grammar
