import BackendSwitch.Grammar.Reader
import BackendSwitch.Text.Identifier
import BackendSwitch.Tree.Expr

/-! White space, comments, line ends and names. -/
namespace BackendSwitch.Grammar
set_option autoImplicit false

/-! ## Comments -/

/-- Text up to and with the first `*/`. -/
def throughCommentEnd : Text → Option (Text × Text)
  | [] => none
  | '*' :: '/' :: r => some (['*', '/'], r)
  | c :: r => (throughCommentEnd r).map fun (t, rest) => (c :: t, rest)

/-- Text before the next line end or the end of the text. A carriage return must belong to a line end. -/
def beforeLineEnd : Text → Option (Text × Text)
  | [] => some ([], [])
  | '\n' :: r => some ([], '\n' :: r)
  | '\r' :: '\n' :: r => some ([], '\r' :: '\n' :: r)
  | '\r' :: _ => none
  | c :: r => (beforeLineEnd r).map fun (t, rest) => (c :: t, rest)

def inlineComment : Reader Text := fun s =>
  match s with
  | '/' :: '*' :: r =>
    match throughCommentEnd r with
    | some (t, rest) => .ok ('/' :: '*' :: t) rest
    | none => .soft
  | _ => .soft

def lineComment : Reader Text := fun s =>
  match s with
  | '#' :: r =>
    match beforeLineEnd r with
    | some (t, rest) => .ok ('#' :: t) rest
    | none => .soft
  | '/' :: '/' :: r =>
    match beforeLineEnd r with
    | some (t, rest) => .ok ('/' :: '/' :: t) rest
    | none => .soft
  | _ => .soft

/-! ## Blank text -/

def isSpace (c : Char) : Bool := c == ' ' || c == '\t'

def isWhite (c : Char) : Bool := c == ' ' || c == '\t' || c == '\n' || c == '\r'

/-- White space with comments between, as far as it goes. -/
def blankOf (space : Char → Bool) (comment : Reader Text) : Reader Text := do
  let first ← .span space
  let more ← Reader.many do
    let c ← comment
    let s ← .span space
    return c ++ s
  return first ++ more.flatten

/-- Blank text within a line. -/
def inline : Reader Text := blankOf isSpace inlineComment

/-- Blank text that may go over several lines. -/
def blank : Reader Text := blankOf isWhite (lineComment.or inlineComment)

/-- Blank text where newlines count as white space or not. -/
def gap (newlines : Bool) : Reader Text := if newlines then blank else inline

def newline : Reader Text := fun s =>
  match s with
  | '\n' :: r => .ok ['\n'] r
  | '\r' :: '\n' :: r => .ok ['\r', '\n'] r
  | _ => .soft

/-- A line end or the end of the text; tells whether it was the end of the text. -/
def lineEnd : Reader Bool := fun s =>
  match s with
  | [] => .ok true []
  | '\n' :: r => .ok false r
  | '\r' :: '\n' :: r => .ok false r
  | _ => .soft

/-- What may stand behind a structure on its line. -/
def trailing : Reader Text := do
  let s ← inline
  let c ← lineComment.optional
  return s ++ c.getD []

/-! ## Names -/

def identifier : Reader Text := fun s =>
  match s with
  | [] => .soft
  | c :: r =>
    if Identifier.startsWith c then
      .ok (c :: r.takeWhile Identifier.extendsWith) (r.dropWhile Identifier.extendsWith)
    else .soft

/-- A name that must be there, with blank text around it. -/
def nameWithin (space : Reader Text) : Reader Name := do
  let before ← space
  let text ← identifier.require .name
  let after ← space
  return ⟨before, text, after⟩

end BackendSwitch.Grammar
