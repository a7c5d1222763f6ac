import BackendSwitch.Grammar.Literal
import BackendSwitch.Tree.Indentation

/-! Templates: text with interpolations, branches and loops, in quotes or in a heredoc. Expressions and templates
contain each other, so the readers here take those of the next level as an argument. -/
namespace BackendSwitch.Grammar
set_option autoImplicit false

/-- Where an expression stands: whether newlines are white space there, and whether it belongs to the right side
of a binary operator. -/
structure Context where
  newlines : Bool
  operand : Bool
deriving DecidableEq, Repr

namespace Context

/-- The context of an expression that depends on nothing around it. -/
def fresh : Context := ⟨false, false⟩

/-- The context of an expression in brackets of its own. -/
def enclosed : Context := ⟨true, false⟩

end Context

/-- The readers for what is nested one level deeper. -/
structure Inner where
  expression : Context → Reader Expr
  template : Reader (List Element)

/-! ## Template parts -/

def closeMarker : Reader Unit := (Reader.char '}').require (.closing '}')

def interpolation (inner : Inner) : Reader Element := do
  Reader.word ['$', '{']
  let stripBefore ← Reader.flag '~'
  let before ← blank
  let e ← inner.expression .enclosed
  let after ← blank
  let stripAfter ← Reader.flag '~'
  closeMarker
  return .interpolation ⟨stripBefore, stripAfter⟩ (e.within before after)

/-- A marker with a single word, which the second reader reads. -/
def wordMarker (w : Reader Unit) : Reader Marker := do
  Reader.word ['%', '{']
  let stripBefore ← Reader.flag '~'
  let before ← blank
  w
  let after ← blank
  let stripAfter ← Reader.flag '~'
  closeMarker
  return ⟨⟨stripBefore, stripAfter⟩, before, after⟩

def branch (inner : Inner) : Reader Element := do
  Reader.word ['%', '{']
  let stripBefore ← Reader.flag '~'
  let before ← blank
  Reader.word ['i', 'f']
  let testBefore ← blank
  let test ← inner.expression .fresh
  let testAfter ← blank
  let stripAfter ← Reader.flag '~'
  closeMarker
  let yes ← inner.template
  let otherwise ← Reader.optional do
    let middle ← wordMarker (Reader.word ['e', 'l', 's', 'e'])
    let no ← inner.template
    return (middle, no)
  let close ← wordMarker ((Reader.word ['e', 'n', 'd', 'i', 'f']).require .branchEnd)
  return .branch ⟨stripBefore, stripAfter⟩ before (test.within testBefore testAfter) yes
    (otherwise.map Prod.fst) ((otherwise.map Prod.snd).getD []) close

/-- The names a loop binds and what it runs over, from the word `for` on. -/
def loopIntro (inner : Inner) (before : Text) : Reader ForIntro := do
  Reader.word ['f', 'o', 'r']
  let first ← nameWithin blank
  let second ← Reader.optional do
    Reader.char ','
    nameWithin blank
  (Reader.word ['i', 'n']).require .loopIn
  let sourceBefore ← blank
  let source ← inner.expression .fresh
  let sourceAfter ← blank
  return ⟨before, first, second, source.within sourceBefore sourceAfter⟩

def loop (inner : Inner) : Reader Element := do
  Reader.word ['%', '{']
  let stripBefore ← Reader.flag '~'
  let before ← blank
  let intro ← loopIntro inner before
  let stripAfter ← Reader.flag '~'
  closeMarker
  let body ← inner.template
  let close ← wordMarker ((Reader.word ['e', 'n', 'd', 'f', 'o', 'r']).require .loopEnd)
  return .loop ⟨stripBefore, stripAfter⟩ intro body close

/-- A part of a template that is not literal text. -/
def templatePart (inner : Inner) : Reader Element :=
  ((interpolation inner).or (branch inner)).or (loop inner)

/-! ## Templates in quotes -/

def quotedTemplate (inner : Inner) : Reader (List Element) := do
  Reader.char '"'
  let elements ← Reader.many ((do return Element.literal (← fragments)).or (templatePart inner))
  Reader.char '"'
  return elements

/-! ## Templates in plain text -/

/-- Text up to the next marker, or up to a place where the text is to stop. Doubled marker signs are undone;
nothing else is special. -/
def rawRun (stop : Text → Bool) : Text → Text × Text
  | [] => ([], [])
  | c :: r =>
    if stop (c :: r) then ([], c :: r)
    else if Escape.opensMarker (c :: r) then ([], c :: r)
    else
      match r with
      | d :: e :: rest =>
        if Escape.isMarkerSign c && c == d && e == '{' then
          let (t, s) := rawRun stop rest
          (c :: '{' :: t, s)
        else
          let (t, s) := rawRun stop (d :: e :: rest)
          (c :: t, s)
      | r =>
        let (t, s) := rawRun stop r
        (c :: t, s)

/-- Literal text outside quotes, at least one character. -/
def rawText (stop : Text → Bool) : Reader Element := fun s =>
  match rawRun stop s with
  | ([], _) => .soft
  | (t, r) => .ok (.literal t) r

/-- Text and markers up to where the text is to stop or a marker has no part of a template behind it. -/
def plainTemplate (inner : Inner) (stop : Text → Bool) : Reader (List Element) :=
  Reader.many ((rawText stop).or (templatePart inner))

/-- The template inside a branch or a loop. -/
def nestedTemplate (inner : Inner) : Reader (List Element) := plainTemplate inner fun _ => false

/-! ## Heredocs -/

/-- Whether a line end is next and the line after it begins with the delimiter, perhaps indented. -/
def atDelimiter (delimiter s : Text) : Bool :=
  match newline s with
  | .ok _ r => (Text.strip? delimiter (r.dropWhile isSpace)).isSome
  | _ => false

/-- Appends to the literal at the end of a template, or adds one. -/
def appendLiteral (t : Text) : List Element → List Element
  | [] => [.literal t]
  | [.literal s] => [.literal (s ++ t)]
  | e :: es => e :: appendLiteral t es

/-- The body of a heredoc with its last line end. A text in which no such body is found counts as empty. -/
def heredocBody (inner : Inner) (delimiter : Text) : Reader (List Element) := do
  let body ← Reader.optional do
    let elements ← plainTemplate inner (atDelimiter delimiter)
    let final ← newline
    return appendLiteral final elements
  return body.getD []

def heredoc (inner : Inner) : Reader Node := do
  Reader.word ['<', '<']
  let indented ← Reader.flag '-'
  let delimiter ← identifier.require .name
  let _ ← newline.require .heredocLine
  let elements ← heredocBody inner delimiter
  let tail ← Reader.span isSpace
  (Reader.word delimiter).require .heredocDelimiter
  let indent := if indented then Indentation.measure? elements else none
  return match indent with
    | some n => .heredoc delimiter (some n) (Indentation.remove n false elements) tail
    | none => .heredoc delimiter none elements tail

end BackendSwitch.Grammar
