import BackendSwitch.Grammar.Body
import BackendSwitch.Proofs.Reading.Expression

/-! # Where a text is kept

Not every text is written back as it was. The reader takes a line end with a carriage return for a plain one, forgets which
characters were escaped, and drops some blank text, some signs and repeated keys. The conditions here follow the readers
through a text, and where one of them has read something of that kind, what it read is compared with what is written for it.
Nothing is asked of text that no reader looks at in this way, such as the text of a comment. -/
namespace BackendSwitch
set_option autoImplicit false

/-! ## Conditions on what is read -/

namespace Reader

variable {α : Type}

/-- A condition on what is read from a place and on the text behind it. Where nothing is read, it holds. -/
def passes (p : Reader α) (check : α → Text → Bool) (s : Text) : Bool :=
  match p s with
  | .ok a r => check a r
  | _ => true

/-- A condition on a place, and one on the place behind what is read there. -/
def both (p : Reader α) (here behind : Text → Bool) (s : Text) : Bool := here s && p.passes (fun _ => behind) s

/-- A condition on each of the first `n` places from which the same reader reads one time after the other. -/
def eachKept (p : Reader α) (kept : Text → Bool) : Nat → Text → Bool
  | 0, _ => true
  | n + 1, s => p.both kept (eachKept p kept n) s

/-- A condition on each place from which one value of a repetition is read. -/
def manyKept (p : Reader α) (kept : Text → Bool) (s : Text) : Bool :=
  (many p).passes (fun as _ => eachKept p kept as.length s) s

/-- What a reader reads from a place that is kept is written as it stands there. -/
def Keeps (p : Reader α) (kept : Text → Bool) (written : α → Text) : Prop :=
  ∀ s a r, p s = .ok a r → kept s = true → s = written a ++ r

variable {p : Reader α} {s r : Text}

theorem passes_of_ok {check : α → Text → Bool} {a : α} (h : p s = .ok a r) : p.passes check s = check a r := by
  simp only [passes, h]

theorem both_of_ok {here behind : Text → Bool} {a : α} (h : p s = .ok a r) :
    p.both here behind s = true ↔ here s = true ∧ behind r = true := by
  rw [both, passes_of_ok h, Bool.and_eq_true]

variable {kept : Text → Bool} {written : α → Text}

theorem Keeps.upTo (h : p.Keeps kept written) {n : Nat} {as : List α} (hread : Reader.upTo n p s = .ok as r)
    (hkept : eachKept p kept as.length s = true) : s = as.flatMap written ++ r := by
  induction as generalizing n s with
  | nil => exact (upTo_eq_nil hread).symm
  | cons a as ih =>
    obtain ⟨m, u, hfirst, hrest⟩ := upTo_eq_cons hread
    obtain ⟨hhere, hbehind⟩ := (both_of_ok hfirst).mp hkept
    rw [h s a u hfirst hhere, ih hrest hbehind, List.flatMap_cons, List.append_assoc]

theorem Keeps.many (h : p.Keeps kept written) :
    (Reader.many p).Keeps (p.manyKept kept) (List.flatMap written) := by
  intro s as r hread hkept
  obtain ⟨n, hup⟩ := exists_upTo_of_many hread
  rw [manyKept, passes_of_ok hread] at hkept
  exact h.upTo hup hkept

theorem eachKept_true (p : Reader α) (n : Nat) (s : Text) : p.eachKept (fun _ => true) n s = true := by
  induction n generalizing s with
  | zero => rfl
  | succ n ih =>
    rw [eachKept, both, Bool.true_and, passes]
    split
    · exact ih _
    · rfl

theorem manyKept_true (p : Reader α) (s : Text) : p.manyKept (fun _ => true) s = true := by
  rw [manyKept, passes]
  split
  · exact eachKept_true p _ _
  · rfl

end Reader

namespace Grammar

/-! ## Literals -/

/-- A line end is kept if it is a line feed. -/
def newlineKept : Text → Bool := newline.passes fun v _ => decide (v = ['\n'])

/-- Quoted text is kept if it is escaped as the printer does it. -/
def quotedTextKept (s : Text) : Bool := quotedText.passes (fun u r => decide (s = Escape.quoted u ++ r)) s

/-- Literal text outside quotes is kept if just its markers are doubled. -/
def rawTextKept (stop : Text → Bool) (s : Text) : Bool :=
  (rawText stop).passes (fun el r => decide (s = el.text ++ r)) s

/-! ## Templates -/

/-- The readers for what is nested one level deeper, with the places that they keep. -/
structure Keeper extends Inner where
  expressionKept : Context → Text → Bool
  templateKept : Text → Bool

variable (k : Keeper)

/-- An expression with blank text around it is kept, and so is what comes behind it. -/
def enclosedKept (x y : Bool) (ctx : Context) (behind : Text → Bool) : Text → Bool :=
  (gap x).passes fun _ => (k.expression ctx).both (k.expressionKept ctx) ((gap y).passes fun _ => behind)

def interpolationKept : Text → Bool :=
  (Reader.word ['$', '{']).passes fun _ => (Reader.flag '~').passes fun _ =>
    enclosedKept k true true .enclosed fun _ => true

def branchKept : Text → Bool :=
  (Reader.word ['%', '{']).passes fun _ => (Reader.flag '~').passes fun _ => blank.passes fun _ =>
    (Reader.word ['i', 'f']).passes fun _ => enclosedKept k true true .fresh <|
      (Reader.flag '~').passes fun _ => closeMarker.passes fun _ => k.template.both k.templateKept <|
        (wordMarker (Reader.word ['e', 'l', 's', 'e'])).passes fun _ => k.templateKept

def loopIntroKept : Text → Bool :=
  (Reader.word ['f', 'o', 'r']).passes fun _ => (nameWithin blank).passes fun _ =>
    (Reader.optional do
      Reader.char ','
      nameWithin blank).passes fun _ =>
      (Reader.word ['i', 'n']).passes fun _ => enclosedKept k true true .fresh fun _ => true

def loopKept : Text → Bool :=
  (Reader.word ['%', '{']).passes fun _ => (Reader.flag '~').passes fun _ => blank.passes fun before =>
    (loopIntro k.toInner before).both (loopIntroKept k) <|
      (Reader.flag '~').passes fun _ => closeMarker.passes fun _ => k.templateKept

/-- At most one of the three reads something from a place. -/
def templatePartKept (s : Text) : Bool := interpolationKept k s && branchKept k s && loopKept k s

def plainTemplateKept (stop : Text → Bool) : Text → Bool :=
  Reader.manyKept ((rawText stop).or (templatePart k.toInner)) fun s => rawTextKept stop s && templatePartKept k s

/-! ## Templates in quotes -/

def quotedPart (inner : Inner) : Reader Element := (do return Element.literal (← fragments)).or (templatePart inner)

/-- A literal is kept if it is escaped as the printer does it there, and any other part if it is written as it is on its
own. Behind a quoted template within the template, the printer escapes no literals any more. -/
def quotedPartsKept : Nat → Bool → Text → Bool
  | 0, _, _ => true
  | n + 1, escaping, s => (quotedPart k.toInner).passes
      (fun el r => (if el.isLiteral then decide (s = render escaping el.pieces ++ r)
        else templatePartKept k s && decide (render escaping el.pieces = el.text)) &&
          quotedPartsKept n (escapingAfter escaping el.pieces) r) s

def quotedTemplateKept (s : Text) : Bool :=
  (quotedTemplate k.toInner).passes
    (fun es _ => (Reader.char '"').passes (fun _ => quotedPartsKept k es.length true) s) s

/-- Quoted text without parts is read as such, and else as a template. -/
def quotedKept (s : Text) : Bool := quotedTextKept s && quotedTemplateKept k s

/-! ## Heredocs -/

/-- The body of a heredoc is kept if there is one. -/
def heredocBodyKept (delimiter s : Text) : Bool :=
  (plainTemplate k.toInner (atDelimiter delimiter)).passes
    (fun _ => newline.passes fun _ _ => plainTemplateKept k (atDelimiter delimiter) s) s

/-- Whether a template has a margin, and taking it away and putting it back changes nothing. -/
def keepsMargin (elements : List Element) : Bool :=
  match Indentation.measure? elements with
  | none => false
  | some n =>
    decide (indentBy n ((Indentation.remove n false elements).flatMap Element.text) = elements.flatMap Element.text)

def heredocKept : Text → Bool :=
  (Reader.word ['<', '<']).passes fun _ => (Reader.flag '-').passes fun indented => identifier.passes fun delimiter =>
    newline.both newlineKept fun s => heredocBodyKept k delimiter s &&
      (heredocBody k.toInner delimiter).passes (fun elements _ => !indented || keepsMargin elements) s

/-! ## Arrays -/

def listItemKept (ctx : Context) : Text → Bool := blank.passes fun _ => k.expressionKept ctx

def separatedKept (item : Reader Expr) (kept : Text → Bool) : Text → Bool :=
  item.both kept <| Reader.manyKept (do
      Reader.char ','
      item) <| (Reader.char ',').passes fun _ => kept

def loopTestKept (ctx : Context) : Text → Bool :=
  (Reader.word ['i', 'f']).passes fun _ => enclosedKept k true true ctx fun _ => true

def bracketIntroKept : Text → Bool := blank.passes fun _ => loopIntroKept k

def forArrayKept (ctx : Context) : Text → Bool :=
  (bracketIntro k.toInner).both (bracketIntroKept k) <| enclosedKept k true true ctx <| loopTestKept k ctx

def plainArrayKept (ctx : Context) : Text → Bool := separatedKept (arrayItem k.toInner ctx) (listItemKept k ctx)

def arrayKept (ctx : Context) : Text → Bool :=
  (Reader.char '[').passes fun _ => loopAhead.passes fun isLoop =>
    if isLoop then forArrayKept k ctx else plainArrayKept k ctx

/-! ## Objects -/

/-- The end of an item is kept if a line end in it is a line feed. -/
def itemEndKept (s : Text) : Bool := itemEnd.passes (fun x r => decide (s = x.1 ++ x.2.symbol ++ r)) s

def objectItemKept : Text → Bool :=
  enclosedKept k true false .fresh <| itemSign.passes fun _ => enclosedKept k false false .fresh itemEndKept

/-- The items of an object are kept if none of their keys is repeated. -/
def plainObjectKept (s : Text) : Bool :=
  Reader.manyKept (objectItem k.toInner) (objectItemKept k) s &&
    (Reader.many (objectItem k.toInner)).passes (fun items _ => decide ((ObjectItem.merge items).length = items.length)) s

/-- Blank text behind the dots of a loop is not kept if no test comes behind it. -/
def forObjectKept (ctx : Context) (s : Text) : Bool :=
  (bracketIntro k.toInner).both (bracketIntroKept k)
    (enclosedKept k true true .fresh <| (Reader.word ['=', '>']).passes fun _ => enclosedKept k true true .fresh <|
      spreadDots.passes fun _ => loopTestKept k ctx) s &&
    (forObject k.toInner ctx).passes (fun e _ => decide (e.decor.tail = [])) s

def objectKept (ctx : Context) : Text → Bool :=
  (Reader.char '{').passes fun _ => loopAhead.passes fun isLoop =>
    if isLoop then forObjectKept k { ctx with newlines := true } else plainObjectKept k

/-! ## Terms -/

def parenthesisKept : Text → Bool :=
  (Reader.char '(').passes fun _ => enclosedKept k true true .enclosed fun _ => true

def argumentsKept (ctx : Context) : Text → Bool := separatedKept (argument k.toInner ctx) (listItemKept k ctx)

/-- A call is kept if its arguments are. -/
def callKept (ctx : Context) : Text → Bool :=
  (Reader.many do
    Reader.word [':', ':']
    nameWithin (gap ctx.newlines)).passes fun _ =>
      (Reader.char '(').passes fun _ => argumentsKept k { ctx with newlines := true }

def namedKept (ctx : Context) : Text → Bool :=
  identifier.passes fun _ => (gap ctx.newlines).passes fun _ => callKept k ctx

/-- The kinds of operands differ in the first character. Numbers are always kept. -/
def operandKept (ctx : Context) (s : Text) : Bool :=
  quotedKept k s && arrayKept k { ctx with newlines := true } s && objectKept k ctx s && heredocKept k s &&
    parenthesisKept k s && namedKept k ctx s

/-- The text of some signs with the blank text behind each. -/
def signsText (signs : List (Sign × Text)) : Text := signs.flatMap fun x => x.1.symbol ++ x.2

/-- Whether an expression goes on at a place. -/
def goesOn (conditionals newlines : Bool) : Text → Bool :=
  (gap newlines).passes fun _ r => (continuation? conditionals r).isSome

/-- The text of a term that was read with some signs in front of it. Its blank text is written where the expression goes on,
and else gives way to what stood in front of the signs. -/
def termText (more : Bool) (e : Expr) : Text := if more then e.text else e.node.text

/-- The signs in front of an operand are kept if they are written as they stand there. -/
def signsKept (more : Bool) (signs : List (Sign × Text)) (e : Expr) : Bool :=
  decide (signsText signs ++ e.text = termText more (applySigns e signs))

/-! ## Expressions -/

def bracketStepKept : Text → Bool :=
  (Reader.char '[').passes fun _ => blank.passes fun _ => k.expressionKept .enclosed

/-- A step is kept if no blank text stands in front of it. -/
def stepKept (newlines : Bool) : Text → Bool :=
  (gap newlines).passes fun before s => decide (before = []) && bracketStepKept k s

def stepsKept (newlines : Bool) : Text → Bool :=
  (step k.toInner newlines).both (stepKept k newlines) <| Reader.manyKept (step k.toInner newlines) (stepKept k newlines)

def rightSideKept (ctx : Context) : Text → Bool := (gap ctx.newlines).passes fun _ => k.expressionKept ctx

def conditionalKept (ctx : Context) : Text → Bool :=
  (Reader.char '?').passes fun _ => (rightSide k.toInner ctx).both (rightSideKept k ctx) <|
    (gap ctx.newlines).passes fun _ => (Reader.char ':').passes fun _ => rightSideKept k ctx

def extendKept (conditionals : Bool) : Nat → Context → Text → Bool
  | 0, _ => fun _ => true
  | n + 1, ctx => (gap ctx.newlines).passes fun _ r =>
    match continuation? conditionals r with
    | none => true
    | some .traversal =>
      (steps k.toInner ctx.newlines).both (stepsKept k ctx.newlines) (extendKept conditionals n ctx) r
    | some .conditional => conditionalKept k ctx r
    | some .operator => operator.passes
        (fun _ => (rightSide k.toInner { ctx with operand := true }).both (rightSideKept k { ctx with operand := true })
          (extendKept conditionals n { ctx with operand := true })) r

def expressionFromKept (ctx : Context) : Text → Bool :=
  (Reader.many signBeforeTerm).passes fun signs s => operandKept k ctx s &&
    (operand k.toInner ctx).passes (fun (e, newlines) r =>
      signsKept (goesOn (!ctx.operand) newlines r) signs e &&
        extendKept k (!ctx.operand) (r.length + 1) { ctx with newlines := newlines } r) s

/-! ## Levels -/

/-- The readers for at most `n` levels, with the places that they keep. -/
def keeper : Nat → Keeper
  | 0 => ⟨level 0, fun _ _ => true, fun _ => true⟩
  | n + 1 => ⟨level (n + 1), fun ctx s => expressionFromKept (keeper n) ctx s,
      fun s => plainTemplateKept (keeper n) (fun _ => false) s⟩

theorem keeper_toInner (n : Nat) : (keeper n).toInner = level n := by cases n <;> rfl

def expressionKept : Text → Bool := fun s => (keeper (s.length + 1)).expressionKept .fresh s

/-! ## Bodies -/

def valueKept : Text → Bool := inline.passes fun _ => expressionKept

def lineBodyKept : Text → Bool :=
  inline.passes fun _ => identifier.passes fun _ => inline.passes fun _ => (Reader.char '=').passes fun _ => valueKept

/-- The body of a block is kept on lines of its own or on one line, whichever is read. -/
def blockBodyKept (bodyKept : Text → Bool) : Text → Bool :=
  (Reader.char '{').passes fun _ s =>
    trailing.passes (fun _ => newline.both newlineKept bodyKept) s && lineBodyKept s

/-- The value of an attribute is kept, or the labels and the body of a block are. -/
def afterIdentifierKept (bodyKept : Text → Bool) (s : Text) : Bool :=
  (Reader.char '=').passes (fun _ => valueKept) s &&
    (Reader.many label).both (label.manyKept quotedTextKept) (blockBodyKept bodyKept) s

def structureLineKept (body : Reader Body) (bodyKept : Text → Bool) (used : List Text) : Text → Bool :=
  blank.passes fun _ start => identifier.passes (fun ident => inline.passes fun identAfter =>
    (afterIdentifier body (used.contains ident) start ident identAfter).both (afterIdentifierKept bodyKept) <|
      trailing.passes fun _ => newlineKept) start

def structuresKept (body : Reader Body) (bodyKept : Text → Bool) : Nat → List Text → Text → Bool
  | 0, _, _ => true
  | n + 1, used, s => (structureLine body used).passes (fun (item, _) r => structureLineKept body bodyKept used s &&
      structuresKept body bodyKept n (match item with | .attr a => a.key :: used | .block _ => used) r) s

def bodyLevelKept : Nat → Text → Bool
  | 0, _ => true
  | n + 1, s => structuresKept (bodyLevel n) (bodyLevelKept n) (s.length + 1) [] s

/-- Whether everything that the reader comes by in the text of a document is written as it stands there. -/
def documentKept (t : Text) : Bool := bodyLevelKept (t.length + 1) t

end Grammar
end BackendSwitch
