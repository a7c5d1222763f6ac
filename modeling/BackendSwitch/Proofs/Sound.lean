import BackendSwitch.Grammar.Collection
import BackendSwitch.Proofs.Reading.Quoted
import BackendSwitch.Proofs.Reading.Stops
import BackendSwitch.Proofs.Written

/-! # Trees that are written without a fault

Not every tree that is read can be written and read again. The reader drops an escape it does not know and may keep two
literals next to each other, an object drops repeated keys together with what ended them, several signs become one, and
the blank text behind the dots of a loop moves behind its brace; the printer forgets a marker behind another one, escapes
a template behind a nested one differently, and takes the margin of a heredoc for blanks. A tree is sound if none of this
shows in it. Soundness is a property of each part of the tree on its own. -/
namespace BackendSwitch
set_option autoImplicit false

open Grammar

/-! ## Templates -/

namespace Element

def isLiteral : Element → Bool
  | .literal _ => true
  | _ => false

/-- The text of a part of a template in quotes. -/
def quotedText : Element → Text
  | .literal t => Escape.chars (Escape.markers t)
  | e => e.text

end Element

/-- The literals of a template are legible, none of them is empty, no two of them meet, and none ends with the sign of the
marker behind it. The given text is what stands behind the template. -/
def Woven (following : Text) : List Element → Prop
  | [] => True
  | .literal t :: es =>
    (t ≠ [] ∧ Escape.Legible t ∧ Escape.Parted t (es.flatMap Element.text ++ following)
      ∧ ∀ e, es.head? = some e → e.isLiteral = false) ∧ Woven following es
  | _ :: es => Woven following es

/-- What a quoted template needs to be read back: a part that is no literal, without which it is a string, and parts that
are written in quotes as they are outside. -/
structure QuotedSound (es : List Element) : Prop where
  woven : Woven ['"'] es
  mixed : ∃ e ∈ es, e.isLiteral = false
  text : render true (templatePieces es) = es.flatMap Element.quotedText

/-- What is written between the first line of a heredoc and its delimiter. -/
def heredocText (indent : Option Nat) (es : List Element) : Text :=
  match indent with
  | none => es.flatMap Element.text
  | some n => indentBy n (es.flatMap Element.text)

/-- Whether a template is what remains of another one without its indentation. -/
def Unindented (indent : Option Nat) (whole es : List Element) : Prop :=
  match indent with
  | none => whole = es
  | some n => Indentation.measure? whole = some n ∧ Indentation.remove n false whole = es

/-- What a heredoc needs to be read back: its text is that of a template with a line end behind it, the template has the
indentation that was taken away, and no line before the last begins with the delimiter. -/
def HeredocSound (delimiter : Text) (indent : Option Nat) (es : List Element) (tail : Text) : Prop :=
  ∃ body final, (final = ['\n'] ∨ final = ['\r', '\n']) ∧ heredocText indent es = body.flatMap Element.text ++ final ∧
    Unindented indent (appendLiteral final body) es ∧ Woven final body ∧
    ∀ u v, body.flatMap Element.text = u ++ v → v ≠ [] → atDelimiter delimiter (v ++ (final ++ (tail ++ delimiter))) = false

/-! ## Brackets and braces -/

/-- A text that makes a bracket or a brace in front of it begin a loop. -/
def opensLoop : Text → Bool
  | 'f' :: 'o' :: 'r' :: c :: _ => isSpace c || c == '#' || c == '/' || c == '\n'
  | _ => false

namespace Expr

/-- The text of an expression with the blank text behind it. -/
def core (e : Expr) : Text := e.node.text ++ e.decor.tail

end Expr

namespace Key

/-- The text of a key with the blank text behind it. -/
def core : Key → Text
  | .name n => n.text ++ n.after
  | .expr e => e.core

end Key

/-- The items of an object end so that each is read back: only the last one ends with the closing brace, right in front of
it, and the value of an item with a line end behind it does not go on with the next item. -/
def Separate (tail : Text) : List ObjectItem → Prop
  | [] => True
  | i :: is =>
    (match i.terminator with
      | .absent => is = [] ∧ tail = []
      | .comma => True
      | .newline => ∀ j js, is = j :: js →
        ∀ x, i.value.node.Stops false true (i.value.decor.tail ++ '\n' :: (j.text ++ x))) ∧ Separate tail is

/-! ## Operands -/

namespace Node

/-- Whether an expression consists of one term. -/
def isTerm : Node → Bool
  | .conditional .. => false
  | .traversal .. => false
  | .binary .. => false
  | _ => true

def isConditional : Node → Bool
  | .conditional .. => true
  | _ => false

/-- Whether a term ends with a number. -/
def endsInNumber : Node → Bool
  | .number _ => true
  | .unary _ ⟨_, operand⟩ => operand.endsInNumber
  | _ => false

end Node

namespace Expr

/-- Of several signs in front of an operand all are the same, without blank text between them. -/
def Leads (e : Expr) : Prop := ∀ sign operand, e.node = .unary sign operand → ∀ c ∈ e.decor.lead, [c] = sign.symbol

/-- No blank text has moved behind a loop. -/
def Closed (e : Expr) : Prop := e.decor.tail = []

end Expr

/-! ## Expressions -/

mutual

def Expr.Sound : Expr → Prop
  | ⟨_, node⟩ => node.Sound

def Node.Sound : Node → Prop
  | .null => True
  | .bool _ => True
  | .number _ => True
  | .string t => Escape.Legible t
  | .array items comma _ =>
    AllSound items ∧ (items = [] → comma = false) ∧ ∀ e es, items = e :: es → opensLoop e.core = false
  | .object items tail =>
    ItemsSound items ∧ ObjectItem.merge items = items ∧ Separate tail items
      ∧ ∀ i is, items = i :: is → opensLoop i.key.core = false
  | .template elements => ElementsSound elements ∧ QuotedSound elements
  | .heredoc delimiter indent elements tail => ElementsSound elements ∧ HeredocSound delimiter indent elements tail
  | .parenthesis inner => inner.Sound
  | .variable _ => True
  | .conditional test yes no =>
    (test.Sound ∧ test.Leads ∧ test.node.isConditional = false) ∧ yes.Sound ∧ no.Sound ∧ no.Closed
  | .call _ arguments _ _ => AllSound arguments
  | .traversal base steps =>
    (base.Sound ∧ base.Leads ∧ base.node.isTerm = true) ∧ StepsSound steps
      ∧ (base.node.endsInNumber = true → NoPlaces (base.decor.tail ++ steps.flatMap Step.text))
  | .unary _ operand => operand.Sound ∧ operand.Closed
  | .binary left _ right =>
    (left.Sound ∧ left.Leads ∧ left.node.isBinary = false ∧ left.node.isConditional = false) ∧ right.Sound ∧ right.Closed
  | .forArray intro value test => intro.Sound ∧ value.Sound ∧ TestSound test
  | .forObject intro key value _ test => intro.Sound ∧ key.Sound ∧ value.Sound ∧ TestSound test

def AllSound : List Expr → Prop
  | [] => True
  | e :: es => e.Sound ∧ AllSound es

def TestSound : Option Expr → Prop
  | none => True
  | some test => test.Sound

def ForIntro.Sound : ForIntro → Prop
  | ⟨_, _, _, source⟩ => source.Sound

def ItemsSound : List ObjectItem → Prop
  | [] => True
  | i :: is => i.Sound ∧ ItemsSound is

def ObjectItem.Sound : ObjectItem → Prop
  | ⟨key, _, value, _⟩ => key.Sound ∧ value.Sound

def Key.Sound : Key → Prop
  | .name _ => True
  | .expr e => e.Sound

def StepsSound : List Step → Prop
  | [] => True
  | s :: ss => s.Sound ∧ StepsSound ss

def Step.Sound : Step → Prop
  | .index e => e.Sound
  | _ => True

def ElementsSound : List Element → Prop
  | [] => True
  | e :: es => e.Sound ∧ ElementsSound es

def Element.Sound : Element → Prop
  | .literal _ => True
  | .interpolation _ e => e.Sound
  | .branch _ _ test yes _ no _ =>
    test.Sound ∧ (ElementsSound yes ∧ Woven ['%', '{'] yes) ∧ ElementsSound no ∧ Woven ['%', '{'] no
  | .loop _ intro body _ => intro.Sound ∧ ElementsSound body ∧ Woven ['%', '{'] body

end

/-! ## Parts of sound trees -/

theorem Expr.sound_iff (e : Expr) : e.Sound ↔ e.node.Sound := by
  cases e
  rfl

theorem Expr.sound_of_within {e : Expr} {b a : Text} (h : (e.within b a).Sound) : e.node.Sound :=
  (Expr.sound_iff (e.within b a)).mp h

theorem allSound_iff (es : List Expr) : AllSound es ↔ ∀ e ∈ es, e.node.Sound := by
  induction es with
  | nil => simp [AllSound]
  | cons e es ih => simp [AllSound, ih, Expr.sound_iff]

theorem itemsSound_iff (items : List ObjectItem) : ItemsSound items ↔ ∀ i ∈ items, i.Sound := by
  induction items with
  | nil => simp [ItemsSound]
  | cons i is ih => simp [ItemsSound, ih]

theorem stepsSound_iff (steps : List Step) : StepsSound steps ↔ ∀ s ∈ steps, s.Sound := by
  induction steps with
  | nil => simp [StepsSound]
  | cons s ss ih => simp [StepsSound, ih]

theorem elementsSound_iff (es : List Element) : ElementsSound es ↔ ∀ e ∈ es, e.Sound := by
  induction es with
  | nil => simp [ElementsSound]
  | cons e es ih => simp [ElementsSound, ih]

end BackendSwitch
