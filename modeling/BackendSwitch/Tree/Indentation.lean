import BackendSwitch.Text.Blank
import BackendSwitch.Tree.Expr

/-! The common indentation of a heredoc. It is measured over the literals of its template and taken away from
them; the printer puts it back in front of every line. -/
namespace BackendSwitch.Indentation
set_option autoImplicit false

/-! ## Measuring -/

def leadingWhite (l : Text) : Nat := (l.takeWhile Blank.isWhite).length

/-- The least indentation of the lines of a literal. The first line does not count if it continues a line, and
empty lines never do. A literal with an unindented line says nothing. -/
def ofLiteral? (continued : Bool) (t : Text) : Option Nat :=
  let ls := (if continued then t.lines.drop 1 else t.lines).filter (!·.isEmpty)
  let counts := ls.map leadingWhite
  if counts.contains 0 then none else counts.min?

/-- The smaller of two indentations, where there are any. -/
def least : Option Nat → Option Nat → Option Nat
  | none, b => b
  | a, none => a
  | some m, some n => some (min m n)

/-- Whether a part other than a literal stands at the start of a line. -/
def startsLine (continued : Bool) : List Element → Bool
  | [] => false
  | .literal t :: es => startsLine (!t.endsWithNewline) es
  | _ :: es => !continued || startsLine continued es

/-- The least indentation over all literals. -/
def ofLiterals? (continued : Bool) : List Element → Option Nat
  | [] => none
  | .literal t :: es => least (ofLiteral? continued t) (ofLiterals? (!t.endsWithNewline) es)
  | _ :: es => ofLiterals? continued es

/-- The indentation of a template; there is none if a line starts with something that is not a literal. -/
def measure? (es : List Element) : Option Nat :=
  if startsLine false es then none else ofLiterals? false es

/-! ## Removing -/

/-- Takes `n` characters from every line, but none from a continued first one. -/
def dropFrom (n : Nat) (continued : Bool) (t : Text) : Text :=
  t.mapLines fun ls => if continued then ls.take 1 ++ (ls.drop 1).map (List.drop n) else ls.map (List.drop n)

def remove (n : Nat) (continued : Bool) : List Element → List Element
  | [] => []
  | .literal t :: es => .literal (dropFrom n continued t) :: remove n (!t.endsWithNewline) es
  | e :: es => e :: remove n true es

end BackendSwitch.Indentation
