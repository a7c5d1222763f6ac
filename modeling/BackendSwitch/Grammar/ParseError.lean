import BackendSwitch.Grammar.Body

/-! Where a text is wrong: the line and column of a place in it, and the report that shows the line. -/
namespace BackendSwitch
set_option autoImplicit false

/-! ## Places -/

/-- A line and a column, both counted from one. -/
structure Position where
  line : Nat
  column : Nat
deriving DecidableEq, Repr

namespace Position

/-- The text behind the last line feed. -/
def lastLine (t : Text) : Text := (t.reverse.takeWhile (· != '\n')).reverse

/-- The place between what was read and the rest. Columns are counted in characters; only the column of a
character beyond ASCII is counted in bytes. At the end of the text the place is one to the right of the last
character, on the line that this character belongs to. -/
def between (done rest : Text) : Position :=
  match rest with
  | [] =>
    let before := done.dropLast
    ⟨before.count '\n' + 1, (lastLine before).length + 2⟩
  | c :: _ =>
    let start := lastLine done
    ⟨done.count '\n' + 1, (if c.utf8Size = 1 then start.length else Text.utf8Size start) + 1⟩

/-- The line that a place is on. -/
def lineText (done rest : Text) : Text :=
  match rest with
  | [] => lastLine done.dropLast ++ (done.getLast?.toList.filter (· != '\n'))
  | _ => lastLine done ++ rest.takeWhile (· != '\n')

end Position

/-! ## Errors -/

/-- Why a text could not be read, with the place and the line where reading ended. -/
structure ParseError where
  complaint : Complaint
  position : Position
  lineText : Text
deriving DecidableEq, Repr

namespace ParseError

def ofRest (complaint : Complaint) (whole rest : Text) : ParseError :=
  let done := whole.take (whole.length - rest.length)
  ⟨complaint, .between done rest, Position.lineText done rest⟩

/-- The decimal digits of a number. -/
def decimal (n : Nat) : Text := Nat.toDigits 10 n

/-- The report on an error: a headline with the place, the line with a mark below the column, the message. -/
def report (e : ParseError) : Text :=
  let line := decimal e.position.line
  let margin := List.replicate line.length ' '
  let mark := List.replicate (e.position.column - 1) ' ' ++ ['^']
  List.intercalate ['\n']
    [margin ++ "--> HCL parse error in line ".toList ++ line ++ ", column ".toList ++ decimal e.position.column,
      margin ++ " |".toList,
      line ++ " | ".toList ++ e.lineText,
      margin ++ " | ".toList ++ mark ++ "---".toList,
      margin ++ " |".toList,
      margin ++ " = ".toList ++ e.complaint.message.toList]

end ParseError

/-- Reads a text as a body. A soft failure cannot reach the top, as a body may be empty. -/
def Body.parse (t : Text) : Except ParseError Body :=
  match Grammar.document t with
  | .ok b _ => .ok b
  | .soft => .error (.ofRest .unexpectedToken t t)
  | .hard c rest => .error (.ofRest c t rest)

end BackendSwitch
