import BackendSwitch.Log
import BackendSwitch.Text.Alphanumeric
import BackendSwitch.Text.Blank

/-! Which messages of a run are written. A filter consists of rules, and the most special rule that concerns a message
decides on it. A setting spells rules out in pieces of the form `target[span{field}]=level`, with commas between them
and most parts left out. -/
namespace BackendSwitch
set_option autoImplicit false

/-! ## Rules -/

/-- Lets messages through up to a rank. It concerns those from parts of the program whose names start with the target
and, where it names a field, those that have the field. -/
structure LogRule where
  target : Text
  field : Option Text
  rank : Nat
deriving DecidableEq, Repr

namespace LogRule

def concerns (rule : LogRule) (e : LogEvent) : Bool :=
  rule.target.isPrefixOf e.target && match rule.field with
    | none => true
    | some f => e.fields.contains f

/-- Whether a text is behind another one in a dictionary. -/
def isBehind : Text → Text → Bool
  | [], _ => false
  | _ :: _, [] => true
  | a :: s, b :: t => if a = b then isBehind s t else b.toNat < a.toNat

/-- Whether a rule is more special than another one for the same message: by its target, by naming a field, and last by
the names of the fields. -/
def outranks (a b : LogRule) : Bool :=
  b.target.length < a.target.length || (a.target.length == b.target.length && match a.field, b.field with
    | none, _ => false
    | some _, none => true
    | some f, some g => isBehind f g)

end LogRule

/-- Rules that differ in their targets or fields. -/
abbrev LogFilter := List LogRule

namespace LogFilter

/-- A later rule replaces an earlier one for the same messages. -/
def add (filter : LogFilter) (rule : LogRule) : LogFilter :=
  filter.filter (fun r => r.target != rule.target || r.field != rule.field) ++ [rule]

/-- The rule that decides on a message. -/
def ruleFor? (e : LogEvent) : LogFilter → Option LogRule
  | [] => none
  | rule :: rules =>
    match ruleFor? e rules with
    | none => if rule.concerns e then some rule else none
    | some other => if rule.concerns e && rule.outranks other then some rule else some other

def admits (filter : LogFilter) (e : LogEvent) : Bool :=
  match ruleFor? e filter with
  | some rule => e.level.rank ≤ rule.rank
  | none => false

end LogFilter

/-! ## Pieces of a setting -/

/-- The parts of a piece as they were written. -/
structure LogPiece where
  target : Text
  span : Option Text
  field : Option Text
  level : Option Text
deriving DecidableEq, Repr

namespace LogPiece

def isTargetStart (c : Char) : Bool := c == '-' || c == ':' || c == '_' || Alphanumeric.contains c

/-- What may follow a closing bracket: a level behind an equals sign, or nothing. -/
def withLevel? (piece : LogPiece) : Text → Option LogPiece
  | '=' :: level => some { piece with level := some level }
  | t => if t.all Blank.isWhite then some piece else none

/-- Reads what is between brackets and behind them. A span may have any name, even an empty one unless a field follows;
a field must have a name. -/
def bracketed? (target t : Text) : Option LogPiece :=
  let opens := fun c => c != ']' && c != '{'
  let span := t.takeWhile opens
  match t.dropWhile opens with
  | ']' :: rest => withLevel? ⟨target, some span, none, none⟩ rest
  | _ :: rest =>
    let field := rest.takeWhile (· != '}')
    match rest.dropWhile (· != '}') with
    | '}' :: ']' :: rest =>
      if field.isEmpty then none
      else withLevel? ⟨target, if span.isEmpty then none else some span, some field, none⟩ rest
    | _ => none
  | [] => none

/-- Reads a piece without white space in front. -/
def read? (t : Text) : Option LogPiece :=
  match t with
  | [] => none
  | '[' :: rest => bracketed? [] rest
  | c :: _ =>
    if !isTargetStart c then none
    else
      let isTarget := fun c => c != '=' && c != '['
      let target := t.takeWhile isTarget
      match t.dropWhile isTarget with
      | [] => some ⟨target, none, none, none⟩
      | '[' :: rest => bracketed? target rest
      | _ :: level => some ⟨target, none, none, some level⟩

/-- Whether a piece is meant for messages in a span or with a certain value of a field. No message of a run stands in a
span, and values are not looked at, so such a piece concerns none. -/
def isIdle (piece : LogPiece) : Bool :=
  piece.span.isSome || match piece.field with
    | none => false
    | some f => f.contains '='

/-- The rule that a piece stands for, if its level can be understood. A target alone may be a level for everything. A
piece without a level, or without one behind its equals sign, lets everything through. -/
def rule? (piece : LogPiece) : Option LogRule :=
  match piece.level with
  | some [] => some ⟨piece.target, piece.field, Level.trace.rank⟩
  | some level => (Level.rankOf? level).map fun rank => ⟨piece.target, piece.field, rank⟩
  | none =>
    match piece.field, Level.rankOf? piece.target with
    | none, some rank => some ⟨[], none, rank⟩
    | field, _ => some ⟨piece.target, field, Level.trace.rank⟩

/-- The rules, at most one, that a piece comes to. With white space in front no target is ever found, and a level is
not understood. -/
def rules? (t : Text) : Option (List LogRule) :=
  let core := t.dropWhile Blank.isWhite
  match read? core with
  | none => none
  | some piece =>
    if core.length < t.length then (if piece.level.isSome then none else some [])
    else
      match piece.rule? with
      | none => none
      | some rule => some (if piece.isIdle then [] else [rule])

end LogPiece

/-! ## Settings -/

namespace LogFilter

/-- Lets errors through. -/
def errorsOnly : LogFilter := [⟨[], none, Level.error.rank⟩]

/-- Pieces with commas between them. Where there are none, errors are let through. -/
def parse? (t : Text) : Option LogFilter :=
  match ((Text.split ',' t).filter (!·.isEmpty)).mapM LogPiece.rules? with
  | none => none
  | some [] => some errorsOnly
  | some rules => some (rules.flatten.foldl add [])

/-- The filter of a run. A quiet run lets errors through; otherwise a setting counts if it can be understood, and then
the number of times that more detail was asked for. -/
def choose (quiet : Bool) (verbosity : Nat) (setting : Option Text) : LogFilter :=
  if quiet then errorsOnly
  else
    match setting.bind parse? with
    | some filter => filter
    | none =>
      let level : Level := match verbosity with
        | 0 => .warn
        | 1 => .info
        | 2 => .debug
        | _ => .trace
      [⟨[], none, Level.warn.rank⟩, ⟨"backend_toggle".toList, none, level.rank⟩]

end LogFilter
end BackendSwitch
