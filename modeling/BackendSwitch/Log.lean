import BackendSwitch.Mode
import BackendSwitch.Text.Shown

/-! What a run tells about itself while it works. -/
namespace BackendSwitch
set_option autoImplicit false

/-! ## Levels -/

/-- How detailed a message is. -/
inductive Level where
  | error | warn | info | debug | trace
deriving DecidableEq, Repr

namespace Level

def rank : Level → Nat
  | error => 1
  | warn => 2
  | info => 3
  | debug => 4
  | trace => 5

def name : Level → Text
  | error => "ERROR".toList
  | warn => "WARN".toList
  | info => "INFO".toList
  | debug => "DEBUG".toList
  | trace => "TRACE".toList

def ofWord? (t : Text) : Option Nat :=
  let words : List (Text × Nat) := [("off".toList, 0), ("error".toList, 1), ("warn".toList, 2), ("info".toList, 3),
    ("debug".toList, 4), ("trace".toList, 5)]
  words.lookup (t.map Char.toLower)

/-- The rank that decimal digits denote, perhaps with a plus sign. -/
def ofDigits? (t : Text) : Option Nat :=
  let digits := match t with
    | '+' :: ds => ds
    | ds => ds
  if digits.isEmpty || !digits.all Char.isDigit then none
  else
    match digits.dropWhile (· == '0') with
    | [] => some 0
    | [d] => if d.toNat ≤ 53 then some (d.toNat - 48) else none
    | _ => none

/-- The greatest rank that a text lets through: a level's name in either case or its rank. Nothing gets through at rank
zero. -/
def rankOf? (t : Text) : Option Nat := (ofDigits? t).or (ofWord? t)

end Level

/-! ## Messages -/

/-- Something that a run tells. -/
inductive LogEvent where
  | reading (path : Text)
  | parsed (path : Text) (structures : Nat)
  | removed (path : Text) (label : Option Text)
  | switched (path : Text) (mode : Mode)
  | written (path : Text) (bytes : Nat)
  | fatal (message : Text)
  | untouched (path : Text)
deriving DecidableEq, Repr

namespace LogEvent

def level : LogEvent → Level
  | reading _ => .debug
  | parsed .. => .debug
  | removed .. => .info
  | switched .. => .info
  | written .. => .debug
  | fatal _ => .error
  | untouched _ => .debug

/-- The part of the program that a message comes from. -/
def target : LogEvent → Text
  | reading _ => "backend_toggle::document".toList
  | parsed .. => "backend_toggle::document".toList
  | removed .. => "backend_toggle::editor".toList
  | switched .. => "backend_toggle::editor".toList
  | written .. => "backend_toggle::document".toList
  | fatal _ => "backend_toggle".toList
  | untouched _ => "backend_toggle".toList

/-- The names of what a message says, itself among them. -/
def fields : LogEvent → List Text
  | reading _ => ["message".toList, "path".toList]
  | parsed .. => ["message".toList, "path".toList, "structures".toList]
  | removed .. => ["message".toList, "path".toList, "label".toList]
  | switched .. => ["message".toList, "path".toList, "mode".toList]
  | written .. => ["message".toList, "path".toList, "bytes".toList]
  | fatal _ => ["message".toList, "error".toList]
  | untouched _ => ["message".toList, "file".toList]

def message : LogEvent → Text
  | reading path => "Reading file path=".toList ++ path
  | parsed path n => "Parsed HCL document path=".toList ++ path ++ " structures=".toList ++ Nat.toDigits 10 n
  | removed path label =>
    "Removed existing backend block path=".toList ++ path ++ " label=".toList ++ Shown.quoted (label.getD [])
  | switched path mode => "Backend switched path=".toList ++ path ++ " mode=".toList ++ mode.name
  | written path n => "File written path=".toList ++ path ++ " bytes=".toList ++ Nat.toDigits 10 n
  | fatal message => "Fatal error error=".toList ++ message
  | untouched path => "File left unchanged file=".toList ++ path

/-- The line of a message. The time is left open. -/
def line (e : LogEvent) : Text :=
  "<time> ".toList ++ List.replicate (5 - e.level.name.length) ' ' ++ e.level.name ++ [' '] ++ e.target
    ++ ": ".toList ++ e.message ++ ['\n']

end LogEvent

end BackendSwitch
