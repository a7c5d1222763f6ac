import BackendSwitch.Mode
import BackendSwitch.CommandLine.Similarity

/-! Argument lists: what they ask for, and why they are refused. Arguments are taken from left to right. A value is
checked when the next argument that counts has been recognised, so an unknown argument behind a wrong value is
reported first. -/
namespace BackendSwitch.CommandLine
set_option autoImplicit false

/-! ## Flags -/

inductive Flag where
  | verbose | quiet | help | version
deriving DecidableEq, Repr

namespace Flag

def all : List Flag := [verbose, quiet, help, version]

def name : Flag → Text
  | verbose => "verbose".toList
  | quiet => "quiet".toList
  | help => "help".toList
  | version => "version".toList

def ofName? (t : Text) : Option Flag := all.find? fun f => f.name = t

def ofChar? (c : Char) : Option Flag :=
  if c = 'v' then some verbose
  else if c = 'q' then some quiet
  else if c = 'h' then some help
  else if c = 'V' then some version
  else none

/-- The flag whose name is most like a given one, if any is like it at all. -/
def similar? (t : Text) : Option Flag :=
  (Similarity.best? t (all.map name)).bind ofName?

end Flag

/-! ## Results -/

/-- What a valid argument list asks for. -/
structure Arguments where
  file : Text
  mode : Mode
  verbosity : Nat
  quiet : Bool
deriving DecidableEq, Repr

/-- Why there is nothing to run: help or the version were asked for, or an argument is wrong or missing. Some reasons
carry the flags that were given, as the report names them, or whether others were given before. -/
inductive Refusal where
  | shortHelp
  | longHelp
  | version
  | emptyFile
  | invalidMode (value : Text)
  | missing (file mode : Bool) (given : List Flag)
  | surplus (value : Text)
  | unknownChar (c : Char)
  | unknownName (name : Text) (similar : Option Flag) (given : List Flag) (withFile : Bool)
  | repeatedQuiet
  | surplusValue (flag : Flag) (value : Text) (behindOthers : Bool)
deriving DecidableEq, Repr

/-! ## Progress through an argument list -/

/-- What has been read: values as they were given, and the flags in the order in which they came. One that may be
repeated counts where it came last. -/
structure Progress where
  file : Option Text
  mode : Option Text
  verbosity : Nat
  quiet : Bool
  given : List Flag
deriving DecidableEq, Repr

namespace Progress

def start : Progress := ⟨none, none, 0, false, []⟩

/-- Checks the values that have been read. -/
def check (p : Progress) : Except Refusal Unit :=
  if p.file = some [] then .error .emptyFile
  else
    match p.mode with
    | none => .ok ()
    | some m => if (Mode.ofName? m).isSome then .ok () else .error (.invalidMode m)

def value (t : Text) (p : Progress) : Except Refusal Progress :=
  match p.file, p.mode with
  | none, _ => .ok { p with file := some t }
  | some _, none =>
    match p.check with
    | .error e => .error e
    | .ok () => .ok { p with mode := some t }
  | some _, some _ => .error (.surplus t)

/-- Adds a flag to the given ones as their last. -/
def moveLast (f : Flag) (given : List Flag) : List Flag := given.filter (· != f) ++ [f]

/-- Adds a flag that is not given but meant. -/
def note (f : Flag) (given : List Flag) : List Flag := if given.contains f then given else given ++ [f]

/-- Whether an argument of the tool has been taken in for good: a flag, or a value that another one follows. -/
def isUnderWay (p : Progress) : Bool := !p.given.isEmpty || p.mode.isSome

/-- The greatest number of times that verbosity counts. -/
def maxVerbosity : Nat := 255

/-- Takes a flag; `short` tells whether it was given as a single letter. -/
def flag (short : Bool) (f : Flag) (p : Progress) : Except Refusal Progress :=
  match p.check with
  | .error e => .error e
  | .ok () =>
    match f with
    | .verbose => .ok { p with verbosity := min maxVerbosity (p.verbosity + 1), given := moveLast f p.given }
    | .quiet => if p.quiet then .error .repeatedQuiet else .ok { p with quiet := true, given := moveLast f p.given }
    | .help => .error (if short then .shortHelp else .longHelp)
    | .version => .error .version

/-- Takes the letters of a cluster of flags. -/
def cluster : Text → Progress → Except Refusal Progress
  | [], p => .ok p
  | c :: cs, p =>
    match Flag.ofChar? c with
    | none => .error (.unknownChar c)
    | some f =>
      match p.flag true f with
      | .error e => .error e
      | .ok p' => cluster cs p'

/-- Takes a flag given by its name, perhaps with a value behind an equals sign, which no flag takes. -/
def named (t : Text) (p : Progress) : Except Refusal Progress :=
  let name := t.takeWhile (· != '=')
  match Flag.ofName? name, t.dropWhile (· != '=') with
  | some f, [] => p.flag false f
  | some f, _ :: value => .error (.surplusValue f value p.isUnderWay)
  | none, _ =>
    let similar := Flag.similar? name
    .error (.unknownName name similar (match similar with | some f => note f p.given | none => p.given)
      p.file.isSome)

/-- What the whole list asks for. -/
def finish (p : Progress) : Except Refusal Arguments :=
  match p.check with
  | .error e => .error e
  | .ok () =>
    match p.file, p.mode.bind Mode.ofName? with
    | some file, some mode => .ok ⟨file, mode, p.verbosity, p.quiet⟩
    | file, mode => .error (.missing file.isNone mode.isNone p.given)

/-- Behind the first `--` every argument is a value. -/
def values : List Text → Progress → Except Refusal Arguments
  | [], p => p.finish
  | t :: ts, p =>
    match p.value t with
    | .error e => .error e
    | .ok p' => values ts p'

/-- Arguments before the first `--`. A hyphen alone is a value. -/
def arguments : List Text → Progress → Except Refusal Arguments
  | [], p => p.finish
  | t :: ts, p =>
    let next : Except Refusal Progress := match t with
      | '-' :: '-' :: name => p.named name
      | '-' :: c :: cs => p.cluster (c :: cs)
      | t => p.value t
    if t = ['-', '-'] then values ts p
    else
      match next with
      | .error e => .error e
      | .ok p' => arguments ts p'

end Progress

/-- Reads an argument list. -/
def parse (args : List Text) : Except Refusal Arguments := Progress.start.arguments args

end BackendSwitch.CommandLine
