import BackendSwitch.CommandLine.Report
import BackendSwitch.LogFilter
import BackendSwitch.FileSwitch

/-! The program as a description of what it does, step by step: it writes to its two outputs, asks for the content of
a file or for a file to be written, and ends with a status. What it does next may depend on the answer. The same
description is run on the file system of the model and on the real one. -/
namespace BackendSwitch
set_option autoImplicit false

inductive Program where
  | exit (code : Nat)
  | print (text : Text) (next : Program)
  | report (text : Text) (next : Program)
  | read (path : Text) (next : Except SystemError Utf8.Bytes → Program)
  | write (path : Text) (content : Utf8.Bytes) (next : Except SystemError Unit → Program)

namespace Program

/-! ## The run -/

/-- What is known from the start. -/
structure Setup where
  arguments : CommandLine.Arguments
  filter : LogFilter
deriving DecidableEq, Repr

namespace Setup

/-- Tells something if the filter lets it through. -/
def log (s : Setup) (e : LogEvent) (next : Program) : Program :=
  if s.filter.admits e then .report e.line next else next

/-- Announces something unless the run is quiet. -/
def announce (s : Setup) (t : Text) (next : Program) : Program :=
  if s.arguments.quiet then next else .print (t ++ ['\n']) next

/-- The error report of a failure: its message and, if there is one, the error of the system behind it. -/
def errorText (f : Failure) : Text :=
  "Error: ".toList ++ f.message ++ ['\n'] ++
    match f.cause? with
    | none => []
    | some cause => "\nCaused by:\n  0: ".toList ++ cause.message ++ ['\n']

def fail (s : Setup) (f : Failure) : Program :=
  s.log (.fatal f.message) (.report (errorText f)
    (if f.fileUntouched then s.log (.untouched s.arguments.file) (.exit f.exitCode) else .exit f.exitCode))

/-- Announces a switch that has been made but not saved. -/
def announceOutcome (s : Setup) (o : Outcome) (next : Program) : Program :=
  let rest := s.announce o.mode.announcement next
  if o.removedExisting then s.announce "Removed existing backend block".toList rest else rest

def announceSaved (s : Setup) (next : Program) : Program :=
  s.announce ("Successfully updated ".toList ++ s.arguments.file ++ " for ".toList ++ s.arguments.mode.name
    ++ " backend".toList) next

def save (s : Setup) (d : Document) : Program :=
  .write d.path d.bytes fun
    | .error e => s.fail (.write d.path e none)
    | .ok () => s.log (.written d.path d.bytes.length) (s.announceSaved (.exit 0))

def logOutcome (s : Setup) (path : Text) (o : Outcome) (next : Program) : Program :=
  let rest := s.log (.switched path o.mode) next
  match o.removed with
  | none => rest
  | some label => s.log (.removed path label) rest

def switch (s : Setup) (d : Document) : Program :=
  s.log (.parsed d.path d.body.items.length)
    (match d.switch s.arguments.mode .standard with
    | .error f => s.fail f
    | .ok (o, d') => s.logOutcome d.path o (s.announceOutcome o (s.save d')))

def run (s : Setup) : Program :=
  s.log (.reading s.arguments.file) (.read s.arguments.file fun content =>
    match Document.ofRead s.arguments.file content with
    | .error f => s.fail f
    | .ok d => s.switch d)

end Setup

/-- The program for some arguments and a setting of the log filter. -/
def ofArguments (args : List Text) (setting : Option Text) : Program :=
  match CommandLine.parse args with
  | .error refusal =>
    if refusal.isAnswer then .print refusal.message (.exit refusal.exitCode)
    else .report refusal.message (.exit refusal.exitCode)
  | .ok a => Setup.run ⟨a, .choose a.quiet a.verbosity setting⟩

/-! ## Running on a file system -/

/-- What a finished run leaves behind. -/
structure Result where
  exitCode : Nat
  output : Text
  errors : Text
  files : FileSystem
deriving DecidableEq, Repr

def execute : Program → FileSystem → Result
  | exit code, fs => ⟨code, [], [], fs⟩
  | print t next, fs =>
    let r := execute next fs
    { r with output := t ++ r.output }
  | report t next, fs =>
    let r := execute next fs
    { r with errors := t ++ r.errors }
  | read path next, fs => execute (next (fs.read path)) fs
  | write path content next, fs =>
    match fs.write path content with
    | .ok fs' => execute (next (.ok ())) fs'
    | .error e => execute (next (.error e)) fs

end Program
end BackendSwitch
