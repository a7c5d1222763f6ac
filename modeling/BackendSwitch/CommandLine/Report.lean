import BackendSwitch.CommandLine.Basic
import BackendSwitch.Failure
import BackendSwitch.Text.Terminal

/-! What a refused argument list is answered with. -/
namespace BackendSwitch.CommandLine
set_option autoImplicit false

/-! ## Usage -/

namespace Flag

/-- A flag as the usage shows it. Dots mark the one that may be repeated. -/
def written : Flag → Text
  | verbose => "--verbose...".toList
  | f => "--".toList ++ f.name

end Flag

def fileName : Text := "<FILE>".toList

def modeName : Text := "<local|s3>".toList

def usageOf (parts : List Text) : Text :=
  "Usage: ".toList ++ List.intercalate [' '] ("backend-toggle".toList :: parts)

/-- The usage in general. -/
def usage : Text := usageOf ["[OPTIONS]".toList, fileName, modeName]

/-- The usage with the flags that are in play. -/
def usageWith (flags : List Flag) : Text := usageOf (flags.map Flag.written ++ [fileName, modeName])

/-- Everything that the tool takes, as one choice. -/
def anyArgument : Text := "<FILE|local|s3|--verbose...|--quiet>".toList

/-- The usage with one flag behind others. Only help and the version are not part of the choice. -/
def usageAmong (flag : Flag) : Text :=
  usageOf (match flag with
    | .verbose => [anyArgument]
    | .quiet => [anyArgument]
    | f => [f.written, anyArgument])

/-! ## Help -/

def lines (ls : List String) : Text := ls.flatMap fun l => l.toList ++ ['\n']

def shortHelp : Text :=
  lines ["Switch a Terraform configuration between local and S3 state backends", ""] ++ usage ++ lines ["",
    "",
    "Arguments:",
    "  <FILE>      Path to the Terraform file holding the terraform block (e.g. providers.tf)",
    "  <local|s3>  Backend mode: 'local' or 's3'",
    "",
    "Options:",
    "  -v, --verbose...  Increase verbosity (-v, -vv, -vvv)",
    "  -q, --quiet       Suppress all output except errors",
    "  -h, --help        Print help (see more with '--help')",
    "  -V, --version     Print version"]

def longHelp : Text :=
  lines ["backend-toggle edits the terraform block of an HCL file in place: it removes any existing backend block "
      ++ "and, in s3 mode, adds the fixed S3 backend. Everything else in the file is written back unchanged.", ""]
    ++ usage ++ lines ["",
    "",
    "Arguments:",
    "  <FILE>",
    "          Path to the Terraform file holding the terraform block (e.g. providers.tf)",
    "",
    "  <local|s3>",
    "          Backend mode: 'local' or 's3'",
    "",
    "Options:",
    "  -v, --verbose...",
    "          Increase verbosity (-v, -vv, -vvv)",
    "",
    "  -q, --quiet",
    "          Suppress all output except errors",
    "",
    "  -h, --help",
    "          Print help (see a summary with '-h')",
    "",
    "  -V, --version",
    "          Print version"]

/-! ## Refusals -/

/-- An error report for a terminal: the paragraphs, and where to find help. Arguments stand in styles. -/
def errorReport (paragraphs : List Text) : Text :=
  "error: ".toList ++ List.intercalate ['\n', '\n'] paragraphs ++ "\n\nFor more information, try '".toList
    ++ Terminal.styled "--help".toList ++ "'.\n".toList

def unexpected (argument : Text) : Text :=
  "unexpected argument '".toList ++ Terminal.styled argument ++ "' found".toList

/-- How to pass an argument that looks like a flag as a value. -/
def asValue (argument : Text) : Text :=
  "  tip: to pass '".toList ++ Terminal.styled argument ++ "' as a value, use '".toList
    ++ Terminal.styled ("-- ".toList ++ argument) ++ ['\'']

namespace Refusal

/-- The answer as a terminal gets it. -/
def styledMessage : Refusal → Text
  | .shortHelp => CommandLine.shortHelp
  | .longHelp => CommandLine.longHelp
  | .version => "backend-toggle 0.1.0\n".toList
  | .emptyFile =>
    errorReport ["a value is required for '".toList ++ fileName ++ "' but none was supplied".toList]
  | .invalidMode value =>
    errorReport ["invalid value '".toList ++ Terminal.styled value ++ "' for '".toList ++ Terminal.styled modeName
      ++ "': ".toList ++ (Failure.invalidMode value).message]
  | .missing file mode given =>
    errorReport ["the following required arguments were not provided:".toList
      ++ (if file then "\n  ".toList ++ fileName else []) ++ (if mode then "\n  ".toList ++ modeName else []),
      usageWith given]
  | .surplus value => errorReport [unexpected value, usage]
  | .unknownChar c => errorReport [unexpected ['-', c], asValue ['-', c], usage]
  | .unknownName name similar given withFile =>
    let argument := '-' :: '-' :: name
    errorReport [unexpected argument,
      match similar with
      | some f => "  tip: a similar argument exists: '--".toList ++ f.name ++ ['\'']
      | none => asValue argument,
      if given.isEmpty && !withFile then usage else usageWith given]
  | .repeatedQuiet => errorReport ["the argument '--quiet' cannot be used multiple times".toList, usage]
  | .surplusValue flag value behindOthers =>
    errorReport ["unexpected value '".toList ++ Terminal.styled value ++ "' for '".toList
      ++ Terminal.styled flag.written ++ "' found; no more were expected".toList,
      if behindOthers then usageAmong flag else usageWith [flag]]

/-- The answer, without styles. -/
def message (r : Refusal) : Text := Terminal.plain r.styledMessage

/-- Whether the answer is what was asked for and not an error. -/
def isAnswer : Refusal → Bool
  | .shortHelp => true
  | .longHelp => true
  | .version => true
  | _ => false

def exitCode (r : Refusal) : Nat := if r.isAnswer then 0 else 2

end Refusal
end BackendSwitch.CommandLine
