import BackendSwitch.Mode

/-! What can go wrong, how it is reported, and with which status a run ends because of it. -/
namespace BackendSwitch
set_option autoImplicit false

/-! ## Errors of the system -/

/-- The kinds of system errors that are told apart. -/
inductive SystemErrorKind where
  | notFound | permissionDenied | interrupted | unexpectedEnd | invalidInput | outOfMemory | other
deriving DecidableEq, Repr

namespace SystemErrorKind

def description : SystemErrorKind → String
  | notFound => "entity not found"
  | permissionDenied => "permission denied"
  | interrupted => "operation interrupted"
  | unexpectedEnd => "unexpected end of file"
  | invalidInput => "invalid input parameter"
  | outOfMemory => "out of memory"
  | other => "other error"

end SystemErrorKind

/-- An error of the system: one of its own codes, or a kind with a message. -/
inductive SystemError where
  | code (number : Nat)
  | described (kind : SystemErrorKind) (message : Text)
deriving DecidableEq, Repr

namespace SystemError

/-- What the system calls a code. -/
def codeName (n : Nat) : String :=
  match n with
  | 1 => "Operation not permitted"
  | 2 => "No such file or directory"
  | 5 => "Input/output error"
  | 13 => "Permission denied"
  | 20 => "Not a directory"
  | 21 => "Is a directory"
  | 28 => "No space left on device"
  | 30 => "Read-only file system"
  | 36 => "File name too long"
  | 40 => "Too many levels of symbolic links"
  | n => "Unknown error " ++ toString n

def kind : SystemError → SystemErrorKind
  | code n => if n = 1 ∨ n = 13 then .permissionDenied else if n = 2 then .notFound else .other
  | described k _ => k

def message : SystemError → Text
  | code n => (codeName n).toList ++ " (os error ".toList ++ Nat.toDigits 10 n ++ [')']
  | described _ m => m

def missing : SystemError := .code 2
def notDirectory : SystemError := .code 20
def isDirectory : SystemError := .code 21
def deviceFull : SystemError := .code 28
def nameTooLong : SystemError := .code 36

/-- A path may not contain the character that ends paths. -/
def zeroInPath : SystemError := .described .invalidInput "file name contained an unexpected NUL byte".toList

/-- What is read does not fit into memory. -/
def outOfMemory : SystemError := .described .outOfMemory SystemErrorKind.outOfMemory.description.toList

end SystemError

/-! ## Failures -/

/-- The place in the text of a program that raised a failure. It depends on how this text is laid out and not on what the
program does, so reading, parsing and writing record none. -/
structure Origin where
  file : Text
  line : Nat
deriving DecidableEq, Repr

namespace Origin

/-- A place in parentheses. Where none is recorded a placeholder stands for it. -/
def written : Option Origin → Text
  | none => "(<src>)".toList
  | some o => '(' :: (o.file ++ ':' :: (Nat.toDigits 10 o.line ++ [')']))

end Origin

inductive Failure where
  | invalidMode (value : Text)
  | read (path : Text) (cause : SystemError) (origin : Option Origin)
  | write (path : Text) (cause : SystemError) (origin : Option Origin)
  | malformed (path detail : Text) (line column : Option Nat) (origin : Option Origin)
  | missingTerraform (path : Text) (origin : Option Origin)
deriving DecidableEq, Repr

namespace Failure

def message : Failure → Text
  | invalidMode value => "Mode must be 'local' or 's3', got '".toList ++ value ++ ['\'']
  | read path cause origin =>
    "Error reading file '".toList ++ path ++ "' ".toList ++ Origin.written origin ++ ": ".toList ++ cause.message
  | write path cause origin =>
    "Error writing file '".toList ++ path ++ "' ".toList ++ Origin.written origin ++ ": ".toList ++ cause.message
  | malformed path detail _ _ origin =>
    "Error parsing HCL in '".toList ++ path ++ "' \n\t".toList ++ Origin.written origin ++ ": ".toList ++ detail
  | missingTerraform path origin =>
    "No terraform block found in '".toList ++ path ++ "' ".toList ++ Origin.written origin

/-- The error of the system behind a failure. -/
def cause? : Failure → Option SystemError
  | read _ cause _ => some cause
  | write _ cause _ => some cause
  | _ => none

/-- Whether the file is sure to be as it was. Only writing can change it. -/
def fileUntouched : Failure → Bool
  | write .. => false
  | _ => true

/-- The status with which a run ends. -/
def exitCode : Failure → Nat
  | invalidMode _ => 2
  | read _ cause _ =>
    match cause.kind with
    | .permissionDenied => 13
    | .notFound => 14
    | _ => 1
  | write _ cause _ => if cause.kind = .permissionDenied then 13 else 1
  | malformed .. => 1
  | missingTerraform .. => 1

/-- The same failure as raised at some place of a program. A wrong name of a mode is reported without a place. -/
def raisedAt (origin : Option Origin) : Failure → Failure
  | invalidMode value => invalidMode value
  | read path cause _ => read path cause origin
  | write path cause _ => write path cause origin
  | malformed path detail line column _ => malformed path detail line column origin
  | missingTerraform path _ => missingTerraform path origin

theorem exitCode_raisedAt (f : Failure) (origin : Option Origin) : (f.raisedAt origin).exitCode = f.exitCode := by
  cases f <;> rfl

theorem cause?_raisedAt (f : Failure) (origin : Option Origin) : (f.raisedAt origin).cause? = f.cause? := by
  cases f <;> rfl

/-- The place is one part of the message, and all else in it is the same for every place. -/
theorem exists_message_raisedAt (f : Failure) : (∀ origin, f.raisedAt origin = f) ∨
    ∃ before behind, ∀ origin, (f.raisedAt origin).message = before ++ Origin.written origin ++ behind := by
  cases f with
  | invalidMode value => exact .inl fun _ => rfl
  | read path cause _ =>
    exact .inr ⟨"Error reading file '".toList ++ path ++ "' ".toList, ": ".toList ++ cause.message,
      fun _ => List.append_assoc ..⟩
  | write path cause _ =>
    exact .inr ⟨"Error writing file '".toList ++ path ++ "' ".toList, ": ".toList ++ cause.message,
      fun _ => List.append_assoc ..⟩
  | malformed path detail line column _ =>
    exact .inr ⟨"Error parsing HCL in '".toList ++ path ++ "' \n\t".toList, ": ".toList ++ detail,
      fun _ => List.append_assoc ..⟩
  | missingTerraform path _ =>
    exact .inr ⟨"No terraform block found in '".toList ++ path ++ "' ".toList, [],
      fun _ => (List.append_nil _).symm⟩

theorem exitCode_pos (f : Failure) : 0 < f.exitCode := by
  cases f with
  | read path cause origin => simp only [exitCode]; split <;> decide
  | write path cause origin => simp only [exitCode]; split <;> decide
  | _ => simp [exitCode]

end Failure

namespace Mode

/-- The mode with the given name, or the failure that reports the name. -/
def ofName (t : Text) : Except Failure Mode :=
  match ofName? t with
  | some m => .ok m
  | none => .error (.invalidMode t)

end Mode
end BackendSwitch
