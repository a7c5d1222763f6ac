import BackendSwitch.Program

/-! The command line. -/
namespace BackendSwitch
set_option autoImplicit false

/-- The error number of the system behind a code, which holds it as it is or negated in 32 bits. -/
def SystemError.numberOfCode (code : UInt32) : Nat :=
  if code < 0x80000000 then code.toNat else (-code).toNat

/-- The error of the system behind an error of reading or writing. -/
def SystemError.ofFailed (e : IO.Error) : SystemError :=
  match e with
  | .noFileOrDirectory _ n _ => .code (numberOfCode n)
  | .permissionDenied _ n _ => .code (numberOfCode n)
  | .inappropriateType _ n _ => .code (numberOfCode n)
  | .invalidArgument _ n _ => .code (numberOfCode n)
  | .resourceExhausted _ n _ => .code (numberOfCode n)
  | .hardwareFault n _ => .code (numberOfCode n)
  | .otherError n _ => .code (numberOfCode n)
  | e => .described .other (toString e).toList

/-- The result of an action, or the error that ended it. -/
def attempt {α : Type} (action : IO α) : IO (Except SystemError α) := do
  try
    return .ok (← action)
  catch e =>
    return .error (.ofFailed e)

/-- Carries out the steps of a program. -/
def Program.perform : Program → IO UInt32
  | .exit code => return code.toUInt32
  | .print t next => do
    IO.print (String.ofList t)
    next.perform
  | .report t next => do
    IO.eprint (String.ofList t)
    next.perform
  | .read path next => do
    let content ← attempt (return (← IO.FS.readBinFile (String.ofList path)).toList)
    (next content).perform
  | .write path content next => do
    let done ← attempt (IO.FS.writeBinFile (String.ofList path) ⟨content.toArray⟩)
    (next done).perform

end BackendSwitch

def main (args : List String) : IO UInt32 := do
  let setting ← IO.getEnv "RUST_LOG"
  (BackendSwitch.Program.ofArguments (args.map String.toList) (setting.map String.toList)).perform
