import BackendSwitch.Text.Basic

/-! The two backends between which a configuration is switched. -/
namespace BackendSwitch
set_option autoImplicit false

inductive Mode where
  | onDisk
  | s3
deriving DecidableEq, Repr

namespace Mode

def name : Mode → Text
  | onDisk => ['l', 'o', 'c', 'a', 'l']
  | s3 => ['s', '3']

/-- The mode with the given name. -/
def ofName? (t : Text) : Option Mode :=
  if t = onDisk.name then some onDisk else if t = s3.name then some s3 else none

/-- What is announced after a switch. -/
def announcement : Mode → Text
  | onDisk => "Switched to local backend".toList
  | s3 => "Switched to S3 backend".toList

theorem ofName?_eq_some_iff {t : Text} {m : Mode} : ofName? t = some m ↔ t = m.name := by
  constructor
  · intro h
    unfold ofName? at h
    split at h
    · next e => cases h; exact e
    · split at h
      · next e => cases h; exact e
      · cases h
  · rintro rfl
    cases m <;> rfl

end Mode

/-- What a switch did: the mode it set and, if it removed a block, the first label of that block. -/
structure Outcome where
  mode : Mode
  removed : Option (Option Text)
deriving DecidableEq, Repr

namespace Outcome

def removedExisting (o : Outcome) : Bool := o.removed.isSome

end Outcome
end BackendSwitch
