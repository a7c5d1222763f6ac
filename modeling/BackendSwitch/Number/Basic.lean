import BackendSwitch.Number.Binary64
import BackendSwitch.Text.Basic

/-! Number literals: the text that was written and the value by which two of them are compared. -/
namespace BackendSwitch
set_option autoImplicit false

/-- A whole number of 64 bits, signed or not, or a double: a mantissa over a power of two in lowest terms. -/
inductive NumberValue where
  | whole (value : Int)
  | double (negative : Bool) (mantissa places : Nat)
deriving DecidableEq, Repr

/-- A number literal as it was written, with its value. -/
structure Numeral where
  text : Text
  value : NumberValue
deriving DecidableEq, Repr

namespace NumberValue

/-- The greatest whole number that a literal without fraction and exponent can have. -/
def maxWhole : Nat := 0xffffffffffffffff

/-- The greatest whole number whose opposite has 64 bits with its sign. -/
def maxOpposed : Nat := 0x8000000000000000

/-- A double without a fraction is a whole number as far as 64 bits go. -/
def ofDouble (mantissa places : Nat) : NumberValue :=
  if places = 0 ∧ mantissa ≤ maxWhole then .whole mantissa else .double false mantissa places

/-- The opposite number. Where 64 bits do not hold it, it is rounded to a double. -/
def negate : NumberValue → NumberValue
  | .whole n => if n ≤ maxOpposed then .whole (-n) else .double true (Binary64.ofWhole n.natAbs) 0
  | .double negative m k => .double (!negative) m k

/-- Whether a whole number comes to a double when it is rounded to one. -/
def roundsTo (n : Int) (negative : Bool) (mantissa places : Nat) : Bool :=
  places == 0 && decide (n < 0) == negative && Binary64.ofWhole n.natAbs == mantissa

/-- Whether two values agree. Whole numbers agree if they are equal, but a double agrees with all whole numbers that are
rounded to it. -/
def agrees : NumberValue → NumberValue → Bool
  | .whole m, .whole n => decide (m = n)
  | .whole n, .double negative m k => roundsTo n negative m k
  | .double negative m k, .whole n => roundsTo n negative m k
  | .double s m k, .double t n l => s == t && m == n && k == l

theorem agrees_comm (a b : NumberValue) : agrees a b = agrees b a := by
  cases a with
  | whole m =>
    cases b with
    | whole n => simp [agrees, eq_comm]
    | double s n l => rfl
  | double s m k =>
    cases b with
    | whole n => rfl
    | double t n l => simp [agrees, BEq.comm]

end NumberValue
end BackendSwitch
