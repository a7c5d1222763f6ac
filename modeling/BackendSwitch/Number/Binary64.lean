/-! Rounding a decimal to the nearest double. All arithmetic is exact; only the result is cut to the 53
binary digits and the exponents from -1074 to 971 that the format has. -/
namespace BackendSwitch.Binary64
set_option autoImplicit false

/-! ## Rounding -/

/-- The nearest whole number to a quotient; of two equally near ones the even. -/
def roundQuotient (num den : Nat) : Nat :=
  let q := num / den
  let r := num % den
  if 2 * r < den then q else if den < 2 * r then q + 1 else q + q % 2

/-- The quotient in units of `2 ^ e`, as a fraction. -/
def scale (num den : Nat) (e : Int) : Nat × Nat :=
  if 0 ≤ e then (num, den * Nat.pow 2 e.toNat) else (num * Nat.pow 2 (-e).toNat, den)

/-- The least mantissa that has all 53 digits. -/
def leastMantissa : Nat := 0x10000000000000

/-- A mantissa `m` and an exponent `e` such that `m * 2 ^ e` is the double nearest to `num / den`, for
positive `num` and `den`. The mantissa may reach `2 ^ 53`, one above the greatest that fits. -/
def nearest (num den : Nat) : Nat × Int :=
  let guess : Int := (Nat.log2 num : Int) - Nat.log2 den - 52
  let (n, d) := scale num den guess
  let e := max (if n / d < leastMantissa then guess - 1 else guess) (-1074)
  let (n, d) := scale num den e
  (roundQuotient n d, e)

/-- The double nearest to a whole number. One of up to 53 binary digits is a double itself. -/
def ofWhole (n : Nat) : Nat :=
  let (m, e) := nearest n 1
  if 0 ≤ e then m * Nat.pow 2 e.toNat else n

/-- Halves a mantissa as long as that loses nothing and places are left: `m / 2 ^ k` keeps its value. -/
def reduce (m : Nat) : Nat → Nat × Nat
  | 0 => (m, 0)
  | k + 1 => if m % 2 = 0 then reduce (m / 2) k else (m, k + 1)

/-! ## Decimals -/

/-- The double nearest to `digits * 10 ^ exponent` as a mantissa over a power of two in lowest terms, and
nothing if the decimal is out of range. Decimals that are out of range by far are recognised by their
length, so that no power of ten is built for them. -/
def ofDecimal? (digits : Nat) (exponent : Int) : Option (Nat × Nat) :=
  if digits = 0 then some (0, 0)
  else
    let size := ((Nat.toDigits 10 digits).length : Int) + exponent
    if 400 < size then none
    else if size < -400 then some (0, 0)
    else
      let (m, e) := if 0 ≤ exponent then nearest (digits * Nat.pow 10 exponent.toNat) 1
        else nearest digits (Nat.pow 10 (-exponent).toNat)
      if 0 ≤ e then
        let whole := m * Nat.pow 2 e.toNat
        if Nat.pow 2 1024 ≤ whole then none else some (whole, 0)
      else some (reduce m (-e).toNat)

theorem reduce_value (m k : Nat) : (reduce m k).1 * Nat.pow 2 k = m * Nat.pow 2 (reduce m k).2 := by
  induction k generalizing m with
  | zero => rfl
  | succ k ih =>
    by_cases h : m % 2 = 0
    · have half : m / 2 * 2 = m := by omega
      have step : Nat.pow 2 (k + 1) = Nat.pow 2 k * 2 := rfl
      simp only [reduce, h, if_true]
      rw [step, ← Nat.mul_assoc, ih (m / 2), Nat.mul_right_comm, half]
    · simp only [reduce, h, if_false]

end BackendSwitch.Binary64
