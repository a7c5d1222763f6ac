import BackendSwitch.Grammar.Layout
import BackendSwitch.Text.Escape

/-! Numbers and quoted text. -/
namespace BackendSwitch.Grammar
set_option autoImplicit false

/-! ## Numbers -/

def digits : Reader Text := .span1 Char.isDigit

/-- The number that a run of decimal digits denotes. -/
def ofDigits (t : Text) : Nat := t.foldl (fun n c => 10 * n + (c.toNat - 48)) 0

/-- An exponent with its value: the letter, a sign or none, and digits that must be there. -/
def exponent : Reader (Text × Int) := do
  let letter ← Reader.oneOf fun c => c == 'e' || c == 'E'
  let sign ← (Reader.oneOf fun c => c == '+' || c == '-').optional
  let ds ← digits.require .exponentDigit
  let value : Int := ofDigits ds
  return (letter :: (sign.toList ++ ds), if sign = some '-' then -value else value)

/-- Decimal places with an exponent or none, or an exponent alone. -/
def decimals : Reader (Option Text × Option (Text × Int)) :=
  Reader.or
    (do
      Reader.char '.'
      let places ← digits
      let power ← exponent.optional
      return (some places, power))
    (do
      let power ← exponent
      return (none, some power))

/-- A number with decimal places or an exponent, within the range of a double. -/
def decimal : Reader Numeral := do
  let whole ← digits
  let (places, power) ← decimals
  let fraction := places.getD []
  let text := whole ++ (match places with | none => [] | some ds => '.' :: ds) ++ (power.map Prod.fst).getD []
  match Binary64.ofDecimal? (ofDigits (whole ++ fraction)) ((power.map Prod.snd).getD 0 - fraction.length) with
  | some (m, k) => return ⟨text, .ofDouble m k⟩
  | none => Reader.fail

/-- A whole number of at most 64 bits. -/
def wholeNumber : Reader Numeral := do
  let ds ← digits
  if ofDigits ds ≤ NumberValue.maxWhole then return ⟨ds, .whole (ofDigits ds)⟩ else Reader.fail

def number : Reader Numeral := decimal.or wholeNumber

/-- A number behind a minus sign, which belongs to the literal. -/
def negativeNumber : Reader Numeral := do
  Reader.char '-'
  let s ← inline
  let n ← number
  return ⟨'-' :: (s ++ n.text), n.value.negate⟩

/-! ## Escapes -/

def hexValue? (c : Char) : Option Nat :=
  let n := c.toNat
  if 48 ≤ n ∧ n ≤ 57 then some (n - 48)
  else if 65 ≤ n ∧ n ≤ 70 then some (n - 55)
  else if 97 ≤ n ∧ n ≤ 102 then some (n - 87)
  else none

/-- The value of exactly `n` hexadecimal digits at the start of a text, and the text after them. -/
def hexDigits? : Nat → Nat → Text → Option (Nat × Text)
  | 0, value, s => some (value, s)
  | _ + 1, _, [] => none
  | n + 1, value, c :: r =>
    match hexValue? c with
    | some d => hexDigits? n (16 * value + d) r
    | none => none

/-- The character with a code of `n` hexadecimal digits. -/
def codedChar (n : Nat) (c : Complaint) : Reader Char := fun s =>
  match hexDigits? n 0 s with
  | some (value, r) => if value.isValidChar then .ok (Char.ofNat value) r else .hard c s
  | none => .hard c s

/-- The character that an escape denotes, read behind its backslash. A wrong letter counts as read. -/
def escaped : Reader Char := fun s =>
  match s with
  | [] => .soft
  | 'n' :: r => .ok '\n' r
  | 'r' :: r => .ok '\r' r
  | 't' :: r => .ok '\t' r
  | '\\' :: r => .ok '\\' r
  | '"' :: r => .ok '"' r
  | '/' :: r => .ok '/' r
  | 'b' :: r => .ok '\x08' r
  | 'f' :: r => .ok '\x0c' r
  | 'u' :: r => codedChar 4 .shortHex r
  | 'U' :: r => codedChar 8 .longHex r
  | _ :: r => .hard .escape r

/-! ## Quoted text -/

/-- The characters that one step of quoted text stands for: an escaped template marker, an escape, or any other
character that neither ends the text nor opens a marker. -/
def fragment : Reader Text := fun s =>
  match s with
  | [] => .soft
  | '"' :: _ => .soft
  | '\\' :: r => Reader.bind escaped (fun c => Reader.pure [c]) r
  | '$' :: '$' :: '{' :: r => .ok ['$', '{'] r
  | '$' :: '{' :: _ => .soft
  | '%' :: '%' :: '{' :: r => .ok ['%', '{'] r
  | '%' :: '{' :: _ => .soft
  | c :: r => .ok [c] r

/-- Fragments behind the first one. A failure here ends the text without making it fail, and what the failed
fragment had read up to its fault stays read. -/
def laterFragments : Nat → Text → Text × Text
  | 0, s => ([], s)
  | n + 1, s =>
    match fragment s with
    | .ok t r =>
      let (ts, rest) := laterFragments n r
      (t ++ ts, rest)
    | .soft => ([], s)
    | .hard _ r => ([], r)

/-- One or more fragments as one text. -/
def fragments : Reader Text := do
  let first ← fragment
  fun s =>
    let (later, rest) := laterFragments s.length s
    .ok (first ++ later) rest

/-- Quoted text without template parts. -/
def quotedText : Reader Text := do
  Reader.char '"'
  let t ← fragments.optional
  Reader.char '"'
  return t.getD []

end BackendSwitch.Grammar
