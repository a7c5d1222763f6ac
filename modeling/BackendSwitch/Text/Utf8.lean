import BackendSwitch.Text.Basic

/-! UTF-8: the bytes of a text, and the text of a list of bytes or the place where the bytes are none. Bytes are
read one at a time; between them stands a character of which only the first bytes have been read. -/
namespace BackendSwitch.Utf8
set_option autoImplicit false

abbrev Bytes := List UInt8

def encode (t : Text) : Bytes := t.flatMap String.utf8EncodeChar

/-! ## Characters of several bytes -/

/-- A character of which `read` bytes have been read: `missing` bytes are still to come, the next of them between
`low` and `high`, and `value` is the part of the code read so far. -/
structure Pending where
  missing : Nat
  low : UInt8
  high : UInt8
  value : Nat
  read : Nat
deriving DecidableEq, Repr

/-- What a first byte beyond ASCII begins. The bounds of the second byte leave out overlong forms, surrogates and
codes above U+10FFFF. -/
def lead? (b : UInt8) : Option Pending :=
  if 0xc2 ≤ b ∧ b ≤ 0xdf then some ⟨1, 0x80, 0xbf, b.toNat - 0xc0, 1⟩
  else if b = 0xe0 then some ⟨2, 0xa0, 0xbf, 0, 1⟩
  else if b = 0xed then some ⟨2, 0x80, 0x9f, 13, 1⟩
  else if 0xe1 ≤ b ∧ b ≤ 0xef then some ⟨2, 0x80, 0xbf, b.toNat - 0xe0, 1⟩
  else if b = 0xf0 then some ⟨3, 0x90, 0xbf, 0, 1⟩
  else if 0xf1 ≤ b ∧ b ≤ 0xf3 then some ⟨3, 0x80, 0xbf, b.toNat - 0xf0, 1⟩
  else if b = 0xf4 then some ⟨3, 0x80, 0x8f, 4, 1⟩
  else none

/-! ## Decoding -/

/-- Where bytes stop to be UTF-8: the number of bytes before, and the number of bytes that are wrong there, which is
absent if the bytes only end too early. -/
structure Fault where
  index : Nat
  wrong : Option Nat
deriving DecidableEq, Repr

namespace Fault

def message (f : Fault) : Text :=
  match f.wrong with
  | none => "incomplete utf-8 byte sequence from index ".toList ++ Nat.toDigits 10 f.index
  | some n => "invalid utf-8 sequence of ".toList ++ Nat.toDigits 10 n ++ " bytes from index ".toList
      ++ Nat.toDigits 10 f.index

end Fault

/-- Puts a character in front of what follows it. -/
def prepend (c : Char) : Except Fault Text → Except Fault Text
  | .ok t => .ok (c :: t)
  | .error e => .error e

/-- Decodes bytes, of which `index` lie before the present character. -/
def decodeFrom (index : Nat) : Option Pending → Bytes → Except Fault Text
  | none, [] => .ok []
  | some _, [] => .error ⟨index, none⟩
  | none, b :: bs =>
    if b < 0x80 then prepend (Char.ofNat b.toNat) (decodeFrom (index + 1) none bs)
    else
      match lead? b with
      | some p => decodeFrom index (some p) bs
      | none => .error ⟨index, some 1⟩
  | some p, b :: bs =>
    if p.low ≤ b ∧ b ≤ p.high then
      let value := p.value * 64 + (b.toNat - 0x80)
      if p.missing = 1 then prepend (Char.ofNat value) (decodeFrom (index + p.read + 1) none bs)
      else decodeFrom index (some ⟨p.missing - 1, 0x80, 0xbf, value, p.read + 1⟩) bs
    else .error ⟨index, some p.read⟩

def decode (bs : Bytes) : Except Fault Text := decodeFrom 0 none bs

end BackendSwitch.Utf8
