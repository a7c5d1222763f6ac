import BackendSwitch.Text.Basic

/-! The written form of text inside quotes. Two things are escaped, one after the other: the beginnings of
template markers by doubling their first character, and characters that cannot stand for themselves. -/
namespace BackendSwitch.Escape
set_option autoImplicit false

/-! ## Template markers -/

def isMarkerSign (c : Char) : Bool := c == '$' || c == '%'

/-- Whether a text begins with the two characters that open a template marker. -/
def opensMarker : Text → Bool
  | c :: '{' :: _ => isMarkerSign c
  | _ => false

/-- From the first marker on the text is read in steps: a marker sign takes the next character along with
it, so a sign right behind another one is not itself looked at. -/
def markersFrom : Text → Text
  | [] => []
  | [c] => [c]
  | c :: d :: t =>
    if isMarkerSign c then
      if d = '{' then c :: c :: '{' :: markersFrom t else c :: d :: markersFrom t
    else c :: markersFrom (d :: t)

/-- Text before the first marker is kept as it is. -/
def markers : Text → Text
  | [] => []
  | c :: t => if opensMarker (c :: t) then markersFrom (c :: t) else c :: markers t

/-! ## Characters -/

/-- An upper-case hexadecimal digit. -/
def hexDigit (n : Nat) : Char := if n < 10 then Char.ofNat (48 + n) else Char.ofNat (55 + n)

def char (c : Char) : Text :=
  if c = '\x08' then ['\\', 'b']
  else if c = '\t' then ['\\', 't']
  else if c = '\n' then ['\\', 'n']
  else if c = '\x0c' then ['\\', 'f']
  else if c = '\r' then ['\\', 'r']
  else if c = '"' then ['\\', '"']
  else if c = '\\' then ['\\', '\\']
  else if c.toNat < 0x20 || c.toNat = 0x7f then
    ['\\', 'u', '0', '0', hexDigit (c.toNat / 16), hexDigit (c.toNat % 16)]
  else [c]

def chars (t : Text) : Text := t.flatMap char

/-- A text between quotes. -/
def quoted (t : Text) : Text := '"' :: (chars (markers t) ++ ['"'])

theorem chars_append (s t : Text) : chars (s ++ t) = chars s ++ chars t := by simp [chars]

end BackendSwitch.Escape
