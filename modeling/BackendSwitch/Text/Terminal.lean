import BackendSwitch.Text.Basic

/-! Text for terminals: the control sequences that set styles, and what an output without styles gets. Of a text for a
terminal it gets the characters that are seen and the white space. A control sequence goes as a whole, also one that
is never completed, and other control characters go one by one. -/
namespace BackendSwitch.Terminal
set_option autoImplicit false

/-! ## Control sequences -/

/-- Where a text stands: outside of control sequences, or how far in one. -/
inductive State where
  | outside
  /-- Behind the escape character. -/
  | escape
  /-- Behind the escape character and signs that a final letter follows. -/
  | designation
  /-- Among the parameters that a final letter follows. -/
  | parameters
  /-- In a text for the window, which the bell ends. -/
  | title
  /-- In a text for a device, which nothing of its own ends. -/
  | device
deriving DecidableEq, Repr

/-- White space that is a control character. -/
def isLayout (c : Char) : Bool := c == '\t' || c == '\n' || c == '\x0c' || c == '\r'

def isBetween (low high : Nat) (c : Char) : Bool := low ≤ c.toNat && c.toNat ≤ high

namespace State

/-- The state that the character behind an escape character leads to. -/
def ofIntroducer (c : Char) : State :=
  if c == '[' then parameters
  else if c == ']' then title
  else if c == 'P' || c == 'X' || c == '^' || c == '_' then device
  else if isBetween 0x20 0x2f c then designation
  else if isBetween 0x30 0x7e c || isLayout c then outside
  else escape

/-- The state behind a character. The escape character begins a sequence in any state, and two others cancel one. -/
def next (s : State) (c : Char) : State :=
  if c == '\x1b' then escape
  else if c == '\x18' || c == '\x1a' then outside
  else
    match s with
    | outside => outside
    | escape => ofIntroducer c
    | designation => if isBetween 0x30 0x7e c || isLayout c then outside else designation
    | parameters => if isBetween 0x40 0x7e c || isLayout c then outside else parameters
    | title => if c == '\x07' then outside else title
    | device => device

/-- Whether a character is still there without styles. -/
def shows : State → Char → Bool
  | outside, c => isLayout c || (0x20 ≤ c.toNat && c != '\x7f')
  | escape, c => isLayout c
  | designation, c => isLayout c
  | parameters, c => isLayout c
  | title, _ => false
  | device, _ => false

/-- What is left of a text that begins in a state. -/
def plain : State → Text → Text
  | _, [] => []
  | s, c :: t => if s.shows c then c :: plain (s.next c) t else plain (s.next c) t

end State

/-- What is left of a text without styles. -/
def plain (t : Text) : Text := State.plain .outside t

/-- A text in a style of its own. -/
def styled (t : Text) : Text := "\x1b[1m".toList ++ t ++ "\x1b[0m".toList

/-! ## What is kept -/

theorem plain_eq_self {t : Text} (h : ∀ c ∈ t, State.outside.shows c = true) : plain t = t := by
  induction t with
  | nil => rfl
  | cons c t ih =>
    have seen := h c (by simp)
    have rest := ih fun d hd => h d (by simp [hd])
    have stays : State.outside.next c = .outside := by
      have escape : c ≠ '\x1b' := by rintro rfl; exact absurd seen (by decide)
      simp [State.next, escape]
    simp only [plain, State.plain, seen, stays, if_true] at rest ⊢
    rw [rest]

end BackendSwitch.Terminal
