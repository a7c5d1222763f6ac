import BackendSwitch.Grammar.Complaint

/-! Readers: functions from the unread text to a value and the text after it. A reader fails in one of two ways.
After a soft failure another alternative may be tried from the same place; a hard failure ends the whole reading
where it happened. -/
namespace BackendSwitch
set_option autoImplicit false

inductive Reply (α : Type) where
  | ok (value : α) (rest : Text)
  | soft
  | hard (complaint : Complaint) (rest : Text)
deriving DecidableEq, Repr

def Reader (α : Type) := Text → Reply α

namespace Reader

variable {α β : Type}

/-! ## Sequence and choice -/

protected def pure (a : α) : Reader α := fun s => .ok a s

protected def bind (p : Reader α) (f : α → Reader β) : Reader β := fun s =>
  match p s with
  | .ok a r => f a r
  | .soft => .soft
  | .hard c r => .hard c r

instance : Monad Reader where
  pure := Reader.pure
  bind := Reader.bind

/-- The soft failure. -/
def fail : Reader α := fun _ => .soft

/-- The hard failure at the present place. -/
def stop (c : Complaint) : Reader α := fun s => .hard c s

/-- The second reader is tried where the first fails softly. -/
def or (p q : Reader α) : Reader α := fun s =>
  match p s with
  | .soft => q s
  | reply => reply

/-- Turns a soft failure into a hard one at the place where the reader should have started. -/
def require (c : Complaint) (p : Reader α) : Reader α := p.or (stop c)

def optional (p : Reader α) : Reader (Option α) := fun s =>
  match p s with
  | .ok a r => .ok (some a) r
  | .soft => .ok none s
  | .hard c r => .hard c r

/-- Succeeds without reading exactly where the reader fails softly. -/
def absent (p : Reader α) : Reader Unit := fun s =>
  match p s with
  | .ok _ _ => .soft
  | .soft => .ok () s
  | .hard c r => .hard c r

theorem bind_eq_ok_iff {p : Reader α} {f : α → Reader β} {s r : Text} {b : β} :
    Reader.bind p f s = .ok b r ↔ ∃ a t, p s = .ok a t ∧ f a t = .ok b r := by
  unfold Reader.bind
  cases p s <;> simp [and_assoc]

theorem bind_eq_hard_iff {p : Reader α} {f : α → Reader β} {s r : Text} {c : Complaint} :
    Reader.bind p f s = .hard c r ↔ p s = .hard c r ∨ ∃ a t, p s = .ok a t ∧ f a t = .hard c r := by
  unfold Reader.bind
  cases p s <;> simp [and_assoc]

/-! ## Repetition -/

/-- At most `n` values in a row, up to the first soft failure. -/
def upTo (n : Nat) (p : Reader α) : Reader (List α) := fun s =>
  match n with
  | 0 => .ok [] s
  | n + 1 =>
    match p s with
    | .ok a r =>
      match upTo n p r with
      | .ok as r' => .ok (a :: as) r'
      | .soft => .soft
      | .hard c r' => .hard c r'
    | .soft => .ok [] s
    | .hard c r => .hard c r

/-- As many values in a row as there are. A text cannot hold more values than it has characters, as no value is
read from nothing, so the bound is never met. -/
def many (p : Reader α) : Reader (List α) := fun s =>
  match p s with
  | .ok a r =>
    match upTo (r.length + 1) p r with
    | .ok as r' => .ok (a :: as) r'
    | .soft => .soft
    | .hard c r' => .hard c r'
  | .soft => .ok [] s
  | .hard c r => .hard c r

/-! ## Characters -/

/-- The next character, which is not read. -/
def peek : Reader Char := fun s =>
  match s with
  | [] => .soft
  | c :: _ => .ok c s

def char (c : Char) : Reader Unit := fun s =>
  match s with
  | [] => .soft
  | d :: r => if c = d then .ok () r else .soft

/-- One character of a class. -/
def oneOf (f : Char → Bool) : Reader Char := fun s =>
  match s with
  | [] => .soft
  | c :: r => if f c then .ok c r else .soft

/-- Exactly the given text. -/
def word (w : Text) : Reader Unit := fun s =>
  match Text.strip? w s with
  | some r => .ok () r
  | none => .soft

/-- Whether the given character is next; if so, it is read. -/
def flag (c : Char) : Reader Bool := fun s =>
  match s with
  | [] => .ok false s
  | d :: r => if c = d then .ok true r else .ok false s

/-- The longest run of characters of a class, which may be empty. -/
def span (f : Char → Bool) : Reader Text := fun s => .ok (s.takeWhile f) (s.dropWhile f)

/-- The longest run of characters of a class, with at least one. -/
def span1 (f : Char → Bool) : Reader Text := fun s =>
  match s with
  | [] => .soft
  | c :: r => if f c then .ok (c :: r.takeWhile f) (r.dropWhile f) else .soft

end Reader
end BackendSwitch
