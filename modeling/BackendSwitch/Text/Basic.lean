/-! Text as a list of characters, its size as UTF-8, and its view as a list of lines. -/
namespace BackendSwitch
set_option autoImplicit false

abbrev Text := List Char

namespace Text

/-- The number of bytes of the UTF-8 form. -/
def utf8Size (t : Text) : Nat := t.foldr (fun c n => c.utf8Size + n) 0

/-- What follows `lead` in a text that starts with it. -/
def strip? : (lead t : Text) → Option Text
  | [], t => some t
  | _ :: _, [] => none
  | a :: lead, c :: t => if a = c then strip? lead t else none

/-! ## Parts and lines -/

/-- Puts a character in front of the first part. -/
def consFirst (c : Char) : List Text → List Text
  | [] => [[c]]
  | l :: ls => (c :: l) :: ls

/-- The parts of a text between the places where a character stands. -/
def split (sep : Char) : Text → List Text
  | [] => [[]]
  | c :: t => if c = sep then [] :: split sep t else consFirst c (split sep t)

/-- A line ends at a line feed, and a carriage return right before that is not part of the line.
Text after the last line feed is a line of its own unless it is empty. -/
def lines : Text → List Text
  | [] => []
  | '\r' :: '\n' :: t => [] :: lines t
  | '\n' :: t => [] :: lines t
  | c :: t => consFirst c (lines t)

def endsWithNewline (t : Text) : Bool := t.getLast? == some '\n'

/-- Rewrites a text line by line. Line ends become plain line feeds; a final one stays. -/
def mapLines (f : List Text → List Text) (t : Text) : Text :=
  List.intercalate ['\n'] (f t.lines) ++ if t.endsWithNewline then ['\n'] else []

/-! ## What is lost and what is kept -/

theorem split_ne_nil (sep : Char) (t : Text) : split sep t ≠ [] := by
  cases t with
  | nil => simp [split]
  | cons c t =>
    by_cases h : c = sep
    · simp [split, h]
    · cases hs : split sep t <;> simp [split, h, hs, consFirst]

theorem intercalate_split (sep : Char) (t : Text) : List.intercalate [sep] (split sep t) = t := by
  induction t with
  | nil => rfl
  | cons c t ih =>
    cases hs : split sep t with
    | nil => exact absurd hs (split_ne_nil sep t)
    | cons l ls =>
      rw [hs] at ih
      by_cases h : c = sep
      · have step : List.intercalate [sep] ([] :: l :: ls) = sep :: List.intercalate [sep] (l :: ls) := rfl
        simp only [split, h, if_true, hs, step, ih]
      · have step : List.intercalate [sep] ((c :: l) :: ls) = c :: List.intercalate [sep] (l :: ls) := by
          cases ls <;> rfl
        simp only [split, h, if_false, hs, consFirst, step, ih]

theorem strip?_append (lead t : Text) : strip? lead (lead ++ t) = some t := by
  induction lead with
  | nil => cases t <;> rfl
  | cons a lead ih => simp [strip?, ih]

theorem eq_append_of_strip? {lead t rest : Text} (h : strip? lead t = some rest) : t = lead ++ rest := by
  induction lead generalizing t with
  | nil => cases t <;> simpa [strip?] using h
  | cons a lead ih =>
    cases t with
    | nil => simp [strip?] at h
    | cons c t =>
      by_cases hc : a = c
      · simp only [strip?, hc, if_true] at h
        simp [hc, ih h]
      · simp [strip?, hc] at h

end Text
end BackendSwitch
