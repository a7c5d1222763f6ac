import BackendSwitch.Text.Basic

/-! How alike two words are, by the measure of Jaro: the shares of characters that occur in the other word not far
from the same place, and the share of those that stand in the same order. -/
namespace BackendSwitch.Similarity
set_option autoImplicit false

/-! ## Matching characters -/

/-- How far apart two equal characters may stand in words of the given lengths. -/
def reach (m n : Nat) : Nat := max m n / 2 - 1

/-- Marks the first unmarked place of `c` among the places from `low` up to but not with `high`. The list is the
part of the word from place `i` on, with the marks. -/
def markFirst (c : Char) (low high i : Nat) : List (Char × Bool) → Option (List (Char × Bool))
  | [] => none
  | (d, marked) :: rest =>
    if low ≤ i ∧ i < high ∧ c = d ∧ marked = false then some ((d, true) :: rest)
    else (markFirst c low high (i + 1) rest).map ((d, marked) :: ·)

/-- The characters of the first word, from place `i` on, that have a partner in the second, and the second word with
all partners marked. -/
def pairUp (range i : Nat) : Text → List (Char × Bool) → Text × List (Char × Bool)
  | [], b => ([], b)
  | c :: a, b =>
    match markFirst c (i - range) (i + range + 1) 0 b with
    | some b' =>
      let (matched, final) := pairUp range (i + 1) a b'
      (c :: matched, final)
    | none => pairUp range (i + 1) a b

/-! ## The measure -/

/-- Between 0 for words without common characters and 1 for equal ones. -/
def measure (a b : Text) : Float :=
  if a.isEmpty && b.isEmpty then 1.0
  else
    let (matched, marked) := pairUp (reach a.length b.length) 0 a (b.map fun c => (c, false))
    let partners := (marked.filter Prod.snd).map Prod.fst
    let swaps := ((matched.zip partners).filter fun (c, d) => c != d).length / 2
    let m := matched.length
    if m = 0 then 0.0
    else (m.toFloat / a.length.toFloat + m.toFloat / b.length.toFloat + (m - swaps).toFloat / m.toFloat) / 3.0

/-- Words are alike from here on. -/
def threshold : Float := 0.7

/-- Of the words that are alike the one that is most so, and of equally good ones the last. -/
def best? (word : Text) (candidates : List Text) : Option Text :=
  let step (best : Option (Float × Text)) (candidate : Text) : Option (Float × Text) :=
    let s := measure word candidate
    if s > threshold then
      match best with
      | none => some (s, candidate)
      | some (t, _) => if s < t then best else some (s, candidate)
    else best
  (candidates.foldl step none).map Prod.snd

end BackendSwitch.Similarity
