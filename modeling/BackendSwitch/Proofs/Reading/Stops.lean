import BackendSwitch.Proofs.Reading.Word

/-! # Where an expression ends

Behind a term the reader looks past blank text for anything with which the expression could go on, and how far it looks
depends on the term: within an array or a call newlines are blank, elsewhere they are not. An expression stops at a text
if every such look finds nothing. -/
namespace BackendSwitch
set_option autoImplicit false

open Grammar
open Identifier (startsWith extendsWith)

/-! ## Looking ahead -/

namespace Grammar

/-- No step of a traversal begins here. -/
def StepFree (u : Text) : Prop := u.head? ≠ some '[' ∧ ∀ t, u = '.' :: t → t.head? = some '.'

/-- Behind the blank text there are no arguments of a call. -/
def NoCall (newlines : Bool) (z : Text) : Prop := ∃ a u, gap newlines z = .ok a u ∧ callAhead u = false

/-- Behind the blank text there is nothing with which an expression goes on. -/
def NoMore (conditionals newlines : Bool) (z : Text) : Prop :=
  ∃ a u, gap newlines z = .ok a u ∧ continuation? conditionals u = none ∧ StepFree u

/-- No expression goes on here, wherever it began. -/
def Halts (conditionals : Bool) (z : Text) : Prop :=
  ∀ newlines, NoCall newlines z ∧ NoMore conditionals newlines z

/-- A text that is not blank and ends every expression in front of it. -/
structure Stopper (conditionals : Bool) (u : Text) : Prop where
  blankEnd : BlankEnd u
  noCall : callAhead u = false
  noMore : continuation? conditionals u = none
  stepFree : StepFree u

end Grammar

/-! ## How far an expression looks -/

namespace Node

/-- Whether newlines are blank text behind the first term of an expression. -/
def lines (newlines : Bool) : Node → Bool
  | .array .. => true
  | .forArray .. => true
  | .forObject .. => true
  | .call .. => true
  | .unary _ ⟨_, operand⟩ => operand.lines newlines
  | .traversal ⟨_, base⟩ _ => base.lines newlines
  | .binary ⟨_, left⟩ _ _ => left.lines newlines
  | .conditional ⟨_, test⟩ _ _ => test.lines newlines
  | _ => newlines

/-- Whether a text can stand behind a term without becoming part of it. -/
def Follows (newlines : Bool) (z : Text) : Node → Prop
  | .null => NoCall newlines z
  | .bool _ => NoCall newlines z
  | .variable _ => NoCall newlines z
  | .number _ => NoPlaces z
  | .unary _ ⟨_, operand⟩ => operand.Follows newlines z
  | _ => True

def isBinary : Node → Bool
  | .binary .. => true
  | _ => false

/-- Whether an expression ends in front of a text. -/
def Stops (newlines conditionals : Bool) (z : Text) : Node → Prop
  | .conditional ⟨_, test⟩ _ ⟨_, no⟩ => no.Stops (test.lines newlines) (conditionals && !test.isBinary) z
  | .binary ⟨_, left⟩ _ ⟨_, right⟩ =>
    right.Stops (left.lines newlines) false z ∧ NoMore conditionals (left.lines newlines) z
  | .traversal ⟨_, base⟩ _ => NoMore conditionals (base.lines newlines) z
  | n => n.Follows newlines z ∧ NoMore conditionals (n.lines newlines) z

end Node

namespace Grammar

/-! ## Texts at which all expressions stop -/

theorem continuation?_of_none {c : Bool} {u : Text} (h : continuation? true u = none) : continuation? c u = none := by
  cases c with
  | true => exact h
  | false =>
    match u with
    | [] => rfl
    | [_] => rfl
    | d :: e :: t =>
      by_cases hq : d = '?'
      · rw [hq]
        rfl
      · have hq' : (d == '?') = false := by simpa using hq
        simpa [continuation?, hq'] using h

theorem NoMore.noPlaces {c newlines : Bool} {z : Text} (h : NoMore c newlines z) : NoPlaces z := by
  obtain ⟨a, u, hgap, -, -, hdot⟩ := h
  rintro d t rfl
  have hend : GapEnd newlines ('.' :: d :: t) := (blankEnd_cons rfl).gapEnd
  rw [show gap newlines ('.' :: d :: t) = .ok [] ('.' :: d :: t) from hend] at hgap
  injection hgap with _ hu
  have hd := hdot (d :: t) hu.symm
  injection hd with hd
  rw [hd]
  rfl

theorem Halts.mono {c c' : Bool} {z : Text} (h : Halts c z) (hc : c' = true → c = true) : Halts c' z := by
  intro newlines
  obtain ⟨hcall, a, u, hgap, hnone, hstep⟩ := h newlines
  refine ⟨hcall, a, u, hgap, ?_, hstep⟩
  cases c with
  | true => exact continuation?_of_none hnone
  | false =>
    cases c' with
    | true => exact absurd (hc rfl) (by decide)
    | false => exact hnone

theorem follows_of_halts {newlines c : Bool} {z : Text} (h : Halts c z) : (n : Node) → n.Follows newlines z
  | .null => (h newlines).1
  | .bool _ => (h newlines).1
  | .variable _ => (h newlines).1
  | .number _ => (h newlines).2.noPlaces
  | .unary _ ⟨_, operand⟩ => follows_of_halts h operand
  | .string _ => trivial
  | .array .. => trivial
  | .object .. => trivial
  | .template _ => trivial
  | .heredoc .. => trivial
  | .parenthesis _ => trivial
  | .conditional .. => trivial
  | .call .. => trivial
  | .traversal .. => trivial
  | .binary .. => trivial
  | .forArray .. => trivial
  | .forObject .. => trivial

theorem stops_of_halts {newlines c : Bool} {z : Text} (h : Halts c z) : (n : Node) → n.Stops newlines c z
  | .conditional ⟨_, test⟩ _ ⟨_, no⟩ => stops_of_halts (h.mono (by simp +contextual)) no
  | .binary ⟨_, left⟩ _ ⟨_, right⟩ => ⟨stops_of_halts (h.mono (by simp)) right, (h _).2⟩
  | .traversal ⟨_, base⟩ _ => (h _).2
  | .null => ⟨follows_of_halts h _, (h _).2⟩
  | .bool _ => ⟨follows_of_halts h _, (h _).2⟩
  | .variable _ => ⟨follows_of_halts h _, (h _).2⟩
  | .number _ => ⟨follows_of_halts h _, (h _).2⟩
  | .unary .. => ⟨follows_of_halts h _, (h _).2⟩
  | .string _ => ⟨trivial, (h _).2⟩
  | .array .. => ⟨trivial, (h _).2⟩
  | .object .. => ⟨trivial, (h _).2⟩
  | .template _ => ⟨trivial, (h _).2⟩
  | .heredoc .. => ⟨trivial, (h _).2⟩
  | .parenthesis _ => ⟨trivial, (h _).2⟩
  | .call .. => ⟨trivial, (h _).2⟩
  | .forArray .. => ⟨trivial, (h _).2⟩
  | .forObject .. => ⟨trivial, (h _).2⟩

/-! ## Blank text in front of a stopper -/

theorem Pause.noCall {u : Text} (h : Pause u) : callAhead u = false := by
  rcases h with ⟨c, t, rfl, rfl | rfl | rfl⟩ | ⟨t, rfl⟩ <;> rfl

theorem Pause.continuation? {c : Bool} {u : Text} (h : Pause u) : continuation? c u = none := by
  rcases h with ⟨d, t, rfl, rfl | rfl | rfl⟩ | ⟨t, rfl⟩
  · cases t <;> rfl
  · cases t <;> rfl
  · cases t <;> rfl
  · rfl

theorem Pause.stepFree {u : Text} (h : Pause u) : StepFree u := by
  rcases h with ⟨d, t, rfl, rfl | rfl | rfl⟩ | ⟨t, rfl⟩ <;> exact ⟨by simp, by intro v hv; cases hv⟩

/-- However newlines are taken, blank text leads to what is behind it or to the end of a line. -/
theorem gap_of_blank (newlines : Bool) {t r : Text} (ht : Blank t) (hr : BlankEnd r) :
    ∃ a u, gap newlines (t ++ r) = .ok a u ∧ (u = r ∨ Pause u) := by
  cases newlines with
  | true => exact ⟨t, r, blank_append ht hr, .inl rfl⟩
  | false =>
    obtain ⟨a, u, ha, hu⟩ := inline_of_blank ht hr.inlineEnd
    exact ⟨a, u, ha, hu.imp_left And.left⟩

theorem noCall_of_blank {newlines : Bool} {t r : Text} (ht : Blank t) (hr : BlankEnd r) (hcall : callAhead r = false) :
    NoCall newlines (t ++ r) := by
  obtain ⟨a, u, ha, rfl | hu⟩ := gap_of_blank newlines ht hr
  · exact ⟨a, u, ha, hcall⟩
  · exact ⟨a, u, ha, hu.noCall⟩

theorem halts_of_stopper {c : Bool} {t r : Text} (ht : Blank t) (hr : Stopper c r) : Halts c (t ++ r) := by
  intro newlines
  refine ⟨noCall_of_blank ht hr.blankEnd hr.noCall, ?_⟩
  obtain ⟨a, u, ha, rfl | hu⟩ := gap_of_blank newlines ht hr.blankEnd
  · exact ⟨a, u, ha, hr.noMore, hr.stepFree⟩
  · exact ⟨a, u, ha, hu.continuation?, hu.stepFree⟩

theorem Stopper.halts {c : Bool} {r : Text} (h : Stopper c r) : Halts c r := halts_of_stopper .nil h

theorem not_isSolid_of_blank {c : Char} {t : Text} (h : Blank (c :: t)) : isSolid c = false := by
  cases hc : isSolid c with
  | false => rfl
  | true =>
    have hread := blank_append h blankEnd_nil
    rw [List.append_nil, blankEnd_cons hc] at hread
    injection hread with hnil _
    cases hnil

theorem head_of_blank {t r : Text} {c : Char} (ht : Blank t) (hc : isSolid c = true) (hr : r.head? ≠ some c) :
    (t ++ r).head? ≠ some c := by
  cases t with
  | nil => exact hr
  | cons d t =>
    intro h
    cases h
    rw [not_isSolid_of_blank ht] at hc
    cases hc

theorem alike_append {t r r' : Text} (ht : Blank t) (hr : Alike r r') : Alike (t ++ r) (t ++ r') := by
  cases t with
  | nil => exact hr
  | cons d t =>
    have hd := not_isSolid_of_blank ht
    refine alike_cons ?_ ?_
    · rintro rfl
      cases hd
    · rintro rfl
      cases hd

/-- Behind blank text nothing runs on. -/
theorem avoids_of_blank {t r : Text} (ht : Blank t) (hr : r.Avoids extendsWith) : (t ++ r).Avoids extendsWith := by
  cases t with
  | nil => exact hr
  | cons d t =>
    refine Text.avoids_cons.mpr ?_
    cases hd : extendsWith d with
    | false => rfl
    | true =>
      have hsolid := isSolid_of_extendsWith hd
      rw [not_isSolid_of_blank ht] at hsolid
      cases hsolid

theorem alike_of_blank {t r x : Text} (ht : Blank t) (hr : r.Avoids extendsWith) : Alike x (t ++ r) :=
  alike_of_avoids (avoids_of_blank ht hr)

/-! ## Stoppers -/

/-- The characters that end an expression whatever is behind them. -/
def isCloser (c : Char) : Bool := c == ')' || c == ']' || c == '}' || c == ',' || c == '~' || c == '"'

theorem stopper_closer {c : Bool} {d : Char} {t : Text} (h : isCloser d = true) : Stopper c (d :: t) := by
  simp only [isCloser, Bool.or_eq_true, beq_iff_eq] at h
  rcases h with ((((rfl | rfl) | rfl) | rfl) | rfl) | rfl <;>
    exact ⟨blankEnd_cons rfl, rfl, by cases t <;> rfl, by simp, by intro v hv; cases hv⟩

theorem stopper_colon {c : Bool} {t : Text} (h : t.head? ≠ some ':') : Stopper c (':' :: t) := by
  refine ⟨blankEnd_cons rfl, ?_, by cases t <;> rfl, by simp, by intro v hv; cases hv⟩
  cases t with
  | nil => rfl
  | cons d t =>
    have hd : d ≠ ':' := by simpa using h
    unfold callAhead
    split
    · next heq =>
      injection heq with _ heq
      injection heq with heq _
      exact absurd heq hd
    · next heq => cases heq
    · rfl

theorem stopper_equals {c : Bool} {t : Text} (h : t.head? ≠ some '=') : Stopper c ('=' :: t) := by
  refine ⟨blankEnd_cons rfl, by cases t <;> rfl, ?_, by simp, by intro v hv; cases hv⟩
  cases t with
  | nil => rfl
  | cons d t =>
    have hd : (d == '=') = false := by simpa using h
    simp [continuation?, hd]

theorem stopper_dots {c : Bool} {t : Text} : Stopper c ('.' :: '.' :: t) :=
  ⟨blankEnd_cons rfl, rfl, rfl, by simp, by intro v hv; cases hv; rfl⟩

theorem stopper_question {t : Text} : Stopper false ('?' :: t) :=
  ⟨blankEnd_cons rfl, rfl, by cases t <;> rfl, by simp, by intro v hv; cases hv⟩

theorem stopper_of_startsWith {c : Bool} {d : Char} {t : Text} (h : startsWith d = true) : Stopper c (d :: t) := by
  have hne : ∀ x : Char, startsWith x = false → d ≠ x := by
    rintro x hx rfl
    rw [h] at hx
    cases hx
  refine ⟨blankEnd_cons (isSolid_of_startsWith h), ?_, ?_, ?_, ?_⟩
  · unfold callAhead
    split
    · next heq => exact absurd (List.cons.inj heq).1 (hne ':' rfl)
    · next heq => exact absurd (List.cons.inj heq).1 (hne '(' rfl)
    · rfl
  · cases t with
    | nil => rfl
    | cons e t =>
      simp [continuation?, hne '/' rfl, hne '.' rfl, hne '[' rfl, hne '?' rfl, hne '=' rfl, hne '!' rfl, hne '<' rfl,
        hne '>' rfl, hne '+' rfl, hne '-' rfl, hne '*' rfl, hne '%' rfl, hne '&' rfl, hne '|' rfl]
  · simpa using hne '[' rfl
  · rintro v hv
    exact absurd (List.cons.inj hv).1 (hne '.' rfl)

theorem stopper_nil {c : Bool} : Stopper c [] := ⟨blankEnd_nil, rfl, rfl, by simp, by intro v hv; cases hv⟩

end Grammar
end BackendSwitch
