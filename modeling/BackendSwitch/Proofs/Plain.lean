import BackendSwitch.Proofs.Reading.Attribute

/-! # Values that are found to be sound

Soundness speaks of every text that could stand behind a value. Of values that are made of words, strings, templates, lists,
objects, calls and heredocs it can be found out by evaluation. A value is plain if it is sound for a reason of that kind. -/
namespace BackendSwitch
set_option autoImplicit false

open Grammar

/-! ## Templates -/

/-- Whether a text does not end with the sign of the marker that begins behind it. -/
def isParted (t r : Text) : Bool :=
  decide (r.head? ≠ some '{') && r.head?.all fun c =>
    !(Escape.isMarkerSign c && decide ((r.drop 1).head? = some '{') && decide (t.getLast? = some c))

theorem isParted_iff {t r : Text} : isParted t r = true ↔ Escape.Parted t r := by
  rw [isParted, Bool.and_eq_true, decide_eq_true_eq]
  refine and_congr_right fun _ => ?_
  cases r with
  | nil => simp
  | cons c u =>
    simp only [List.head?_cons, Option.all_some, List.drop_one, List.tail_cons, Bool.not_eq_true', Bool.and_eq_false_iff,
      decide_eq_false_iff_not]
    refine ⟨?_, fun h => ?_⟩
    · rintro h d v hsign ⟨rfl, rfl⟩ hlast
      simp [hsign, hlast] at h
    · by_cases hsign : Escape.isMarkerSign c = true
      · by_cases hbrace : u.head? = some '{'
        · obtain ⟨v, rfl⟩ := List.head?_eq_some_iff.mp hbrace
          exact .inr (h c v hsign rfl)
        · exact .inl (.inr hbrace)
      · exact .inl (.inl (Bool.eq_false_iff.mpr hsign))

instance (t r : Text) : Decidable (Escape.Parted t r) := decidable_of_iff _ isParted_iff

def decideWoven (following : Text) : (es : List Element) → Decidable (Woven following es)
  | [] => .isTrue trivial
  | .literal t :: es =>
    have := decideWoven following es
    inferInstanceAs (Decidable ((t ≠ [] ∧ Escape.Legible t ∧ Escape.Parted t (es.flatMap Element.text ++ following) ∧
      ∀ e ∈ es.head?, e.isLiteral = false) ∧ Woven following es))
  | .interpolation .. :: es => decideWoven following es
  | .branch .. :: es => decideWoven following es
  | .loop .. :: es => decideWoven following es

instance (following : Text) (es : List Element) : Decidable (Woven following es) := decideWoven following es

instance (es : List Element) : Decidable (QuotedSound es) :=
  decidable_of_iff (Woven ['"'] es ∧ (∃ e ∈ es, e.isLiteral = false) ∧
      render true (templatePieces es) = es.flatMap Element.quotedText)
    ⟨fun ⟨h1, h2, h3⟩ => ⟨h1, h2, h3⟩, fun h => ⟨h.woven, h.mixed, h.text⟩⟩

/-! ## Margins of heredocs -/

namespace Indentation

/-- Puts a margin in front of the lines of a literal that are not empty, but not of a continued first one. -/
def indented (n : Nat) (continued : Bool) (t : Text) : Text :=
  let margin := fun l : Text => if l.isEmpty then l else List.replicate n ' ' ++ l
  t.mapLines fun ls => if continued then ls.take 1 ++ (ls.drop 1).map margin else ls.map margin

def restore (n : Nat) : Bool → List Element → List Element
  | _, [] => []
  | continued, .literal t :: es => .literal (indented n continued t) :: restore n (!t.endsWithNewline) es
  | _, e :: es => e :: restore n true es

/-- Whether taking the margin away again gives back each literal. -/
def restores (n : Nat) : Bool → List Element → Bool
  | _, [] => true
  | continued, .literal t :: es => decide (dropFrom n continued (indented n continued t) = t) &&
      decide ((indented n continued t).endsWithNewline = t.endsWithNewline) && restores n (!t.endsWithNewline) es
  | _, _ :: es => restores n true es

theorem remove_restore {n : Nat} {continued : Bool} {es : List Element} (h : restores n continued es = true) :
    remove n continued (restore n continued es) = es := by
  induction es generalizing continued with
  | nil => rfl
  | cons e es ih =>
    cases e with
    | literal t =>
      simp only [restores, Bool.and_eq_true, decide_eq_true_eq] at h
      obtain ⟨⟨hdrop, hend⟩, hrest⟩ := h
      rw [restore, remove, hdrop, hend, ih hrest]
    | interpolation strip e => exact congrArg (_ :: ·) (ih h)
    | branch strip before test yes middle no close => exact congrArg (_ :: ·) (ih h)
    | loop strip intro body close => exact congrArg (_ :: ·) (ih h)

end Indentation

/-- A template without the line end at its end, if it ends with a literal that has one behind other text. -/
def withoutEnd? : List Element → Option (List Element)
  | [] => none
  | [.literal t] => if t.getLast? = some '\n' then some [.literal t.dropLast] else none
  | e :: es => (withoutEnd? es).map (e :: ·)

theorem appendLiteral_withoutEnd {es body : List Element} (h : withoutEnd? es = some body) :
    appendLiteral ['\n'] body = es := by
  fun_induction withoutEnd? es generalizing body with
  | case1 => cases h
  | case2 t hlast =>
    obtain ⟨u, rfl⟩ := List.getLast?_eq_some_iff.mp hlast
    cases h
    simp [appendLiteral]
  | case3 t hlast => cases h
  | case4 e es hne ih =>
    obtain ⟨rest, hrest, rfl⟩ := Option.map_eq_some_iff.mp h
    have hmore := ih hrest
    cases rest with
    | nil =>
      obtain rfl : [.literal ['\n']] = es := hmore
      cases hrest
    | cons first rest => rw [appendLiteral.eq_3 _ _ _ (by simp), hmore]

/-- The template from which a margin was taken away, as far as it can be put back. -/
def wholeTemplate (indent : Option Nat) (es : List Element) : List Element :=
  match indent with
  | none => es
  | some n => Indentation.restore n false es

def isUnindented (indent : Option Nat) (es : List Element) : Bool :=
  match indent with
  | none => true
  | some n => Indentation.restores n false es && decide (Indentation.measure? (wholeTemplate indent es) = some n)

theorem unindented_of_isUnindented {indent : Option Nat} {es : List Element} (h : isUnindented indent es = true) :
    Unindented indent (wholeTemplate indent es) es := by
  cases indent with
  | none => rfl
  | some n =>
    obtain ⟨hrestores, hmeasure⟩ := Bool.and_eq_true_iff.mp h
    exact ⟨of_decide_eq_true hmeasure, Indentation.remove_restore hrestores⟩

/-- Whether a heredoc is read back with the body that its text gives it. -/
def isHeredoc (delimiter : Text) (indent : Option Nat) (es : List Element) (tail : Text) : Bool :=
  isUnindented indent es && (withoutEnd? (wholeTemplate indent es)).any fun body =>
    decide (heredocText indent es = body.flatMap Element.text ++ ['\n'] ∧ Woven ['\n'] body) &&
      (List.range (body.flatMap Element.text).length).all fun n =>
        !atDelimiter delimiter ((body.flatMap Element.text).drop n ++ '\n' :: (tail ++ delimiter))

theorem heredocSound_of_isHeredoc {delimiter tail : Text} {indent : Option Nat} {es : List Element}
    (h : isHeredoc delimiter indent es tail = true) : HeredocSound delimiter indent es tail := by
  obtain ⟨hindent, hbody⟩ := Bool.and_eq_true_iff.mp h
  obtain ⟨body, hwhole, hbody⟩ := (Option.any_eq_true _ _).mp hbody
  simp only [Bool.and_eq_true, decide_eq_true_eq, List.all_eq_true, List.mem_range, Bool.not_eq_true'] at hbody
  obtain ⟨⟨htext, hwoven⟩, hdelimiter⟩ := hbody
  refine ⟨body, ['\n'], .inl rfl, htext, ?_, hwoven, fun u v hsplit hv => ?_⟩
  · rw [appendLiteral_withoutEnd hwhole]
    exact unindented_of_isUnindented hindent
  · have hlength := hdelimiter u.length
    rw [hsplit, List.length_append, List.drop_left] at hlength
    exact hlength (Nat.lt_add_of_pos_right (List.length_pos_iff.mpr hv))

/-! ## Objects -/

/-- Whether a value ends with its line, whatever is on the next one. -/
def Expr.endsWithLine (e : Expr) : Bool :=
  e.node.isOperand && decide (e.node.lines false = false) && decide (e.decor.tail = [])

def isSeparate (tail : Text) : List ObjectItem → Bool
  | [] => true
  | i :: is => (match i.terminator with
      | .absent => is.isEmpty && tail.isEmpty
      | .comma => true
      | .newline => is.isEmpty || i.value.endsWithLine) && isSeparate tail is

theorem Node.stops_of_pause {n : Node} {z : Text} (hn : n.isOperand = true) (hlines : n.lines false = false)
    (hz : Pause z) : n.Stops false true z := by
  have hmore : NoMore true (n.lines false) z := by
    rw [hlines]
    exact ⟨[], z, hz.inlineEnd, hz.continuation?, hz.stepFree⟩
  have hcall : NoCall false z := ⟨[], z, hz.inlineEnd, hz.noCall⟩
  match n, hn with
  | .null, _ | .bool _, _ | .variable _, _ => exact ⟨hcall, hmore⟩
  | .number _, _ => exact ⟨hmore.noPlaces, hmore⟩
  | .string _, _ | .array .., _ | .object .., _ | .template _, _ | .heredoc .., _ | .parenthesis _, _ | .call .., _
  | .forArray .., _ | .forObject .., _ => exact ⟨trivial, hmore⟩

theorem separate_of_isSeparate {tail : Text} {items : List ObjectItem} (h : isSeparate tail items = true) :
    Separate tail items := by
  induction items with
  | nil => trivial
  | cons i is ih =>
    obtain ⟨hfirst, hrest⟩ := Bool.and_eq_true_iff.mp h
    refine ⟨?_, ih hrest⟩
    cases hterminator : i.terminator with
    | absent => simpa [hterminator] using hfirst
    | comma => trivial
    | newline =>
      rintro j js rfl x
      simp only [hterminator, List.isEmpty_cons, Bool.false_or, Expr.endsWithLine, Bool.and_eq_true, decide_eq_true_eq]
        at hfirst
      obtain ⟨⟨hoperand, hlines⟩, htail⟩ := hfirst
      rw [htail]
      exact Node.stops_of_pause hoperand hlines (.inl ⟨'\n', _, rfl, .inl rfl⟩)

/-! ## Values -/

mutual

def Expr.isPlain : Expr → Bool
  | ⟨_, node⟩ => node.isPlain

/-- Whether a value is a word, or made of plain values in a way that is found to be sound. -/
def Node.isPlain : Node → Bool
  | .null => true
  | .bool _ => true
  | .number _ => true
  | .string t => decide (Escape.Legible t)
  | .array items comma _ =>
    allPlain items && decide (items = [] → comma = false) && items.head?.all fun e => !opensLoop e.core
  | .object items tail => itemsPlain items && isSeparate tail items &&
      decide ((ObjectItem.merge items).length = items.length) && items.head?.all fun i => !opensLoop i.key.core
  | .template elements => elementsPlain elements && decide (QuotedSound elements)
  | .heredoc delimiter indent elements tail => elementsPlain elements && isHeredoc delimiter indent elements tail
  | .parenthesis inner => inner.isPlain
  | .variable _ => true
  | .call _ arguments _ _ => allPlain arguments
  | _ => false

def allPlain : List Expr → Bool
  | [] => true
  | e :: es => e.isPlain && allPlain es

def itemsPlain : List ObjectItem → Bool
  | [] => true
  | i :: is => i.isPlain && itemsPlain is

def ObjectItem.isPlain : ObjectItem → Bool
  | ⟨key, _, value, _⟩ => key.isPlain && value.isPlain

def Key.isPlain : Key → Bool
  | .name _ => true
  | .expr e => e.isPlain

def elementsPlain : List Element → Bool
  | [] => true
  | e :: es => e.isPlain && elementsPlain es

def Element.isPlain : Element → Bool
  | .literal _ => true
  | .interpolation _ e => e.isPlain
  | _ => false

end

/-! ## Soundness -/

theorem opensLoop_of_head {α : Type} {core : α → Text} {as : List α} (h : (as.head?.all fun a => !opensLoop (core a)) = true) :
    ∀ a rest, as = a :: rest → opensLoop (core a) = false := by
  rintro a rest rfl
  simpa using h

mutual

theorem Expr.sound_of_isPlain : (e : Expr) → e.isPlain = true → e.Sound
  | ⟨_, node⟩, h => Node.sound_of_isPlain node h

theorem Node.sound_of_isPlain : (n : Node) → n.isPlain = true → n.Sound
  | .null, _ | .bool _, _ | .number _, _ | .variable _, _ => trivial
  | .string t, h => (of_decide_eq_true h : Escape.Legible t)
  | .array items comma _, h => by
    simp only [Node.isPlain, Bool.and_eq_true, decide_eq_true_eq] at h
    exact ⟨allSound_of_allPlain items h.1.1, h.1.2, opensLoop_of_head h.2⟩
  | .object items tail, h => by
    simp only [Node.isPlain, Bool.and_eq_true, decide_eq_true_eq] at h
    exact ⟨itemsSound_of_itemsPlain items h.1.1.1, ObjectItem.merge_eq_of_length h.1.2, separate_of_isSeparate h.1.1.2,
      opensLoop_of_head h.2⟩
  | .template elements, h => by
    simp only [Node.isPlain, Bool.and_eq_true, decide_eq_true_eq] at h
    exact ⟨elementsSound_of_elementsPlain elements h.1, h.2⟩
  | .heredoc _ _ elements _, h => by
    simp only [Node.isPlain, Bool.and_eq_true] at h
    exact ⟨elementsSound_of_elementsPlain elements h.1, heredocSound_of_isHeredoc h.2⟩
  | .parenthesis inner, h => Expr.sound_of_isPlain inner h
  | .call _ arguments _ _, h => allSound_of_allPlain arguments h

theorem allSound_of_allPlain : (es : List Expr) → allPlain es = true → AllSound es
  | [], _ => trivial
  | e :: es, h => by
    obtain ⟨he, hes⟩ := Bool.and_eq_true_iff.mp h
    exact ⟨Expr.sound_of_isPlain e he, allSound_of_allPlain es hes⟩

theorem itemsSound_of_itemsPlain : (items : List ObjectItem) → itemsPlain items = true → ItemsSound items
  | [], _ => trivial
  | i :: is, h => by
    obtain ⟨hi, his⟩ := Bool.and_eq_true_iff.mp h
    exact ⟨ObjectItem.sound_of_isPlain i hi, itemsSound_of_itemsPlain is his⟩

theorem ObjectItem.sound_of_isPlain : (i : ObjectItem) → i.isPlain = true → i.Sound
  | ⟨key, _, value, _⟩, h => by
    obtain ⟨hkey, hvalue⟩ := Bool.and_eq_true_iff.mp h
    exact ⟨Key.sound_of_isPlain key hkey, Expr.sound_of_isPlain value hvalue⟩

theorem Key.sound_of_isPlain : (k : Key) → k.isPlain = true → k.Sound
  | .name _, _ => trivial
  | .expr e, h => Expr.sound_of_isPlain e h

theorem elementsSound_of_elementsPlain : (es : List Element) → elementsPlain es = true → ElementsSound es
  | [], _ => trivial
  | e :: es, h => by
    obtain ⟨he, hes⟩ := Bool.and_eq_true_iff.mp h
    exact ⟨Element.sound_of_isPlain e he, elementsSound_of_elementsPlain es hes⟩

theorem Element.sound_of_isPlain : (e : Element) → e.isPlain = true → e.Sound
  | .literal _, _ => trivial
  | .interpolation _ e, h => Expr.sound_of_isPlain e h

end

/-- A plain value behind which no blank text has gathered. -/
def Expr.Plain (e : Expr) : Prop := e.isPlain = true ∧ e.decor.tail = []

instance (e : Expr) : Decidable e.Plain := inferInstanceAs (Decidable (_ ∧ _))

theorem Expr.Plain.faultless {e : Expr} (h : e.Plain) : e.Faultless :=
  ⟨(Expr.sound_iff e).mp (Expr.sound_of_isPlain e h.1), h.2⟩

end BackendSwitch
