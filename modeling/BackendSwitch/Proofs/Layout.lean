import BackendSwitch.Proofs.Reading.Line
import BackendSwitch.Proofs.Values

/-! # How a body is laid out

Where blank text may stand in a body, and which: within a line around the parts of a structure, over several lines in front
of it, up to a comment behind it. Every body that is read is laid out like this, and every edit leaves a body laid out. -/
namespace BackendSwitch
set_option autoImplicit false

open Grammar

/-! ## Laid out bodies -/

/-- An attribute from its key to its value. -/
structure Attribute.Formed (a : Attribute) : Prop where
  key : IsIdentifier a.key
  keyAfter : Inline (a.keyAfter.getD [' '])
  before : Inline (a.value.decor.before.getD [' '])

/-- A name does not run into a bare label behind it. -/
def Apart (after : Option Text) (labels : List Label) : Prop :=
  after.getD [' '] = [] → ∀ t a, labels.head? ≠ some (.bare t a)

def LabelsFormed : List Label → Prop
  | [] => True
  | .quoted _ after :: ls => Inline (after.getD [' ']) ∧ LabelsFormed ls
  | .bare t after :: ls => (IsIdentifier t ∧ Inline (after.getD [' ']) ∧ Apart after ls) ∧ LabelsFormed ls

/-- A block from its identifier to the opening brace of its body. -/
structure Block.HeadFormed (ident : Text) (identAfter : Option Text) (labels : List Label) : Prop where
  name : IsIdentifier ident
  behind : Inline (identAfter.getD [' '])
  apart : Apart identAfter labels
  labelled : LabelsFormed labels

/-- Blank text around a structure with a line of its own. -/
structure Decor.Formed (d : Decor) : Prop where
  before : Blank (d.before.getD [])
  after : Trailing (d.after.getD [])

/-- Blank text around an attribute on the line of a brace. -/
structure Decor.LineFormed (d : Decor) : Prop where
  before : Inline (d.before.getD [' '])
  after : Inline (d.after.getD [' '])

/-- The keys that are set in a body. -/
def keys (ss : List Structure) : List Text :=
  ss.filterMap fun
    | .attr a => some a.key
    | .block _ => none

/-- Blank text around the structures of a body. -/
def Decor.Frames (oneLine : Bool) (d : Decor) : Prop :=
  if oneLine then Inline (d.before.getD []) ∧ Inline (d.after.getD [])
  else Trailing (d.before.getD []) ∧ Blank (d.after.getD [])

mutual

/-- A structure in a body that is marked as written on one line or not. A block has its own lines in either case. -/
def Structure.Formed (oneLine : Bool) : Structure → Prop
  | .attr a => (if oneLine then a.decor.LineFormed else a.decor.Formed) ∧ a.Formed
  | .block b => b.Formed

def Block.Formed : Block → Prop
  | ⟨decor, ident, identAfter, labels, body⟩ => decor.Formed ∧ Block.HeadFormed ident identAfter labels ∧ body.Formed

def Body.Formed : Body → Prop
  | ⟨decor, items, oneLine, _⟩ => decor.Frames oneLine ∧ AllFormed oneLine items ∧ (keys items).Nodup

def AllFormed (oneLine : Bool) : List Structure → Prop
  | [] => True
  | s :: ss => s.Formed oneLine ∧ AllFormed oneLine ss

end

theorem allFormed_iff {oneLine : Bool} {ss : List Structure} : AllFormed oneLine ss ↔ ∀ s ∈ ss, s.Formed oneLine := by
  induction ss with
  | nil => simp [AllFormed]
  | cons s ss ih => simp [AllFormed, ih]

theorem Block.formed_iff {b : Block} :
    b.Formed ↔ b.decor.Formed ∧ HeadFormed b.ident b.identAfter b.labels ∧ b.body.Formed := by
  cases b
  rfl

theorem Body.formed_iff {b : Body} : b.Formed ↔
    b.decor.Frames b.oneLine ∧ (∀ s ∈ b.items, s.Formed b.oneLine) ∧ (keys b.items).Nodup := by
  cases b
  rw [Body.Formed, allFormed_iff]

/-! ## What is written on one line and what is not -/

/-- A body on the line of its braces. -/
structure Body.LineFormed (b : Body) : Prop where
  before : Inline (b.decor.before.getD [])
  after : Inline (b.decor.after.getD [])
  attr : ∀ a, .attr a ∈ b.items → a.decor.LineFormed ∧ a.Formed

/-- A body over several lines. -/
structure Body.LinesFormed (b : Body) : Prop where
  before : Trailing (b.decor.before.getD [])
  after : Blank (b.decor.after.getD [])
  items : ∀ s ∈ b.items, s.Formed false
  keys : (keys b.items).Nodup

theorem Grammar.Inline.of_default {t : Option Text} {d : Text} (h : Inline (t.getD d)) : Inline (t.getD []) := by
  cases t with
  | none => exact .nil
  | some t => exact h

/-- What may stand on the line of a brace may stand on a line of its own. -/
theorem Structure.Formed.lines {oneLine : Bool} {s : Structure} (h : s.Formed oneLine) : s.Formed false := by
  cases s with
  | block b => exact h
  | attr a =>
    cases oneLine with
    | false => exact h
    | true =>
      obtain ⟨hdecor, ha⟩ : a.decor.LineFormed ∧ a.Formed := h
      exact ⟨⟨hdecor.before.of_default.blank, hdecor.after.of_default.trailing⟩, ha⟩

theorem Body.Formed.lines {b : Body} (h : b.Formed) : b.LinesFormed := by
  obtain ⟨hframes, hitems, hkeys⟩ := formed_iff.mp h
  have hlines : ∀ s ∈ b.items, s.Formed false := fun s hs => (hitems s hs).lines
  unfold Decor.Frames at hframes
  split at hframes
  · exact ⟨hframes.1.trailing, hframes.2.blank, hlines, hkeys⟩
  · exact ⟨hframes.1, hframes.2, hlines, hkeys⟩

theorem Body.Formed.line {b : Body} (h : b.Formed) (hline : b.isLine = true) : b.LineFormed := by
  have hone : b.oneLine = true := by
    unfold isLine at hline
    split at hline
    · assumption
    · assumption
    · cases hline
  obtain ⟨hframes, hitems, -⟩ := formed_iff.mp h
  rw [hone] at hframes hitems
  exact ⟨hframes.1, hframes.2, fun a ha => hitems (.attr a) ha⟩

/-! ## The block of a backend -/

theorem inline_replicate (n : Nat) : Inline (List.replicate n ' ') := by
  induction n with
  | zero => exact .nil
  | succ n ih => exact .space rfl ih

namespace S3Backend

theorem isIdentifier_setting {backend : S3Backend} {p : Text × Setting} (h : p ∈ backend.settings) :
    IsIdentifier p.1 := by
  simp only [settings, List.mem_cons, List.not_mem_nil, or_false] at h
  rcases h with rfl | rfl | rfl | rfl
  · exact ⟨'b', _, rfl, rfl, List.all_eq_true.mp rfl⟩
  · exact ⟨'k', _, rfl, rfl, List.all_eq_true.mp rfl⟩
  · exact ⟨'r', _, rfl, rfl, List.all_eq_true.mp rfl⟩
  · exact ⟨'e', _, rfl, rfl, List.all_eq_true.mp rfl⟩

theorem keys_block (backend : S3Backend) : keys backend.block.body.items =
    [['b', 'u', 'c', 'k', 'e', 't'], ['k', 'e', 'y'], ['r', 'e', 'g', 'i', 'o', 'n'],
      ['e', 'n', 'c', 'r', 'y', 'p', 't']] := rfl

theorem formed_block (backend : S3Backend) : backend.block.Formed := by
  have hitems : ∀ s ∈ backend.block.body.items, s.Formed false := by
    intro s hs
    obtain ⟨⟨key, setting⟩, hmem, rfl⟩ := List.mem_map.mp hs
    exact ⟨⟨(inline_replicate 4).blank, Inline.nil.trailing⟩, isIdentifier_setting hmem, inline_replicate _,
      inline_replicate 1⟩
  have hkeys : (keys backend.block.body.items).Nodup := by
    rw [keys_block]
    decide
  refine ⟨⟨(inline_replicate 2).blank, Inline.nil.trailing⟩,
    ⟨⟨'b', _, rfl, rfl, List.all_eq_true.mp rfl⟩, inline_replicate 1, fun h => (by cases h), inline_replicate 1, trivial⟩,
    ?_⟩
  exact Body.formed_iff.mpr ⟨⟨Inline.nil.trailing, (inline_replicate 2).blank⟩, hitems, hkeys⟩

end S3Backend

/-! ## Edits -/

theorem keys_map_withDecor (decor : Decor) (ss : List Structure) : keys (ss.map (Structure.withDecor decor)) = keys ss := by
  rw [keys, List.filterMap_map]
  refine congrArg (List.filterMap · ss) (funext fun s => ?_)
  cases s <;> rfl

theorem keys_append (ss ts : List Structure) : keys (ss ++ ts) = keys ss ++ keys ts := List.filterMap_append

theorem keys_append_cons_block (before behind : List Structure) (block : Block) :
    keys (before ++ .block block :: behind) = keys (before ++ behind) := by
  rw [keys_append, keys_append]
  rfl

theorem keys_append_block (ss : List Structure) (b : Block) : keys (ss ++ [.block b]) = keys ss := by
  rw [keys_append_cons_block, List.append_nil]

theorem keys_modifyBlock (ident : Text) (f : Body → Body) (ss : List Structure) :
    keys (Structure.modifyBlock ident f ss) = keys ss := by
  induction ss with
  | nil => rfl
  | cons s ss ih =>
    cases s with
    | attr a => exact congrArg (a.key :: ·) ih
    | block c =>
      rw [Structure.modifyBlock]
      split
      · rfl
      · exact ih

namespace Body

theorem Formed.without {ident : Text} {b : Body} (h : b.Formed) : (b.without ident).Formed := by
  obtain ⟨hframes, hitems, hkeys⟩ := formed_iff.mp h
  exact formed_iff.mpr ⟨hframes, fun s hs => hitems s (List.mem_of_mem_eraseP hs),
    hkeys.sublist (List.eraseP_sublist.filterMap _)⟩

theorem Formed.expand {b : Body} (h : b.Formed) : b.expand.Formed := by
  obtain ⟨hframes, hitems, hkeys⟩ := formed_iff.mp h
  unfold Body.expand
  split
  · next hone =>
    rw [hone] at hframes hitems
    refine formed_iff.mpr ⟨?_, fun s hs => ?_, ?_⟩
    · rw [hone]
      exact ⟨hframes.1, .nil⟩
    · rw [hone]
      obtain ⟨old, hmem, rfl⟩ := List.mem_map.mp hs
      cases old with
      | attr a =>
        obtain ⟨-, hkey, hafter, hbefore⟩ := hitems _ hmem
        exact ⟨⟨inline_replicate 2, .nil⟩, hkey, hafter, hbefore⟩
      | block c =>
        obtain ⟨-, hc⟩ := Block.formed_iff.mp (hitems _ hmem)
        exact Block.formed_iff.mpr ⟨⟨(inline_replicate 2).blank, Inline.nil.trailing⟩, hc⟩
    · show (keys (b.items.map _)).Nodup
      rw [keys_map_withDecor]
      exact hkeys
  · exact h

theorem Formed.pushS3 {backend : S3Backend} {b : Body} (h : b.Formed) : (b.pushS3 backend).Formed := by
  obtain ⟨hframes, hitems, hkeys⟩ := formed_iff.mp h
  refine formed_iff.mpr ⟨hframes, fun s hs => ?_, ?_⟩
  · rcases List.mem_append.mp hs with hs | hs
    · exact hitems s hs
    · obtain rfl := List.mem_singleton.mp hs
      exact backend.formed_block
  · rw [Body.pushS3, items_push, keys_append_block]
    exact hkeys

theorem Formed.modifyBlock {ident : Text} {f : Body → Body} {b : Body} (hf : ∀ c : Body, c.Formed → (f c).Formed)
    (h : b.Formed) : (b.modifyBlock ident f).Formed := by
  obtain ⟨hframes, hitems, hkeys⟩ := formed_iff.mp h
  refine formed_iff.mpr ⟨hframes, fun s hs => ?_, ?_⟩
  · rcases Structure.mem_modifyBlock hs with hs | ⟨c, hc, rfl⟩
    · exact hitems s hs
    · obtain ⟨hdecor, hhead, hbody⟩ := Block.formed_iff.mp (hitems _ hc)
      exact Block.formed_iff.mpr ⟨hdecor, hhead, hf c.body hbody⟩
  · show (keys (Structure.modifyBlock ident f b.items)).Nodup
    rw [keys_modifyBlock]
    exact hkeys

end Body
end BackendSwitch
