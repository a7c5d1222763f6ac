import BackendSwitch.Proofs.Values

/-! # The tree that a text is read as

The text of a tree does not show which blank text the tree carries and which the printer supplies, nor to which of two
neighbouring parts blank text belongs. The tree that is read of it carries all its blank text, in the places where the
reader puts it. It has the same text. -/
namespace BackendSwitch
set_option autoImplicit false

/-! ## Blank text in its places -/

def Expr.reread (e : Expr) : Expr :=
  ⟨⟨some (e.decor.before.getD [' ']), e.decor.after.map fun _ => []⟩, e.node⟩

/-- An attribute with the given blank text around it. -/
def Attribute.reread (decor : Decor) (a : Attribute) : Attribute :=
  ⟨decor, a.key, some (a.keyAfter.getD [' ']), a.value.reread⟩

def Label.reread : Label → Label
  | .quoted text after => .quoted text (some (after.getD [' ']))
  | .bare text after => .bare text (some (after.getD [' ']))

mutual

def Structure.reread : Structure → Structure
  | .attr a => .attr (a.reread (.around (a.decor.before.getD []) (a.rest [])))
  | .block b => .block b.reread

def Block.reread : Block → Block
  | ⟨decor, ident, identAfter, labels, body⟩ =>
    ⟨.around (decor.before.getD []) (decor.after.getD []), ident, some (identAfter.getD [' ']),
      labels.map Label.reread, body.reread⟩

def Body.reread : Body → Body
  | ⟨decor, [], true, _⟩ => ⟨⟨none, some (decor.before.getD [] ++ decor.after.getD [])⟩, [], true, false⟩
  | ⟨decor, [.attr a], true, _⟩ =>
    ⟨⟨none, some []⟩, [.attr (a.reread (.around (decor.before.getD [] ++ a.decor.before.getD [' '])
      (a.rest [' '] ++ decor.after.getD [])))], true, false⟩
  | ⟨decor, items, _, _⟩ =>
    ⟨.around (decor.before.getD []) (decor.after.getD []), rereadAll items, false, false⟩

def rereadAll : List Structure → List Structure
  | [] => []
  | s :: ss => s.reread :: rereadAll ss

end

/-- The body of a document with all its blank text in its places. -/
def Body.rereadDocument (b : Body) : Body :=
  ⟨⟨none, some (b.decor.after.getD [])⟩, b.items.map Structure.reread, false, b.openEnd && !b.items.isEmpty⟩

theorem rereadAll_eq_map (ss : List Structure) : rereadAll ss = ss.map Structure.reread := by
  induction ss with
  | nil => rfl
  | cons s ss ih => rw [rereadAll, ih, List.map_cons]

namespace Body

theorem reread_of_not_isLine : {b : Body} → b.isLine = false →
    b.reread = ⟨.around (b.decor.before.getD []) (b.decor.after.getD []), b.items.map Structure.reread, false, false⟩
  | ⟨_, [], true, _⟩, h => by cases h
  | ⟨_, [.attr _], true, _⟩, h => by cases h
  | ⟨_, .block _ :: _, true, _⟩, _ => by rw [Body.reread, rereadAll_eq_map]; all_goals simp
  | ⟨_, .attr _ :: _ :: _, true, _⟩, _ => by rw [Body.reread, rereadAll_eq_map]; all_goals simp
  | ⟨_, _, false, _⟩, _ => by rw [Body.reread, rereadAll_eq_map]; all_goals simp

theorem isLine_reread (b : Body) : b.reread.isLine = b.isLine := by
  cases h : b.isLine with
  | false =>
    rw [reread_of_not_isLine h]
    rfl
  | true =>
    match b with
    | ⟨_, [], true, _⟩ => rfl
    | ⟨_, [.attr _], true, _⟩ => rfl

end Body

/-! ## Texts -/

theorem Attribute.text_reread (lead tail before after : Text) (a : Attribute) :
    (a.reread (.around before after)).text lead tail =
      before ++ (a.key ++ (a.keyAfter.getD [' '] ++
        '=' :: (a.value.decor.before.getD [' '] ++ (a.value.node.text ++ after)))) := by
  have hrest : (a.reread (.around before after)).rest tail = after := by
    obtain ⟨decor, key, keyAfter, ⟨b, c⟩, node⟩ := a
    cases c <;> rfl
  rw [text_eq, hrest]
  rfl

theorem Label.written_reread (l : Label) : l.reread.written = l.written := by cases l <;> rfl

theorem Label.written_map_reread (ls : List Label) :
    (ls.map Label.reread).flatMap Label.written = ls.flatMap Label.written := by
  rw [List.flatMap_map]
  exact congrArg (ls.flatMap ·) (funext written_reread)

mutual

theorem Structure.text_reread : (s : Structure) → s.reread.text = s.text
  | .attr a => by
    show (a.reread _).text [] [] = a.text [] []
    rw [Attribute.text_reread, Attribute.text_eq]
  | .block b => by
    rw [Structure.reread, Structure.text_block, Structure.text_block, Block.core_reread b]
    cases b
    rfl

theorem Block.core_reread : (b : Block) → b.reread.core = b.core
  | ⟨decor, ident, identAfter, labels, body⟩ => by
    rw [Block.reread, Block.core, Block.core, Label.written_map_reread, Body.inside_reread body]
    rfl

theorem Body.inside_reread : (b : Body) → b.reread.inside = b.inside
  | ⟨decor, [], true, _⟩ => by
    rw [Body.reread, Body.inside_of_empty, Body.inside_of_empty]
    rfl
  | ⟨decor, [.attr a], true, _⟩ => by
    rw [Body.reread, Body.inside_of_attribute, Body.inside_of_attribute, Attribute.text_reread, Attribute.text_eq]
    simp
  | ⟨_, .block b :: ss, true, _⟩ => by
    rw [Body.reread_of_not_isLine rfl, Body.inside_of_lines rfl, Body.inside_of_lines rfl, ← rereadAll_eq_map,
      linesText_rereadAll false (.block b :: ss)]
    rfl
  | ⟨_, .attr a :: s :: ss, true, _⟩ => by
    rw [Body.reread_of_not_isLine rfl, Body.inside_of_lines rfl, Body.inside_of_lines rfl, ← rereadAll_eq_map,
      linesText_rereadAll false (.attr a :: s :: ss)]
    rfl
  | ⟨_, items, false, _⟩ => by
    rw [Body.reread_of_not_isLine rfl, Body.inside_of_lines rfl, Body.inside_of_lines rfl, ← rereadAll_eq_map,
      linesText_rereadAll false items]
    rfl

theorem linesText_rereadAll (openEnd : Bool) : (ss : List Structure) →
    linesText openEnd (rereadAll ss) = linesText openEnd ss
  | [] => rfl
  | [s] => by rw [rereadAll, rereadAll, linesText, linesText, Structure.text_reread s]
  | s :: t :: ss => by
    rw [rereadAll, rereadAll, linesText, linesText, ← rereadAll, linesText_rereadAll openEnd (t :: ss),
      Structure.text_reread s]

end

theorem Body.text_rereadDocument {b : Body} (h : b.decor.before.getD [] = []) : b.rereadDocument.text = b.text := by
  obtain ⟨decor, items, oneLine, openEnd⟩ := b
  rw [Body.text_eq, Body.text_eq, rereadDocument, ← rereadAll_eq_map]
  cases items with
  | nil => simp [h, rereadAll, linesText]
  | cons s ss =>
    have hopen : (openEnd && !(s :: ss).isEmpty) = openEnd := by simp
    rw [hopen, linesText_rereadAll, h]
    rfl

/-! ## Statements -/

theorem Label.plain_reread (l : Label) : l.reread.plain = l.plain := by cases l <;> rfl

mutual

theorem Structure.statement_reread : (s : Structure) → s.reread.statement = s.statement
  | .attr _ => rfl
  | .block b => Block.statement_reread b

theorem Block.statement_reread : (b : Block) → b.reread.statement = b.statement
  | ⟨decor, ident, identAfter, labels, body⟩ => by
    rw [Block.reread, Block.statement, Block.statement, Body.statements_reread body, List.map_map]
    exact congrArg (Statement.block ident · body.statements) (List.map_congr_left fun l _ => Label.plain_reread l)

theorem Body.statements_reread : (b : Body) → b.reread.statements = b.statements
  | ⟨_, [], true, _⟩ => rfl
  | ⟨_, [.attr _], true, _⟩ => rfl
  | ⟨_, .block b :: ss, true, _⟩ => by
    rw [Body.reread_of_not_isLine rfl, ← rereadAll_eq_map]
    exact statementsOf_rereadAll (.block b :: ss)
  | ⟨_, .attr a :: s :: ss, true, _⟩ => by
    rw [Body.reread_of_not_isLine rfl, ← rereadAll_eq_map]
    exact statementsOf_rereadAll (.attr a :: s :: ss)
  | ⟨_, items, false, _⟩ => by
    rw [Body.reread_of_not_isLine rfl, ← rereadAll_eq_map]
    exact statementsOf_rereadAll items

theorem statementsOf_rereadAll : (ss : List Structure) → statementsOf (rereadAll ss) = statementsOf ss
  | [] => rfl
  | s :: ss => by
    rw [rereadAll, statementsOf, statementsOf, Structure.statement_reread s, statementsOf_rereadAll ss]

end

theorem Body.statements_rereadDocument (b : Body) : b.rereadDocument.statements = b.statements := by
  rw [Body.statements_eq, Body.statements_eq, rereadDocument, List.map_map]
  exact List.map_congr_left fun s _ => Structure.statement_reread s

/-! ## Reading twice -/

theorem Expr.reread_reread (e : Expr) : e.reread.reread = e.reread := by
  obtain ⟨⟨before, after⟩, node⟩ := e
  cases after <;> rfl

theorem Attribute.rest_reread (before after tail : Text) (a : Attribute) :
    (a.reread (.around before after)).rest tail = after := by
  obtain ⟨decor, key, keyAfter, ⟨⟨b, c⟩, node⟩⟩ := a
  cases c <;> rfl

theorem Attribute.reread_reread (d d' : Decor) (a : Attribute) : (a.reread d).reread d' = a.reread d' := by
  rw [Attribute.reread, Attribute.reread, Expr.reread_reread]
  rfl

theorem Label.reread_reread (l : Label) : l.reread.reread = l.reread := by cases l <;> rfl

theorem Label.map_reread_reread (ls : List Label) : (ls.map Label.reread).map Label.reread = ls.map Label.reread := by
  rw [List.map_map]
  exact List.map_congr_left fun l _ => Label.reread_reread l

mutual

theorem Structure.reread_reread : (s : Structure) → s.reread.reread = s.reread
  | .attr a => by
    rw [Structure.reread, Structure.reread, Attribute.rest_reread, Attribute.reread_reread]
    rfl
  | .block b => congrArg Structure.block (Block.reread_reread b)

theorem Block.reread_reread : (b : Block) → b.reread.reread = b.reread
  | ⟨decor, ident, identAfter, labels, body⟩ => by
    rw [Block.reread, Block.reread, Label.map_reread_reread, Body.reread_reread body]
    rfl

theorem Body.reread_reread : (b : Body) → b.reread.reread = b.reread
  | ⟨_, [], true, _⟩ => rfl
  | ⟨decor, [.attr a], true, _⟩ => by
    rw [Body.reread, Body.reread, Attribute.rest_reread, Attribute.reread_reread]
    simp [Attribute.reread, Decor.around]
  | ⟨_, .block b :: ss, true, _⟩ => by
    rw [Body.reread_of_not_isLine rfl, Body.reread_of_not_isLine rfl, ← rereadAll_eq_map, ← rereadAll_eq_map,
      rereadAll_rereadAll (.block b :: ss)]
    rfl
  | ⟨_, .attr a :: s :: ss, true, _⟩ => by
    rw [Body.reread_of_not_isLine rfl, Body.reread_of_not_isLine rfl, ← rereadAll_eq_map, ← rereadAll_eq_map,
      rereadAll_rereadAll (.attr a :: s :: ss)]
    rfl
  | ⟨decor, items, false, openEnd⟩ => by
    have hlines : (Body.mk decor items false openEnd).reread =
        ⟨.around (decor.before.getD []) (decor.after.getD []), items.map Structure.reread, false, false⟩ :=
      Body.reread_of_not_isLine rfl
    rw [hlines, Body.reread_of_not_isLine rfl, ← rereadAll_eq_map, ← rereadAll_eq_map, rereadAll_rereadAll items]
    rfl

theorem rereadAll_rereadAll : (ss : List Structure) → rereadAll (rereadAll ss) = rereadAll ss
  | [] => rfl
  | s :: ss => by rw [rereadAll, rereadAll, Structure.reread_reread s, rereadAll_rereadAll ss]

end

/-! ## Values -/

section

variable {V : Expr → Prop} {L : Label → Prop}

mutual

theorem Structure.each_reread (hV : ∀ e, V e → V e.reread) (hL : ∀ l, L l → L l.reread) :
    (s : Structure) → s.Each V L → s.reread.Each V L
  | .attr a, h => hV a.value h
  | .block b, h => Block.each_reread hV hL b h

theorem Block.each_reread (hV : ∀ e, V e → V e.reread) (hL : ∀ l, L l → L l.reread) :
    (b : Block) → b.Each V L → b.reread.Each V L
  | ⟨_, _, _, labels, body⟩, h => by
    refine ⟨fun l hl => ?_, Body.each_reread hV hL body h.2⟩
    obtain ⟨old, hmem, rfl⟩ := List.mem_map.mp hl
    exact hL old (h.1 old hmem)

theorem Body.each_reread (hV : ∀ e, V e → V e.reread) (hL : ∀ l, L l → L l.reread) :
    (b : Body) → b.Each V L → b.reread.Each V L
  | ⟨_, [], true, _⟩, _ => trivial
  | ⟨_, [.attr a], true, _⟩, h => ⟨hV a.value h.1, trivial⟩
  | ⟨_, .block b :: ss, true, _⟩, h => by
    rw [Body.reread_of_not_isLine rfl, ← rereadAll_eq_map]
    exact eachOf_reread hV hL (.block b :: ss) h
  | ⟨_, .attr a :: s :: ss, true, _⟩, h => by
    rw [Body.reread_of_not_isLine rfl, ← rereadAll_eq_map]
    exact eachOf_reread hV hL (.attr a :: s :: ss) h
  | ⟨_, items, false, _⟩, h => by
    rw [Body.reread_of_not_isLine rfl, ← rereadAll_eq_map]
    exact eachOf_reread hV hL items h

theorem eachOf_reread (hV : ∀ e, V e → V e.reread) (hL : ∀ l, L l → L l.reread) :
    (ss : List Structure) → EachOf V L ss → EachOf V L (rereadAll ss)
  | [], _ => trivial
  | s :: ss, h => ⟨Structure.each_reread hV hL s h.1, eachOf_reread hV hL ss h.2⟩

end

theorem Body.each_rereadDocument (hV : ∀ e, V e → V e.reread) (hL : ∀ l, L l → L l.reread) {b : Body} (h : b.Each V L) :
    b.rereadDocument.Each V L := by
  refine Body.each_iff.mpr fun s hs => ?_
  obtain ⟨old, hmem, rfl⟩ := List.mem_map.mp hs
  exact Structure.each_reread hV hL old (Body.each_iff.mp h old hmem)

end

end BackendSwitch
