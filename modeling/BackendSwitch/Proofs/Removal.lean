import BackendSwitch.Proofs.Splice

/-! # Looking a block up and taking it out

A block is looked up among the blocks of a body, and it is taken out at its place among all structures. Both searches
come to the same block, so an attribute is never taken out, and whoever goes on until nothing is found has taken out
all blocks of the kind. -/
namespace BackendSwitch
set_option autoImplicit false

namespace Structure

variable {ident : Text}

/-- The block that a structure is. -/
def toBlock? : Structure → Option Block
  | attr _ => none
  | block b => some b

/-- The lookup passes over attributes and blocks of other kinds. -/
theorem findBlock?_eq_find? (ss : List Structure) :
    findBlock? ident ss = (ss.filterMap toBlock?).find? fun b => b.ident == ident := by
  induction ss with
  | nil => rfl
  | cons s ss ih =>
    cases s with
    | attr a =>
      have hnone : toBlock? (.attr a) = none := rfl
      rw [List.filterMap_cons_none hnone, ← ih]
      rfl
    | block b =>
      have hsome : toBlock? (.block b) = some b := rfl
      rw [List.filterMap_cons_some hsome, List.find?_cons, findBlock?]
      by_cases hb : b.ident = ident
      · rw [if_pos hb, beq_iff_eq.mpr hb]
      · rw [if_neg hb, beq_eq_false_iff_ne.mpr hb, ih]

/-! ## Lists without and with a block of a kind -/

theorem takeBlock?_of_none {ss : List Structure} (h : ∀ s ∈ ss, s.isBlock ident = false) : takeBlock? ident ss = none := by
  induction ss with
  | nil => rfl
  | cons s ss ih =>
    obtain ⟨hs, hss⟩ := List.forall_mem_cons.mp h
    rw [takeBlock?_cons_of_other hs, ih hss, Option.map_none]

theorem takeBlock?_append {before behind : List Structure} {block : Block} (hident : block.ident = ident)
    (h : ∀ s ∈ before, s.isBlock ident = false) :
    takeBlock? ident (before ++ .block block :: behind) = some (block, before ++ behind) := by
  induction before with
  | nil => exact if_pos hident
  | cons s before ih =>
    obtain ⟨hs, hbefore⟩ := List.forall_mem_cons.mp h
    rw [List.cons_append, takeBlock?_cons_of_other hs, ih hbefore, Option.map_some, List.cons_append]

theorem modifyBlock_of_none {f : Body → Body} {ss : List Structure} (h : ∀ s ∈ ss, s.isBlock ident = false) :
    modifyBlock ident f ss = ss := by
  induction ss with
  | nil => rfl
  | cons s ss ih =>
    obtain ⟨hs, hss⟩ := List.forall_mem_cons.mp h
    rw [modifyBlock_cons_of_other hs, ih hss]

theorem findIdx?_isBlock_append {before behind : List Structure} {block : Block} (hident : block.ident = ident)
    (h : ∀ s ∈ before, s.isBlock ident = false) :
    (before ++ .block block :: behind).findIdx? (isBlock ident) = some before.length := by
  have hblock : (Structure.block block).isBlock ident = true := by simp [isBlock, hident]
  have hbefore : before.findIdx? (isBlock ident) = none := List.findIdx?_eq_none_iff.mpr h
  rw [List.findIdx?_append, hbefore, List.findIdx?_cons, hblock]
  simp

end Structure

namespace Body

variable {ident : Text} {b : Body}

/-! ## Removal by place -/

/-- Takes out the structure at a place, if there is one. -/
def takeAt? (i : Nat) (b : Body) : Option (Structure × Body) :=
  b.items[i]?.map fun s => (s, { b with items := b.items.eraseIdx i })

/-- Removal in two steps: the first block with an identifier is searched for its place, and then what stands at the
place is taken out. What is taken out would be lost if it were an attribute. Absent if there is nothing at the place. -/
def removeAtPlace? (ident : Text) (b : Body) : Option (Option Block × Body) :=
  match b.items.findIdx? (Structure.isBlock ident) with
  | none => some (none, b)
  | some i => (b.takeAt? i).map fun (s, rest) => (s.toBlock?, rest)

/-! ## The searches taken apart -/

theorem split_of_findBlock? {block : Block} (h : b.findBlock? ident = some block) : ∃ before behind,
    b.items = before ++ .block block :: behind ∧ block.ident = ident ∧ (∀ s ∈ before, s.isBlock ident = false) ∧
      b.removeBlock? ident = some (block, { b with items := before ++ behind }) := by
  obtain ⟨before, behind, hitems, hident, hbefore⟩ := Structure.split_of_findBlock? h
  refine ⟨before, behind, hitems, hident, hbefore, ?_⟩
  rw [removeBlock?, hitems, Structure.takeBlock?_append hident hbefore, Option.map_some]

theorem removeBlock?_of_findBlock?_eq_none (h : b.findBlock? ident = none) : b.removeBlock? ident = none := by
  rw [removeBlock?, Structure.takeBlock?_of_none (Structure.isBlock_of_findBlock?_eq_none h), Option.map_none]

theorem fst_removeBlock? (ident : Text) (b : Body) : (b.removeBlock? ident).map Prod.fst = b.findBlock? ident := by
  cases h : b.findBlock? ident with
  | none => rw [removeBlock?_of_findBlock?_eq_none h, Option.map_none]
  | some block =>
    obtain ⟨before, behind, -, -, -, hremove⟩ := split_of_findBlock? h
    rw [hremove, Option.map_some]

/-- At the place that is found stands the block that the lookup finds. -/
theorem removeAtPlace?_eq (ident : Text) (b : Body) :
    b.removeAtPlace? ident = some (b.findBlock? ident, ((b.removeBlock? ident).map Prod.snd).getD b) := by
  cases h : b.findBlock? ident with
  | none =>
    have hplace : b.items.findIdx? (Structure.isBlock ident) = none :=
      List.findIdx?_eq_none_iff.mpr (Structure.isBlock_of_findBlock?_eq_none h)
    rw [removeAtPlace?, hplace, removeBlock?_of_findBlock?_eq_none h]
    rfl
  | some block =>
    obtain ⟨before, behind, hitems, hident, hbefore, hremove⟩ := split_of_findBlock? h
    have hplace : b.items.findIdx? (Structure.isBlock ident) = some before.length := by
      rw [hitems, Structure.findIdx?_isBlock_append hident hbefore]
    have htake : b.takeAt? before.length = some (.block block, { b with items := before ++ behind }) := by
      rw [takeAt?, hitems, List.getElem?_append_right (Nat.le_refl _), List.eraseIdx_append_of_length_le (Nat.le_refl _),
        Nat.sub_self]
      rfl
    rw [removeAtPlace?, hplace, hremove]
    simp [htake, Structure.toBlock?]

/-- What is changed in the block that the lookup finds has changed in the block that is taken out. -/
theorem removeBlock?_modifyBlock (ident : Text) (f : Body → Body) (b : Body) : (b.modifyBlock ident f).removeBlock? ident =
    (b.removeBlock? ident).map fun (block, rest) => ({ block with body := f block.body }, rest) := by
  cases h : b.findBlock? ident with
  | none =>
    have hsame : b.modifyBlock ident f = b := by
      rw [modifyBlock, Structure.modifyBlock_of_none (Structure.isBlock_of_findBlock?_eq_none h), mk_items]
    rw [hsame, removeBlock?_of_findBlock?_eq_none h, Option.map_none]
  | some block =>
    obtain ⟨before, behind, hitems, hident, hbefore, hremove⟩ := split_of_findBlock? h
    have hchanged : (b.modifyBlock ident f).items = before ++ .block { block with body := f block.body } :: behind := by
      rw [modifyBlock, hitems, Structure.modifyBlock_append hident hbefore]
    rw [hremove, Option.map_some, removeBlock?, hchanged, Structure.takeBlock?_append (by exact hident) hbefore]
    rfl

/-! ## Removal of all blocks of a kind -/

theorem length_of_removeBlock? {block : Block} {rest : Body} (h : b.removeBlock? ident = some (block, rest)) :
    rest.items.length < b.items.length := by
  have hfind : b.findBlock? ident = some block := by rw [← fst_removeBlock?, h, Option.map_some]
  obtain ⟨before, behind, hitems, -, -, hremove⟩ := split_of_findBlock? hfind
  obtain ⟨-, rfl⟩ := Prod.mk.inj (Option.some.inj (h.symm.trans hremove))
  rw [hitems]
  simp

/-- Takes blocks with an identifier out until there is none. -/
def removeAll (ident : Text) (b : Body) : List Block × Body :=
  match _h : b.removeBlock? ident with
  | none => ([], b)
  | some (block, rest) =>
    let (blocks, last) := rest.removeAll ident
    (block :: blocks, last)
termination_by b.items.length
decreasing_by exact length_of_removeBlock? ‹_›

theorem head?_blocksOf (ident : Text) (b : Body) :
    (Structure.blocksOf ident b.items).head? = b.findBlock? ident := by
  rw [← Structure.fst_takeBlock?, ← fst_removeBlock?, removeBlock?, Option.map_map]
  rfl

theorem removeAll_eq (ident : Text) (b : Body) : b.removeAll ident =
    (Structure.blocksOf ident b.items, { b with items := Structure.othersOf ident b.items }) := by
  fun_induction removeAll ident b with
  | case1 b h =>
    have hfind : b.findBlock? ident = none := by rw [← fst_removeBlock?, h, Option.map_none]
    have hnone := Structure.isBlock_of_findBlock?_eq_none hfind
    rw [Structure.blocksOf, List.filterMap_eq_nil_iff.mpr fun s hs => Structure.block?_of_not_isBlock (hnone s hs),
      Structure.othersOf, List.filter_eq_self.mpr fun s hs => by rw [hnone s hs, Bool.not_false], mk_items]
  | case2 b block rest h blocks last hrest ih =>
    -- the block is the head of the queue, and the rest is the body without it
    have hwithout : b.without ident = rest := by rw [← removeBlock?_eq_without, h, Option.map_some, Option.getD_some]
    obtain ⟨queue, hqueue⟩ : ∃ queue, Structure.blocksOf ident b.items = block :: queue := by
      rw [← List.head?_eq_some_iff, head?_blocksOf, ← fst_removeBlock?, h, Option.map_some]
    have hblocks : Structure.blocksOf ident rest.items = (Structure.blocksOf ident b.items).tail := by
      rw [← hwithout, without, Structure.blocksOf_eraseP]
    have hothers : Structure.othersOf ident rest.items = Structure.othersOf ident b.items := by
      rw [← hwithout, without, Structure.othersOf_eraseP]
    obtain ⟨rfl, rfl⟩ := Prod.mk.inj (hrest.symm.trans ih)
    rw [hblocks, hqueue, hothers, ← hwithout]
    rfl

/-! ## Lookup and removal -/

/-- Looking up and taking out come to the same block, which is the first of its kind. It is the only structure that goes,
also if it was changed where it was found, and if there is none the body stays as it is. All blocks of the kind can be
taken out one after the other, and then all other structures are left. -/
theorem removeBlock?_agrees (ident : Text) (b : Body) :
    b.findBlock? ident = (b.items.filterMap Structure.toBlock?).find? (fun c => c.ident == ident) ∧
    (∃ before behind, b.items = before ++ (((b.findBlock? ident).map .block).toList ++ behind) ∧
      (∀ s ∈ before, s.isBlock ident = false) ∧
      b.removeBlock? ident = (b.findBlock? ident).map (fun block => (block, { b with items := before ++ behind })) ∧
      b.removeAtPlace? ident = some (b.findBlock? ident, { b with items := before ++ behind })) ∧
    (b.findBlock? ident = none → b.removeAtPlace? ident = some (none, b)) ∧
    (∀ f, (b.modifyBlock ident f).removeBlock? ident =
      (b.removeBlock? ident).map fun (block, rest) => ({ block with body := f block.body }, rest)) ∧
    b.removeAll ident =
      (Structure.blocksOf ident b.items, { b with items := Structure.othersOf ident b.items }) := by
  refine ⟨Structure.findBlock?_eq_find? b.items, ?_, ?_, fun f => removeBlock?_modifyBlock ident f b, removeAll_eq ident b⟩
  · have hplace := removeAtPlace?_eq ident b
    cases h : b.findBlock? ident with
    | none =>
      have hnone := removeBlock?_of_findBlock?_eq_none h
      rw [h, hnone] at hplace
      refine ⟨b.items, [], (List.append_nil _).symm, Structure.isBlock_of_findBlock?_eq_none h, hnone, ?_⟩
      rw [hplace, List.append_nil, mk_items]
      rfl
    | some block =>
      obtain ⟨before, behind, hitems, -, hbefore, hremove⟩ := split_of_findBlock? h
      rw [h, hremove] at hplace
      exact ⟨before, behind, hitems, hbefore, hremove, hplace⟩
  · intro h
    rw [removeAtPlace?_eq, h, removeBlock?_of_findBlock?_eq_none h]
    rfl

end Body
end BackendSwitch
