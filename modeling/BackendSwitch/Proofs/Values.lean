import BackendSwitch.Proofs.Statement
import BackendSwitch.Proofs.WrittenBody

/-! # What holds of every value

Whether a document is read back depends on its values and labels, wherever they stand. -/
namespace BackendSwitch
set_option autoImplicit false

/-! ## Every value and every label -/

section

variable (V : Expr → Prop) (L : Label → Prop)

mutual

/-- One property holds of every value, and another of every label. -/
def Structure.Each : Structure → Prop
  | .attr a => V a.value
  | .block b => b.Each

def Block.Each : Block → Prop
  | ⟨_, _, _, labels, body⟩ => (∀ l ∈ labels, L l) ∧ body.Each

def Body.Each : Body → Prop
  | ⟨_, items, _, _⟩ => EachOf items

def EachOf : List Structure → Prop
  | [] => True
  | s :: ss => s.Each ∧ EachOf ss

end

end

section

variable (V : Expr → Prop) (L : Label → Prop) [DecidablePred V] [DecidablePred L]

mutual

def Structure.decidableEach : (s : Structure) → Decidable (s.Each V L)
  | .attr a => inferInstanceAs (Decidable (V a.value))
  | .block b => Block.decidableEach b

def Block.decidableEach : (b : Block) → Decidable (b.Each V L)
  | ⟨_, _, _, labels, body⟩ =>
    have := Body.decidableEach body
    inferInstanceAs (Decidable ((∀ l ∈ labels, L l) ∧ body.Each V L))

def Body.decidableEach : (b : Body) → Decidable (b.Each V L)
  | ⟨_, items, _, _⟩ => decidableEachOf items

def decidableEachOf : (ss : List Structure) → Decidable (EachOf V L ss)
  | [] => .isTrue trivial
  | s :: ss =>
    have := Structure.decidableEach s
    have := decidableEachOf ss
    inferInstanceAs (Decidable (s.Each V L ∧ EachOf V L ss))

end

instance (b : Body) : Decidable (b.Each V L) := b.decidableEach V L

end

section

variable {V W X : Expr → Prop} {L M N : Label → Prop}

theorem eachOf_iff {ss : List Structure} : EachOf V L ss ↔ ∀ s ∈ ss, s.Each V L := by
  induction ss with
  | nil => simp [EachOf]
  | cons s ss ih => simp [EachOf, ih]

theorem Body.each_iff {b : Body} : b.Each V L ↔ ∀ s ∈ b.items, s.Each V L := by
  cases b
  exact eachOf_iff

theorem Block.each_iff {b : Block} : b.Each V L ↔ (∀ l ∈ b.labels, L l) ∧ b.body.Each V L := by
  cases b
  rfl

mutual

theorem Structure.each_both (hV : ∀ e, V e → W e → X e) (hL : ∀ l, L l → M l → N l) :
    (s : Structure) → s.Each V L → s.Each W M → s.Each X N
  | .attr _, h, h' => hV _ h h'
  | .block b, h, h' => Block.each_both hV hL b h h'

theorem Block.each_both (hV : ∀ e, V e → W e → X e) (hL : ∀ l, L l → M l → N l) :
    (b : Block) → b.Each V L → b.Each W M → b.Each X N
  | ⟨_, _, _, _, body⟩, h, h' => ⟨fun l hl => hL l (h.1 l hl) (h'.1 l hl), Body.each_both hV hL body h.2 h'.2⟩

theorem Body.each_both (hV : ∀ e, V e → W e → X e) (hL : ∀ l, L l → M l → N l) :
    (b : Body) → b.Each V L → b.Each W M → b.Each X N
  | ⟨_, items, _, _⟩, h, h' => eachOf_both hV hL items h h'

theorem eachOf_both (hV : ∀ e, V e → W e → X e) (hL : ∀ l, L l → M l → N l) :
    (ss : List Structure) → EachOf V L ss → EachOf W M ss → EachOf X N ss
  | [], _, _ => trivial
  | s :: ss, h, h' => ⟨Structure.each_both hV hL s h.1 h'.1, eachOf_both hV hL ss h.2 h'.2⟩

end

theorem Structure.each_withDecor {decor : Decor} {s : Structure} : (s.withDecor decor).Each V L ↔ s.Each V L := by
  cases s with
  | attr a => rfl
  | block b =>
    show Block.Each V L _ ↔ Block.Each V L b
    rw [Block.each_iff, Block.each_iff]

end

/-! ## Edits -/

/-- Changing the body of a block leaves every other structure as it is. -/
theorem Structure.mem_modifyBlock {ident : Text} {f : Body → Body} {ss : List Structure} {s : Structure}
    (h : s ∈ modifyBlock ident f ss) : s ∈ ss ∨ ∃ c, .block c ∈ ss ∧ s = .block { c with body := f c.body } := by
  induction ss with
  | nil => exact .inl h
  | cons t ss ih =>
    have hnext : s = t ∨ s ∈ modifyBlock ident f ss →
        s ∈ t :: ss ∨ ∃ c, .block c ∈ t :: ss ∧ s = .block { c with body := f c.body } := by
      rintro (rfl | hs)
      · exact .inl (List.mem_cons_self ..)
      · rcases ih hs with hs | ⟨c, hc, rfl⟩
        · exact .inl (List.mem_cons_of_mem _ hs)
        · exact .inr ⟨c, List.mem_cons_of_mem _ hc, rfl⟩
    cases t with
    | attr a => exact hnext (List.mem_cons.mp h)
    | block c =>
      rw [modifyBlock] at h
      split at h
      · rcases List.mem_cons.mp h with rfl | hs
        · exact .inr ⟨c, List.mem_cons_self .., rfl⟩
        · exact .inl (List.mem_cons_of_mem _ hs)
      · exact hnext (List.mem_cons.mp h)

namespace Body

variable {V : Expr → Prop} {L : Label → Prop}

theorem Each.without {ident : Text} {b : Body} (h : b.Each V L) : (b.without ident).Each V L := by
  rw [each_iff] at h ⊢
  intro s hs
  exact h s (List.mem_of_mem_eraseP hs)

theorem Each.expand {b : Body} (h : b.Each V L) : b.expand.Each V L := by
  rw [each_iff] at h ⊢
  rw [items_expand]
  split
  · intro s hs
    obtain ⟨old, hmem, rfl⟩ := List.mem_map.mp hs
    exact Structure.each_withDecor.mpr (h old hmem)
  · exact h

theorem Each.pushS3 {backend : S3Backend} {b : Body} (hnew : backend.block.Each V L) (h : b.Each V L) :
    (b.pushS3 backend).Each V L := by
  rw [each_iff] at h ⊢
  intro s hs
  rcases List.mem_append.mp hs with hs | hs
  · exact h s hs
  · obtain rfl := List.mem_singleton.mp hs
    exact hnew

theorem Each.modifyBlock {ident : Text} {f : Body → Body} {b : Body} (hf : ∀ c : Body, c.Each V L → (f c).Each V L)
    (h : b.Each V L) : (b.modifyBlock ident f).Each V L := by
  rw [each_iff] at h ⊢
  intro s hs
  rcases Structure.mem_modifyBlock hs with hs | ⟨c, hc, rfl⟩
  · exact h s hs
  · obtain ⟨hlabels, hbody⟩ := Block.each_iff.mp (h _ hc)
    exact Block.each_iff.mpr ⟨hlabels, hf c.body hbody⟩

end Body
end BackendSwitch
