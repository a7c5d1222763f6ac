import BackendSwitch.Proofs.Layout

/-! # What a document is read as

Every body that is read is laid out, each of its values is what was read of some text, and it is marked as written on one
line where it was. -/
namespace BackendSwitch
set_option autoImplicit false

open Grammar
open Identifier (startsWith extendsWith)

/-! ## Values and labels -/

/-- An expression that some text was read as, but for the blank text in front of it. -/
def Expr.IsRead (e : Expr) : Prop :=
  ∃ f s r, expression s = .ok f r ∧ f.node = e.node ∧ f.decor.after = e.decor.after

namespace Grammar

theorem value_eq_ok {s r : Text} {e : Expr} (h : value s = .ok e r) :
    Inline (e.decor.before.getD [' ']) ∧ e.IsRead := by
  simp only [value, Reader.bind_iff, Reader.pure_iff] at h
  obtain ⟨b, s1, hb, f, s2, hf, rfl, rfl⟩ := h
  exact ⟨(inline_eq_ok hb).2.1, f, s1, s2, hf, rfl, rfl⟩

theorem label_eq_ok {s r : Text} {l : Label} (h : label s = .ok l r) :
    (∃ t a, l = .quoted t (some a) ∧ Inline a) ∨
      ∃ t a u, l = .bare t (some a) ∧ IsIdentifier t ∧ Inline a ∧ s = t ++ u ∧ u = a ++ r ∧ u.Avoids extendsWith := by
  rcases Reader.or_eq_ok_iff.mp h with h | ⟨-, h⟩
  · simp only [Reader.bind_iff, Reader.pure_iff] at h
    obtain ⟨t, s1, -, a, s2, ha, rfl, rfl⟩ := h
    exact .inl ⟨t, a, rfl, (inline_eq_ok ha).2.1⟩
  · simp only [Reader.bind_iff, Reader.pure_iff] at h
    obtain ⟨t, s1, ht, a, s2, ha, rfl, rfl⟩ := h
    obtain ⟨rfl, hidentifier, havoid⟩ := identifier_eq_ok ht
    obtain ⟨rfl, hinline, -⟩ := inline_eq_ok ha
    exact .inr ⟨t, a, _, rfl, hidentifier, hinline, rfl, rfl, havoid⟩

/-- No label in front of which a name ends is a bare one. -/
theorem apart_of_avoids {s : Text} {a : Text} {ls : List Label} (h : (a ++ s).Avoids extendsWith)
    (hhead : ∀ t b, ls.head? = some (.bare t b) → ∃ c u, s = c :: u ∧ startsWith c = true) : Apart (some a) ls := by
  rintro rfl t b hbare
  obtain ⟨c, u, rfl, hc⟩ := hhead t b hbare
  have hnot : extendsWith c = false := Text.avoids_cons.mp h
  rw [Identifier.extendsWith_of_startsWith hc] at hnot
  cases hnot

theorem upTo_label_eq_ok {n : Nat} {s r : Text} {ls : List Label} (h : Reader.upTo n label s = .ok ls r) :
    LabelsFormed ls ∧ ∀ t b, ls.head? = some (.bare t b) → ∃ c u, s = c :: u ∧ startsWith c = true := by
  induction ls generalizing n s with
  | nil => exact ⟨trivial, fun t b e => by cases e⟩
  | cons l ls ih =>
    obtain ⟨m, u, hl, hrest⟩ := Reader.upTo_eq_cons h
    obtain ⟨hformed, hhead⟩ := ih hrest
    rcases label_eq_ok hl with ⟨t, a, rfl, ha⟩ | ⟨t, a, w, rfl, ht, ha, rfl, rfl, havoid⟩
    · exact ⟨⟨ha, hformed⟩, fun t b e => by cases e⟩
    · refine ⟨⟨⟨ht, ha, apart_of_avoids havoid hhead⟩, hformed⟩, fun _ _ _ => ?_⟩
      obtain ⟨c, x, rfl, hc, -⟩ := ht
      exact ⟨c, _, rfl, hc⟩

theorem many_label_eq_ok {s r : Text} {ls : List Label} (h : Reader.many label s = .ok ls r) :
    LabelsFormed ls ∧ ∀ t b, ls.head? = some (.bare t b) → ∃ c u, s = c :: u ∧ startsWith c = true := by
  obtain ⟨n, hup⟩ := Reader.exists_upTo_of_many h
  exact upTo_label_eq_ok hup

end Grammar

/-! ## Bodies -/

/-- A body that was read is marked as written on one line exactly if it is written on one line. There it has no blank text
in front of what is in it. -/
structure Body.Marked (b : Body) : Prop where
  line : b.oneLine = b.isLine
  before : b.oneLine = true → b.decor.before.getD [] = []

/-- Labels are not read from text in one way only, so nothing is known of them. -/
def Label.Any (_ : Label) : Prop := True

/-- What is known of every structure that was read with a line of its own. -/
structure Structure.IsRead (s : Structure) : Prop where
  formed : s.Formed false
  values : s.Each Expr.IsRead Label.Any
  marked : ∀ b, s = .block b → b.body.Marked

/-- What is known of every body that was read over several lines. -/
structure Body.ReadLines (b : Body) : Prop where
  items : ∀ s ∈ b.items, s.IsRead
  keys : (keys b.items).Nodup
  oneLine : b.oneLine = false

/-- What is known of every body that was read between braces. -/
structure Body.IsRead (b : Body) : Prop where
  formed : b.Formed
  values : b.Each Expr.IsRead Label.Any
  marked : b.Marked

namespace Grammar

/-- The reader of a body reads structures with lines of their own, up to blank text. -/
def ReadsLines (body : Reader Body) : Prop :=
  ∀ s b r, body s = .ok b r → b.ReadLines ∧ (r ≠ [] → Blank (b.decor.after.getD []))

theorem lineBody_eq_ok {s r : Text} {b : Body} (h : lineBody s = .ok b r) : b.IsRead := by
  simp only [lineBody, Reader.bind_iff, Reader.pure_iff] at h
  obtain ⟨item, s1, hitem, after, s2, hafter, rfl, rfl⟩ := h
  have hinline : Inline after := (inline_eq_ok hafter).2.1
  cases item with
  | none => exact ⟨Body.formed_iff.mpr ⟨⟨.nil, hinline⟩, fun s hs => (by cases hs), .nil⟩, trivial, ⟨rfl, fun _ => rfl⟩⟩
  | some item =>
    have hline := Reader.optional_eq_some_iff.mp hitem
    simp only [lineAttribute, Reader.bind_iff, Reader.pure_iff, Reader.require_eq_ok_iff, Reader.char_eq_ok_iff] at hline
    obtain ⟨before, t1, hbefore, key, t2, hkey, keyAfter, t3, hkeyAfter, _, t4, rfl, e, t5, he, behind, t6, hbehind, rfl,
      rfl⟩ := hline
    obtain ⟨hvalue, hread⟩ := value_eq_ok he
    refine ⟨Body.formed_iff.mpr ⟨⟨.nil, hinline⟩, fun s hs => ?_, List.pairwise_singleton _ _⟩, ⟨hread, trivial⟩,
      ⟨rfl, fun _ => rfl⟩⟩
    obtain rfl := List.mem_singleton.mp hs
    exact ⟨⟨(inline_eq_ok hbefore).2.1, (inline_eq_ok hbehind).2.1⟩, (identifier_eq_ok hkey).2.1,
      (inline_eq_ok hkeyAfter).2.1, hvalue⟩

variable {body : Reader Body}

theorem blockBody_eq_ok (hbody : ReadsLines body) {s r : Text} {b : Body} (h : blockBody body s = .ok b r) :
    b.IsRead := by
  simp only [blockBody, Reader.bind_iff, Reader.pure_iff, Reader.require_eq_ok_iff, Reader.char_eq_ok_iff,
    Reader.or_eq_ok_iff] at h
  obtain ⟨_, s1, rfl, b', s2, hb, _, s3, rfl, rfl, rfl⟩ := h
  rcases hb with ⟨before, t1, hbefore, _, t2, -, b, t3, hb, rfl, rfl⟩ | ⟨-, hb⟩
  · obtain ⟨hlines, hafter⟩ := hbody _ _ _ hb
    obtain ⟨decor, items, oneLine, openEnd⟩ := b
    obtain rfl : oneLine = false := hlines.oneLine
    exact ⟨Body.formed_iff.mpr ⟨⟨(trailing_eq_ok hbefore).2, hafter (List.cons_ne_nil _ _)⟩,
      fun s hs => (hlines.items s hs).formed, hlines.keys⟩, Body.each_iff.mpr fun s hs => (hlines.items s hs).values,
      ⟨rfl, fun h => (by cases h)⟩⟩
  · exact lineBody_eq_ok hb

theorem afterIdentifier_eq_ok (hbody : ReadsLines body) {taken : Bool} {start ident identAfter s r : Text}
    {build : Decor → Structure} (hident : IsIdentifier ident) (hafter : Inline identAfter)
    (havoid : (identAfter ++ s).Avoids extendsWith)
    (h : afterIdentifier body taken start ident identAfter s = .ok build r) {decor : Decor} (hdecor : decor.Formed) :
    (build decor).IsRead ∧ ∀ a, build decor = .attr a → a.key = ident ∧ taken = false := by
  obtain ⟨c, s1, hpeek, h⟩ := Reader.bind_eq_ok_iff.mp h
  obtain ⟨hc, rfl⟩ := Reader.peek_eq_ok_iff.mp hpeek
  split at h
  · cases taken with
    | true => cases h
    | false =>
      obtain ⟨_, s2, -, h⟩ := Reader.bind_eq_ok_iff.mp h
      obtain ⟨e, s3, he, h⟩ := Reader.bind_eq_ok_iff.mp h
      obtain ⟨rfl, rfl⟩ := Reader.pure_iff.mp h
      obtain ⟨hvalue, hread⟩ := value_eq_ok he
      refine ⟨⟨⟨hdecor, hident, hafter, hvalue⟩, hread, fun b hb => by cases hb⟩, fun a ha => ?_⟩
      obtain rfl := Structure.attr.inj ha
      exact ⟨rfl, rfl⟩
  split at h
  · obtain ⟨labels, s2, hlabels, h⟩ := Reader.bind_eq_ok_iff.mp h
    obtain ⟨b, s3, hb, h⟩ := Reader.bind_eq_ok_iff.mp h
    obtain ⟨rfl, rfl⟩ := Reader.pure_iff.mp h
    obtain ⟨hlabels, hhead⟩ := many_label_eq_ok hlabels
    have hread := blockBody_eq_ok hbody hb
    refine ⟨⟨⟨hdecor, ⟨hident, hafter, apart_of_avoids havoid hhead, hlabels⟩, hread.formed⟩,
      ⟨fun _ _ => trivial, hread.values⟩, fun b' hb' => ?_⟩, fun a ha => by cases ha⟩
    obtain rfl := Structure.block.inj hb'
    exact hread.marked
  · cases h

theorem structureLine_eq_ok (hbody : ReadsLines body) {used : List Text} {s r : Text} {item : Structure} {ended : Bool}
    (h : structureLine body used s = .ok (item, ended) r) :
    item.IsRead ∧ (∀ a, item = .attr a → a.key ∉ used) ∧ (ended = true → r = []) := by
  obtain ⟨before, s1, hbefore, h⟩ := Reader.bind_eq_ok_iff.mp h
  obtain ⟨build, s2, hbuild, h⟩ := Reader.bind_eq_ok_iff.mp h
  obtain ⟨ident, t1, hident, hbuild⟩ := Reader.bind_eq_ok_iff.mp hbuild
  obtain ⟨identAfter, t2, hidentAfter, hbuild⟩ := Reader.bind_eq_ok_iff.mp hbuild
  simp only [Reader.bind_iff, Reader.pure_iff, Reader.require_eq_ok_iff, Prod.mk.injEq] at h
  obtain ⟨after, s3, hafter, ended', s4, hended, ⟨rfl, rfl⟩, rfl⟩ := h
  obtain ⟨rfl, hidentifier, havoid⟩ := identifier_eq_ok hident
  obtain ⟨rfl, hinline, -⟩ := inline_eq_ok hidentAfter
  have hne : ident ++ (identAfter ++ t2) ≠ [] := by
    obtain ⟨c, u, rfl, -⟩ := hidentifier
    simp
  have hdecor : (Decor.around before after).Formed := ⟨(blank_eq_ok hbefore hne).2.1, (trailing_eq_ok hafter).2⟩
  obtain ⟨hread, hkey⟩ := afterIdentifier_eq_ok hbody hidentifier hinline havoid hbuild hdecor
  refine ⟨hread, fun a ha hmem => ?_, ?_⟩
  · obtain ⟨rfl, htaken⟩ := hkey a ha
    rw [List.contains_iff_mem.mpr hmem] at htaken
    cases htaken
  · rintro rfl
    unfold lineEnd at hended
    split at hended
    · injection hended with _ hr
      exact hr.symm
    · injection hended with hfalse
      cases hfalse
    · injection hended with hfalse
      cases hfalse
    · cases hended

theorem structures_eq_ok (hbody : ReadsLines body) {n : Nat} {used : List Text} {ended last : Bool} {s r : Text}
    {items : List Structure} (h : structures body n used ended s = .ok (items, last) r) (hs : ended = true → s = []) :
    (∀ s ∈ items, s.IsRead) ∧ (keys items).Nodup ∧ (∀ key ∈ keys items, key ∉ used) ∧ (last = true → r = []) := by
  induction n generalizing used ended s items with
  | zero =>
    obtain ⟨he, rfl⟩ := Reader.pure_iff.mp h
    cases he
    exact ⟨by simp, .nil, by simp [keys], hs⟩
  | succ n ih =>
    unfold structures at h
    cases hline : structureLine body used s with
    | soft =>
      simp only [hline, Reply.ok.injEq, Prod.mk.injEq] at h
      obtain ⟨⟨rfl, rfl⟩, rfl⟩ := h
      exact ⟨by simp, .nil, by simp [keys], hs⟩
    | hard c u => simp [hline] at h
    | ok x u =>
      obtain ⟨item, ended'⟩ := x
      simp only [hline] at h
      obtain ⟨⟨items', last'⟩, v, hrest, he⟩ := Reader.bind_eq_ok_iff.mp h
      cases he
      obtain ⟨hitem, hkey, hended⟩ := structureLine_eq_ok hbody hline
      obtain ⟨hitems, hnodup, hused, hlast⟩ := ih hrest hended
      refine ⟨List.forall_mem_cons.mpr ⟨hitem, hitems⟩, ?_, ?_, hlast⟩
      · cases item with
        | attr a => exact List.nodup_cons.mpr ⟨fun hmem => hused _ hmem (List.mem_cons_self ..), hnodup⟩
        | block b => exact hnodup
      · cases item with
        | attr a =>
          refine List.forall_mem_cons.mpr ⟨hkey a rfl, fun key hmem hin => hused key hmem (List.mem_cons_of_mem _ hin)⟩
        | block b => exact hused

theorem bodyFrom_eq_ok (hbody : ReadsLines body) {s r : Text} {b : Body} (h : bodyFrom body s = .ok b r) :
    b.ReadLines ∧ b.decor.before = none ∧ ∃ u, blank u = .ok (b.decor.after.getD []) r ∧ (b.openEnd = true → u = []) := by
  obtain ⟨⟨items, ended⟩, u, hitems, h⟩ := Reader.bind_eq_ok_iff.mp h
  simp only [Reader.bind_iff, Reader.pure_iff] at h
  obtain ⟨after, v, hafter, rfl, rfl⟩ := h
  obtain ⟨hread, hkeys, -, hended⟩ := structures_eq_ok hbody hitems (fun h => by cases h)
  exact ⟨⟨hread, hkeys, rfl⟩, rfl, u, hafter, hended⟩

theorem readsLines_bodyLevel (n : Nat) : ReadsLines (bodyLevel n) := by
  induction n with
  | zero => exact fun s b r h => by cases h
  | succ n ih =>
    intro s b r h
    obtain ⟨hlines, -, u, hblank, -⟩ := bodyFrom_eq_ok ih h
    exact ⟨hlines, fun hr => (blank_eq_ok hblank hr).2.1⟩

end Grammar

/-! ## Documents -/

/-- How the body of a document is laid out. -/
structure Body.DocumentFormed (b : Body) : Prop where
  items : ∀ s ∈ b.items, s.Formed false
  keys : (BackendSwitch.keys b.items).Nodup
  oneLine : b.oneLine = false
  before : b.decor.before.getD [] = []
  after : blank (b.decor.after.getD []) = .ok (b.decor.after.getD []) []
  openEnd : b.openEnd = true → b.decor.after.getD [] = []

theorem Grammar.document_eq_ok {s r : Text} {b : Body} (h : document s = .ok b r) : b.ReadLines ∧ b.DocumentFormed := by
  obtain ⟨b', t, hlevel, h⟩ := Reader.bind_eq_ok_iff.mp h
  split at h
  · cases h
    obtain ⟨hlines, hbefore, u, hblank, hopen⟩ := bodyFrom_eq_ok (readsLines_bodyLevel _) hlevel
    have hu : u = b.decor.after.getD [] := by
      obtain ⟨t, r, ht, hu, -⟩ := blank_spec u
      rw [ht] at hblank
      cases hblank
      rw [hu, List.append_nil]
    rw [hu] at hblank hopen
    exact ⟨hlines, fun s hs => (hlines.items s hs).formed, hlines.keys, hlines.oneLine, by rw [hbefore]; rfl, hblank,
      hopen⟩
  · cases h

theorem Document.read_of_parse {path t : Text} {d : Document} (h : parse path t = .ok d) :
    Grammar.document t = .ok d.body [] := by
  unfold parse Body.parse at h
  cases hread : Grammar.document t with
  | soft => simp [hread] at h
  | hard c r => simp [hread] at h
  | ok b r =>
    simp only [hread, Except.ok.injEq] at h
    rw [← h]
    obtain ⟨b', r', -, hend⟩ := Reader.bind_eq_ok_iff.mp hread
    split at hend
    · cases hend
      rfl
    · cases hend

/-- Finds out about a document by evaluation. -/
theorem Document.exists_of_parse (P : Document → Prop) [DecidablePred P] (path t : Text)
    (h : ((parse path t).toOption.any fun d => decide (P d)) = true) : ∃ d, parse path t = .ok d ∧ P d := by
  cases hread : parse path t with
  | error f =>
    rw [hread] at h
    cases h
  | ok d =>
    rw [hread] at h
    exact ⟨d, rfl, of_decide_eq_true h⟩

end BackendSwitch
