import BackendSwitch.Proofs.Removal
import Mathlib.Logic.Relation

/-! # Laying a body out anew

A body on one line is laid out by taking all structures out at its front and putting them back in, one after the other.
What becomes of an attribute whose key is set already does not matter, because no body that comes from a text by edits
sets a key twice, however deep it lies. So nothing is lost, and only blank text around structures changes. -/
namespace BackendSwitch
set_option autoImplicit false

/-! ## Bodies within bodies -/

namespace Body

/-- A body is within another one if it is this body or that of a block in it, at any depth. -/
inductive Within (c : Body) : Body → Prop where
  | self : Within c c
  | inside {b : Body} {block : Block} (hblock : .block block ∈ b.items) (h : Within c block.body) : Within c b

/-- No body sets a key twice, at any depth. -/
def Distinct (b : Body) : Prop := ∀ c : Body, c.Within b → (keys c.items).Nodup

variable {b c : Body}

theorem distinct_iff :
    b.Distinct ↔ (keys b.items).Nodup ∧ ∀ block, .block block ∈ b.items → block.body.Distinct := by
  constructor
  · intro h
    exact ⟨h b .self, fun block hblock c hc => h c (.inside hblock hc)⟩
  · rintro ⟨hkeys, hblocks⟩ c hc
    cases hc with
    | self => exact hkeys
    | inside hblock hc => exact hblocks _ hblock c hc

theorem Distinct.within (h : b.Distinct) (hc : c.Within b) : c.Distinct := by
  induction hc with
  | self => exact h
  | inside hblock _ ih => exact ih ((distinct_iff.mp h).2 _ hblock)

theorem Formed.within (h : b.Formed) (hc : c.Within b) : c.Formed := by
  induction hc with
  | self => exact h
  | inside hblock _ ih =>
    obtain ⟨-, hitems, -⟩ := formed_iff.mp h
    obtain ⟨-, -, hbody⟩ := Block.formed_iff.mp (hitems _ hblock)
    exact ih hbody

theorem Formed.distinct (h : b.Formed) : b.Distinct := fun _ hc => (formed_iff.mp (h.within hc)).2.2

theorem DocumentFormed.distinct (h : b.DocumentFormed) : b.Distinct := by
  refine distinct_iff.mpr ⟨h.keys, fun block hblock => ?_⟩
  obtain ⟨-, -, hbody⟩ := Block.formed_iff.mp (h.items _ hblock)
  exact hbody.distinct

/-! ## Edits keep keys apart -/

theorem Distinct.without (h : b.Distinct) (ident : Text) : (b.without ident).Distinct := by
  obtain ⟨hkeys, hblocks⟩ := distinct_iff.mp h
  exact distinct_iff.mpr ⟨hkeys.sublist (List.eraseP_sublist.filterMap _),
    fun block hblock => hblocks block (List.mem_of_mem_eraseP hblock)⟩

theorem Distinct.expand (h : b.Distinct) : b.expand.Distinct := by
  obtain ⟨hkeys, hblocks⟩ := distinct_iff.mp h
  rw [distinct_iff, items_expand]
  split
  · refine ⟨by rwa [keys_map_withDecor], fun block hblock => ?_⟩
    obtain ⟨s, hs, hdecor⟩ := List.mem_map.mp hblock
    cases s with
    | attr a => cases hdecor
    | block old =>
      cases hdecor
      exact hblocks old hs
  · exact ⟨hkeys, hblocks⟩

theorem Distinct.pushS3 (h : b.Distinct) (backend : S3Backend) : (b.pushS3 backend).Distinct := by
  obtain ⟨hkeys, hblocks⟩ := distinct_iff.mp h
  refine distinct_iff.mpr ⟨?_, fun block hblock => ?_⟩
  · rw [Body.pushS3, items_push, keys_append_block]
    exact hkeys
  · rcases List.mem_append.mp hblock with hblock | hblock
    · exact hblocks block hblock
    · cases List.mem_singleton.mp hblock
      exact (Block.formed_iff.mp backend.formed_block).2.2.distinct

theorem Distinct.replace {before behind : List Structure} {block : Block} (h : b.Distinct)
    (hitems : b.items = before ++ .block block :: behind) (hc : c.Distinct) :
    Distinct { b with items := before ++ .block { block with body := c } :: behind } := by
  obtain ⟨hkeys, hblocks⟩ := distinct_iff.mp h
  rw [hitems, keys_append_cons_block] at hkeys
  refine distinct_iff.mpr ⟨?_, fun other hother => ?_⟩
  · show (keys (before ++ .block { block with body := c } :: behind)).Nodup
    rwa [keys_append_cons_block]
  · rcases List.mem_append.mp hother with hother | hother
    · exact hblocks other (by rw [hitems]; exact List.mem_append_left _ hother)
    · rcases List.mem_cons.mp hother with hother | hother
      · cases hother
        exact hc
      · exact hblocks other (by rw [hitems]; exact List.mem_append_right _ (List.mem_cons_of_mem _ hother))

/-! ## Taking out and putting back -/

/-- Takes a number of structures out, each at the front. Absent if there are fewer. -/
def takeFront? : Nat → Body → Option (List Structure × Body)
  | 0, b => some ([], b)
  | n + 1, b => (b.takeAt? 0).bind fun (s, rest) => (takeFront? n rest).map fun (taken, last) => (s :: taken, last)

/-- Lays a body that was written on one line out for several: all structures are taken out, and each is put back in
with a margin of its own. -/
def relay? (put : Structure → Body → Body) (b : Body) : Option Body :=
  if b.oneLine then
    (b.takeFront? b.items.length).map fun (taken, rest) =>
      let filled := taken.foldl (fun c s => put (s.withDecor (.around S3Backend.margin [])) c) rest
      { filled with decor := { filled.decor with after := some [] } }
  else some b

/-- Putting in a block, or an attribute with a key that is not set yet, puts it behind all other structures. -/
def Appends (put : Structure → Body → Body) : Prop :=
  ∀ (s : Structure) (b : Body), (∀ a, s = .attr a → a.key ∉ keys b.items) → put s b = b.push s

variable {put : Structure → Body → Body}

theorem takeFront?_eq (b : Body) : b.takeFront? b.items.length = some (b.items, { b with items := [] }) := by
  obtain ⟨decor, items, oneLine, openEnd⟩ := b
  show takeFront? items.length _ = _
  induction items with
  | nil => rfl
  | cons s items ih =>
    show (takeFront? items.length ⟨decor, items, oneLine, openEnd⟩).map _ = _
    rw [ih, Option.map_some]

/-- Structures without a key in common with one another or with the body are put behind those of the body. -/
theorem foldl_put (hput : Appends put) (decor : Decor) (ss : List Structure) (b : Body)
    (h : (keys (b.items ++ ss)).Nodup) :
    ss.foldl (fun c s => put (s.withDecor decor) c) b = { b with items := b.items ++ ss.map (Structure.withDecor decor) } := by
  induction ss generalizing b with
  | nil => rw [List.foldl_nil, List.map_nil, List.append_nil, mk_items]
  | cons s ss ih =>
    have hnew : put (s.withDecor decor) b = b.push (s.withDecor decor) := by
      refine hput _ _ fun a ha hmem => ?_
      cases s with
      | block c => cases ha
      | attr old =>
        cases ha
        rw [keys_append] at h
        exact (List.nodup_append.mp h).2.2 _ hmem _ (List.mem_cons_self ..) rfl
    have hnext : (keys ((b.push (s.withDecor decor)).items ++ ss)).Nodup := by
      have hone : keys [s.withDecor decor] = keys [s] := keys_map_withDecor decor [s]
      rw [items_push, keys_append, keys_append, hone, ← keys_append, ← keys_append, List.append_assoc]
      exact h
    rw [List.foldl_cons, hnew, ih _ hnext]
    simp [push]

/-- Where keys are distinct, taking out and putting back only lays the body out anew. -/
theorem relay?_eq (hput : Appends put) (h : (keys b.items).Nodup) : b.relay? put = some b.expand := by
  unfold relay? expand
  split
  · rw [takeFront?_eq, Option.map_some]
    dsimp only
    rw [foldl_put hput _ b.items ⟨b.decor, [], b.oneLine, b.openEnd⟩ h]
    rfl
  · rfl

/-- A body with the same structures in the same order and other blank text around them and in front of its end. -/
structure Relaid (b b' : Body) : Prop where
  items : b'.items.map Structure.stripped = b.items.map Structure.stripped
  before : b'.decor.before = b.decor.before
  oneLine : b'.oneLine = b.oneLine
  openEnd : b'.openEnd = b.openEnd

theorem relaid_expand (b : Body) : b.Relaid b.expand where
  items := by
    rw [items_expand]
    split
    · rw [List.map_map]
      exact List.map_congr_left fun s _ => Structure.withDecor_withDecor _ _ s
    · rfl
  before := by
    unfold expand
    split <;> rfl
  oneLine := by
    unfold expand
    split <;> rfl
  openEnd := by
    unfold expand
    split <;> rfl

/-! ## Edits in any order -/

/-- One edit of a body, or of the body of a block in it, at any depth. -/
inductive Step (put : Structure → Body → Body) : Body → Body → Prop where
  | switch {b : Body} {mode : Mode} {backend : S3Backend} {path : Text} {outcome : Outcome} {d : Document}
      (h : Document.switch mode backend ⟨path, b⟩ = .ok (outcome, d)) : Step put b d.body
  | relay {b c : Body} (h : b.relay? put = some c) : Step put b c
  | remove {b c : Body} {ident : Text} {block : Block} (h : b.removeBlock? ident = some (block, c)) : Step put b c
  | push (b : Body) (backend : S3Backend) : Step put b (put (.block backend.block) b)
  | inside {b c : Body} {before behind : List Structure} {block : Block}
      (hitems : b.items = before ++ .block block :: behind) (h : Step put block.body c) :
      Step put b { b with items := before ++ .block { block with body := c } :: behind }

theorem Distinct.switched {mode : Mode} {backend : S3Backend} (h : b.Distinct) : (b.switched mode backend).Distinct := by
  cases hblock : b.findBlock? Document.terraformIdent with
  | none =>
    have hnone := Structure.isBlock_of_findBlock?_eq_none hblock
    rw [Body.switched, modifyBlock, Structure.modifyBlock_of_none hnone, mk_items]
    exact h
  | some block =>
    obtain ⟨before, behind, hitems, hident, hbefore, -⟩ := split_of_findBlock? hblock
    have hbody : block.body.Distinct := h.within (.inside (by rw [hitems]; simp) .self)
    have hswitched : (block.body.switchedInside mode backend).Distinct := by
      cases mode with
      | onDisk => exact hbody.without _
      | s3 => exact ((hbody.without _).expand).pushS3 backend
    have hreplaced := h.replace hitems hswitched
    rw [Body.switched, modifyBlock, hitems, Structure.modifyBlock_append hident hbefore]
    exact hreplaced

theorem Step.distinct (hput : Appends put) (hstep : Step put b c) (h : b.Distinct) : c.Distinct := by
  induction hstep with
  | @switch b mode backend path outcome d hswitch =>
    cases hblock : b.findBlock? Document.terraformIdent with
    | none =>
      rw [Document.switch, hblock] at hswitch
      cases hswitch
    | some block =>
      obtain ⟨outcome', hswitched⟩ := Document.switch_of_findBlock? (d := ⟨path, b⟩) mode backend hblock
      rw [hswitched] at hswitch
      cases hswitch
      exact h.switched
  | relay hrelay =>
    rw [relay?_eq hput (distinct_iff.mp h).1] at hrelay
    obtain rfl := Option.some.inj hrelay
    exact h.expand
  | @remove b c ident block hremove =>
    have hwithout := removeBlock?_eq_without ident b
    rw [hremove] at hwithout
    obtain rfl : c = b.without ident := hwithout
    exact h.without ident
  | push b backend =>
    rw [hput _ b fun a ha => by cases ha]
    exact h.pushS3 backend
  | inside hitems _ ih => exact h.replace hitems (ih (h.within (.inside (by rw [hitems]; simp) .self)))

theorem distinct_of_steps (hput : Appends put) (hsteps : Relation.ReflTransGen (Step put) b c) (h : b.Distinct) :
    c.Distinct := by
  induction hsteps with
  | refl => exact h
  | tail _ hstep ih => exact hstep.distinct hput ih

/-- Whatever was edited in a document that was read, at any depth: laying out any of its bodies succeeds, takes out and
puts back every structure, changes no more than blank text around structures and in front of the end of the body, leaves
a body that stands on lines of its own as it is, and does nothing more when it is done again. -/
theorem relay?_of_steps (hput : Appends put) {path t : Text} {d : Document} (h : Document.parse path t = .ok d)
    (hsteps : Relation.ReflTransGen (Step put) d.body b) (hc : c.Within b) :
    ∃ c', c.relay? put = some c' ∧ c' = c.expand ∧ c.Relaid c' ∧ (c.oneLine = false → c' = c) ∧
      c'.relay? put = some c' := by
  have hread : d.body.Distinct := (Grammar.document_eq_ok (Document.read_of_parse h)).2.distinct
  have hdistinct : c.Distinct := (distinct_of_steps hput hsteps hread).within hc
  have hkeys := (distinct_iff.mp hdistinct).1
  have hagain : c.expand.relay? put = some c.expand := by
    rw [relay?_eq hput (distinct_iff.mp hdistinct.expand).1, expand_expand]
  exact ⟨c.expand, relay?_eq hput hkeys, rfl, relaid_expand c, expand_of_lines, hagain⟩

/-- Puts structures in behind all others, and leaves out an attribute whose key is set already. -/
def putNew (s : Structure) (b : Body) : Body :=
  match s with
  | .attr a => if a.key ∈ keys b.items then b else b.push s
  | .block _ => b.push s

theorem appends_putNew : Appends putNew := by
  intro s b hnew
  cases s with
  | attr a => exact if_neg (hnew a rfl)
  | block c => rfl

/-- In a body on one line with an attribute and a new block behind it. -/
theorem relay?_of_steps_oneLiner : ∃ (d : Document) (b c : Body),
    Document.parse "main.tf".toList Document.oneLiner = .ok d ∧ Appends putNew ∧
    Relation.ReflTransGen (Step putNew) d.body b ∧ c.Within b ∧ c.oneLine = true ∧ c.items.length = 2 ∧
    ∃ c', c.relay? putNew = some c' ∧ c' = c.expand ∧ c.Relaid c' ∧ (c.oneLine = false → c' = c) ∧
      c'.relay? putNew = some c' := by
  obtain ⟨d, h, hblock⟩ := Document.exists_of_parse (fun d => (d.body.findBlock? Document.terraformIdent).any (fun block =>
    block.body.oneLine && (block.body.switchedInside .s3 .standard).items.length == 2) = true) "main.tf".toList
    Document.oneLiner (by decide +kernel)
  obtain ⟨block, hfind, hshape⟩ := (Option.any_eq_true ..).mp hblock
  rw [Bool.and_eq_true, beq_iff_eq] at hshape
  obtain ⟨outcome, hswitch⟩ := Document.switch_of_findBlock? .s3 .standard hfind
  obtain ⟨before, behind, hitems, hident, hbefore, -⟩ := split_of_findBlock? hfind
  have hsteps : Relation.ReflTransGen (Step putNew) d.body (d.body.switched .s3 .standard) := .single (.switch hswitch)
  have hc : (block.body.switchedInside .s3 .standard).Within (d.body.switched .s3 .standard) := by
    have hmem : .block { block with body := block.body.switchedInside .s3 .standard } ∈
        (d.body.switched .s3 .standard).items := by
      rw [switched, modifyBlock, hitems, Structure.modifyBlock_append hident hbefore]
      exact List.mem_append_right _ (List.mem_cons_self ..)
    exact .inside hmem .self
  refine ⟨d, _, _, h, appends_putNew, hsteps, hc, ?_, hshape.2, relay?_of_steps appends_putNew h hsteps hc⟩
  rw [oneLine_switchedInside, hshape.1]

end Body
end BackendSwitch
