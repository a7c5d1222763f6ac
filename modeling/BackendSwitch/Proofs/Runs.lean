import BackendSwitch.Proofs.Reread
import BackendSwitch.Proofs.Sound

/-! # Runs of switches on a body

A body can be switched again and again as it is, or it can be written and read between the switches. Reading brings the blank
text into its places and takes bodies that have outgrown their line for what they are. If the body stands on lines of its
own, no switch can tell the difference. Where there is at most one backend block, the last switch decides. -/
namespace BackendSwitch
set_option autoImplicit false

/-! ## Structures -/

namespace Structure

theorem isBlock_reread (ident : Text) (s : Structure) : s.reread.isBlock ident = s.isBlock ident := by
  cases s with
  | attr a => rfl
  | block b =>
    cases b
    rfl

theorem isBlock_withDecor (ident : Text) (decor : Decor) (s : Structure) :
    (s.withDecor decor).isBlock ident = s.isBlock ident := by
  cases s <;> rfl

theorem withDecor_withDecor (d d' : Decor) (s : Structure) : (s.withDecor d).withDecor d' = s.withDecor d' := by
  cases s <;> rfl

theorem map_reread_reread (ss : List Structure) : (ss.map reread).map reread = ss.map reread := by
  rw [List.map_map]
  exact List.map_congr_left fun s _ => reread_reread s

theorem eraseP_map_reread (ident : Text) (ss : List Structure) :
    (ss.map reread).eraseP (isBlock ident) = (ss.eraseP (isBlock ident)).map reread := by
  have hsame : isBlock ident ∘ reread = isBlock ident := funext (isBlock_reread ident)
  rw [List.eraseP_map, hsame]

/-- A structure that is laid out anew may have been read before. -/
theorem reread_withDecor_reread (d d' : Decor) {a : Attribute} (h : a.value.Closed) :
    ((Structure.attr (a.reread d)).withDecor d').reread = ((Structure.attr a).withDecor d').reread := by
  obtain ⟨decor, key, keyAfter, ⟨⟨before, after⟩, node⟩⟩ := a
  cases after with
  | none => rfl
  | some t =>
    obtain rfl : t = [] := h
    rfl

end Structure

namespace Body

variable {backend : S3Backend} {b : Body}

/-! ## Bodies without backend blocks -/

/-- There is no backend block in a body. -/
def Bare (b : Body) : Prop := ∀ s ∈ b.items, s.isBlock S3Backend.blockIdent = false

instance (b : Body) : Decidable b.Bare := inferInstanceAs (Decidable (∀ s ∈ b.items, _))

/-- There is at most one backend block in a body. -/
def Single (b : Body) : Prop := (b.without S3Backend.blockIdent).Bare

theorem mk_items (b : Body) : Body.mk b.decor b.items b.oneLine b.openEnd = b := by
  cases b
  rfl

theorem Bare.without (h : b.Bare) : b.without S3Backend.blockIdent = b := by
  rw [Body.without, List.eraseP_of_forall_not fun s hs => by simp [h s hs], mk_items]

theorem Bare.single (h : b.Bare) : b.Single := by
  rw [Single, h.without]
  exact h

theorem Bare.expand (h : b.Bare) : b.expand.Bare := by
  unfold Bare
  rw [items_expand]
  split
  · intro s hs
    obtain ⟨old, hmem, rfl⟩ := List.mem_map.mp hs
    rw [Structure.isBlock_withDecor]
    exact h old hmem
  · exact h

/-- The block that a switch puts into a body without backend blocks is the one that the next switch takes out. -/
theorem Bare.without_pushS3 (h : b.Bare) : (b.pushS3 backend).without S3Backend.blockIdent = b := by
  have hlast : [Structure.block backend.block].eraseP (Structure.isBlock S3Backend.blockIdent) = [] := rfl
  have hitems : (b.items ++ [Structure.block backend.block]).eraseP (Structure.isBlock S3Backend.blockIdent) = b.items := by
    rw [List.eraseP_append_right _ fun s hs => by simp [h s hs], hlast, List.append_nil]
  rw [pushS3, push, Body.without]
  simp only [hitems, mk_items]

/-! ## Switches in a row -/

theorem expand_expand (b : Body) : b.expand.expand = b.expand := by
  cases h : b.oneLine with
  | false =>
    have hsame : b.expand = b := by simp [expand, h]
    rw [hsame, hsame]
  | true =>
    have hmap : (b.items.map (Structure.withDecor (.around S3Backend.margin []))).map
        (Structure.withDecor (.around S3Backend.margin [])) =
        b.items.map (Structure.withDecor (.around S3Backend.margin [])) := by
      rw [List.map_map]
      exact List.map_congr_left fun s _ => Structure.withDecor_withDecor _ _ s
    simp [expand, h, hmap]

theorem expand_of_lines (h : b.oneLine = false) : b.expand = b := by simp [expand, h]

theorem oneLine_switchedInside (mode : Mode) (b : Body) : (b.switchedInside mode backend).oneLine = b.oneLine := by
  cases mode with
  | onDisk => rfl
  | s3 =>
    show (b.without S3Backend.blockIdent).expand.oneLine = b.oneLine
    unfold expand
    split <;> rfl

theorem Single.switchedInside (h : b.Single) (mode : Mode) : (b.switchedInside mode backend).Single := by
  cases mode with
  | onDisk => exact Bare.single h
  | s3 =>
    show Bare _
    rw [Body.switchedInside, (Bare.expand h).without_pushS3]
    exact Bare.expand h

/-- A switch undoes the one before it, but for the layout of a body that was written on one line. -/
theorem Single.switchedInside_twice (h : b.Single) (mode : Mode) {last : Mode}
    (hlines : last = .onDisk → b.oneLine = false) :
    (b.switchedInside mode backend).switchedInside last backend = b.switchedInside last backend := by
  have hrest : (b.without S3Backend.blockIdent).without S3Backend.blockIdent = b.without S3Backend.blockIdent :=
    Bare.without h
  have hpushed : ((b.without S3Backend.blockIdent).expand.pushS3 backend).without S3Backend.blockIdent =
      (b.without S3Backend.blockIdent).expand := (Bare.expand h).without_pushS3
  cases last with
  | onDisk =>
    cases mode with
    | onDisk => exact hrest
    | s3 =>
      have hsame : (b.without S3Backend.blockIdent).expand = b.without S3Backend.blockIdent := expand_of_lines (hlines rfl)
      show ((b.without S3Backend.blockIdent).expand.pushS3 backend).without S3Backend.blockIdent = _
      rw [hpushed, hsame]
      rfl
  | s3 =>
    cases mode with
    | onDisk =>
      show ((b.without S3Backend.blockIdent).without S3Backend.blockIdent).expand.pushS3 backend = _
      rw [hrest]
      rfl
    | s3 =>
      show (((b.without S3Backend.blockIdent).expand.pushS3 backend).without S3Backend.blockIdent).expand.pushS3 backend = _
      rw [hpushed, expand_expand]
      rfl

/-- Switches one after the other. -/
def switchedAll (backend : S3Backend) (b : Body) (modes : List Mode) : Body :=
  modes.foldl (fun b mode => b.switchedInside mode backend) b

/-- The last switch decides. -/
theorem Single.switchedInside_switchedAll (h : b.Single) {last : Mode} (hlines : last = .onDisk → b.oneLine = false)
    (modes : List Mode) : (b.switchedAll backend modes).switchedInside last backend = b.switchedInside last backend := by
  induction modes generalizing b with
  | nil => rfl
  | cons mode modes ih =>
    have hlines' : last = .onDisk → (b.switchedInside mode backend).oneLine = false := fun hlast =>
      (oneLine_switchedInside mode b).trans (hlines hlast)
    exact (ih (h.switchedInside mode) hlines').trans (h.switchedInside_twice mode hlines)

/-! ## Bodies on lines of their own -/

/-- The structures that a switch puts in. -/
def added (mode : Mode) (backend : S3Backend) : List Structure :=
  match mode with
  | .onDisk => []
  | .s3 => [.block backend.block]

theorem switchedInside_of_lines (mode : Mode) (h : b.oneLine = false) : b.switchedInside mode backend =
    { b with items := b.items.eraseP (Structure.isBlock S3Backend.blockIdent) ++ added mode backend } := by
  cases mode with
  | onDisk =>
    rw [added, List.append_nil]
    rfl
  | s3 =>
    have hsame : (b.without S3Backend.blockIdent).expand = b.without S3Backend.blockIdent := expand_of_lines h
    rw [switchedInside, hsame]
    rfl

theorem isLine_of_lines (h : b.oneLine = false) : b.isLine = false := by
  rw [isLine, h]

/-- A switch cannot tell a body from what it is read as. -/
theorem reread_switchedInside_reread (mode : Mode) (h : b.oneLine = false) :
    (b.reread.switchedInside mode backend).reread = (b.switchedInside mode backend).reread := by
  have hswitched : ∀ c : Body, c.oneLine = false → (c.switchedInside mode backend).reread =
      ⟨.around (c.decor.before.getD []) (c.decor.after.getD []),
        (c.items.eraseP (Structure.isBlock S3Backend.blockIdent) ++ added mode backend).map Structure.reread,
        false, false⟩ := by
    intro c hc
    rw [switchedInside_of_lines mode hc]
    exact reread_of_not_isLine (isLine_of_lines hc)
  have hread := reread_of_not_isLine (isLine_of_lines h)
  have hlines : b.reread.oneLine = false := by rw [hread]
  rw [hswitched b.reread hlines, hswitched b h, hread, Structure.eraseP_map_reread, List.map_append, List.map_append,
    Structure.map_reread_reread]
  rfl

/-- Switches one after the other, with the body written and read behind each. -/
def switchedOnFile (backend : S3Backend) (b : Body) (modes : List Mode) : Body :=
  modes.foldl (fun b mode => (b.switchedInside mode backend).reread) b

theorem switchedOnFile_reread (h : b.oneLine = false) (modes : List Mode) :
    b.reread.switchedOnFile backend modes = (b.switchedAll backend modes).reread := by
  induction modes generalizing b with
  | nil => rfl
  | cons mode modes ih =>
    show (b.reread.switchedInside mode backend).reread.switchedOnFile backend modes = _
    rw [reread_switchedInside_reread mode h]
    exact ih ((oneLine_switchedInside mode b).trans h)

theorem switchedOnFile_of_lines (h : b.oneLine = false) {modes : List Mode} (hmodes : modes ≠ []) :
    b.switchedOnFile backend modes = (b.switchedAll backend modes).reread := by
  cases modes with
  | nil => exact absurd rfl hmodes
  | cons mode modes => exact switchedOnFile_reread ((oneLine_switchedInside mode b).trans h) modes

/-! ## Bodies on one line -/

/-- A body as it is read on one line. -/
structure OneLiner (b : Body) : Prop where
  line : b.isLine = true
  before : b.decor.before.getD [] = []
  closed : ∀ a, .attr a ∈ b.items → a.value.Closed

theorem OneLiner.bare (h : b.OneLiner) : b.Bare := by
  intro s hs
  match b, h.line with
  | ⟨_, [], true, _⟩, _ => cases hs
  | ⟨_, [.attr a], true, _⟩, _ =>
    obtain rfl := List.mem_singleton.mp hs
    rfl

theorem OneLiner.reread (h : b.OneLiner) : b.reread.OneLiner := by
  refine ⟨(isLine_reread b).trans h.line, ?_, ?_⟩
  · match b, h.line with
    | ⟨_, [], true, _⟩, _ => rfl
    | ⟨_, [.attr a], true, _⟩, _ => rfl
  · match b, h.line with
    | ⟨_, [], true, _⟩, _ =>
      intro a ha
      cases ha
    | ⟨_, [.attr a], true, _⟩, _ =>
      intro a' ha
      obtain rfl := Structure.attr.inj (List.mem_singleton.mp ha)
      obtain ⟨_, _, _, ⟨⟨_, after⟩, _⟩⟩ := a
      cases after <;> rfl

/-- A body on one line that gets a backend block is laid out anew, whether it was read before or not. -/
theorem OneLiner.reread_expand_reread (h : b.OneLiner) :
    (b.reread.expand.pushS3 backend).reread = (b.expand.pushS3 backend).reread := by
  match b, h.line with
  | ⟨⟨before, after⟩, [], true, _⟩, _ =>
    have hbefore : before.getD [] = [] := h.before
    simp [Body.reread, expand, pushS3, push, rereadAll, hbefore]
  | ⟨⟨before, after⟩, [.attr a], true, _⟩, _ =>
    have hbefore : before.getD [] = [] := h.before
    have hattr := fun d => Structure.reread_withDecor_reread d (.around S3Backend.margin [])
      (h.closed a (List.mem_cons_self ..))
    simp [Body.reread, expand, pushS3, push, rereadAll, hbefore, hattr]

theorem OneLiner.switchedInside_onDisk (h : b.OneLiner) : b.switchedInside .onDisk backend = b := h.bare.without

theorem OneLiner.switchedInside_s3 (h : b.OneLiner) : b.switchedInside .s3 backend = b.expand.pushS3 backend := by
  rw [switchedInside, h.bare.without]

/-- Once a body has outgrown its line it is the same whether it is marked as written on one line or not. -/
theorem reread_pushS3 (b : Body) :
    (b.pushS3 backend).reread = ({ b with oneLine := false }.pushS3 backend).reread := by
  have hlong : (b.pushS3 backend).isLine = false := by
    match b with
    | ⟨_, [], true, _⟩ => rfl
    | ⟨_, _ :: _, true, _⟩ => simp [isLine, pushS3, push]
    | ⟨_, _, false, _⟩ => rfl
  rw [reread_of_not_isLine hlong, reread_of_not_isLine (isLine_of_lines rfl)]
  rfl

/-- The last switch decides what becomes of a body on one line if it is one to S3. -/
theorem OneLiner.switchedOnFile_s3 (h : b.OneLiner) (modes : List Mode) :
    b.switchedOnFile backend (modes ++ [.s3]) = (b.switchedInside .s3 backend).reread := by
  induction modes generalizing b with
  | nil => rfl
  | cons mode modes ih =>
    rw [h.switchedInside_s3]
    cases mode with
    | onDisk =>
      show (b.switchedInside .onDisk backend).reread.switchedOnFile backend (modes ++ [.s3]) = _
      rw [h.switchedInside_onDisk, ih h.reread, h.reread.switchedInside_s3, h.reread_expand_reread]
    | s3 =>
      have hbare : Bare { b.expand with oneLine := false } := h.bare.expand
      have hsingle : ({ b.expand with oneLine := false }.pushS3 backend).Single := by
        rw [Single, hbare.without_pushS3]
        exact hbare
      have hlast : ({ b.expand with oneLine := false }.pushS3 backend).switchedInside .s3 backend =
          { b.expand with oneLine := false }.pushS3 backend := by
        rw [switchedInside, hbare.without_pushS3]
        rfl
      -- the body has outgrown its line, so from here on reading it back changes nothing that a switch can see
      show (b.switchedInside .s3 backend).reread.switchedOnFile backend (modes ++ [.s3]) = _
      rw [h.switchedInside_s3, reread_pushS3, switchedOnFile_reread rfl, switchedAll, List.foldl_append]
      show (Body.switchedInside .s3 backend
        (({ b.expand with oneLine := false }.pushS3 backend).switchedAll backend modes)).reread = _
      rw [hsingle.switchedInside_switchedAll (fun h => by cases h), hlast]

theorem OneLiner.switchedAll_onDisk (h : b.OneLiner) {modes : List Mode} (hmodes : ∀ mode ∈ modes, mode = .onDisk) :
    b.switchedAll backend modes = b := by
  induction modes with
  | nil => rfl
  | cons mode modes ih =>
    obtain ⟨hmode, hrest⟩ := List.forall_mem_cons.mp hmodes
    rw [hmode]
    show (b.switchedInside .onDisk backend).switchedAll backend modes = b
    rw [h.switchedInside_onDisk, ih hrest]

theorem OneLiner.switchedOnFile_onDisk (h : b.OneLiner) {modes : List Mode} (hmodes : ∀ mode ∈ modes, mode = .onDisk) :
    b.reread.switchedOnFile backend modes = b.reread := by
  induction modes with
  | nil => rfl
  | cons mode modes ih =>
    obtain ⟨hmode, hrest⟩ := List.forall_mem_cons.mp hmodes
    rw [hmode]
    show (b.reread.switchedInside .onDisk backend).reread.switchedOnFile backend modes = b.reread
    rw [h.reread.switchedInside_onDisk, reread_reread, ih hrest]

/-! ## Runs -/

/-- A body that is marked as written on one line is as it is read on one line. -/
def Settled (b : Body) : Prop := b.oneLine = true → b.OneLiner

/-- Where there is at most one backend block, the last switch decides, but for the layout of a body that was written on one
line. -/
theorem Settled.switchedOnFile_last (h : b.Settled) (hsingle : b.Single) {last : Mode}
    (hlines : last = .onDisk → b.oneLine = false) (modes : List Mode) :
    b.switchedOnFile backend (modes ++ [last]) = (b.switchedInside last backend).reread := by
  cases hone : b.oneLine with
  | false =>
    rw [switchedOnFile_of_lines hone (by simp), switchedAll, List.foldl_append]
    exact congrArg reread (hsingle.switchedInside_switchedAll hlines modes)
  | true =>
    cases last with
    | onDisk =>
      rw [hlines rfl] at hone
      cases hone
    | s3 => exact (h hone).switchedOnFile_s3 modes

/-- Writing and reading a body between switches does not change what becomes of it, unless it was written on one line and
was switched to S3 and back. -/
theorem Settled.switchedOnFile_eq (h : b.Settled) {modes : List Mode} (hmodes : modes ≠ [])
    (hlines : b.oneLine = false ∨ modes.getLast? = some .s3 ∨ .s3 ∉ modes) :
    b.switchedOnFile backend modes = (b.switchedAll backend modes).reread := by
  cases hone : b.oneLine with
  | false => exact switchedOnFile_of_lines hone hmodes
  | true =>
    have hline := h hone
    rcases hlines with hlines | hlast | hnone
    · rw [hlines] at hone
      cases hone
    · obtain ⟨before, rfl⟩ := List.getLast?_eq_some_iff.mp hlast
      rw [hline.switchedOnFile_s3, switchedAll, List.foldl_append]
      exact (congrArg reread (hline.bare.single.switchedInside_switchedAll (fun h => by cases h) before)).symm
    · have honDisk : ∀ mode ∈ modes, mode = .onDisk := by
        intro mode hmode
        cases mode with
        | onDisk => rfl
        | s3 => exact absurd hmode hnone
      rw [hline.switchedAll_onDisk honDisk]
      cases modes with
      | nil => exact absurd rfl hmodes
      | cons mode modes =>
        obtain ⟨hmode, hrest⟩ := List.forall_mem_cons.mp honDisk
        rw [hmode]
        show (b.switchedInside .onDisk backend).reread.switchedOnFile backend modes = b.reread
        rw [hline.switchedInside_onDisk, hline.switchedOnFile_onDisk hrest]

end Body
end BackendSwitch
