import BackendSwitch.Proofs.Queue
import BackendSwitch.Proofs.Runs
import BackendSwitch.Proofs.Settings

/-! # A switch as a splice of text

Where the first `terraform` block is not written on one line, switching moves no text: the lines of its first backend block
are cut out and, for S3, the lines of a new one are put in at the end of the block. Every other character stays in place,
whatever stands around the block, in it and behind it. -/
namespace BackendSwitch
set_option autoImplicit false

/-! ## Lines -/

/-- The text behind the text of a structure: its line end, if it has one, and the structures below. -/
def linesBehind (openEnd : Bool) : List Structure → Text
  | [] => if openEnd then [] else ['\n']
  | s :: ss => '\n' :: linesText openEnd (s :: ss)

theorem linesText_cons (openEnd : Bool) (s : Structure) (ss : List Structure) :
    linesText openEnd (s :: ss) = s.text ++ linesBehind openEnd ss := by
  cases ss <;> rfl

theorem linesText_append (ss ts : List Structure) : linesText false (ss ++ ts) = linesText false ss ++ linesText false ts := by
  rw [linesText_false, List.flatMap_append, ← linesText_false, ← linesText_false]

/-- The structures above another one have line ends, also where the last structure of all has none. -/
theorem linesText_append_cons (openEnd : Bool) (ss : List Structure) (s : Structure) (ts : List Structure) :
    linesText openEnd (ss ++ s :: ts) = linesText false ss ++ (s.text ++ linesBehind openEnd ts) := by
  induction ss with
  | nil => exact linesText_cons openEnd s ts
  | cons x ss ih =>
    have hnext : linesBehind openEnd (ss ++ s :: ts) = '\n' :: linesText openEnd (ss ++ s :: ts) := by
      cases ss <;> rfl
    rw [List.cons_append, linesText_cons, hnext, ih, linesText_false_cons]

/-! ## Blocks -/

/-- The text of a block up to the first line of its body. -/
def Block.opening (b : Block) : Text :=
  b.decor.before.getD [] ++ (b.ident ++ (b.identAfter.getD [' '] ++ (b.labels.flatMap Label.written ++
    '{' :: (b.body.decor.before.getD [] ++ ['\n']))))

/-- The text of a block from behind the last line of its body on. -/
def Block.closing (b : Block) : Text := b.body.decor.after.getD [] ++ '}' :: b.decor.after.getD []

theorem Structure.text_block_of_lines {b : Block} (h : b.body.oneLine = false) :
    (Structure.block b).text = b.opening ++ (linesText false b.body.items ++ b.closing) := by
  rw [text_block, Block.core, Body.inside_of_lines (Body.isLine_of_lines h)]
  simp [Block.opening, Block.closing]

/-- The first backend block of a body, if there is one. -/
def Body.firstBackend (b : Body) : List Structure := ((b.findBlock? S3Backend.blockIdent).map .block).toList

namespace Structure

variable {ident : Text}

theorem isBlock_of_findBlock?_eq_none {ss : List Structure} (h : findBlock? ident ss = none) :
    ∀ s ∈ ss, s.isBlock ident = false := by
  induction ss with
  | nil => exact fun s hs => by cases hs
  | cons s ss ih =>
    cases hs : s.isBlock ident with
    | true =>
      obtain ⟨b, rfl, hb, -⟩ := block?_of_isBlock hs
      rw [findBlock?, if_pos hb] at h
      cases h
    | false =>
      rw [findBlock?_cons_of_other hs] at h
      exact List.forall_mem_cons.mpr ⟨hs, ih h⟩

/-- Where the first block of a kind stands, and what is left without it. -/
theorem split_eraseP (ident : Text) (ss : List Structure) :
    ∃ first last, ss = first ++ (((findBlock? ident ss).map .block).toList ++ last) ∧
      ss.eraseP (isBlock ident) = first ++ last := by
  cases h : findBlock? ident ss with
  | none =>
    have hnone := isBlock_of_findBlock?_eq_none h
    exact ⟨ss, [], by simp, by rw [List.eraseP_of_forall_not (by simpa using hnone), List.append_nil]⟩
  | some b =>
    obtain ⟨first, last, rfl, hident, hfirst⟩ := split_of_findBlock? h
    have hb : (Structure.block b).isBlock ident = true := by simp [isBlock, hident]
    refine ⟨first, last, rfl, ?_⟩
    rw [List.eraseP_append_right _ (by simpa using hfirst), List.eraseP_cons_of_pos hb]

end Structure

/-! ## Documents -/

namespace Document

variable {d : Document} {block : Block} {before behind : List Structure}

/-- The text of a document up to the structures of one block. -/
def above (d : Document) (before : List Structure) (block : Block) : Text :=
  d.body.decor.before.getD [] ++ (linesText false before ++ block.opening)

/-- The text of a document from behind the structures of one block on. -/
def below (d : Document) (block : Block) (behind : List Structure) : Text :=
  block.closing ++ (linesBehind d.body.openEnd behind ++ d.body.decor.after.getD [])

/-- What stands around the structures of a block on lines does not depend on them. -/
theorem render_filled (h : block.body.oneLine = false) (ss : List Structure) :
    (d.filled before block behind ⟨block.body.decor, ss, block.body.oneLine, block.body.openEnd⟩).render =
      d.above before block ++ linesText false ss ++ d.below block behind := by
  obtain ⟨decor, ident, identAfter, labels, ⟨inner, items, oneLine, openEnd⟩⟩ := block
  have htext := Body.text_eq
    (d.filled before ⟨decor, ident, identAfter, labels, ⟨inner, items, oneLine, openEnd⟩⟩ behind
      ⟨inner, ss, oneLine, openEnd⟩).body
  have hblock : (Structure.block ⟨decor, ident, identAfter, labels, ⟨inner, ss, oneLine, openEnd⟩⟩).text = _ :=
    Structure.text_block_of_lines h
  rw [render, htext, filled, linesText_append_cons, hblock, above, below]
  simp only [Block.opening, Block.closing, List.append_assoc]

/-- Where the first `terraform` block is not on one line, its first backend block is cut out of the text of the document and,
for S3, the text of the new one is put in at the end of the block. -/
theorem render_switch_of_lines (hblock : d.body.findBlock? terraformIdent = some block)
    (hlines : block.body.oneLine = false) :
    ∃ before behind first last a c z,
      d.body.items = before ++ .block block :: behind ∧
      block.body.items = first ++ (block.body.firstBackend ++ last) ∧
      a = d.above before block ++ linesText false first ∧ c = linesText false last ∧ z = d.below block behind ∧
      d.render = a ++ linesText false block.body.firstBackend ++ c ++ z ∧
      ∀ backend,
        (∃ outcome d', d.switch .onDisk backend = .ok (outcome, d') ∧ d'.render = a ++ c ++ z) ∧
        ∃ outcome d', d.switch .s3 backend = .ok (outcome, d') ∧ d'.render = a ++ c ++ backend.lines ++ z := by
  obtain ⟨before, behind, hitems, hident, hbefore⟩ := Structure.split_of_findBlock? hblock
  obtain ⟨first, last, hfirst, herase⟩ := Structure.split_eraseP S3Backend.blockIdent block.body.items
  have hfilled := filled_body hitems
  have hswitch : ∀ mode backend, ∃ outcome d', d.switch mode backend = .ok (outcome, d') ∧
      d'.render = d.above before block ++ linesText false first ++ linesText false last ++
        linesText false (Body.added mode backend) ++ d.below block behind := by
    intro mode backend
    have hrun : (d.filled before block behind block.body).switch mode backend = _ :=
      switch_filled hident hbefore ⟨mode, backend⟩
    rw [hfilled, Body.switchedInside_of_lines mode hlines, herase] at hrun
    refine ⟨_, _, hrun, ?_⟩
    rw [render_filled hlines, linesText_append, linesText_append]
    simp only [List.append_assoc]
  refine ⟨before, behind, first, last, _, _, _, hitems, hfirst, rfl, rfl, rfl, ?_, fun backend => ⟨?_, ?_⟩⟩
  · have hrender : d.render = d.above before block ++ linesText false block.body.items ++ d.below block behind := by
      rw [← render_filled hlines, Body.mk_items, hfilled]
    rw [hrender, hfirst, linesText_append, linesText_append]
    simp only [List.append_assoc]
    rfl
  · obtain ⟨outcome, d', hrun, hrender⟩ := hswitch .onDisk backend
    refine ⟨outcome, d', hrun, ?_⟩
    rw [hrender, Body.added, linesText, List.append_nil]
  · exact hswitch .s3 backend

/-- A backend in the midst of a block, with comments on all sides and no line end behind the block. -/
def amidst : Text :=
  "x = 1\nterraform \x7b # opens\n  a = 1 # a\n\n  # old\n  backend \"gcs\" \x7b\n  \x7d # gone\n  b \x7b \x7d\n  # last\n\x7d # closes".toList

/-- What is cut out of it. -/
def amidstBackend : Text := "\n  # old\n  backend \"gcs\" \x7b\n  \x7d # gone\n".toList

theorem render_switch_of_lines_amidst : ∃ d block a c z outcome d', parse "main.tf".toList amidst = .ok d ∧
    d.body.findBlock? terraformIdent = some block ∧ block.body.oneLine = false ∧ d.render = a ++ amidstBackend ++ c ++ z ∧
    d.switch .s3 .standard = .ok (outcome, d') ∧ d'.render = a ++ c ++ S3Backend.standard.lines ++ z := by
  obtain ⟨d, h, hany⟩ := exists_of_parse (fun d => ((d.body.findBlock? terraformIdent).any fun block =>
    decide (block.body.oneLine = false ∧ linesText false block.body.firstBackend = amidstBackend)) = true)
    "main.tf".toList amidst (by decide +kernel)
  obtain ⟨block, hblock, hdecide⟩ := (Option.any_eq_true _ _).mp hany
  obtain ⟨hlines, hcut⟩ := of_decide_eq_true hdecide
  obtain ⟨-, -, -, -, a, c, z, -, -, -, -, -, hrender, hswitch⟩ := render_switch_of_lines hblock hlines
  obtain ⟨-, outcome, d', hrun, hafter⟩ := hswitch .standard
  rw [hcut] at hrender
  exact ⟨d, block, a, c, z, outcome, d', h, hblock, hlines, hrender, hrun, hafter⟩

end Document
end BackendSwitch
