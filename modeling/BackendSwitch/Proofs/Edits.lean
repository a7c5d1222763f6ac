import BackendSwitch.Proofs.Plain
import BackendSwitch.Proofs.Reading.Backend

/-! # Edits of documents that are read again

A document that is laid out and whose values are read again is read from its text. Edits keep both, at every depth: they
put in one block, take blocks out, and move blank text where it may stand. -/
namespace BackendSwitch
set_option autoImplicit false

/-! ## Edits -/

/-- An edit of a document. All but a switch change the body inside a chain of blocks, each the first one with its
identifier. -/
inductive Edit where
  | switch (mode : Mode) (backend : S3Backend)
  | expand (chain : List Text)
  | remove (chain : List Text) (ident : Text)
  | push (chain : List Text) (backend : S3Backend)
deriving DecidableEq, Repr

/-- An edit that puts in no settings but legible ones. -/
def Edit.Legible : Edit → Prop
  | .switch _ backend => backend.Legible
  | .expand _ => True
  | .remove _ _ => True
  | .push _ backend => backend.Legible

instance : (e : Edit) → Decidable e.Legible
  | .switch _ backend => inferInstanceAs (Decidable backend.Legible)
  | .expand _ => .isTrue trivial
  | .remove _ _ => .isTrue trivial
  | .push _ backend => inferInstanceAs (Decidable backend.Legible)

namespace Document

def changeBody (f : Body → Body) (d : Document) : Document := { d with body := f d.body }

/-- Carries out an edit. One that fails changes nothing. -/
def edit (d : Document) : Edit → Document
  | .switch mode backend =>
    match d.switch mode backend with
    | .ok (_, d') => d'
    | .error _ => d
  | .expand chain => d.changeBody (Body.modifyNested Body.expand chain)
  | .remove chain ident =>
    d.changeBody (Body.modifyNested (fun b => ((b.removeBlock? ident).map Prod.snd).getD b) chain)
  | .push chain backend => d.changeBody (Body.modifyNested (Body.pushS3 backend) chain)

def editAll (d : Document) (es : List Edit) : Document := es.foldl edit d

end Document

/-! ## Changes of bodies -/

namespace Body

/-- A change of bodies that leaves them laid out and their values readable, in blocks and in documents. -/
structure Harmless (f : Body → Body) : Prop where
  formed : ∀ b : Body, b.Formed → (f b).Formed
  document : ∀ b : Body, b.DocumentFormed → (f b).DocumentFormed
  values : ∀ b : Body, b.Each Expr.Repeats Label.Legible → (f b).Each Expr.Repeats Label.Legible

theorem Harmless.comp {f g : Body → Body} (hg : Harmless g) (hf : Harmless f) : Harmless fun b => g (f b) where
  formed b h := hg.formed _ (hf.formed b h)
  document b h := hg.document _ (hf.document b h)
  values b h := hg.values _ (hf.values b h)

theorem removeBlock?_eq_without (ident : Text) (b : Body) :
    ((b.removeBlock? ident).map Prod.snd).getD b = b.without ident := by
  obtain ⟨decor, items, oneLine, openEnd⟩ := b
  have hrest := Structure.rest_takeBlock? ident items
  unfold removeBlock? without
  rw [← hrest]
  cases Structure.takeBlock? ident items <;> rfl

theorem harmless_without (ident : Text) : Harmless (without ident) where
  formed _ h := h.without
  document _ h :=
    { h with
      items := fun s hs => h.items s (List.mem_of_mem_eraseP hs)
      keys := h.keys.sublist (List.eraseP_sublist.filterMap _) }
  values _ h := h.without

theorem harmless_expand : Harmless expand where
  formed _ h := h.expand
  document b h := by
    have hsame : b.expand = b := by
      rw [expand, h.oneLine]
      rfl
    rw [hsame]
    exact h
  values _ h := h.expand

theorem harmless_pushS3 {backend : S3Backend} (h : backend.Legible) : Harmless (pushS3 backend) where
  formed _ hb := hb.pushS3
  document _ hb :=
    { hb with
      items := by
        rintro s hs
        rcases List.mem_append.mp hs with hs | hs
        · exact hb.items s hs
        · obtain rfl := List.mem_singleton.mp hs
          exact backend.formed_block
      keys := by
        rw [pushS3, items_push, keys_append_block]
        exact hb.keys }
  values _ hb := hb.pushS3 (S3Backend.each_block h)

theorem Harmless.modifyBlock {f : Body → Body} (hf : Harmless f) (ident : Text) : Harmless (modifyBlock ident f) where
  formed _ h := h.modifyBlock hf.formed
  document _ h :=
    { h with
      items := by
        intro s hs
        rcases Structure.mem_modifyBlock hs with hs | ⟨c, hc, rfl⟩
        · exact h.items s hs
        · obtain ⟨hdecor, hhead, hbody⟩ := Block.formed_iff.mp (h.items _ hc)
          exact Block.formed_iff.mpr ⟨hdecor, hhead, hf.formed c.body hbody⟩
      keys := by
        rw [Body.modifyBlock, keys_modifyBlock]
        exact h.keys }
  values _ h := h.modifyBlock hf.values

theorem Harmless.modifyNested {f : Body → Body} (hf : Harmless f) (chain : List Text) :
    Harmless (modifyNested f chain) := by
  induction chain with
  | nil => exact hf
  | cons ident chain ih => exact ih.modifyBlock ident

theorem harmless_switchedInside (mode : Mode) {backend : S3Backend} (h : backend.Legible) :
    Harmless (switchedInside mode backend) := by
  cases mode with
  | onDisk => exact harmless_without _
  | s3 => exact (harmless_pushS3 h).comp (harmless_expand.comp (harmless_without _))

theorem harmless_switched (mode : Mode) {backend : S3Backend} (h : backend.Legible) : Harmless (switched mode backend) :=
  (harmless_switchedInside mode h).modifyBlock _

end Body

/-! ## Documents -/

namespace Document

/-- A document that is read from its text. -/
structure Readable (d : Document) : Prop where
  formed : d.body.DocumentFormed
  values : d.body.Each Expr.Repeats Label.Legible

theorem readable_of_parse {path t : Text} {d : Document} (h : parse path t = .ok d)
    (hd : d.body.Each Expr.Faultless Label.Legible) : d.Readable := by
  obtain ⟨hlines, hformed⟩ := Grammar.document_eq_ok (read_of_parse h)
  have hread : d.body.Each Expr.IsRead Label.Any := Body.each_iff.mpr fun s hs => (hlines.items s hs).values
  exact ⟨hformed, Body.each_both (fun _ => Expr.repeats_of_isRead) (fun _ _ hl => hl) d.body hread hd⟩

theorem each_faultless {d : Document} (h : d.body.Each Expr.Plain Label.Legible) :
    d.body.Each Expr.Faultless Label.Legible :=
  Body.each_both (fun _ he _ => he.faultless) (fun _ hl _ => hl) d.body h h

theorem Readable.parse_render {d : Document} (h : d.Readable) (path : Text) :
    parse path d.render = .ok ⟨path, d.body.rereadDocument⟩ := by
  have hread : Grammar.document d.body.text = .ok d.body.rereadDocument [] := Grammar.document_text h.formed h.values
  unfold parse render Body.parse
  rw [hread]

theorem Readable.changeBody {d : Document} (h : d.Readable) {f : Body → Body} (hf : Body.Harmless f) :
    (d.changeBody f).Readable := ⟨hf.document _ h.formed, hf.values _ h.values⟩

theorem Readable.edit {d : Document} (h : d.Readable) {e : Edit} (he : e.Legible) : (d.edit e).Readable := by
  cases e with
  | switch mode backend =>
    cases hblock : d.body.findBlock? terraformIdent with
    | none =>
      rw [Document.edit, switch, hblock]
      exact h
    | some block =>
      obtain ⟨outcome, hswitch⟩ := switch_of_findBlock? mode backend hblock
      rw [Document.edit, hswitch]
      exact h.changeBody (Body.harmless_switched mode he)
  | expand chain => exact h.changeBody (Body.harmless_expand.modifyNested chain)
  | remove chain ident =>
    rw [Document.edit, funext (Body.removeBlock?_eq_without ident)]
    exact h.changeBody ((Body.harmless_without ident).modifyNested chain)
  | push chain backend => exact h.changeBody ((Body.harmless_pushS3 he).modifyNested chain)

theorem Readable.editAll {d : Document} (h : d.Readable) {es : List Edit} (hes : ∀ e ∈ es, e.Legible) :
    (d.editAll es).Readable := by
  induction es generalizing d with
  | nil => exact h
  | cons e es ih =>
    obtain ⟨he, hes⟩ := List.forall_mem_cons.mp hes
    exact ih (h.edit he) hes

/-- Whatever was edited in a document without faults, its text is read, and written again as it is. -/
theorem parse_render_editAll {path t : Text} {d : Document} (h : parse path t = .ok d)
    (hd : d.body.Each Expr.Faultless Label.Legible) {es : List Edit} (hes : ∀ e ∈ es, e.Legible) :
    ∃ d', parse path (d.editAll es).render = .ok d' ∧ d'.render = (d.editAll es).render := by
  have hreadable := (readable_of_parse h hd).editAll hes
  exact ⟨_, hreadable.parse_render path, Body.text_rereadDocument hreadable.formed.before⟩

/-- A document with a list, an object, a template, two heredocs, a call and a backend to take out. -/
def furnished : Text :=
  "terraform \x7b\n  backend \"gcs\" \x7b\n    bucket = \"a-$\x7bb\x7d\"\n  \x7d # c\n".toList ++
    "  d = \x7b e = [1, f], \"g\" = h\n \x7d\n  i = <<-EOT\n    j $\x7bk\x7d\n      l\n  EOT\n\x7d\n".toList ++
      "m = n(<<E\no\nE\n)\n".toList

/-- A document whose only block stands on one line. -/
def oneLiner : Text := "terraform { a = 1 }".toList

def deepEdits : List Edit :=
  [.expand ["terraform".toList], .push ["terraform".toList, "backend".toList] .standard, .switch .s3 .standard,
    .push ["terraform".toList, "backend".toList] ⟨"a\"b".toList, [], [], false⟩, .push [] .standard]

theorem parse_render_editAll_furnished : ∃ d d', parse "main.tf".toList furnished = .ok d ∧
    parse "main.tf".toList (d.editAll deepEdits).render = .ok d' ∧ d'.render = (d.editAll deepEdits).render := by
  obtain ⟨d, h, hplain⟩ := exists_of_parse (fun d => d.body.Each Expr.Plain Label.Legible) "main.tf".toList furnished
    (by decide +kernel)
  have hlegible : ∀ e ∈ deepEdits, e.Legible := by decide
  obtain ⟨d', hread, hrender⟩ := parse_render_editAll h (each_faultless hplain) hlegible
  exact ⟨d, d', h, hread, hrender⟩

/-- Settings with a sign of a template that is not read back. -/
def illegible : S3Backend := { S3Backend.standard with bucket := "$\x7b$%\x7b".toList }

/-- The settings are written with one marker escaped twice and the other not at all. -/
theorem not_parse_render_editAll_illegible : ((parse "main.tf".toList "terraform \x7b\n\x7d\n".toList).toOption.map fun d =>
    (parse "main.tf".toList (d.editAll [.switch .s3 illegible]).render).toOption.isSome) = some false := by
  decide +kernel

/-- A switched document without faults is read from its text, and says what it said with one change: in the first
`terraform` block the first `backend` block is gone and, for S3, a new one comes last. -/
theorem parse_render_switch {path t : Text} {d : Document} {block : Block} (h : parse path t = .ok d)
    (hblock : d.body.findBlock? terraformIdent = some block) (hd : d.body.Each Expr.Faultless Label.Legible) (mode : Mode) :
    ∃ outcome d' d'', d.switch mode .standard = .ok (outcome, d') ∧ parse path d'.render = .ok d'' ∧
      d''.body.statements = Statement.switched mode .standard d.body.statements := by
  obtain ⟨outcome, hswitch⟩ := switch_of_findBlock? mode .standard hblock
  have hreadable := (readable_of_parse h hd).changeBody (Body.harmless_switched mode S3Backend.legible_standard)
  refine ⟨outcome, _, _, hswitch, hreadable.parse_render path, ?_⟩
  rw [Body.statements_rereadDocument, ← Body.statements_switched_eq]
  rfl

theorem parse_render_switch_furnished : ∃ d outcome d' d'', parse "main.tf".toList furnished = .ok d ∧
    d.switch .s3 .standard = .ok (outcome, d') ∧ parse "main.tf".toList d'.render = .ok d'' ∧
    d''.body.statements = Statement.switched .s3 .standard d.body.statements := by
  obtain ⟨d, h, hplain, hsome⟩ := exists_of_parse
    (fun d => d.body.Each Expr.Plain Label.Legible ∧ (d.body.findBlock? terraformIdent).isSome = true) "main.tf".toList
    furnished (by decide +kernel)
  obtain ⟨block, hblock⟩ := Option.isSome_iff_exists.mp hsome
  obtain ⟨outcome, d', d'', hswitch, hread, hsays⟩ := parse_render_switch h hblock (each_faultless hplain) .s3
  exact ⟨d, outcome, d', d'', h, hswitch, hread, hsays⟩

/-- A quoted template in a quoted template, with an escaped quote behind it. -/
def nestedTemplate : Text := "terraform \x7b\x7d\na = \"$\x7b\"$\x7bx\x7d\"\x7d\\\"\"\n".toList

/-- Behind the inner template the quote is written without its escape. -/
theorem not_parse_render_switch_nestedTemplate : ((parse "main.tf".toList nestedTemplate).toOption.bind fun d =>
    (d.switch .onDisk .standard).toOption.map fun x => (parse "main.tf".toList x.2.render).toOption.isSome) =
      some false := by
  decide +kernel

end Document
end BackendSwitch
