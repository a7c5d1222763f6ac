import BackendSwitch.Proofs.FileRuns
import BackendSwitch.Proofs.Verbatim.Expression

/-! # Documents are written back as they were

A text in which everything is kept that the reader comes by is what the document that is read from it is written as. A switch
that changes nothing in such a document therefore changes nothing in its file. -/
namespace BackendSwitch
set_option autoImplicit false

open Grammar

namespace Grammar

open Reader (passes_of_ok both_of_ok)

variable {body : Reader Body} {bodyKept : Text → Bool} {s r : Text}

/-! ## Values and labels -/

theorem value_keeps : value.Keeps valueKept fun e => e.decor.before.getD [' '] ++ (e.node.text ++ e.decor.tail) := by
  intro s e r hread hkept
  simp only [value, Reader.bind_iff, Reader.pure_iff] at hread
  obtain ⟨before, s1, hbefore, e, s2, he, rfl, rfl⟩ := hread
  rw [valueKept, passes_of_ok hbefore] at hkept
  have hstands := expression_keeps he hkept
  have htail : (e.withBefore before).decor.tail = [] := hstands.tail
  show s = before ++ (e.node.text ++ (e.withBefore before).decor.tail) ++ s2
  rw [inline_text hbefore, hstands.text, htail]
  simp

theorem label_keeps : label.Keeps quotedTextKept Label.written := by
  intro s l r hread hkept
  rcases Reader.or_eq_ok_iff.mp hread with hread | ⟨-, hread⟩
  · simp only [Reader.bind_iff, Reader.pure_iff] at hread
    obtain ⟨u, s1, hu, after, s2, hafter, rfl, rfl⟩ := hread
    rw [quotedText_keeps s u s1 hu hkept, inline_text hafter]
    simp [Label.written]
  · simp only [Reader.bind_iff, Reader.pure_iff] at hread
    obtain ⟨u, s1, hu, after, s2, hafter, rfl, rfl⟩ := hread
    rw [(identifier_eq_ok hu).1, inline_text hafter]
    simp [Label.written]

/-! ## Bodies of blocks -/

/-- A reader of bodies does not go wrong with what is kept. Only at the end of the text the last line of a body has no end. -/
structure KeepsBody (body : Reader Body) (bodyKept : Text → Bool) : Prop where
  lines : ReadsLines body
  openEnd : ∀ s b r, body s = .ok b r → b.openEnd = true → r = []
  text : body.Keeps bodyKept fun b => linesText b.openEnd b.items ++ b.decor.after.getD []

theorem lineBody_keeps : lineBody.Keeps lineBodyKept Body.inside := by
  intro s b r hread hkept
  simp only [lineBody, Reader.bind_iff, Reader.pure_iff] at hread
  obtain ⟨item, s1, hitem, after, s2, hafter, rfl, rfl⟩ := hread
  cases item with
  | none =>
    rw [(Reader.optional_eq_none_iff.mp hitem).2, inline_text hafter, Option.toList_none, Body.inside_of_empty]
    simp
  | some item =>
    have hline := Reader.optional_eq_some_iff.mp hitem
    simp only [lineAttribute, Reader.bind_iff, Reader.pure_iff, Reader.require_eq_ok_iff] at hline
    obtain ⟨before, t1, hbefore, key, t2, hkey, keyAfter, t3, hkeyAfter, _, t4, hsign, e, t5, he, behind, t6, hbehind, rfl,
      rfl⟩ := hline
    rw [lineBodyKept, passes_of_ok hbefore, passes_of_ok hkey, passes_of_ok hkeyAfter, passes_of_ok hsign] at hkept
    rw [inline_text hbefore, (identifier_eq_ok hkey).1, inline_text hkeyAfter, Reader.char_eq_ok_iff.mp hsign,
      value_keeps t4 e t5 he hkept, inline_text hbehind, inline_text hafter, Option.toList_some, Body.inside_of_attribute,
      Attribute.text_eq]
    simp [Decor.around, Attribute.rest]

theorem blockBody_keeps (hbody : KeepsBody body bodyKept) :
    (blockBody body).Keeps (blockBodyKept bodyKept) fun b => '{' :: (b.inside ++ ['}']) := by
  intro s b r hread hkept
  simp only [blockBody, Reader.bind_iff, Reader.pure_iff, Reader.require_eq_ok_iff] at hread
  obtain ⟨_, s1, hopen, b', s2, hb, _, s3, hclose, rfl, rfl⟩ := hread
  rw [blockBodyKept, passes_of_ok hopen, Bool.and_eq_true] at hkept
  obtain ⟨hlinesKept, hlineKept⟩ := hkept
  have hinside : s1 = b'.inside ++ s2 := by
    rcases Reader.or_eq_ok_iff.mp hb with hlines | ⟨-, hline⟩
    · simp only [Reader.bind_iff, Reader.pure_iff] at hlines
      obtain ⟨before, t1, hbefore, v, t2, hline, b, t3, hread, rfl, rfl⟩ := hlines
      rw [passes_of_ok hbefore, both_of_ok hline] at hlinesKept
      have hended : b.openEnd = false := by
        rw [← Bool.not_eq_true]
        intro hended
        obtain rfl := hbody.openEnd _ _ _ hread hended
        cases hclose
      have hlines : ({ b with decor := { b.decor with before := some before } } : Body).isLine = false := by
        obtain ⟨decor, items, oneLine, openEnd⟩ := b
        obtain rfl : oneLine = false := (hbody.lines _ _ _ hread).1.oneLine
        rfl
      rw [Body.inside_of_lines hlines, (trailing_eq_ok hbefore).1, eq_of_newlineKept hline hlinesKept.1,
        hbody.text t2 b _ hread hlinesKept.2]
      simp [hended]
    · exact lineBody_keeps s1 b' s2 hline hlineKept
  rw [Reader.char_eq_ok_iff.mp hopen, hinside, Reader.char_eq_ok_iff.mp hclose]
  simp

/-! ## Structures -/

theorem afterIdentifier_keeps (hbody : KeepsBody body bodyKept) {taken : Bool} {start ident identAfter after : Text}
    {build : Decor → Structure} (before : Text)
    (hread : afterIdentifier body taken start ident identAfter s = .ok build (after ++ r))
    (hkept : afterIdentifierKept bodyKept s = true) :
    before ++ (ident ++ (identAfter ++ s)) = (build (.around before after)).text ++ r := by
  obtain ⟨hvalueKept, hblockKept⟩ := Bool.and_eq_true_iff.mp hkept
  obtain ⟨c, s1, hpeek, hread⟩ := Reader.bind_eq_ok_iff.mp hread
  obtain ⟨-, rfl⟩ := Reader.peek_eq_ok_iff.mp hpeek
  split at hread
  · cases taken with
    | true => cases hread
    | false =>
      obtain ⟨_, s2, hsign, hread⟩ := Reader.bind_eq_ok_iff.mp hread
      obtain ⟨e, s3, he, hread⟩ := Reader.bind_eq_ok_iff.mp hread
      obtain ⟨rfl, rfl⟩ := Reader.pure_iff.mp hread
      rw [passes_of_ok hsign] at hvalueKept
      rw [Reader.char_eq_ok_iff.mp hsign, value_keeps s2 e _ he hvalueKept, Structure.text]
      have htext := Attribute.text_eq [] [] ⟨.around before after, ident, some identAfter, e⟩
      rw [show render false (Structure.attr _).pieces = _ from htext]
      simp [Decor.around, Attribute.rest]
  split at hread
  · obtain ⟨labels, s2, hlabels, hread⟩ := Reader.bind_eq_ok_iff.mp hread
    obtain ⟨b, s3, hb, hread⟩ := Reader.bind_eq_ok_iff.mp hread
    obtain ⟨rfl, rfl⟩ := Reader.pure_iff.mp hread
    obtain ⟨hlabelsKept, hbodyKept⟩ := (both_of_ok hlabels).mp hblockKept
    rw [label_keeps.many s labels s2 hlabels hlabelsKept, blockBody_keeps hbody s2 b _ hb hbodyKept, Structure.text_block,
      Block.core]
    simp [Decor.around]
  · cases hread

theorem lineEnd_text {ended : Bool} (h : lineEnd s = .ok ended r) (hkept : newlineKept s = true) :
    s = (if ended then [] else ['\n']) ++ r := by
  unfold lineEnd at h
  split at h
  · cases h
    rfl
  · cases h
    rfl
  · cases hkept
  · cases h

theorem structureLine_keeps (hbody : KeepsBody body bodyKept) (used : List Text) :
    (structureLine body used).Keeps (structureLineKept body bodyKept used)
      fun x => x.1.text ++ if x.2 then [] else ['\n'] := by
  rintro s ⟨item, ended⟩ r hread hkept
  obtain ⟨before, s1, hbefore, hread⟩ := Reader.bind_eq_ok_iff.mp hread
  obtain ⟨build, s2, hbuild, hread⟩ := Reader.bind_eq_ok_iff.mp hread
  obtain ⟨ident, t1, hident, hbuild⟩ := Reader.bind_eq_ok_iff.mp hbuild
  obtain ⟨identAfter, t2, hidentAfter, hbuild⟩ := Reader.bind_eq_ok_iff.mp hbuild
  simp only [Reader.bind_iff, Reader.pure_iff, Reader.require_eq_ok_iff, Prod.mk.injEq] at hread
  obtain ⟨after, s3, hafter, ended', s4, hended, ⟨rfl, rfl⟩, rfl⟩ := hread
  rw [structureLineKept, passes_of_ok hbefore, passes_of_ok hident, passes_of_ok hidentAfter, both_of_ok hbuild,
    passes_of_ok hafter] at hkept
  obtain ⟨rfl, -⟩ := trailing_eq_ok hafter
  rw [blank_text hbefore, (identifier_eq_ok hident).1, inline_text hidentAfter,
    afterIdentifier_keeps hbody before hbuild hkept.1, lineEnd_text hended hkept.2]
  simp

theorem structures_nil {n : Nat} {used : List Text} {ended last : Bool} {items : List Structure}
    (h : structures body n used ended [] = .ok (items, last) r) : items = [] := by
  cases n with
  | zero =>
    obtain ⟨hitems, -⟩ := Reader.pure_iff.mp h
    exact (Prod.mk.inj hitems).1.symm
  | succ n =>
    have hsoft : structureLine body used [] = .soft := rfl
    unfold structures at h
    rw [hsoft] at h
    cases h
    rfl

theorem structures_keeps (hbody : KeepsBody body bodyKept) {n : Nat} {used : List Text} {ended last : Bool}
    {items : List Structure} (hread : structures body n used ended s = .ok (items, last) r)
    (hkept : structuresKept body bodyKept n used s = true) :
    s = linesText last items ++ r ∧ (items = [] → last = ended) := by
  induction n generalizing used ended s items with
  | zero =>
    obtain ⟨hitems, rfl⟩ := Reader.pure_iff.mp hread
    cases hitems
    exact ⟨rfl, fun _ => rfl⟩
  | succ n ih =>
    unfold structures at hread
    cases hline : structureLine body used s with
    | soft =>
      simp only [hline, Reply.ok.injEq, Prod.mk.injEq] at hread
      obtain ⟨⟨rfl, rfl⟩, rfl⟩ := hread
      exact ⟨rfl, fun _ => rfl⟩
    | hard c u => simp [hline] at hread
    | ok x u =>
      obtain ⟨item, ended'⟩ := x
      simp only [hline] at hread
      obtain ⟨⟨items', last'⟩, v, hrest, hx⟩ := Reader.bind_eq_ok_iff.mp hread
      cases hx
      rw [structuresKept, passes_of_ok hline, Bool.and_eq_true] at hkept
      have htext := structureLine_keeps hbody used s (item, ended') u hline hkept.1
      obtain ⟨hrestText, hlast⟩ := ih hrest hkept.2
      refine ⟨?_, fun h => by cases h⟩
      cases items' with
      | nil =>
        obtain rfl := hlast rfl
        rw [htext, hrestText]
        rfl
      | cons next items' =>
        -- more was read behind the line, so the text did not end with it
        have hended : ended' = false := by
          rw [← Bool.not_eq_true]
          intro hended
          obtain rfl := (structureLine_eq_ok hbody.lines hline).2.2 hended
          cases structures_nil hrest
        rw [htext, hended, linesText, hrestText]
        simp

theorem bodyLevel_keeps (n : Nat) : KeepsBody (bodyLevel n) (bodyLevelKept n) := by
  induction n with
  | zero => exact ⟨readsLines_bodyLevel 0, fun _ _ _ h => (by cases h), fun _ _ _ h => (by cases h)⟩
  | succ n ih =>
    refine ⟨readsLines_bodyLevel (n + 1), fun s b r hread hopen => ?_, fun s b r hread hkept => ?_⟩
    · obtain ⟨-, -, u, hblank, hu⟩ := bodyFrom_eq_ok ih.lines hread
      have htext := blank_text hblank
      rw [hu hopen] at htext
      exact (List.append_eq_nil_iff.mp htext.symm).2
    · obtain ⟨⟨items, ended⟩, u, hitems, hread⟩ := Reader.bind_eq_ok_iff.mp hread
      simp only [Reader.bind_iff, Reader.pure_iff] at hread
      obtain ⟨after, v, hafter, rfl, rfl⟩ := hread
      rw [(structures_keeps ih hitems hkept).1, blank_text hafter]
      simp

end Grammar

/-! ## Documents -/

/-- A change of the first block that leaves its body as it is leaves everything as it is. -/
theorem Structure.modifyBlock_eq_self {ident : Text} {f : Body → Body} {ss : List Structure} {block : Block}
    (h : findBlock? ident ss = some block) (hf : f block.body = block.body) : modifyBlock ident f ss = ss := by
  obtain ⟨before, behind, rfl, hident, hbefore⟩ := split_of_findBlock? h
  rw [modifyBlock_append hident hbefore, hf]
  cases block
  rfl

theorem Body.switched_onDisk_of_bare {b : Body} {block : Block} {backend : S3Backend}
    (h : b.findBlock? Document.terraformIdent = some block) (hbare : block.body.Bare) : b.switched .onDisk backend = b := by
  rw [switched, modifyBlock, Structure.modifyBlock_eq_self (f := switchedInside .onDisk backend) h hbare.without, mk_items]

namespace Document

variable {path t : Text} {d : Document}

theorem render_eq_of_parse (h : parse path t = .ok d) (hkept : documentKept t = true) : d.render = t := by
  have hread := read_of_parse h
  obtain ⟨b, r, hlevel, hb⟩ := Reader.bind_eq_ok_iff.mp hread
  split at hb
  · obtain ⟨rfl, -⟩ := Reader.pure_iff.mp hb
    have htext := (bodyLevel_keeps _).text t _ _ hlevel hkept
    rw [Document.render, Body.text_eq, (document_eq_ok hread).2.before]
    simpa using htext.symm
  · cases hb

/-- A document that is kept in all places that its reader comes by is written back byte for byte, and switching it to the
local backend leaves the file as it is if there is no backend block to take out. -/
theorem render_of_parse (h : parse path t = .ok d) (hkept : documentKept t = true) :
    d.render = t ∧ ∀ block, d.body.findBlock? terraformIdent = some block → block.body.Bare →
      ∀ (fs : FileSystem) (p : Place), fs.Holds path p (Utf8.encode t) →
        ∃ outcome fs', fs.switch .onDisk path = .ok (outcome, fs') ∧ ∀ q, fs'.entry? q = fs.entry? q := by
  have hrender := render_eq_of_parse h hkept
  refine ⟨hrender, fun block hblock hbare fs p hfile => ?_⟩
  obtain ⟨outcome, fs', hrun, hputs⟩ := FileSystem.switch_of_holds hfile h hblock .onDisk
  refine ⟨outcome, fs', hrun, ?_⟩
  rw [Body.switched_onDisk_of_bare hblock hbare, show d.body.text = t from hrender] at hputs
  exact hputs.entry?_eq hfile.puts

/-- A document with a comment, signs, an escaped line end, a part of a template and a heredoc with a margin. -/
def handwritten : Text :=
  "# as docs.com [1] says! or not\nterraform \x7b\n\ta = [!b, -c, \"d\\n$\x7be - 1\x7d\"]\n".toList ++
    "\tf = <<-EOT\n    g $\x7bh\x7d\n      \\i\n  EOT\n\x7d".toList

theorem render_of_parse_handwritten : ∃ d outcome fs', parse mainPath handwritten = .ok d ∧ d.render = handwritten ∧
    (fileOf handwritten).switch .onDisk mainPath = .ok (outcome, fs') ∧
    ∀ q, fs'.entry? q = FileSystem.entry? (fileOf handwritten) q := by
  obtain ⟨d, h, hbare⟩ := exists_of_parse (fun d =>
    (d.body.findBlock? terraformIdent).map (fun block => decide block.body.Bare) = some true) mainPath handwritten
    (by decide +kernel)
  obtain ⟨block, hblock, hbare⟩ := Option.map_eq_some_iff.mp hbare
  obtain ⟨hrender, hswitch⟩ := render_of_parse h (by decide +kernel)
  obtain ⟨outcome, fs', hrun, hsame⟩ := hswitch block hblock (of_decide_eq_true hbare) _ _ (holds_fileOf handwritten)
  exact ⟨d, outcome, fs', h, hrender, hrun, hsame⟩

/-- The carriage return of a line end behind a structure is lost. -/
theorem not_render_of_parse_carriageReturn :
    ∃ d, parse mainPath "a = 1\r\n".toList = .ok d ∧ d.render = "a = 1\n".toList ∧ d.render ≠ "a = 1\r\n".toList :=
  exists_of_parse _ _ _ (by decide +kernel)

end Document
end BackendSwitch
