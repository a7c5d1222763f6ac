import BackendSwitch.Proofs.Edits
import BackendSwitch.Proofs.Files
import BackendSwitch.Proofs.Queue
import BackendSwitch.Proofs.Runs
import BackendSwitch.Proofs.System

/-! # Runs of switches on a file

Every run of the program reads the file, switches the document and writes it. What a run of them makes of the file is what
the switches make of the body of one block, written and read between them; everything around the body stays as it is. -/
namespace BackendSwitch
set_option autoImplicit false

open Utf8 (Bytes)

/-! ## Files -/

namespace FileSystem

variable {fs fs' : FileSystem} {path : Text} {p : Place} {content : Bytes}

/-- A path leads to a file with the given content. -/
structure Holds (fs : FileSystem) (path : Text) (p : Place) (content : Bytes) : Prop where
  target : fs.target path = .ok p
  entry : fs.entry? p = some (.file content)

theorem Holds.puts (h : fs.Holds path p content) : fs.Puts fs p content := ⟨.inr ⟨content, h.entry⟩, h.entry, fun _ _ => rfl⟩

theorem Holds.write (h : fs.Holds path p content) (new : Bytes) :
    ∃ fs', fs.write path new = .ok fs' ∧ fs.Puts fs' p new := by
  cases p with
  | outside names =>
    have hnone : fs.entry? (.outside names) ≠ some (.file content) := by
      unfold entry?
      dsimp only
      split
      · simp
      · split <;> simp
    exact absurd h.entry hnone
  | inside names =>
    have hwrite : fs.write path new = .ok ⟨update names (.file new) fs.entries⟩ := by
      rw [FileSystem.write, h.target]
      simp only [h.entry]
      rfl
    obtain ⟨p', htarget, hputs | ⟨hdevice, -⟩⟩ := write_eq_ok hwrite
    · rw [h.target, Except.ok.injEq] at htarget
      rw [htarget]
      exact ⟨_, hwrite, hputs⟩
    · rw [h.target, Except.ok.injEq] at htarget
      rw [← htarget, h.entry] at hdevice
      cases hdevice

theorem Puts.holds {old : Bytes} (h : fs.Puts fs' p content) (hold : fs.Holds path p old) : fs'.Holds path p content :=
  ⟨h.target hold.target, h.entry⟩

theorem Puts.trans {fs'' : FileSystem} {new : Bytes} (h : fs.Puts fs' p content) (h' : fs'.Puts fs'' p new) :
    fs.Puts fs'' p new :=
  ⟨h.writable, h'.entry, fun q hq => (h'.others q hq).trans (h.others q hq)⟩

theorem Puts.entry?_eq {fs'' : FileSystem} (h : fs.Puts fs' p content) (h' : fs.Puts fs'' p content) (q : Place) :
    fs'.entry? q = fs''.entry? q := by
  by_cases hq : q = p
  · rw [hq, h.entry, h'.entry]
  · rw [h.others q hq, h'.others q hq]

/-- A file is switched by switching its document. -/
theorem switch_of_holds {t : Text} {d : Document} {block : Block} (h : fs.Holds path p (Utf8.encode t))
    (hparse : Document.parse path t = .ok d) (hblock : d.body.findBlock? Document.terraformIdent = some block)
    (mode : Mode) :
    ∃ outcome fs', fs.switch mode path = .ok (outcome, fs') ∧
      fs.Puts fs' p (Utf8.encode (d.body.switched mode .standard).text) := by
  have hload : Document.load fs path = .ok d := by
    rw [Document.load_of_read (read_of_target h.target h.entry), hparse]
  obtain ⟨outcome, hswitch⟩ := Document.switch_of_findBlock? mode .standard hblock
  obtain ⟨fs', hwrite, hputs⟩ := h.write (Utf8.encode (d.body.switched mode .standard).text)
  refine ⟨outcome, fs', ?_, hputs⟩
  unfold FileSystem.switch
  rw [hload]
  simp only [hswitch]
  rw [Document.path_of_parse hparse]
  have hsave : (Document.mk path (d.body.switched mode .standard)).save fs = .ok fs' := by
    unfold Document.save
    rw [Document.bytes, Document.render, hwrite]
  rw [hsave]

/-- Switches a file again and again. -/
def switchAll : List Mode → Text → FileSystem → Except Failure (List Outcome × FileSystem)
  | [], _, fs => .ok ([], fs)
  | mode :: modes, path, fs =>
    match fs.switch mode path with
    | .error f => .error f
    | .ok (outcome, fs') =>
      match switchAll modes path fs' with
      | .error f => .error f
      | .ok (outcomes, fs'') => .ok (outcome :: outcomes, fs'')

theorem switchAll_cons {fs'' : FileSystem} {mode : Mode} {modes : List Mode} {outcome : Outcome} {outcomes : List Outcome}
    (h : fs.switch mode path = .ok (outcome, fs')) (hrest : fs'.switchAll modes path = .ok (outcomes, fs'')) :
    fs.switchAll (mode :: modes) path = .ok (outcome :: outcomes, fs'') := by
  rw [switchAll, h]
  simp only [hrest]

end FileSystem

/-! ## Documents around a body -/

theorem linesText_congr {openEnd : Bool} {ss ts : List Structure} (h : ss.map Structure.text = ts.map Structure.text) :
    linesText openEnd ss = linesText openEnd ts := by
  induction ss generalizing ts with
  | nil =>
    obtain rfl := List.map_eq_nil_iff.mp h.symm
    rfl
  | cons s ss ih =>
    obtain ⟨t, ts, rfl, ht, hts⟩ := List.map_eq_cons_iff.mp h.symm
    have hrest := ih hts.symm
    cases ss with
    | nil =>
      obtain rfl := List.map_eq_nil_iff.mp hts
      rw [linesText, linesText, ht]
    | cons s' ss =>
      obtain ⟨t', ts', rfl, -, -⟩ := List.map_eq_cons_iff.mp hts
      rw [linesText, linesText, ht, hrest]

namespace Document

variable {d : Document} {before behind : List Structure} {block : Block} {b c : Body}

theorem render_filled_congr (h : b.inside = c.inside) :
    (d.filled before block behind b).render = (d.filled before block behind c).render := by
  have hblock : (Structure.block { block with body := b }).text = (Structure.block { block with body := c }).text := by
    rw [Structure.text_block, Structure.text_block, Block.core, Block.core, h]
  have hlines : linesText d.body.openEnd (before ++ .block { block with body := b } :: behind) =
      linesText d.body.openEnd (before ++ .block { block with body := c } :: behind) := by
    refine linesText_congr ?_
    simp only [List.map_append, List.map_cons, hblock]
  show Body.text _ = Body.text _
  rw [Body.text_eq, Body.text_eq]
  simp only [filled, hlines]

theorem body_switched_filled (hident : block.ident = terraformIdent)
    (hbefore : ∀ s ∈ before, s.isBlock terraformIdent = false) (mode : Mode) (backend : S3Backend) :
    (d.filled before block behind b).body.switched mode backend =
      (d.filled before block behind (b.switchedInside mode backend)).body := by
  have hmodify : Structure.modifyBlock terraformIdent (Body.switchedInside mode backend)
      (before ++ .block { block with body := b } :: behind) =
      before ++ .block { block with body := b.switchedInside mode backend } :: behind :=
    Structure.modifyBlock_append hident hbefore
  rw [Body.switched, Body.modifyBlock]
  exact congrArg (fun items => (⟨d.body.decor, items, d.body.oneLine, d.body.openEnd⟩ : Body)) hmodify

/-- What a document is read as. -/
def reread (path : Text) (d : Document) : Document := ⟨path, d.body.rereadDocument⟩

/-- What a document is read as, without its structures. -/
def rereadAround (path : Text) (d : Document) : Document :=
  ⟨path, ⟨⟨none, some (d.body.decor.after.getD [])⟩, [], false, d.body.openEnd⟩⟩

theorem reread_filled (path : Text) : (d.filled before block behind b).reread path =
    (d.rereadAround path).filled (before.map Structure.reread) block.reread (behind.map Structure.reread) b.reread := by
  have hblock : (Structure.block { block with body := b }).reread = .block { block.reread with body := b.reread } := by
    cases block
    rfl
  rw [reread, Body.rereadDocument]
  simp only [filled, List.map_append, List.map_cons, hblock]
  simp [rereadAround]

/-- What a document is read as has the same text around the body. -/
theorem render_reread_filled (path : Text) (h : d.body.decor.before.getD [] = []) :
    ((d.rereadAround path).filled (before.map Structure.reread) block.reread (behind.map Structure.reread) b).render =
      (d.filled before block behind b).render := by
  have hsame : ∀ ss : List Structure, (ss.map Structure.reread).map Structure.text = ss.map Structure.text := by
    intro ss
    rw [List.map_map]
    exact List.map_congr_left fun s _ => Structure.text_reread s
  have hblock : (Structure.block { block.reread with body := b }).text =
      (Structure.block { block with body := b }).text := by
    obtain ⟨decor, ident, identAfter, labels, body⟩ := block
    rw [Structure.text_block, Structure.text_block, Block.core, Block.core, Block.reread, Label.written_map_reread]
    rfl
  have hlines : linesText d.body.openEnd (before.map Structure.reread ++ .block { block.reread with body := b } ::
      behind.map Structure.reread) = linesText d.body.openEnd (before ++ .block { block with body := b } :: behind) := by
    refine linesText_congr ?_
    simp only [List.map_append, List.map_cons, hsame, hblock]
  show Body.text _ = Body.text _
  rw [Body.text_eq, Body.text_eq]
  simp only [filled, rereadAround, hlines, h]
  rfl

theorem Readable.reread {d : Document} (h : d.Readable) (path : Text) : (d.reread path).Readable := by
  have hvalue : ∀ e : Expr, e.Repeats → e.reread.Repeats := by
    intro e he
    rw [he.closed.reread_eq]
    exact ⟨he.closed, he.starts, he.reads⟩
  have hlabel : ∀ l : Label, l.Legible → l.reread.Legible := fun l hl => by
    cases l <;> exact hl
  exact ⟨(Grammar.document_eq_ok (read_of_parse (h.parse_render path))).2, Body.each_rereadDocument hvalue hlabel h.values⟩

end Document

/-! ## Runs -/

theorem Body.single_of_length {b : Body} (h : (Structure.blocksOf S3Backend.blockIdent b.items).length ≤ 1) : b.Single := by
  have hrest : Structure.blocksOf S3Backend.blockIdent (b.without S3Backend.blockIdent).items = [] := by
    rw [without, Structure.blocksOf_eraseP, ← List.length_eq_zero_iff, List.length_tail]
    omega
  intro s hs
  cases hblock : s.isBlock S3Backend.blockIdent with
  | false => rfl
  | true =>
    obtain ⟨block, -, -, hsome⟩ := Structure.block?_of_isBlock hblock
    rw [List.filterMap_eq_nil_iff.mp hrest s hs] at hsome
    cases hsome

namespace FileSystem

open Document (terraformIdent)

variable {fs : FileSystem} {path : Text} {p : Place} {d : Document} {before behind : List Structure} {block : Block}

/-- What a run makes of a file is what the switches make of the body of one block. -/
theorem switchAll_of_filled (hident : block.ident = terraformIdent)
    (hbefore : ∀ s ∈ before, s.isBlock terraformIdent = false) {b : Body}
    (hd : (d.filled before block behind b).Readable)
    (h : fs.Holds path p (Utf8.encode (d.filled before block behind b).render)) (modes : List Mode) :
    ∃ outcomes fs', fs.switchAll modes path = .ok (outcomes, fs') ∧ fs.Puts fs' p
      (Utf8.encode (d.filled before block behind (b.reread.switchedOnFile .standard modes)).render) := by
  induction modes generalizing fs d before block behind b with
  | nil =>
    have hsame : (d.filled before block behind b.reread).render = (d.filled before block behind b).render :=
      Document.render_filled_congr b.inside_reread
    rw [← hsame] at h
    exact ⟨[], fs, rfl, h.puts⟩
  | cons mode modes ih =>
    -- the next run starts from what is read, so the invariant is restored for the reread structures, not for these
    have hparse : Document.parse path (d.filled before block behind b).render =
        .ok ((d.filled before block behind b).reread path) := hd.parse_render path
    have hident' : block.reread.ident = terraformIdent := by
      cases block
      exact hident
    have hbefore' : ∀ s ∈ before.map Structure.reread, s.isBlock terraformIdent = false := by
      intro s hs
      obtain ⟨old, hmem, rfl⟩ := List.mem_map.mp hs
      rw [Structure.isBlock_reread]
      exact hbefore old hmem
    have hread := hd.reread path
    rw [Document.reread_filled] at hparse hread
    obtain ⟨outcome, fs', hswitch, hputs⟩ :=
      switch_of_holds h hparse (Structure.findBlock?_append hident' hbefore') mode
    have hreadable := hread.changeBody (Body.harmless_switched mode S3Backend.legible_standard)
    unfold Document.changeBody at hreadable
    rw [Document.body_switched_filled hident' hbefore'] at hputs hreadable
    obtain ⟨outcomes, fs'', hrest, hputs'⟩ := ih (d := d.rereadAround path)
      (b := b.reread.switchedInside mode .standard) hident' hbefore' hreadable (hputs.holds h)
    have haround : d.body.decor.before.getD [] = [] := hd.formed.before
    rw [Document.render_reread_filled path haround] at hputs'
    exact ⟨_, fs'', switchAll_cons hswitch hrest, hputs.trans hputs'⟩

/-- What a run of switches makes of a file that is read without faults. -/
theorem switchAll_of_faultless {t : Text} (hparse : Document.parse path t = .ok d)
    (hblock : d.body.findBlock? terraformIdent = some block) (hd : d.body.Each Expr.Faultless Label.Legible)
    (h : fs.Holds path p (Utf8.encode t)) {modes : List Mode} (hmodes : modes ≠ []) :
    ∃ before behind, d.filled before block behind block.body = d ∧
      (∀ s ∈ before, s.isBlock terraformIdent = false) ∧
      ∃ outcomes fs', fs.switchAll modes path = .ok (outcomes, fs') ∧ fs.Puts fs' p
        (Utf8.encode (d.filled before block behind (block.body.switchedOnFile .standard modes)).render) := by
  obtain ⟨before, behind, hitems, hident, hbefore⟩ := Structure.split_of_findBlock? hblock
  have hfilled := Document.filled_body hitems
  refine ⟨before, behind, hfilled, hbefore, ?_⟩
  cases modes with
  | nil => exact absurd rfl hmodes
  | cons mode modes =>
    obtain ⟨outcome, fs', hswitch, hputs⟩ := switch_of_holds h hparse hblock mode
    have hreadable := (Document.readable_of_parse hparse hd).changeBody
      (Body.harmless_switched mode S3Backend.legible_standard)
    have hswitched : (d.filled before block behind block.body).body.switched mode .standard =
        (d.filled before block behind (block.body.switchedInside mode .standard)).body :=
      Document.body_switched_filled hident hbefore mode .standard
    rw [hfilled] at hswitched
    unfold Document.changeBody at hreadable
    rw [hswitched] at hputs hreadable
    obtain ⟨outcomes, fs'', hrest, hputs'⟩ := switchAll_of_filled hident hbefore hreadable (hputs.holds h) modes
    exact ⟨_, fs'', switchAll_cons hswitch hrest, hputs.trans hputs'⟩

end FileSystem

namespace Document

variable {path t : Text} {d : Document} {block : Block}

theorem settled_of_parse (h : parse path t = .ok d) (hblock : d.body.findBlock? terraformIdent = some block)
    (hd : d.body.Each Expr.Faultless Label.Legible) : block.body.Settled := by
  obtain ⟨before, behind, hitems, -, -⟩ := Structure.split_of_findBlock? hblock
  have hmem : Structure.block block ∈ d.body.items := by simp [hitems]
  have hmarked := ((Grammar.document_eq_ok (read_of_parse h)).1.items _ hmem).marked block rfl
  have hvalues : block.Each Expr.Faultless Label.Legible := Body.each_iff.mp hd _ hmem
  have hinside := Body.each_iff.mp (Block.each_iff.mp hvalues).2
  exact fun hone => ⟨hmarked.line ▸ hone, hmarked.before hone, fun a ha => (hinside (.attr a) ha).closed⟩

/-- Switching a document again and again is switching the body of one block. -/
theorem switchAll_of_filled {before behind : List Structure} {b : Body} (hident : block.ident = terraformIdent)
    (hbefore : ∀ s ∈ before, s.isBlock terraformIdent = false) (backend : S3Backend) (modes : List Mode) :
    ∃ outcomes, (d.filled before block behind b).switchAll (modes.map fun mode => ⟨mode, backend⟩) =
      .ok (outcomes, d.filled before block behind (b.switchedAll backend modes)) := by
  induction modes generalizing b with
  | nil => exact ⟨[], rfl⟩
  | cons mode modes ih =>
    obtain ⟨outcomes, hrest⟩ := ih (b := b.switchedInside mode backend)
    have hswitch : (d.filled before block behind b).switch mode backend = _ :=
      switch_filled hident hbefore ⟨mode, backend⟩
    refine ⟨Request.outcome ⟨mode, backend⟩ (Structure.blocksOf S3Backend.blockIdent b.items) :: outcomes, ?_⟩
    rw [List.map_cons, switchAll, hswitch]
    simp only [hrest]
    rfl

/-- A document that is switched in memory and a file that is switched again and again come to the same text, unless the body
of the block was written on one line and is switched to S3 and back. -/
theorem switchAll_agrees (h : parse path t = .ok d) (hblock : d.body.findBlock? terraformIdent = some block)
    (hd : d.body.Each Expr.Faultless Label.Legible) {fs : FileSystem} {p : Place} (hfile : fs.Holds path p (Utf8.encode t))
    {modes : List Mode} (hmodes : modes ≠ [])
    (hlines : block.body.oneLine = false ∨ modes.getLast? = some .s3 ∨ .s3 ∉ modes) :
    ∃ outcomes d' outcomes' fs', d.switchAll (modes.map fun mode => ⟨mode, .standard⟩) = .ok (outcomes, d') ∧
      fs.switchAll modes path = .ok (outcomes', fs') ∧ fs.Puts fs' p (Utf8.encode d'.render) := by
  have hsettled := settled_of_parse h hblock hd
  obtain ⟨-, -, -, hident, -⟩ := Structure.split_of_findBlock? hblock
  obtain ⟨before, behind, hfilled, hbefore, outcomes', fs', hrun, hputs⟩ :=
    FileSystem.switchAll_of_faultless h hblock hd hfile hmodes
  obtain ⟨outcomes, hswitches⟩ : ∃ outcomes, (d.filled before block behind block.body).switchAll _ = .ok (outcomes, _) :=
    switchAll_of_filled hident hbefore .standard modes
  rw [hfilled] at hswitches
  have hinside : (block.body.switchedOnFile .standard modes).inside = (block.body.switchedAll .standard modes).inside := by
    rw [hsettled.switchedOnFile_eq hmodes hlines, Body.inside_reread]
  rw [render_filled_congr hinside] at hputs
  exact ⟨outcomes, _, outcomes', fs', hswitches, hrun, hputs⟩

/-- The path of a file. -/
def mainPath : Text := "main.tf".toList

/-- A single file with the given text. -/
def fileOf (t : Text) : FileSystem := .ofList [(mainPath, some (Utf8.encode t))]

theorem holds_fileOf (t : Text) : (fileOf t).Holds mainPath (.inside [mainPath]) (Utf8.encode t) := ⟨rfl, rfl⟩

theorem switchAll_agrees_furnished : ∃ d outcomes d' outcomes' fs', parse mainPath furnished = .ok d ∧
    d.switchAll [⟨.s3, .standard⟩, ⟨.onDisk, .standard⟩] = .ok (outcomes, d') ∧
    (fileOf furnished).switchAll [.s3, .onDisk] mainPath = .ok (outcomes', fs') ∧
    fs'.entry? (.inside [mainPath]) = some (.file (Utf8.encode d'.render)) := by
  obtain ⟨d, h, hplain, hlines⟩ := exists_of_parse (fun d => d.body.Each Expr.Plain Label.Legible ∧
    (d.body.findBlock? terraformIdent).map (fun block => block.body.oneLine) = some false) mainPath furnished
    (by decide +kernel)
  obtain ⟨block, hblock, hline⟩ := Option.map_eq_some_iff.mp hlines
  have hmodes : [Mode.s3, .onDisk] ≠ [] := by simp
  obtain ⟨outcomes, d', outcomes', fs', hmemory, hfile, hputs⟩ := switchAll_agrees h hblock (each_faultless hplain)
    (holds_fileOf furnished) hmodes (.inl hline)
  exact ⟨d, outcomes, d', outcomes', fs', h, hmemory, hfile, hputs.entry⟩

/-- In memory the body goes back to one line, and in the file it stays on its own lines. -/
theorem switchAll_disagrees_oneLiner :
    ((parse mainPath oneLiner).toOption.bind fun d =>
      (d.switchAll [⟨.s3, .standard⟩, ⟨.onDisk, .standard⟩]).toOption.map fun x => Utf8.encode x.2.render) =
        some (Utf8.encode "terraform \x7b  a = 1\x7d".toList) ∧
    (((fileOf oneLiner).switchAll [.s3, .onDisk] mainPath).toOption.bind fun x => (x.2.read mainPath).toOption) =
        some (Utf8.encode "terraform \x7b\n  a = 1\n\x7d".toList) := by
  decide +kernel

/-- Where there is at most one backend block every run of switches of a file succeeds, and the last one decides what becomes
of the file, unless the body of the block was written on one line and is switched to the local backend at last. -/
theorem switchAll_last (h : parse path t = .ok d) (hblock : d.body.findBlock? terraformIdent = some block)
    (hd : d.body.Each Expr.Faultless Label.Legible) (hone : d.backends.length ≤ 1) {fs : FileSystem} {p : Place}
    (hfile : fs.Holds path p (Utf8.encode t)) (modes : List Mode) (last : Mode) :
    ∃ outcomes fs', fs.switchAll (modes ++ [last]) path = .ok (outcomes, fs') ∧
      (last = .s3 ∨ block.body.oneLine = false →
        ∃ outcome fs'', fs.switch last path = .ok (outcome, fs'') ∧ ∀ q, fs'.entry? q = fs''.entry? q) := by
  obtain ⟨-, -, -, hident, -⟩ := Structure.split_of_findBlock? hblock
  have hmodes : modes ++ [last] ≠ [] := by simp
  obtain ⟨before, behind, hfilled, hbefore, outcomes, fs', hrun, hputs⟩ :=
    FileSystem.switchAll_of_faultless h hblock hd hfile hmodes
  refine ⟨outcomes, fs', hrun, fun hlines => ?_⟩
  obtain ⟨outcome, fs'', hswitch, hsingle⟩ := FileSystem.switch_of_holds hfile h hblock last
  have hswitched : (d.filled before block behind block.body).body.switched last .standard =
      (d.filled before block behind (block.body.switchedInside last .standard)).body :=
    body_switched_filled hident hbefore last .standard
  have hbackends : block.body.Single := by
    rw [backends, hblock] at hone
    exact Body.single_of_length hone
  have hlines' : last = .onDisk → block.body.oneLine = false := by
    rintro rfl
    simpa using hlines
  have hinside : (block.body.switchedOnFile .standard (modes ++ [last])).inside =
      (block.body.switchedInside last .standard).inside := by
    rw [(settled_of_parse h hblock hd).switchedOnFile_last hbackends hlines', Body.inside_reread]
  rw [hfilled] at hswitched
  rw [hswitched] at hsingle
  rw [render_filled_congr hinside] at hputs
  exact ⟨outcome, fs'', hswitch, hputs.entry?_eq hsingle⟩

theorem switchAll_last_furnished : ∃ outcomes fs' outcome fs'',
    (fileOf furnished).switchAll [.onDisk, .s3, .onDisk] mainPath = .ok (outcomes, fs') ∧
    (fileOf furnished).switch .onDisk mainPath = .ok (outcome, fs'') ∧ ∀ q, fs'.entry? q = fs''.entry? q := by
  obtain ⟨d, h, hplain, hone, hlines⟩ := exists_of_parse (fun d => d.body.Each Expr.Plain Label.Legible ∧
    d.backends.length ≤ 1 ∧ (d.body.findBlock? terraformIdent).map (fun block => block.body.oneLine) = some false) mainPath
    furnished (by decide +kernel)
  obtain ⟨block, hblock, hline⟩ := Option.map_eq_some_iff.mp hlines
  obtain ⟨outcomes, fs', hrun, hlast⟩ := switchAll_last h hblock (each_faultless hplain) hone (holds_fileOf furnished)
    [.onDisk, .s3] .onDisk
  obtain ⟨outcome, fs'', hswitch, hsame⟩ := hlast (.inr hline)
  exact ⟨outcomes, fs', outcome, fs'', hrun, hswitch, hsame⟩

/-- What the first run writes the second one does not read. -/
theorem not_switchAll_last_nestedTemplate :
    ((parse mainPath nestedTemplate).toOption.map fun d => d.backends.length) = some 0 ∧
    ((fileOf nestedTemplate).switch .onDisk mainPath).toOption.isSome = true ∧
    ((fileOf nestedTemplate).switchAll [.onDisk, .onDisk] mainPath).toOption.isSome = false := by
  decide +kernel

end Document
end BackendSwitch
