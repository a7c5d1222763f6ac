import BackendSwitch.Proofs.Reading.Structure

/-! # Switching again and again

The backend blocks in the first `terraform` block are a queue: every switch takes one out at the front, and a switch to S3
puts one in at the back. Nothing else in the document changes but the blank text around the structures of a body that was
written on one line. -/
namespace BackendSwitch
set_option autoImplicit false

open Grammar (document_eq_ok)

/-! ## Blocks of a kind -/

namespace Structure

def block? (ident : Text) : Structure → Option Block
  | .attr _ => none
  | .block b => if b.ident = ident then some b else none

/-- The blocks with an identifier, in order. -/
def blocksOf (ident : Text) (ss : List Structure) : List Block := ss.filterMap (block? ident)

/-- The structures that are no blocks with an identifier, in order. -/
def othersOf (ident : Text) (ss : List Structure) : List Structure := ss.filter fun s => !s.isBlock ident

/-- A structure without the blank text around it. -/
def stripped (s : Structure) : Structure := s.withDecor .bare

variable {ident : Text}

theorem block?_of_isBlock {s : Structure} (h : s.isBlock ident = true) :
    ∃ b, s = .block b ∧ b.ident = ident ∧ s.block? ident = some b := by
  cases s with
  | attr a => cases h
  | block b =>
    have hident : b.ident = ident := by simpa [isBlock] using h
    exact ⟨b, rfl, hident, if_pos hident⟩

theorem block?_of_not_isBlock {s : Structure} (h : s.isBlock ident = false) : s.block? ident = none := by
  cases s with
  | attr a => rfl
  | block b => exact if_neg (by simpa [isBlock] using h)

theorem blocksOf_eraseP (ss : List Structure) :
    blocksOf ident (ss.eraseP (isBlock ident)) = (blocksOf ident ss).tail := by
  induction ss with
  | nil => rfl
  | cons s ss ih =>
    cases h : s.isBlock ident with
    | true =>
      obtain ⟨b, -, -, hb⟩ := block?_of_isBlock h
      rw [List.eraseP_cons_of_pos h, blocksOf, blocksOf, List.filterMap_cons_some hb, List.tail_cons]
    | false =>
      have hnone := block?_of_not_isBlock h
      rw [List.eraseP_cons_of_neg (by simp [h]), blocksOf, List.filterMap_cons_none hnone, ← blocksOf, ih, blocksOf,
        blocksOf, List.filterMap_cons_none hnone]

theorem othersOf_eraseP (ss : List Structure) : othersOf ident (ss.eraseP (isBlock ident)) = othersOf ident ss := by
  induction ss with
  | nil => rfl
  | cons s ss ih =>
    cases h : s.isBlock ident with
    | true => rw [List.eraseP_cons_of_pos h, othersOf, othersOf, List.filter_cons_of_neg (by simp [h])]
    | false =>
      rw [List.eraseP_cons_of_neg (by simp [h]), othersOf, List.filter_cons_of_pos (by simp [h]), ← othersOf, ih, othersOf,
        othersOf, List.filter_cons_of_pos (by simp [h])]

theorem fst_takeBlock? (ss : List Structure) : (takeBlock? ident ss).map Prod.fst = (blocksOf ident ss).head? := by
  induction ss with
  | nil => rfl
  | cons s ss ih =>
    cases h : s.isBlock ident with
    | true =>
      obtain ⟨b, rfl, hident, hsome⟩ := block?_of_isBlock h
      rw [takeBlock?, if_pos hident, blocksOf, List.filterMap_cons_some hsome]
      rfl
    | false =>
      rw [takeBlock?_cons_of_other h, blocksOf, List.filterMap_cons_none (block?_of_not_isBlock h), ← blocksOf, ← ih,
        Option.map_map]
      rfl

/-- Where the first block with an identifier stands. -/
theorem split_of_findBlock? {ss : List Structure} {block : Block} (h : findBlock? ident ss = some block) :
    ∃ before behind, ss = before ++ .block block :: behind ∧ block.ident = ident ∧
      ∀ s ∈ before, s.isBlock ident = false := by
  induction ss with
  | nil => cases h
  | cons s ss ih =>
    cases hs : s.isBlock ident with
    | true =>
      obtain ⟨b, rfl, hb, -⟩ := block?_of_isBlock hs
      rw [findBlock?, if_pos hb] at h
      cases h
      exact ⟨[], ss, rfl, hb, fun s hs => (by cases hs)⟩
    | false =>
      rw [findBlock?_cons_of_other hs] at h
      obtain ⟨before, behind, rfl, hident, hbefore⟩ := ih h
      exact ⟨s :: before, behind, rfl, hident, List.forall_mem_cons.mpr ⟨hs, hbefore⟩⟩

theorem findBlock?_append {before behind : List Structure} {block : Block} (hident : block.ident = ident)
    (h : ∀ s ∈ before, s.isBlock ident = false) : findBlock? ident (before ++ .block block :: behind) = some block := by
  induction before with
  | nil => exact if_pos hident
  | cons s before ih =>
    obtain ⟨hs, hbefore⟩ := List.forall_mem_cons.mp h
    rw [List.cons_append, findBlock?_cons_of_other hs, ih hbefore]

theorem modifyBlock_append {before behind : List Structure} {block : Block} {f : Body → Body} (hident : block.ident = ident)
    (h : ∀ s ∈ before, s.isBlock ident = false) : modifyBlock ident f (before ++ .block block :: behind) =
      before ++ .block { block with body := f block.body } :: behind := by
  induction before with
  | nil => exact if_pos hident
  | cons s before ih =>
    obtain ⟨hs, hbefore⟩ := List.forall_mem_cons.mp h
    rw [List.cons_append, modifyBlock_cons_of_other hs, ih hbefore, List.cons_append]

end Structure

/-! ## The queue -/

/-- What one switch is asked to do. -/
structure Request where
  mode : Mode
  backend : S3Backend
deriving DecidableEq, Repr

namespace Request

/-- What a switch tells about the queue in front of it. -/
def outcome (r : Request) (queue : List Block) : Outcome :=
  ⟨r.mode, queue.head?.map fun b => b.labels.head?.map Label.text⟩

/-- The queue behind a switch. -/
def next (r : Request) (queue : List Block) : List Block :=
  queue.tail ++ if r.mode = .s3 then [r.backend.block] else []

def outcomes : List Request → List Block → List Outcome
  | [], _ => []
  | r :: rs, queue => r.outcome queue :: outcomes rs (r.next queue)

/-- The queue behind a run of switches. -/
def after : List Request → List Block → List Block
  | [], queue => queue
  | r :: rs, queue => after rs (r.next queue)

/-- How many blocks a switch puts in. -/
def added (r : Request) : Nat := if r.mode = .s3 then 1 else 0

theorem length_next (r : Request) (queue : List Block) : (r.next queue).length = queue.length - 1 + r.added := by
  unfold next added
  rw [List.length_append, List.length_tail]
  split <;> rfl

end Request

namespace Document

/-- The backend blocks in the first `terraform` block. -/
def backends (d : Document) : List Block :=
  match d.body.findBlock? terraformIdent with
  | none => []
  | some block => Structure.blocksOf S3Backend.blockIdent block.body.items

/-- Carries out switches one after the other, up to one that fails. -/
def switchAll : List Request → Document → Except Failure (List Outcome × Document)
  | [], d => .ok ([], d)
  | r :: rs, d =>
    match d.switch r.mode r.backend with
    | .error f => .error f
    | .ok (outcome, d') =>
      match switchAll rs d' with
      | .error f => .error f
      | .ok (outcomes, d'') => .ok (outcome :: outcomes, d'')

end Document

/-! ## One switch -/

namespace Body

/-- A body whose backend blocks are a queue and whose other structures are those of another body, apart from the blank text
around them. A body on one line has no room for more than one block, so laying it out never touches the queue. -/
structure Queues (old : Body) (queue : List Block) (b : Body) : Prop where
  blocks : Structure.blocksOf S3Backend.blockIdent b.items = queue
  others : (Structure.othersOf S3Backend.blockIdent b.items).map Structure.stripped =
    (Structure.othersOf S3Backend.blockIdent old.items).map Structure.stripped
  room : b.oneLine = true → queue.length ≤ 1

theorem fst_switchBody (mode : Mode) (backend : S3Backend) (b : Body) :
    (Document.switchBody mode backend b).1 = (Structure.blocksOf S3Backend.blockIdent b.items).head? := by
  rw [← Structure.fst_takeBlock?]
  unfold Document.switchBody removeBlock?
  cases Structure.takeBlock? S3Backend.blockIdent b.items <;> rfl

/-- Laying out a body without blocks of a kind changes blank text only. -/
theorem blocksOf_expand {ident : Text} {b : Body} (h : b.oneLine = true → Structure.blocksOf ident b.items = []) :
    Structure.blocksOf ident b.expand.items = Structure.blocksOf ident b.items := by
  rw [items_expand]
  split
  · next hone =>
    rw [h hone]
    refine List.filterMap_eq_nil_iff.mpr fun s hs => ?_
    obtain ⟨old, hmem, rfl⟩ := List.mem_map.mp hs
    have hnone : old.block? ident = none := List.filterMap_eq_nil_iff.mp (h hone) old hmem
    cases old with
    | attr a => rfl
    | block b => exact if_neg fun hb => Option.some_ne_none b ((if_pos hb).symm.trans hnone)
  · rfl

theorem othersOf_expand {ident : Text} (b : Body) :
    (Structure.othersOf ident b.expand.items).map Structure.stripped =
      (Structure.othersOf ident b.items).map Structure.stripped := by
  rw [items_expand]
  split
  · have hkept : (fun s => !Structure.isBlock ident s) ∘ Structure.withDecor (.around S3Backend.margin []) =
        fun s => !Structure.isBlock ident s := by
      funext s
      cases s <;> rfl
    rw [Structure.othersOf, List.filter_map, hkept, ← Structure.othersOf, List.map_map]
    refine List.map_congr_left fun s _ => ?_
    cases s <;> rfl
  · rfl

/-- What one switch does to the queue. -/
theorem Queues.switchedInside {old b : Body} {queue : List Block} (h : Queues old queue b) (r : Request) :
    Queues old (r.next queue) (b.switchedInside r.mode r.backend) := by
  obtain ⟨hqueue, hothers, hroom⟩ := h
  have hrest : Structure.blocksOf S3Backend.blockIdent (b.without S3Backend.blockIdent).items = queue.tail := by
    rw [without, Structure.blocksOf_eraseP, hqueue]
  have hold : (Structure.othersOf S3Backend.blockIdent (b.without S3Backend.blockIdent).items).map Structure.stripped =
      (Structure.othersOf S3Backend.blockIdent old.items).map Structure.stripped := by
    rw [without, Structure.othersOf_eraseP, hothers]
  have hempty : b.oneLine = true → queue.tail = [] := by
    intro hone
    have hlength := hroom hone
    rw [← List.length_eq_zero_iff, List.length_tail]
    omega
  obtain ⟨mode, backend⟩ := r
  cases mode with
  | onDisk =>
    have hnext : Request.next ⟨.onDisk, backend⟩ queue = queue.tail := List.append_nil _
    rw [hnext]
    refine ⟨hrest, hold, fun hone => ?_⟩
    rw [hempty hone]
    exact Nat.zero_le 1
  | s3 =>
    have hblocks : Structure.blocksOf S3Backend.blockIdent (b.without S3Backend.blockIdent).expand.items = queue.tail := by
      rw [blocksOf_expand (fun hone => by rw [hrest, hempty hone]), hrest]
    refine ⟨?_, ?_, fun hone => ?_⟩
    · show Structure.blocksOf _ ((b.without S3Backend.blockIdent).expand.items ++ [.block backend.block]) = _
      rw [Structure.blocksOf, List.filterMap_append, ← Structure.blocksOf, hblocks]
      rfl
    · show (Structure.othersOf _ ((b.without S3Backend.blockIdent).expand.items ++ [.block backend.block])).map _ = _
      rw [Structure.othersOf, List.filter_append, ← Structure.othersOf, List.map_append, othersOf_expand, hold]
      exact List.append_nil _
    · have hline : b.oneLine = true := by
        have hexpand : (b.without S3Backend.blockIdent).expand.oneLine = b.oneLine := by
          unfold expand
          split <;> rfl
        rw [← hexpand]
        exact hone
      rw [Request.length_next, ← List.length_tail, hempty hline]
      exact Nat.le_refl 1

/-- In a body that was read, the backend blocks are a queue. -/
theorem Marked.queues {b : Body} (h : b.Marked) :
    Queues b (Structure.blocksOf S3Backend.blockIdent b.items) b := by
  refine ⟨rfl, rfl, fun hone => ?_⟩
  have hline : b.isLine = true := h.line ▸ hone
  match b with
  | ⟨_, [], true, _⟩ => exact Nat.zero_le 1
  | ⟨_, [.attr _], true, _⟩ => exact Nat.zero_le 1

end Body

/-! ## Runs of switches -/

namespace Document

variable {path : Text} {block : Block} {before behind : List Structure}

/-- The document in which one block has a certain body. -/
def filled (d : Document) (before : List Structure) (block : Block) (behind : List Structure) (b : Body) : Document :=
  { d with body := { d.body with items := before ++ .block { block with body := b } :: behind } }

theorem filled_body {d : Document} (h : d.body.items = before ++ .block block :: behind) :
    d.filled before block behind block.body = d := by
  obtain ⟨path, ⟨decor, items, oneLine, openEnd⟩⟩ := d
  obtain ⟨decor', ident, identAfter, labels, body⟩ := block
  obtain rfl : items = _ := h
  rfl

theorem switch_filled {d : Document} {b : Body} (hident : block.ident = terraformIdent)
    (hbefore : ∀ s ∈ before, s.isBlock terraformIdent = false) (r : Request) :
    (d.filled before block behind b).switch r.mode r.backend =
      .ok (r.outcome (Structure.blocksOf S3Backend.blockIdent b.items),
        d.filled before block behind (b.switchedInside r.mode r.backend)) := by
  have hfind : (d.filled before block behind b).body.findBlock? terraformIdent = some { block with body := b } :=
    Structure.findBlock?_append hident hbefore
  have hmodify : Structure.modifyBlock terraformIdent (Body.switchedInside r.mode r.backend)
      (d.filled before block behind b).body.items =
        (d.filled before block behind (b.switchedInside r.mode r.backend)).body.items :=
    Structure.modifyBlock_append hident hbefore
  unfold switch Body.modifyBlock
  rw [hfind, funext (Body.snd_switchBody r.mode r.backend)]
  simp only [Body.fst_switchBody, hmodify]
  rfl

theorem backends_filled {d : Document} {b : Body} (hident : block.ident = terraformIdent)
    (hbefore : ∀ s ∈ before, s.isBlock terraformIdent = false) :
    (d.filled before block behind b).backends = Structure.blocksOf S3Backend.blockIdent b.items := by
  have hfind : (d.filled before block behind b).body.findBlock? terraformIdent = some { block with body := b } :=
    Structure.findBlock?_append hident hbefore
  rw [backends, hfind]

theorem switchAll_filled {d : Document} {old b : Body} {queue : List Block} (hident : block.ident = terraformIdent)
    (hbefore : ∀ s ∈ before, s.isBlock terraformIdent = false) (h : Body.Queues old queue b) (rs : List Request) :
    ∃ b', (d.filled before block behind b).switchAll rs = .ok (Request.outcomes rs queue, d.filled before block behind b') ∧
      Body.Queues old (Request.after rs queue) b' := by
  induction rs generalizing b queue with
  | nil => exact ⟨b, rfl, h⟩
  | cons r rs ih =>
    obtain ⟨b', hrun, hb'⟩ := ih (h.switchedInside r)
    refine ⟨b', ?_, hb'⟩
    rw [switchAll, switch_filled hident hbefore, h.blocks]
    simp only [hrun, Request.outcomes]

theorem length_backends_switch {d : Document} {b : Body} {old : Body} {queue : List Block}
    (hident : block.ident = terraformIdent) (hbefore : ∀ s ∈ before, s.isBlock terraformIdent = false)
    (h : Body.Queues old queue b) (r : Request) :
    ∃ outcome d', (d.filled before block behind b).switch r.mode r.backend = .ok (outcome, d') ∧
      d'.backends.length = queue.length - 1 + r.added ∧
      (d'.backends.length ≤ 1 ↔ queue.length ≤ 1 ∨ queue.length = 2 ∧ r.mode = .onDisk) := by
  refine ⟨_, _, switch_filled hident hbefore r, ?_⟩
  have hlength : (d.filled before block behind (b.switchedInside r.mode r.backend)).backends.length =
      queue.length - 1 + r.added := by
    rw [backends_filled hident hbefore, (h.switchedInside r).blocks, Request.length_next]
  refine ⟨hlength, ?_⟩
  rw [hlength, Request.added]
  cases r.mode with
  | onDisk =>
    simp only [reduceCtorEq, if_false, and_true]
    omega
  | s3 =>
    simp only [if_true, reduceCtorEq, and_false, or_false]
    omega

/-- In a document that was read, runs of switches never fail. They treat the backend blocks of the first `terraform` block
as a queue, and leave everything else as it was, in the document and in this block. -/
theorem switchAll_of_parse {t : Text} {d : Document} (h : parse path t = .ok d)
    (hblock : d.body.findBlock? terraformIdent = some block) (rs : List Request) :
    ∃ before behind b,
      d.body.items = before ++ .block block :: behind ∧
      (∀ s ∈ before, s.isBlock terraformIdent = false) ∧
      d.switchAll rs = .ok (Request.outcomes rs d.backends, d.filled before block behind b) ∧
      Structure.blocksOf S3Backend.blockIdent b.items = Request.after rs d.backends ∧
      (Structure.othersOf S3Backend.blockIdent b.items).map Structure.stripped =
        (Structure.othersOf S3Backend.blockIdent block.body.items).map Structure.stripped ∧
      ∀ r : Request, ∃ outcome d', (d.filled before block behind b).switch r.mode r.backend = .ok (outcome, d') ∧
        d'.backends.length = (Request.after rs d.backends).length - 1 + r.added ∧
        (d'.backends.length ≤ 1 ↔ (Request.after rs d.backends).length ≤ 1 ∨
          (Request.after rs d.backends).length = 2 ∧ r.mode = .onDisk) := by
  obtain ⟨before, behind, hitems, hident, hbefore⟩ := Structure.split_of_findBlock? hblock
  have hmarked : block.body.Marked := by
    have hmem : Structure.block block ∈ d.body.items := by simp [hitems]
    exact ((document_eq_ok (read_of_parse h)).1.items _ hmem).marked block rfl
  have hbackends : d.backends = Structure.blocksOf S3Backend.blockIdent block.body.items := by rw [backends, hblock]
  have hfilled := filled_body hitems
  obtain ⟨b, hrun, hqueue⟩ : ∃ b, (d.filled before block behind block.body).switchAll rs =
      .ok (Request.outcomes rs d.backends, d.filled before block behind b) ∧
      Body.Queues block.body (Request.after rs d.backends) b := by
    rw [hbackends]
    exact switchAll_filled hident hbefore hmarked.queues rs
  rw [hfilled] at hrun
  exact ⟨before, behind, b, hitems, hbefore, hrun, hqueue.blocks, hqueue.others,
    length_backends_switch hident hbefore hqueue⟩

/-- Two backends, of which the second has no label. -/
def twoBackends : Text :=
  "terraform \x7b\n  backend \"local\" \x7b\n  \x7d\n  x = 1\n  backend \x7b\n  \x7d\n\x7d\n".toList

def threeSwitches : List Request := [⟨.onDisk, .standard⟩, ⟨.s3, .standard⟩, ⟨.s3, .standard⟩]

theorem switchAll_of_parse_twoBackends : ∃ d block before behind b,
    parse "main.tf".toList twoBackends = .ok d ∧ d.body.findBlock? terraformIdent = some block ∧
    d.switchAll threeSwitches =
      .ok ([⟨.onDisk, some (some "local".toList)⟩, ⟨.s3, some none⟩, ⟨.s3, some (some "s3".toList)⟩],
        d.filled before block behind b) := by
  obtain ⟨d, h, hsome⟩ := exists_of_parse (fun d => (d.body.findBlock? terraformIdent).isSome = true) "main.tf".toList
    twoBackends (by decide +kernel)
  obtain ⟨block, hblock⟩ := Option.isSome_iff_exists.mp hsome
  obtain ⟨before, behind, b, -, -, hrun, -⟩ := switchAll_of_parse h hblock threeSwitches
  have houtcomes : ((parse "main.tf".toList twoBackends).toOption.map fun d => Request.outcomes threeSwitches d.backends) =
      some [⟨.onDisk, some (some "local".toList)⟩, ⟨.s3, some none⟩, ⟨.s3, some (some "s3".toList)⟩] := by
    decide +kernel
  rw [h, Except.toOption, Option.map_some, Option.some.injEq] at houtcomes
  rw [houtcomes] at hrun
  exact ⟨d, block, before, behind, b, h, hblock, hrun⟩

end Document
end BackendSwitch
