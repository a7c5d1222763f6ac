import BackendSwitch.Proofs.Splice

/-! # Comments that stay

The text of a document is a row of segments: blank text, which holds the comments, values with all that stands in them, and
signs and names. A switch takes out the segments of a block and changes blank text next to structures; the comments of all
other segments stay and keep their order. -/
namespace BackendSwitch
set_option autoImplicit false

/-! ## Texts in order -/

/-- Some texts occur in another one, each behind the one before. -/
def InOrder : List Text → Text → Prop
  | [], _ => True
  | n :: ns, t => ∃ u v, t = u ++ (n ++ v) ∧ InOrder ns v

namespace InOrder

variable {ns ms : List Text} {t u : Text}

theorem behind (h : InOrder ns t) (u : Text) : InOrder ns (u ++ t) := by
  cases ns with
  | nil => trivial
  | cons n ns =>
    obtain ⟨v, w, rfl, hrest⟩ := h
    exact ⟨u ++ v, w, (List.append_assoc ..).symm, hrest⟩

theorem append (hns : InOrder ns t) (hms : InOrder ms u) : InOrder (ns ++ ms) (t ++ u) := by
  induction ns generalizing t with
  | nil => exact hms.behind t
  | cons n ns ih =>
    obtain ⟨v, w, rfl, hrest⟩ := hns
    exact ⟨v, w ++ u, by simp, ih hrest⟩

theorem sublist (hsub : ms.Sublist ns) (h : InOrder ns t) : InOrder ms t := by
  induction hsub generalizing t with
  | slnil => trivial
  | cons n _ ih =>
    obtain ⟨u, v, rfl, hrest⟩ := h
    rw [← List.append_assoc]
    exact (ih hrest).behind (u ++ n)
  | cons_cons n _ ih =>
    obtain ⟨u, v, rfl, hrest⟩ := h
    exact ⟨u, v, rfl, ih hrest⟩

theorem flatMap {α : Type} {f : α → List Text} {g : α → Text} {as : List α} (h : ∀ a ∈ as, InOrder (f a) (g a)) :
    InOrder (as.flatMap f) (as.flatMap g) := by
  induction as with
  | nil => trivial
  | cons a as ih =>
    obtain ⟨ha, has⟩ := List.forall_mem_cons.mp h
    rw [List.flatMap_cons, List.flatMap_cons]
    exact ha.append (ih has)

end InOrder

/-! ## Comments of blank text -/

namespace Grammar

/-- The next comment, behind white space. -/
def nextComment : Reader Text := do
  let _ ← Reader.span isWhite
  lineComment.or inlineComment

theorem nextComment_eq_ok {s r c : Text} (h : nextComment s = .ok c r) : ∃ u, s = u ++ (c ++ r) := by
  have hspan : Reader.span isWhite s = .ok (s.takeWhile isWhite) (s.dropWhile isWhite) := rfl
  rw [nextComment, Reader.bind_of_ok hspan] at h
  rcases isVerbatim_anyComment (s.dropWhile isWhite) with hsoft | ⟨u, v, hread, hs, -⟩
  · cases hsoft.symm.trans h
  · obtain ⟨rfl, rfl⟩ := Reply.ok.inj (hread.symm.trans h)
    exact ⟨s.takeWhile isWhite, by rw [← hs, List.takeWhile_append_dropWhile]⟩

theorem inOrder_of_upTo {n : Nat} {s r : Text} {cs : List Text} (h : Reader.upTo n nextComment s = .ok cs r) :
    InOrder cs s := by
  induction cs generalizing n s with
  | nil => trivial
  | cons c cs ih =>
    obtain ⟨m, t, hc, hrest⟩ := Reader.upTo_eq_cons h
    obtain ⟨u, rfl⟩ := nextComment_eq_ok hc
    exact ⟨u, t, rfl, ih hrest⟩

end Grammar

/-- The comments of a blank text. -/
def commentsIn (t : Text) : List Text :=
  match Reader.many Grammar.nextComment t with
  | .ok cs _ => cs
  | _ => []

theorem inOrder_commentsIn (t : Text) : InOrder (commentsIn t) t := by
  unfold commentsIn
  split
  · next cs r h =>
    obtain ⟨n, h⟩ := Reader.exists_upTo_of_many h
    exact Grammar.inOrder_of_upTo h
  · trivial

/-! ## Segments -/

/-- A piece of the text of a body. -/
inductive Segment where
  | blank (text : Text)
  | value (text : Text)
  | sign (text : Text)
deriving DecidableEq, Repr

namespace Segment

def text : Segment → Text
  | .blank t => t
  | .value t => t
  | .sign t => t

/-- The comments of a segment. A value stands for all the comments in it. -/
def remarks : Segment → List Text
  | .blank t => commentsIn t
  | .value t => [t]
  | .sign _ => []

theorem inOrder_remarks (s : Segment) : InOrder s.remarks s.text := by
  cases s with
  | blank t => exact inOrder_commentsIn t
  | value t => exact ⟨[], [], by simp [text], trivial⟩
  | sign t => trivial

end Segment

/-- The segments of an attribute; `lead` and `tail` stand where it carries no blank text of its own. -/
def Attribute.segments (lead tail : Text) (a : Attribute) : List Segment :=
  [.blank (a.decor.before.getD lead), .sign a.key, .blank (a.keyAfter.getD [' ']), .sign ['='],
    .blank (a.value.decor.before.getD [' ']), .value a.value.node.text, .blank a.value.decor.tail,
    .blank (a.decor.after.getD tail)]

def Label.segments : Label → List Segment
  | .quoted text after => [.sign (Escape.quoted text), .blank (after.getD [' '])]
  | .bare text after => [.sign text, .blank (after.getD [' '])]

mutual

def Structure.segments : Structure → List Segment
  | .attr a => a.segments [] []
  | .block b => .blank (b.decor.before.getD []) :: (b.coreSegments ++ [.blank (b.decor.after.getD [])])

/-- The segments of a block from its identifier to its closing brace. -/
def Block.coreSegments : Block → List Segment
  | ⟨_, ident, identAfter, labels, body⟩ =>
    .sign ident :: .blank (identAfter.getD [' ']) :: (labels.flatMap Label.segments ++
      .sign ['{'] :: (body.segments ++ [.sign ['}']]))

def Body.segments : Body → List Segment
  | ⟨decor, items, oneLine, _⟩ =>
    .blank (decor.before.getD []) :: ((match oneLine, items with
      | true, [] => []
      | true, [.attr a] => a.segments [' '] [' ']
      | _, _ => .sign ['\n'] :: lineSegments items) ++ [.blank (decor.after.getD [])])

def lineSegments : List Structure → List Segment
  | [] => []
  | s :: ss => s.segments ++ .sign ['\n'] :: lineSegments ss

end

namespace Segment

/-- The text of a row of segments. -/
def joined (ss : List Segment) : Text := ss.flatMap text

/-- The comments and values of a row of segments. -/
def noted (ss : List Segment) : List Text := ss.flatMap remarks

@[simp] theorem joined_nil : joined [] = [] := rfl

@[simp] theorem joined_cons (s : Segment) (ss : List Segment) : joined (s :: ss) = s.text ++ joined ss := rfl

@[simp] theorem joined_append (ss ts : List Segment) : joined (ss ++ ts) = joined ss ++ joined ts := List.flatMap_append

@[simp] theorem noted_nil : noted [] = [] := rfl

@[simp] theorem noted_cons (s : Segment) (ss : List Segment) : noted (s :: ss) = s.remarks ++ noted ss := rfl

@[simp] theorem noted_append (ss ts : List Segment) : noted (ss ++ ts) = noted ss ++ noted ts := List.flatMap_append

theorem inOrder_noted (ss : List Segment) : InOrder (noted ss) (joined ss) := InOrder.flatMap fun s _ => inOrder_remarks s

end Segment

open Segment (joined noted)

theorem Attribute.joined_segments (lead tail : Text) (a : Attribute) : joined (a.segments lead tail) = a.text lead tail := by
  rw [Attribute.text_eq]
  simp [segments, Segment.text, rest]

theorem Label.joined_segments (ls : List Label) : joined (ls.flatMap segments) = ls.flatMap written := by
  induction ls with
  | nil => rfl
  | cons l ls ih =>
    rw [List.flatMap_cons, List.flatMap_cons, Segment.joined_append, ih]
    cases l <;> simp [segments, Segment.text, written]

theorem Body.segments_of_lines : {b : Body} → b.isLine = false → b.segments =
    .blank (b.decor.before.getD []) :: .sign ['\n'] :: (lineSegments b.items ++ [.blank (b.decor.after.getD [])])
  | ⟨_, [], true, _⟩, h => by cases h
  | ⟨_, [.attr _], true, _⟩, h => by cases h
  | ⟨_, .block _ :: _, true, _⟩, _ => by simp [Body.segments]
  | ⟨_, .attr _ :: _ :: _, true, _⟩, _ => by simp [Body.segments]
  | ⟨_, _, false, _⟩, _ => by simp [Body.segments]

theorem Body.joined_segments_of_lines {b : Body} (h : joined (lineSegments b.items) = linesText false b.items) :
    joined b.segments = b.inside := by
  cases hline : b.isLine with
  | false =>
    rw [segments_of_lines hline, inside_of_lines hline, ← h]
    simp [Segment.text]
  | true =>
    match b, hline with
    | ⟨_, [], true, _⟩, _ =>
      rw [inside_of_empty]
      simp [segments, Segment.text]
    | ⟨_, [.attr a], true, _⟩, _ =>
      rw [inside_of_attribute]
      simp [segments, Segment.text, Attribute.joined_segments]

mutual

theorem Structure.joined_segments : (s : Structure) → joined s.segments = s.text
  | .attr a => Attribute.joined_segments [] [] a
  | .block ⟨decor, ident, identAfter, labels, body⟩ => by
    rw [Structure.segments, Structure.text_block, Block.core, ← Body.joined_segments body]
    simp [Block.coreSegments, Segment.text, Label.joined_segments]

theorem Body.joined_segments : (b : Body) → joined b.segments = b.inside
  | ⟨_, items, _, _⟩ => Body.joined_segments_of_lines (joined_lineSegments items)

theorem joined_lineSegments : (ss : List Structure) → joined (lineSegments ss) = linesText false ss
  | [] => rfl
  | s :: ss => by
    rw [linesText_false, List.flatMap_cons, ← linesText_false, ← Structure.joined_segments s, ← joined_lineSegments ss]
    simp [lineSegments, Segment.text]

end

/-! ## Documents -/

/-- The segments behind those of a structure: its line end, if it has one, and the structures below. -/
def behindSegments (openEnd : Bool) : List Structure → List Segment
  | [] => if openEnd then [] else [.sign ['\n']]
  | s :: ss => .sign ['\n'] :: (s.segments ++ behindSegments openEnd ss)

def openLineSegments (openEnd : Bool) : List Structure → List Segment
  | [] => []
  | s :: ss => s.segments ++ behindSegments openEnd ss

/-- The segments of a document. -/
def Body.documentSegments (b : Body) : List Segment :=
  .blank (b.decor.before.getD []) :: (openLineSegments b.openEnd b.items ++ [.blank (b.decor.after.getD [])])

theorem joined_behindSegments (openEnd : Bool) (ss : List Structure) :
    joined (behindSegments openEnd ss) = linesBehind openEnd ss := by
  induction ss with
  | nil => cases openEnd <;> rfl
  | cons s ss ih =>
    rw [behindSegments, linesBehind, linesText_cons, ← ih, ← Structure.joined_segments s]
    simp [Segment.text]

theorem Body.joined_documentSegments (b : Body) : joined b.documentSegments = b.text := by
  have hlines : joined (openLineSegments b.openEnd b.items) = linesText b.openEnd b.items := by
    cases b.items with
    | nil => rfl
    | cons s ss =>
      rw [openLineSegments, linesText_cons, Segment.joined_append, joined_behindSegments, Structure.joined_segments]
  rw [Body.text_eq, ← hlines]
  simp [documentSegments, Segment.text]

theorem openLineSegments_append_cons (openEnd : Bool) (ss : List Structure) (s : Structure) (ts : List Structure) :
    openLineSegments openEnd (ss ++ s :: ts) = lineSegments ss ++ (s.segments ++ behindSegments openEnd ts) := by
  induction ss with
  | nil => rfl
  | cons x ss ih =>
    have hnext : behindSegments openEnd (ss ++ s :: ts) = .sign ['\n'] :: openLineSegments openEnd (ss ++ s :: ts) := by
      cases ss <;> rfl
    rw [List.cons_append, openLineSegments, hnext, ih, lineSegments, List.append_assoc, List.cons_append]

/-- What stands around the body of a block does not depend on it. -/
theorem Document.exists_segments_filled (d : Document) (before : List Structure) (block : Block) (behind : List Structure) :
    ∃ above below, ∀ b, (d.filled before block behind b).body.documentSegments = above ++ (b.segments ++ below) := by
  obtain ⟨decor, ident, identAfter, labels, body⟩ := block
  refine ⟨.blank (d.body.decor.before.getD []) :: (lineSegments before ++ .blank (decor.before.getD []) :: .sign ident ::
      .blank (identAfter.getD [' ']) :: (labels.flatMap Label.segments ++ [.sign ['{']])),
    .sign ['}'] :: .blank (decor.after.getD []) ::
      (behindSegments d.body.openEnd behind ++ [.blank (d.body.decor.after.getD [])]), fun b => ?_⟩
  rw [Body.documentSegments, filled, openLineSegments_append_cons, Structure.segments, Block.coreSegments]
  simp

/-! ## What a switch keeps -/

theorem lineSegments_append (ss ts : List Structure) : lineSegments (ss ++ ts) = lineSegments ss ++ lineSegments ts := by
  induction ss with
  | nil => rfl
  | cons s ss ih => rw [List.cons_append, lineSegments, ih, lineSegments, List.append_assoc, List.cons_append]

theorem noted_lineSegments (ss : List Structure) : noted (lineSegments ss) = ss.flatMap fun s => noted s.segments := by
  induction ss with
  | nil => rfl
  | cons s ss ih => simp [lineSegments, Segment.remarks, ih]

/-- Blank text that the printer supplies has no comments. -/
theorem commentsIn_getD (t : Option Text) : commentsIn (t.getD [' ']) = commentsIn (t.getD []) := by
  cases t with
  | none => rfl
  | some t => rfl

/-- What is noted in a body does not depend on its layout. -/
theorem Body.noted_segments (b : Body) : noted b.segments =
    commentsIn (b.decor.before.getD []) ++ (b.items.flatMap (fun s => noted s.segments) ++
      commentsIn (b.decor.after.getD [])) := by
  cases hline : b.isLine with
  | false =>
    rw [segments_of_lines hline]
    simp [Segment.remarks, noted_lineSegments]
  | true =>
    match b, hline with
    | ⟨_, [], true, _⟩, _ => simp [segments, Segment.remarks]
    | ⟨_, [.attr a], true, _⟩, _ =>
      simp [segments, Segment.remarks, Structure.segments, Attribute.segments, commentsIn_getD]

/-- A body with a block in it is written over several lines. -/
theorem Body.isLine_of_findBlock? {ident : Text} {block : Block} : {b : Body} → b.findBlock? ident = some block →
    b.isLine = false
  | ⟨_, [], true, _⟩, h => by cases h
  | ⟨_, [.attr _], true, _⟩, h => by cases h
  | ⟨_, .block _ :: _, true, _⟩, _ => rfl
  | ⟨_, .attr _ :: _ :: _, true, _⟩, _ => rfl
  | ⟨_, _, false, _⟩, _ => rfl

/-- No comments around a part of a tree. -/
def Decor.Silent (d : Decor) : Prop := commentsIn (d.before.getD []) = [] ∧ commentsIn (d.after.getD []) = []

instance (d : Decor) : Decidable d.Silent := inferInstanceAs (Decidable (_ ∧ _))

theorem Structure.noted_withDecor {s : Structure} {d : Decor} (hs : s.decor.Silent) (hd : d.Silent) :
    noted (s.withDecor d).segments = noted s.segments := by
  obtain ⟨hbefore, hafter⟩ := hs
  obtain ⟨hbefore', hafter'⟩ := hd
  cases s with
  | attr a =>
    rw [decor] at hbefore hafter
    simp [withDecor, segments, Attribute.segments, Segment.remarks, hbefore, hafter, hbefore', hafter']
  | block b =>
    obtain ⟨decor, ident, identAfter, labels, body⟩ := b
    rw [Structure.decor] at hbefore hafter
    simp [withDecor, segments, Block.coreSegments, Segment.remarks, hbefore, hafter, hbefore', hafter']

namespace Body

variable {mode : Mode} {backend : S3Backend} {b : Body}

/-- The segments of the first backend block, from its identifier to its closing brace. -/
def removedSegments (b : Body) : List Segment :=
  match b.findBlock? S3Backend.blockIdent with
  | none => []
  | some block => block.coreSegments

/-- No comment stands where a switch drops blank text: next to the backend block and, for S3, next to a structure on the
line of its brace. -/
def Spares (mode : Mode) (b : Body) : Prop :=
  (∀ s ∈ b.firstBackend, s.decor.Silent) ∧
    (mode = .s3 → b.oneLine = true → (∀ s ∈ b.items, s.decor.Silent) ∧ commentsIn (b.decor.after.getD []) = [])

instance (mode : Mode) (b : Body) : Decidable (b.Spares mode) := inferInstanceAs (Decidable (_ ∧ _))

/-- What is noted in a body apart from its first backend block. -/
def notedOutside (b : Body) : List Text :=
  commentsIn (b.decor.before.getD []) ++
    ((b.items.eraseP (Structure.isBlock S3Backend.blockIdent)).flatMap (fun s => noted s.segments) ++
      commentsIn (b.decor.after.getD []))

/-- The backend block is cut out of the segments of a body. -/
theorem Spares.exists_segments (h : b.Spares mode) :
    ∃ above below, b.segments = above ++ (b.removedSegments ++ below) ∧ noted (above ++ below) = b.notedOutside := by
  obtain ⟨first, last, hitems, herase⟩ := Structure.split_eraseP S3Backend.blockIdent b.items
  cases hfind : b.findBlock? S3Backend.blockIdent with
  | none =>
    have hsame : b.items = first ++ last := by
      rw [hitems, show Structure.findBlock? S3Backend.blockIdent b.items = none from hfind]
      rfl
    refine ⟨b.segments, [], by rw [removedSegments, hfind]; simp, ?_⟩
    rw [List.append_nil, noted_segments, notedOutside, herase, hsame]
  | some block =>
    have hsplit : b.items = first ++ .block block :: last := by
      rw [hitems, show Structure.findBlock? S3Backend.blockIdent b.items = some block from hfind]
      rfl
    obtain ⟨hbefore, hafter⟩ : block.decor.Silent := h.1 (.block block) (by simp [firstBackend, hfind])
    have hsegments := segments_of_lines (isLine_of_findBlock? hfind)
    refine ⟨.blank (b.decor.before.getD []) :: .sign ['\n'] :: (lineSegments first ++ [.blank (block.decor.before.getD [])]),
      .blank (block.decor.after.getD []) :: .sign ['\n'] :: (lineSegments last ++ [.blank (b.decor.after.getD [])]), ?_, ?_⟩
    · rw [hsegments, removedSegments, hfind, hsplit, lineSegments_append, lineSegments, Structure.segments]
      simp
    · rw [notedOutside, herase]
      simp [Segment.remarks, noted_lineSegments, hbefore, hafter]

theorem before_expand (b : Body) : b.expand.decor.before = b.decor.before := by
  unfold expand
  split <;> rfl

/-- Laying out a line anew drops only what is noted next to its structures. -/
theorem noted_expand (h : b.oneLine = true → ∀ s ∈ b.items, s.decor.Silent) :
    b.expand.items.flatMap (fun s => noted s.segments) = b.items.flatMap fun s => noted s.segments := by
  rw [items_expand]
  split
  · next hone =>
    rw [List.flatMap_map]
    exact congrArg List.flatten (List.map_congr_left fun s hs => Structure.noted_withDecor (h hone s hs) ⟨rfl, rfl⟩)
  · rfl

theorem commentsIn_expand (h : b.oneLine = true → commentsIn (b.decor.after.getD []) = []) :
    commentsIn (b.expand.decor.after.getD []) = commentsIn (b.decor.after.getD []) := by
  unfold expand
  split
  · next hone => exact (h hone).symm
  · rfl

/-- A switch keeps what is noted outside the backend block. -/
theorem Spares.sublist_noted (h : b.Spares mode) :
    b.notedOutside.Sublist (noted (b.switchedInside mode backend).segments) := by
  rw [noted_segments, notedOutside]
  cases mode with
  | onDisk => exact List.Sublist.refl _
  | s3 =>
    obtain ⟨-, hline⟩ := h
    have hitems := noted_expand (b := b.without S3Backend.blockIdent)
      fun hone s hs => (hline rfl hone).1 s (List.mem_of_mem_eraseP hs)
    have hafter := commentsIn_expand (b := b.without S3Backend.blockIdent) fun hone => (hline rfl hone).2
    rw [switchedInside, pushS3, push, hafter, before_expand, List.flatMap_append, hitems]
    refine (List.Sublist.refl _).append ?_
    exact (List.sublist_append_left _ _).append (List.Sublist.refl _)

end Body

namespace Document

/-- A text without carriage returns, which the reader drops at the end of a line. -/
def withoutReturns (t : Text) : Text := t.filter (· != '\r')

/-- A text that is read as a document and written again as it is, carriage returns aside. -/
def Mirrors (path t : Text) (d : Document) : Prop := parse path t = .ok d ∧ withoutReturns d.render = withoutReturns t

/-- Every comment outside the backend block that is taken out stays, and so does every value, all in the same order. -/
theorem inOrder_switch {path t : Text} {d : Document} {block : Block} (h : d.Mirrors path t)
    (hblock : d.body.findBlock? terraformIdent = some block) {mode : Mode} (hspares : block.body.Spares mode)
    (backend : S3Backend) :
    ∃ above below outcome d', d.render = joined d.body.documentSegments ∧
      withoutReturns t = withoutReturns (joined d.body.documentSegments) ∧
      d.body.documentSegments = above ++ (block.body.removedSegments ++ below) ∧
      d.switch mode backend = .ok (outcome, d') ∧ InOrder (noted (above ++ below)) d'.render := by
  obtain ⟨before, behind, hitems, hident, hbefore⟩ := Structure.split_of_findBlock? hblock
  obtain ⟨above, below, haround⟩ := d.exists_segments_filled before block behind
  obtain ⟨first, last, hinner, houtside⟩ := hspares.exists_segments
  have hfilled := filled_body hitems
  have hrun : (d.filled before block behind block.body).switch mode backend = _ :=
    switch_filled hident hbefore ⟨mode, backend⟩
  rw [hfilled] at hrun
  have hrender : d.render = joined d.body.documentSegments := (Body.joined_documentSegments d.body).symm
  refine ⟨above ++ first, last ++ below, _, _, hrender, hrender ▸ h.2.symm, ?_, hrun, ?_⟩
  · have hwhole := haround block.body
    rw [hfilled, hinner] at hwhole
    rw [hwhole]
    simp only [List.append_assoc]
  · have hkept : block.body.notedOutside.Sublist (noted (block.body.switchedInside mode backend).segments) :=
      hspares.sublist_noted
    rw [← houtside, Segment.noted_append] at hkept
    have horder := Segment.inOrder_noted
      (d.filled before block behind (block.body.switchedInside mode backend)).body.documentSegments
    rw [Body.joined_documentSegments, haround] at horder
    refine horder.sublist ?_
    rw [Segment.noted_append, Segment.noted_append, Segment.noted_append, Segment.noted_append, Segment.noted_append,
      List.append_assoc, ← List.append_assoc (noted first)]
    exact (List.Sublist.refl _).append (hkept.append (List.Sublist.refl _))

/-- Comments in many places, none of them next to the backend block, and two kinds of line ends. -/
def annotated : Text :=
  "# top\nterraform \x7b # opens\n  a = [1, /* two */ 2] # a\r\n  backend \"gcs\" \x7b # in\n    b = 2\n  \x7d\n  // last\n\x7d".toList

theorem inOrder_switch_annotated : ∃ (d : Document) (block : Block) (above below : List Segment) (outcome : Outcome)
    (d' : Document), d.Mirrors "main.tf".toList annotated ∧ d.body.findBlock? terraformIdent = some block ∧ block.body.Spares .s3 ∧
    noted block.body.removedSegments = ["# in".toList, "2".toList] ∧
    noted (above ++ (block.body.removedSegments ++ below)) = ["# top".toList, "# opens".toList, "[1, /* two */ 2]".toList,
      "# a".toList, "# in".toList, "2".toList, "// last".toList] ∧
    d.switch .s3 .standard = .ok (outcome, d') ∧ InOrder (noted (above ++ below)) d'.render := by
  obtain ⟨d, h, hrender, hnoted, hany⟩ := exists_of_parse (fun d => withoutReturns d.render = withoutReturns annotated ∧
    noted d.body.documentSegments = ["# top".toList, "# opens".toList, "[1, /* two */ 2]".toList, "# a".toList,
      "# in".toList, "2".toList, "// last".toList] ∧
    ((d.body.findBlock? terraformIdent).any fun block =>
      decide (block.body.Spares .s3 ∧ noted block.body.removedSegments = ["# in".toList, "2".toList])) = true)
    "main.tf".toList annotated (by decide +kernel)
  obtain ⟨block, hblock, hdecide⟩ := (Option.any_eq_true _ _).mp hany
  obtain ⟨hspares, hremoved⟩ := of_decide_eq_true hdecide
  obtain ⟨above, below, outcome, d', -, -, hsegments, hrun, horder⟩ := inOrder_switch ⟨h, hrender⟩ hblock hspares .standard
  rw [hsegments] at hnoted
  exact ⟨d, block, above, below, outcome, d', ⟨h, hrender⟩, hblock, hspares, hremoved, hnoted, hrun, horder⟩

/-- A comment on the line of a brace. -/
def onTheLine : Text := "terraform \x7b /* keep */ a = 1 \x7d\n".toList

/-- Laying out the line drops the comment. -/
theorem not_inOrder_switch_onTheLine : ∃ (d : Document) (outcome : Outcome) (d' : Document),
    parse "main.tf".toList onTheLine = .ok d ∧ d.render = onTheLine ∧
    noted d.body.documentSegments = ["/* keep */".toList, "1".toList] ∧
    d.switch .s3 .standard = .ok (outcome, d') ∧ ¬ InOrder ["/* keep */".toList, "1".toList] d'.render := by
  obtain ⟨d, h, hrender, hnoted, hsome, hgone⟩ := exists_of_parse (fun d => d.render = onTheLine ∧
    noted d.body.documentSegments = ["/* keep */".toList, "1".toList] ∧ (d.body.findBlock? terraformIdent).isSome = true ∧
    ¬ "/* keep */".toList <:+: (⟨d.path, d.body.switched .s3 .standard⟩ : Document).render)
    "main.tf".toList onTheLine (by decide +kernel)
  obtain ⟨block, hblock⟩ := Option.isSome_iff_exists.mp hsome
  obtain ⟨outcome, hrun⟩ := switch_of_findBlock? .s3 .standard hblock
  refine ⟨d, outcome, _, h, hrender, hnoted, hrun, fun ⟨u, v, hsplit, _⟩ => hgone ⟨u, v, ?_⟩⟩
  rw [hsplit, List.append_assoc]

end Document
end BackendSwitch
