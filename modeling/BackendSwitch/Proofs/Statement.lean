import BackendSwitch.Edit

/-! # What a document says

Without the blank text and the layout of its bodies a document is a list of statements. Switching the backend is one change
in that list, whatever the document looks like. -/
namespace BackendSwitch
set_option autoImplicit false

/-! ## Statements -/

/-- An attribute or a block without the blank text in it and around it. -/
inductive Statement where
  | attr (key : Text) (value : Node)
  | block (ident : Text) (labels : List Label) (body : List Statement)

/-- A label without the blank text behind it. -/
def Label.plain : Label → Label
  | .quoted text _ => .quoted text none
  | .bare text _ => .bare text none

mutual

def Structure.statement : Structure → Statement
  | .attr a => .attr a.key a.value.node
  | .block b => b.statement

def Block.statement : Block → Statement
  | ⟨_, ident, _, labels, body⟩ => .block ident (labels.map Label.plain) body.statements

def Body.statements : Body → List Statement
  | ⟨_, items, _, _⟩ => statementsOf items

def statementsOf : List Structure → List Statement
  | [] => []
  | s :: ss => s.statement :: statementsOf ss

end

theorem statementsOf_eq_map (ss : List Structure) : statementsOf ss = ss.map Structure.statement := by
  induction ss with
  | nil => rfl
  | cons s ss ih => rw [statementsOf, ih, List.map_cons]

theorem Body.statements_eq (b : Body) : b.statements = b.items.map Structure.statement := by
  cases b
  exact statementsOf_eq_map _

theorem Block.statement_eq (b : Block) : b.statement = .block b.ident (b.labels.map Label.plain) b.body.statements := by
  cases b
  rfl

/-! ## Switching statements -/

namespace Statement

/-- Whether this is a block with the given identifier. -/
def isBlock (ident : Text) : Statement → Bool
  | attr _ _ => false
  | block i _ _ => i == ident

/-- The block that sets up the backend. -/
def s3 (backend : S3Backend) : Statement :=
  .block "backend".toList [.quoted "s3".toList none]
    [.attr "bucket".toList (.string backend.bucket), .attr "key".toList (.string backend.key),
      .attr "region".toList (.string backend.region), .attr "encrypt".toList (.bool backend.encrypt)]

/-- The body of the block with the backend: its first backend block goes and, for S3, a new one comes last. -/
def switchedBody (mode : Mode) (backend : S3Backend) (ss : List Statement) : List Statement :=
  ss.eraseP (isBlock "backend".toList) ++ match mode with | .onDisk => [] | .s3 => [s3 backend]

/-- The first `terraform` block has another body, and all other statements stay. -/
def switched (mode : Mode) (backend : S3Backend) : List Statement → List Statement
  | [] => []
  | .attr key value :: ss => .attr key value :: switched mode backend ss
  | .block ident labels body :: ss =>
    if ident = "terraform".toList then .block ident labels (switchedBody mode backend body) :: ss
    else .block ident labels body :: switched mode backend ss

end Statement

/-! ## Switching bodies -/

theorem Structure.statement_isBlock (ident : Text) : (s : Structure) → s.statement.isBlock ident = s.isBlock ident
  | .attr _ => rfl
  | .block b => by rw [statement, Block.statement_eq, Statement.isBlock, isBlock]

theorem Structure.statement_withDecor (decor : Decor) : (s : Structure) → (s.withDecor decor).statement = s.statement
  | .attr _ => rfl
  | .block ⟨_, _, _, _, _⟩ => rfl

/-- Taking out a block leaves the structures without the first block of its kind. -/
theorem Structure.rest_takeBlock? (ident : Text) (ss : List Structure) :
    ((takeBlock? ident ss).map Prod.snd).getD ss = ss.eraseP (isBlock ident) := by
  induction ss with
  | nil => rfl
  | cons s ss ih =>
    cases h : s.isBlock ident with
    | true =>
      cases s with
      | attr a => cases h
      | block b =>
        rw [takeBlock?, if_pos (by simpa [isBlock] using h), List.eraseP_cons_of_pos h]
        rfl
    | false =>
      rw [takeBlock?_cons_of_other h, List.eraseP_cons_of_neg (by simp [h]), ← ih]
      cases takeBlock? ident ss <;> rfl

namespace Body

/-- A body without its first block of a kind. -/
def without (ident : Text) (b : Body) : Body := { b with items := b.items.eraseP (Structure.isBlock ident) }

/-- The body of the block with the backend behind a switch. -/
def switchedInside (mode : Mode) (backend : S3Backend) (b : Body) : Body :=
  match mode with
  | .onDisk => b.without S3Backend.blockIdent
  | .s3 => (b.without S3Backend.blockIdent).expand.pushS3 backend

/-- The body of a document behind a switch. -/
def switched (mode : Mode) (backend : S3Backend) (b : Body) : Body :=
  b.modifyBlock Document.terraformIdent (switchedInside mode backend)

theorem snd_switchBody (mode : Mode) (backend : S3Backend) (b : Body) :
    (Document.switchBody mode backend b).2 = b.switchedInside mode backend := by
  obtain ⟨decor, items, oneLine, openEnd⟩ := b
  have hrest := Structure.rest_takeBlock? S3Backend.blockIdent items
  unfold Document.switchBody switchedInside without removeBlock?
  rw [← hrest]
  cases Structure.takeBlock? S3Backend.blockIdent items <;> cases mode <;> rfl

theorem items_expand (b : Body) :
    b.expand.items = if b.oneLine then b.items.map (Structure.withDecor (.around S3Backend.margin [])) else b.items := by
  unfold expand
  split <;> rfl

end Body

/-- A switch succeeds where there is a `terraform` block, and changes the body of the document only. -/
theorem Document.switch_of_findBlock? {d : Document} {block : Block} (mode : Mode) (backend : S3Backend)
    (h : d.body.findBlock? terraformIdent = some block) :
    ∃ outcome, d.switch mode backend = .ok (outcome, ⟨d.path, d.body.switched mode backend⟩) := by
  unfold Document.switch Body.switched
  rw [h, ← funext (Body.snd_switchBody mode backend)]
  exact ⟨_, rfl⟩

/-! ## What a switch changes -/

theorem Structure.statement_eraseP (ident : Text) (ss : List Structure) :
    (ss.eraseP (isBlock ident)).map statement = (ss.map statement).eraseP (Statement.isBlock ident) := by
  rw [List.eraseP_map]
  have hp : Statement.isBlock ident ∘ statement = isBlock ident := funext (statement_isBlock ident)
  rw [hp]

namespace Body

theorem statements_switchedInside (mode : Mode) (backend : S3Backend) (b : Body) :
    (b.switchedInside mode backend).statements = Statement.switchedBody mode backend b.statements := by
  have hrest : (b.without S3Backend.blockIdent).statements =
      b.statements.eraseP (Statement.isBlock S3Backend.blockIdent) := by
    rw [statements_eq, statements_eq]
    exact Structure.statement_eraseP _ _
  have hexpand : ∀ b : Body, b.expand.statements = b.statements := by
    intro b
    rw [statements_eq, statements_eq, items_expand]
    split
    · rw [List.map_map]
      exact List.map_congr_left fun s _ => Structure.statement_withDecor _ s
    · rfl
  cases mode with
  | onDisk =>
    rw [Statement.switchedBody, List.append_nil]
    exact hrest
  | s3 =>
    rw [Statement.switchedBody, switchedInside, pushS3, statements_eq, items_push, List.map_append, ← statements_eq, hexpand,
      hrest]
    rfl

/-- A switched document says what the document said with one change: in the first `terraform` block the first `backend`
block is gone and, for S3, a new one comes last. -/
theorem statements_switched_eq (mode : Mode) (backend : S3Backend) (b : Body) :
    (b.switched mode backend).statements = Statement.switched mode backend b.statements := by
  rw [statements_eq, statements_eq]
  show (Structure.modifyBlock _ _ b.items).map _ = _
  induction b.items with
  | nil => rfl
  | cons s ss ih =>
    cases s with
    | attr a => exact congrArg (List.cons _) ih
    | block block =>
      rw [List.map_cons, Structure.statement, Block.statement_eq, Statement.switched, Structure.modifyBlock]
      by_cases h : block.ident = "terraform".toList
      · rw [if_pos h, if_pos (c := block.ident = Document.terraformIdent) h, List.map_cons, Structure.statement,
          Block.statement_eq, statements_switchedInside]
      · rw [if_neg h, if_neg (c := block.ident = Document.terraformIdent) h, List.map_cons, Structure.statement,
          Block.statement_eq, ih]

end Body
end BackendSwitch
