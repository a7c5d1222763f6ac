import BackendSwitch.Document
import BackendSwitch.S3Backend

/-! Edits of bodies: finding, removing and appending blocks, and switching the backend of a document. -/
namespace BackendSwitch
set_option autoImplicit false

/-! ## Blocks of a body -/

namespace Structure

/-- The first block with an identifier. -/
def findBlock? (ident : Text) : List Structure → Option Block
  | [] => none
  | .attr _ :: ss => findBlock? ident ss
  | .block b :: ss => if b.ident = ident then some b else findBlock? ident ss

/-- The first block with an identifier, and the structures without it. -/
def takeBlock? (ident : Text) : List Structure → Option (Block × List Structure)
  | [] => none
  | .attr a :: ss => (takeBlock? ident ss).map fun (b, rest) => (b, .attr a :: rest)
  | .block b :: ss =>
    if b.ident = ident then some (b, ss)
    else (takeBlock? ident ss).map fun (found, rest) => (found, .block b :: rest)

/-- Changes the body of the first block with an identifier. -/
def modifyBlock (ident : Text) (f : Body → Body) : List Structure → List Structure
  | [] => []
  | .attr a :: ss => .attr a :: modifyBlock ident f ss
  | .block b :: ss =>
    if b.ident = ident then .block { b with body := f b.body } :: ss else .block b :: modifyBlock ident f ss

section
variable {ident : Text} {s : Structure}

/-- Every search passes over attributes and over blocks with another identifier. -/
theorem findBlock?_cons_of_other (h : s.isBlock ident = false) (ss : List Structure) :
    findBlock? ident (s :: ss) = findBlock? ident ss := by
  cases s with
  | attr a => rfl
  | block b => exact if_neg (by simpa [isBlock] using h)

theorem takeBlock?_cons_of_other (h : s.isBlock ident = false) (ss : List Structure) :
    takeBlock? ident (s :: ss) = (takeBlock? ident ss).map fun (b, rest) => (b, s :: rest) := by
  cases s with
  | attr a => rfl
  | block b => exact if_neg (by simpa [isBlock] using h)

theorem modifyBlock_cons_of_other (h : s.isBlock ident = false) (f : Body → Body) (ss : List Structure) :
    modifyBlock ident f (s :: ss) = s :: modifyBlock ident f ss := by
  cases s with
  | attr a => rfl
  | block b => exact if_neg (by simpa [isBlock] using h)

end

end Structure

namespace Body

def findBlock? (ident : Text) (b : Body) : Option Block := Structure.findBlock? ident b.items

/-- Takes out the first block with an identifier. -/
def removeBlock? (ident : Text) (b : Body) : Option (Block × Body) :=
  (Structure.takeBlock? ident b.items).map fun (block, items) => (block, { b with items := items })

def modifyBlock (ident : Text) (f : Body → Body) (b : Body) : Body :=
  { b with items := Structure.modifyBlock ident f b.items }

/-- Lays a body that was written on one line out for several: each structure gets a margin of its own. The body
stays marked as written on one line, which matters only while it holds at most an attribute. -/
def expand (b : Body) : Body :=
  if b.oneLine then
    { b with
      items := b.items.map (Structure.withDecor (.around S3Backend.margin []))
      decor := { b.decor with after := some [] } }
  else b

/-- The body inside a chain of blocks, each the first one with its identifier, or the identifier that is missing. -/
def nested (b : Body) : List Text → Except Text Body
  | [] => .ok b
  | ident :: idents =>
    match b.findBlock? ident with
    | some block => block.body.nested idents
    | none => .error ident

/-- Changes the body inside a chain of blocks. -/
def modifyNested (f : Body → Body) : List Text → Body → Body
  | [] => f
  | ident :: idents => modifyBlock ident (modifyNested f idents)

/-- Appends the block of an S3 backend. -/
def pushS3 (backend : S3Backend) (b : Body) : Body := b.push (.block backend.block)

end Body

/-! ## Switching -/

namespace Document

/-- The identifier of the block that holds the backend. -/
def terraformIdent : Text := ['t', 'e', 'r', 'r', 'a', 'f', 'o', 'r', 'm']

/-- What switching does to the body of the block: its first backend block goes and, for S3, a new one comes last.
Also tells which block went. -/
def switchBody (mode : Mode) (backend : S3Backend) (b : Body) : Option Block × Body :=
  let (removed, rest) := match b.removeBlock? S3Backend.blockIdent with
    | some (block, rest) => (some block, rest)
    | none => (none, b)
  (removed, match mode with
    | .onDisk => rest
    | .s3 => rest.expand.pushS3 backend)

/-- Switches the backend in the first `terraform` block at the top of a document. -/
def switch (mode : Mode) (backend : S3Backend) (d : Document) : Except Failure (Outcome × Document) :=
  match d.body.findBlock? terraformIdent with
  | none => .error (.missingTerraform d.path none)
  | some block =>
    let removed := (switchBody mode backend block.body).1
    .ok (⟨mode, removed.map fun b => b.labels.head?.map Label.text⟩,
      { d with body := d.body.modifyBlock terraformIdent fun b => (switchBody mode backend b).2 })

end Document
end BackendSwitch
