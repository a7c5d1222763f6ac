import BackendSwitch.Tree.Body

/-! The settings of the S3 backend and the block that holds them. -/
namespace BackendSwitch
set_option autoImplicit false

structure S3Backend where
  bucket : Text
  key : Text
  region : Text
  encrypt : Bool
deriving DecidableEq, Repr

/-- A value that a setting can have. -/
inductive Setting where
  | text (value : Text)
  | flag (value : Bool)
deriving DecidableEq, Repr

namespace S3Backend

def standard : S3Backend where
  bucket := "deductive-ai-iac".toList
  key := "terraform.tfstate".toList
  region := "us-west-1".toList
  encrypt := true

def label : Text := ['s', '3']

/-- The identifier of the blocks that configure a backend. -/
def blockIdent : Text := ['b', 'a', 'c', 'k', 'e', 'n', 'd']

/-- The settings by name, in the order in which they are written. -/
def settings (b : S3Backend) : List (Text × Setting) :=
  [(['b', 'u', 'c', 'k', 'e', 't'], .text b.bucket),
    (['k', 'e', 'y'], .text b.key),
    (['r', 'e', 'g', 'i', 'o', 'n'], .text b.region),
    (['e', 'n', 'c', 'r', 'y', 'p', 't'], .flag b.encrypt)]

/-- The margin of one level of blocks. -/
def margin : Text := [' ', ' ']

/-- The length of the longest of some names. -/
def width (names : List Text) : Nat := (names.map List.length).foldl max 0

def settingNode : Setting → Node
  | .text t => .string t
  | .flag b => .bool b

/-- The attribute of a setting. Blanks behind the key make the equals signs of all settings line up. -/
def settingAttribute (width : Nat) (key : Text) (s : Setting) : Attribute :=
  ⟨⟨some (margin ++ margin), none⟩, key, some (List.replicate (width - key.length + 1) ' '),
    .ofNode (settingNode s)⟩

/-- The block that sets up the backend, indented for the body of a block at the top of a document. -/
def block (b : S3Backend) : Block :=
  let w := width (b.settings.map Prod.fst)
  ⟨⟨some margin, none⟩, blockIdent, none, [.quoted label none],
    ⟨⟨none, some margin⟩, b.settings.map fun (key, s) => .attr (settingAttribute w key s), false, false⟩⟩

end S3Backend
end BackendSwitch
