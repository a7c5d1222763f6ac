import BackendSwitch.Tree.Outline

/-! Objects with unique keys. A later item takes the place of an earlier one whose key says the same. -/
namespace BackendSwitch.ObjectItem
set_option autoImplicit false

/-- Whether two items of one object have the same key. A name and an expression never agree. -/
def sameKey (a b : ObjectItem) : Bool := a.key.outline.agrees b.key.outline

def put (item : ObjectItem) : List ObjectItem → List ObjectItem
  | [] => [item]
  | i :: is => if sameKey i item then item :: is else i :: put item is

def merge (items : List ObjectItem) : List ObjectItem := items.foldl (fun is item => put item is) []

end BackendSwitch.ObjectItem
