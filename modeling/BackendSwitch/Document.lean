import BackendSwitch.Failure
import BackendSwitch.Grammar.ParseError
import BackendSwitch.Tree.Printer

/-! A document: the body read from a file, together with the path of the file. -/
namespace BackendSwitch
set_option autoImplicit false

structure Document where
  path : Text
  body : Body

namespace Document

def parse (path t : Text) : Except Failure Document :=
  match Body.parse t with
  | .ok b => .ok ⟨path, b⟩
  | .error e => .error (.malformed path e.report (some e.position.line) (some e.position.column) none)

def render (d : Document) : Text := d.body.text

end Document
end BackendSwitch
