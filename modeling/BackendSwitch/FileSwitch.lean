import BackendSwitch.Edit
import BackendSwitch.FileSystem

/-! Switching a file: its document is read, edited and written back. -/
namespace BackendSwitch
set_option autoImplicit false

namespace Document

/-- The document in the content of a file, or in the error that reading the file gave. -/
def ofRead (path : Text) : Except SystemError Utf8.Bytes → Except Failure Document
  | .error e => .error (.read path e none)
  | .ok bytes =>
    match Utf8.decode bytes with
    | .ok t => parse path t
    | .error fault => .error (.malformed path ("file is not valid UTF-8: ".toList ++ fault.message) none none none)

/-- What a document is saved as. -/
def bytes (d : Document) : Utf8.Bytes := Utf8.encode d.render

def load (fs : FileSystem) (path : Text) : Except Failure Document := ofRead path (fs.read path)

def save (d : Document) (fs : FileSystem) : Except Failure FileSystem :=
  match fs.write d.path d.bytes with
  | .ok fs' => .ok fs'
  | .error e => .error (.write d.path e none)

end Document

namespace FileSystem

/-- Switches the file at a path to the given mode, with the standard settings. -/
def switch (mode : Mode) (path : Text) (fs : FileSystem) : Except Failure (Outcome × FileSystem) :=
  match Document.load fs path with
  | .error e => .error e
  | .ok d =>
    match d.switch mode .standard with
    | .error e => .error e
    | .ok (outcome, d') =>
      match d'.save fs with
      | .error e => .error e
      | .ok fs' => .ok (outcome, fs')

end FileSystem
end BackendSwitch
