import BackendSwitch.Failure
import BackendSwitch.Text.Utf8

/-! Files and directories below a working directory, and how paths lead to them. Reading never changes anything;
writing changes the one entry that the path leads to. -/
namespace BackendSwitch
set_option autoImplicit false

open Utf8 (Bytes)

/-! ## Entries -/

inductive Entry where
  | file (content : Bytes)
  | directory
  | fullDevice
deriving DecidableEq, Repr

/-- Where a path leads: names from the working directory down, or from the root of everything outside it. -/
inductive Place where
  | inside (names : List Text)
  | outside (names : List Text)
deriving DecidableEq, Repr

/-- What lies below the working directory, by the names that lead there. -/
structure FileSystem where
  entries : List (List Text × Entry)
deriving DecidableEq, Repr

namespace FileSystem

def lookup (names : List Text) : List (List Text × Entry) → Option Entry
  | [] => none
  | (ns, e) :: es => if ns = names then some e else lookup names es

def update (names : List Text) (entry : Entry) : List (List Text × Entry) → List (List Text × Entry)
  | [] => [(names, entry)]
  | (ns, e) :: es => if ns = names then (ns, entry) :: es else (ns, e) :: update names entry es

/-- Outside the working directory there is only the device that is always full. -/
def entry? (fs : FileSystem) : Place → Option Entry
  | .inside [] => some .directory
  | .inside names => lookup names fs.entries
  | .outside names =>
    if names = [] ∨ names = ["dev".toList] then some .directory
    else if names = ["dev".toList, "full".toList] then some .fullDevice
    else none

/-- The file system after an entry has been put in place. Nothing can be put outside the working directory. -/
def put (fs : FileSystem) (entry : Entry) : Place → Except SystemError FileSystem
  | .inside names => .ok ⟨update names entry fs.entries⟩
  | .outside _ => .error (.code 13)

/-! ## Paths -/

def parent : Place → Place
  | .inside [] => .outside []
  | .inside names => .inside names.dropLast
  | .outside names => .outside names.dropLast

def child (name : Text) : Place → Place
  | .inside names => .inside (names ++ [name])
  | .outside names => .outside (names ++ [name])

/-- Goes from a directory to the next name of a path. -/
def enter (fs : FileSystem) (p : Place) (name : Text) : Except SystemError Place :=
  match fs.entry? p with
  | none => .error .missing
  | some .directory =>
    if name = ['.'] then .ok p
    else if name = ['.', '.'] then .ok (parent p)
    else if 255 < Text.utf8Size name then .error .nameTooLong
    else .ok (child name p)
  | some _ => .error .notDirectory

def follow (fs : FileSystem) (p : Place) : List Text → Except SystemError Place
  | [] => .ok p
  | name :: names =>
    match fs.enter p name with
    | .ok q => follow fs q names
    | .error e => .error e

/-- The names that a path consists of. -/
def pathNames (path : Text) : List Text := (Text.split '/' path).filter (!·.isEmpty)

def asksForDirectory (path : Text) : Bool := path.getLast? == some '/'

/-- The place that some names lead to from where a path starts, whether there is anything or not. -/
def resolve (fs : FileSystem) (path : Text) (names : List Text) : Except SystemError Place :=
  if path.contains '\x00' then .error .zeroInPath
  else if path.isEmpty then .error .missing
  else if 4096 ≤ Text.utf8Size path then .error .nameTooLong
  else fs.follow (if path.head? = some '/' then .outside [] else .inside []) names

/-! ## Reading and writing -/

/-- A slash at the end of a path asks for a directory, as the name of a directory in itself does. What the device that is
always full is read as has no end, so there is never room for it. -/
def read (fs : FileSystem) (path : Text) : Except SystemError Bytes :=
  match fs.resolve path (pathNames path ++ if asksForDirectory path then [['.']] else []) with
  | .error e => .error e
  | .ok p =>
    match fs.entry? p with
    | none => .error .missing
    | some (.file content) => .ok content
    | some .directory => .error .isDirectory
    | some .fullDevice => .error .outOfMemory

/-- The place that a path leads to for writing. Nothing can be written to a path that asks for a directory, but the
directories on the way come first. -/
def target (fs : FileSystem) (path : Text) : Except SystemError Place :=
  if asksForDirectory path then
    match fs.resolve path ((pathNames path).dropLast ++ [['.']]) with
    | .error e => .error e
    | .ok _ => .error .isDirectory
  else fs.resolve path (pathNames path)

/-- Writing needs the directory of the file, but not the file. The old content goes entirely. -/
def write (fs : FileSystem) (path : Text) (content : Bytes) : Except SystemError FileSystem :=
  match fs.target path with
  | .error e => .error e
  | .ok p =>
    match fs.entry? p with
    | some .directory => .error .isDirectory
    | some .fullDevice => if content = [] then .ok fs else .error .deviceFull
    | _ => fs.put (.file content) p

/-! ## Building -/

/-- Makes the directories that lead to some names. -/
def withParents (names : List Text) (es : List (List Text × Entry)) : List (List Text × Entry) :=
  ((List.range (names.length - 1)).map fun n => names.take (n + 1)).foldl
    (fun es ns => if (lookup ns es).isSome then es else update ns .directory es) es

/-- The file system with the given files and directories, the latter without content. -/
def ofList (files : List (Text × Option Bytes)) : FileSystem :=
  ⟨files.foldl (fun es (path, content) =>
    let names := pathNames path
    update names (match content with | some bytes => .file bytes | none => .directory) (withParents names es)) []⟩

/-- Every file and directory by its path, the latter without content. -/
def toList (fs : FileSystem) : List (Text × Option Bytes) :=
  fs.entries.map fun (names, entry) =>
    (List.intercalate ['/'] names, match entry with | .file bytes => some bytes | _ => none)

end FileSystem
end BackendSwitch
