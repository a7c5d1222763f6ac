import BackendSwitch.FileSwitch

/-! # Any system below the program

The program asks the system beneath it for the content of a path, and for new content at a path. A system may refuse either
for reasons of its own, and a write that fails may have changed something. -/
namespace BackendSwitch
set_option autoImplicit false

open Utf8 (Bytes)

variable {σ : Type}

/-- What reading and writing do in each state of a system. -/
structure System (σ : Type) where
  read : Text → σ → Except SystemError Bytes
  write : Text → Bytes → σ → Except SystemError Unit × σ

namespace System

/-- The document at a path, switched but not saved. -/
def edit (sys : System σ) (mode : Mode) (path : Text) (s : σ) : Except Failure (Outcome × Document) :=
  match Document.ofRead path (sys.read path s) with
  | .error f => .error f
  | .ok d => d.switch mode .standard

def save (sys : System σ) (d : Document) (s : σ) : Except Failure Unit × σ :=
  match sys.write d.path d.bytes s with
  | (.ok (), s') => (.ok (), s')
  | (.error e, s') => (.error (.write d.path e none), s')

/-- Switches the file at a path to the given mode, with the standard settings. -/
def switch (sys : System σ) (mode : Mode) (path : Text) (s : σ) : Except Failure Outcome × σ :=
  match sys.edit mode path s with
  | .error f => (.error f, s)
  | .ok (outcome, d) =>
    match sys.save d s with
    | (.ok (), s') => (.ok outcome, s')
    | (.error f, s') => (.error f, s')

end System

namespace FileSystem

/-- Files and directories as a system. A write that fails changes nothing. -/
def system : System FileSystem where
  read path fs := fs.read path
  write path content fs :=
    match fs.write path content with
    | .ok fs' => (.ok (), fs')
    | .error e => (.error e, fs)

theorem write_system (path : Text) (content : Bytes) (fs : FileSystem) : system.write path content fs =
    match fs.write path content with | .ok fs' => (.ok (), fs') | .error e => (.error e, fs) := rfl

theorem save_system (d : Document) (fs : FileSystem) :
    system.save d fs = match d.save fs with | .ok fs' => (.ok (), fs') | .error f => (.error f, fs) := by
  unfold System.save Document.save
  rw [write_system]
  cases fs.write d.path d.bytes <;> rfl

/-- Switching a file is switching it on the system of the files. -/
theorem switch_system (mode : Mode) (path : Text) (fs : FileSystem) :
    system.switch mode path fs =
      match fs.switch mode path with | .ok (outcome, fs') => (.ok outcome, fs') | .error f => (.error f, fs) := by
  have hload : Document.load fs path = Document.ofRead path (system.read path fs) := rfl
  unfold System.switch System.edit FileSystem.switch
  rw [← hload]
  cases Document.load fs path with
  | error f => rfl
  | ok d =>
    cases hswitch : d.switch mode .standard with
    | error f => simp only [hswitch]
    | ok x =>
      simp only [hswitch, save_system]
      cases x.2.save fs <;> rfl

end FileSystem

/-! ## Paths of documents -/

namespace Document

theorem path_of_parse {path t : Text} {d : Document} (h : parse path t = .ok d) : d.path = path := by
  unfold parse at h
  split at h
  · rw [← Except.ok.inj h]
  · cases h

theorem path_of_ofRead {path : Text} {content : Except SystemError Bytes} {d : Document}
    (h : ofRead path content = .ok d) : d.path = path := by
  unfold ofRead at h
  split at h
  · cases h
  · split at h
    · exact path_of_parse h
    · cases h

theorem path_of_switch {mode : Mode} {backend : S3Backend} {d d' : Document} {outcome : Outcome}
    (h : d.switch mode backend = .ok (outcome, d')) : d'.path = d.path ∧ outcome.mode = mode := by
  unfold switch at h
  split at h
  · cases h
  · obtain ⟨rfl, rfl⟩ := Prod.mk.inj (Except.ok.inj h)
    exact ⟨rfl, rfl⟩

end Document

namespace System

theorem edit_path {sys : System σ} {mode : Mode} {path : Text} {s : σ} {outcome : Outcome} {d : Document}
    (h : sys.edit mode path s = .ok (outcome, d)) : d.path = path ∧ outcome.mode = mode := by
  unfold edit at h
  split at h
  · cases h
  · next d' hread =>
    obtain ⟨hpath, hmode⟩ := Document.path_of_switch h
    exact ⟨hpath.trans (Document.path_of_ofRead hread), hmode⟩

end System
end BackendSwitch
