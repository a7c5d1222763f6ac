import BackendSwitch.Proofs.Files
import BackendSwitch.Proofs.System

/-! # Loading, editing and saving in any order

A session works on several documents and paths. Each of its steps may fail, also because the system refuses to read or to
write, or breaks a write off. Whatever happens, only a step that saves changes files, it changes no other file than the one
that its path leads to, and a step that fails changes no document. -/
namespace BackendSwitch
set_option autoImplicit false

open Utf8 (Bytes)

/-! ## Sessions -/

/-- What may go wrong in the system during a step: it may refuse to read, and it may refuse to write, at once or after the
old content is gone and some bytes are written. -/
structure Trouble where
  reading : Option SystemError
  writing : Option (SystemError × Option Nat)
deriving DecidableEq, Repr

namespace Trouble

def none : Trouble := ⟨.none, .none⟩

def system (t : Trouble) : System FileSystem where
  read path fs :=
    match t.reading with
    | .none => fs.read path
    | some e => .error e
  write path content fs :=
    match t.writing with
    | .none => FileSystem.system.write path content fs
    | some (e, .none) => (.error e, fs)
    | some (e, some n) =>
      match fs.write path (content.take n) with
      | .ok fs' => (.error e, fs')
      | .error e' => (.error e', fs)

end Trouble

namespace Document

/-- Switches a document in place. -/
def apply (mode : Mode) (backend : S3Backend) (d : Document) : Except Failure Outcome × Document :=
  match d.body.findBlock? terraformIdent with
  | none => (.error (.missingTerraform d.path none), d)
  | some block =>
    (.ok ⟨mode, (switchBody mode backend block.body).1.map fun b => b.labels.head?.map Label.text⟩,
      { d with body := d.body.modifyBlock terraformIdent fun b => (switchBody mode backend b).2 })

theorem apply_eq (mode : Mode) (backend : S3Backend) (d : Document) : d.apply mode backend =
    match d.switch mode backend with | .ok (outcome, d') => (.ok outcome, d') | .error f => (.error f, d) := by
  unfold apply switch
  cases d.body.findBlock? terraformIdent <;> rfl

end Document

/-- The files, and documents by number. -/
structure World where
  files : FileSystem
  documents : Nat → Document

namespace World

def keep (slot : Nat) (d : Document) (w : World) : World :=
  { w with documents := fun n => if n = slot then d else w.documents n }

theorem keep_documents (slot : Nat) (w : World) : w.keep slot (w.documents slot) = w := by
  have h : (fun n => if n = slot then w.documents slot else w.documents n) = w.documents := by
    funext n
    split
    · next h => rw [h]
    · rfl
  rw [keep, h]

end World

inductive Action where
  | load (slot : Nat) (path : Text)
  | parse (slot : Nat) (path text : Text)
  | apply (slot : Nat) (mode : Mode) (backend : S3Backend)
  | save (slot : Nat)
  | run (mode : Mode) (path : Text)

namespace Action

/-- Whether a step is one of those that save. -/
def isSaving : Action → Bool
  | save _ => true
  | run _ _ => true
  | _ => false

/-- The path and the text that a step comes to save, if it does. -/
def saved? (t : Trouble) (w : World) : Action → Option (Text × Text)
  | save slot => some ((w.documents slot).path, (w.documents slot).render)
  | run mode path =>
    match t.system.edit mode path w.files with
    | .ok (_, d) => some (path, d.render)
    | .error _ => none
  | _ => none

def perform (t : Trouble) (w : World) : Action → Except Failure Unit × World
  | load slot path =>
    match Document.ofRead path (t.system.read path w.files) with
    | .ok d => (.ok (), w.keep slot d)
    | .error f => (.error f, w)
  | parse slot path text =>
    match Document.parse path text with
    | .ok d => (.ok (), w.keep slot d)
    | .error f => (.error f, w)
  | apply slot mode backend =>
    match (w.documents slot).apply mode backend with
    | (answer, d) => (answer.map fun _ => (), w.keep slot d)
  | save slot =>
    match t.system.save (w.documents slot) w.files with
    | (answer, files) => (answer, { w with files := files })
  | run mode path =>
    match t.system.switch mode path w.files with
    | (answer, files) => (answer.map fun _ => (), { w with files := files })

end Action

/-- One step of a session with what was in front of it and behind it. -/
structure Moment where
  before : World
  trouble : Trouble
  action : Action
  answer : Except Failure Unit
  after : World

/-- The steps of a session, in order. -/
def history : List (Trouble × Action) → World → List Moment
  | [], _ => []
  | (t, a) :: steps, w =>
    match a.perform t w with
    | (answer, w') => ⟨w, t, a, answer, w'⟩ :: history steps w'

def World.afterAll : List (Trouble × Action) → World → World
  | [], w => w
  | (t, a) :: steps, w => World.afterAll steps (a.perform t w).2

namespace Moment

/-- The path and the text that the step came to save. -/
def saved? (m : Moment) : Option (Text × Text) := m.action.saved? m.trouble m.before

/-- What holds of every step of a session. -/
structure Sound (m : Moment) : Prop where
  files : m.action.isSaving = false → m.after.files = m.before.files
  documents : ∀ f, m.answer = .error f → m.after.documents = m.before.documents
  untouched : ∀ f, m.answer = .error f → f.fileUntouched = true → m.after.files = m.before.files
  refused : ∀ path cause origin, m.answer = .error (.write path cause origin) →
    ∀ p, m.after.files.entry? p ≠ m.before.files.entry? p → m.before.files.target path = .ok p
  changed : ∀ p, m.after.files.entry? p ≠ m.before.files.entry? p →
    ∃ path t, m.saved? = some (path, t) ∧ m.before.files.target path = .ok p
  completed : m.action.isSaving = true → m.answer = .ok () → ∃ path t, m.saved? = some (path, t)
  saved : ∀ path t p, m.answer = .ok () → m.saved? = some (path, t) → m.before.files.target path = .ok p →
    m.before.files.Writable p →
      m.before.files.Puts m.after.files p (Utf8.encode t) ∧ Document.load m.after.files path = Document.parse path t

end Moment

/-! ## Saving -/

namespace Trouble

variable {t : Trouble} {d : Document} {fs fs' : FileSystem}

/-- A write succeeds with the whole content, or it fails and has left the files as they were or written some content. -/
theorem write_cases {path : Text} {content : Bytes} {result : Except SystemError Unit}
    (h : t.system.write path content fs = (result, fs')) :
    (result = .ok () ∧ fs.write path content = .ok fs') ∨
      (result ≠ .ok () ∧ (fs' = fs ∨ ∃ content', fs.write path content' = .ok fs')) := by
  unfold system at h
  dsimp only at h
  split at h
  · rw [FileSystem.write_system] at h
    split at h
    · next hok =>
      obtain ⟨rfl, rfl⟩ := Prod.mk.inj h
      exact .inl ⟨rfl, hok⟩
    · obtain ⟨rfl, rfl⟩ := Prod.mk.inj h
      exact .inr ⟨by simp, .inl rfl⟩
  · obtain ⟨rfl, rfl⟩ := Prod.mk.inj h
    exact .inr ⟨by simp, .inl rfl⟩
  · split at h
    · next hok =>
      obtain ⟨rfl, rfl⟩ := Prod.mk.inj h
      exact .inr ⟨by simp, .inr ⟨_, hok⟩⟩
    · obtain ⟨rfl, rfl⟩ := Prod.mk.inj h
      exact .inr ⟨by simp, .inl rfl⟩

/-- Writing changes at most the file that the path leads to, also if it fails. -/
theorem write_changes {path : Text} {content : Bytes} {result : Except SystemError Unit}
    (h : t.system.write path content fs = (result, fs')) {p : Place} (hp : fs'.entry? p ≠ fs.entry? p) :
    fs.target path = .ok p := by
  have hwrite : ∀ content' fs'', fs.write path content' = .ok fs'' → fs''.entry? p ≠ fs.entry? p →
      fs.target path = .ok p := by
    intro content' fs'' hok hne
    obtain ⟨q, htarget, hputs | ⟨-, rfl⟩⟩ := FileSystem.write_eq_ok hok
    · by_cases hq : p = q
      · rw [hq]
        exact htarget
      · exact absurd (hputs.others p hq) hne
    · exact absurd rfl hne
  rcases write_cases h with ⟨-, hok⟩ | ⟨-, rfl | ⟨content', hok⟩⟩
  · exact hwrite _ _ hok hp
  · exact absurd rfl hp
  · exact hwrite _ _ hok hp

theorem write_eq_ok {path : Text} {content : Bytes} (h : t.system.write path content fs = (.ok (), fs')) :
    fs.write path content = .ok fs' := by
  rcases write_cases h with ⟨-, hok⟩ | ⟨hfailed, -⟩
  · exact hok
  · exact absurd rfl hfailed

theorem save_changes {answer : Except Failure Unit} (h : t.system.save d fs = (answer, fs')) {p : Place}
    (hp : fs'.entry? p ≠ fs.entry? p) : fs.target d.path = .ok p := by
  unfold System.save at h
  split at h
  · next hwrite =>
    obtain ⟨-, rfl⟩ := Prod.mk.inj h
    exact write_changes hwrite hp
  · next hwrite =>
    obtain ⟨-, rfl⟩ := Prod.mk.inj h
    exact write_changes hwrite hp

theorem save_eq_error {f : Failure} (h : t.system.save d fs = (.error f, fs')) :
    ∃ cause, f = .write d.path cause .none := by
  unfold System.save at h
  split at h
  · cases h
  · next cause _ _ =>
    obtain ⟨hf, -⟩ := Prod.mk.inj h
    exact ⟨_, (Except.error.inj hf).symm⟩

/-- A file that was saved has the text of the document and is loaded as this text is parsed. -/
theorem save_eq_ok {p : Place} (h : t.system.save d fs = (.ok (), fs')) (hp : fs.target d.path = .ok p)
    (hwritable : fs.Writable p) :
    fs.Puts fs' p (Utf8.encode d.render) ∧ Document.load fs' d.path = Document.parse d.path d.render := by
  unfold System.save at h
  split at h
  · next hwrite =>
    obtain ⟨-, rfl⟩ := Prod.mk.inj h
    obtain ⟨q, htarget, hcases⟩ := FileSystem.write_eq_ok (write_eq_ok hwrite)
    obtain rfl : p = q := Except.ok.inj (hp.symm.trans htarget)
    rcases hcases with hputs | ⟨hdevice, -⟩
    · exact ⟨hputs, Document.load_of_read (hputs.read hp)⟩
    · rcases hwritable with hnone | ⟨old, hfile⟩
      · rw [hdevice] at hnone
        cases hnone
      · rw [hdevice] at hfile
        cases hfile
  · cases h

end Trouble

/-! ## Every step is sound -/

namespace Moment

/-- A step that does not come to save leaves the files alone. -/
theorem Sound.of_files {m : Moment} (hfiles : m.after.files = m.before.files) (hsaved : m.saved? = none)
    (hunsaved : m.answer = .ok () → m.action.isSaving = false)
    (hdocuments : ∀ f, m.answer = .error f → m.after.documents = m.before.documents) : m.Sound where
  files _ := hfiles
  documents := hdocuments
  untouched _ _ _ := hfiles
  refused _ _ _ _ p hp := absurd (by rw [hfiles]) hp
  changed p hp := absurd (by rw [hfiles]) hp
  completed hsaving hok := by
    rw [hunsaved hok] at hsaving
    cases hsaving
  saved path t p _ h := by
    rw [hsaved] at h
    cases h

/-- A step that saves a document is as sound as the saving. -/
theorem Sound.of_save {w : World} {t : Trouble} {a : Action} {d : Document} {answer : Except Failure Unit}
    {fs' : FileSystem} (ha : a.isSaving = true) (hsaved : a.saved? t w = some (d.path, d.render))
    (hsave : t.system.save d w.files = (answer, fs')) : Sound ⟨w, t, a, answer, { w with files := fs' }⟩ where
  files hnot := by
    rw [ha] at hnot
    cases hnot
  documents _ _ := rfl
  untouched f hf hkept := by
    obtain ⟨cause, rfl⟩ := Trouble.save_eq_error (hsave.trans (congrArg (·, fs') hf))
    cases hkept
  refused path cause origin hf p hp := by
    obtain ⟨cause', heq⟩ := Trouble.save_eq_error (hsave.trans (congrArg (·, fs') hf))
    obtain ⟨rfl, -, -⟩ := Failure.write.inj heq
    exact Trouble.save_changes hsave hp
  changed p hp := ⟨d.path, d.render, hsaved, Trouble.save_changes hsave hp⟩
  completed _ _ := ⟨d.path, d.render, hsaved⟩
  saved path text p hok h hp hwritable := by
    obtain ⟨rfl, rfl⟩ := Prod.mk.inj (Option.some.inj (hsaved.symm.trans h))
    exact Trouble.save_eq_ok (hsave.trans (congrArg (·, fs') hok)) hp hwritable

end Moment

/-- Whatever may go wrong, each step changes at most what it is about. -/
theorem Action.sound_perform {t : Trouble} {w w' : World} {a : Action} {answer : Except Failure Unit}
    (h : a.perform t w = (answer, w')) : Moment.Sound ⟨w, t, a, answer, w'⟩ := by
  cases a with
  | load slot path =>
    rw [Action.perform] at h
    split at h
    · obtain ⟨rfl, rfl⟩ := Prod.mk.inj h
      exact .of_files rfl rfl (fun _ => rfl) fun f hf => by cases hf
    · obtain ⟨rfl, rfl⟩ := Prod.mk.inj h
      exact .of_files rfl rfl (fun _ => rfl) fun f _ => rfl
  | parse slot path text =>
    rw [Action.perform] at h
    split at h
    · obtain ⟨rfl, rfl⟩ := Prod.mk.inj h
      exact .of_files rfl rfl (fun _ => rfl) fun f hf => by cases hf
    · obtain ⟨rfl, rfl⟩ := Prod.mk.inj h
      exact .of_files rfl rfl (fun _ => rfl) fun f _ => rfl
  | apply slot mode backend =>
    rw [Action.perform, Document.apply_eq] at h
    cases hswitch : (w.documents slot).switch mode backend with
    | ok x =>
      rw [hswitch] at h
      obtain ⟨rfl, rfl⟩ := Prod.mk.inj h
      exact .of_files rfl rfl (fun _ => rfl) fun f hf => by cases hf
    | error f =>
      rw [hswitch] at h
      obtain ⟨rfl, rfl⟩ := Prod.mk.inj h
      rw [World.keep_documents]
      exact .of_files rfl rfl (fun _ => rfl) fun f _ => rfl
  | save slot =>
    rw [Action.perform] at h
    cases hsave : t.system.save (w.documents slot) w.files with
    | mk answer files =>
      rw [hsave] at h
      obtain ⟨rfl, rfl⟩ := Prod.mk.inj h
      exact .of_save rfl rfl hsave
  | run mode path =>
    rw [Action.perform, System.switch] at h
    cases hedit : t.system.edit mode path w.files with
    | error f =>
      have hnone : Action.saved? t w (.run mode path) = none := by rw [Action.saved?, hedit]
      rw [hedit] at h
      obtain ⟨rfl, rfl⟩ := Prod.mk.inj h
      exact .of_files rfl hnone (fun hok => by cases hok) fun f _ => rfl
    | ok x =>
      obtain ⟨outcome, d⟩ := x
      have hsaved : Action.saved? t w (.run mode path) = some (d.path, d.render) := by
        rw [Action.saved?, hedit, (System.edit_path hedit).1]
      rw [hedit] at h
      cases hsave : t.system.save d w.files with
      | mk answer files =>
        simp only [hsave] at h
        cases answer with
        | ok u =>
          obtain ⟨rfl, rfl⟩ := Prod.mk.inj h
          exact .of_save rfl hsaved hsave
        | error f =>
          obtain ⟨rfl, rfl⟩ := Prod.mk.inj h
          exact .of_save rfl hsaved hsave

/-! ## Sessions -/

/-- In every session each step is sound, and what the whole session changed was the target of a step that came to save. -/
theorem session_sound (steps : List (Trouble × Action)) (w : World) :
    (∀ m ∈ history steps w, m.Sound) ∧
    ∀ p, FileSystem.entry? (World.afterAll steps w).files p ≠ w.files.entry? p →
      ∃ m ∈ history steps w, ∃ path t, m.saved? = some (path, t) ∧ m.before.files.target path = .ok p := by
  induction steps generalizing w with
  | nil => exact ⟨fun m hm => (by cases hm), fun p hp => absurd rfl hp⟩
  | cons step steps ih =>
    obtain ⟨t, a⟩ := step
    have hsound : Moment.Sound ⟨w, t, a, (a.perform t w).1, (a.perform t w).2⟩ := a.sound_perform rfl
    obtain ⟨hrest, hchanged⟩ := ih (a.perform t w).2
    refine ⟨List.forall_mem_cons.mpr ⟨hsound, hrest⟩, fun p hp => ?_⟩
    -- either this step changed the entry, or one of the later ones did
    by_cases hstep : FileSystem.entry? (a.perform t w).2.files p = w.files.entry? p
    · have hlater : FileSystem.entry? (World.afterAll steps (a.perform t w).2).files p ≠
          FileSystem.entry? (a.perform t w).2.files p := by
        rw [hstep]
        exact hp
      obtain ⟨m, hm, h⟩ := hchanged p hlater
      exact ⟨m, List.mem_cons_of_mem _ hm, h⟩
    · exact ⟨_, List.mem_cons_self .., hsound.changed p hstep⟩

end BackendSwitch
