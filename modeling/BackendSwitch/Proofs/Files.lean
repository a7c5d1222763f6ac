import BackendSwitch.FileSwitch
import BackendSwitch.Proofs.Utf8

/-! # What writing a file does

Writing changes the one entry that the path leads to. No directory appears or disappears by it, so every path leads where it
led before, and reading gives back what was written. -/
namespace BackendSwitch
set_option autoImplicit false

open Utf8 (Bytes)

namespace FileSystem

/-! ## Entries -/

theorem lookup_update (names names' : List Text) (e : Entry) (es : List (List Text × Entry)) :
    lookup names (update names' e es) = if names' = names then some e else lookup names es := by
  induction es with
  | nil => rfl
  | cons x es ih =>
    obtain ⟨ns, e'⟩ := x
    by_cases hns : ns = names'
    · subst hns
      rw [update, if_pos rfl, lookup, lookup]
      split <;> rfl
    · rw [update, if_neg hns, lookup, ih, lookup]
      by_cases hn : ns = names
      · rw [if_pos hn, if_pos hn, if_neg fun h => hns (hn.trans h.symm)]
      · rw [if_neg hn, if_neg hn]

theorem entry?_inside {fs : FileSystem} {names : List Text} (h : names ≠ []) :
    fs.entry? (.inside names) = lookup names fs.entries := by
  cases names with
  | nil => exact absurd rfl h
  | cons n ns => rfl

theorem entry?_put {fs fs' : FileSystem} {e : Entry} {p : Place} (h : fs.put e p = .ok fs')
    (hp : fs.entry? p ≠ some .directory) : fs'.entry? p = some e ∧ ∀ q, q ≠ p → fs'.entry? q = fs.entry? q := by
  cases p with
  | outside names => cases h
  | inside names =>
    obtain rfl := Except.ok.inj h
    have hne : names ≠ [] := by
      rintro rfl
      exact hp rfl
    constructor
    · rw [entry?_inside hne, lookup_update, if_pos rfl]
    · intro q hq
      cases q with
      | outside names' => rfl
      | inside names' =>
        by_cases hne' : names' = []
        · rw [hne']
          rfl
        · have hother : names ≠ names' := by
            rintro rfl
            exact hq rfl
          rw [entry?_inside hne', entry?_inside hne', lookup_update, if_neg hother]

/-! ## Writing -/

/-- There is a file at a place, or nothing. -/
def Writable (fs : FileSystem) (p : Place) : Prop := fs.entry? p = none ∨ ∃ old, fs.entry? p = some (.file old)

theorem Writable.not_directory {fs : FileSystem} {p : Place} (h : fs.Writable p) : fs.entry? p ≠ some .directory := by
  intro hdir
  rcases h with h | ⟨old, h⟩
  · rw [h] at hdir
    cases hdir
  · rw [h] at hdir
    cases hdir

/-- What differs between two states of files if a file at a place got new content. -/
structure Puts (fs fs' : FileSystem) (p : Place) (content : Bytes) : Prop where
  writable : fs.Writable p
  entry : fs'.entry? p = some (.file content)
  others : ∀ q, q ≠ p → fs'.entry? q = fs.entry? q

/-- Only the device that is always full can take content without keeping it, and only if there is none. -/
theorem write_eq_ok {fs fs' : FileSystem} {path : Text} {content : Bytes} (h : fs.write path content = .ok fs') :
    ∃ p, fs.target path = .ok p ∧ (fs.Puts fs' p content ∨ fs.entry? p = some .fullDevice ∧ fs' = fs) := by
  unfold write at h
  split at h
  · cases h
  · next p htarget =>
    refine ⟨p, htarget, ?_⟩
    split at h
    · cases h
    · next hdevice =>
      split at h
      · exact .inr ⟨hdevice, (Except.ok.inj h).symm⟩
      · cases h
    · next hdir hdevice =>
      have hwritable : fs.Writable p := by
        cases hentry : fs.entry? p with
        | none => exact .inl hentry
        | some e =>
          cases e with
          | file old => exact .inr ⟨old, hentry⟩
          | directory => exact absurd hentry hdir
          | fullDevice => exact absurd hentry hdevice
      obtain ⟨hnew, hothers⟩ := entry?_put h hwritable.not_directory
      exact .inl ⟨hwritable, hnew, hothers⟩

/-! ## Paths behind a write -/

theorem Puts.directory {fs fs' : FileSystem} {p q : Place} {content : Bytes} (h : fs.Puts fs' p content)
    (hq : fs.entry? q = some .directory) : fs'.entry? q = some .directory := by
  have hne : q ≠ p := by
    rintro rfl
    exact h.writable.not_directory hq
  rw [h.others q hne, hq]

theorem Puts.enter {fs fs' : FileSystem} {p q r : Place} {name : Text} {content : Bytes} (h : fs.Puts fs' p content)
    (hq : fs.enter q name = .ok r) : fs'.enter q name = .ok r := by
  unfold FileSystem.enter at hq ⊢
  split at hq
  · cases hq
  · next hdir =>
    rw [h.directory hdir]
    exact hq
  · cases hq

theorem Puts.follow {fs fs' : FileSystem} {p q r : Place} {names : List Text} {content : Bytes} (h : fs.Puts fs' p content)
    (hq : fs.follow q names = .ok r) : fs'.follow q names = .ok r := by
  induction names generalizing q with
  | nil => exact hq
  | cons name names ih =>
    rw [FileSystem.follow] at hq
    split at hq
    · next q' hstep =>
      rw [FileSystem.follow, h.enter hstep]
      exact ih hq
    · cases hq

theorem Puts.resolve {fs fs' : FileSystem} {p r : Place} {path : Text} {names : List Text} {content : Bytes}
    (h : fs.Puts fs' p content) (hq : fs.resolve path names = .ok r) : fs'.resolve path names = .ok r := by
  unfold FileSystem.resolve at hq ⊢
  split at hq
  · cases hq
  · next hzero =>
    split at hq
    · cases hq
    · next hempty =>
      split at hq
      · cases hq
      · next hlong =>
        rw [if_neg hzero, if_neg hempty, if_neg hlong]
        exact h.follow hq

theorem target_eq_ok {fs : FileSystem} {path : Text} {p : Place} (h : fs.target path = .ok p) :
    asksForDirectory path = false ∧ fs.resolve path (pathNames path) = .ok p := by
  unfold target at h
  split at h
  · split at h
    · cases h
    · cases h
  · next hask => exact ⟨by simpa using hask, h⟩

theorem target_of_resolve {fs : FileSystem} {path : Text} {p : Place} (hask : asksForDirectory path = false)
    (h : fs.resolve path (pathNames path) = .ok p) : fs.target path = .ok p := by
  rw [target, hask]
  exact h

/-- A path that leads to a file leads there still when the file has new content. -/
theorem Puts.target {fs fs' : FileSystem} {p r : Place} {path : Text} {content : Bytes} (h : fs.Puts fs' p content)
    (hr : fs.target path = .ok r) : fs'.target path = .ok r := by
  obtain ⟨hask, hresolve⟩ := target_eq_ok hr
  exact target_of_resolve hask (h.resolve hresolve)

/-! ## Reading -/

theorem read_of_target {fs : FileSystem} {path : Text} {p : Place} {content : Bytes} (h : fs.target path = .ok p)
    (hentry : fs.entry? p = some (.file content)) : fs.read path = .ok content := by
  obtain ⟨hask, hresolve⟩ := target_eq_ok h
  have hnames : (pathNames path ++ if asksForDirectory path = true then [['.']] else []) = pathNames path := by
    rw [hask]
    exact List.append_nil _
  rw [read, hnames, hresolve]
  simp only [hentry]

theorem Puts.read {fs fs' : FileSystem} {p : Place} {path : Text} {content : Bytes} (h : fs.Puts fs' p content)
    (hp : fs.target path = .ok p) : fs'.read path = .ok content :=
  read_of_target (h.target hp) h.entry

end FileSystem

namespace Document

theorem load_of_read {fs : FileSystem} {path t : Text} (h : fs.read path = .ok (Utf8.encode t)) :
    load fs path = parse path t := by
  rw [load, h, ofRead, Utf8.decode_encode]

end Document
end BackendSwitch
