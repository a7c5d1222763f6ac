import BackendSwitch.Proofs.System
import BackendSwitch.Program

/-! # What a run of the program comes to

The program interleaves the switch of a file with announcements and log messages. Whatever it tells, and on whatever system
it runs, it leaves the system as the switch alone does, and its status, its output and its report follow from how far the
switch came. -/
namespace BackendSwitch
set_option autoImplicit false

variable {σ : Type}

namespace Program

/-! ## Running on a system -/

/-- What a finished run leaves behind on a system. -/
structure Finished (σ : Type) where
  exitCode : Nat
  output : Text
  errors : Text
  state : σ

namespace Finished

/-- A run that has told something before. -/
def behind (output errors : Text) (r : Finished σ) : Finished σ :=
  { r with output := output ++ r.output, errors := errors ++ r.errors }

theorem behind_behind (output output' errors errors' : Text) (r : Finished σ) :
    (r.behind output' errors').behind output errors = r.behind (output ++ output') (errors ++ errors') := by
  simp [behind]

def onFiles (r : Finished FileSystem) : Result := ⟨r.exitCode, r.output, r.errors, r.state⟩

end Finished

def carryOut (sys : System σ) : Program → σ → Finished σ
  | exit code, s => ⟨code, [], [], s⟩
  | print t next, s => (carryOut sys next s).behind t []
  | report t next, s => (carryOut sys next s).behind [] t
  | read path next, s => carryOut sys (next (sys.read path s)) s
  | write path content next, s =>
    match sys.write path content s with
    | (result, s') => carryOut sys (next result) s'

/-- Running on files and directories is running on their system. -/
theorem execute_eq (p : Program) (fs : FileSystem) : p.execute fs = (p.carryOut FileSystem.system fs).onFiles := by
  induction p generalizing fs with
  | exit code => rfl
  | print t next ih => rw [execute, ih]; rfl
  | report t next ih => rw [execute, ih]; rfl
  | read path next ih => rw [execute, ih]; rfl
  | write path content next ih =>
    rw [execute, carryOut, FileSystem.write_system]
    cases fs.write path content with
    | ok fs' => exact ih _ fs'
    | error e => exact ih _ fs

namespace Setup

/-! ## What is told -/

def logText (es : List LogEvent) : Text := es.flatMap LogEvent.line

theorem logText_append (es fs : List LogEvent) : logText (es ++ fs) = logText es ++ logText fs := List.flatMap_append

/-- An announcement with its line end, unless the run is quiet. -/
def announced (s : Setup) (t : Text) : Text := if s.arguments.quiet then [] else t ++ ['\n']

/-- The announcements of a switch. -/
def outcomeText (s : Setup) (o : Outcome) : Text :=
  (if o.removedExisting then s.announced "Removed existing backend block".toList else [])
    ++ s.announced o.mode.announcement

theorem outcomeText_eq (s : Setup) (o : Outcome) : s.outcomeText o =
    if s.arguments.quiet then []
    else (if o.removedExisting then "Removed existing backend block\n".toList else []) ++
      (o.mode.announcement ++ ['\n']) := by
  unfold outcomeText announced
  cases s.arguments.quiet with
  | true => simp
  | false => cases o.removedExisting <;> rfl

def savedText (s : Setup) : Text :=
  s.announced ("Successfully updated ".toList ++ s.arguments.file ++ " for ".toList ++ s.arguments.mode.name
    ++ " backend".toList)

theorem savedText_eq (s : Setup) : s.savedText =
    if s.arguments.quiet then []
    else "Successfully updated ".toList ++ s.arguments.file ++ " for ".toList ++ s.arguments.mode.name
      ++ " backend\n".toList := by
  have hline : " backend\n".toList = " backend".toList ++ ['\n'] := rfl
  rw [hline, ← List.append_assoc]
  rfl

/-- The error of the system that a failure to read or to write comes from. -/
def causeText : Failure → Text
  | .read _ cause _ => "\nCaused by:\n  0: ".toList ++ cause.message ++ ['\n']
  | .write _ cause _ => "\nCaused by:\n  0: ".toList ++ cause.message ++ ['\n']
  | _ => []

theorem errorText_eq (f : Failure) : errorText f = "Error: ".toList ++ f.message ++ ['\n'] ++ causeText f := by
  cases f <;> rfl

variable (sys : System σ) (st : σ)

theorem carryOut_log (s : Setup) (e : LogEvent) (next : Program) :
    ∃ logs, (s.log e next).carryOut sys st = (next.carryOut sys st).behind [] (logText logs) := by
  unfold log
  split
  · refine ⟨[e], ?_⟩
    rw [carryOut, logText, List.flatMap_singleton]
  · exact ⟨[], rfl⟩

theorem carryOut_announce (s : Setup) (t : Text) (next : Program) :
    (s.announce t next).carryOut sys st = (next.carryOut sys st).behind (s.announced t) [] := by
  unfold announce announced
  split <;> rfl

theorem carryOut_announceOutcome (s : Setup) (o : Outcome) (next : Program) :
    (s.announceOutcome o next).carryOut sys st = (next.carryOut sys st).behind (s.outcomeText o) [] := by
  unfold announceOutcome outcomeText
  split
  · rw [carryOut_announce, carryOut_announce, Finished.behind_behind]
    rfl
  · rw [carryOut_announce]
    rfl

theorem carryOut_logOutcome (s : Setup) (path : Text) (o : Outcome) (next : Program) :
    ∃ logs, (s.logOutcome path o next).carryOut sys st = (next.carryOut sys st).behind [] (logText logs) := by
  obtain ⟨logs, hlogs⟩ := carryOut_log sys st s (.switched path o.mode) next
  unfold logOutcome
  split
  · exact ⟨logs, hlogs⟩
  · next label _ =>
    obtain ⟨logs', hlogs'⟩ := carryOut_log sys st s (.removed path label) (s.log (.switched path o.mode) next)
    refine ⟨logs' ++ logs, ?_⟩
    rw [hlogs', hlogs, Finished.behind_behind, logText_append]
    rfl

end Setup

/-! ## How a run ends -/

open Setup

/-- A finished run with its status, its output and the state it left, and with log messages around its error report. -/
structure Finished.Ends (r : Finished σ) (code : Nat) (output report : Text) (state : σ) : Prop where
  exitCode : r.exitCode = code
  output : r.output = output
  errors : ∃ logs logs', r.errors = logText logs ++ (report ++ logText logs')
  state : r.state = state

theorem Finished.Ends.behind {r : Finished σ} {code : Nat} {output report : Text} {state : σ}
    (h : r.Ends code output report state) (before : Text) (logs : List LogEvent) :
    (r.behind before (logText logs)).Ends code (before ++ output) report state := by
  obtain ⟨hcode, houtput, ⟨es, fs, herrors⟩, hstate⟩ := h
  refine ⟨hcode, ?_, ⟨logs ++ es, fs, ?_⟩, hstate⟩
  · rw [Finished.behind, houtput]
  · rw [Finished.behind, herrors, logText_append, List.append_assoc]

namespace Setup

variable {sys : System σ} {st : σ}

theorem ends_exit (code : Nat) : ((exit code).carryOut sys st).Ends code [] [] st :=
  ⟨rfl, rfl, ⟨[], [], rfl⟩, rfl⟩

theorem ends_log {s : Setup} {e : LogEvent} {next : Program} {code : Nat} {output report : Text} {state : σ}
    (h : (next.carryOut sys st).Ends code output report state) :
    ((s.log e next).carryOut sys st).Ends code output report state := by
  obtain ⟨logs, hlogs⟩ := carryOut_log sys st s e next
  rw [hlogs]
  exact h.behind [] logs

theorem ends_announce {s : Setup} {t : Text} {next : Program} {code : Nat} {output report : Text} {state : σ}
    (h : (next.carryOut sys st).Ends code output report state) :
    ((s.announce t next).carryOut sys st).Ends code (s.announced t ++ output) report state := by
  rw [carryOut_announce]
  exact h.behind (s.announced t) []

theorem ends_fail (s : Setup) (f : Failure) :
    ((s.fail f).carryOut sys st).Ends f.exitCode [] (errorText f) st := by
  have hrest : ((if f.fileUntouched then s.log (.untouched s.arguments.file) (.exit f.exitCode)
      else .exit f.exitCode : Program).carryOut sys st).Ends f.exitCode [] [] st := by
    split
    · exact ends_log (ends_exit _)
    · exact ends_exit _
  apply ends_log
  obtain ⟨hcode, houtput, ⟨es, fs, herrors⟩, hstate⟩ := hrest
  refine ⟨hcode, houtput, ⟨[], es ++ fs, ?_⟩, hstate⟩
  rw [carryOut, Finished.behind, herrors, logText_append]
  rfl

theorem ends_save_ok {s : Setup} {d : Document} {st' : σ} (h : sys.save d st = (.ok (), st')) :
    ((s.save d).carryOut sys st).Ends 0 s.savedText [] st' := by
  unfold System.save at h
  unfold Setup.save
  rw [carryOut]
  split at h
  · next hwrite =>
    obtain ⟨-, rfl⟩ := Prod.mk.inj h
    rw [hwrite]
    apply ends_log
    rw [← List.append_nil s.savedText]
    exact ends_announce (ends_exit 0)
  · cases h

theorem ends_save_error {s : Setup} {d : Document} {f : Failure} {st' : σ} (h : sys.save d st = (.error f, st')) :
    ((s.save d).carryOut sys st).Ends f.exitCode [] (errorText f) st' := by
  unfold System.save at h
  unfold Setup.save
  rw [carryOut]
  split at h
  · cases h
  · next hwrite =>
    obtain ⟨hf, rfl⟩ := Prod.mk.inj h
    rw [hwrite, ← Except.error.inj hf]
    exact ends_fail s _

theorem ends_switch_error {s : Setup} {d : Document} {f : Failure}
    (h : d.switch s.arguments.mode .standard = .error f) :
    ((s.switch d).carryOut sys st).Ends f.exitCode [] (errorText f) st := by
  unfold Setup.switch
  rw [h]
  apply ends_log
  exact ends_fail s f

theorem ends_switch_ok {s : Setup} {d d' : Document} {o : Outcome} {code : Nat} {output report : Text} {state : σ}
    (h : d.switch s.arguments.mode .standard = .ok (o, d'))
    (hsave : ((s.save d').carryOut sys st).Ends code output report state) :
    ((s.switch d).carryOut sys st).Ends code (s.outcomeText o ++ output) report state := by
  obtain ⟨logs, hlogs⟩ := carryOut_logOutcome sys st s d.path o (s.announceOutcome o (s.save d'))
  have htold := hsave.behind (s.outcomeText o) logs
  unfold Setup.switch
  rw [h]
  apply ends_log
  simp only [hlogs, carryOut_announceOutcome, Finished.behind_behind, List.nil_append, List.append_nil]
  exact htold

theorem ends_read_error {s : Setup} {f : Failure}
    (h : Document.ofRead s.arguments.file (sys.read s.arguments.file st) = .error f) :
    (s.run.carryOut sys st).Ends f.exitCode [] (errorText f) st := by
  apply ends_log
  rw [carryOut, h]
  exact ends_fail s f

theorem ends_read_ok {s : Setup} {d : Document} {code : Nat} {output report : Text} {state : σ}
    (h : Document.ofRead s.arguments.file (sys.read s.arguments.file st) = .ok d)
    (hswitch : ((s.switch d).carryOut sys st).Ends code output report state) :
    (s.run.carryOut sys st).Ends code output report state := by
  apply ends_log
  rw [carryOut, h]
  exact hswitch

/-! ## How a run ends follows from how far the switch of the file came -/

theorem ends_run_of_edit_error {s : Setup} {f : Failure} (h : sys.edit s.arguments.mode s.arguments.file st = .error f) :
    (s.run.carryOut sys st).Ends f.exitCode [] (errorText f) st := by
  unfold System.edit at h
  split at h
  · next hread =>
    rw [← Except.error.inj h]
    exact ends_read_error hread
  · next hread => exact ends_read_ok hread (ends_switch_error h)

theorem ends_run_of_edit_ok {s : Setup} {o : Outcome} {d : Document} {code : Nat} {output report : Text} {state : σ}
    (h : sys.edit s.arguments.mode s.arguments.file st = .ok (o, d))
    (hsave : ((s.save d).carryOut sys st).Ends code output report state) :
    (s.run.carryOut sys st).Ends code (s.outcomeText o ++ output) report state := by
  unfold System.edit at h
  split at h
  · cases h
  · next hread => exact ends_read_ok hread (ends_switch_ok h hsave)

end Setup

/-- A run that ends by a failure has its status and reports it. -/
theorem Finished.Ends.failed {r : Finished σ} {f : Failure} {output : Text} {state : σ}
    (h : r.Ends f.exitCode output (errorText f) state) :
    (r.exitCode = 0 ↔ ∃ o, (.error f : Except Failure Outcome) = .ok o) ∧
    ∀ f', (.error f : Except Failure Outcome) = .error f' →
      r.exitCode = f'.exitCode ∧ f'.exitCode ≠ 0 ∧ ∃ logs logs', r.errors =
        logText logs ++ ("Error: ".toList ++ f'.message ++ ['\n'] ++ causeText f' ++ logText logs') := by
  obtain ⟨hcode, -, herrors, -⟩ := h
  have hne : f.exitCode ≠ 0 := Nat.ne_of_gt f.exitCode_pos
  constructor
  · rw [hcode]
    exact iff_of_false hne fun ⟨o, h⟩ => by cases h
  · intro f' hf
    obtain rfl := Except.error.inj hf
    rw [errorText_eq] at herrors
    exact ⟨hcode, hne, herrors⟩

/-! ## The command line and the switch of a file -/

/-- For an accepted argument list the program leaves the system as the switch alone does, whatever the verbosity, with the
status of the switch, its error on the error output, and its announcements on the other one. Refusing an argument list
changes nothing. -/
theorem carryOut_ofArguments (sys : System σ) (args : List Text) (setting : Option Text) (st : σ) :
    (∀ a, CommandLine.parse args = .ok a →
      ((ofArguments args setting).carryOut sys st).state = (sys.switch a.mode a.file st).2 ∧
      (((ofArguments args setting).carryOut sys st).exitCode = 0 ↔ ∃ o, (sys.switch a.mode a.file st).1 = .ok o) ∧
      (∀ f, (sys.switch a.mode a.file st).1 = .error f →
        ((ofArguments args setting).carryOut sys st).exitCode = f.exitCode ∧ f.exitCode ≠ 0 ∧
        ∃ logs logs', ((ofArguments args setting).carryOut sys st).errors =
          logText logs ++ ("Error: ".toList ++ f.message ++ ['\n'] ++ causeText f ++ logText logs')) ∧
      ((ofArguments args setting).carryOut sys st).output =
        if a.quiet then []
        else
          (match sys.edit a.mode a.file st with
            | .error _ => []
            | .ok (o, _) =>
              (if o.removedExisting then "Removed existing backend block\n".toList else [])
                ++ (a.mode.announcement ++ ['\n'])) ++
          (match (sys.switch a.mode a.file st).1 with
            | .error _ => []
            | .ok _ => "Successfully updated ".toList ++ a.file ++ " for ".toList ++ a.mode.name ++ " backend\n".toList)) ∧
    (∀ refusal, CommandLine.parse args = .error refusal → refusal.isAnswer = false →
      ((ofArguments args setting).carryOut sys st).exitCode = 2 ∧
      ((ofArguments args setting).carryOut sys st).state = st) := by
  constructor
  · intro a ha
    have hprogram : ofArguments args setting = Setup.run ⟨a, .choose a.quiet a.verbosity setting⟩ := by
      rw [ofArguments, ha]
    rw [hprogram]
    generalize hs : (Setup.mk a (.choose a.quiet a.verbosity setting)) = s
    obtain rfl : s.arguments = a := by rw [← hs]
    cases hedit : sys.edit s.arguments.mode s.arguments.file st with
    | error f =>
      have hends := ends_run_of_edit_error hedit
      have hswitch : sys.switch s.arguments.mode s.arguments.file st = (.error f, st) := by rw [System.switch, hedit]
      rw [hswitch]
      refine ⟨hends.state, hends.failed.1, hends.failed.2, ?_⟩
      rw [hends.output]
      split <;> rfl
    | ok x =>
      obtain ⟨o, d⟩ := x
      have hmode : o.mode = s.arguments.mode := (System.edit_path hedit).2
      cases hsave : sys.save d st with
      | mk result st' =>
        cases result with
        | error f =>
          have hends := ends_run_of_edit_ok hedit (ends_save_error hsave)
          have hswitch : sys.switch s.arguments.mode s.arguments.file st = (.error f, st') := by
            simp only [System.switch, hedit, hsave]
          rw [hswitch]
          refine ⟨hends.state, hends.failed.1, hends.failed.2, ?_⟩
          rw [hends.output, outcomeText_eq, hmode]
          split <;> rfl
        | ok u =>
          obtain ⟨hcode, houtput, -, hstate⟩ := ends_run_of_edit_ok hedit (ends_save_ok hsave)
          have hswitch : sys.switch s.arguments.mode s.arguments.file st = (.ok o, st') := by
            simp only [System.switch, hedit, hsave]
          rw [hswitch]
          refine ⟨hstate, iff_of_true hcode ⟨o, rfl⟩, fun f hf => (by cases hf), ?_⟩
          rw [houtput, outcomeText_eq, savedText_eq, hmode]
          split <;> rfl
  · intro refusal hrefusal hanswer
    have hprogram : ofArguments args setting = .report refusal.message (.exit refusal.exitCode) := by
      rw [ofArguments, hrefusal]
      simp [hanswer]
    rw [hprogram]
    refine ⟨?_, rfl⟩
    show refusal.exitCode = 2
    rw [CommandLine.Refusal.exitCode, hanswer]
    rfl

end Program
end BackendSwitch
