import BackendSwitch.CommandLine.Basic

/-! # What an argument list asks for

Arguments are taken from left to right, and the first wrong one ends it. Which lists are accepted, and what they ask for,
can be told without that order: by the values as they follow each other, and by how often each flag is set. -/
namespace BackendSwitch.CommandLine
set_option autoImplicit false

/-! ## Values and options -/

/-- The argument behind which every other one is a value. -/
def separator : Text := ['-', '-']

/-- Whether an argument in front of the separator is a value: a hyphen alone is one. -/
def isValue (t : Text) : Bool := t.head? != some '-' || t == ['-']

/-- The values of an argument list, in order. -/
def valuesOf (args : List Text) : List Text :=
  (args.takeWhile (· != separator)).filter isValue ++ (args.dropWhile (· != separator)).tail

/-- The other arguments in front of the separator, in order. -/
def optionsOf (args : List Text) : List Text := (args.takeWhile (· != separator)).filter fun t => !isValue t

/-- The letters of the flags that may be given. -/
def isLetter (c : Char) : Bool := c == 'v' || c == 'q'

def flagOfLetter (c : Char) : Flag := if c = 'v' then .verbose else .quiet

/-- Whether an option sets flags: it is the name of one, or a hyphen with letters behind it. -/
def setsFlags (t : Text) : Bool :=
  t == "--verbose".toList || t == "--quiet".toList || (t.head? == some '-' && !t.tail.isEmpty && t.tail.all isLetter)

/-- The flags that an option sets. -/
def flagsOf (t : Text) : List Flag :=
  if t = "--verbose".toList then [.verbose]
  else if t = "--quiet".toList then [.quiet]
  else t.tail.map flagOfLetter

/-- The flags that are set by an argument list. -/
def flagsIn (args : List Text) : List Flag := (optionsOf args).flatMap flagsOf

/-- What an argument list asks for. -/
structure AsksFor (args : List Text) (a : Arguments) : Prop where
  options : ∀ t ∈ optionsOf args, setsFlags t = true
  values : ∃ m, valuesOf args = [a.file, m] ∧ Mode.ofName? m = some a.mode
  file : a.file ≠ []
  verbosity : a.verbosity = min 255 ((flagsIn args).count .verbose)
  quietOnce : (flagsIn args).count .quiet ≤ 1
  quiet : a.quiet = true ↔ Flag.quiet ∈ flagsIn args

section

variable {t : Text} {args front : List Text}

theorem valuesOf_separator : valuesOf (separator :: args) = args := rfl

theorem optionsOf_separator : optionsOf (separator :: args) = [] := rfl

theorem valuesOf_cons (h : t ≠ separator) :
    valuesOf (t :: args) = if isValue t then t :: valuesOf args else valuesOf args := by
  cases hvalue : isValue t <;> simp [valuesOf, h, hvalue]

theorem optionsOf_cons (h : t ≠ separator) :
    optionsOf (t :: args) = if isValue t then optionsOf args else t :: optionsOf args := by
  cases hvalue : isValue t <;> simp [optionsOf, h, hvalue]

theorem valuesOf_append (h : separator ∉ front) : valuesOf (front ++ args) = front.filter isValue ++ valuesOf args := by
  induction front with
  | nil => rfl
  | cons t front ih =>
    obtain ⟨ht, hfront⟩ := List.ne_and_not_mem_of_not_mem_cons h
    rw [List.cons_append, valuesOf_cons ht.symm, ih hfront, List.filter_cons]
    split <;> rfl

theorem optionsOf_append (h : separator ∉ front) :
    optionsOf (front ++ args) = front.filter (fun t => !isValue t) ++ optionsOf args := by
  induction front with
  | nil => rfl
  | cons t front ih =>
    obtain ⟨ht, hfront⟩ := List.ne_and_not_mem_of_not_mem_cons h
    rw [List.cons_append, optionsOf_cons ht.symm, ih hfront, List.filter_cons]
    cases isValue t <;> rfl

theorem flagsIn_cons_of_value (h : t ≠ separator) (hvalue : isValue t = true) : flagsIn (t :: args) = flagsIn args := by
  rw [flagsIn, optionsOf_cons h, if_pos hvalue, flagsIn]

theorem flagsIn_cons_of_option (h : t ≠ separator) (hvalue : isValue t = false) :
    flagsIn (t :: args) = flagsOf t ++ flagsIn args := by
  rw [flagsIn, optionsOf_cons h, hvalue]
  rfl

/-! ## Clusters of letters -/

variable {letters : Text}

theorem isValue_cluster (hne : letters ≠ []) : isValue ('-' :: letters) = false := by simp [isValue, hne]

theorem setsFlags_cluster (hne : letters ≠ []) (h : letters.head? ≠ some '-') :
    setsFlags ('-' :: letters) = letters.all isLetter := by
  cases letters with
  | nil => exact absurd rfl hne
  | cons c cs =>
    have hc : c ≠ '-' := by simpa using h
    simp [setsFlags, hc]

theorem setsFlags_named {name : Text} :
    setsFlags ('-' :: '-' :: name) = true ↔ name = Flag.verbose.name ∨ name = Flag.quiet.name := by
  have hverbose : "--verbose".toList = '-' :: '-' :: Flag.verbose.name := rfl
  have hquiet : "--quiet".toList = '-' :: '-' :: Flag.quiet.name := rfl
  rw [setsFlags, hverbose, hquiet]
  simp [isLetter]

theorem flagsOf_cluster (h : letters.head? ≠ some '-') : flagsOf ('-' :: letters) = letters.map flagOfLetter := by
  cases letters with
  | nil => rfl
  | cons c cs =>
    have hc : c ≠ '-' := by simpa using h
    simp [flagsOf, hc]

end

namespace Progress

/-! ## Steps -/

variable {p p' : Progress} {t : Text} {vs : List Text} {f : Flag} {fs : List Flag} {a : Arguments} {short : Bool}

theorem value_eq_ok_iff : p.value t = .ok p' ↔
    p.file = none ∧ p' = { p with file := some t } ∨
    p.file ≠ none ∧ p.mode = none ∧ p.check = .ok () ∧ p' = { p with mode := some t } := by
  unfold value
  cases p.file with
  | none => simp [eq_comm]
  | some file =>
    cases p.mode with
    | none => cases p.check <;> simp [eq_comm]
    | some m => simp

theorem flag_eq_ok_iff : p.flag short f = .ok p' ↔ p.check = .ok () ∧
    (f = .verbose ∧ p' = { p with verbosity := min 255 (p.verbosity + 1), given := moveLast .verbose p.given } ∨
      f = .quiet ∧ p.quiet = false ∧ p' = { p with quiet := true, given := moveLast .quiet p.given }) := by
  unfold flag
  cases p.check with
  | error e => simp
  | ok u =>
    cases f with
    | verbose => simpa [maxVerbosity] using eq_comm
    | quiet => cases p.quiet <;> simp [eq_comm]
    | help => simp
    | version => simp

/-! ## What is still to come -/

/-- Every value stands in its place, and no more is counted than counts. -/
structure Sound (p : Progress) : Prop where
  ordered : p.file = none → p.mode = none
  bounded : p.verbosity ≤ 255

/-- What has been read, with some values and flags still to come, asks for the given arguments. -/
structure Completes (p : Progress) (values : List Text) (flags : List Flag) (a : Arguments) : Prop where
  values : ∃ m, p.file.toList ++ (p.mode.toList ++ values) = [a.file, m] ∧ Mode.ofName? m = some a.mode
  file : a.file ≠ []
  verbosity : a.verbosity = min 255 (p.verbosity + flags.count .verbose)
  quietOnce : p.quiet.toNat + flags.count .quiet ≤ 1
  quiet : a.quiet = true ↔ p.quiet = true ∨ Flag.quiet ∈ flags

theorem sound_start : start.Sound := ⟨fun _ => rfl, by decide⟩

theorem Sound.value (hp : p.Sound) (h : p.value t = .ok p') : p'.Sound := by
  rcases value_eq_ok_iff.mp h with ⟨-, rfl⟩ | ⟨hfile, -, -, rfl⟩
  · exact ⟨fun h => (by cases h), hp.bounded⟩
  · exact ⟨fun h => absurd h hfile, hp.bounded⟩

theorem Sound.flag (hp : p.Sound) (h : p.flag short f = .ok p') : p'.Sound := by
  obtain ⟨-, ⟨-, rfl⟩ | ⟨-, -, rfl⟩⟩ := flag_eq_ok_iff.mp h
  · exact ⟨hp.ordered, Nat.min_le_left ..⟩
  · exact ⟨hp.ordered, hp.bounded⟩

/-- The checks on the way refuse nothing that could still be completed. -/
theorem Completes.check (h : p.Completes vs fs a) (hp : p.Sound) : p.check = .ok () := by
  obtain ⟨m, hvalues, hmode⟩ := h.values
  unfold Progress.check
  cases hfile : p.file with
  | none => simp [hp.ordered hfile]
  | some file =>
    rw [hfile, Option.toList_some, List.singleton_append, List.cons.injEq] at hvalues
    obtain ⟨rfl, hrest⟩ := hvalues
    rw [if_neg (by simpa using h.file)]
    cases hm : p.mode with
    | none => rfl
    | some m' =>
      rw [hm, Option.toList_some, List.singleton_append, List.cons.injEq] at hrest
      simp [hrest.1, hmode]

theorem completes_value (hp : p.Sound) :
    (∃ p', p.value t = .ok p' ∧ p'.Completes vs fs a) ↔ p.Completes (t :: vs) fs a := by
  simp only [value_eq_ok_iff]
  constructor
  · rintro ⟨_, ⟨hfile, rfl⟩ | ⟨hfile, hmode, -, rfl⟩, h⟩
    · have hmode := hp.ordered hfile
      exact ⟨by simpa [hfile, hmode] using h.values, h.file, h.verbosity, h.quietOnce, h.quiet⟩
    · exact ⟨by simpa [hmode] using h.values, h.file, h.verbosity, h.quietOnce, h.quiet⟩
  · intro h
    cases hfile : p.file with
    | none =>
      have hmode := hp.ordered hfile
      exact ⟨_, .inl ⟨rfl, rfl⟩, by simpa [hfile, hmode] using h.values, h.file, h.verbosity, h.quietOnce, h.quiet⟩
    | some file =>
      have hmode : p.mode = none := by
        obtain ⟨m', hvalues, -⟩ := h.values
        cases hm : p.mode with
        | none => rfl
        | some m => simp [hfile, hm] at hvalues
      exact ⟨_, .inr ⟨by simp, hmode, h.check hp, rfl⟩, by simpa [hfile, hmode] using h.values, h.file, h.verbosity,
        h.quietOnce, h.quiet⟩

theorem completes_flag (hp : p.Sound) : (∃ p', p.flag short f = .ok p' ∧ p'.Completes vs fs a) ↔
    (f = .verbose ∨ f = .quiet) ∧ p.Completes vs (f :: fs) a := by
  have hcount : min 255 (min 255 (p.verbosity + 1) + fs.count .verbose) =
      min 255 (p.verbosity + (Flag.verbose :: fs).count .verbose) := by
    rw [List.count_cons_self]
    omega
  simp only [flag_eq_ok_iff]
  constructor
  · rintro ⟨_, ⟨-, ⟨rfl, rfl⟩ | ⟨rfl, hquiet, rfl⟩⟩, h⟩
    · exact ⟨.inl rfl, h.values, h.file, hcount ▸ h.verbosity, by simpa using h.quietOnce, by simpa using h.quiet⟩
    · have honce := h.quietOnce
      simp only [Bool.toNat_true] at honce
      exact ⟨.inr rfl, h.values, h.file, by simpa using h.verbosity, by simp [hquiet]; omega, by simpa using h.quiet⟩
  · rintro ⟨rfl | rfl, h⟩
    · exact ⟨_, ⟨h.check hp, .inl ⟨rfl, rfl⟩⟩, h.values, h.file, hcount ▸ h.verbosity, by simpa using h.quietOnce,
        by simpa using h.quiet⟩
    · have honce := h.quietOnce
      rw [List.count_cons_self] at honce
      have hquiet : p.quiet = false := by
        cases hq : p.quiet with
        | false => rfl
        | true =>
          rw [hq, Bool.toNat_true] at honce
          omega
      exact ⟨_, ⟨h.check hp, .inr ⟨rfl, hquiet, rfl⟩⟩, h.values, h.file, by simpa using h.verbosity,
        by simp; omega, by simpa using h.quiet⟩

/-! ## Clusters and names -/

theorem cluster_cons_eq_ok_iff {c : Char} {cs : Text} : p.cluster (c :: cs) = .ok p' ↔
    ∃ f q, Flag.ofChar? c = some f ∧ p.flag true f = .ok q ∧ q.cluster cs = .ok p' := by
  rw [cluster]
  cases Flag.ofChar? c with
  | none => simp
  | some f => cases hflag : p.flag true f <;> simp [hflag]

theorem Sound.cluster {cs : Text} (hp : p.Sound) (h : p.cluster cs = .ok p') : p'.Sound := by
  induction cs generalizing p with
  | nil =>
    cases h
    exact hp
  | cons c cs ih =>
    obtain ⟨f, q, -, hflag, hrest⟩ := cluster_cons_eq_ok_iff.mp h
    exact ih (hp.flag hflag) hrest

theorem ofChar?_iff {c : Char} :
    Flag.ofChar? c = some f ∧ (f = .verbose ∨ f = .quiet) ↔ isLetter c = true ∧ f = flagOfLetter c := by
  unfold Flag.ofChar? isLetter flagOfLetter
  by_cases hv : c = 'v'
  · cases f <;> simp [hv]
  by_cases hq : c = 'q'
  · cases f <;> simp [hq]
  by_cases hh : c = 'h'
  · cases f <;> simp [hh]
  by_cases hV : c = 'V'
  · cases f <;> simp [hV]
  simp [hv, hq, hh, hV]

theorem completes_cluster {cs : Text} (hp : p.Sound) : (∃ p', p.cluster cs = .ok p' ∧ p'.Completes vs fs a) ↔
    cs.all isLetter = true ∧ p.Completes vs (cs.map flagOfLetter ++ fs) a := by
  induction cs generalizing p with
  | nil => simp [cluster]
  | cons c cs ih =>
    constructor
    · rintro ⟨p', hread, h⟩
      obtain ⟨f, q, hchar, hflag, hrest⟩ := cluster_cons_eq_ok_iff.mp hread
      obtain ⟨hall, hq⟩ := (ih (hp.flag hflag)).mp ⟨p', hrest, h⟩
      obtain ⟨hf, hcompletes⟩ := (completes_flag hp).mp ⟨q, hflag, hq⟩
      obtain ⟨hletter, rfl⟩ := ofChar?_iff.mp ⟨hchar, hf⟩
      exact ⟨by rw [List.all_cons, hletter, hall]; rfl, hcompletes⟩
    · rintro ⟨hall, h⟩
      rw [List.all_cons, Bool.and_eq_true] at hall
      obtain ⟨hchar, hf⟩ := ofChar?_iff.mpr ⟨hall.1, rfl⟩
      obtain ⟨q, hflag, hq⟩ := (completes_flag hp).mpr ⟨hf, h⟩
      obtain ⟨p', hrest, hp'⟩ := (ih (hp.flag hflag)).mpr ⟨hall.2, hq⟩
      exact ⟨p', cluster_cons_eq_ok_iff.mpr ⟨_, q, hchar, hflag, hrest⟩, hp'⟩

theorem ofName?_eq_some_iff {name : Text} : Flag.ofName? name = some f ↔ name = f.name := by
  constructor
  · intro h
    have hname := List.find?_some h
    exact (of_decide_eq_true hname).symm
  · rintro rfl
    cases f <;> rfl

/-- No flag takes a value, so a name must stand alone. -/
theorem named_eq_ok_iff {name : Text} :
    p.named name = .ok p' ↔ ∃ f : Flag, name = f.name ∧ p.flag false f = .ok p' := by
  have hparts := List.takeWhile_append_dropWhile (p := (· != '=')) (l := name)
  unfold named
  constructor
  · intro h
    dsimp only at h
    split at h
    · next f hname hvalue =>
      rw [hvalue, List.append_nil] at hparts
      exact ⟨f, hparts ▸ ofName?_eq_some_iff.mp hname, h⟩
    · cases h
    · cases h
  · rintro ⟨f, rfl, h⟩
    cases f <;> exact h

theorem completes_named {name : Text} (hp : p.Sound) : (∃ p', p.named name = .ok p' ∧ p'.Completes vs fs a) ↔
    ∃ f : Flag, name = f.name ∧ (f = .verbose ∨ f = .quiet) ∧ p.Completes vs (f :: fs) a := by
  constructor
  · rintro ⟨p', hread, h⟩
    obtain ⟨f, hname, hflag⟩ := named_eq_ok_iff.mp hread
    exact ⟨f, hname, (completes_flag hp).mp ⟨p', hflag, h⟩⟩
  · rintro ⟨f, hname, h⟩
    obtain ⟨p', hflag, hp'⟩ := (completes_flag hp).mpr h
    exact ⟨p', named_eq_ok_iff.mpr ⟨f, hname, hflag⟩, hp'⟩

/-! ## One argument -/

/-- Takes an argument in front of the separator. -/
def take (t : Text) (p : Progress) : Except Refusal Progress :=
  match t with
  | '-' :: '-' :: name => p.named name
  | '-' :: c :: cs => p.cluster (c :: cs)
  | t => p.value t

theorem arguments_cons_eq_ok_iff {ts : List Text} (h : t ≠ separator) :
    p.arguments (t :: ts) = .ok a ↔ ∃ p', p.take t = .ok p' ∧ p'.arguments ts = .ok a := by
  conv => lhs; unfold arguments
  rw [if_neg (show t ≠ ['-', '-'] from h)]
  split
  · next e hnext => simp [show p.take t = .error e from hnext]
  · next q hnext => simp [show p.take t = .ok q from hnext]

/-- An argument by the way it is taken: a value, the name of a flag, or a cluster of letters. -/
theorem take_cases (t : Text) (p : Progress) :
    isValue t = true ∧ p.take t = p.value t ∨
    isValue t = false ∧ (∃ name, t = '-' :: '-' :: name ∧ p.take t = p.named name) ∨
    isValue t = false ∧ ∃ c cs, t = '-' :: c :: cs ∧ c ≠ '-' ∧ p.take t = p.cluster (c :: cs) := by
  unfold take
  split
  · exact .inr (.inl ⟨rfl, _, rfl, rfl⟩)
  · next c cs hne => exact .inr (.inr ⟨rfl, c, cs, rfl, hne, rfl⟩)
  · next hname hcluster =>
    refine .inl ⟨?_, rfl⟩
    match t with
    | [] => rfl
    | [c] => by_cases hc : c = '-' <;> simp [isValue, hc]
    | c :: d :: cs =>
      have hc : c ≠ '-' := fun hc => hcluster d cs (by rw [hc])
      simp [isValue, hc]

theorem Sound.take (hp : p.Sound) (h : p.take t = .ok p') : p'.Sound := by
  rcases take_cases t p with ⟨-, htake⟩ | ⟨-, name, -, htake⟩ | ⟨-, c, cs, -, -, htake⟩
  · exact hp.value (htake ▸ h)
  · obtain ⟨f, -, hflag⟩ := named_eq_ok_iff.mp (htake ▸ h)
    exact hp.flag hflag
  · exact hp.cluster (htake ▸ h)

theorem completes_take (hp : p.Sound) : (∃ p', p.take t = .ok p' ∧ p'.Completes vs fs a) ↔
    if isValue t then p.Completes (t :: vs) fs a
    else setsFlags t = true ∧ p.Completes vs (flagsOf t ++ fs) a := by
  rcases take_cases t p with ⟨hvalue, htake⟩ | ⟨hvalue, name, rfl, htake⟩ | ⟨hvalue, c, cs, rfl, hc, htake⟩
  · rw [htake, hvalue, if_pos rfl]
    exact completes_value hp
  · rw [htake, hvalue, if_neg (by simp), setsFlags_named, completes_named hp]
    constructor
    · rintro ⟨f, rfl, rfl | rfl, h⟩
      · exact ⟨.inl rfl, h⟩
      · exact ⟨.inr rfl, h⟩
    · rintro ⟨rfl | rfl, h⟩
      · exact ⟨.verbose, rfl, .inl rfl, h⟩
      · exact ⟨.quiet, rfl, .inr rfl, h⟩
  · have hhead : (c :: cs).head? ≠ some '-' := by simpa using hc
    rw [htake, hvalue, if_neg (by simp), setsFlags_cluster (by simp) hhead, flagsOf_cluster hhead, completes_cluster hp]

/-! ## Whole lists -/

theorem finish_eq_ok_iff (hp : p.Sound) : p.finish = .ok a ↔ p.Completes [] [] a := by
  have hbound : min 255 (p.verbosity + 0) = p.verbosity := Nat.min_eq_right hp.bounded
  unfold finish
  constructor
  · intro h
    cases hcheck : p.check with
    | error e => simp [hcheck] at h
    | ok u =>
      rw [hcheck] at h
      dsimp only at h
      split at h
      · next file mode hfile hmode =>
        cases h
        obtain ⟨m, hm, hmode⟩ := Option.bind_eq_some_iff.mp hmode
        refine ⟨⟨m, by simp [hfile, hm], hmode⟩, ?_, hbound.symm, ?_, by simp⟩
        · rintro rfl
          simp [Progress.check, hfile] at hcheck
        · cases p.quiet <;> simp
      · cases h
  · intro h
    obtain ⟨file, mode, verbosity, quiet⟩ := a
    obtain ⟨m, hvalues, hmode⟩ := h.values
    have hverbosity : verbosity = p.verbosity := h.verbosity.trans hbound
    have hquiet : quiet = p.quiet := Bool.eq_iff_iff.mpr (by simpa using h.quiet)
    rw [h.check hp]
    cases hfile : p.file with
    | none => simp [hfile, hp.ordered hfile] at hvalues
    | some file' =>
      cases hm : p.mode with
      | none => simp [hfile, hm] at hvalues
      | some m' =>
        simp only [hfile, hm, Option.toList_some, List.singleton_append, List.cons.injEq, and_true] at hvalues
        obtain ⟨rfl, rfl⟩ := hvalues
        simp [hmode, hverbosity, hquiet]

theorem values_eq_ok_iff {ts : List Text} (hp : p.Sound) : p.values ts = .ok a ↔ p.Completes ts [] a := by
  induction ts generalizing p with
  | nil => exact finish_eq_ok_iff hp
  | cons t ts ih =>
    rw [← completes_value hp, Progress.values]
    cases hvalue : p.value t with
    | error e => simp
    | ok q => simp [ih (hp.value hvalue)]

theorem arguments_eq_ok_iff {ts : List Text} (hp : p.Sound) : p.arguments ts = .ok a ↔
    (∀ t ∈ optionsOf ts, setsFlags t = true) ∧ p.Completes (valuesOf ts) (flagsIn ts) a := by
  induction ts generalizing p with
  | nil =>
    rw [show p.arguments [] = p.finish from rfl, finish_eq_ok_iff hp]
    simp [optionsOf, valuesOf, flagsIn]
  | cons t ts ih =>
    by_cases hsep : t = separator
    · subst hsep
      rw [show p.arguments (separator :: ts) = p.values ts from rfl, values_eq_ok_iff hp]
      simp [optionsOf_separator, valuesOf_separator, flagsIn]
    · have hrest : (∃ q, p.take t = .ok q ∧ q.arguments ts = .ok a) ↔ (∀ t ∈ optionsOf ts, setsFlags t = true) ∧
          ∃ q, p.take t = .ok q ∧ q.Completes (valuesOf ts) (flagsIn ts) a := by
        constructor
        · rintro ⟨q, htake, hq⟩
          obtain ⟨hoptions, hcompletes⟩ := (ih (hp.take htake)).mp hq
          exact ⟨hoptions, q, htake, hcompletes⟩
        · rintro ⟨hoptions, q, htake, hcompletes⟩
          exact ⟨q, htake, (ih (hp.take htake)).mpr ⟨hoptions, hcompletes⟩⟩
      rw [arguments_cons_eq_ok_iff hsep, hrest, completes_take hp, valuesOf_cons hsep, optionsOf_cons hsep]
      cases hvalue : isValue t with
      | true => rw [flagsIn_cons_of_value hsep hvalue, if_pos rfl, if_pos rfl, if_pos rfl]
      | false =>
        rw [flagsIn_cons_of_option hsep hvalue, if_neg (by simp), if_neg (by simp), if_neg (by simp),
          List.forall_mem_cons, and_assoc, and_left_comm]

end Progress

theorem parse_eq_ok_iff_asksFor {args : List Text} {a : Arguments} : parse args = .ok a ↔ AsksFor args a := by
  rw [parse, Progress.arguments_eq_ok_iff Progress.sound_start]
  constructor
  · rintro ⟨hoptions, h⟩
    exact ⟨hoptions, h.values, h.file, by simpa [Progress.start] using h.verbosity,
      by simpa [Progress.start] using h.quietOnce, by simpa [Progress.start] using h.quiet⟩
  · rintro ⟨hoptions, hvalues, hfile, hverbosity, honce, hquiet⟩
    exact ⟨hoptions, hvalues, hfile, by simpa [Progress.start] using hverbosity, by simpa [Progress.start] using honce,
      by simpa [Progress.start] using hquiet⟩

/-! ## Lists that ask for the same -/

section

variable {args args' : List Text}

theorem AsksFor.congr {a : Arguments} (h : AsksFor args a) (hvalues : valuesOf args' = valuesOf args)
    (hoptions : (∀ t ∈ optionsOf args, setsFlags t = true) → ∀ t ∈ optionsOf args', setsFlags t = true)
    (hflags : (flagsIn args').Perm (flagsIn args)) : AsksFor args' a :=
  ⟨hoptions h.options, hvalues ▸ h.values, h.file, hflags.count_eq .verbose ▸ h.verbosity,
    hflags.count_eq .quiet ▸ h.quietOnce, h.quiet.trans hflags.mem_iff.symm⟩

theorem toOption_parse_eq_some_iff {a : Arguments} : (parse args).toOption = some a ↔ AsksFor args a := by
  rw [← parse_eq_ok_iff_asksFor]
  cases parse args <;> simp [Except.toOption]

/-- Neither the order of the options nor their number matters, only what they set. -/
theorem toOption_parse_congr (hvalues : valuesOf args' = valuesOf args)
    (hoptions : (∀ t ∈ optionsOf args', setsFlags t = true) ↔ ∀ t ∈ optionsOf args, setsFlags t = true)
    (hflags : (flagsIn args').Perm (flagsIn args)) : (parse args').toOption = (parse args).toOption := by
  refine Option.ext fun a => ?_
  rw [toOption_parse_eq_some_iff, toOption_parse_eq_some_iff]
  exact ⟨fun h => h.congr hvalues.symm hoptions.mp hflags.symm, fun h => h.congr hvalues hoptions.mpr hflags⟩

theorem toOption_parse_of_perm (hvalues : valuesOf args' = valuesOf args)
    (hoptions : (optionsOf args').Perm (optionsOf args)) : (parse args').toOption = (parse args).toOption :=
  toOption_parse_congr hvalues (by simp only [hoptions.mem_iff]) (hoptions.flatMap_right flagsOf)

theorem toOption_parse_split {front rest : List Text} {letters letters' : Text} (hfront : separator ∉ front)
    (hne : letters ≠ []) (hne' : letters' ≠ []) (hletters : '-' ∉ letters ++ letters') :
    (parse (front ++ ('-' :: letters) :: ('-' :: letters') :: rest)).toOption =
      (parse (front ++ ('-' :: (letters ++ letters')) :: rest)).toOption := by
  have hhead : ∀ u : Text, '-' ∉ u → u.head? ≠ some '-' := fun u hu h => hu (List.mem_of_head? h)
  have hsep : ∀ u : Text, '-' ∉ u → '-' :: u ≠ separator := fun u hu h => hu (by simp [(List.cons.inj h).2])
  have hnot : '-' ∉ letters ∧ '-' ∉ letters' := by simpa using hletters
  have hboth : letters ++ letters' ≠ [] := by simp [hne]
  have hvalue := isValue_cluster hne
  have hvalue' := isValue_cluster hne'
  have hvalueBoth := isValue_cluster hboth
  have hoptions : optionsOf (front ++ ('-' :: letters) :: ('-' :: letters') :: rest) =
      front.filter (fun t => !isValue t) ++ ('-' :: letters) :: ('-' :: letters') :: optionsOf rest := by
    rw [optionsOf_append hfront, optionsOf_cons (hsep _ hnot.1), optionsOf_cons (hsep _ hnot.2), hvalue, hvalue']
    rfl
  have hoptionsBoth : optionsOf (front ++ ('-' :: (letters ++ letters')) :: rest) =
      front.filter (fun t => !isValue t) ++ ('-' :: (letters ++ letters')) :: optionsOf rest := by
    rw [optionsOf_append hfront, optionsOf_cons (hsep _ hletters), hvalueBoth]
    rfl
  refine toOption_parse_congr ?_ ?_ ?_
  · rw [valuesOf_append hfront, valuesOf_append hfront, valuesOf_cons (hsep _ hnot.1), valuesOf_cons (hsep _ hnot.2),
      valuesOf_cons (hsep _ hletters), hvalue, hvalue', hvalueBoth]
    rfl
  · rw [hoptions, hoptionsBoth]
    simp only [List.forall_mem_append, List.forall_mem_cons, setsFlags_cluster hne (hhead _ hnot.1),
      setsFlags_cluster hne' (hhead _ hnot.2), setsFlags_cluster hboth (hhead _ hletters), List.all_append,
      Bool.and_eq_true, and_assoc]
  · rw [flagsIn, flagsIn, hoptions, hoptionsBoth]
    simp [flagsOf_cluster, hhead _ hnot.1, hhead _ hnot.2]

end

/-- A list is accepted exactly if it says what it asks for: two values, the first not empty and the second a mode, and options
that set flags, the quiet one at most once. So options may stand anywhere in front of the separator, and letters may stand in
one cluster or in several. -/
theorem parse_eq_ok_iff (args : List Text) :
    (∀ a, parse args = .ok a ↔ AsksFor args a) ∧
    (∀ moved, valuesOf moved = valuesOf args → (optionsOf moved).Perm (optionsOf args) →
      (parse moved).toOption = (parse args).toOption) ∧
    ∀ front letters letters' rest, args = front ++ ('-' :: (letters ++ letters')) :: rest → separator ∉ front →
      letters ≠ [] → letters' ≠ [] → '-' ∉ letters ++ letters' →
      (parse (front ++ ('-' :: letters) :: ('-' :: letters') :: rest)).toOption = (parse args).toOption := by
  refine ⟨fun a => parse_eq_ok_iff_asksFor, fun moved hvalues hoptions => toOption_parse_of_perm hvalues hoptions, ?_⟩
  rintro front letters letters' rest rfl hfront hne hne' hletters
  exact toOption_parse_split hfront hne hne' hletters

/-- A list with a cluster between its values. -/
def clustered : List Text := ["main.tf".toList, "-qv".toList, "s3".toList, "-v".toList]

theorem parse_eq_ok_iff_clustered : AsksFor clustered ⟨"main.tf".toList, .s3, 2, true⟩ ∧
    (parse ["-v".toList, "main.tf".toList, "s3".toList, "-qv".toList]).toOption = (parse clustered).toOption ∧
    (parse ["main.tf".toList, "-q".toList, "-v".toList, "s3".toList, "-v".toList]).toOption =
      (parse clustered).toOption := by
  obtain ⟨haccepts, hmoves, hsplits⟩ := parse_eq_ok_iff clustered
  exact ⟨(haccepts _).mp rfl, hmoves _ (by decide) (by decide),
    hsplits ["main.tf".toList] ['q'] ['v'] ["s3".toList, "-v".toList] rfl (by decide) (by decide) (by decide) (by decide)⟩

end BackendSwitch.CommandLine
