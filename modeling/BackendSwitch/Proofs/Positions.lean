import BackendSwitch.Document
import BackendSwitch.Proofs.Forward
import Mathlib.Data.List.Induction

/-! # Where a text is wrong

The place that is reported for a text lies on one of its lines, and the report names it. Its column is one of that line,
or the one behind its end, with three exceptions: in front of a character beyond ASCII columns are counted in bytes, the
end of a text belongs to the last line feed in it, and a place may lie within a line end. -/
namespace BackendSwitch
set_option autoImplicit false

namespace Text

/-! ## Lines by their number -/

/-- The line with a number counted from one, without its end. Behind a line feed at the end of a text stands one more
line, which is empty. -/
def lineAt (t : Text) (n : Nat) : Text := t.lines.getD (n - 1) []

variable {c : Char} {l t rest : Text}

theorem getD_consFirst_zero (c : Char) (ls : List Text) : (consFirst c ls).getD 0 [] = c :: ls.getD 0 [] := by
  cases ls <;> simp [consFirst]

theorem getD_consFirst_succ (c : Char) (ls : List Text) (k : Nat) :
    (consFirst c ls).getD (k + 1) [] = ls.getD (k + 1) [] := by
  cases ls <;> simp [consFirst]

theorem lines_cons (hc : c ≠ '\n') (ht : c = '\r' → t.head? ≠ some '\n') : lines (c :: t) = consFirst c (lines t) := by
  refine lines.eq_4 c t ?_ hc
  rintro r hr rfl
  exact ht hr rfl

theorem getD_lines_behind (t u : Text) :
    (t ++ '\n' :: u).lines.getD (t.count '\n' + 1) [] = u.lines.getD 0 [] := by
  fun_induction lines t with
  | case1 => simp [lines]
  | case2 t ih => simpa [lines] using ih
  | case3 t ih => simpa [lines] using ih
  | case4 c t hreturn hc ih =>
    rw [List.count_cons_of_ne hc]
    -- only a last carriage return forms a line end with the line feed
    by_cases hend : c = '\r' ∧ t = []
    · obtain ⟨rfl, rfl⟩ := hend
      simp [lines]
    · have hnext : c = '\r' → (t ++ '\n' :: u).head? ≠ some '\n' := by
        rintro hr hhead
        cases t with
        | nil => exact hend ⟨hr, rfl⟩
        | cons d t =>
          injection hhead with hd
          subst hd
          exact hreturn _ hr rfl
      rw [List.cons_append, lines_cons hc hnext, getD_consFirst_succ, ih]

/-- Text in front of the rest of its line, unless the rest is the second half of a line end. -/
theorem getD_lines_amid (hl : '\n' ∉ l) (hend : l.getLast? = some '\r' → rest.head? ≠ some '\n') :
    (l ++ rest).lines.getD 0 [] = l ++ rest.lines.getD 0 [] := by
  induction l with
  | nil => rfl
  | cons c l ih =>
    obtain ⟨hc, hl⟩ : c ≠ '\n' ∧ '\n' ∉ l := by simpa [eq_comm] using hl
    have hnext : c = '\r' → (l ++ rest).head? ≠ some '\n' := by
      rintro rfl
      cases l with
      | nil => exact hend rfl
      | cons d l =>
        intro h
        injection h with h
        exact hl (by simp [h])
    have hlast : l.getLast? = some '\r' → rest.head? ≠ some '\n' := by
      intro h
      exact hend (by rw [List.getLast?_cons, h]; rfl)
    rw [List.cons_append, lines_cons hc hnext, getD_consFirst_zero, ih hl hlast, List.cons_append]

end Text

namespace Position

variable {before done rest u : Text} {c : Char}

theorem lastLine_concat (t : Text) (c : Char) : lastLine (t ++ [c]) = if c = '\n' then [] else lastLine t ++ [c] := by
  by_cases hc : c = '\n' <;> simp [lastLine, hc]

theorem lastLine_spec (t : Text) : '\n' ∉ lastLine t ∧ (t = lastLine t ∨ ∃ a, t = a ++ '\n' :: lastLine t) := by
  induction t using List.reverseRecOn with
  | nil => exact ⟨List.not_mem_nil, .inl rfl⟩
  | append_singleton t c ih =>
    rw [lastLine_concat]
    split
    · next hc => exact ⟨List.not_mem_nil, .inr ⟨t, by rw [hc]⟩⟩
    · next hc =>
      obtain ⟨hline, hsplit⟩ := ih
      refine ⟨by simpa [eq_comm] using ⟨hline, hc⟩, ?_⟩
      rcases hsplit with h | ⟨a, h⟩
      · exact .inl (congrArg (· ++ [c]) h)
      · exact .inr ⟨a, (congrArg (· ++ [c]) h).trans (by simp)⟩

/-- The line of a place: what stands before the place, and the rest up to the end of the line. -/
theorem lineAt_amid (hend : done.getLast? = some '\r' → rest.head? ≠ some '\n') :
    Text.lineAt (done ++ rest) (done.count '\n' + 1) = lastLine done ++ rest.lines.getD 0 [] := by
  obtain ⟨hline, hsplit⟩ := lastLine_spec done
  have hcount : (lastLine done).count '\n' = 0 := List.count_eq_zero.mpr hline
  unfold Text.lineAt
  -- the line begins with the text, or behind the last line feed before the place
  rcases hsplit with h | ⟨a, h⟩
  · rw [← h] at hcount hline
    rw [hcount, Text.getD_lines_amid hline hend, ← h]
  · have hend' : (lastLine done).getLast? = some '\r' → rest.head? ≠ some '\n' := by
      intro hlast
      refine hend ?_
      rw [h, List.getLast?_append, List.getLast?_cons, hlast]
      rfl
    generalize lastLine done = l at *
    subst h
    rw [List.count_append, List.count_cons_self, hcount, List.append_assoc, List.cons_append]
    exact (Text.getD_lines_behind a (l ++ rest)).trans (Text.getD_lines_amid hline hend')

/-- Within a line end the carriage return that was read is not a part of the line. -/
theorem length_lineAt_of_return (hend : done.getLast? = some '\r') :
    (Text.lineAt (done ++ '\n' :: u) (done.count '\n' + 1)).length + 1 = (lastLine done).length := by
  -- seen from in front of the carriage return, the whole line end is still to come
  obtain ⟨before, rfl⟩ := List.getLast?_eq_some_iff.mp hend
  have hline : Text.lineAt (before ++ '\r' :: '\n' :: u) (before.count '\n' + 1) = lastLine before ++ [] :=
    lineAt_amid (by simp)
  simp [lastLine_concat, hline]

/-! ## Places and the lines they are on -/

/-- The places whose column lies behind the end of their line: behind the last line feed of the text, within a line end,
and in front of a character beyond ASCII if the line has fewer characters than there are bytes before the place. -/
def Astray (done rest : Text) : Prop :=
  match rest with
  | [] => done.getLast? = some '\n'
  | c :: _ =>
    c = '\n' ∧ done.getLast? = some '\r' ∨
      c.utf8Size ≠ 1 ∧ (Text.lineAt (done ++ rest) (done.count '\n' + 1)).length < Text.utf8Size (lastLine done)

theorem between_concat (before : Text) (c : Char) :
    between (before ++ [c]) [] = ⟨before.count '\n' + 1, (lastLine before).length + 2⟩ := by
  simp [between]

theorem line_le (done rest : Text) : (between done rest).line ≤ 1 + (done ++ rest).count '\n' := by
  rw [List.count_append]
  cases rest with
  | nil =>
    have h : done.dropLast.count '\n' ≤ done.count '\n' := (List.dropLast_sublist done).count_le '\n'
    simp only [between]
    omega
  | cons c u =>
    simp only [between]
    omega

theorem one_le_line (done rest : Text) : 1 ≤ (between done rest).line := by
  cases rest <;> simp [between]

theorem one_le_column (done rest : Text) : 1 ≤ (between done rest).column := by
  cases rest <;> simp [between]

/-- At the end of the text the column is counted as if the last character were on its line. -/
theorem column_le_iff_concat (before : Text) (c : Char) :
    (lastLine before).length + 2 ≤ 1 + (Text.lineAt (before ++ [c]) (before.count '\n' + 1)).length ↔ c ≠ '\n' := by
  by_cases hc : c = '\n'
  · have hlength : (Text.lineAt (before ++ ['\n']) (before.count '\n' + 1)).length ≤ (lastLine before).length := by
      by_cases hreturn : before.getLast? = some '\r'
      · exact (length_lineAt_of_return hreturn) ▸ Nat.le_succ _
      · rw [lineAt_amid fun h => absurd h hreturn]
        simp [Text.lines]
    subst hc
    simp only [ne_eq, not_true_eq_false, iff_false]
    omega
  · have hlast : Text.lineAt (before ++ [c]) (before.count '\n' + 1) = lastLine before ++ [c] := by
      rw [lineAt_amid fun _ => by simpa using hc, Text.lines_cons hc (by simp)]
      rfl
    simp only [hlast, List.length_append, List.length_singleton, ne_eq, hc, not_false_eq_true, iff_true]
    omega

/-- In front of a character the column is counted from what stands before it on its line. -/
theorem column_le_iff_cons (done : Text) (c : Char) (u : Text) :
    (between done (c :: u)).column ≤ 1 + (Text.lineAt (done ++ c :: u) (done.count '\n' + 1)).length ↔
      ¬ Astray done (c :: u) := by
  by_cases hsize : c.utf8Size = 1
  · by_cases hend : c = '\n' ∧ done.getLast? = some '\r'
    · obtain ⟨rfl, hreturn⟩ := hend
      have hlength := length_lineAt_of_return (u := u) hreturn
      simp only [between, Astray, hsize, hreturn, if_true, and_self, true_or, not_true_eq_false, iff_false]
      omega
    · have hline : Text.lineAt (done ++ c :: u) (done.count '\n' + 1) =
          lastLine done ++ (Text.lines (c :: u)).getD 0 [] := lineAt_amid fun hreturn hc =>
        hend ⟨by simpa using hc, hreturn⟩
      simp only [between, Astray, hsize, hend, hline, if_true, ne_eq, not_true_eq_false, false_and, or_self,
        not_false_eq_true, iff_true, List.length_append]
      omega
  · have hc : c ≠ '\n' := by
      rintro rfl
      exact hsize rfl
    simp only [between, Astray, hsize, hc, if_false, ne_eq, not_false_eq_true, false_and, true_and, false_or, Nat.not_lt]
    omega

/-- The column of a place is one of its line, or the one behind the end of the line, unless the place is astray. -/
theorem column_le_iff (hne : done ++ rest ≠ []) :
    (between done rest).column ≤ 1 + (Text.lineAt (done ++ rest) (between done rest).line).length ↔
      ¬ Astray done rest := by
  cases rest with
  | nil =>
    rw [List.append_nil] at hne ⊢
    obtain ⟨before, c, rfl⟩ := (List.eq_nil_or_concat done).resolve_left hne
    rw [List.concat_eq_append, between_concat, column_le_iff_concat]
    simp [Astray]
  | cons c u => exact column_le_iff_cons done c u

/-- A report names a place if its headline gives the line and the column in digits. -/
def NamedIn (p : Position) (detail : Text) : Prop :=
  ∃ width more, detail = List.replicate width ' ' ++ "--> HCL parse error in line ".toList ++
    ParseError.decimal p.line ++ ", column ".toList ++ ParseError.decimal p.column ++ '\n' :: more

theorem namedIn_report (e : ParseError) : e.position.NamedIn e.report := by
  unfold ParseError.report
  rw [List.intercalate_cons_cons, List.append_assoc]
  exact ⟨_, _, rfl⟩

end Position

/-! ## Where the reading of a text ends -/

theorem Reader.bind_ne_soft {α β : Type} {p : Reader α} {f : α → Reader β} {s : Text} (hp : p s ≠ .soft)
    (hf : ∀ a r, f a r ≠ .soft) : Reader.bind p f s ≠ .soft := by
  unfold Reader.bind
  cases h : p s with
  | ok a r => exact hf a r
  | soft => exact absurd h hp
  | hard c r => intro h; cases h

namespace Grammar

variable {body : Reader Body}

theorem structures_ne_soft (n : Nat) (used : List Text) (ended : Bool) (s : Text) :
    structures body n used ended s ≠ .soft := by
  induction n generalizing used ended s with
  | zero => intro h; cases h
  | succ n ih =>
    unfold structures
    split
    · next item ended' r _ =>
      refine Reader.bind_ne_soft (ih _ _ _) fun _ _ => ?_
      intro h; cases h
    · intro h; cases h
    · intro h; cases h

theorem bodyFrom_ne_soft (s : Text) : bodyFrom body s ≠ .soft := by
  refine Reader.bind_ne_soft (structures_ne_soft _ _ _ _) fun x t hsoft => ?_
  obtain ⟨after, r, h, -⟩ := blank_spec t
  have hok : (do
      let after ← blank
      return (⟨⟨none, some after⟩, x.1, false, x.2⟩ : Body)) t = .ok ⟨⟨none, some after⟩, x.1, false, x.2⟩ r :=
    Reader.bind_ok h rfl
  cases hok.symm.trans hsoft

/-- Reading a whole text cannot fail softly, as a body may be empty. -/
theorem document_ne_soft (s : Text) : document s ≠ .soft := by
  refine Reader.bind_ne_soft (bodyFrom_ne_soft s) fun b t => ?_
  split <;> intro h <;> cases h

end Grammar

/-- Finds out by evaluation where the reading of a text ends. -/
theorem Grammar.document_eq_hard {t rest : Text} {c : Complaint} (h : (match document t with
    | .hard c' rest' => decide (c' = c ∧ rest' = rest)
    | _ => false) = true) : document t = .hard c rest := by
  split at h
  · next c' rest' hread =>
    obtain ⟨rfl, rfl⟩ := of_decide_eq_true h
    exact hread
  · cases h

theorem Body.parse_of_hard {done rest : Text} {c : Complaint} (h : Grammar.document (done ++ rest) = .hard c rest) :
    Body.parse (done ++ rest) = .error ⟨c, .between done rest, Position.lineText done rest⟩ := by
  unfold Body.parse
  simp [h, ParseError.ofRest]

/-- A text is wrong where its reading ended, which is a place in it. -/
theorem Body.parse_eq_error {t : Text} {e : ParseError} (h : Body.parse t = .error e) : ∃ done rest,
    Grammar.document t = .hard e.complaint rest ∧ t = done ++ rest ∧ e.position = .between done rest := by
  cases hread : Grammar.document t with
  | ok b r => simp [Body.parse, hread] at h
  | soft => exact absurd hread (Grammar.document_ne_soft t)
  | hard c rest =>
    have hend := Grammar.document_forward t
    rw [hread] at hend
    obtain ⟨done, rfl⟩ := hend
    cases (Body.parse_of_hard hread).symm.trans h
    exact ⟨done, rest, rfl, rfl, rfl⟩

namespace Document

theorem parse_of_hard (path : Text) {done rest : Text} {c : Complaint}
    (h : Grammar.document (done ++ rest) = .hard c rest) :
    ∃ detail, parse path (done ++ rest) = .error (.malformed path detail
      (some (Position.between done rest).line) (some (Position.between done rest).column) none) := by
  unfold parse
  rw [Body.parse_of_hard h]
  exact ⟨_, rfl⟩

/-- The place of an error is one in the text, it is reported by its line and column and named in the detail, and it lies
on a line of the text. Its column is one of that line, or the one behind its end, unless the place is astray. -/
theorem place_of_parse {path t : Text} {f : Failure} (h : parse path t = .error f) :
    ∃ complaint done rest detail, ∃ place : Position,
      Grammar.document t = .hard complaint rest ∧ t = done ++ rest ∧
      f = .malformed path detail (some place.line) (some place.column) none ∧ place.NamedIn detail ∧
      1 ≤ place.line ∧ place.line ≤ 1 + t.count '\n' ∧
      1 ≤ place.column ∧ (place.column ≤ 1 + (t.lineAt place.line).length ↔ ¬ Position.Astray done rest) := by
  unfold parse at h
  split at h
  · cases h
  · next e hparse =>
    cases h
    obtain ⟨done, rest, hhard, rfl, hplace⟩ := Body.parse_eq_error hparse
    -- the empty text is an empty body, so something stands before or behind the place
    have hne : done ++ rest ≠ [] := by
      intro hnil
      rw [hnil] at hhard
      cases hhard
    have hnamed := Position.namedIn_report e
    rw [hplace] at hnamed ⊢
    exact ⟨_, done, rest, e.report, _, hhard, rfl, rfl, hnamed, Position.one_le_line done rest,
      Position.line_le done rest, Position.one_le_column done rest, Position.column_le_iff hne⟩

/-- A block up to where the value of its attribute is missing. -/
def unfinished : Text := "terraform \x7b\n  required_version = ".toList

theorem place_of_parse_unfinished : ∃ detail,
    parse "broken.tf".toList (unfinished ++ ['\n']) =
      .error (.malformed "broken.tf".toList detail (some 2) (some 22) none) ∧
    Position.NamedIn ⟨2, 22⟩ detail ∧ 2 ≤ 1 + (unfinished ++ ['\n']).count '\n' ∧
    22 ≤ 1 + (Text.lineAt (unfinished ++ ['\n']) 2).length := by
  have hhard : Grammar.document (unfinished ++ ['\n']) = .hard .expression ['\n'] :=
    Grammar.document_eq_hard (by decide +kernel)
  have hplace : Position.between unfinished ['\n'] = ⟨2, 22⟩ := by decide +kernel
  have hcalm : ¬ Position.Astray unfinished ['\n'] := by
    rintro (⟨-, hreturn⟩ | ⟨hsize, -⟩)
    · exact absurd hreturn (by decide +kernel)
    · exact hsize rfl
  obtain ⟨detail, h⟩ := parse_of_hard "broken.tf".toList hhard
  rw [hplace] at h
  obtain ⟨_, done, rest, _, ⟨_, _⟩, hread, hsplit, hf, hnamed, -, hline, -, hcolumn⟩ := place_of_parse h
  cases hf
  cases hhard.symm.trans hread
  obtain rfl : unfinished = done := List.append_cancel_right hsplit
  exact ⟨detail, h, hnamed, hline, hcolumn.mpr hcalm⟩

/-- In front of a character of four bytes the column counts the bytes of the line. -/
theorem not_place_of_parse_wide : ∃ detail,
    parse "main.tf".toList ("日本語 ".toList ++ ['😀']) =
      .error (.malformed "main.tf".toList detail (some 1) (some 11) none) ∧
    ¬ 11 ≤ 1 + (Text.lineAt ("日本語 ".toList ++ ['😀']) 1).length := by
  have hhard : Grammar.document ("日本語 ".toList ++ ['😀']) = .hard .structureStart ['😀'] :=
    Grammar.document_eq_hard (by decide +kernel)
  have hplace : Position.between "日本語 ".toList ['😀'] = ⟨1, 11⟩ := by decide +kernel
  obtain ⟨detail, h⟩ := parse_of_hard "main.tf".toList hhard
  rw [hplace] at h
  exact ⟨detail, h, by decide +kernel⟩

end Document
end BackendSwitch
