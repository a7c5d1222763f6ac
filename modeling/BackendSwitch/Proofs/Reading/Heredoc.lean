import BackendSwitch.Proofs.Reading.Woven

/-! # Heredocs are read again

The body of a heredoc goes on to the first line that begins with the delimiter, so what matters is where lines end. The
last line end belongs to the body although it is read behind it. -/
namespace BackendSwitch
set_option autoImplicit false

open Grammar
open Reader (flagText)

/-! ## Parts that are not literals -/

theorem mem_appendLiteral {e : Element} {t : Text} {es : List Element} (hlit : e.isLiteral = false) :
    e ∈ appendLiteral t es ↔ e ∈ es := by
  have hne : ∀ u, e ≠ .literal u := by
    rintro u rfl
    cases hlit
  fun_induction appendLiteral t es with
  | case1 => simp [hne]
  | case2 s => simp [hne]
  | case3 f es _ ih => simp [ih]

theorem mem_remove {e : Element} {n : Nat} {continued : Bool} {es : List Element} (hlit : e.isLiteral = false) :
    e ∈ Indentation.remove n continued es ↔ e ∈ es := by
  have hne : ∀ u, e ≠ .literal u := by
    rintro u rfl
    cases hlit
  fun_induction Indentation.remove n continued es with
  | case1 => rfl
  | case2 continued t es ih => simp [hne, ih]
  | case3 continued f es _ ih => simp [ih]

theorem Unindented.mem {e : Element} {indent : Option Nat} {whole es : List Element} (h : Unindented indent whole es)
    (hlit : e.isLiteral = false) : e ∈ whole ↔ e ∈ es := by
  cases indent with
  | none => rw [show whole = es from h]
  | some n =>
    obtain ⟨-, rfl⟩ := h
    exact (mem_remove hlit).symm

namespace Grammar

variable {inner inner' : Inner} {k : Nat}

/-! ## Where the body ends -/

theorem strip?_append_of_none {d t x : Text} (h : Text.strip? d t = none) (hlen : d.length ≤ t.length) :
    Text.strip? d (t ++ x) = none := by
  induction d generalizing t with
  | nil => cases t <;> cases h
  | cons c d ih =>
    cases t with
    | nil => simp at hlen
    | cons e t =>
      by_cases hc : c = e
      · simp only [Text.strip?, hc, if_true, List.cons_append, List.length_cons] at h hlen ⊢
        exact ih h (by omega)
      · simp [Text.strip?, hc]

/-- Whether a line end is next does not depend on what is behind the next line. -/
theorem newline_append {y d : Text} {c : Char} (hy : y ≠ []) (hc : c ≠ '\n') :
    (∃ t y', ∀ x, newline (y ++ (c :: d ++ x)) = .ok t (y' ++ (c :: d ++ x))) ∨
      ∀ x, newline (y ++ (c :: d ++ x)) = .soft := by
  match y with
  | [] => exact absurd rfl hy
  | [e] =>
    by_cases hn : e = '\n'
    · subst hn
      exact .inl ⟨_, [], fun x => rfl⟩
    · refine .inr fun x => ?_
      unfold newline
      split
      · next h => exact absurd (List.cons.inj h).1 hn
      · next h => exact absurd (List.cons.inj (List.cons.inj h).2).1 hc
      · rfl
  | e :: f :: y =>
    by_cases hn : e = '\n'
    · subst hn
      exact .inl ⟨_, f :: y, fun x => rfl⟩
    · by_cases hr : e = '\r' ∧ f = '\n'
      · obtain ⟨rfl, rfl⟩ := hr
        exact .inl ⟨_, y, fun x => rfl⟩
      · refine .inr fun x => ?_
        unfold newline
        split
        · next h => exact absurd (List.cons.inj h).1 hn
        · next h => exact absurd ⟨(List.cons.inj h).1, (List.cons.inj (List.cons.inj h).2).1⟩ hr
        · rfl

theorem isSpace_of_startsWith {c : Char} (h : Identifier.startsWith c = true) : isSpace c = false := by
  have hsolid := isSolid_of_startsWith h
  cases hs : isSpace c with
  | false => rfl
  | true =>
    have hwhite := isWhite_of_isSpace hs
    simp [isSolid, hwhite] at hsolid

/-- In front of a text that ends with the delimiter, whether a line begins with it can be told from that text. -/
theorem atDelimiter_append {d y x : Text} (hd : IsIdentifier d) (hy : y ≠ []) (h : atDelimiter d (y ++ d) = false) :
    atDelimiter d (y ++ (d ++ x)) = false := by
  obtain ⟨c, u, rfl, hc, -⟩ := hd
  have hne : c ≠ '\n' := by
    rintro rfl
    cases hc
  rcases newline_append (d := u) hy hne with ⟨t, y', hread⟩ | hread
  · have hshort := hread []
    rw [List.append_nil] at hshort
    simp only [atDelimiter, hshort, hread x] at h ⊢
    have hdrop : ∃ z, (y' ++ c :: u).dropWhile isSpace = z ++ c :: u ∧
        (y' ++ (c :: u ++ x)).dropWhile isSpace = z ++ c :: u ++ x := by
      have hword : ∀ x, (c :: u ++ x).dropWhile isSpace = c :: u ++ x := fun x =>
        Text.dropWhile_of_avoids (Text.avoids_cons.mpr (isSpace_of_startsWith hc))
      have hword' := hword []
      rw [List.append_nil] at hword'
      rw [List.dropWhile_append, List.dropWhile_append, hword, hword']
      split
      · exact ⟨[], rfl, rfl⟩
      · exact ⟨y'.dropWhile isSpace, rfl, by simp⟩
    obtain ⟨z, hz, hz'⟩ := hdrop
    rw [hz] at h
    rw [hz']
    have hnone : Text.strip? (c :: u) (z ++ c :: u) = none := by simpa using h
    rw [strip?_append_of_none hnone (by simp)]
    rfl
  · simp only [atDelimiter, hread x]

theorem atDelimiter_final {d tail final x : Text} (hd : IsIdentifier d) (hfinal : final = ['\n'] ∨ final = ['\r', '\n'])
    (htail : ∀ c ∈ tail, isSpace c = true) : atDelimiter d (final ++ (tail ++ (d ++ x))) = true := by
  have hdrop : (tail ++ (d ++ x)).dropWhile isSpace = d ++ x := by
    refine Text.dropWhile_append_of_all htail ?_
    obtain ⟨c, u, rfl, hc, -⟩ := hd
    exact Text.avoids_cons.mpr (isSpace_of_startsWith hc)
  rcases hfinal with rfl | rfl
  · simp only [atDelimiter, newline, List.cons_append, List.nil_append, hdrop, Text.strip?_append, Option.isSome_some]
  · simp only [atDelimiter, newline, List.cons_append, List.nil_append, hdrop, Text.strip?_append, Option.isSome_some]

theorem newline_final {final : Text} (h : final = ['\n'] ∨ final = ['\r', '\n']) (x : Text) :
    newline (final ++ x) = .ok final x := by
  rcases h with rfl | rfl
  · rfl
  · rfl

/-! ## The whole heredoc -/

theorem heredocBody_repeats {d tail final : Text} {body : List Element} (hd : IsIdentifier d)
    (hparts : ∀ e ∈ body, e.isLiteral = false → ∀ r', templatePart inner' (e.text ++ r') = .ok e r')
    (htail : ∀ c ∈ tail, isSpace c = true) (hfinal : final = ['\n'] ∨ final = ['\r', '\n']) (hw : Woven final body)
    (hfree : ∀ u v, body.flatMap Element.text = u ++ v → v ≠ [] → atDelimiter d (v ++ (final ++ (tail ++ d))) = false)
    (x : Text) :
    heredocBody inner' d (body.flatMap Element.text ++ (final ++ (tail ++ (d ++ x)))) =
      .ok (appendLiteral final body) (tail ++ (d ++ x)) := by
  have hhead : ∀ y, (final ++ y).head? ≠ some '$' ∧ (final ++ y).head? ≠ some '%' := by
    intro y
    rcases hfinal with rfl | rfl
    · simp
    · simp
  have hplain : plainTemplate inner' (atDelimiter d) (body.flatMap Element.text ++ (final ++ (tail ++ (d ++ x)))) =
      .ok body (final ++ (tail ++ (d ++ x))) := by
    refine plainTemplate_repeats hparts hw (fun t _ => ?_) (fun u v huv hv => ?_) (.inl (atDelimiter_final hd hfinal htail))
      (templatePart_of_head (hhead _).1 (hhead _).2)
    · rcases hfinal with rfl | rfl
      · exact Escape.parted_of_plain rfl (by decide)
      · exact Escape.parted_of_plain rfl (by decide)
    · have hshort := hfree u v huv hv
      have hassoc : ∀ z, v ++ (final ++ (tail ++ z)) = (v ++ (final ++ tail)) ++ z := by simp
      rw [hassoc] at hshort ⊢
      exact atDelimiter_append hd (by simp [hv]) hshort
  have hbody : (Reader.optional do
      let elements ← plainTemplate inner' (atDelimiter d)
      let final ← newline
      return appendLiteral final elements) (body.flatMap Element.text ++ (final ++ (tail ++ (d ++ x)))) =
        .ok (some (appendLiteral final body)) (tail ++ (d ++ x)) :=
    Reader.optional_eq_some_iff.mpr <| Reader.bind_ok hplain <| Reader.bind_ok (newline_final hfinal _) rfl
  exact Reader.bind_ok hbody rfl

theorem templatePart_of_mem_heredocBody {d s r : Text} {elements : List Element} {e : Element}
    (h : heredocBody inner d s = .ok elements r) (he : e ∈ elements) (hlit : e.isLiteral = false) :
    ∃ t u, templatePart inner t = .ok e u := by
  simp only [heredocBody, Reader.bind_iff, Reader.pure_iff] at h
  obtain ⟨found, s', hfound, rfl, -⟩ := h
  cases found with
  | none => cases he
  | some es =>
    simp only [Reader.optional_eq_some_iff, Reader.bind_iff, Reader.pure_iff] at hfound
    obtain ⟨body, t, hplain, final, u, -, rfl, -⟩ := hfound
    exact templatePart_of_mem hplain ((mem_appendLiteral hlit).mp he) hlit

theorem text_heredoc_eq (d : Text) (indent : Option Nat) (es : List Element) (tail : Text) :
    (Node.heredoc d indent es tail).text =
      ['<', '<'] ++ (flagText '-' indent.isSome ++ (d ++ '\n' :: (heredocText indent es ++ (tail ++ d)))) := by
  cases indent with
  | none => exact Node.text_heredoc d es tail
  | some n => exact Node.text_heredoc_indented d n es tail

theorem heredoc_append {d tail s r : Text} {indent : Option Nat} {elements es : List Element} (hd : IsIdentifier d)
    (htail : ∀ c ∈ tail, isSpace c = true) (hbody : heredocBody inner' d s = .ok elements (tail ++ (d ++ r)))
    (hes : Unindented indent elements es) :
    heredoc inner' (['<', '<'] ++ (flagText '-' indent.isSome ++ (d ++ '\n' :: s))) = .ok (.heredoc d indent es tail) r := by
  have hflag : Reader.flag '-' (flagText '-' indent.isSome ++ (d ++ '\n' :: s)) = .ok indent.isSome (d ++ '\n' :: s) := by
    obtain ⟨c, u, rfl, hc, -⟩ := hd
    refine Reader.flag_append ?_
    rintro ⟨⟩
    cases hc
  have hidentifier : identifier.require .name (d ++ '\n' :: s) = .ok d ('\n' :: s) :=
    Reader.require_eq_ok_iff.mpr (identifier_append hd (Text.avoids_cons.mpr rfl))
  have hline : newline.require .heredocLine ('\n' :: s) = .ok ['\n'] s := Reader.require_eq_ok_iff.mpr rfl
  have hspan : Reader.span isSpace (tail ++ (d ++ r)) = .ok tail (d ++ r) := by
    have havoid : (d ++ r).Avoids isSpace := by
      obtain ⟨c, u, rfl, hc, -⟩ := hd
      exact Text.avoids_cons.mpr (isSpace_of_startsWith hc)
    unfold Reader.span
    rw [Text.takeWhile_append_of_all htail havoid, Text.dropWhile_append_of_all htail havoid]
  have hword : (Reader.word d).require .heredocDelimiter (d ++ r) = .ok () r :=
    Reader.require_eq_ok_iff.mpr (Reader.word_append d r)
  refine Reader.bind_ok (Reader.word_append _ _) <| Reader.bind_ok hflag <| Reader.bind_ok hidentifier <|
    Reader.bind_ok hline <| Reader.bind_ok hbody <| Reader.bind_ok hspan <| Reader.bind_ok hword ?_
  cases indent with
  | none =>
    rw [show elements = es from hes]
    rfl
  | some n =>
    obtain ⟨hmeasure, hremove⟩ := hes
    simp only [Option.isSome_some, if_true, hmeasure, hremove]
    rfl

theorem heredoc_repeats (h : inner.Repeats inner' k) {s r : Text} {node : Node} (hs : heredoc inner s = .ok node r)
    (sound : node.Sound) (hk : node.text.length ≤ k) (r' : Text) : heredoc inner' (node.text ++ r') = .ok node r' := by
  simp only [heredoc, Reader.bind_iff, Reader.pure_iff, Reader.word_eq_ok_iff, Reader.require_eq_ok_iff] at hs
  obtain ⟨_, s1, -, indented, s2, -, d, s3, hd, _, s4, -, elements, s5, hbody, tail, s6, htail, _, s7, -, hnode, -⟩ := hs
  obtain ⟨-, hd, -⟩ := identifier_eq_ok hd
  have htail : ∀ c ∈ tail, isSpace c = true := by
    unfold Reader.span at htail
    injection htail with htail _
    rw [← htail]
    intro c hc
    exact List.all_eq_true.mp List.all_takeWhile c hc
  -- whether the indentation was taken away or not, the parts that are not literals are those of the body that was read
  have hshape : ∃ indent es, node = .heredoc d indent es tail ∧
      ∀ e, e.isLiteral = false → (e ∈ es ↔ e ∈ elements) := by
    cases hindent : (if indented then Indentation.measure? elements else none) with
    | none =>
      rw [hindent] at hnode
      exact ⟨none, elements, hnode.symm, fun e _ => Iff.rfl⟩
    | some n =>
      rw [hindent] at hnode
      exact ⟨some n, _, hnode.symm, fun e hlit => mem_remove hlit⟩
  obtain ⟨indent, es, rfl, hes⟩ := hshape
  obtain ⟨hsound, body, final, hfinal, htext, hwhole, hw, hfree⟩ := sound
  rw [text_heredoc_eq] at hk ⊢
  simp only [htext, List.length_append, List.length_cons] at hk
  have hparts : ∀ e ∈ body, e.isLiteral = false → ∀ r', templatePart inner' (e.text ++ r') = .ok e r' := by
    intro e he hlit
    have hmem : e ∈ es := (hwhole.mem hlit).mp ((mem_appendLiteral hlit).mpr he)
    obtain ⟨t, u, hread⟩ := templatePart_of_mem_heredocBody hbody ((hes e hlit).mp hmem) hlit
    have hlen := length_text_le he
    exact (templatePart_repeats h hread ((elementsSound_iff es).mp hsound e hmem) (by omega)).2
  have hread := heredocBody_repeats hd hparts htail hfinal hw hfree r'
  have hsource : ['<', '<'] ++ (flagText '-' indent.isSome ++ (d ++ '\n' :: (heredocText indent es ++ (tail ++ d)))) ++ r' =
      ['<', '<'] ++ (flagText '-' indent.isSome ++
        (d ++ '\n' :: (body.flatMap Element.text ++ (final ++ (tail ++ (d ++ r')))))) := by
    simp [htext]
  rw [hsource]
  exact heredoc_append hd htail hread hwhole

end Grammar
end BackendSwitch
