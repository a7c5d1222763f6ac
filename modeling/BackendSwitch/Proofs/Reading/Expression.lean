import BackendSwitch.Proofs.Reading.Term

/-! # Expressions are read again

An expression is a term with traversals, operators and a conditional behind it. What is behind the term is read again as
long as it is behind the same term, and what is nested deeper is read again by the readers of the next level. -/
namespace BackendSwitch
set_option autoImplicit false

open Grammar
open Identifier (startsWith extendsWith)

/-! ## Ends of longer expressions -/

namespace Node

variable {newlines c : Bool} {z : Text}

theorem lines_traversal (base : Expr) (steps : List Step) :
    (traversal base steps).lines newlines = base.node.lines newlines := by cases base; rfl

theorem lines_binary (left : Expr) (operator : Operator) (right : Expr) :
    (binary left operator right).lines newlines = left.node.lines newlines := by cases left; rfl

theorem lines_conditional (test yes no : Expr) :
    (conditional test yes no).lines newlines = test.node.lines newlines := by cases test; rfl

theorem stops_binary {left right : Expr} {operator : Operator} :
    (binary left operator right).Stops newlines c z ↔
      right.node.Stops (left.node.lines newlines) false z ∧ NoMore c (left.node.lines newlines) z := by
  cases left
  cases right
  rfl

theorem stops_conditional {test yes no : Expr} :
    (conditional test yes no).Stops newlines c z ↔
      no.node.Stops (test.node.lines newlines) (c && !test.node.isBinary) z := by
  cases test
  cases no
  rfl

theorem stops_of_isTerm : {n : Node} → n.isTerm = true →
    (n.Stops newlines c z ↔ n.Follows newlines z ∧ NoMore c (n.lines newlines) z)
  | .unary .., _ | .null, _ | .bool _, _ | .number _, _ | .string _, _ | .array .., _ | .object .., _ | .template _, _
  | .heredoc .., _ | .parenthesis _, _ | .variable _, _ | .call .., _ | .forArray .., _ | .forObject .., _ => Iff.rfl
  | .conditional .., h | .traversal .., h | .binary .., h => by cases h

theorem follows_of_noCall : (n : Node) → (n.endsInNumber = true → NoPlaces z) → NoCall (n.lines newlines) z →
    n.Follows newlines z
  | .null, _, h => h
  | .bool _, _, h => h
  | .variable _, _, h => h
  | .number _, hplaces, _ => hplaces rfl
  | .unary _ ⟨_, operand⟩, hplaces, h => follows_of_noCall operand hplaces h
  | .string _, _, _ | .array .., _, _ | .object .., _, _ | .template _, _, _ | .heredoc .., _, _ | .parenthesis _, _, _
  | .conditional .., _, _ | .call .., _, _ | .traversal .., _, _ | .binary .., _, _ | .forArray .., _, _
  | .forObject .., _, _ => trivial

end Node

namespace Grammar

variable {inner inner' : Inner} {k : Nat}

/-! ## Steps of traversals -/

/-- How a step of a traversal begins: not like the dots behind an expression. -/
def StepHead (t : Text) : Prop := ∃ c d u, t = c :: d :: u ∧ (c = '[' ∨ c = '.' ∧ d ≠ '.')

theorem stepHead_dot {before t : Text} {c : Char} (hb : Blank before) (hc : c ≠ '.') :
    StepHead ('.' :: (before ++ c :: t)) := by
  have hhead : (before ++ c :: t).head? ≠ some '.' := head_of_blank hb rfl (by simpa using hc)
  obtain ⟨d, u, hd⟩ : ∃ d u, before ++ c :: t = d :: u := List.exists_cons_of_ne_nil (by simp)
  rw [hd] at hhead ⊢
  exact ⟨'.', d, u, rfl, .inr ⟨rfl, by simpa using hhead⟩⟩

/-- Behind the dot and the blank text the first character tells which step it is. -/
theorem dotStep_cons {before t : Text} {c : Char} (hb : Blank before) (hc : isSolid c = true) :
    dotStep ('.' :: (before ++ c :: t)) =
      (if c = '*' then (do
        Reader.char '*'
        return .splat before)
      else if c.isDigit then (do return .position before (← position))
      else if startsWith c then (do return .field before (← identifier))
      else Reader.stop .traversalStep : Reader Step) (c :: t) :=
  (Reader.bind_of_ok (Reader.char_cons _ _)).trans <|
    (Reader.bind_of_ok (blank_append hb (blankEnd_cons hc))).trans (Reader.bind_of_ok (Reader.peek_cons _ _))

theorem dotStep_position {before digits s r : Text} (hb : Blank before) (h : position s = .ok digits r) :
    StepHead (Step.position before digits).text ∧
      ∀ r', Alike r r' → dotStep ((Step.position before digits).text ++ r') = .ok (.position before digits) r' := by
  obtain ⟨-, ⟨d, u, rfl, hd⟩, hagain⟩ := position_eq_ok h
  have hne := fun x => Text.ne_of_class hd (d := x)
  rw [Step.text_position]
  refine ⟨stepHead_dot hb (hne '.' rfl), fun r' halike => ?_⟩
  have htext : '.' :: (before ++ d :: u) ++ r' = '.' :: (before ++ d :: (u ++ r')) := by simp
  rw [htext, dotStep_cons hb (isSolid_of_extendsWith (extendsWith_of_isDigit hd)), if_neg (hne '*' rfl), if_pos hd]
  exact Reader.bind_ok (hagain r' halike) rfl

theorem dotStep_field {before name s r : Text} (hb : Blank before) (h : identifier s = .ok name r) :
    StepHead (Step.field before name).text ∧
      ∀ r', Alike r r' → dotStep ((Step.field before name).text ++ r') = .ok (.field before name) r' := by
  obtain ⟨-, hident, havoid⟩ := identifier_eq_ok h
  have hident' := hident
  obtain ⟨d, u, rfl, hd, -⟩ := hident
  have hne := fun x => Text.ne_of_class hd (d := x)
  have hdigit : ¬ d.isDigit = true := not_isDigit_of_startsWith hd
  rw [Step.text_field]
  refine ⟨stepHead_dot hb (hne '.' rfl), fun r' halike => ?_⟩
  have htext : '.' :: (before ++ d :: u) ++ r' = '.' :: (before ++ d :: (u ++ r')) := by simp
  rw [htext, dotStep_cons hb (isSolid_of_startsWith hd), if_neg (hne '*' rfl), if_neg hdigit, if_pos hd]
  exact Reader.bind_ok (identifier_append hident' (halike.avoids (fun _ h => h) havoid)) rfl

theorem dotStep_repeats {s r : Text} {st : Step} (hs : dotStep s = .ok st r) :
    StepHead st.text ∧ (∃ t, st.text = '.' :: t) ∧ ∀ r', Alike r r' → dotStep (st.text ++ r') = .ok st r' := by
  simp only [dotStep, Reader.bind_iff, Reader.char_eq_ok_iff, Reader.peek_eq_ok_iff] at hs
  obtain ⟨_, s1, rfl, before, s2, hbefore, c, s3, ⟨hc, rfl⟩, hs⟩ := hs
  obtain ⟨t, rfl⟩ := List.head?_eq_some_iff.mp hc
  obtain ⟨-, hblank, -⟩ := blank_eq_ok hbefore (by simp)
  split at hs
  · simp only [Reader.bind_iff, Reader.pure_iff] at hs
    obtain ⟨_, s4, -, rfl, rfl⟩ := hs
    rw [Step.text_splat]
    refine ⟨stepHead_dot hblank (by decide), ⟨_, rfl⟩, fun r' _ => ?_⟩
    have htext : '.' :: (before ++ ['*']) ++ r' = '.' :: (before ++ '*' :: r') := by simp
    rw [htext, dotStep_cons hblank rfl, if_pos rfl]
    exact Reader.bind_ok (Reader.char_cons _ _) rfl
  · split at hs
    · simp only [Reader.bind_iff, Reader.pure_iff] at hs
      obtain ⟨digits, s4, hposition, rfl, rfl⟩ := hs
      obtain ⟨hhead, hagain⟩ := dotStep_position hblank hposition
      exact ⟨hhead, ⟨_, Step.text_position before digits⟩, hagain⟩
    · split at hs
      · simp only [Reader.bind_iff, Reader.pure_iff] at hs
        obtain ⟨name, s4, hname, rfl, rfl⟩ := hs
        obtain ⟨hhead, hagain⟩ := dotStep_field hblank hname
        exact ⟨hhead, ⟨_, Step.text_field before name⟩, hagain⟩
      · cases hs

theorem stepHead_bracket {t : Text} (ht : t ≠ []) : StepHead ('[' :: t) := by
  obtain ⟨d, u, rfl⟩ := List.exists_cons_of_ne_nil ht
  exact ⟨'[', d, u, rfl, .inl rfl⟩

theorem bracketStep_of_or {before t r : Text} {st : Step} (hb : blank (before ++ t) = .ok before t)
    (hst : ((fullSplat before).or (index inner before)) t = .ok st (']' :: r)) :
    bracketStep inner ('[' :: (before ++ t)) = .ok st r :=
  Reader.bind_ok (Reader.char_cons _ _) <| Reader.bind_ok hb <| Reader.bind_ok hst <|
    Reader.bind_ok (Reader.require_eq_ok_iff.mpr (Reader.char_cons _ _)) rfl

theorem bracketStep_fullSplat {before after : Text} (hb : Blank before) (ha : Blank after) (r : Text) :
    bracketStep inner ((Step.fullSplat before after).text ++ r) = .ok (.fullSplat before after) r := by
  have htext : (Step.fullSplat before after).text ++ r = '[' :: (before ++ '*' :: (after ++ ']' :: r)) := by
    simp [Step.text_fullSplat]
  have hsplat : fullSplat before ('*' :: (after ++ ']' :: r)) = .ok (.fullSplat before after) (']' :: r) :=
    Reader.bind_ok (Reader.char_cons _ _) <| Reader.bind_ok (blank_append ha (blankEnd_cons rfl)) rfl
  rw [htext]
  exact bracketStep_of_or (blank_append hb (blankEnd_cons rfl)) (Reader.or_of_ok hsplat)

theorem bracketStep_index (h : inner.Repeats inner' k) {before after s t u r : Text} {e : Expr}
    (hb : blank s = .ok before t) (he : inner.expression .enclosed t = .ok e u) (ha : blank u = .ok after (']' :: r))
    (sound : e.node.Sound) (hk : e.node.text.length < k) (r' : Text) :
    bracketStep inner' ((Step.index (e.within before after)).text ++ r') = .ok (.index (e.within before after)) r' := by
  obtain ⟨hstart, -, -, hagain⟩ := h.enclosed true true hb he ha (by simp) sound hk
  obtain ⟨hb', he', ha'⟩ := hagain (']' :: r') (stopper_closer rfl) (alike_of_avoids (Text.avoids_cons.mpr rfl))
  have htext : (Step.index (e.within before after)).text ++ r' =
      '[' :: (before ++ (e.node.text ++ (after ++ ']' :: r'))) := by
    simp [Step.text_index, Expr.within_text]
  have hsplat : fullSplat before (e.node.text ++ (after ++ ']' :: r')) = .soft :=
    Reader.bind_of_soft (Reader.char_of_head ((hstart.append _).head rfl))
  have hindex : index inner' before (e.node.text ++ (after ++ ']' :: r')) =
      .ok (.index (e.within before after)) (']' :: r') :=
    Reader.bind_ok he' <| Reader.bind_ok ha' rfl
  rw [htext]
  exact bracketStep_of_or hb' ((Reader.or_of_soft hsplat).trans hindex)

theorem bracketStep_repeats (h : inner.Repeats inner' k) {s r : Text} {st : Step}
    (hs : bracketStep inner s = .ok st r) (sound : st.Sound) (hk : st.text.length ≤ k) :
    StepHead st.text ∧ (∃ t, st.text = '[' :: t) ∧ ∀ r', bracketStep inner' (st.text ++ r') = .ok st r' := by
  simp only [bracketStep, Reader.bind_iff, Reader.pure_iff, Reader.char_eq_ok_iff, Reader.require_eq_ok_iff] at hs
  obtain ⟨_, s1, rfl, before, s2, hbefore, st, s3, hst, _, s4, rfl, rfl, rfl⟩ := hs
  rcases Reader.or_eq_ok_iff.mp hst with hst | ⟨-, hst⟩
  · simp only [fullSplat, Reader.bind_iff, Reader.pure_iff, Reader.char_eq_ok_iff] at hst
    obtain ⟨_, s5, rfl, after, s6, hafter, rfl, rfl⟩ := hst
    obtain ⟨-, hblank, -⟩ := blank_eq_ok hbefore (by simp)
    obtain ⟨-, hafter, -⟩ := blank_eq_ok hafter (by simp)
    have htext := Step.text_fullSplat before after
    exact ⟨htext ▸ stepHead_bracket (by simp), ⟨_, htext⟩, bracketStep_fullSplat hblank hafter⟩
  · simp only [index, Reader.bind_iff, Reader.pure_iff] at hst
    obtain ⟨e, s5, he, after, s6, hafter, rfl, rfl⟩ := hst
    have htext := Step.text_index (e.within before after)
    have hlen : e.node.text.length < k := by
      rw [htext, Expr.within_text] at hk
      simp only [List.length_cons, List.length_append] at hk
      omega
    exact ⟨htext ▸ stepHead_bracket (by simp), ⟨_, htext⟩,
      bracketStep_index h hbefore he hafter (Expr.sound_of_within (b := before) (a := after) sound) hlen⟩

theorem step_repeats (h : inner.Repeats inner' k) {newlines : Bool} {s r : Text} {st : Step}
    (hs : step inner newlines s = .ok st r) (sound : st.Sound) (hk : st.text.length ≤ k) :
    StepHead st.text ∧ ∀ r', Alike r r' → step inner' newlines (st.text ++ r') = .ok st r' := by
  simp only [step, Reader.bind_iff, Reader.absent_eq_ok_iff] at hs
  obtain ⟨_, s1, -, _, s2, ⟨-, rfl⟩, hs⟩ := hs
  have hstep : StepHead st.text ∧ ∀ r', Alike r r' → (dotStep.or (bracketStep inner')) (st.text ++ r') = .ok st r' := by
    rcases Reader.or_eq_ok_iff.mp hs with hs | ⟨-, hs⟩
    · obtain ⟨hhead, -, hagain⟩ := dotStep_repeats hs
      exact ⟨hhead, fun r' halike => Reader.or_of_ok (hagain r' halike)⟩
    · obtain ⟨hhead, ⟨t, ht⟩, hagain⟩ := bracketStep_repeats h hs sound hk
      refine ⟨hhead, fun r' _ => ?_⟩
      have hsoft : dotStep (st.text ++ r') = .soft := by
        rw [ht]
        exact Reader.bind_of_soft (Reader.char_of_head (by simp))
      rw [Reader.or_of_soft hsoft]
      exact hagain r'
  refine ⟨hstep.1, fun r' halike => ?_⟩
  have hread := hstep.2 r' halike
  obtain ⟨c, d, u, ht, hc⟩ := hstep.1
  rw [ht] at hread ⊢
  have hgap : gap newlines (c :: d :: u ++ r') = .ok [] (c :: d :: u ++ r') := by
    rcases hc with rfl | ⟨rfl, -⟩
    · exact (blankEnd_cons rfl).gapEnd
    · exact (blankEnd_cons rfl).gapEnd
  have hdots : Reader.word ['.', '.'] (c :: d :: u ++ r') = .soft := by
    rcases hc with rfl | ⟨rfl, hd⟩
    · rfl
    · simp [Reader.word, Text.strip?, Ne.symm hd]
  exact Reader.bind_ok hgap <| Reader.bind_ok (Reader.absent_of_soft hdots) hread

theorem StepHead.append {t : Text} (h : StepHead t) (r : Text) : StepHead (t ++ r) := by
  obtain ⟨c, d, u, rfl, hc⟩ := h
  exact ⟨c, d, u ++ r, rfl, hc⟩

theorem StepHead.avoids {t : Text} (h : StepHead t) : t.Avoids extendsWith := by
  obtain ⟨c, d, u, rfl, rfl | ⟨rfl, -⟩⟩ := h
  · exact Text.avoids_cons.mpr rfl
  · exact Text.avoids_cons.mpr rfl

theorem StepHead.blankEnd {t : Text} (h : StepHead t) : BlankEnd t := by
  obtain ⟨c, d, u, rfl, rfl | ⟨rfl, -⟩⟩ := h
  · exact blankEnd_cons rfl
  · exact blankEnd_cons rfl

theorem StepHead.continuation? {t : Text} (h : StepHead t) (c : Bool) : continuation? c t = some .traversal := by
  obtain ⟨c, d, u, rfl, rfl | ⟨rfl, hd⟩⟩ := h
  · rfl
  · simp [Grammar.continuation?, hd]

theorem StepHead.callAhead {t : Text} (h : StepHead t) : callAhead t = false := by
  obtain ⟨c, d, u, rfl, rfl | ⟨rfl, -⟩⟩ := h
  · rfl
  · rfl

theorem step_of_stepFree {newlines : Bool} {z a u : Text} (hgap : gap newlines z = .ok a u) (hu : StepFree u) :
    step inner newlines z = .soft := by
  refine (Reader.bind_of_ok hgap).trans ?_
  by_cases hc : u.head? = some '.'
  · obtain ⟨v, rfl⟩ := List.head?_eq_some_iff.mp hc
    obtain ⟨w, rfl⟩ := List.head?_eq_some_iff.mp (hu.2 v rfl)
    exact Reader.bind_of_soft (Reader.absent_of_ok (Reader.word_append ['.', '.'] w))
  · have hdots : Reader.word ['.', '.'] u = .soft := Reader.word_eq_soft_of_head hc
    have hsoft : dotStep u = .soft := Reader.bind_of_soft (Reader.char_of_head hc)
    refine (Reader.bind_of_ok (Reader.absent_of_soft hdots)).trans ((Reader.or_of_soft hsoft).trans ?_)
    exact Reader.bind_of_soft (Reader.char_of_head hu.1)

theorem length_step_le {sts : List Step} {st : Step} (h : st ∈ sts) : st.text.length ≤ (sts.flatMap Step.text).length := by
  obtain ⟨pre, post, rfl⟩ := List.append_of_mem h
  simp only [List.flatMap_append, List.flatMap_cons, List.length_append]
  omega

/-- The steps of a traversal are read again in front of a text where no further step begins. -/
theorem steps_repeats (h : inner.Repeats inner' k) {newlines : Bool} {s r : Text} {sts : List Step}
    (hs : steps inner newlines s = .ok sts r) (sound : StepsSound sts) (hk : (sts.flatMap Step.text).length ≤ k) :
    StepHead (sts.flatMap Step.text) ∧ ∀ r', Alike r r' → step inner' newlines r' = .soft →
      steps inner' newlines (sts.flatMap Step.text ++ r') = .ok sts r' := by
  simp only [steps, Reader.bind_iff, Reader.pure_iff] at hs
  obtain ⟨first, t, hfirst, more, u, hmore, rfl, rfl⟩ := hs
  obtain ⟨n, hup⟩ : ∃ n, Reader.upTo n (step inner newlines) s = .ok (first :: more) u := by
    obtain ⟨n, hn⟩ := Reader.exists_upTo_of_many hmore
    exact ⟨n + 1, by simp only [Reader.upTo, hfirst, hn]⟩
  have hread : ∀ st ∈ first :: more, StepHead st.text := by
    intro st hst
    obtain ⟨pre, post, hsplit⟩ := List.append_of_mem hst
    obtain ⟨v, w, hread, -⟩ := Reader.upTo_split (hsplit ▸ hup)
    have hlen := length_step_le hst
    exact (step_repeats h hread ((stepsSound_iff _).mp sound st hst) (by omega)).1
  refine ⟨(hread first (List.mem_cons_self ..)).append _, fun r' halike hsoft => ?_⟩
  have hagain : ∀ pre st post, first :: more = pre ++ st :: post →
      step inner' newlines (st.text ++ (post.flatMap Step.text ++ r')) = .ok st (post.flatMap Step.text ++ r') := by
    intro pre st post hsplit
    obtain ⟨v, w, hst, hlast, -⟩ := Reader.upTo_split (hsplit ▸ hup)
    have hmem : st ∈ first :: more := by simp [hsplit]
    have hlen := length_step_le hmem
    refine (step_repeats h hst ((stepsSound_iff _).mp sound st hmem) (by omega)).2 _ ?_
    cases post with
    | nil =>
      rw [hlast rfl]
      exact halike
    | cons st' post =>
      have hmem' : st' ∈ first :: more := by simp [hsplit]
      rw [List.flatMap_cons, List.append_assoc]
      exact alike_of_avoids ((hread st' hmem').append _).avoids
  have hmore' : Reader.many (step inner' newlines) (more.flatMap Step.text ++ r') = .ok more r' := by
    refine Reader.many_flatMap (fun st hst => ?_) (fun pre st post hsplit => ?_) hsoft
    · obtain ⟨c, d, v, hv, -⟩ := hread st (List.mem_cons_of_mem first hst)
      simp [hv]
    · exact hagain (first :: pre) st post (by rw [hsplit]; rfl)
  rw [List.flatMap_cons, List.append_assoc]
  exact Reader.bind_ok (hagain [] first more rfl) <| Reader.bind_ok hmore' rfl

/-! ## Operators and conditionals -/

/-- A division sign does not begin a comment. -/
def NoComment (operator : Operator) (t : Text) : Prop :=
  operator = .divide → t.head? ≠ some '/' ∧ t.head? ≠ some '*'

theorem noComment_of_continuation? {c : Bool} {operator : Operator} {t : Text} {next : Continuation}
    (h : continuation? c (operator.symbol ++ t) = some next) : NoComment operator t := by
  rintro rfl
  cases t with
  | nil => cases h
  | cons d t =>
    constructor
    · rintro hd
      cases hd
      cases h
    · rintro hd
      cases hd
      cases h

/-- An operator with something behind it is seen as one wherever an expression may go on. -/
structure OperatorAhead (operator : Operator) (t : Text) : Prop where
  blankEnd : BlankEnd (operator.symbol ++ t)
  continuation? : ∀ c, continuation? c (operator.symbol ++ t) = some .operator
  callAhead : callAhead (operator.symbol ++ t) = false
  stepFree : StepFree (operator.symbol ++ t)

theorem operatorAhead {operator : Operator} {t : Text} (ht : t ≠ []) (h : NoComment operator t) :
    OperatorAhead operator t := by
  obtain ⟨d, u, rfl⟩ := List.exists_cons_of_ne_nil ht
  refine ⟨?_, fun c => ?_, ?_, ?_⟩
  · cases operator
    case divide =>
      obtain ⟨hslash, hstar⟩ := h rfl
      have hline : lineComment ('/' :: d :: u) = .soft := by
        unfold lineComment
        split
        · next heq => cases heq
        · next heq =>
          rw [(List.cons.inj (List.cons.inj heq).2).1] at hslash
          exact absurd rfl hslash
        · rfl
      have hcomment : inlineComment ('/' :: d :: u) = .soft := by
        unfold inlineComment
        split
        · next heq =>
          rw [(List.cons.inj (List.cons.inj heq).2).1] at hstar
          exact absurd rfl hstar
        · rfl
      exact blankOf_of_soft (Text.avoids_cons.mpr rfl) ((Reader.or_of_soft hline).trans hcomment)
    all_goals exact blankEnd_cons rfl
  · cases operator
    case divide =>
      obtain ⟨hslash, hstar⟩ := h rfl
      have hd : (d == '/') = false ∧ (d == '*') = false := by simpa using And.intro hslash hstar
      simp [Operator.symbol, continuation?, hd]
    all_goals simp [Operator.symbol, continuation?]
  · cases operator <;> rfl
  · cases operator <;> exact ⟨by simp [Operator.symbol], by intro v hv; cases hv⟩

theorem exists_cons_symbol (operator : Operator) : ∃ c u, operator.symbol = c :: u ∧ c ≠ 'e' ∧ c ≠ 'E' ∧ c ≠ '.' := by
  cases operator <;> exact ⟨_, _, rfl, by decide, by decide, by decide⟩

theorem rightSide_repeats (h : inner.Repeats inner' k) {ctx : Context} {s r : Text} {e : Expr}
    (hs : rightSide inner ctx s = .ok e r) (sound : e.node.Sound) (hk : e.node.text.length < k) :
    (∃ t, s = e.decor.lead ++ t) ∧ StartsTerm e.node.text ∧ Blank e.decor.lead ∧
      (e.Closed → e.plain.withBefore e.decor.lead = e) ∧
      (∀ a, (e.plain.withBefore e.decor.lead).withAfter a = e.withAfter a) ∧
      ∀ r', Alike r r' → e.node.Stops ctx.newlines (!ctx.operand) r' →
        rightSide inner' ctx (e.decor.lead ++ (e.node.text ++ r')) = .ok (e.plain.withBefore e.decor.lead) r' := by
  simp only [rightSide, Reader.bind_iff, Reader.pure_iff] at hs
  obtain ⟨before, s1, hbefore, e, s2, he, rfl, rfl⟩ := hs
  obtain ⟨hs1, hstart⟩ := h.starts _ _ _ _ he sound
  obtain ⟨rfl, hgap, -⟩ := gap_eq_ok hbefore hs1
  refine ⟨⟨s1, rfl⟩, hstart, hgap.blank, fun hclosed => ?_, fun a => rfl, fun r' halike hstops => ?_⟩
  · have hafter := hclosed.plain_after
    exact congrArg (fun a => (⟨⟨some before, a⟩, e.node⟩ : Expr)) hafter
  · have hread := h.expression _ _ _ _ he sound hk r' halike hstops
    exact Reader.bind_ok (gap_append hgap (hstart.append _).blankEnd.gapEnd) <| Reader.bind_ok hread rfl

theorem eq_true_of_conditional {c : Bool} {u : Text} (h : continuation? c u = some .conditional) : c = true := by
  cases c with
  | true => rfl
  | false =>
    unfold continuation? at h
    simp only [Bool.false_eq_true, if_false] at h
    repeat' split at h
    all_goals cases h

theorem conditional_repeats (h : inner.Repeats inner' k) {newlines : Bool} {ctx : Context} {s r : Text} {test e : Expr}
    (hs : conditional inner ctx test s = .ok e r) (sound : e.node.Sound) (hk : e.node.text.length ≤ k)
    (hlines : ctx.newlines = test.node.lines newlines) (hoperand : ctx.operand = test.node.isBinary) :
    test.Leads ∧ e.decor = .bare ∧ ∃ w, s.head? = some '?' ∧ w ≠ [] ∧ e.node.text = test.text ++ '?' :: w ∧
      e.node.lines newlines = test.node.lines newlines ∧
      ∀ r', Alike r r' → e.node.Stops newlines true r' → conditional inner' ctx test ('?' :: (w ++ r')) = .ok e r' := by
  simp only [conditional, Reader.bind_iff, Reader.pure_iff, Reader.char_eq_ok_iff, Reader.require_eq_ok_iff] at hs
  obtain ⟨_, s1, rfl, yes, s2, hyes, after, s3, hafter, _, s4, rfl, no, s5, hno, rfl, rfl⟩ := hs
  obtain ⟨⟨-, hleads, -⟩, hyesSound, hnoSound, hclosed⟩ := sound
  obtain ⟨rfl, hgap, -⟩ := gap_eq_ok hafter (by simp)
  have htext : (Node.conditional test (yes.withAfter after) no).text = test.text ++
      '?' :: (yes.decor.lead ++ (yes.node.text ++ (after ++ ':' :: (no.decor.lead ++ no.node.text)))) := by
    rw [Node.text_conditional, Expr.text_eq (yes.withAfter after), Expr.text_eq no, hclosed]
    simp [Expr.withAfter, Decor.lead, Decor.tail]
  have hlength := congrArg List.length htext
  simp only [List.length_append, List.length_cons] at hlength
  change (Node.conditional test (yes.withAfter after) no).text.length ≤ k at hk
  obtain ⟨-, -, -, -, hyesAfter, hyesAgain⟩ := rightSide_repeats h hyes
    ((Expr.sound_iff (yes.withAfter after)).mp hyesSound) (by omega)
  obtain ⟨-, hstart, hlead, hnoClosed, -, hnoAgain⟩ := rightSide_repeats h hno ((Expr.sound_iff _).mp hnoSound) (by omega)
  refine ⟨hleads, rfl, yes.decor.lead ++ (yes.node.text ++ (after ++ ':' :: (no.decor.lead ++ no.node.text))), rfl,
    by simp, htext,
    Node.lines_conditional _ _ _, fun r' halike hstops => ?_⟩
  have hcolon : Stopper (!ctx.operand) (':' :: (no.decor.lead ++ (no.node.text ++ r'))) :=
    stopper_colon (head_of_blank_startsTerm hlead hstart rfl rfl)
  have hyes' := hyesAgain (after ++ ':' :: (no.decor.lead ++ (no.node.text ++ r')))
    (alike_of_blank hgap.blank (Text.avoids_cons.mpr rfl)) (stops_of_halts (halts_of_stopper hgap.blank hcolon) _)
  have hno' := hnoAgain r' halike (by
    rw [hlines, hoperand]
    exact Node.stops_conditional.mp hstops)
  rw [hnoClosed hclosed] at hno'
  have htext' : yes.decor.lead ++ (yes.node.text ++ (after ++ ':' :: (no.decor.lead ++ no.node.text))) ++ r' =
      yes.decor.lead ++ (yes.node.text ++ (after ++ ':' :: (no.decor.lead ++ (no.node.text ++ r')))) := by simp
  rw [htext', ← hyesAfter after]
  exact Reader.bind_ok (Reader.char_cons _ _) <| Reader.bind_ok hyes' <|
    Reader.bind_ok (gap_append hgap (blankEnd_cons rfl).gapEnd) <|
    Reader.bind_ok (Reader.require_eq_ok_iff.mpr (Reader.char_cons _ _)) <| Reader.bind_ok hno' rfl

/-! ## What follows a term -/

theorem extend_of_gap {c : Bool} {n : Nat} {ctx : Context} {e : Expr} {s after r : Text}
    (hgap : gap ctx.newlines s = .ok after r) :
    extend inner c (n + 1) ctx e s =
      match continuation? c r with
      | none => .ok e s
      | some .traversal =>
        ((steps inner ctx.newlines).bind fun more =>
          extend inner c n ctx (.ofNode (.traversal (e.withAfter after) more))) r
      | some .conditional => conditional inner ctx (e.withAfter after) r
      | some .operator =>
        (operator.bind fun op =>
          (rightSide inner { ctx with operand := true }).bind fun right =>
            extend inner c n { ctx with operand := true } (.ofNode (.binary (e.withAfter after) op right))) r := by
  cases hcont : continuation? c r with
  | none => simp only [extend, hgap, hcont]
  | some way => cases way <;> simp only [extend, hgap, hcont]

theorem extend_of_noMore {c : Bool} {ctx : Context} {z : Text} (h : NoMore c ctx.newlines z) (n : Nat) (e : Expr) :
    extend inner c n ctx e z = .ok e z := by
  cases n with
  | zero => rfl
  | succ n =>
    obtain ⟨a, u, hgap, hnone, -⟩ := h
    rw [extend_of_gap hgap, hnone]

/-- What an expression goes on from is a part of it. -/
theorem part_of_extend {c : Bool} {n : Nat} {ctx : Context} {e e' : Expr} {s r : Text}
    (hs : extend inner c n ctx e s = .ok e' r) (sound : e'.node.Sound) :
    e.node.Sound ∧ e.node.text.length ≤ e'.node.text.length := by
  induction n generalizing ctx e s with
  | zero =>
    obtain ⟨rfl, -⟩ := Reader.pure_iff.mp hs
    exact ⟨sound, Nat.le_refl _⟩
  | succ n ih =>
    obtain ⟨after, u, hgap, -, -⟩ := gap_spec ctx.newlines s
    have hlength : e.node.text.length ≤ (e.withAfter after).text.length := by
      rw [Expr.text_eq, List.length_append, List.length_append]
      change e.node.text.length ≤ _ + (e.node.text.length + _)
      omega
    rw [extend_of_gap hgap] at hs
    split at hs
    · injection hs with heq _
      rw [heq]
      exact ⟨sound, Nat.le_refl _⟩
    · obtain ⟨more, v, -, hmore⟩ := Reader.bind_eq_ok_iff.mp hs
      obtain ⟨⟨⟨hbase, -⟩, -⟩, hlen⟩ := ih hmore
      have htext := congrArg List.length (Node.text_traversal (e.withAfter after) more)
      rw [List.length_append] at htext
      change (Node.traversal (e.withAfter after) more).text.length ≤ _ at hlen
      exact ⟨(Expr.sound_iff (e.withAfter after)).mp hbase, by omega⟩
    · simp only [conditional, Reader.bind_iff, Reader.pure_iff] at hs
      obtain ⟨_, _, -, yes, _, -, after', _, -, _, _, -, no, _, -, rfl, -⟩ := hs
      obtain ⟨⟨htest, -⟩, -⟩ := sound
      have htext := congrArg List.length (Node.text_conditional (e.withAfter after) (yes.withAfter after') no)
      rw [List.length_append] at htext
      refine ⟨(Expr.sound_iff (e.withAfter after)).mp htest, ?_⟩
      change _ ≤ (Node.conditional (e.withAfter after) (yes.withAfter after') no).text.length
      omega
    · obtain ⟨op, v, -, hop⟩ := Reader.bind_eq_ok_iff.mp hs
      obtain ⟨right, w, -, hright⟩ := Reader.bind_eq_ok_iff.mp hop
      obtain ⟨⟨⟨hleft, -⟩, -⟩, hlen⟩ := ih hright
      have htext := congrArg List.length (Node.text_binary (e.withAfter after) op right)
      rw [List.length_append] at htext
      change (Node.binary (e.withAfter after) op right).text.length ≤ _ at hlen
      exact ⟨(Expr.sound_iff (e.withAfter after)).mp hleft, by omega⟩

/-- An expression goes on from another one by a text, and does so again in front of any text at which it ends. -/
structure GoesOn (inner' : Inner) (c newlines : Bool) (ctx : Context) (e e' : Expr) (s r w : Text) : Prop where
  bare : e'.decor = .bare
  text : e'.node.text = e.decor.lead ++ (e.node.text ++ w)
  leads : e.Leads
  lines : e'.node.lines newlines = e.node.lines newlines
  alike : ∀ x, Alike s (w ++ x)
  noCall : ∀ x, NoCall ctx.newlines (w ++ x)
  noPlaces : e.node.endsInNumber = true → ∀ x, NoPlaces (w ++ x)
  noStep : e.node.isTerm = false → ∀ x, step inner' ctx.newlines (w ++ x) = .soft
  halts : e.node.isBinary = true → ∀ x, Halts false (w ++ x)
  reads : ∀ f n r', f.node = e.node → f.decor.before = e.decor.before → w.length ≤ n → Alike r r' →
    e'.node.Stops newlines c r' → extend inner' c n ctx f (w ++ r') = .ok e' r'

theorem withAfter_congr {e f : Expr} (hnode : f.node = e.node) (hbefore : f.decor.before = e.decor.before) (after : Text) :
    f.withAfter after = e.withAfter after := by
  simp only [Expr.withAfter, hnode, hbefore]

theorem noPlaces_append {t : Text} (h : NoPlaces t) (ht : 2 ≤ t.length) (x : Text) : NoPlaces (t ++ x) := by
  obtain ⟨c, d, u, rfl⟩ : ∃ c d u, t = c :: d :: u := by
    match t, ht with
    | c :: d :: u, _ => exact ⟨c, d, u, rfl⟩
  intro a v hv
  obtain ⟨rfl, hrest⟩ := List.cons.inj hv
  rw [← (List.cons.inj hrest).1]
  exact h d u rfl

theorem noPlaces_of_head {t : Text} (h : t.head? ≠ some '.') : NoPlaces t := by
  rintro a v rfl
  exact absurd rfl h

/-- What was read behind an expression that is already made of several parts. -/
theorem rest_of_goesOn {c newlines : Bool} {ctx : Context} {e e' : Expr} {s r : Text} {P : Text → Prop}
    (hbare : e.decor = .bare) (hstop : ∀ z, e.node.Stops newlines c z → NoMore c ctx.newlines z ∧ P z)
    (hgo : ∀ w, GoesOn inner' c newlines ctx e e' s r w → ∀ x, P (w ++ x))
    (h : e' = e ∧ r = s ∨ ∃ w, GoesOn inner' c newlines ctx e e' s r w) :
    ∃ w, e'.decor = .bare ∧ e'.node.text = e.node.text ++ w ∧ e'.node.lines newlines = e.node.lines newlines ∧
      ∀ r', Alike r r' → e'.node.Stops newlines c r' → Alike s (w ++ r') ∧ P (w ++ r') ∧
        ∀ n, w.length ≤ n → extend inner' c n ctx e (w ++ r') = .ok e' r' := by
  rcases h with ⟨rfl, rfl⟩ | ⟨w, hw⟩
  · refine ⟨[], hbare, by simp, rfl, fun r' halike hstops => ?_⟩
    obtain ⟨hnone, hP⟩ := hstop r' hstops
    exact ⟨halike, hP, fun n _ => extend_of_noMore hnone n _⟩
  · refine ⟨w, hw.bare, ?_, hw.lines, fun r' halike hstops => ?_⟩
    · rw [hw.text, hbare]
      rfl
    · exact ⟨hw.alike r', hgo w hw r', fun n hn => hw.reads e n r' rfl rfl hn halike hstops⟩

theorem noPlaces_of_blank {t r : Text} (ht : Blank t) (hr : r.head? ≠ some '.') : NoPlaces (t ++ r) :=
  noPlaces_of_head (head_of_blank ht rfl hr)

section
variable {c newlines : Bool} {ctx : Context} {e e' : Expr} {u v r after w : Text}

theorem goesOn_traversal (h : inner.Repeats inner' k) {more : List Step} (hafter : IsGap ctx.newlines after)
    (hmore : steps inner ctx.newlines u = .ok more v) (sound : (Node.traversal (e.withAfter after) more).Sound)
    (hk : (more.flatMap Step.text).length ≤ k) (hbare : e'.decor = .bare)
    (htext : e'.node.text = (Node.traversal (e.withAfter after) more).text ++ w)
    (hlines : e'.node.lines newlines = e.node.lines newlines)
    (hreads : ∀ r', Alike r r' → e'.node.Stops newlines c r' → Alike v (w ++ r') ∧
      step inner' ctx.newlines (w ++ r') = .soft ∧
      ∀ n, w.length ≤ n → extend inner' c n ctx (.ofNode (.traversal (e.withAfter after) more)) (w ++ r') = .ok e' r') :
    GoesOn inner' c newlines ctx e e' (after ++ u) r (after ++ (more.flatMap Step.text ++ w)) := by
  obtain ⟨⟨-, hleads, hterm⟩, hsteps, hplaces⟩ := sound
  have hterm' : e.node.isTerm = true := hterm
  obtain ⟨hhead, hagain⟩ := steps_repeats h hmore hsteps hk
  have hhead' : ∀ x, StepHead (more.flatMap Step.text ++ w ++ x) := fun x => by
    rw [List.append_assoc]
    exact hhead.append _
  refine ⟨hbare, ?_, hleads, hlines, fun x => ?_, fun x => ?_, fun hnumber x => ?_, fun hfalse => ?_, fun htrue => ?_, ?_⟩
  · rw [htext, Node.text_traversal, Expr.text_eq]
    simp [Expr.withAfter, Decor.lead, Decor.tail]
  · rw [List.append_assoc]
    exact alike_append hafter.blank (alike_of_avoids (hhead' x).avoids)
  · rw [List.append_assoc]
    exact ⟨after, _, gap_append hafter (hhead' x).blankEnd.gapEnd, (hhead' x).callAhead⟩
  · rw [← List.append_assoc, List.append_assoc]
    refine noPlaces_append (hplaces hnumber) ?_ _
    obtain ⟨a, b, t, ht, -⟩ := hhead
    simp only [ht, List.length_append, List.length_cons]
    omega
  · rw [hterm'] at hfalse
    cases hfalse
  · cases he : e.node <;> simp_all [Node.isTerm, Node.isBinary]
  · intro f n r' hnode hbefore hn halike hstops
    obtain ⟨hv, hsoft, hextend⟩ := hreads r' halike hstops
    obtain ⟨m, rfl, hm⟩ : ∃ m, n = m + 1 ∧ w.length ≤ m := by
      obtain ⟨a, b, t, ht, -⟩ := hhead
      simp only [ht, List.length_append, List.length_cons] at hn
      exact ⟨n - 1, by omega, by omega⟩
    rw [List.append_assoc, extend_of_gap (gap_append hafter (hhead' r').blankEnd.gapEnd), (hhead' r').continuation?,
      withAfter_congr hnode hbefore, List.append_assoc]
    exact Reader.bind_eq_ok_iff.mpr ⟨more, w ++ r', hagain _ hv hsoft, hextend m hm⟩

theorem goesOn_conditional (h : inner.Repeats inner' k) (hafter : IsGap ctx.newlines after)
    (hs : conditional inner ctx (e.withAfter after) u = .ok e' r) (sound : e'.node.Sound) (hk : e'.node.text.length ≤ k)
    (hlines : ctx.newlines = e.node.lines newlines) (hoperand : ctx.operand = e.node.isBinary) :
    ∃ w, GoesOn inner' true newlines ctx e e' (after ++ u) r (after ++ '?' :: w) := by
  obtain ⟨hleads, hbare, w, hhead, hne, htext, hlines', hagain⟩ := conditional_repeats h hs sound hk hlines hoperand
  obtain ⟨t, rfl⟩ := List.head?_eq_some_iff.mp hhead
  obtain ⟨d, w', rfl⟩ := List.exists_cons_of_ne_nil hne
  have hgap : ∀ x, gap ctx.newlines (after ++ '?' :: x) = .ok after ('?' :: x) := fun x =>
    gap_append hafter (blankEnd_cons rfl).gapEnd
  have hassoc : ∀ x, after ++ '?' :: d :: w' ++ x = after ++ '?' :: d :: (w' ++ x) := fun x => by simp
  refine ⟨d :: w', hbare, ?_, hleads, hlines', fun x => ?_, fun x => ?_, fun _ x => ?_, fun _ x => ?_, fun _ x => ?_, ?_⟩
  · rw [htext, Expr.text_eq]
    simp [Expr.withAfter, Decor.lead, Decor.tail]
  · rw [hassoc]
    exact alike_append hafter.blank (alike_of_avoids (Text.avoids_cons.mpr rfl))
  · rw [hassoc]
    exact ⟨after, _, hgap _, rfl⟩
  · rw [hassoc]
    exact noPlaces_of_blank hafter.blank (by simp)
  · rw [hassoc]
    exact step_of_stepFree (hgap _) stopper_question.stepFree
  · rw [hassoc]
    exact halts_of_stopper hafter.blank stopper_question
  · intro f n r' hnode hbefore hn halike hstops
    obtain ⟨m, rfl⟩ : ∃ m, n = m + 1 := by
      simp only [List.length_append, List.length_cons] at hn
      exact ⟨n - 1, by omega⟩
    rw [hassoc, extend_of_gap (hgap _), withAfter_congr hnode hbefore]
    exact hagain r' halike hstops

theorem goesOn_operator (h : inner.Repeats inner' k) {op : Operator} {right : Expr} {t : Text}
    (hafter : IsGap ctx.newlines after) (hcont : continuation? c (op.symbol ++ t) = some .operator)
    (hright : rightSide inner { ctx with operand := true } t = .ok right v)
    (sound : (Node.binary (e.withAfter after) op right).Sound) (hk : right.node.text.length < k) (hbare : e'.decor = .bare)
    (htext : e'.node.text = (Node.binary (e.withAfter after) op right).text ++ w)
    (hlines : e'.node.lines newlines = e.node.lines newlines)
    (hreads : ∀ r', Alike r r' → e'.node.Stops newlines c r' → Alike v (w ++ r') ∧
      right.node.Stops ctx.newlines false (w ++ r') ∧ ∀ n, w.length ≤ n →
        extend inner' c n { ctx with operand := true } (.ofNode (.binary (e.withAfter after) op right)) (w ++ r') =
          .ok e' r') :
    GoesOn inner' c newlines ctx e e' (after ++ (op.symbol ++ t)) r
      (after ++ (op.symbol ++ (right.decor.lead ++ (right.node.text ++ w)))) := by
  obtain ⟨⟨-, hleads, hbinary, -⟩, hrightSound, hclosed⟩ := sound
  have hbinary' : e.node.isBinary = false := hbinary
  obtain ⟨⟨t', rfl⟩, hstart, hlead, hrightClosed, -, hagain⟩ :=
    rightSide_repeats h hright ((Expr.sound_iff right).mp hrightSound) hk
  have hahead : ∀ x, OperatorAhead op (right.decor.lead ++ (right.node.text ++ (w ++ x))) := by
    intro x
    refine operatorAhead (by simp [hstart.ne_nil]) fun hdivide => ?_
    have hnot := noComment_of_continuation? hcont hdivide
    cases hb : right.decor.lead with
    | nil => exact ⟨(hstart.append _).head rfl, (hstart.append _).head rfl⟩
    | cons a b =>
      rw [hb] at hnot
      exact hnot
  obtain ⟨a, b, hsymbol, hlow, hup, hdot⟩ := exists_cons_symbol op
  have hassoc : ∀ x, after ++ (op.symbol ++ (right.decor.lead ++ (right.node.text ++ w))) ++ x =
      after ++ (op.symbol ++ (right.decor.lead ++ (right.node.text ++ (w ++ x)))) := fun x => by simp
  have hgap : ∀ x, gap ctx.newlines (after ++ (op.symbol ++ (right.decor.lead ++ (right.node.text ++ (w ++ x))))) =
      .ok after (op.symbol ++ (right.decor.lead ++ (right.node.text ++ (w ++ x)))) := fun x =>
    gap_append hafter (hahead x).blankEnd.gapEnd
  refine ⟨hbare, ?_, hleads, hlines, fun x => ?_, fun x => ?_, fun _ x => ?_, fun _ x => ?_, fun htrue => ?_, ?_⟩
  · rw [htext, Node.text_binary, Expr.text_eq, Expr.text_eq right, hclosed]
    simp [Expr.withAfter, Decor.lead, Decor.tail]
  · rw [hassoc, hsymbol]
    exact alike_append hafter.blank (alike_cons hlow hup)
  · rw [hassoc]
    exact ⟨after, _, hgap x, (hahead x).callAhead⟩
  · rw [hassoc]
    exact noPlaces_of_blank hafter.blank (by simpa [hsymbol] using hdot)
  · rw [hassoc]
    exact step_of_stepFree (hgap x) (hahead x).stepFree
  · rw [hbinary'] at htrue
    cases htrue
  · intro f n r' hnode hbefore hn halike hstops
    obtain ⟨hv, hstopsRight, hextend⟩ := hreads r' halike hstops
    obtain ⟨m, rfl, hm⟩ : ∃ m, n = m + 1 ∧ w.length ≤ m := by
      simp only [hsymbol, List.length_append, List.length_cons] at hn
      exact ⟨n - 1, by omega, by omega⟩
    have hright' := hagain (w ++ r') hv hstopsRight
    rw [hrightClosed hclosed] at hright'
    have hnext : (right.decor.lead ++ (right.node.text ++ (w ++ r'))).head? ≠ some '=' :=
      head_of_blank_startsTerm hlead hstart rfl rfl
    rw [hassoc, extend_of_gap (hgap r'), (hahead r').continuation?, withAfter_congr hnode hbefore]
    exact Reader.bind_eq_ok_iff.mpr ⟨op, _, operator_append op hnext,
      Reader.bind_eq_ok_iff.mpr ⟨right, w ++ r', hright', hextend m hm⟩⟩

/-- What is read on behind the steps of a term goes on from the term. -/
theorem exists_goesOn_traversal (h : inner.Repeats inner' k) {more : List Step} (hafter : IsGap ctx.newlines after)
    (hmore : steps inner ctx.newlines u = .ok more v) (sound : (Node.traversal (e.withAfter after) more).Sound)
    (hk : e'.node.text.length ≤ k) (hlines : ctx.newlines = e.node.lines newlines)
    (hrest : e' = .ofNode (.traversal (e.withAfter after) more) ∧ r = v ∨
      ∃ w, GoesOn inner' c newlines ctx (.ofNode (.traversal (e.withAfter after) more)) e' v r w) :
    ∃ w, GoesOn inner' c newlines ctx e e' (after ++ u) r w := by
  have hstop : ∀ z, (Node.traversal (e.withAfter after) more).Stops newlines c z →
      NoMore c ctx.newlines z ∧ step inner' ctx.newlines z = .soft := by
    intro z hz
    have hnone : NoMore c ctx.newlines z := by
      rw [hlines]
      exact hz
    obtain ⟨a, x, hgap, -, hfree⟩ := id hnone
    exact ⟨hnone, step_of_stepFree hgap hfree⟩
  obtain ⟨w, hbare, htext, hlines', hreads⟩ := rest_of_goesOn rfl hstop (fun w hw => hw.noStep rfl) hrest
  have hlength := congrArg List.length (htext.trans (congrArg (· ++ w) (Node.text_traversal (e.withAfter after) more)))
  simp only [List.length_append] at hlength
  exact ⟨_, goesOn_traversal h hafter hmore sound (by omega) hbare htext
    (hlines'.trans (Node.lines_traversal (e.withAfter after) more)) hreads⟩

/-- What is read on behind the right side of an operator goes on from the left side. -/
theorem exists_goesOn_operator (h : inner.Repeats inner' k) {op : Operator} {right : Expr} {t : Text}
    (hafter : IsGap ctx.newlines after) (hcont : continuation? c (op.symbol ++ t) = some .operator)
    (hright : rightSide inner { ctx with operand := true } t = .ok right v)
    (sound : (Node.binary (e.withAfter after) op right).Sound) (hk : e'.node.text.length ≤ k)
    (hlines : ctx.newlines = e.node.lines newlines)
    (hrest : e' = .ofNode (.binary (e.withAfter after) op right) ∧ r = v ∨
      ∃ w, GoesOn inner' c newlines { ctx with operand := true } (.ofNode (.binary (e.withAfter after) op right)) e' v r w) :
    ∃ w, GoesOn inner' c newlines ctx e e' (after ++ (op.symbol ++ t)) r w := by
  have hstop : ∀ z, (Node.binary (e.withAfter after) op right).Stops newlines c z →
      NoMore c ctx.newlines z ∧ right.node.Stops ctx.newlines false z := by
    intro z hz
    rw [hlines]
    exact (Node.stops_binary.mp hz).symm
  obtain ⟨w, hbare, htext, hlines', hreads⟩ := rest_of_goesOn rfl hstop
    (fun w hw x => stops_of_halts (hw.halts rfl x) right.node) hrest
  obtain ⟨a, b, hsymbol, -⟩ := exists_cons_symbol op
  have hlength := congrArg List.length (htext.trans (congrArg (· ++ w) (Node.text_binary (e.withAfter after) op right)))
  simp only [hsymbol, Expr.text_eq right, List.length_append, List.length_cons] at hlength
  exact ⟨_, goesOn_operator h hafter hcont hright sound (by omega) hbare htext
    (hlines'.trans (Node.lines_binary (e.withAfter after) op right)) hreads⟩

theorem gap_of_continuation? {way : Continuation} {s : Text} (hgap : gap ctx.newlines s = .ok after u)
    (hcont : continuation? c u = some way) : s = after ++ u ∧ IsGap ctx.newlines after := by
  have hu : u ≠ [] := by
    rintro rfl
    cases hcont
  obtain ⟨hs, hafter, -⟩ := gap_eq_ok hgap hu
  exact ⟨hs, hafter⟩

end

/-- Reading on from a term, or from what was already read behind it, comes to an end or goes on by a text that is read
again. -/
theorem extend_repeats (h : inner.Repeats inner' k) {c newlines : Bool} {n : Nat} {ctx : Context} {e e' : Expr} {s r : Text}
    (hs : extend inner c n ctx e s = .ok e' r) (sound : e'.node.Sound) (hk : e'.node.text.length ≤ k)
    (hlines : ctx.newlines = e.node.lines newlines) (hoperand : c = true → ctx.operand = e.node.isBinary) :
    e' = e ∧ r = s ∨ ∃ w, GoesOn inner' c newlines ctx e e' s r w := by
  induction n generalizing ctx e s with
  | zero =>
    obtain ⟨rfl, rfl⟩ := Reader.pure_iff.mp hs
    exact .inl ⟨rfl, rfl⟩
  | succ n ih =>
    obtain ⟨after, u, hgap, -, -⟩ := gap_spec ctx.newlines s
    rw [extend_of_gap hgap] at hs
    split at hs
    · injection hs with he hr
      exact .inl ⟨he.symm, hr.symm⟩
    · next hcont =>
      obtain ⟨rfl, hafter⟩ := gap_of_continuation? hgap hcont
      obtain ⟨more, v, hmore, hrest⟩ := Reader.bind_eq_ok_iff.mp hs
      have hsound := (part_of_extend hrest sound).1
      have hbinary : e.node.isBinary = false := by
        have hterm : e.node.isTerm = true := hsound.1.2.2
        cases he : e.node <;> simp_all [Node.isTerm, Node.isBinary]
      exact .inr (exists_goesOn_traversal h hafter hmore hsound hk hlines
        (ih hrest (hlines.trans (Node.lines_traversal (e.withAfter after) more).symm) fun hc =>
          (hoperand hc).trans hbinary))
    · next hcont =>
      obtain ⟨rfl, hafter⟩ := gap_of_continuation? hgap hcont
      obtain rfl := eq_true_of_conditional hcont
      obtain ⟨w, hw⟩ := goesOn_conditional h hafter hs sound hk hlines (hoperand rfl)
      exact .inr ⟨_, hw⟩
    · next hcont =>
      obtain ⟨rfl, hafter⟩ := gap_of_continuation? hgap hcont
      obtain ⟨op, t, hop, hrest⟩ := Reader.bind_eq_ok_iff.mp hs
      obtain rfl := operator_eq_ok hop
      obtain ⟨right, v, hright, hrest⟩ := Reader.bind_eq_ok_iff.mp hrest
      exact .inr (exists_goesOn_operator h hafter hcont hright (part_of_extend hrest sound).1 hk hlines
        (ih hrest (hlines.trans (Node.lines_binary (e.withAfter after) op right).symm) fun _ => rfl))

/-! ## Levels -/

theorem expressionFrom_repeats (h : inner.Repeats inner' k) {ctx : Context} {s r : Text} {e : Expr}
    (hs : expressionFrom inner ctx s = .ok e r) (sound : e.node.Sound) (hk : e.node.text.length ≤ k) :
    s ≠ [] ∧ StartsTerm e.node.text ∧ ∀ r', Alike r r' → e.node.Stops ctx.newlines (!ctx.operand) r' →
      expressionFrom inner' ctx (e.node.text ++ r') = .ok e.plain r' := by
  obtain ⟨⟨e0, newlines⟩, s1, hterm, hextend⟩ := Reader.bind_eq_ok_iff.mp hs
  obtain ⟨hsound, hlength⟩ := part_of_extend hextend sound
  obtain ⟨hne, hisTerm, rfl, hled, hagain⟩ := term_repeats h hterm hsound (by omega)
  have hoperand : (!ctx.operand) = true → ctx.operand = e0.node.isBinary := by
    intro hfalse
    rw [show ctx.operand = false by simpa using hfalse]
    cases he : e0.node <;> simp_all [Node.isTerm, Node.isBinary]
  rcases extend_repeats h hextend sound hk rfl hoperand with ⟨rfl, rfl⟩ | ⟨w, hw⟩
  · obtain ⟨hstart, hread⟩ := hagain [] e.node.ledBy_nil
    refine ⟨hne, hstart, fun r' halike hstops => ?_⟩
    obtain ⟨hfollows, hnone⟩ := (Node.stops_of_isTerm hisTerm).mp hstops
    exact Reader.bind_ok (hread r' halike hfollows) (extend_of_noMore hnone _ _)
  · obtain ⟨hstart, hread⟩ := hagain e0.decor.lead (hled hw.leads)
    have htext : ∀ r', e.node.text ++ r' = e0.decor.lead ++ (e0.node.text ++ (w ++ r')) := by
      intro r'
      rw [hw.text]
      simp
    refine ⟨hne, ?_, fun r' halike hstops => ?_⟩
    · rw [hw.text, ← List.append_assoc]
      exact hstart.append w
    · have hterm' := hread (w ++ r') (hw.alike r')
        (Node.follows_of_noCall e0.node (fun hnumber => hw.noPlaces hnumber r') (hw.noCall r'))
      have hbefore : (e0.led e0.decor.lead).decor.before = e0.decor.before := by
        obtain ⟨⟨before, after⟩, node⟩ := e0
        cases before <;> rfl
      have hplain : e.plain = e := by
        have hbare := hw.bare
        obtain ⟨decor, node⟩ := e
        obtain rfl : decor = .bare := hbare
        rfl
      rw [htext, hplain]
      exact Reader.bind_ok hterm' (hw.reads (e0.led e0.decor.lead) _ r' rfl hbefore
        (by rw [List.length_append]; omega) halike hstops)

/-- The readers of any number of levels repeat those of any other, as far as their levels go. -/
theorem level_repeats (n m : Nat) : (level n).Repeats (level m) m := by
  induction n generalizing m with
  | zero => exact ⟨fun _ _ _ _ h => (by cases h), fun _ _ _ _ h => (by cases h), fun _ _ _ h => (by cases h)⟩
  | succ n ih =>
    refine ⟨fun ctx s e r hs sound => ?_, fun ctx s e r hs sound hlen r' halike hstops => ?_,
      fun s es r hs sound hw hlen r' hr' => ?_⟩
    · obtain ⟨hne, hstart, -⟩ := expressionFrom_repeats (ih e.node.text.length) hs sound (Nat.le_refl _)
      exact ⟨hne, hstart⟩
    · obtain ⟨m, rfl⟩ : ∃ i, m = i + 1 := ⟨m - 1, by omega⟩
      exact (expressionFrom_repeats (ih m) hs sound (by omega)).2.2 r' halike hstops
    · obtain ⟨m, rfl⟩ : ∃ i, m = i + 1 := ⟨m - 1, by omega⟩
      exact nestedTemplate_repeats (ih m) hs sound hw (by omega) hr'

/-- What is read as a sound expression is read as the same expression from its own text, in front of any text at which it
ends. -/
theorem expression_repeats {s r : Text} {e : Expr} (hs : expression s = .ok e r) (sound : e.node.Sound) :
    s ≠ [] ∧ StartsTerm e.node.text ∧ ∀ r', Alike r r' → e.node.Stops false true r' →
      expression (e.node.text ++ r') = .ok e.plain r' := by
  obtain ⟨hne, hstart⟩ := (level_repeats _ 0).starts _ _ _ _ hs sound
  refine ⟨hne, hstart, fun r' halike hstops => ?_⟩
  refine (level_repeats _ ((e.node.text ++ r').length + 1)).expression _ _ _ _ hs sound ?_ r' halike hstops
  rw [List.length_append]
  omega

end Grammar
end BackendSwitch
