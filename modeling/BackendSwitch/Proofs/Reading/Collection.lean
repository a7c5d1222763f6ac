import BackendSwitch.Proofs.Reading.Template

/-! # Arrays and objects are read again

Whether a bracket or a brace begins a loop is seen before anything of it is read, so a list must not look like a loop and
a loop must look like one. The items of an object are read again one by one; which of them may stand next to each other
depends on how they end. -/
namespace BackendSwitch.Grammar
set_option autoImplicit false

open Reader (flagText)

variable {inner inner' : Inner} {k : Nat}

/-! ## Telling loops from lists -/

theorem loopAhead_of_blank {s t r : Text} (h : blank s = .ok t r) : loopAhead s = .ok (opensLoop r) s := by
  simp only [loopAhead, h]
  unfold opensLoop
  split
  · rfl
  · simp

/-- A list whose first item does not begin like a loop does not do so in front of what is behind the item. -/
theorem opensLoop_append {t r : Text} {c : Char} (h : opensLoop t = false)
    (hc : Identifier.extendsWith c = false ∧ isSpace c = false ∧ c ≠ '#' ∧ c ≠ '/' ∧ c ≠ '\n') :
    opensLoop (t ++ c :: r) = false := by
  obtain ⟨hext, hspace, hhash, hslash, hline⟩ := hc
  have hne : ∀ d, Identifier.extendsWith d = true → c ≠ d := fun d hd => (Text.ne_of_class hd hext).symm
  unfold opensLoop
  split
  · next e v heq =>
    match t with
    | [] => exact absurd (List.cons.inj heq).1 (hne 'f' rfl)
    | [_] => exact absurd (List.cons.inj (List.cons.inj heq).2).1 (hne 'o' rfl)
    | [_, _] => exact absurd (List.cons.inj (List.cons.inj (List.cons.inj heq).2).2).1 (hne 'r' rfl)
    | [_, _, _] =>
      injection heq with _ heq
      injection heq with _ heq
      injection heq with _ heq
      injection heq with heq _
      subst heq
      simp [hspace, hhash, hslash, hline]
    | a :: b :: d :: f :: t =>
      injection heq with h1 heq
      injection heq with h2 heq
      injection heq with h3 heq
      injection heq with h4 _
      subst h1 h2 h3 h4
      exact h
  · rfl

/-! ## Loops -/

theorem loopTest_repeats (h : inner.Repeats inner' k) {ctx : Context} {s r : Text} {test : Option Expr} {c : Char}
    (hc : isCloser c = true) (hs : (loopTest inner ctx).optional s = .ok test (c :: r)) (sound : TestSound test)
    (hk : (testText test).length ≤ k) (r' : Text) :
    s ≠ [] ∧ Stopper true (testText test ++ c :: r') ∧ Alike s (testText test ++ c :: r') ∧
      (testText test ++ c :: r').head? ≠ some '.' ∧
      (loopTest inner' ctx).optional (testText test ++ c :: r') = .ok test (c :: r') := by
  have hcloser : Stopper (!ctx.operand) (c :: r') ∧ Stopper true (c :: r') := ⟨stopper_closer hc, stopper_closer hc⟩
  have hne := fun d => Text.ne_of_class hc (d := d)
  have havoid : Text.Avoids Identifier.extendsWith (c :: r') := by
    refine Text.avoids_cons.mpr ?_
    simp only [isCloser, Bool.or_eq_true, beq_iff_eq] at hc
    rcases hc with ((((rfl | rfl) | rfl) | rfl) | rfl) | rfl <;> rfl
  cases test with
  | none =>
    obtain ⟨-, rfl⟩ := Reader.optional_eq_none_iff.mp hs
    rw [show testText none ++ c :: r' = c :: r' from rfl]
    refine ⟨by simp, hcloser.2, alike_of_avoids havoid, by simpa using hne '.' rfl,
      Reader.optional_eq_none_iff.mpr ⟨?_, rfl⟩⟩
    exact Reader.bind_of_soft (Reader.word_eq_soft_of_head (by simpa using hne 'i' rfl))
  | some e =>
    simp only [Reader.optional_eq_some_iff, loopTest, Reader.bind_iff, Reader.pure_iff, Reader.word_eq_ok_iff] at hs
    obtain ⟨_, s1, rfl, b, s2, hb, e, s3, he, a, s4, ha, rfl, rfl⟩ := hs
    have hlen : e.node.text.length < k := by
      simp only [testText_some, Expr.within_text, List.length_cons, List.length_append] at hk
      omega
    obtain ⟨-, -, -, hagain⟩ := h.enclosed true true hb he ha (by simp) (Expr.sound_of_within (b := b) (a := a) sound) hlen
    obtain ⟨hb', he', ha'⟩ := hagain (c :: r') hcloser.1 (alike_of_avoids havoid)
    have htext : testText (some (e.within b a)) ++ c :: r' = ['i', 'f'] ++ (b ++ (e.node.text ++ (a ++ c :: r'))) := by
      simp [testText_some, Expr.within_text]
    rw [htext]
    refine ⟨by simp, stopper_of_startsWith rfl, alike_cons (by decide) (by decide), by simp,
      Reader.optional_eq_some_iff.mpr ?_⟩
    exact Reader.bind_ok (Reader.word_append _ _) <| Reader.bind_ok hb' <| Reader.bind_ok he' <| Reader.bind_ok ha' rfl

/-- The beginning of a loop in brackets or braces is read again, and it looks like one. -/
theorem bracketIntro_repeats (h : inner.Repeats inner' k) {s r : Text} {intro : ForIntro}
    (hs : bracketIntro inner s = .ok intro r) (hloop : loopAhead s = .ok true s) (sound : intro.Sound)
    (hk : (intro.text [':']).length ≤ k) (r' : Text) (hr' : r'.head? ≠ some ':') :
    loopAhead (intro.text [':'] ++ r') = .ok true (intro.text [':'] ++ r') ∧
      bracketIntro inner' (intro.text [':'] ++ r') = .ok intro r' := by
  simp only [bracketIntro, Reader.bind_iff, Reader.pure_iff, Reader.require_eq_ok_iff, Reader.char_eq_ok_iff] at hs
  obtain ⟨before, s1, hbefore, intro, s2, hintro, _, s3, rfl, rfl, rfl⟩ := hs
  rw [loopAhead_of_blank hbefore] at hloop
  injection hloop with hopens _
  rw [ForIntro.text_eq, List.length_append, List.length_append] at hk
  obtain ⟨rfl, ⟨t, rfl⟩, hlooks, hagain⟩ := loopIntro_repeats h hintro (by simp) sound (by omega)
  obtain ⟨-, hbefore, -⟩ := blank_eq_ok hbefore (by simp)
  have htext : intro.text [':'] ++ r' = intro.before ++ (intro.head ++ ':' :: r') := by simp [ForIntro.text_eq]
  have hblank : blank (intro.before ++ (intro.head ++ ':' :: r')) = .ok intro.before (intro.head ++ ':' :: r') := by
    refine blank_append hbefore ?_
    obtain ⟨v, hv⟩ := intro.head_eq_cons
    rw [hv]
    exact blankEnd_cons rfl
  have hread := hagain (':' :: r') (stopper_colon hr') (alike_of_avoids (Text.avoids_cons.mpr rfl))
  rw [htext]
  constructor
  · rw [loopAhead_of_blank hblank, hlooks, hopens]
  · exact Reader.bind_ok hblank <| Reader.bind_ok hread <|
      Reader.bind_ok (Reader.require_eq_ok_iff.mpr (Reader.char_cons _ _)) rfl

theorem head_of_blank_startsTerm {b t r : Text} {c : Char} (hb : Blank b) (ht : StartsTerm t) (hc : isSolid c = true)
    (hne : startsTerm c = false) : (b ++ (t ++ r)).head? ≠ some c :=
  head_of_blank hb hc ((ht.append r).head hne)

theorem forArray_repeats (h : inner.Repeats inner' k) {ctx : Context} {s r : Text} {node : Node}
    (hs : forArray inner ctx s = .ok node (']' :: r)) (hloop : loopAhead s = .ok true s) (sound : node.Sound)
    (hk : node.text.length ≤ k) (r' : Text) :
    ∃ t, node.text ++ r' = '[' :: t ∧ loopAhead t = .ok true t ∧ forArray inner' ctx t = .ok node (']' :: r') := by
  simp only [forArray, Reader.bind_iff, Reader.pure_iff] at hs
  obtain ⟨intro, s1, hintro, b, s2, hb, e, s3, he, a, s4, ha, test, s5, htest, rfl, rfl⟩ := hs
  obtain ⟨hintroSound, hvalueSound, htestSound⟩ := sound
  simp only [Node.text_forArray, Expr.within_text, List.length_cons, List.length_append] at hk
  obtain ⟨hne, hstop, halike, -, htest'⟩ := loopTest_repeats h rfl htest htestSound (by omega) r'
  obtain ⟨hstart, hblank, -, hagain⟩ := h.enclosed true true hb he ha hne
    (Expr.sound_of_within (b := b) (a := a) hvalueSound) (by omega)
  have hstop' : Stopper (!ctx.operand) (testText test ++ ']' :: r') :=
    ⟨hstop.blankEnd, hstop.noCall, continuation?_of_none hstop.noMore, hstop.stepFree⟩
  obtain ⟨hb', he', ha'⟩ := hagain _ hstop' halike
  obtain ⟨hlooks, hintro'⟩ := bracketIntro_repeats h hintro hloop hintroSound (by omega)
    (b ++ (e.node.text ++ (a ++ (testText test ++ ']' :: r'))))
    (head_of_blank_startsTerm hblank hstart rfl rfl)
  refine ⟨_, by simp [Node.text_forArray, Expr.within_text], hlooks, ?_⟩
  exact Reader.bind_ok hintro' <| Reader.bind_ok hb' <| Reader.bind_ok he' <| Reader.bind_ok ha' <|
    Reader.bind_ok htest' rfl

/-! ## Arrays -/

theorem separated_repeats {item : Reader Expr} {es : List Expr} {r : Text} (hne : es ≠ [])
    (hitem : ∀ pre e post, es = pre ++ e :: post →
      item (e.text ++ ((post.flatMap fun e => ',' :: e.text) ++ r)) = .ok e ((post.flatMap fun e => ',' :: e.text) ++ r))
    (hr : (do
      Reader.char ','
      item) r = .soft) : separated item (separatedText es ++ r) = .ok es r := by
  cases es with
  | nil => exact absurd rfl hne
  | cons e es =>
    have hfirst := hitem [] e es rfl
    have hmore : Reader.many (do
        Reader.char ','
        item) ((es.flatMap fun e => ',' :: e.text) ++ r) = .ok es r := by
      refine Reader.many_flatMap (fun _ _ => by simp) (fun pre a post hes => ?_) hr
      exact Reader.bind_ok (Reader.char_cons _ _) (hitem (e :: pre) a post (by rw [hes]; rfl))
    have htext : separatedText (e :: es) ++ r = e.text ++ ((es.flatMap fun e => ',' :: e.text) ++ r) := by
      simp [separatedText]
    rw [htext]
    exact Reader.bind_ok hfirst <| Reader.bind_ok hmore rfl

theorem exists_of_mem_separated {item : Reader Expr} {s r : Text} {es : List Expr} {e : Expr}
    (h : separated item s = .ok es r) (hr : r ≠ []) (he : e ∈ es) : ∃ t u, item t = .ok e u ∧ u ≠ [] := by
  simp only [separated, Reader.bind_iff, Reader.pure_iff] at h
  obtain ⟨first, t, hfirst, more, u, hmore, rfl, rfl⟩ := h
  have hnil : (do
      Reader.char ','
      item) [] = .soft := rfl
  rcases List.mem_cons.mp he with rfl | hmem
  · refine ⟨s, t, hfirst, ?_⟩
    rintro rfl
    unfold Reader.many at hmore
    rw [hnil] at hmore
    injection hmore with _ hmore
    exact hr hmore.symm
  · obtain ⟨t', u', hread, hne⟩ := Reader.exists_of_mem_many_of_soft hnil hmore hr hmem
    simp only [Reader.bind_iff] at hread
    obtain ⟨_, v, -, hread⟩ := hread
    exact ⟨v, u', hread, hne⟩

theorem separated_ne_nil {item : Reader Expr} {s r : Text} {es : List Expr} (h : separated item s = .ok es r) : es ≠ [] := by
  simp only [separated, Reader.bind_iff, Reader.pure_iff] at h
  obtain ⟨first, t, hfirst, more, u, hmore, rfl, rfl⟩ := h
  simp

theorem length_separated_le {es : List Expr} {e : Expr} (he : e ∈ es) : e.text.length ≤ (separatedText es).length := by
  cases es with
  | nil => cases he
  | cons d es =>
    simp only [separatedText, List.length_append]
    rcases List.mem_cons.mp he with rfl | hmem
    · omega
    · obtain ⟨pre, post, rfl⟩ := List.append_of_mem hmem
      simp only [List.flatMap_append, List.flatMap_cons, List.length_append, List.length_cons]
      omega

/-- An item of a list, where the list must not end. -/
def listItem {α : Type} (listEnd : Reader α) (inner : Inner) (ctx : Context) : Reader Expr := do
  let before ← blank
  Reader.absent listEnd
  let e ← inner.expression ctx
  let after ← blank
  return e.within before after

theorem arrayItem_eq (inner : Inner) (ctx : Context) : arrayItem inner ctx = listItem (Reader.char ']') inner ctx := rfl

section
variable {α : Type} {listEnd : Reader α} {ctx : Context}

theorem listItem_repeats (h : inner.Repeats inner' k) (hend : ∀ s, StartsTerm s → listEnd s = .soft) {s r : Text} {e : Expr}
    (hs : listItem listEnd inner ctx s = .ok e r) (hr : r ≠ []) (sound : e.node.Sound) (hk : e.text.length < k) :
    StartsTerm e.node.text ∧ Blank e.decor.lead ∧
      ∀ r', Stopper (!ctx.operand) r' → r'.Avoids Identifier.extendsWith →
        listItem listEnd inner' ctx (e.text ++ r') = .ok e r' := by
  simp only [listItem, Reader.bind_iff, Reader.pure_iff, Reader.absent_eq_ok_iff] at hs
  obtain ⟨b, s1, hb, _, s2, ⟨-, rfl⟩, e, s3, he, a, s4, ha, rfl, rfl⟩ := hs
  rw [Expr.within_text] at hk
  simp only [List.length_append] at hk
  obtain ⟨hstart, hblank, -, hagain⟩ := h.enclosed true true hb he ha hr sound (by omega)
  refine ⟨hstart, hblank, fun r' hstop havoid => ?_⟩
  obtain ⟨hb', he', ha'⟩ := hagain r' hstop (alike_of_avoids havoid)
  have htext : (e.within b a).text ++ r' = b ++ (e.node.text ++ (a ++ r')) := by simp [Expr.within_text]
  rw [htext]
  exact Reader.bind_ok hb' <| Reader.bind_ok (Reader.absent_of_soft (hend _ (hstart.append _))) <|
    Reader.bind_ok he' <| Reader.bind_ok ha' rfl

theorem listItem_of_end {b t r : Text} {a : α} (hb : blank (b ++ t) = .ok b t) (hend : listEnd t = .ok a r) :
    listItem listEnd inner ctx (b ++ t) = .soft := by
  rw [listItem, Reader.bind_of_ok hb]
  exact Reader.bind_of_soft (Reader.absent_of_ok hend)

theorem blankEnd_of_separated {s r : Text} {es : List Expr} (h : separated (listItem listEnd inner ctx) s = .ok es r)
    (hr : r ≠ []) : BlankEnd r := by
  have hitem : ∀ s e r, listItem listEnd inner ctx s = .ok e r → r ≠ [] → BlankEnd r := by
    intro s e r hs hr
    simp only [listItem, Reader.bind_iff, Reader.pure_iff] at hs
    obtain ⟨b, s1, hb, _, s2, -, e, s3, he, a, s4, ha, rfl, rfl⟩ := hs
    exact (blank_eq_ok ha hr).2.2
  simp only [separated, Reader.bind_iff, Reader.pure_iff] at h
  obtain ⟨first, t, hfirst, more, u, hmore, rfl, rfl⟩ := h
  refine Reader.many_rest (P := fun r => r ≠ [] → BlankEnd r) (fun s e r hs => ?_) (hitem s first t hfirst) hmore hr
  simp only [Reader.bind_iff] at hs
  obtain ⟨_, v, -, hs⟩ := hs
  exact hitem v e r hs

/-- Behind the last item of a list stands no blank text but where it ends in its own way: the item has it. -/
theorem eq_nil_of_separated {s tail r : Text} {c : Char} {es : List Expr}
    (h : separated (listItem listEnd inner ctx) s = .ok es (tail ++ c :: r))
    (htail : blank (tail ++ c :: r) = .ok tail (c :: r)) : tail = [] := by
  have hend : BlankEnd (tail ++ c :: r) := blankEnd_of_separated h (by simp)
  rw [show blank (tail ++ c :: r) = .ok [] (tail ++ c :: r) from hend] at htail
  injection htail with hnil _
  exact hnil.symm

section
variable {s r : Text} {es : List Expr}

theorem item_of_mem_separated (h : inner.Repeats inner' k) (hend : ∀ s, StartsTerm s → listEnd s = .soft)
    (hs : separated (listItem listEnd inner ctx) s = .ok es r) (hr : r ≠ []) (sound : AllSound es)
    (hk : (separatedText es).length < k) {e : Expr} (he : e ∈ es) :
    StartsTerm e.node.text ∧ Blank e.decor.lead ∧
      ∀ r', Stopper (!ctx.operand) r' → r'.Avoids Identifier.extendsWith →
        listItem listEnd inner' ctx (e.text ++ r') = .ok e r' := by
  obtain ⟨t, u, hitem, hu⟩ := exists_of_mem_separated hs hr he
  have hlen := length_separated_le he
  exact listItem_repeats h hend hitem hu ((allSound_iff es).mp sound e he) (by omega)

/-- The items of a list are read again in front of a text at which an item ends and behind which none follows. -/
theorem listItems_repeats (h : inner.Repeats inner' k) (hend : ∀ s, StartsTerm s → listEnd s = .soft)
    (hs : separated (listItem listEnd inner ctx) s = .ok es r) (hr : r ≠ []) (sound : AllSound es)
    (hk : (separatedText es).length < k) {r' : Text} (hstop : Stopper (!ctx.operand) r')
    (havoid : r'.Avoids Identifier.extendsWith)
    (hlast : (do
      Reader.char ','
      listItem listEnd inner' ctx) r' = .soft) :
    separated (listItem listEnd inner' ctx) (separatedText es ++ r') = .ok es r' := by
  refine separated_repeats (separated_ne_nil hs) (fun pre e post hes => ?_) hlast
  obtain ⟨-, -, hagain⟩ := item_of_mem_separated h hend hs hr sound hk (e := e) (by simp [hes])
  cases post with
  | nil => exact hagain _ hstop havoid
  | cons d post => exact hagain _ (stopper_closer rfl) (Text.avoids_cons.mpr rfl)

end

/-- A list looks like a loop only if its first item does. -/
theorem loopAhead_separated {e : Expr} {es : List Expr} {c : Char} {v : Text} (hlead : Blank e.decor.lead)
    (hstart : StartsTerm e.node.text) (hlooks : opensLoop e.core = false) (hc : c = ',' ∨ c = ']') :
    loopAhead (separatedText (e :: es) ++ c :: v) = .ok false (separatedText (e :: es) ++ c :: v) := by
  obtain ⟨d, u, hd, hsep⟩ : ∃ d u, (d = ',' ∨ d = ']') ∧ (es.flatMap fun e => ',' :: e.text) ++ c :: v = d :: u := by
    cases es with
    | nil => exact ⟨c, v, hc, rfl⟩
    | cons a es => exact ⟨',', _, .inl rfl, rfl⟩
  have htext : separatedText (e :: es) ++ c :: v = e.decor.lead ++ (e.core ++ d :: u) := by
    rw [← hsep]
    simp only [separatedText, List.append_assoc, Expr.text_eq, Expr.core]
  have hblank : blank (e.decor.lead ++ (e.core ++ d :: u)) = .ok e.decor.lead (e.core ++ d :: u) := by
    refine blank_append hlead ?_
    rw [Expr.core, List.append_assoc]
    exact (hstart.append _).blankEnd
  rw [htext, loopAhead_of_blank hblank, opensLoop_append hlooks]
  rcases hd with rfl | rfl
  · decide
  · decide

end

/-- Behind the items of an array stands a comma or the bracket, and no further item begins there. -/
theorem arrayEnd_cons (inner : Inner) (ctx : Context) {comma : Bool} {tail : Text} (ht : Blank tail)
    (hplain : comma = false → tail = []) (r : Text) :
    ∃ c v, (c = ',' ∨ c = ']') ∧ flagText ',' comma ++ (tail ++ ']' :: r) = c :: v ∧
      (do
        Reader.char ','
        listItem (Reader.char ']') inner ctx) (c :: v) = .soft := by
  cases comma with
  | true =>
    have htail : blank (tail ++ ']' :: r) = .ok tail (']' :: r) := blank_append ht (blankEnd_cons rfl)
    have hsoft : listItem (Reader.char ']') inner ctx (tail ++ ']' :: r) = .soft :=
      listItem_of_end htail (Reader.char_cons ']' r)
    exact ⟨',', _, .inl rfl, rfl, (Reader.bind_of_ok (Reader.char_cons ',' _)).trans hsoft⟩
  | false =>
    rw [hplain rfl]
    exact ⟨']', r, .inr rfl, rfl, rfl⟩

theorem plainArray_repeats (h : inner.Repeats inner' k) {ctx : Context} {s r : Text} {node : Node}
    (hs : plainArray inner ctx s = .ok node (']' :: r)) (sound : node.Sound) (hk : node.text.length ≤ k) (r' : Text) :
    ∃ t, node.text ++ r' = '[' :: t ∧ loopAhead t = .ok false t ∧ plainArray inner' ctx t = .ok node (']' :: r') := by
  simp only [plainArray, arrayItem_eq, Reader.bind_iff, Reader.pure_iff] at hs
  obtain ⟨items, s1, hitems, comma, s2, hcomma, tail, s3, htail, rfl, rfl⟩ := hs
  obtain ⟨hsound, hcommaSound, hlooks⟩ := sound
  obtain rfl := flag_eq_ok hcomma
  obtain ⟨rfl, htailBlank, -⟩ := blank_eq_ok htail (by simp)
  have htail' : blank (tail ++ ']' :: r') = .ok tail (']' :: r') := blank_append htailBlank (blankEnd_cons rfl)
  have hflag : Reader.flag ',' (flagText ',' comma ++ (tail ++ ']' :: r')) = .ok comma (tail ++ ']' :: r') :=
    Reader.flag_append (head_of_blank htailBlank rfl (by simp))
  cases items with
  | none =>
    obtain rfl : comma = false := hcommaSound rfl
    have hsoft : separated (listItem (Reader.char ']') inner' ctx) (tail ++ ']' :: r') = .soft :=
      Reader.bind_of_soft (listItem_of_end htail' (Reader.char_cons ']' r'))
    refine ⟨tail ++ ']' :: r', by simp [Node.text_array, separatedText, flagText], loopAhead_of_blank htail', ?_⟩
    exact Reader.bind_ok (Reader.optional_eq_none_iff.mpr ⟨hsoft, rfl⟩) <| Reader.bind_ok hflag <| Reader.bind_ok htail' rfl
  | some es =>
    rw [Reader.optional_eq_some_iff] at hitems
    rw [Node.text_array] at hk
    simp only [Option.getD_some, List.length_cons, List.length_append] at hk hsound hlooks
    have hrest : flagText ',' comma ++ (tail ++ ']' :: r) ≠ [] := by simp
    have hstart : ∀ s, StartsTerm s → Reader.char ']' s = .soft := fun s hs => Reader.char_of_head (hs.head rfl)
    have hplain : comma = false → tail = [] := by
      rintro rfl
      exact eq_nil_of_separated hitems htail
    obtain ⟨c, v, hc, hv, hlast⟩ := arrayEnd_cons inner' ctx htailBlank hplain r'
    rw [hv] at hflag
    have hcloser : isCloser c = true ∧ Identifier.extendsWith c = false := by
      rcases hc with rfl | rfl
      · exact ⟨rfl, rfl⟩
      · exact ⟨rfl, rfl⟩
    have hitems' : separated (listItem (Reader.char ']') inner' ctx) (separatedText es ++ c :: v) = .ok es (c :: v) :=
      listItems_repeats h hstart hitems hrest hsound (by omega) (stopper_closer hcloser.1)
        (Text.avoids_cons.mpr hcloser.2) hlast
    have hlooks' : loopAhead (separatedText es ++ c :: v) = .ok false (separatedText es ++ c :: v) := by
      cases es with
      | nil => exact absurd rfl (separated_ne_nil hitems)
      | cons e es =>
        obtain ⟨hfirst, hlead, -⟩ := item_of_mem_separated h hstart hitems hrest hsound (by omega) (List.mem_cons_self ..)
        exact loopAhead_separated hlead hfirst (hlooks e es rfl) hc
    refine ⟨separatedText es ++ c :: v, by simp [Node.text_array, ← hv], hlooks', ?_⟩
    exact Reader.bind_ok (Reader.optional_eq_some_iff.mpr hitems') <| Reader.bind_ok hflag <| Reader.bind_ok htail' rfl

theorem eq_of_loopAhead {s r : Text} {isLoop : Bool} (h : loopAhead s = .ok isLoop r) : r = s := by
  obtain ⟨t, u, hblank, -⟩ := blank_spec s
  rw [loopAhead_of_blank hblank] at h
  injection h with _ h
  exact h.symm

theorem array_repeats (h : inner.Repeats inner' k) {ctx : Context} {s r : Text} {node : Node}
    (hs : array inner ctx s = .ok node r) (sound : node.Sound) (hk : node.text.length ≤ k) (r' : Text) :
    array inner' ctx (node.text ++ r') = .ok node r' := by
  simp only [array, Reader.bind_iff, Reader.char_eq_ok_iff] at hs
  obtain ⟨_, s1, rfl, isLoop, s2, hloop, hs⟩ := hs
  obtain rfl := eq_of_loopAhead hloop
  have hclose : (Reader.char ']').require (.closing ']') (']' :: r') = .ok () r' :=
    Reader.require_eq_ok_iff.mpr (Reader.char_cons _ _)
  cases isLoop with
  | true =>
    simp only [if_true, Reader.bind_iff, Reader.pure_iff, Reader.require_eq_ok_iff, Reader.char_eq_ok_iff] at hs
    obtain ⟨node, s3, hnode, _, s4, rfl, rfl, rfl⟩ := hs
    obtain ⟨t, ht, hlooks, hread⟩ := forArray_repeats h hnode hloop sound hk r'
    rw [ht]
    exact Reader.bind_ok (Reader.char_cons _ _) <| Reader.bind_ok hlooks <| Reader.bind_ok hread <| Reader.bind_ok hclose rfl
  | false =>
    simp only [Bool.false_eq_true, if_false, Reader.bind_iff, Reader.pure_iff, Reader.require_eq_ok_iff,
      Reader.char_eq_ok_iff] at hs
    obtain ⟨node, s3, hnode, _, s4, rfl, rfl, rfl⟩ := hs
    obtain ⟨t, ht, hlooks, hread⟩ := plainArray_repeats h hnode sound hk r'
    rw [ht]
    exact Reader.bind_ok (Reader.char_cons _ _) <| Reader.bind_ok hlooks <| Reader.bind_ok hread <| Reader.bind_ok hclose rfl

end BackendSwitch.Grammar
