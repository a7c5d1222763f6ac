import BackendSwitch.Proofs.Verbatim.Template

/-! # Terms stand as they are written

A term that is kept stands in the text as it is written, with the signs in front of it, given readers that do not go wrong
with what is nested in it. -/
namespace BackendSwitch.Grammar
set_option autoImplicit false

open Reader (flagText passes_of_ok both_of_ok)

variable {k : Keeper} {inner : Inner} {ctx : Context} {s r : Text}

/-! ## Lists -/

theorem listItem_keeps {α : Type} {listEnd : Reader α} (h : k.Sound) :
    (listItem listEnd k.toInner ctx).Keeps (listItemKept k ctx) Expr.text := by
  intro s e r hread hkept
  simp only [listItem, Reader.bind_iff, Reader.pure_iff, Reader.absent_eq_ok_iff] at hread
  obtain ⟨b, s1, hb, _, s2, ⟨-, rfl⟩, e, s3, he, a, s4, ha, rfl, rfl⟩ := hread
  rw [listItemKept, passes_of_ok hb] at hkept
  rw [blank_text hb, (h.expression ctx s1 e s3 he hkept).text, blank_text ha, Expr.within_text]
  simp

theorem separated_keeps {item : Reader Expr} {kept : Text → Bool} (h : item.Keeps kept Expr.text) :
    (separated item).Keeps (separatedKept item kept) separatedText := by
  have hnext : Reader.Keeps (do
      Reader.char ','
      item) ((Reader.char ',').passes fun _ => kept) fun e => ',' :: e.text := by
    intro s e r hread hkept
    simp only [Reader.bind_iff] at hread
    obtain ⟨_, u, hcomma, hitem⟩ := hread
    rw [passes_of_ok hcomma] at hkept
    rw [Reader.char_eq_ok_iff.mp hcomma, h u e r hitem hkept]
    rfl
  intro s es r hread hkept
  simp only [separated, Reader.bind_iff, Reader.pure_iff] at hread
  obtain ⟨first, s1, hfirst, more, s2, hmore, rfl, rfl⟩ := hread
  obtain ⟨hfirstKept, hmoreKept⟩ := (both_of_ok hfirst).mp hkept
  rw [h s first s1 hfirst hfirstKept, hnext.many s1 more _ hmore hmoreKept]
  simp [separatedText]

/-! ## Parentheses and calls -/

theorem parenthesis_keeps (h : k.Sound) : (parenthesis k.toInner).Keeps (parenthesisKept k) Node.text := by
  intro s node r hread hkept
  simp only [parenthesis, Reader.bind_iff, Reader.pure_iff, Reader.require_eq_ok_iff] at hread
  obtain ⟨_, s1, hopen, b, s2, hb, e, s3, he, a, s4, ha, _, s5, hclose, rfl, rfl⟩ := hread
  rw [parenthesisKept, passes_of_ok hopen] at hkept
  obtain ⟨htext, -⟩ := h.enclosed (x := true) (y := true) hb he ha hkept
  rw [Reader.char_eq_ok_iff.mp hopen, htext, Reader.char_eq_ok_iff.mp hclose]
  simp [Node.text_parenthesis]

theorem arguments_keeps (h : k.Sound) :
    (arguments k.toInner ctx).Keeps (argumentsKept k ctx) fun given => separatedText given.1 ++ given.2.symbol := by
  intro s given r hread hkept
  simp only [arguments, argument_eq, Reader.bind_iff, Reader.pure_iff] at hread
  obtain ⟨es, s1, hes, last, s2, hlast, rfl, rfl⟩ := hread
  rw [separated_keeps (listItem_keeps h) s es s1 hes hkept, ending_eq_ok hlast]
  simp

theorem names_text {newlines : Bool} {more : List Name}
    (h : Reader.many (do
      Reader.word [':', ':']
      nameWithin (gap newlines)) s = .ok more r) : s = namesText more ++ r := by
  have hname : Reader.Keeps (do
      Reader.word [':', ':']
      nameWithin (gap newlines)) (fun _ => true) (fun n => ':' :: ':' :: n.written) := by
    intro s n r hread _
    simp only [Reader.bind_iff, Reader.word_eq_ok_iff] at hread
    obtain ⟨_, u, rfl, hn⟩ := hread
    rw [nameWithin_text hn]
    rfl
  exact hname.many s more r h (Reader.manyKept_true _ s)

theorem call_keeps (h : k.Sound) (first : Name) {node : Node} (hread : call k.toInner ctx first s = .ok node r)
    (hkept : callKept k ctx s = true) : first.written ++ s = node.text ++ r := by
  simp only [call, Reader.bind_iff, Reader.pure_iff, Reader.require_eq_ok_iff] at hread
  obtain ⟨more, s1, hmore, _, s2, hopen, given, s3, hgiven, tail, s4, htail, _, s5, hclose, rfl, rfl⟩ := hread
  rw [callKept, passes_of_ok hmore, passes_of_ok hopen] at hkept
  have hargs : s2 = separatedText (given.getD ([], .plain)).1 ++ ((given.getD ([], .plain)).2.symbol ++ s3) := by
    cases given with
    | none => exact (Reader.optional_eq_none_iff.mp hgiven).2
    | some given =>
      rw [arguments_keeps h s2 given s3 (Reader.optional_eq_some_iff.mp hgiven) hkept]
      simp
  rw [names_text hmore, Reader.char_eq_ok_iff.mp hopen, hargs, blank_text htail, Reader.char_eq_ok_iff.mp hclose,
    Node.text_call, intercalate_names]
  simp

theorem named_keeps (h : k.Sound) : (named k.toInner ctx).Keeps (namedKept k ctx) fun x => x.1.text := by
  intro s x r hread hkept
  obtain ⟨name, s1, hname, -⟩ := Reader.bind_eq_ok_iff.mp hread
  obtain ⟨after, u, hgap, hs1, -⟩ := gap_spec ctx.newlines s1
  rw [named_of_gap hname hgap] at hread
  rw [namedKept, passes_of_ok hname, passes_of_ok hgap] at hkept
  rw [(identifier_eq_ok hname).1]
  split at hread
  · obtain ⟨node, r', hcall, hread⟩ := Reader.bind_eq_ok_iff.mp hread
    obtain ⟨rfl, rfl⟩ := Reader.pure_iff.mp hread
    rw [hs1]
    simpa [Name.written] using call_keeps h ⟨[], name, after⟩ hcall hkept
  · injection hread with hx hr
    rw [← hx, ← hr]
    exact congrArg (· ++ s1) (text_constant name).symm

/-! ## Arrays -/

theorem bracketIntro_keeps (h : k.Sound) :
    (bracketIntro k.toInner).Keeps (bracketIntroKept k) fun intro => intro.text [':'] := by
  intro s intro r hread hkept
  simp only [bracketIntro, Reader.bind_iff, Reader.pure_iff, Reader.require_eq_ok_iff] at hread
  obtain ⟨before, s1, hbefore, intro, s2, hintro, _, s3, hcolon, rfl, rfl⟩ := hread
  rw [bracketIntroKept, passes_of_ok hbefore] at hkept
  obtain rfl := before_of_loopIntro hintro
  rw [blank_text hbefore, loopIntro_keeps h _ s1 intro s2 hintro hkept, Reader.char_eq_ok_iff.mp hcolon]
  simp [ForIntro.text_eq]

theorem loopTest_keeps (h : k.Sound) : (loopTest k.toInner ctx).optional.Keeps (loopTestKept k ctx) testText := by
  intro s test r hread hkept
  cases test with
  | none => exact (Reader.optional_eq_none_iff.mp hread).2
  | some e =>
    simp only [Reader.optional_eq_some_iff, loopTest, Reader.bind_iff, Reader.pure_iff] at hread
    obtain ⟨_, s1, hif, b, s2, hb, e, s3, he, a, s4, ha, rfl, rfl⟩ := hread
    rw [loopTestKept, passes_of_ok hif] at hkept
    obtain ⟨htext, -⟩ := h.enclosed (x := true) (y := true) hb he ha hkept
    rw [Reader.word_eq_ok_iff.mp hif, htext, testText_some]
    rfl

theorem forArray_keeps (h : k.Sound) {node : Node} (hread : forArray k.toInner ctx s = .ok node (']' :: r))
    (hkept : forArrayKept k ctx s = true) : '[' :: s = node.text ++ r := by
  simp only [forArray, Reader.bind_iff, Reader.pure_iff] at hread
  obtain ⟨intro, s1, hintro, b, s2, hb, e, s3, he, a, s4, ha, test, s5, htest, rfl, rfl⟩ := hread
  obtain ⟨hintroKept, hvalueKept⟩ := (both_of_ok hintro).mp hkept
  obtain ⟨hvalue, htestKept⟩ := h.enclosed (x := true) (y := true) hb he ha hvalueKept
  rw [bracketIntro_keeps h s intro s1 hintro hintroKept, hvalue, loopTest_keeps h s4 test _ htest htestKept]
  simp [Node.text_forArray]

theorem plainArray_keeps (h : k.Sound) {node : Node} (hread : plainArray k.toInner ctx s = .ok node (']' :: r))
    (hkept : plainArrayKept k ctx s = true) : '[' :: s = node.text ++ r := by
  simp only [plainArray, Reader.bind_iff, Reader.pure_iff] at hread
  obtain ⟨items, s1, hitems, comma, s2, hcomma, tail, s3, htail, rfl, rfl⟩ := hread
  have hitemsText : s = separatedText (items.getD []) ++ s1 := by
    cases items with
    | none => exact (Reader.optional_eq_none_iff.mp hitems).2
    | some es => exact separated_keeps (listItem_keeps h) s es s1 (Reader.optional_eq_some_iff.mp hitems) hkept
  rw [hitemsText, flag_eq_ok hcomma, blank_text htail]
  simp [Node.text_array]

theorem array_keeps (h : k.Sound) : (array k.toInner ctx).Keeps (arrayKept k ctx) Node.text := by
  intro s node r hread hkept
  simp only [array, Reader.bind_iff] at hread
  obtain ⟨_, s1, hopen, isLoop, s2, hloop, hread⟩ := hread
  rw [arrayKept, passes_of_ok hopen, passes_of_ok hloop] at hkept
  obtain rfl := eq_of_loopAhead hloop
  rw [Reader.char_eq_ok_iff.mp hopen]
  cases isLoop with
  | true =>
    simp only [if_true, Reader.bind_iff, Reader.pure_iff, Reader.require_eq_ok_iff, Reader.char_eq_ok_iff] at hread
    obtain ⟨node, s3, hnode, _, s4, rfl, rfl, rfl⟩ := hread
    exact forArray_keeps h hnode hkept
  | false =>
    simp only [Bool.false_eq_true, if_false, Reader.bind_iff, Reader.pure_iff, Reader.require_eq_ok_iff,
      Reader.char_eq_ok_iff] at hread
    obtain ⟨node, s3, hnode, _, s4, rfl, rfl, rfl⟩ := hread
    exact plainArray_keeps h hnode hkept

/-! ## Objects -/

theorem itemEnd_keeps : itemEnd.Keeps itemEndKept fun x => x.1 ++ x.2.symbol := by
  intro s x r hread hkept
  rw [itemEndKept, passes_of_ok hread] at hkept
  exact of_decide_eq_true hkept

theorem objectItem_keeps (h : k.Sound) : (objectItem k.toInner).Keeps (objectItemKept k) ObjectItem.text := by
  intro s item r hread hkept
  simp only [objectItem, itemKey, Reader.bind_iff, Reader.pure_iff, Reader.absent_eq_ok_iff] at hread
  obtain ⟨key, s1, ⟨kb, t1, hkb, _, t2, ⟨-, rfl⟩, ke, t3, hke, ka, t4, hka, hkey, rfl⟩, colon, s2, hsign, b, s3, hb, e, s4,
    he, a, s5, ha, ⟨comment, terminator⟩, s6, hend, rfl, rfl⟩ := hread
  obtain rfl : Key.ofExpr kb ke ka = key := hkey
  obtain ⟨hkeyText, hkept⟩ := h.enclosed (x := true) (y := false) hkb hke hka hkept
  rw [passes_of_ok hsign] at hkept
  obtain ⟨hvalue, hendKept⟩ := h.enclosed (x := false) (y := false) hb he ha hkept
  rw [hkeyText, itemSign_eq_ok hsign, hvalue, itemEnd_keeps s5 _ _ hend hendKept, ObjectItem.text_eq, Key.text_eq,
    Key.lead_ofExpr, Key.core_ofExpr]
  simp [Expr.within_text]

theorem plainObject_keeps (h : k.Sound) {e : Expr} (hread : plainObject k.toInner s = .ok e ('}' :: r))
    (hkept : plainObjectKept k s = true) : e.Stands ('{' :: s) r := by
  simp only [plainObject, Reader.bind_iff, Reader.pure_iff, Reader.absent_eq_ok_iff] at hread
  obtain ⟨items, s1, hitems, tail, s2, htail, _, s3, ⟨-, rfl⟩, rfl, rfl⟩ := hread
  rw [plainObjectKept, passes_of_ok hitems, Bool.and_eq_true, decide_eq_true_eq] at hkept
  obtain ⟨hitemsKept, hlength⟩ := hkept
  refine ⟨?_, rfl⟩
  rw [ObjectItem.merge_eq_of_length hlength, (objectItem_keeps h).many s items s1 hitems hitemsKept, blank_text htail]
  simp [Expr.ofNode, Node.text_object]

/-- The dots behind the value of a loop, with the blank text behind them. -/
theorem spreadDots_text {spread : Option Text} (h : spreadDots s = .ok spread r) : s = Node.spreadText spread ++ r := by
  cases spread with
  | none => exact (Reader.optional_eq_none_iff.mp h).2
  | some b =>
    simp only [spreadDots, Reader.optional_eq_some_iff, Reader.bind_iff, Reader.word_eq_ok_iff] at h
    obtain ⟨_, u, rfl, hb⟩ := h
    rw [blank_text hb]
    rfl

theorem forObject_keeps (h : k.Sound) {e : Expr} (hread : forObject k.toInner ctx s = .ok e ('}' :: r))
    (hkept : forObjectKept k ctx s = true) : e.Stands ('{' :: s) r := by
  rw [forObjectKept, passes_of_ok hread, Bool.and_eq_true, decide_eq_true_eq] at hkept
  obtain ⟨hkept, htail⟩ := hkept
  simp only [forObject, Reader.bind_iff, Reader.pure_iff, Reader.require_eq_ok_iff] at hread
  obtain ⟨intro, s1, hintro, kb, s2, hkb, key, s3, hkey, ka, s4, hka, _, s5, harrow, vb, s6, hvb, value, s7, hvalue, va, s8,
    hva, spread, s9, hspread, test, s10, htest, he, rfl⟩ := hread
  obtain ⟨hintroKept, hkept⟩ := (both_of_ok hintro).mp hkept
  obtain ⟨hkeyText, hkept⟩ := h.enclosed (x := true) (y := true) hkb hkey hka hkept
  rw [passes_of_ok harrow] at hkept
  obtain ⟨hvalueText, hkept⟩ := h.enclosed (x := true) (y := true) hvb hvalue hva hkept
  rw [passes_of_ok (show spreadDots s8 = _ from hspread)] at hkept
  -- without a test the blank text behind the dots has moved behind the loop, and there is none
  have hnode : e.node = .forObject intro (key.within kb ka) (value.within vb va) spread test := by
    subst he
    cases spread with
    | none => cases test <;> rfl
    | some dots =>
      cases test with
      | some _ => rfl
      | none =>
        obtain rfl : dots = [] := htail
        rfl
  refine ⟨?_, htail⟩
  rw [hnode, bracketIntro_keeps h s intro s1 hintro hintroKept, hkeyText, Reader.word_eq_ok_iff.mp harrow, hvalueText,
    spreadDots_text hspread, loopTest_keeps h s9 test _ htest hkept]
  simp [Node.text_forObject]

theorem object_keeps (h : k.Sound) {x : Expr × Bool} (hread : object k.toInner ctx s = .ok x r)
    (hkept : objectKept k ctx s = true) : x.1.Stands s r := by
  simp only [object, Reader.bind_iff] at hread
  obtain ⟨_, s1, hopen, isLoop, s2, hloop, hread⟩ := hread
  rw [objectKept, passes_of_ok hopen, passes_of_ok hloop] at hkept
  obtain rfl := eq_of_loopAhead hloop
  rw [Reader.char_eq_ok_iff.mp hopen]
  cases isLoop with
  | true =>
    simp only [if_true, Reader.bind_iff, Reader.pure_iff, closeMarker_eq_ok_iff] at hread
    obtain ⟨e, s3, he, _, s4, rfl, rfl, rfl⟩ := hread
    exact forObject_keeps h he hkept
  | false =>
    simp only [Bool.false_eq_true, if_false, Reader.bind_iff, Reader.pure_iff, closeMarker_eq_ok_iff] at hread
    obtain ⟨e, s3, he, _, s4, rfl, rfl, rfl⟩ := hread
    exact plainObject_keeps h he hkept

/-! ## Operands -/

theorem quoted_keeps (h : k.Sound) : (quoted k.toInner).Keeps (quotedKept k) Node.text := by
  intro s node r hread hkept
  obtain ⟨htextKept, htemplateKept⟩ := Bool.and_eq_true_iff.mp hkept
  simp only [quoted, Reader.or_eq_ok_iff, Reader.bind_iff, Reader.pure_iff] at hread
  rcases hread with ⟨u, s1, hu, rfl, rfl⟩ | ⟨-, es, s1, hes, rfl, rfl⟩
  · rw [quotedText_keeps s u s1 hu htextKept]
    simp [Node.text, Node.pieces, render]
  · exact quotedTemplate_keeps h s es s1 hes htemplateKept

theorem stands_ofNode {node : Node} (h : s = node.text ++ r) : (Expr.ofNode node).Stands s r := ⟨h, rfl⟩

theorem operand_keeps (h : k.Sound) {e : Expr} {newlines : Bool} (hread : operand k.toInner ctx s = .ok (e, newlines) r)
    (hkept : operandKept k ctx s = true) : e.Stands s r := by
  simp only [operandKept, Bool.and_eq_true] at hkept
  obtain ⟨⟨⟨⟨⟨hquoted, harray⟩, hobject⟩, hheredoc⟩, hparenthesis⟩, hnamed⟩ := hkept
  cases readsOperand_of_ok hread with
  | quoted hnode => exact stands_ofNode (quoted_keeps h s _ r hnode hquoted)
  | array hnode => exact stands_ofNode (array_keeps h s _ r hnode harray)
  | object he => exact object_keeps h he hobject
  | number hnumber => exact stands_ofNode (by rw [Node.text_number]; exact (number_eq_ok hnumber).1)
  | heredoc hnode => exact stands_ofNode (heredoc_keeps h s _ r hnode hheredoc)
  | negativeNumber hnumber => exact stands_ofNode (by rw [Node.text_number]; exact (negativeNumber_eq_ok hnumber).1)
  | parenthesis hnode => exact stands_ofNode (parenthesis_keeps h s _ r hnode hparenthesis)
  | named hnode => exact stands_ofNode (named_keeps h s _ r hnode hnamed)

theorem lead_of_operand {e : Expr} {newlines : Bool} (h : operand inner ctx s = .ok (e, newlines) r) : e.decor.lead = [] := by
  cases readsOperand_of_ok h with
  | object he =>
    rw [Decor.lead, (object_node he).2]
    rfl
  | quoted | array | number | heredoc | negativeNumber | parenthesis | named => rfl

/-! ## Signs -/

theorem signBeforeTerm_text {sign : Sign × Text} (h : signBeforeTerm s = .ok sign r) :
    s = sign.1.symbol ++ sign.2 ++ r := by
  simp only [signBeforeTerm, Grammar.sign, Reader.bind_iff, Reader.absent_eq_ok_iff, Reader.oneOf_eq_ok_iff] at h
  obtain ⟨_, s1, ⟨-, rfl⟩, c, s2, ⟨rfl, hc⟩, after, s3, hafter, h⟩ := h
  rw [inline_text hafter]
  obtain rfl | rfl : c = '!' ∨ c = '-' := by simpa using hc
  · obtain ⟨rfl, rfl⟩ := Reader.pure_iff.mp h
    rfl
  · obtain ⟨rfl, rfl⟩ := Reader.pure_iff.mp h
    rfl

theorem signs_text {signs : List (Sign × Text)} (h : Reader.many signBeforeTerm s = .ok signs r) :
    s = signsText signs ++ r := by
  have hsign : signBeforeTerm.Keeps (fun _ => true) fun x => x.1.symbol ++ x.2 :=
    fun _ _ _ hread _ => signBeforeTerm_text hread
  exact hsign.many s signs r h (Reader.manyKept_true _ s)

theorem tail_applySigns {e : Expr} (h : e.decor.tail = []) (signs : List (Sign × Text)) :
    (applySigns e signs).decor.tail = [] := by
  cases signs with
  | nil => exact h
  | cons sign signs => rfl

/-- The signs and the operand of a term stand in the text as the term is written. -/
theorem termText_of_signs {more : Bool} {signs : List (Sign × Text)} {e : Expr} (he : e.Stands s r) (hlead : e.decor.lead = [])
    (hkept : signsKept more signs e = true) : signsText signs ++ s = termText more (applySigns e signs) ++ r := by
  have hsame : signsText signs ++ e.text = termText more (applySigns e signs) := of_decide_eq_true hkept
  rw [← hsame, Expr.text_eq, hlead, he.tail, he.text]
  simp

end BackendSwitch.Grammar
