import BackendSwitch.Proofs.Reading.Heredoc
import BackendSwitch.Proofs.Reading.Object

/-! # Terms are read again

A term is read again in front of any text that does not become part of it. Of several signs only the last one is left, so
they are read again as one sign, or as they were where all of them are the same. -/
namespace BackendSwitch
set_option autoImplicit false

open Grammar
open Identifier (startsWith extendsWith)

namespace Node

/-- Whether an expression consists of one term without a sign. -/
def isOperand : Node → Bool
  | .unary .. => false
  | n => n.isTerm

theorem isTerm_of_isOperand : {n : Node} → n.isOperand = true → n.isTerm = true
  | .unary .., h => by cases h
  | .null, _ | .bool _, _ | .number _, _ | .string _, _ | .array .., _ | .object .., _ | .template _, _
  | .heredoc .., _ | .parenthesis _, _ | .variable _, _ | .call .., _ | .forArray .., _ | .forObject .., _ => rfl
  | .conditional .., h | .traversal .., h | .binary .., h => h

/-- A text of signs that stands in front of an expression, each of them the sign with which the expression begins. -/
def LedBy (lead : Text) : Node → Prop
  | .unary sign _ => ∀ c ∈ lead, [c] = sign.symbol
  | _ => lead = []

theorem ledBy_nil : (n : Node) → n.LedBy []
  | .unary .. => fun _ hc => by cases hc
  | .null | .bool _ | .number _ | .string _ | .array .. | .object .. | .template _ | .heredoc .. | .parenthesis _
  | .variable _ | .conditional .. | .call .. | .traversal .. | .binary .. | .forArray .. | .forObject .. => rfl

theorem ledBy_of_isOperand {lead : Text} : {n : Node} → n.isOperand = true → n.LedBy lead → lead = []
  | .unary .., h, _ => by cases h
  | .null, _, h | .bool _, _, h | .number _, _, h | .string _, _, h | .array .., _, h | .object .., _, h
  | .template _, _, h | .heredoc .., _, h | .parenthesis _, _, h | .variable _, _, h | .conditional .., _, h
  | .call .., _, h | .traversal .., _, h | .binary .., _, h | .forArray .., _, h | .forObject .., _, h => h

end Node

/-- A term with some of the signs in front of it, without the blank text that moved to its outside. -/
def Expr.led (e : Expr) (lead : Text) : Expr :=
  { e with decor := ⟨e.decor.before.map fun _ => lead, e.decor.after.map fun _ => []⟩ }

namespace Grammar

variable {inner inner' : Inner} {k : Nat}

/-! ## Parentheses and arguments -/

theorem parenthesis_repeats (h : inner.Repeats inner' k) {s r : Text} {node : Node}
    (hs : parenthesis inner s = .ok node r) (sound : node.Sound) (hk : node.text.length ≤ k) (r' : Text) :
    parenthesis inner' (node.text ++ r') = .ok node r' := by
  simp only [parenthesis, Reader.bind_iff, Reader.pure_iff, Reader.char_eq_ok_iff, Reader.require_eq_ok_iff] at hs
  obtain ⟨_, s1, rfl, b, s2, hb, e, s3, he, a, s4, ha, _, s5, rfl, rfl, rfl⟩ := hs
  simp only [Node.text_parenthesis, Expr.within_text, List.length_cons, List.length_append] at hk
  obtain ⟨-, -, -, hagain⟩ := h.enclosed true true hb he ha (by simp) (Expr.sound_of_within (b := b) (a := a) sound)
    (by omega)
  obtain ⟨hb', he', ha'⟩ := hagain (')' :: r') (stopper_closer rfl) (alike_of_avoids (Text.avoids_cons.mpr rfl))
  have htext : (Node.parenthesis (e.within b a)).text ++ r' = '(' :: (b ++ (e.node.text ++ (a ++ ')' :: r'))) := by
    simp [Node.text_parenthesis, Expr.within_text]
  rw [htext]
  exact Reader.bind_ok (Reader.char_cons _ _) <| Reader.bind_ok hb' <| Reader.bind_ok he' <| Reader.bind_ok ha' <|
    Reader.bind_ok (Reader.require_eq_ok_iff.mpr (Reader.char_cons _ _)) rfl

/-- The characters at which no argument of a call begins. -/
def endsArguments (c : Char) : Bool := c == ',' || c == '.' || c == ')'

theorem argument_eq (inner : Inner) (ctx : Context) :
    argument inner ctx = listItem (Reader.oneOf endsArguments) inner ctx := rfl

/-- The end of the arguments of a call is read as it stands, in front of blank text and the closing parenthesis. -/
theorem ending_append {tail r : Text} (ending' : Ending) (ht : Blank tail) :
    ending (ending'.symbol ++ (tail ++ ')' :: r)) = .ok ending' (tail ++ ')' :: r) := by
  cases ending' with
  | plain =>
    have hcomma : (tail ++ ')' :: r).head? ≠ some ',' := head_of_blank ht rfl (by simp)
    have hdot : (tail ++ ')' :: r).head? ≠ some '.' := head_of_blank ht rfl (by simp)
    have hsoft : (Reader.oneOf fun c => c == ',' || c == '.') (tail ++ ')' :: r) = .soft := by
      refine Reader.oneOf_of_avoids fun c hc => ?_
      rw [hc] at hcomma hdot
      simpa using And.intro (fun e => hcomma (by rw [e])) (fun e => hdot (by rw [e]))
    exact Reader.bind_ok (Reader.optional_eq_none_iff.mpr ⟨hsoft, rfl⟩) rfl
  | comma => rfl
  | spread =>
    refine Reader.bind_ok (a := some '.') (t := '.' :: '.' :: (tail ++ ')' :: r)) rfl ?_
    exact Reader.bind_ok (Reader.require_eq_ok_iff.mpr (Reader.word_append ['.', '.'] (tail ++ ')' :: r))) rfl

theorem ending_eq_ok {s t : Text} {last : Ending} (h : ending s = .ok last t) : s = last.symbol ++ t := by
  simp only [ending, Reader.bind_iff] at h
  obtain ⟨sign, u, hsign, h⟩ := h
  cases sign with
  | none =>
    obtain ⟨-, rfl⟩ := Reader.optional_eq_none_iff.mp hsign
    obtain ⟨rfl, rfl⟩ := Reader.pure_iff.mp h
    rfl
  | some c =>
    obtain ⟨rfl, hc⟩ := Reader.oneOf_eq_ok_iff.mp (Reader.optional_eq_some_iff.mp hsign)
    obtain rfl | rfl : c = ',' ∨ c = '.' := by simpa using hc
    · obtain ⟨rfl, rfl⟩ := Reader.pure_iff.mp h
      rfl
    · simp only [Reader.bind_iff, Reader.pure_iff, Reader.require_eq_ok_iff, Reader.word_eq_ok_iff] at h
      obtain ⟨_, v, rfl, rfl, rfl⟩ := h
      rfl

/-! ## Calls -/

/-- The names of a call behind the first one. -/
def namesText (more : List Name) : Text := more.flatMap fun n => ':' :: ':' :: n.written

theorem intercalate_names (first : Name) (more : List Name) :
    List.intercalate [':', ':'] ((first :: more).map Name.written) = first.written ++ namesText more := by
  induction more generalizing first with
  | nil => simp [namesText, List.intercalate]
  | cons n more ih =>
    have hstep : List.intercalate [':', ':'] ((first :: n :: more).map Name.written) =
        first.written ++ ([':', ':'] ++ List.intercalate [':', ':'] ((n :: more).map Name.written)) := by
      simp [List.intercalate]
    rw [hstep, ih]
    simp [namesText]

/-- The arguments of a call, how they end, and the blank text in front of the closing parenthesis. -/
def argumentsText (es : List Expr) (last : Ending) (tail : Text) : Text :=
  separatedText es ++ (last.symbol ++ (tail ++ [')']))

theorem arguments_repeats (h : inner.Repeats inner' k) {ctx : Context} {s t r tail : Text} {es : List Expr}
    {last : Ending} (hs : arguments inner ctx s = .ok (es, last) t) (ht : blank t = .ok tail (')' :: r))
    (sound : AllSound es) (hk : (argumentsText es last tail).length ≤ k) (r' : Text) :
    arguments inner' ctx (argumentsText es last tail ++ r') = .ok (es, last) (tail ++ ')' :: r') := by
  simp only [arguments, argument_eq, Reader.bind_iff, Reader.pure_iff, Prod.mk.injEq] at hs
  obtain ⟨es, s1, hes, last, s2, hlast, ⟨rfl, rfl⟩, rfl⟩ := hs
  obtain ⟨rfl, htail, -⟩ := blank_eq_ok ht (by simp)
  have htail' : blank (tail ++ ')' :: r') = .ok tail (')' :: r') := blank_append htail (blankEnd_cons rfl)
  simp only [argumentsText, List.length_append, List.length_cons] at hk
  obtain rfl := ending_eq_ok hlast
  have hplain : last = .plain → tail = [] := by
    rintro rfl
    exact eq_nil_of_separated hes ht
  have hstart : ∀ s, StartsTerm s → Reader.oneOf endsArguments s = .soft := by
    rintro s ⟨c, u, rfl, hc⟩
    refine Reader.oneOf_of_avoids (Text.avoids_cons.mpr ?_)
    have hne := fun d => Text.ne_of_class hc (d := d)
    simp [endsArguments, hne ',' rfl, hne '.' rfl, hne ')' rfl]
  have hrest : Stopper (!ctx.operand) (last.symbol ++ (tail ++ ')' :: r')) ∧
      Text.Avoids extendsWith (last.symbol ++ (tail ++ ')' :: r')) ∧
      (do
        Reader.char ','
        listItem (Reader.oneOf endsArguments) inner' ctx) (last.symbol ++ (tail ++ ')' :: r')) = .soft := by
    cases last with
    | plain =>
      rw [hplain rfl]
      exact ⟨stopper_closer rfl, Text.avoids_cons.mpr rfl, rfl⟩
    | comma =>
      have hsoft : listItem (Reader.oneOf endsArguments) inner' ctx (tail ++ ')' :: r') = .soft :=
        listItem_of_end htail' (Reader.oneOf_eq_ok_iff.mpr ⟨rfl, rfl⟩)
      exact ⟨stopper_closer rfl, Text.avoids_cons.mpr rfl, (Reader.bind_of_ok (Reader.char_cons ',' _)).trans hsoft⟩
    | spread => exact ⟨stopper_dots, Text.avoids_cons.mpr rfl, rfl⟩
  have hes' : separated (listItem (Reader.oneOf endsArguments) inner' ctx)
      (separatedText es ++ (last.symbol ++ (tail ++ ')' :: r'))) = .ok es (last.symbol ++ (tail ++ ')' :: r')) :=
    listItems_repeats h hstart hes (by simp) sound (by omega) hrest.1 hrest.2.1 hrest.2.2
  have htext : argumentsText es last tail ++ r' = separatedText es ++ (last.symbol ++ (tail ++ ')' :: r')) := by
    simp [argumentsText]
  rw [htext]
  exact Reader.bind_ok hes' <| Reader.bind_ok (ending_append last htail) rfl

theorem names_repeats {newlines : Bool} {s r : Text} {more : List Name}
    (hmore : Reader.many (do
      Reader.word [':', ':']
      nameWithin (gap newlines)) s = .ok more r) (hr : r ≠ []) (t : Text) :
    Reader.many (do
      Reader.word [':', ':']
      nameWithin (gap newlines)) (namesText more ++ '(' :: t) = .ok more ('(' :: t) := by
  refine Reader.many_flatMap (fun _ _ => by simp) (fun pre n post hpost => ?_) rfl
  have hnil : (do
      Reader.word [':', ':']
      nameWithin (gap newlines)) [] = .soft := rfl
  obtain ⟨t', u, hname, hu⟩ := Reader.exists_of_mem_many_of_soft hnil hmore hr (a := n) (by simp [hpost])
  simp only [Reader.bind_iff, Reader.word_eq_ok_iff] at hname
  obtain ⟨_, v, -, hname⟩ := hname
  obtain ⟨-, -, -, hagain⟩ := nameWithin_eq_ok hname hu
  refine Reader.bind_ok (Reader.word_append [':', ':'] _) (hagain _ ?_ ?_)
  · cases post with
    | nil => exact alike_of_avoids (Text.avoids_cons.mpr rfl)
    | cons n post => exact alike_of_avoids (Text.avoids_cons.mpr rfl)
  · cases post with
    | nil => exact (blankEnd_cons rfl).gapEnd
    | cons n post => exact (blankEnd_cons rfl).gapEnd

/-- Behind the first name of a call it can be seen that it is one. -/
theorem callAhead_names (more : List Name) (es : List Expr) (last : Ending) (tail r : Text) :
    callAhead (namesText more ++ '(' :: (argumentsText es last tail ++ r)) = true ∧
      BlankEnd (namesText more ++ '(' :: (argumentsText es last tail ++ r)) ∧
      (namesText more ++ '(' :: (argumentsText es last tail ++ r)).Avoids extendsWith := by
  cases more with
  | nil =>
    obtain ⟨c, t, ht⟩ : ∃ c t, argumentsText es last tail ++ r = c :: t :=
      List.exists_cons_of_ne_nil (by simp [argumentsText])
    rw [ht]
    exact ⟨rfl, blankEnd_cons rfl, Text.avoids_cons.mpr rfl⟩
  | cons n more => exact ⟨rfl, blankEnd_cons rfl, Text.avoids_cons.mpr rfl⟩

theorem call_repeats (h : inner.Repeats inner' k) {ctx : Context} {s r : Text} {first : Name} {node : Node}
    (hs : call inner ctx first s = .ok node r) (sound : node.Sound) (hk : node.text.length ≤ k) (r' : Text) :
    ∃ t, node.text ++ r' = first.written ++ t ∧ callAhead t = true ∧ BlankEnd t ∧ t.Avoids extendsWith ∧
      node.lines ctx.newlines = true ∧ call inner' ctx first t = .ok node r' := by
  simp only [call, Reader.bind_iff, Reader.pure_iff, Reader.char_eq_ok_iff, Reader.require_eq_ok_iff] at hs
  obtain ⟨more, s1, hmore, _, s2, rfl, given, s3, hgiven, tail, s4, htail, _, s5, rfl, rfl, rfl⟩ := hs
  generalize hp : given.getD ([], .plain) = p at *
  obtain ⟨es, last⟩ := p
  have htext : (Node.call (first :: more) es last tail).text ++ r' =
      first.written ++ (namesText more ++ '(' :: (argumentsText es last tail ++ r')) := by
    rw [Node.text_call, intercalate_names]
    simp [argumentsText]
  have hlen : (argumentsText es last tail).length ≤ k := by
    have hlength := congrArg List.length htext
    simp only [List.length_append, List.length_cons] at hlength hk
    omega
  have hmore' := names_repeats hmore (by simp) (argumentsText es last tail ++ r')
  obtain ⟨-, htailBlank, -⟩ := blank_eq_ok htail (by simp)
  have htail' : blank (tail ++ ')' :: r') = .ok tail (')' :: r') := blank_append htailBlank (blankEnd_cons rfl)
  have hargs : (arguments inner' { ctx with newlines := true }).optional (argumentsText es last tail ++ r') =
      .ok given (tail ++ ')' :: r') := by
    cases given with
    | none =>
      obtain ⟨rfl, rfl⟩ : [] = es ∧ .plain = last := Prod.mk.inj hp
      have hsoft : listItem (Reader.oneOf endsArguments) inner' { ctx with newlines := true } (tail ++ ')' :: r') = .soft :=
        listItem_of_end htail' (Reader.oneOf_eq_ok_iff.mpr ⟨rfl, rfl⟩)
      have hempty : argumentsText [] .plain tail ++ r' = tail ++ ')' :: r' := by
        simp [argumentsText, separatedText, Ending.symbol]
      rw [hempty]
      exact Reader.optional_eq_none_iff.mpr ⟨Reader.bind_of_soft (Reader.bind_of_soft hsoft), rfl⟩
    | some p =>
      obtain rfl : p = (es, last) := hp
      exact Reader.optional_eq_some_iff.mpr
        (arguments_repeats h (Reader.optional_eq_some_iff.mp hgiven) htail sound hlen r')
  have hread : call inner' ctx first (namesText more ++ '(' :: (argumentsText es last tail ++ r')) =
      .ok (.call (first :: more) (given.getD ([], .plain)).1 (given.getD ([], .plain)).2 tail) r' :=
    Reader.bind_ok hmore' <| Reader.bind_ok (Reader.require_eq_ok_iff.mpr (Reader.char_cons '(' _)) <|
      Reader.bind_ok hargs <| Reader.bind_ok htail' <|
      Reader.bind_ok (Reader.require_eq_ok_iff.mpr (Reader.char_cons ')' r')) rfl
  rw [hp] at hread
  obtain ⟨hahead, hend, havoid⟩ := callAhead_names more es last tail r'
  exact ⟨_, htext, hahead, hend, havoid, by simp [Node.lines], hread⟩

/-! ## Names and quotes -/

/-- A name stands for one of the constants or for a variable. -/
theorem constant_cases (name : Text) :
    (constant name = .null ∧ name = Node.null.text) ∨ (∃ b, constant name = .bool b ∧ name = (Node.bool b).text) ∨
      constant name = .variable name := by
  unfold constant
  split
  · next h => exact .inl ⟨rfl, h⟩
  split
  · next h => exact .inr (.inl ⟨true, rfl, h⟩)
  split
  · next h => exact .inr (.inl ⟨false, rfl, h⟩)
  · exact .inr (.inr rfl)

theorem text_constant (name : Text) : (constant name).text = name := by
  rcases constant_cases name with ⟨h, hname⟩ | ⟨b, h, hname⟩ | h
  · rw [h, ← hname]
  · rw [h, ← hname]
  · rw [h, Node.text_variable]

theorem lines_constant (name : Text) (newlines : Bool) : (constant name).lines newlines = newlines := by
  rcases constant_cases name with ⟨h, -⟩ | ⟨b, h, -⟩ | h <;> rw [h] <;> rfl

theorem noCall_of_constant {name z : Text} {newlines : Bool} (h : (constant name).Follows newlines z) :
    NoCall newlines z := by
  rcases constant_cases name with ⟨hc, -⟩ | ⟨b, hc, -⟩ | hc <;> rw [hc] at h <;> exact h

theorem isOperand_constant (name : Text) : (constant name).isOperand = true := by
  rcases constant_cases name with ⟨h, -⟩ | ⟨b, h, -⟩ | h <;> rw [h] <;> rfl

theorem named_of_gap {ctx : Context} {s t u name after : Text} (hname : identifier s = .ok name t)
    (hgap : gap ctx.newlines t = .ok after u) :
    named inner ctx s =
      if callAhead u then ((call inner ctx ⟨[], name, after⟩).bind fun node => Reader.pure (node, true)) u
      else .ok (constant name, ctx.newlines) t := by
  refine (Reader.bind_of_ok hname).trans ?_
  simp only [hgap]

theorem named_repeats (h : inner.Repeats inner' k) {ctx : Context} {s r : Text} {node : Node} {newlines : Bool}
    (hs : named inner ctx s = .ok (node, newlines) r) (sound : node.Sound) (hk : node.text.length ≤ k) :
    node.isOperand = true ∧ newlines = node.lines ctx.newlines ∧ ∀ r', Alike r r' → node.Follows ctx.newlines r' →
      named inner' ctx (node.text ++ r') = .ok (node, newlines) r' := by
  obtain ⟨name, s1, hname, -⟩ := Reader.bind_eq_ok_iff.mp hs
  obtain ⟨after, u, hgap, -, -⟩ := gap_spec ctx.newlines s1
  rw [named_of_gap hname hgap] at hs
  obtain ⟨rfl, hident, havoid⟩ := identifier_eq_ok hname
  split at hs
  · next hcall =>
    obtain ⟨call, t, hread, hs⟩ := Reader.bind_eq_ok_iff.mp hs
    obtain ⟨heq, rfl⟩ := Reader.pure_iff.mp hs
    obtain ⟨rfl, rfl⟩ := Prod.mk.inj heq
    have hne : u ≠ [] := by
      rintro rfl
      cases hcall
    obtain ⟨rfl, hafter, -⟩ := gap_eq_ok hgap hne
    refine ⟨?_, ?_, fun r' _ _ => ?_⟩
    · simp only [Grammar.call, Reader.bind_iff, Reader.pure_iff] at hread
      obtain ⟨_, _, -, _, _, -, _, _, -, _, _, -, _, _, -, rfl, -⟩ := hread
      rfl
    · obtain ⟨-, -, -, -, -, hlines, -⟩ := call_repeats h hread sound hk []
      exact hlines.symm
    · obtain ⟨v, htext, hahead, hend, hmore, -, hread'⟩ := call_repeats h hread sound hk r'
      have hwritten : call.text ++ r' = name ++ (after ++ v) := by simp [htext, Name.written]
      have hname' : identifier (name ++ (after ++ v)) = .ok name (after ++ v) :=
        identifier_append hident (avoids_of_blank hafter.blank hmore)
      rw [hwritten, named_of_gap hname' (gap_append hafter hend.gapEnd), if_pos hahead]
      exact Reader.bind_eq_ok_iff.mpr ⟨call, r', hread', rfl⟩
  · injection hs with heq hrest
    obtain ⟨rfl, rfl⟩ := Prod.mk.inj heq
    subst hrest
    refine ⟨isOperand_constant name, (lines_constant name _).symm, fun r' halike hfollows => ?_⟩
    obtain ⟨a, v, hgap', hcall⟩ := noCall_of_constant hfollows
    have hname' : identifier (name ++ r') = .ok name r' :=
      identifier_append hident (halike.avoids (fun _ h => h) havoid)
    rw [text_constant, named_of_gap hname' hgap', if_neg (by simp [hcall])]

theorem quoted_repeats (h : inner.Repeats inner' k) {s r : Text} {node : Node} (hs : quoted inner s = .ok node r)
    (sound : node.Sound) (hk : node.text.length ≤ k) :
    node.isOperand = true ∧ (∀ newlines, node.lines newlines = newlines) ∧
      ∀ r', quoted inner' (node.text ++ r') = .ok node r' := by
  simp only [quoted, Reader.or_eq_ok_iff, Reader.bind_iff, Reader.pure_iff] at hs
  rcases hs with ⟨t, s1, ht, rfl, rfl⟩ | ⟨-, es, s1, hes, rfl, rfl⟩
  · refine ⟨rfl, fun _ => by simp [Node.lines], fun r' => Reader.or_of_ok ?_⟩
    have htext : (Node.string t).text = Escape.quoted t := by simp [Node.text, Node.pieces, render]
    rw [htext]
    exact Reader.bind_ok (quotedText_quoted sound r') rfl
  · refine ⟨rfl, fun _ => by simp [Node.lines], fun r' => ?_⟩
    obtain ⟨hsound, hquoted⟩ := sound
    have hparts : ∀ e ∈ es, e.isLiteral = false → ∀ r', templatePart inner' (e.text ++ r') = .ok e r' := by
      intro e he hlit
      simp only [quotedTemplate, Reader.bind_iff, Reader.pure_iff] at hes
      obtain ⟨_, s2, -, es, s3, hmany, _, s4, -, rfl, rfl⟩ := hes
      obtain ⟨t, u, hread⟩ := Reader.exists_of_mem_many hmany he
      have hlen : e.text.length < (Node.template es).text.length := by
        obtain ⟨pre, post, rfl⟩ := List.append_of_mem he
        rw [Node.text_template, hquoted.text, List.flatMap_append, List.flatMap_cons,
          Element.quotedText_of_not_literal hlit]
        simp only [List.length_cons, List.length_append]
        omega
      rcases Reader.or_eq_ok_iff.mp hread with hliteral | ⟨-, hpart⟩
      · simp only [Reader.bind_iff, Reader.pure_iff] at hliteral
        obtain ⟨v, _, -, rfl, -⟩ := hliteral
        cases hlit
      · exact (templatePart_repeats h hpart ((elementsSound_iff es).mp hsound e he) (by omega)).2
    have hsoft : (do return Node.string (← quotedText)) ((Node.template es).text ++ r') = .soft :=
      Reader.bind_of_soft (quotedText_of_template hquoted r')
    rw [quoted, Reader.or_of_soft hsoft]
    exact Reader.bind_ok (quotedTemplate_repeats hparts hquoted r') rfl

/-! ## Operands -/

theorem startsWith_of_isDigit {c : Char} (h : c.isDigit = true) : startsWith c = false := by
  simp only [Char.isDigit, Bool.and_eq_true, decide_eq_true_eq] at h
  have hval : c.toNat < 58 ∧ 48 ≤ c.toNat := ⟨Nat.lt_succ_of_le h.2, h.1⟩
  have halpha : c.isAlpha =
      (decide (65 ≤ c.val ∧ c.val ≤ 90) || (decide (97 ≤ c.val) && decide (c.val ≤ 122))) := rfl
  cases hs : startsWith c with
  | false => rfl
  | true =>
    simp only [startsWith, halpha, Bool.or_eq_true, Bool.and_eq_true, decide_eq_true_eq, beq_iff_eq] at hs
    rcases hs with ((⟨hlow, -⟩ | ⟨hlow, -⟩) | rfl) | ⟨hlow, -⟩
    · have hlow' : 65 ≤ c.toNat := hlow
      omega
    · have hlow' : 97 ≤ c.toNat := hlow
      omega
    · exact absurd hval (by decide)
    · omega

theorem not_isDigit_of_startsWith {c : Char} (h : startsWith c = true) : ¬ c.isDigit = true := fun hd =>
  Text.ne_of_class h (startsWith_of_isDigit hd) rfl

section
variable {ctx : Context} {s r : Text} {node : Node}

theorem operand_cons (inner : Inner) (ctx : Context) (c : Char) (t : Text) :
    operand inner ctx (c :: t) =
      (if c = '"' then (do return (.ofNode (← quoted inner), ctx.newlines))
      else if c = '[' then (do return (.ofNode (← array inner { ctx with newlines := true }), true))
      else if c = '{' then object inner ctx
      else if c.isDigit then (do return (.ofNode (← (do return .number (← number) : Reader Node)), ctx.newlines))
      else if c = '<' then (do return (.ofNode (← heredoc inner), ctx.newlines))
      else if c = '-' then (do return (.ofNode (← (do return .number (← negativeNumber) : Reader Node)), ctx.newlines))
      else if c = '(' then (do return (.ofNode (← parenthesis inner), ctx.newlines))
      else if startsWith c then (do
        let (node, newlines) ← named inner ctx
        return (.ofNode node, newlines))
      else Reader.stop .expression : Reader (Expr × Bool)) (c :: t) := rfl

theorem quoted_head (h : quoted inner s = .ok node r) : ∃ t, s = '"' :: t := by
  simp only [quoted, quotedText, quotedTemplate, Reader.or_eq_ok_iff, Reader.bind_iff, Reader.char_eq_ok_iff] at h
  rcases h with ⟨_, _, ⟨_, t, rfl, -⟩, -⟩ | ⟨-, _, _, ⟨_, t, rfl, -⟩, -⟩
  · exact ⟨t, rfl⟩
  · exact ⟨t, rfl⟩

theorem operand_of_quoted (h : quoted inner s = .ok node r) : operand inner ctx s = .ok (.ofNode node, ctx.newlines) r := by
  obtain ⟨t, rfl⟩ := quoted_head h
  exact Reader.bind_ok (Reader.peek_cons _ _) (Reader.bind_ok h rfl)

theorem array_head {ctx : Context} (h : array inner ctx s = .ok node r) : ∃ t, s = '[' :: t := by
  simp only [array, Reader.bind_iff, Reader.char_eq_ok_iff] at h
  obtain ⟨_, t, rfl, -⟩ := h
  exact ⟨t, rfl⟩

theorem operand_of_array (h : array inner { ctx with newlines := true } s = .ok node r) :
    operand inner ctx s = .ok (.ofNode node, true) r := by
  obtain ⟨t, rfl⟩ := array_head h
  exact Reader.bind_ok (Reader.peek_cons _ _) (Reader.bind_ok h rfl)

theorem object_head {x : Expr × Bool} (h : object inner ctx s = .ok x r) : ∃ t, s = '{' :: t := by
  simp only [object, Reader.bind_iff, Reader.char_eq_ok_iff] at h
  obtain ⟨_, t, rfl, -⟩ := h
  exact ⟨t, rfl⟩

theorem operand_of_object {x : Expr × Bool} (h : object inner ctx s = .ok x r) : operand inner ctx s = .ok x r := by
  obtain ⟨t, rfl⟩ := object_head h
  exact h

theorem heredoc_head (h : heredoc inner s = .ok node r) : ∃ t, s = '<' :: t := by
  simp only [heredoc, Reader.bind_iff, Reader.word_eq_ok_iff] at h
  obtain ⟨_, t, rfl, -⟩ := h
  exact ⟨'<' :: t, rfl⟩

theorem operand_of_heredoc (h : heredoc inner s = .ok node r) :
    operand inner ctx s = .ok (.ofNode node, ctx.newlines) r := by
  obtain ⟨t, rfl⟩ := heredoc_head h
  exact Reader.bind_ok (Reader.peek_cons _ _) (Reader.bind_ok h rfl)

theorem parenthesis_head (h : parenthesis inner s = .ok node r) : ∃ t, s = '(' :: t := by
  simp only [parenthesis, Reader.bind_iff, Reader.char_eq_ok_iff] at h
  obtain ⟨_, t, rfl, -⟩ := h
  exact ⟨t, rfl⟩

theorem operand_of_parenthesis (h : parenthesis inner s = .ok node r) :
    operand inner ctx s = .ok (.ofNode node, ctx.newlines) r := by
  obtain ⟨t, rfl⟩ := parenthesis_head h
  exact Reader.bind_ok (Reader.peek_cons _ _) (Reader.bind_ok h rfl)

theorem operand_of_negativeNumber {n : Numeral} (h : negativeNumber s = .ok n r) :
    operand inner ctx s = .ok (.ofNode (.number n), ctx.newlines) r := by
  obtain ⟨rfl, ⟨t, ht⟩, -⟩ := negativeNumber_eq_ok h
  have hread : (do return Node.number (← negativeNumber) : Reader Node) (n.text ++ r) = .ok (.number n) r :=
    Reader.bind_ok h rfl
  rw [ht] at hread ⊢
  exact Reader.bind_ok (Reader.peek_cons _ _) (Reader.bind_ok hread rfl)

theorem operand_of_number {n : Numeral} (h : number s = .ok n r) :
    operand inner ctx s = .ok (.ofNode (.number n), ctx.newlines) r := by
  obtain ⟨rfl, ⟨c, t, ht, hc⟩, -⟩ := number_eq_ok h
  have hread : (do return Node.number (← number) : Reader Node) (n.text ++ r) = .ok (.number n) r := Reader.bind_ok h rfl
  have hne := fun d => Text.ne_of_class hc (d := d)
  rw [ht] at hread ⊢
  rw [List.cons_append, operand_cons, if_neg (hne '"' rfl), if_neg (hne '[' rfl), if_neg (hne '{' rfl), if_pos hc]
  exact Reader.bind_ok hread rfl

theorem named_head {newlines : Bool} (h : named inner ctx s = .ok (node, newlines) r) :
    ∃ c t, s = c :: t ∧ startsWith c = true := by
  obtain ⟨name, s1, hname, -⟩ := Reader.bind_eq_ok_iff.mp h
  obtain ⟨rfl, ⟨c, t, rfl, hc, -⟩, -⟩ := identifier_eq_ok hname
  exact ⟨c, t ++ s1, rfl, hc⟩

theorem operand_of_named {newlines : Bool} (h : named inner ctx s = .ok (node, newlines) r) :
    operand inner ctx s = .ok (.ofNode node, newlines) r := by
  obtain ⟨c, t, rfl, hc⟩ := named_head h
  have hne := fun d => Text.ne_of_class hc (d := d)
  have hdigit : ¬ c.isDigit = true := not_isDigit_of_startsWith hc
  rw [operand_cons, if_neg (hne '"' rfl), if_neg (hne '[' rfl), if_neg (hne '{' rfl), if_neg hdigit,
    if_neg (hne '<' rfl), if_neg (hne '-' rfl), if_neg (hne '(' rfl), if_pos hc]
  exact Reader.bind_ok h rfl

/-- What an operand was read as. -/
inductive ReadsOperand (inner : Inner) (ctx : Context) (s : Text) : Expr → Bool → Text → Prop
  | quoted {node : Node} {r : Text} : quoted inner s = .ok node r → ReadsOperand inner ctx s (.ofNode node) ctx.newlines r
  | array {node : Node} {r : Text} :
    array inner { ctx with newlines := true } s = .ok node r → ReadsOperand inner ctx s (.ofNode node) true r
  | object {e : Expr} {newlines : Bool} {r : Text} :
    object inner ctx s = .ok (e, newlines) r → ReadsOperand inner ctx s e newlines r
  | number {n : Numeral} {r : Text} : number s = .ok n r → ReadsOperand inner ctx s (.ofNode (.number n)) ctx.newlines r
  | heredoc {node : Node} {r : Text} : heredoc inner s = .ok node r → ReadsOperand inner ctx s (.ofNode node) ctx.newlines r
  | negativeNumber {n : Numeral} {r : Text} :
    negativeNumber s = .ok n r → ReadsOperand inner ctx s (.ofNode (.number n)) ctx.newlines r
  | parenthesis {node : Node} {r : Text} :
    parenthesis inner s = .ok node r → ReadsOperand inner ctx s (.ofNode node) ctx.newlines r
  | named {node : Node} {newlines : Bool} {r : Text} :
    named inner ctx s = .ok (node, newlines) r → ReadsOperand inner ctx s (.ofNode node) newlines r

theorem ofNode_of_bind {p : Reader Node} {newlines newlines' : Bool} {e : Expr}
    (h : (do return (Expr.ofNode (← p), newlines) : Reader (Expr × Bool)) s = .ok (e, newlines') r) :
    ∃ node, p s = .ok node r ∧ e = .ofNode node ∧ newlines' = newlines := by
  simp only [Reader.bind_iff, Reader.pure_iff, Prod.mk.injEq] at h
  obtain ⟨node, t, hnode, ⟨rfl, rfl⟩, rfl⟩ := h
  exact ⟨node, hnode, rfl, rfl⟩

theorem readsOperand_of_ok {e : Expr} {newlines : Bool} (h : operand inner ctx s = .ok (e, newlines) r) :
    ReadsOperand inner ctx s e newlines r := by
  cases s with
  | nil => cases h
  | cons c t =>
    rw [operand_cons] at h
    split at h
    · obtain ⟨node, hnode, rfl, rfl⟩ := ofNode_of_bind h
      exact .quoted hnode
    split at h
    · obtain ⟨node, hnode, rfl, rfl⟩ := ofNode_of_bind h
      exact .array hnode
    split at h
    · exact .object h
    split at h
    · obtain ⟨node, hnode, rfl, rfl⟩ := ofNode_of_bind h
      simp only [Reader.bind_iff, Reader.pure_iff] at hnode
      obtain ⟨n, u, hn, rfl, rfl⟩ := hnode
      exact .number hn
    split at h
    · obtain ⟨node, hnode, rfl, rfl⟩ := ofNode_of_bind h
      exact .heredoc hnode
    split at h
    · obtain ⟨node, hnode, rfl, rfl⟩ := ofNode_of_bind h
      simp only [Reader.bind_iff, Reader.pure_iff] at hnode
      obtain ⟨n, u, hn, rfl, rfl⟩ := hnode
      exact .negativeNumber hn
    split at h
    · obtain ⟨node, hnode, rfl, rfl⟩ := ofNode_of_bind h
      exact .parenthesis hnode
    split at h
    · simp only [Reader.bind_iff, Reader.pure_iff, Prod.mk.injEq] at h
      obtain ⟨⟨node, _⟩, u, hnode, ⟨rfl, rfl⟩, rfl⟩ := h
      exact .named hnode
    · cases h

/-- With what an operand begins. Only a number can begin with a minus sign. -/
theorem operand_head {x : Expr × Bool} (h : operand inner ctx s = .ok x r) :
    StartsTerm s ∧ s.head? ≠ some '!' ∧ (s.head? = some '-' → ∃ n u, negativeNumber s = .ok n u) := by
  obtain ⟨e, newlines⟩ := x
  cases s with
  | nil => cases h
  | cons c t =>
    have hdispatch : startsTerm c = true ∧ c ≠ '!' := by
      rw [operand_cons] at h
      constructor
      · cases hc : startsTerm c with
        | true => rfl
        | false =>
          have hne : ∀ d, startsTerm d = true → c ≠ d := fun d hd => (Text.ne_of_class hd hc).symm
          simp only [startsTerm, Bool.or_eq_false_iff] at hc
          rw [if_neg (hne '"' rfl), if_neg (hne '[' rfl), if_neg (hne '{' rfl), if_neg (by simp [hc]),
            if_neg (hne '<' rfl), if_neg (hne '-' rfl), if_neg (hne '(' rfl), if_neg (by simp [hc])] at h
          cases h
      · rintro rfl
        cases h
    refine ⟨⟨c, t, rfl, hdispatch.1⟩, by simpa using hdispatch.2, fun hc => ?_⟩
    obtain rfl : c = '-' := by simpa using hc
    obtain ⟨node, hnode, -⟩ := ofNode_of_bind h
    simp only [Reader.bind_iff] at hnode
    obtain ⟨n, u, hn, -⟩ := hnode
    exact ⟨n, u, hn⟩

theorem array_node {ctx : Context} (h : array inner ctx s = .ok node r) :
    node.isOperand = true ∧ ∀ newlines, node.lines newlines = true := by
  simp only [array, Reader.bind_iff] at h
  obtain ⟨_, _, -, isLoop, _, -, h⟩ := h
  cases isLoop with
  | true =>
    simp only [if_true, forArray, Reader.bind_iff, Reader.pure_iff] at h
    obtain ⟨_, _, ⟨_, _, -, _, _, -, _, _, -, _, _, -, _, _, -, rfl, -⟩, _, _, -, rfl, -⟩ := h
    exact ⟨rfl, fun _ => by simp [Node.lines]⟩
  | false =>
    simp only [Bool.false_eq_true, if_false, plainArray, Reader.bind_iff, Reader.pure_iff] at h
    obtain ⟨_, _, ⟨_, _, -, _, _, -, _, _, -, rfl, -⟩, _, _, -, rfl, -⟩ := h
    exact ⟨rfl, fun _ => by simp [Node.lines]⟩

theorem object_node {e : Expr} {newlines : Bool} (h : object inner ctx s = .ok (e, newlines) r) :
    e.node.isOperand = true ∧ e.decor.before = none := by
  simp only [object, Reader.bind_iff] at h
  obtain ⟨_, _, -, isLoop, _, -, h⟩ := h
  cases isLoop with
  | true =>
    simp only [if_true, forObject, Reader.bind_iff, Reader.pure_iff, Prod.mk.injEq] at h
    obtain ⟨_, _, ⟨_, _, -, _, _, -, _, _, -, _, _, -, _, _, -, _, _, -, _, _, -, _, _, -, spread, _, -, test, _, -, rfl, -⟩,
      _, _, -, ⟨rfl, -⟩, -⟩ := h
    cases spread <;> cases test <;> exact ⟨rfl, rfl⟩
  | false =>
    simp only [Bool.false_eq_true, if_false, plainObject, Reader.bind_iff, Reader.pure_iff, Prod.mk.injEq] at h
    obtain ⟨_, _, ⟨_, _, -, _, _, -, _, _, -, rfl, -⟩, _, _, -, ⟨rfl, -⟩, -⟩ := h
    exact ⟨rfl, rfl⟩

theorem heredoc_node (h : heredoc inner s = .ok node r) :
    node.isOperand = true ∧ ∀ newlines, node.lines newlines = newlines := by
  simp only [heredoc, Reader.bind_iff, Reader.pure_iff] at h
  obtain ⟨_, _, -, indented, _, -, _, _, -, _, _, -, elements, _, -, _, _, -, _, _, -, rfl, -⟩ := h
  split
  · exact ⟨rfl, fun _ => by simp [Node.lines]⟩
  · exact ⟨rfl, fun _ => by simp [Node.lines]⟩

theorem operand_repeats (h : inner.Repeats inner' k) {e : Expr} {newlines : Bool}
    (hs : operand inner ctx s = .ok (e, newlines) r) (sound : e.node.Sound) (hk : e.node.text.length ≤ k) :
    e.node.isOperand = true ∧ e.decor.before = none ∧ newlines = e.node.lines ctx.newlines ∧
      ∀ r', Alike r r' → e.node.Follows ctx.newlines r' →
        operand inner' ctx (e.node.text ++ r') = .ok (e.plain, newlines) r' := by
  cases readsOperand_of_ok hs with
  | quoted hread =>
    obtain ⟨hnode, hlines, hagain⟩ := quoted_repeats h hread sound hk
    exact ⟨hnode, rfl, (hlines _).symm, fun r' _ _ => operand_of_quoted (hagain r')⟩
  | array hread =>
    obtain ⟨hnode, hlines⟩ := array_node hread
    exact ⟨hnode, rfl, (hlines _).symm, fun r' _ _ => operand_of_array (array_repeats h hread sound hk r')⟩
  | object hread =>
    obtain ⟨hnode, hbefore⟩ := object_node hread
    exact ⟨hnode, hbefore, (object_repeats h hread sound hk []).1,
      fun r' _ _ => operand_of_object (object_repeats h hread sound hk r').2⟩
  | number hread =>
    obtain ⟨-, -, hagain⟩ := number_eq_ok hread
    refine ⟨rfl, rfl, by simp [Expr.ofNode, Node.lines], fun r' halike hfollows => ?_⟩
    rw [Expr.ofNode, Node.text_number]
    exact operand_of_number (hagain r' halike hfollows)
  | heredoc hread =>
    obtain ⟨hnode, hlines⟩ := heredoc_node hread
    exact ⟨hnode, rfl, (hlines _).symm, fun r' _ _ => operand_of_heredoc (heredoc_repeats h hread sound hk r')⟩
  | negativeNumber hread =>
    obtain ⟨-, -, hagain⟩ := negativeNumber_eq_ok hread
    refine ⟨rfl, rfl, by simp [Expr.ofNode, Node.lines], fun r' halike hfollows => ?_⟩
    rw [Expr.ofNode, Node.text_number]
    exact operand_of_negativeNumber (hagain r' halike hfollows)
  | parenthesis hread =>
    have hagain := parenthesis_repeats h hread sound hk
    simp only [parenthesis, Reader.bind_iff, Reader.pure_iff] at hread
    obtain ⟨_, _, -, _, _, -, _, _, -, _, _, -, _, _, -, rfl, -⟩ := hread
    exact ⟨rfl, rfl, by simp [Expr.ofNode, Node.lines], fun r' _ _ => operand_of_parenthesis (hagain r')⟩
  | named hread =>
    obtain ⟨hnode, hlines, hagain⟩ := named_repeats h hread sound hk
    exact ⟨hnode, rfl, hlines, fun r' halike hfollows => operand_of_named (hagain r' halike hfollows)⟩

theorem isDigit_of_head {t u : Text} {c d : Char} (h : ∃ v, t ++ [] = d :: v) (ht : t = c :: u) (hc : c.isDigit = true) :
    d.isDigit = true := by
  obtain ⟨v, hv⟩ := h
  rw [ht] at hv
  rw [← (List.cons.inj hv).1]
  exact hc

/-- The text of an operand begins with a digit only where it was read as a number without a sign. -/
theorem number_of_operand (h : inner.Repeats inner' k) {e : Expr} {newlines : Bool}
    (hs : operand inner ctx s = .ok (e, newlines) r) (sound : e.node.Sound) (hk : e.node.text.length ≤ k) {c : Char}
    {u : Text} (ht : e.node.text = c :: u) (hc : c.isDigit = true) : ∃ n, number s = .ok n r := by
  cases readsOperand_of_ok hs with
  | number hread => exact ⟨_, hread⟩
  | quoted hread =>
    have hd := isDigit_of_head (quoted_head ((quoted_repeats h hread sound hk).2.2 [])) ht hc
    cases hd
  | array hread =>
    have hd := isDigit_of_head (array_head (array_repeats h hread sound hk [])) ht hc
    cases hd
  | object hread =>
    have hd := isDigit_of_head (object_head (object_repeats h hread sound hk []).2) ht hc
    cases hd
  | heredoc hread =>
    have hd := isDigit_of_head (heredoc_head (heredoc_repeats h hread sound hk [])) ht hc
    cases hd
  | negativeNumber hread =>
    obtain ⟨-, ⟨v, hv⟩, -⟩ := negativeNumber_eq_ok hread
    rw [Expr.ofNode, Node.text_number, hv] at ht
    rw [← (List.cons.inj ht).1] at hc
    cases hc
  | parenthesis hread =>
    have hd := isDigit_of_head (parenthesis_head (parenthesis_repeats h hread sound hk [])) ht hc
    cases hd
  | @named node _ _ hread =>
    have halike : Alike r [] := fun _ hd => by cases hd
    have hagain := (named_repeats h hread sound hk).2.2 [] halike (follows_of_halts (c := true) stopper_nil.halts node)
    obtain ⟨d, v, hv, hd⟩ := named_head hagain
    exact absurd (isDigit_of_head ⟨v, hv⟩ ht hc) (not_isDigit_of_startsWith hd)

end

/-! ## Signs -/

theorem signBeforeTerm_of_operand {ctx : Context} {s r : Text} {x : Expr × Bool} (h : operand inner ctx s = .ok x r) :
    signBeforeTerm s = .soft := by
  obtain ⟨-, hnot, hminus⟩ := operand_head h
  by_cases hc : s.head? = some '-'
  · obtain ⟨n, u, hn⟩ := hminus hc
    exact Reader.bind_of_soft (Reader.absent_of_ok hn)
  · have hsoft : sign s = .soft := by
      refine Reader.bind_of_soft (Reader.oneOf_of_avoids fun c hhead => ?_)
      rw [hhead] at hnot hc
      simpa using And.intro (fun e => hnot (by rw [e])) (fun e => hc (by rw [e]))
    cases hneg : Reader.absent negativeNumber s with
    | soft => exact Reader.bind_of_soft hneg
    | ok a t =>
      obtain ⟨-, rfl⟩ := Reader.absent_eq_ok_iff.mp hneg
      exact (Reader.bind_of_ok hneg).trans hsoft
    | hard c t =>
      exfalso
      have hnumber : negativeNumber s = .soft := Reader.bind_of_soft (Reader.char_of_head hc)
      rw [Reader.absent_of_soft hnumber] at hneg
      cases hneg

/-- A sign is read alone in front of anything that begins like an expression but does not make it part of a number. -/
theorem signBeforeTerm_cons {sign : Sign} {t : Text} (ht : StartsTerm t)
    (hdigit : sign = .minus → t.Avoids Char.isDigit) : signBeforeTerm (sign.symbol ++ t) = .ok (sign, []) t := by
  have hinline : inline t = .ok [] t := ht.blankEnd.inlineEnd
  cases sign with
  | minus =>
    have hneg : negativeNumber ('-' :: t) = .soft :=
      (Reader.bind_of_ok (Reader.char_cons '-' t)).trans <|
        (Reader.bind_of_ok hinline).trans <| Reader.bind_of_soft (number_eq_soft (hdigit rfl))
    exact Reader.bind_ok (Reader.absent_of_soft hneg) <|
      Reader.bind_ok (Reader.oneOf_eq_ok_iff.mpr ⟨rfl, rfl⟩) <| Reader.bind_ok hinline rfl
  | not =>
    have hneg : negativeNumber ('!' :: t) = .soft := rfl
    exact Reader.bind_ok (Reader.absent_of_soft hneg) <|
      Reader.bind_ok (Reader.oneOf_eq_ok_iff.mpr ⟨rfl, rfl⟩) <| Reader.bind_ok hinline rfl

/-- Behind a minus that is a sign there is no number. -/
theorem number_of_signBeforeTerm {t s b : Text} (h : signBeforeTerm t = .ok (.minus, b) s) (n : Numeral) (r : Text) :
    number s ≠ .ok n r := by
  intro hn
  simp only [signBeforeTerm, sign, Reader.bind_iff, Reader.absent_eq_ok_iff, Reader.oneOf_eq_ok_iff] at h
  obtain ⟨_, u, ⟨hneg, rfl⟩, c, v, ⟨rfl, hc⟩, b', w, hb, h⟩ := h
  obtain rfl | rfl : c = '!' ∨ c = '-' := by simpa using hc
  · cases h
  · obtain ⟨heq, rfl⟩ := Reader.pure_iff.mp h
    have hread : negativeNumber ('-' :: v) = .ok ⟨'-' :: (b' ++ n.text), n.value.negate⟩ r :=
      Reader.bind_ok (Reader.char_cons '-' v) <| Reader.bind_ok hb <| Reader.bind_ok hn rfl
    rw [hneg] at hread
    cases hread

theorem applySigns_append (e : Expr) (signs : List (Sign × Text)) (last : Sign × Text) :
    ∃ blank, applySigns e (signs ++ [last]) = (Expr.ofNode (.unary last.1 e)).withBefore blank := by
  cases signs with
  | nil => exact ⟨last.2, rfl⟩
  | cons first more => exact ⟨_, by simp [applySigns, List.foldl_append]; rfl⟩

/-- Signs that are all the same are one sign with the others in front of it. -/
theorem applySigns_replicate (e : Expr) (sign : Sign) (n : Nat) :
    applySigns e (List.replicate (n + 1) (sign, [])) =
      (Expr.ofNode (.unary sign e)).withBefore (List.replicate n sign.symbol).flatten := by
  have hfold : ∀ f : Sign × Text → Sign × Text → Sign × Text,
      (∀ blank, f (sign, blank) (sign, []) = (sign, blank ++ sign.symbol)) → ∀ (n : Nat) (blank : Text),
      (List.replicate n (sign, ([] : Text))).foldl f (sign, blank) =
        (sign, blank ++ (List.replicate n sign.symbol).flatten) := by
    intro f hf n
    induction n with
    | zero => intro blank; simp
    | succ n ih =>
      intro blank
      rw [List.replicate_succ, List.foldl_cons, hf, ih, List.replicate_succ, List.flatten_cons, List.append_assoc]
  rw [List.replicate_succ, applySigns, hfold _ fun blank => by simp]
  rfl

/-! ## Terms -/

theorem startsTerm_symbol (sign : Sign) (t : Text) : StartsTerm (sign.symbol ++ t) := by
  cases sign with
  | minus => exact ⟨'-', t, rfl, rfl⟩
  | not => exact ⟨'!', t, rfl, rfl⟩

/-- In front of a sign stands the same sign, any number of times. -/
theorem exists_of_ledBy_unary {sign : Sign} {e : Expr} {lead : Text} (h : (Node.unary sign e).LedBy lead) :
    ∃ n, lead = (List.replicate n sign.symbol).flatten := by
  induction lead with
  | nil => exact ⟨0, rfl⟩
  | cons c lead ih =>
    obtain ⟨n, hn⟩ := ih fun d hd => h d (List.mem_cons_of_mem c hd)
    have hc : [c] = sign.symbol := h c (List.mem_cons_self ..)
    exact ⟨n + 1, by rw [List.replicate_succ, List.flatten_cons, ← hn, ← hc]; rfl⟩

/-- A sign is read as often as it stands in front of a term. -/
theorem many_signs {sign : Sign} {t : Text} (ht : StartsTerm t) (hend : signBeforeTerm t = .soft)
    (hdigit : sign = .minus → t.Avoids Char.isDigit) (n : Nat) :
    Reader.many signBeforeTerm ((List.replicate n sign.symbol).flatten ++ t) = .ok (List.replicate n (sign, [])) t := by
  have hflat : (List.replicate n sign.symbol).flatten =
      (List.replicate n (sign, ([] : Text))).flatMap fun p => p.1.symbol := by
    rw [List.flatMap_def, List.map_replicate]
  rw [hflat]
  refine Reader.many_flatMap (fun p _ => ?_) (fun pre p post hpost => ?_) hend
  · cases p.1 <;> simp [Sign.symbol]
  · have hmem : ∀ q ∈ p :: post, q = (sign, []) := fun q hq =>
      List.eq_of_mem_replicate (hpost ▸ List.mem_append_right pre hq)
    rw [hmem p (List.mem_cons_self ..)]
    cases post with
    | nil => exact signBeforeTerm_cons ht hdigit
    | cons q post =>
      rw [List.flatMap_cons, hmem q (by simp), List.append_assoc]
      refine signBeforeTerm_cons (startsTerm_symbol sign _) fun hminus => ?_
      rw [hminus]
      exact Text.avoids_cons.mpr rfl

section
variable {ctx : Context} {s r : Text} {e : Expr} {newlines : Bool}

theorem startsTerm_of_operand (h : inner.Repeats inner' k) (hs : operand inner ctx s = .ok (e, newlines) r)
    (sound : e.node.Sound) (hk : e.node.text.length ≤ k) : StartsTerm e.node.text := by
  obtain ⟨-, -, -, hagain⟩ := operand_repeats h hs sound hk
  have hread := hagain [] (fun _ hd => by cases hd) (follows_of_halts (c := true) stopper_nil.halts _)
  rw [List.append_nil] at hread
  exact (operand_head hread).1

/-- An operand behind a minus that is a sign does not begin with a digit. -/
theorem avoids_of_signBeforeTerm {t b : Text} (hminus : signBeforeTerm t = .ok (.minus, b) s)
    (h : inner.Repeats inner' k) (hs : operand inner ctx s = .ok (e, newlines) r) (sound : e.node.Sound)
    (hk : e.node.text.length ≤ k) (r' : Text) : (e.node.text ++ r').Avoids Char.isDigit := by
  obtain ⟨c, u, hc, -⟩ := startsTerm_of_operand h hs sound hk
  rw [hc]
  refine Text.avoids_cons.mpr ?_
  cases hdigit : c.isDigit with
  | false => rfl
  | true =>
    obtain ⟨m, hm⟩ := number_of_operand h hs sound hk hc hdigit
    exact absurd hm (number_of_signBeforeTerm hminus m r)

theorem term_of_operand {x : Expr × Bool} (hs : operand inner ctx s = .ok x r) : term inner ctx s = .ok x r := by
  have hsigns : Reader.many signBeforeTerm s = .ok [] s := by
    simp only [Reader.many, signBeforeTerm_of_operand hs]
  exact Reader.bind_ok hsigns <| Reader.bind_ok hs rfl

/-- An operand is read again behind the last sign that was read, with the same sign any number of times in front of it. -/
theorem term_of_signs {sign : Sign} {t b r' : Text} (hlast : signBeforeTerm t = .ok (sign, b) s)
    (h : inner.Repeats inner' k) (hs : operand inner ctx s = .ok (e, newlines) r) (sound : e.node.Sound)
    (hclosed : e.Closed) (hk : e.node.text.length ≤ k) (n : Nat) (halike : Alike r r')
    (hfollows : e.node.Follows ctx.newlines r') :
    term inner' ctx ((List.replicate (n + 1) sign.symbol).flatten ++ (e.node.text ++ r')) =
      .ok ((Expr.ofNode (.unary sign e)).withBefore (List.replicate n sign.symbol).flatten, newlines) r' := by
  obtain ⟨-, hbefore, -, hagain⟩ := operand_repeats h hs sound hk
  have hread := hagain r' halike hfollows
  have hplain : e.plain = e := by
    have hafter := hclosed.plain_after
    obtain ⟨⟨before, after⟩, node⟩ := e
    obtain rfl : before = none := hbefore
    exact congrArg (fun a => (⟨⟨none, a⟩, node⟩ : Expr)) hafter
  rw [hplain] at hread
  have hdigit : sign = .minus → (e.node.text ++ r').Avoids Char.isDigit := by
    rintro rfl
    exact avoids_of_signBeforeTerm hlast h hs sound hk r'
  have hstart : StartsTerm (e.node.text ++ r') := (startsTerm_of_operand h hs sound hk).append r'
  have hmany := many_signs hstart (signBeforeTerm_of_operand hread) hdigit (n + 1)
  refine Reader.bind_ok hmany <| Reader.bind_ok hread ?_
  simp only [applySigns_replicate]
  rfl

/-- A term is read again, with any signs in front of it that are like its own. -/
theorem term_repeats (h : inner.Repeats inner' k) (hs : term inner ctx s = .ok (e, newlines) r) (sound : e.node.Sound)
    (hk : e.node.text.length ≤ k) :
    s ≠ [] ∧ e.node.isTerm = true ∧ newlines = e.node.lines ctx.newlines ∧ (e.Leads → e.node.LedBy e.decor.lead) ∧
      ∀ lead, e.node.LedBy lead → StartsTerm (lead ++ e.node.text) ∧
        ∀ r', Alike r r' → e.node.Follows ctx.newlines r' →
          term inner' ctx (lead ++ (e.node.text ++ r')) = .ok (e.led lead, newlines) r' := by
  simp only [term, Reader.bind_iff, Reader.pure_iff, Prod.mk.injEq] at hs
  obtain ⟨signs, s1, hsigns, ⟨e0, newlines⟩, s2, he0, ⟨rfl, rfl⟩, rfl⟩ := hs
  have hs : s ≠ [] := by
    rintro rfl
    cases hsigns
    cases he0
  rcases List.eq_nil_or_concat signs with rfl | ⟨pre, ⟨sign, b⟩, rfl⟩
  · -- without a sign the term is its operand, and nothing may lead it
    obtain ⟨hnode, hbefore, hlines, hagain⟩ := operand_repeats h he0 sound hk
    have hlead : e0.decor.lead = [] := by rw [Decor.lead, hbefore]; rfl
    refine ⟨hs, Node.isTerm_of_isOperand hnode, hlines, fun _ => ?_, fun lead hled => ?_⟩
    · rw [applySigns, hlead]
      exact e0.node.ledBy_nil
    · obtain rfl := Node.ledBy_of_isOperand hnode hled
      exact ⟨startsTerm_of_operand h he0 sound hk, fun r' halike hfollows => term_of_operand (hagain r' halike hfollows)⟩
  · -- of the signs in front of an operand only the last one counts
    rw [List.concat_eq_append] at hsigns sound hk ⊢
    obtain ⟨blank, happly⟩ := applySigns_append e0 pre (sign, b)
    simp only at sound hk ⊢
    rw [happly] at sound hk ⊢
    obtain ⟨hsound, hclosed⟩ := sound
    obtain ⟨t, u, hlast, hu, -⟩ := Reader.many_split hsigns (show pre ++ [(sign, b)] = pre ++ (sign, b) :: [] from rfl)
    obtain rfl := hu rfl
    have hlen : e0.node.text.length ≤ k := by
      have hlength := congrArg List.length (Node.text_unary sign e0)
      rw [Expr.text_eq] at hlength
      simp only [List.length_append] at hlength
      change (Node.unary sign e0).text.length ≤ k at hk
      omega
    obtain ⟨-, hbefore, hlines, -⟩ := operand_repeats h he0 ((Expr.sound_iff e0).mp hsound) hlen
    refine ⟨hs, rfl, by cases e0; exact hlines, fun hleads => hleads sign e0 rfl, fun lead hled => ?_⟩
    obtain ⟨n, hlead⟩ := exists_of_ledBy_unary hled
    have htext : ∀ x, lead ++ ((Node.unary sign e0).text ++ x) =
        (List.replicate (n + 1) sign.symbol).flatten ++ (e0.node.text ++ x) := by
      intro x
      rw [Node.text_unary, Expr.text_eq, hclosed, Decor.lead, hbefore, hlead, List.replicate_succ', List.flatten_append]
      simp
    rw [show ((Expr.ofNode (.unary sign e0)).withBefore blank).node = .unary sign e0 from rfl]
    refine ⟨?_, fun r' halike hfollows => ?_⟩
    · have hx := htext []
      rw [List.append_nil, List.replicate_succ, List.flatten_cons, List.append_assoc] at hx
      rw [hx]
      exact startsTerm_symbol sign _
    · have hfollows0 : e0.node.Follows ctx.newlines r' := by
        cases e0
        exact hfollows
      rw [htext, term_of_signs hlast h he0 ((Expr.sound_iff e0).mp hsound) hclosed hlen n halike hfollows0, ← hlead]
      rfl

end

end Grammar
end BackendSwitch
