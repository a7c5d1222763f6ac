import BackendSwitch.Grammar.Body
import BackendSwitch.Proofs.Reading.Woven

/-! # Reading goes forward only

Wherever a reader ends, with a value or with a hard failure, what is left is an end of the text from which it started.
Every way to combine readers keeps this, hence the readers of the grammar have it level by level. -/
namespace BackendSwitch
set_option autoImplicit false

/-- A text stands at the end of another one. -/
def Text.EndOf (s t : Text) : Prop := s <:+ t

theorem Text.EndOf.self (t : Text) : t.EndOf t := List.suffix_refl t

variable {α β : Type} {s t : Text}

/-- The text that a reply leaves is an end of the given one. -/
def Reply.EndsIn (t : Text) : Reply α → Prop
  | .ok _ r => r.EndOf t
  | .soft => True
  | .hard _ r => r.EndOf t

theorem Reply.EndsIn.mono {reply : Reply α} (h : reply.EndsIn s) (hs : s.EndOf t) : reply.EndsIn t := by
  cases reply with
  | ok a r => exact List.IsSuffix.trans h hs
  | soft => trivial
  | hard c r => exact List.IsSuffix.trans h hs

namespace Reader

def Forward (p : Reader α) : Prop := ∀ s, (p s).EndsIn s

variable {p q : Reader α} {f : α → Reader β}

/-! ## Sequence and choice -/

theorem endsIn_bind (hp : (p s).EndsIn t) (hf : ∀ a r, p s = .ok a r → (f a r).EndsIn t) :
    (Reader.bind p f s).EndsIn t := by
  unfold Reader.bind
  cases h : p s with
  | ok a r => exact hf a r h
  | soft => trivial
  | hard c r =>
    rw [h] at hp
    exact hp

namespace Forward

theorem endOf (h : p.Forward) {a : α} {r : Text} (hread : p s = .ok a r) : r.EndOf s := by
  have hs := h s
  rwa [hread] at hs

theorem pure (a : α) : (Pure.pure a : Reader α).Forward := fun s => Text.EndOf.self s

theorem fail : (Reader.fail : Reader α).Forward := fun _ => trivial

theorem stop (c : Complaint) : (Reader.stop c : Reader α).Forward := fun s => Text.EndOf.self s

theorem bind (hp : p.Forward) (hf : ∀ a, (f a).Forward) : (p >>= f).Forward := fun s =>
  endsIn_bind (hp s) fun a r hread => (hf a r).mono (hp.endOf hread)

theorem or (hp : p.Forward) (hq : q.Forward) : (p.or q).Forward := by
  intro s
  have hs := hp s
  unfold Reader.or
  split
  · exact hq s
  · exact hs

theorem ite (c : Prop) [Decidable c] (hp : p.Forward) (hq : q.Forward) : (if c then p else q).Forward := by
  split
  · exact hp
  · exact hq

theorem require (hp : p.Forward) (c : Complaint) : (p.require c).Forward := hp.or (.stop c)

theorem optional (hp : p.Forward) : p.optional.Forward := by
  intro s
  have hs := hp s
  unfold Reader.optional
  cases h : p s with
  | ok a r => rwa [h] at hs
  | soft => exact Text.EndOf.self s
  | hard c r => rwa [h] at hs

theorem absent (hp : p.Forward) : p.absent.Forward := by
  intro s
  have hs := hp s
  unfold Reader.absent
  cases h : p s with
  | ok a r => trivial
  | soft => exact Text.EndOf.self s
  | hard c r => rwa [h] at hs

/-! ## Repetition -/

/-- One value, and then more of them. -/
theorem endsIn_repeat (hp : p.Forward) {a : α} {r : Text} (h : p s = .ok a r) {n : Nat}
    (hmore : (Reader.upTo n p).Forward) :
    Reply.EndsIn s (match Reader.upTo n p r with
      | .ok as r' => .ok (a :: as) r'
      | .soft => .soft
      | .hard c r' => .hard c r' : Reply (List α)) := by
  have hr := (hmore r).mono (hp.endOf h)
  cases hread : Reader.upTo n p r <;> rw [hread] at hr <;> exact hr

theorem upTo (hp : p.Forward) (n : Nat) : (Reader.upTo n p).Forward := by
  induction n with
  | zero => exact fun s => Text.EndOf.self s
  | succ n ih =>
    intro s
    have hs := hp s
    unfold Reader.upTo
    cases h : p s with
    | ok a r => exact hp.endsIn_repeat h ih
    | soft => exact Text.EndOf.self s
    | hard c r => rwa [h] at hs

theorem many (hp : p.Forward) : (Reader.many p).Forward := by
  intro s
  have hs := hp s
  unfold Reader.many
  cases h : p s with
  | ok a r => exact hp.endsIn_repeat h (hp.upTo _)
  | soft => exact Text.EndOf.self s
  | hard c r => rwa [h] at hs

/-! ## Characters -/

theorem peek : Reader.peek.Forward := by
  intro s
  cases s with
  | nil => trivial
  | cons c s => exact Text.EndOf.self _

theorem char (c : Char) : (Reader.char c).Forward := by
  intro s
  cases s with
  | nil => trivial
  | cons d s =>
    simp only [Reader.char]
    split
    · exact List.suffix_cons d s
    · trivial

theorem oneOf (f : Char → Bool) : (Reader.oneOf f).Forward := by
  intro s
  cases s with
  | nil => trivial
  | cons d s =>
    simp only [Reader.oneOf]
    split
    · exact List.suffix_cons d s
    · trivial

theorem word (w : Text) : (Reader.word w).Forward := by
  intro s
  unfold Reader.word
  split
  · next r h =>
    rw [Text.eq_append_of_strip? h]
    exact List.suffix_append w r
  · trivial

theorem flag (c : Char) : (Reader.flag c).Forward := by
  intro s
  cases s with
  | nil => exact Text.EndOf.self _
  | cons d s =>
    simp only [Reader.flag]
    split
    · exact List.suffix_cons d s
    · exact Text.EndOf.self _

theorem span (f : Char → Bool) : (Reader.span f).Forward := fun _ => List.dropWhile_suffix f

theorem span1 (f : Char → Bool) : (Reader.span1 f).Forward := by
  intro s
  cases s with
  | nil => trivial
  | cons c s =>
    simp only [Reader.span1]
    split
    · exact (List.dropWhile_suffix f).trans (List.suffix_cons c s)
    · trivial

end Forward
end Reader

namespace Grammar

/-! ## Blank text and names -/

theorem newline_forward : newline.Forward := by
  intro s
  unfold newline
  split
  · next r => exact List.suffix_cons _ r
  · next r => exact List.suffix_append ['\r', '\n'] r
  · trivial

theorem lineEnd_forward : lineEnd.Forward := by
  intro s
  unfold lineEnd
  split
  · exact Text.EndOf.self []
  · next r => exact List.suffix_cons _ r
  · next r => exact List.suffix_append ['\r', '\n'] r
  · trivial

theorem blank_forward : blank.Forward := by
  intro s
  obtain ⟨a, r, h, rfl, -⟩ := blank_spec s
  rw [h]
  exact List.suffix_append a r

theorem inline_forward : inline.Forward := by
  intro s
  obtain ⟨a, r, h, rfl, -⟩ := inline_spec s
  rw [h]
  exact List.suffix_append a r

theorem gap_forward (newlines : Bool) : (gap newlines).Forward := by
  cases newlines with
  | true => exact blank_forward
  | false => exact inline_forward

theorem lineComment_forward : lineComment.Forward := by
  intro s
  unfold lineComment
  split
  · next r =>
    split
    · next t rest h =>
      obtain ⟨rfl, -⟩ := beforeLineEnd_eq_some h
      exact List.suffix_append ('#' :: t) rest
    · trivial
  · next r =>
    split
    · next t rest h =>
      obtain ⟨rfl, -⟩ := beforeLineEnd_eq_some h
      exact List.suffix_append ('/' :: '/' :: t) rest
    · trivial
  · trivial

theorem trailing_forward : trailing.Forward :=
  .bind inline_forward fun _ => .bind lineComment_forward.optional fun _ => .pure _

theorem identifier_forward : identifier.Forward := by
  intro s
  cases s with
  | nil => trivial
  | cons c s =>
    simp only [identifier]
    split
    · exact (List.dropWhile_suffix _).trans (List.suffix_cons c s)
    · trivial

theorem nameWithin_forward {space : Reader Text} (h : space.Forward) : (nameWithin space).Forward :=
  .bind h fun _ => .bind (identifier_forward.require _) fun _ => .bind h fun _ => .pure _

/-! ## Numbers -/

theorem digits_forward : digits.Forward := .span1 _

theorem exponent_forward : exponent.Forward :=
  .bind (.oneOf _) fun _ => .bind (.optional (.oneOf _)) fun _ => .bind (digits_forward.require _) fun _ => .pure _

theorem decimals_forward : decimals.Forward :=
  .or (.bind (.char _) fun _ => .bind digits_forward fun _ => .bind exponent_forward.optional fun _ => .pure _)
    (.bind exponent_forward fun _ => .pure _)

theorem decimal_forward : decimal.Forward := by
  refine .bind digits_forward fun _ => .bind decimals_forward fun ⟨places, power⟩ => ?_
  dsimp only
  split
  · exact .pure _
  · exact .fail

theorem wholeNumber_forward : wholeNumber.Forward := .bind digits_forward fun _ => .ite _ (.pure _) .fail

theorem number_forward : number.Forward := decimal_forward.or wholeNumber_forward

theorem negativeNumber_forward : negativeNumber.Forward :=
  .bind (.char _) fun _ => .bind inline_forward fun _ => .bind number_forward fun _ => .pure _

/-! ## Quoted text -/

theorem hexDigits?_endOf {n value : Nat} {s r : Text} {v : Nat} (h : hexDigits? n value s = some (v, r)) :
    r.EndOf s := by
  fun_induction hexDigits? n value s with
  | case1 value s =>
    cases h
    exact Text.EndOf.self _
  | case2 => cases h
  | case3 n value c r d hd ih => exact (ih h).trans (List.suffix_cons c r)
  | case4 => cases h

theorem codedChar_forward (n : Nat) (c : Complaint) : (codedChar n c).Forward := by
  intro s
  unfold codedChar
  split
  · next value r h =>
    split
    · exact hexDigits?_endOf h
    · exact Text.EndOf.self s
  · exact Text.EndOf.self s

theorem escaped_forward : escaped.Forward := by
  intro s
  unfold escaped
  split
  case h_1 => trivial
  case h_10 r => exact (codedChar_forward 4 .shortHex r).mono (List.suffix_cons _ r)
  case h_11 r => exact (codedChar_forward 8 .longHex r).mono (List.suffix_cons _ r)
  all_goals exact List.suffix_cons _ _

theorem fragment_forward : fragment.Forward := by
  intro s
  unfold fragment
  split
  case h_3 r =>
    exact (Reader.Forward.bind escaped_forward (fun c => .pure [c]) r).mono (List.suffix_cons _ r)
  case h_4 r => exact List.suffix_append ['$', '$', '{'] r
  case h_6 r => exact List.suffix_append ['%', '%', '{'] r
  case h_8 c r _ _ _ _ _ _ => exact List.suffix_cons c r
  all_goals trivial

theorem laterFragments_endOf (n : Nat) (s : Text) : (laterFragments n s).2.EndOf s := by
  induction n generalizing s with
  | zero => exact Text.EndOf.self s
  | succ n ih =>
    have hs := fragment_forward s
    unfold laterFragments
    split
    · next t r h => exact (ih r).trans (fragment_forward.endOf h)
    · exact Text.EndOf.self s
    · next c r h => rwa [h] at hs

theorem fragments_forward : fragments.Forward :=
  .bind fragment_forward fun _ s => laterFragments_endOf s.length s

theorem quotedText_forward : quotedText.Forward :=
  .bind (.char _) fun _ => .bind fragments_forward.optional fun _ => .bind (.char _) fun _ => .pure _

/-! ## Templates -/

/-- The readers of the next level go forward. -/
structure Inner.Forward (inner : Inner) : Prop where
  expression : ∀ ctx, (inner.expression ctx).Forward
  template : inner.template.Forward

section

variable {inner : Inner} {ctx : Context}

theorem closeMarker_forward : closeMarker.Forward := .require (.char _) _

theorem interpolation_forward (h : inner.Forward) : (interpolation inner).Forward :=
  .bind (.word _) fun _ => .bind (.flag _) fun _ => .bind blank_forward fun _ => .bind (h.expression _) fun _ =>
  .bind blank_forward fun _ => .bind (.flag _) fun _ => .bind closeMarker_forward fun _ => .pure _

theorem wordMarker_forward {w : Reader Unit} (hw : w.Forward) : (wordMarker w).Forward :=
  .bind (.word _) fun _ => .bind (.flag _) fun _ => .bind blank_forward fun _ => .bind hw fun _ =>
  .bind blank_forward fun _ => .bind (.flag _) fun _ => .bind closeMarker_forward fun _ => .pure _

theorem branch_forward (h : inner.Forward) : (branch inner).Forward := by
  have otherwise : (do
      let middle ← wordMarker (Reader.word ['e', 'l', 's', 'e'])
      let no ← inner.template
      return (middle, no) : Reader (Marker × List Element)).Forward :=
    .bind (wordMarker_forward (.word _)) fun _ => .bind h.template fun _ => .pure _
  exact .bind (.word _) fun _ => .bind (.flag _) fun _ => .bind blank_forward fun _ => .bind (.word _) fun _ =>
    .bind blank_forward fun _ => .bind (h.expression _) fun _ => .bind blank_forward fun _ => .bind (.flag _) fun _ =>
    .bind closeMarker_forward fun _ => .bind h.template fun _ => .bind otherwise.optional fun _ =>
    .bind (wordMarker_forward (.require (.word _) _)) fun _ => .pure _

theorem loopIntro_forward (h : inner.Forward) (before : Text) : (loopIntro inner before).Forward := by
  have second : (do
      Reader.char ','
      nameWithin blank : Reader Name).Forward :=
    .bind (.char _) fun _ => nameWithin_forward blank_forward
  exact .bind (.word _) fun _ => .bind (nameWithin_forward blank_forward) fun _ => .bind second.optional fun _ =>
    .bind (.require (.word _) _) fun _ => .bind blank_forward fun _ => .bind (h.expression _) fun _ =>
    .bind blank_forward fun _ => .pure _

theorem loop_forward (h : inner.Forward) : (loop inner).Forward :=
  .bind (.word _) fun _ => .bind (.flag _) fun _ => .bind blank_forward fun _ =>
  .bind (loopIntro_forward h _) fun _ => .bind (.flag _) fun _ => .bind closeMarker_forward fun _ =>
  .bind h.template fun _ => .bind (wordMarker_forward (.require (.word _) _)) fun _ => .pure _

theorem templatePart_forward (h : inner.Forward) : (templatePart inner).Forward :=
  .or (.or (interpolation_forward h) (branch_forward h)) (loop_forward h)

theorem quotedTemplate_forward (h : inner.Forward) : (quotedTemplate inner).Forward :=
  .bind (.char _) fun _ =>
  .bind (.many (.or (.bind fragments_forward fun _ => .pure _) (templatePart_forward h))) fun _ =>
  .bind (.char _) fun _ => .pure _

/-- Plain text stands with the sign of every marker in it doubled. -/
theorem rawRun_text (stop : Text → Bool) (s : Text) :
    s = Escape.doubled (rawRun stop s).1 ++ (rawRun stop s).2 := by
  induction hlength : s.length using Nat.strongRecOn generalizing s with
  | ind n ih =>
    match s with
    | [] => rfl
    | c :: u =>
      by_cases hend : stop (c :: u) = true ∨ Escape.opensMarker (c :: u) = true
      · rw [rawRun_of_stop (.inr hend)]
        rfl
      obtain ⟨hstop, hopens⟩ : stop (c :: u) = false ∧ Escape.opensMarker (c :: u) = false := by simpa using hend
      by_cases hdouble : Escape.isMarkerSign c = true ∧ ∃ v, u = c :: '{' :: v
      · obtain ⟨hc, v, rfl⟩ := hdouble
        have hrest := ih v.length (by rw [← hlength]; simp; omega) v rfl
        rw [rawRun_doubled_cons hc hstop rfl, Escape.doubled_of_sign hc]
        exact congrArg (c :: c :: '{' :: ·) hrest
      · have hsign : Escape.isMarkerSign c = true → ¬ Escape.Opens c u := by
          rintro hc (hbrace | hv)
          · obtain ⟨v, rfl⟩ : ∃ v, u = '{' :: v := List.head?_eq_some_iff.mp hbrace
            rw [opensMarker_of_sign hc] at hopens
            cases hopens
          · exact hdouble ⟨hc, hv⟩
        have hrest := ih u.length (by rw [← hlength]; simp) u rfl
        -- a brace behind the sign would have stood there as well, and opened a marker
        have hplain : Escape.isMarkerSign c = false ∨ (rawRun stop u).1.head? ≠ some '{' := by
          cases hc : Escape.isMarkerSign c with
          | false => exact .inl rfl
          | true =>
            refine .inr fun hbrace => hsign hc (.inl ?_)
            obtain ⟨v, hv⟩ := List.head?_eq_some_iff.mp hbrace
            rw [hv, Escape.doubled_of_plain (.inl rfl)] at hrest
            rw [hrest]
            rfl
        rw [rawRun_cons hstop hsign rfl, Escape.doubled_of_plain hplain]
        exact congrArg (c :: ·) hrest

theorem rawText_forward (stop : Text → Bool) : (rawText stop).Forward := by
  intro s
  have hs := rawRun_text stop s
  unfold rawText
  split
  · trivial
  · next t r _ h =>
    rw [h] at hs
    exact ⟨_, hs.symm⟩

theorem plainTemplate_forward (h : inner.Forward) (stop : Text → Bool) : (plainTemplate inner stop).Forward :=
  .many (.or (rawText_forward stop) (templatePart_forward h))

theorem heredocBody_forward (h : inner.Forward) (delimiter : Text) : (heredocBody inner delimiter).Forward := by
  have body : (do
      let elements ← plainTemplate inner (atDelimiter delimiter)
      let final ← newline
      return appendLiteral final elements : Reader (List Element)).Forward :=
    .bind (plainTemplate_forward h _) fun _ => .bind newline_forward fun _ => .pure _
  exact .bind body.optional fun _ => .pure _

theorem heredoc_forward (h : inner.Forward) : (heredoc inner).Forward :=
  .bind (.word _) fun _ => .bind (.flag _) fun _ => .bind (identifier_forward.require _) fun delimiter =>
  .bind (newline_forward.require _) fun _ => .bind (heredocBody_forward h delimiter) fun _ =>
  .bind (.span _) fun _ => .bind (.require (.word _) _) fun _ => .pure _

/-! ## Arrays and objects -/

theorem loopAhead_forward : loopAhead.Forward := by
  intro s
  unfold loopAhead
  split
  · split <;> exact Text.EndOf.self s
  · exact Text.EndOf.self s

theorem loopTest_forward (h : inner.Forward) : (loopTest inner ctx).Forward :=
  .bind (.word _) fun _ => .bind blank_forward fun _ => .bind (h.expression _) fun _ =>
  .bind blank_forward fun _ => .pure _

theorem bracketIntro_forward (h : inner.Forward) : (bracketIntro inner).Forward :=
  .bind blank_forward fun before => .bind (loopIntro_forward h before) fun _ =>
  .bind (.require (.char _) _) fun _ => .pure _

theorem forArray_forward (h : inner.Forward) : (forArray inner ctx).Forward :=
  .bind (bracketIntro_forward h) fun _ => .bind blank_forward fun _ => .bind (h.expression _) fun _ =>
  .bind blank_forward fun _ => .bind (loopTest_forward h).optional fun _ => .pure _

theorem arrayItem_forward (h : inner.Forward) : (arrayItem inner ctx).Forward :=
  .bind blank_forward fun _ => .bind (.absent (.char _)) fun _ => .bind (h.expression _) fun _ =>
  .bind blank_forward fun _ => .pure _

theorem separated_forward {item : Reader Expr} (h : item.Forward) : (separated item).Forward := by
  have next : (do
      Reader.char ','
      item : Reader Expr).Forward := .bind (.char _) fun _ => h
  exact .bind h fun _ => .bind next.many fun _ => .pure _

theorem plainArray_forward (h : inner.Forward) : (plainArray inner ctx).Forward :=
  .bind (separated_forward (arrayItem_forward h)).optional fun _ => .bind (.flag _) fun _ =>
  .bind blank_forward fun _ => .pure _

theorem array_forward (h : inner.Forward) : (array inner ctx).Forward := by
  refine .bind (.char _) fun _ => .bind loopAhead_forward fun isLoop => ?_
  cases isLoop with
  | true => exact .bind (forArray_forward h) fun _ => .bind (.require (.char _) _) fun _ => .pure _
  | false => exact .bind (plainArray_forward h) fun _ => .bind (.require (.char _) _) fun _ => .pure _

theorem forObject_forward (h : inner.Forward) : (forObject inner ctx).Forward := by
  have spread : (do
      Reader.word ['.', '.', '.']
      blank : Reader Text).Forward := .bind (.word _) fun _ => blank_forward
  exact .bind (bracketIntro_forward h) fun _ => .bind blank_forward fun _ => .bind (h.expression _) fun _ =>
    .bind blank_forward fun _ => .bind (.require (.word _) _) fun _ => .bind blank_forward fun _ =>
    .bind (h.expression _) fun _ => .bind blank_forward fun _ => .bind spread.optional fun _ =>
    .bind (loopTest_forward h).optional fun _ => .pure _

theorem itemKey_forward (h : inner.Forward) : (itemKey inner).Forward :=
  .bind blank_forward fun _ => .bind (.absent (.char _)) fun _ => .bind (h.expression _) fun _ =>
  .bind inline_forward fun _ => .pure _

theorem itemSign_forward : itemSign.Forward := by
  intro s
  unfold itemSign
  split
  case h_1 => trivial
  all_goals exact List.suffix_cons _ _

theorem itemEnd_forward : itemEnd.Forward := by
  intro s
  unfold itemEnd
  split
  · trivial
  · exact Text.EndOf.self _
  · next r => exact List.suffix_cons _ r
  · split
    · exact Reader.Forward.bind newline_forward (fun _ => .pure _) _
    · split
      · exact Reader.Forward.bind lineComment_forward (fun _ => .bind newline_forward fun _ => .pure _) _
      · exact Text.EndOf.self _

theorem objectItem_forward (h : inner.Forward) : (objectItem inner).Forward :=
  .bind (itemKey_forward h) fun _ => .bind itemSign_forward fun _ => .bind inline_forward fun _ =>
  .bind (h.expression _) fun _ => .bind inline_forward fun _ => .bind itemEnd_forward fun _ => .pure _

theorem plainObject_forward (h : inner.Forward) : (plainObject inner).Forward :=
  .bind (objectItem_forward h).many fun _ => .bind blank_forward fun _ =>
  .bind (.absent (.absent (.char _))) fun _ => .pure _

theorem object_forward (h : inner.Forward) : (object inner ctx).Forward := by
  refine .bind (.char _) fun _ => .bind loopAhead_forward fun isLoop => ?_
  cases isLoop with
  | true => exact .bind (forObject_forward h) fun _ => .bind closeMarker_forward fun _ => .pure _
  | false => exact .bind (plainObject_forward h) fun _ => .bind closeMarker_forward fun _ => .pure _

/-! ## Terms -/

theorem parenthesis_forward (h : inner.Forward) : (parenthesis inner).Forward :=
  .bind (.char _) fun _ => .bind blank_forward fun _ => .bind (h.expression _) fun _ =>
  .bind blank_forward fun _ => .bind (.require (.char _) _) fun _ => .pure _

theorem argument_forward (h : inner.Forward) : (argument inner ctx).Forward :=
  .bind blank_forward fun _ => .bind (.absent (.oneOf _)) fun _ => .bind (h.expression _) fun _ =>
  .bind blank_forward fun _ => .pure _

theorem ending_forward : ending.Forward := by
  refine .bind (.optional (.oneOf _)) fun sign => ?_
  split
  · exact .pure _
  · exact .bind (.require (.word _) _) fun _ => .pure _
  · exact .pure _

theorem arguments_forward (h : inner.Forward) : (arguments inner ctx).Forward :=
  .bind (separated_forward (argument_forward h)) fun _ => .bind ending_forward fun _ => .pure _

theorem call_forward (h : inner.Forward) (first : Name) : (call inner ctx first).Forward := by
  have part : (do
      Reader.word [':', ':']
      nameWithin (gap ctx.newlines) : Reader Name).Forward :=
    .bind (.word _) fun _ => nameWithin_forward (gap_forward _)
  exact .bind part.many fun _ => .bind (.require (.char _) _) fun _ => .bind (arguments_forward h).optional fun _ =>
    .bind blank_forward fun _ => .bind (.require (.char _) _) fun _ => .pure _

theorem named_forward (h : inner.Forward) : (named inner ctx).Forward := by
  refine .bind identifier_forward fun name s => ?_
  split
  · next after r hgap =>
    split
    -- a call goes on behind the blank text, and any other name leaves it
    · have hcall : Reader.Forward ((call inner ctx ⟨[], name, after⟩).bind fun node => Reader.pure (node, true)) :=
        .bind (call_forward h _) fun _ => .pure _
      exact (hcall r).mono ((gap_forward _).endOf hgap)
    · exact Text.EndOf.self s
  · trivial

theorem quoted_forward (h : inner.Forward) : (quoted inner).Forward :=
  .or (.bind quotedText_forward fun _ => .pure _) (.bind (quotedTemplate_forward h) fun _ => .pure _)

theorem operand_forward (h : inner.Forward) : (operand inner ctx).Forward := by
  refine .bind .peek fun c => ?_
  have plain {p : Reader Node} (hp : p.Forward) :
      (do return (.ofNode (← p), ctx.newlines) : Reader (Expr × Bool)).Forward := .bind hp fun _ => .pure _
  refine .ite _ (plain (quoted_forward h)) ?_
  refine .ite _ (.bind (array_forward h) fun _ => .pure _) ?_
  refine .ite _ (object_forward h) ?_
  refine .ite _ (plain (.bind number_forward fun _ => .pure _)) ?_
  refine .ite _ (plain (heredoc_forward h)) ?_
  refine .ite _ (plain (.bind negativeNumber_forward fun _ => .pure _)) ?_
  refine .ite _ (plain (parenthesis_forward h)) ?_
  exact .ite _ (.bind (named_forward h) fun _ => .pure _) (.stop _)

theorem sign_forward : sign.Forward :=
  .bind (.oneOf _) fun _ => .bind inline_forward fun _ => .ite _ (.pure _) (.pure _)

theorem signBeforeTerm_forward : signBeforeTerm.Forward := .bind (.absent negativeNumber_forward) fun _ => sign_forward

theorem term_forward (h : inner.Forward) : (term inner ctx).Forward :=
  .bind signBeforeTerm_forward.many fun _ => .bind (operand_forward h) fun _ => .pure _

/-! ## Expressions -/

theorem position_forward : position.Forward := by
  intro s
  unfold position
  split
  · next r => exact List.suffix_cons _ r
  · exact Reader.Forward.bind digits_forward (fun _ => .ite _ (.pure _) .fail) s

theorem dotStep_forward : dotStep.Forward := by
  refine .bind (.char _) fun _ => .bind blank_forward fun _ => .bind .peek fun c => ?_
  refine .ite _ (.bind (.char _) fun _ => .pure _) ?_
  refine .ite _ (.bind position_forward fun _ => .pure _) ?_
  exact .ite _ (.bind identifier_forward fun _ => .pure _) (.stop _)

theorem bracketStep_forward (h : inner.Forward) : (bracketStep inner).Forward := by
  have full (before : Text) : (fullSplat before).Forward :=
    .bind (.char _) fun _ => .bind blank_forward fun _ => .pure _
  have index (before : Text) : (index inner before).Forward :=
    .bind (h.expression _) fun _ => .bind blank_forward fun _ => .pure _
  exact .bind (.char _) fun _ => .bind blank_forward fun before => .bind ((full before).or (index before)) fun _ =>
    .bind (.require (.char _) _) fun _ => .pure _

theorem step_forward (h : inner.Forward) (newlines : Bool) : (step inner newlines).Forward :=
  .bind (gap_forward _) fun _ => .bind (.absent (.word _)) fun _ => dotStep_forward.or (bracketStep_forward h)

theorem steps_forward (h : inner.Forward) (newlines : Bool) : (steps inner newlines).Forward :=
  .bind (step_forward h _) fun _ => .bind (step_forward h _).many fun _ => .pure _

theorem operator_forward : operator.Forward := by
  intro s
  cases h : operator s with
  | ok o r =>
    rw [operator_eq_ok h]
    exact List.suffix_append _ r
  | soft => trivial
  | hard c r => exact absurd h (by unfold operator; split <;> simp)

theorem rightSide_forward (h : inner.Forward) : (rightSide inner ctx).Forward :=
  .bind (gap_forward _) fun _ => .bind (h.expression _) fun _ => .pure _

theorem conditional_forward (h : inner.Forward) (test : Expr) : (conditional inner ctx test).Forward :=
  .bind (.char _) fun _ => .bind (rightSide_forward h) fun _ => .bind (gap_forward _) fun _ =>
  .bind (.require (.char _) _) fun _ => .bind (rightSide_forward h) fun _ => .pure _

theorem extend_forward (h : inner.Forward) (conditionals : Bool) (n : Nat) (ctx : Context) (e : Expr) :
    (extend inner conditionals n ctx e).Forward := by
  induction n generalizing ctx e with
  | zero => exact .pure e
  | succ n ih =>
    intro s
    unfold extend
    split
    · next after r hgap =>
      have hr : r.EndOf s := (gap_forward _).endOf hgap
      split
      -- where nothing follows, the blank text is given back
      · exact Text.EndOf.self s
      · exact (Reader.Forward.bind (steps_forward h _) (fun _ => ih _ _) r).mono hr
      · exact (conditional_forward h _ r).mono hr
      · exact (Reader.Forward.bind operator_forward
          (fun _ => .bind (rightSide_forward h) fun _ => ih _ _) r).mono hr
    · trivial

theorem expressionFrom_forward (h : inner.Forward) : (expressionFrom inner ctx).Forward :=
  .bind (term_forward h) fun _ s => extend_forward h _ _ _ _ s

end

theorem level_forward (n : Nat) : (level n).Forward := by
  induction n with
  | zero => exact ⟨fun _ => .fail, .fail⟩
  | succ n ih => exact ⟨fun _ => expressionFrom_forward ih, plainTemplate_forward ih _⟩

theorem expression_forward : expression.Forward := fun s => (level_forward _).expression _ s

/-! ## Bodies -/

section

variable {body : Reader Body}

theorem value_forward : value.Forward := .bind inline_forward fun _ => .bind expression_forward fun _ => .pure _

theorem label_forward : label.Forward :=
  .or (.bind quotedText_forward fun _ => .bind inline_forward fun _ => .pure _)
    (.bind identifier_forward fun _ => .bind inline_forward fun _ => .pure _)

theorem lineAttribute_forward : lineAttribute.Forward :=
  .bind inline_forward fun _ => .bind identifier_forward fun _ => .bind inline_forward fun _ =>
  .bind (.require (.char _) _) fun _ => .bind value_forward fun _ => .bind inline_forward fun _ => .pure _

theorem lineBody_forward : lineBody.Forward :=
  .bind lineAttribute_forward.optional fun _ => .bind inline_forward fun _ => .pure _

theorem blockBody_forward (h : body.Forward) : (blockBody body).Forward :=
  .bind (.require (.char _) _) fun _ =>
  .bind (.or (.bind trailing_forward fun _ => .bind newline_forward fun _ => .bind h fun _ => .pure _)
    lineBody_forward) fun _ =>
  .bind (.require (.char _) _) fun _ => .pure _

/-- A repeated key is reported at the identifier, which has been read already. -/
theorem afterIdentifier_endsIn (h : body.Forward) {taken : Bool} {start ident identAfter s : Text} (hs : s.EndOf start) :
    (afterIdentifier body taken start ident identAfter s).EndsIn start := by
  refine Reader.endsIn_bind ((Reader.Forward.peek s).mono hs) fun c r hc => ?_
  have hr : r.EndOf start := (Reader.Forward.peek.endOf hc).trans hs
  split
  · cases taken with
    | true => exact Text.EndOf.self start
    | false => exact (Reader.Forward.bind (.char '=') (fun _ => .bind value_forward fun _ => .pure _) r).mono hr
  · refine (Reader.Forward.ite _ ?_ (.stop _) r).mono hr
    exact .bind label_forward.many fun _ => .bind (blockBody_forward h) fun _ => .pure _

theorem structureLine_forward (h : body.Forward) (used : List Text) : (structureLine body used).Forward := by
  have build : Reader.Forward fun start => Reader.bind identifier (fun ident => Reader.bind inline (fun identAfter =>
      afterIdentifier body (used.contains ident) start ident identAfter)) start := by
    intro start
    refine Reader.endsIn_bind (identifier_forward start) fun ident s hident => ?_
    have hs : s.EndOf start := identifier_forward.endOf hident
    refine Reader.endsIn_bind ((inline_forward s).mono hs) fun identAfter r hinline => ?_
    exact afterIdentifier_endsIn h ((inline_forward.endOf hinline).trans hs)
  exact .bind blank_forward fun _ => .bind build fun _ => .bind trailing_forward fun _ =>
    .bind (lineEnd_forward.require _) fun _ => .pure _

theorem structures_forward (h : body.Forward) (n : Nat) (used : List Text) (ended : Bool) :
    (structures body n used ended).Forward := by
  induction n generalizing used ended with
  | zero => exact .pure _
  | succ n ih =>
    intro s
    have hs := structureLine_forward h used s
    unfold structures
    split
    · next item ended' r hline =>
      exact (Reader.Forward.bind (ih _ _) (fun _ => .pure _) r).mono ((structureLine_forward h used).endOf hline)
    · exact Text.EndOf.self s
    · next c r hline => rwa [hline] at hs

theorem bodyFrom_forward (h : body.Forward) : (bodyFrom body).Forward := fun s =>
  Reader.Forward.bind (structures_forward h _ _ _) (fun _ => .bind blank_forward fun _ => .pure _) s

end

theorem bodyLevel_forward (n : Nat) : (bodyLevel n).Forward := by
  induction n with
  | zero => exact .fail
  | succ n ih => exact bodyFrom_forward ih

theorem document_forward : document.Forward := by
  intro s
  refine Reader.Forward.bind (bodyLevel_forward _) (fun b t => ?_) s
  split <;> exact Text.EndOf.self _

end Grammar
end BackendSwitch
