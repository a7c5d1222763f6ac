import BackendSwitch.Grammar.Reader

/-! # One step of a reader

What each combinator says about the text that was read, and how a reader moves on once its first step is known.
The first kind of statement takes a reading apart, the second kind puts one together again. -/
namespace BackendSwitch
set_option autoImplicit false

namespace Text

/-- A text that does not start with a character of the given class. -/
def Avoids (f : Char → Bool) (s : Text) : Prop := ∀ c, s.head? = some c → f c = false

variable {f : Char → Bool} {c : Char} {s t : Text}

/-- A class of characters tells the characters in it from the ones outside of it. -/
theorem ne_of_class (hc : f c = true) {d : Char} (hd : f d = false) : c ≠ d := by
  rintro rfl
  rw [hc] at hd
  cases hd

theorem avoids_nil : Avoids f [] := by
  intro c h
  cases h

theorem avoids_cons : Avoids f (c :: s) ↔ f c = false := by
  constructor
  · intro h
    exact h c rfl
  · intro h d hd
    cases hd
    exact h

theorem takeWhile_of_avoids (h : Avoids f s) : s.takeWhile f = [] := by
  cases s with
  | nil => rfl
  | cons d s => exact List.takeWhile_cons_of_neg (by simp [avoids_cons.mp h])

theorem dropWhile_of_avoids (h : Avoids f s) : s.dropWhile f = s := by
  cases s with
  | nil => rfl
  | cons d s => exact List.dropWhile_cons_of_neg (by simp [avoids_cons.mp h])

theorem avoids_dropWhile (f : Char → Bool) (s : Text) : Avoids f (s.dropWhile f) := by
  induction s with
  | nil => exact avoids_nil
  | cons d s ih =>
    by_cases h : f d = true
    · rw [List.dropWhile_cons_of_pos h]
      exact ih
    · rw [List.dropWhile_cons_of_neg h]
      exact avoids_cons.mpr (by simpa using h)

theorem takeWhile_append_of_all (ht : ∀ d ∈ t, f d = true) (hs : Avoids f s) : (t ++ s).takeWhile f = t := by
  rw [List.takeWhile_append_of_pos ht, takeWhile_of_avoids hs, List.append_nil]

theorem dropWhile_append_of_all (ht : ∀ d ∈ t, f d = true) (hs : Avoids f s) : (t ++ s).dropWhile f = s := by
  rw [List.dropWhile_append_of_pos ht, dropWhile_of_avoids hs]

end Text

namespace Reader

variable {α β : Type}

/-! ## Sequence -/

theorem pure_apply (a : α) (s : Text) : (pure a : Reader α) s = .ok a s := rfl

theorem bind_of_ok {p : Reader α} {f : α → Reader β} {s t : Text} {a : α} (h : p s = .ok a t) :
    (p >>= f) s = f a t := by
  change Reader.bind p f s = f a t
  simp only [Reader.bind, h]

theorem bind_ok {p : Reader α} {f : α → Reader β} {s t r : Text} {a : α} {b : β} (h : p s = .ok a t)
    (hf : f a t = .ok b r) : (p >>= f) s = .ok b r := by
  rw [bind_of_ok h, hf]

theorem bind_of_soft {p : Reader α} {f : α → Reader β} {s : Text} (h : p s = .soft) :
    (p >>= f) s = .soft := by
  change Reader.bind p f s = .soft
  simp only [Reader.bind, h]

theorem bind_iff {p : Reader α} {f : α → Reader β} {s r : Text} {b : β} :
    (p >>= f) s = .ok b r ↔ ∃ a t, p s = .ok a t ∧ f a t = .ok b r :=
  bind_eq_ok_iff

theorem pure_iff {a b : α} {s r : Text} : (pure a : Reader α) s = .ok b r ↔ a = b ∧ s = r := by
  rw [pure_apply, Reply.ok.injEq]

/-! ## Choice -/

theorem require_eq_ok_iff {p : Reader α} {c : Complaint} {s r : Text} {a : α} :
    p.require c s = .ok a r ↔ p s = .ok a r := by
  unfold Reader.require Reader.or Reader.stop
  cases p s <;> simp

theorem or_eq_ok_iff {p q : Reader α} {s r : Text} {a : α} :
    p.or q s = .ok a r ↔ p s = .ok a r ∨ p s = .soft ∧ q s = .ok a r := by
  unfold Reader.or
  cases p s <;> simp

theorem or_of_soft {p q : Reader α} {s : Text} (h : p s = .soft) : p.or q s = q s := by
  simp only [Reader.or, h]

theorem or_of_ok {p q : Reader α} {s r : Text} {a : α} (h : p s = .ok a r) : p.or q s = .ok a r :=
  or_eq_ok_iff.mpr (.inl h)

theorem optional_eq_some_iff {p : Reader α} {s r : Text} {a : α} :
    p.optional s = .ok (some a) r ↔ p s = .ok a r := by
  unfold Reader.optional
  cases p s <;> simp

theorem optional_eq_none_iff {p : Reader α} {s r : Text} :
    p.optional s = .ok none r ↔ p s = .soft ∧ s = r := by
  unfold Reader.optional
  cases p s <;> simp

theorem absent_eq_ok_iff {p : Reader α} {s r : Text} {u : Unit} :
    p.absent s = .ok u r ↔ p s = .soft ∧ s = r := by
  unfold Reader.absent
  cases p s <;> simp

theorem absent_of_soft {p : Reader α} {s : Text} (h : p s = .soft) : p.absent s = .ok () s :=
  absent_eq_ok_iff.mpr ⟨h, rfl⟩

theorem absent_of_ok {p : Reader α} {s r : Text} {a : α} (h : p s = .ok a r) : p.absent s = .soft := by
  simp only [Reader.absent, h]

/-! ## Characters -/

theorem char_eq_ok_iff {c : Char} {s r : Text} {u : Unit} : Reader.char c s = .ok u r ↔ s = c :: r := by
  cases s with
  | nil => simp [Reader.char]
  | cons d t =>
    by_cases h : c = d
    · simp [Reader.char, h]
    · simp [Reader.char, h, Ne.symm h]

theorem char_cons (c : Char) (r : Text) : Reader.char c (c :: r) = .ok () r := char_eq_ok_iff.mpr rfl

theorem char_of_head {c : Char} {s : Text} (h : s.head? ≠ some c) : Reader.char c s = .soft := by
  cases s with
  | nil => rfl
  | cons d t =>
    have hne : c ≠ d := fun e => h (by rw [e]; rfl)
    simp [Reader.char, hne]

theorem oneOf_eq_ok_iff {f : Char → Bool} {s r : Text} {c : Char} :
    Reader.oneOf f s = .ok c r ↔ s = c :: r ∧ f c = true := by
  cases s with
  | nil => simp [Reader.oneOf]
  | cons d t =>
    by_cases h : f d = true
    · simp only [Reader.oneOf, h, if_true, Reply.ok.injEq, List.cons.injEq]
      constructor
      · rintro ⟨rfl, rfl⟩
        exact ⟨⟨rfl, rfl⟩, h⟩
      · rintro ⟨⟨rfl, rfl⟩, -⟩
        exact ⟨rfl, rfl⟩
    · simp only [Reader.oneOf, h, List.cons.injEq]
      constructor
      · intro e
        cases e
      · rintro ⟨⟨rfl, -⟩, hc⟩
        exact absurd hc h

theorem oneOf_of_avoids {f : Char → Bool} {s : Text} (h : s.Avoids f) : Reader.oneOf f s = .soft := by
  cases s with
  | nil => rfl
  | cons d t => simp [Reader.oneOf, h d rfl]

theorem word_eq_ok_iff {w s r : Text} {u : Unit} : Reader.word w s = .ok u r ↔ s = w ++ r := by
  unfold Reader.word
  constructor
  · intro h
    cases hs : Text.strip? w s with
    | none => simp [hs] at h
    | some t =>
      simp only [hs, Reply.ok.injEq] at h
      rw [← h.2]
      exact Text.eq_append_of_strip? hs
  · rintro rfl
    simp [Text.strip?_append]

theorem word_append (w r : Text) : Reader.word w (w ++ r) = .ok () r := word_eq_ok_iff.mpr rfl

theorem word_eq_soft_of_head {a : Char} {w s : Text} (h : s.head? ≠ some a) : Reader.word (a :: w) s = .soft := by
  cases s with
  | nil => rfl
  | cons d t =>
    have hne : a ≠ d := fun e => h (by rw [e]; rfl)
    simp [Reader.word, Text.strip?, hne]

theorem peek_eq_ok_iff {s r : Text} {c : Char} : Reader.peek s = .ok c r ↔ s.head? = some c ∧ s = r := by
  cases s <;> simp [Reader.peek]

theorem peek_cons (c : Char) (r : Text) : Reader.peek (c :: r) = .ok c (c :: r) := rfl

theorem flag_eq_ok_iff {c : Char} {s r : Text} {b : Bool} :
    Reader.flag c s = .ok b r ↔ b = true ∧ s = c :: r ∨ b = false ∧ s = r ∧ s.head? ≠ some c := by
  cases s with
  | nil =>
    simp only [Reader.flag, Reply.ok.injEq, List.head?_nil, ne_eq, reduceCtorEq, not_false_eq_true, and_true]
    constructor
    · rintro ⟨rfl, rfl⟩
      exact .inr ⟨rfl, rfl⟩
    · rintro (⟨-, h⟩ | ⟨rfl, rfl⟩)
      · cases h
      · exact ⟨rfl, rfl⟩
  | cons d t =>
    by_cases h : c = d
    · subst h
      simp only [Reader.flag, if_true, Reply.ok.injEq, List.cons.injEq, true_and, List.head?_cons, ne_eq,
        not_true_eq_false, and_false, or_false]
      exact ⟨fun e => ⟨e.1.symm, e.2⟩, fun e => ⟨e.1.symm, e.2⟩⟩
    · simp only [Reader.flag, h, if_false, Reply.ok.injEq, List.cons.injEq, List.head?_cons, ne_eq,
        Option.some.injEq, Ne.symm h, not_false_eq_true, and_true, false_and, and_false, false_or]
      exact ⟨fun e => ⟨e.1.symm, e.2⟩, fun e => ⟨e.1.symm, e.2⟩⟩

/-- What a flag stands for in the text. -/
def flagText (c : Char) (b : Bool) : Text := if b then [c] else []

theorem flag_append {c : Char} {b : Bool} {r : Text} (h : r.head? ≠ some c) :
    Reader.flag c (flagText c b ++ r) = .ok b r := by
  cases b
  · exact flag_eq_ok_iff.mpr (.inr ⟨rfl, rfl, h⟩)
  · exact flag_eq_ok_iff.mpr (.inl ⟨rfl, rfl⟩)

/-! ## Repetition -/

theorem upTo_eq_nil {p : Reader α} {n : Nat} {s r : Text} (h : Reader.upTo n p s = .ok [] r) : r = s := by
  cases n with
  | zero => exact (Reply.ok.inj h).2.symm
  | succ n =>
    unfold Reader.upTo at h
    cases hp : p s with
    | soft =>
      rw [hp] at h
      exact (Reply.ok.inj h).2.symm
    | hard c t => simp [hp] at h
    | ok b t => cases hn : Reader.upTo n p t <;> simp [hp, hn] at h

/-- A repetition that read something read the first value, and repeats reading behind it. -/
theorem upTo_eq_cons {p : Reader α} {n : Nat} {s r : Text} {a : α} {as : List α}
    (h : Reader.upTo n p s = .ok (a :: as) r) : ∃ m t, p s = .ok a t ∧ Reader.upTo m p t = .ok as r := by
  cases n with
  | zero => cases h
  | succ n =>
    unfold Reader.upTo at h
    cases hp : p s with
    | soft => simp [hp] at h
    | hard c t => simp [hp] at h
    | ok b t =>
      cases hn : Reader.upTo n p t with
      | soft => simp [hp, hn] at h
      | hard c u => simp [hp, hn] at h
      | ok bs u =>
        simp only [hp, hn, Reply.ok.injEq] at h
        obtain ⟨hcons, rfl⟩ := h
        obtain ⟨rfl, rfl⟩ := List.cons.inj hcons
        exact ⟨n, t, rfl, hn⟩

theorem upTo_split {p : Reader α} {n : Nat} {s r : Text} {pre post : List α} {a : α}
    (h : Reader.upTo n p s = .ok (pre ++ a :: post) r) :
    ∃ t u, p t = .ok a u ∧ (post = [] → u = r) ∧ ∀ b post', post = b :: post' → ∃ v, p u = .ok b v := by
  induction pre generalizing n s with
  | nil =>
    obtain ⟨m, t, ha, hrest⟩ := upTo_eq_cons h
    refine ⟨s, t, ha, ?_, ?_⟩
    · rintro rfl
      exact (upTo_eq_nil hrest).symm
    · rintro b post' rfl
      obtain ⟨-, v, hb, -⟩ := upTo_eq_cons hrest
      exact ⟨v, hb⟩
  | cons b pre ih =>
    obtain ⟨m, t, -, hrest⟩ := upTo_eq_cons h
    exact ih hrest

theorem exists_upTo_of_many {p : Reader α} {s r : Text} {as : List α} (h : Reader.many p s = .ok as r) :
    ∃ n, Reader.upTo n p s = .ok as r := by
  unfold Reader.many at h
  cases hp : p s with
  | soft =>
    simp only [hp] at h
    exact ⟨1, by simp only [Reader.upTo, hp, h]⟩
  | hard c t => simp [hp] at h
  | ok b t =>
    simp only [hp] at h
    refine ⟨t.length + 2, ?_⟩
    rw [Reader.upTo.eq_2, hp]
    exact h

/-- Every value of a repetition was read somewhere, the last one right in front of the rest and each other one in front
of the next one. -/
theorem many_split {p : Reader α} {s r : Text} {as pre post : List α} {a : α} (h : Reader.many p s = .ok as r)
    (ha : as = pre ++ a :: post) :
    ∃ t u, p t = .ok a u ∧ (post = [] → u = r) ∧ ∀ b post', post = b :: post' → ∃ v, p u = .ok b v := by
  subst ha
  obtain ⟨n, hup⟩ := exists_upTo_of_many h
  exact upTo_split hup

theorem exists_of_mem_many {p : Reader α} {s r : Text} {as : List α} {a : α}
    (h : Reader.many p s = .ok as r) (ha : a ∈ as) : ∃ t u, p t = .ok a u := by
  obtain ⟨pre, post, hsplit⟩ := List.append_of_mem ha
  obtain ⟨t, u, hread, -⟩ := many_split h hsplit
  exact ⟨t, u, hread⟩

/-- Where nothing is read from the empty text, each value of a repetition has text behind it if there is text behind the
last one. -/
theorem exists_of_mem_many_of_soft {p : Reader α} (hnil : p [] = .soft) {s r : Text} {as : List α} {a : α}
    (h : Reader.many p s = .ok as r) (hr : r ≠ []) (ha : a ∈ as) : ∃ t u, p t = .ok a u ∧ u ≠ [] := by
  obtain ⟨pre, post, hsplit⟩ := List.append_of_mem ha
  obtain ⟨t, u, hread, hlast, hnext⟩ := many_split h hsplit
  refine ⟨t, u, hread, ?_⟩
  rintro rfl
  cases post with
  | nil => exact hr (hlast rfl).symm
  | cons b post =>
    obtain ⟨v, hv⟩ := hnext b post rfl
    rw [hnil] at hv
    cases hv

theorem upTo_rest {p : Reader α} {P : Text → Prop} (hp : ∀ s a r, p s = .ok a r → P r) {n : Nat} {s r : Text}
    {as : List α} (hs : P s) (h : Reader.upTo n p s = .ok as r) : P r := by
  induction as generalizing n s with
  | nil =>
    rw [upTo_eq_nil h]
    exact hs
  | cons a as ih =>
    obtain ⟨m, t, ha, hrest⟩ := upTo_eq_cons h
    exact ih (hp _ _ _ ha) hrest

/-- What holds behind every value of a repetition, and in front of it, holds behind the repetition. -/
theorem many_rest {p : Reader α} {P : Text → Prop} (hp : ∀ s a r, p s = .ok a r → P r) {s r : Text}
    {as : List α} (hs : P s) (h : Reader.many p s = .ok as r) : P r := by
  obtain ⟨n, hup⟩ := exists_upTo_of_many h
  exact upTo_rest hp hs hup

theorem upTo_flatMap {p : Reader α} {w : α → Text} {as : List α} {r : Text} {n : Nat} (hn : as.length < n)
    (hp : ∀ pre a post, as = pre ++ a :: post →
      p (w a ++ (post.flatMap w ++ r)) = .ok a (post.flatMap w ++ r))
    (hr : p r = .soft) : Reader.upTo n p (as.flatMap w ++ r) = .ok as r := by
  induction as generalizing n with
  | nil =>
    obtain ⟨k, rfl⟩ : ∃ k, n = k + 1 := ⟨n - 1, by simp only [List.length_nil] at hn; omega⟩
    simp [Reader.upTo, hr]
  | cons a as ih =>
    obtain ⟨k, rfl⟩ : ∃ k, n = k + 1 := ⟨n - 1, by simp only [List.length_cons] at hn; omega⟩
    have first := hp [] a as rfl
    have rest := ih (n := k) (by simp only [List.length_cons] at hn; omega)
      (fun pre b post e => hp (a :: pre) b post (by rw [e]; rfl))
    simp only [List.flatMap_cons, List.append_assoc, Reader.upTo, first, rest]

theorem length_le_length_flatMap {w : α → Text} {as : List α} (hw : ∀ a ∈ as, w a ≠ []) :
    as.length ≤ (as.flatMap w).length := by
  induction as with
  | nil => simp
  | cons a as ih =>
    have h1 : 0 < (w a).length := List.length_pos_iff.mpr (hw a (by simp))
    have h2 := ih fun b hb => hw b (by simp [hb])
    simp only [List.flatMap_cons, List.length_append, List.length_cons]
    omega

/-- A repetition reads the values whose texts stand one behind another, if each is read where it stands. -/
theorem many_flatMap {p : Reader α} {w : α → Text} {as : List α} {r : Text} (hw : ∀ a ∈ as, w a ≠ [])
    (hp : ∀ pre a post, as = pre ++ a :: post →
      p (w a ++ (post.flatMap w ++ r)) = .ok a (post.flatMap w ++ r))
    (hr : p r = .soft) : Reader.many p (as.flatMap w ++ r) = .ok as r := by
  cases as with
  | nil => simp [Reader.many, hr]
  | cons a as =>
    have first := hp [] a as rfl
    have bound : as.length < (as.flatMap w ++ r).length + 1 := by
      have h := length_le_length_flatMap fun b hb => hw b (List.mem_cons_of_mem a hb)
      simp only [List.length_append]
      omega
    have rest := upTo_flatMap bound (fun pre b post e => hp (a :: pre) b post (by rw [e]; rfl)) hr
    simp only [List.flatMap_cons, List.append_assoc, Reader.many, first, rest]

/-- Where every value takes up text, all bounds above the length of the text are as good as one another. -/
theorem upTo_eq_upTo {p : Reader α} (hp : ∀ s a r, p s = .ok a r → r.length < s.length) {m n : Nat} {s : Text}
    (hm : s.length < m) (hn : s.length < n) : Reader.upTo m p s = Reader.upTo n p s := by
  induction m generalizing n s with
  | zero => omega
  | succ m ih =>
    obtain ⟨k, rfl⟩ : ∃ k, n = k + 1 := ⟨n - 1, by omega⟩
    unfold Reader.upTo
    cases h : p s with
    | soft => rfl
    | hard c t => rfl
    | ok a t =>
      have shorter := hp s a t h
      simp only [ih (n := k) (s := t) (by omega) (by omega)]

theorem many_eq_upTo {p : Reader α} (hp : ∀ s a r, p s = .ok a r → r.length < s.length) {n : Nat} {s : Text}
    (hn : s.length < n) : Reader.many p s = Reader.upTo n p s := by
  obtain ⟨k, rfl⟩ : ∃ k, n = k + 1 := ⟨n - 1, by omega⟩
  rw [Reader.many.eq_1, Reader.upTo.eq_2]
  cases h : p s with
  | soft => rfl
  | hard c t => rfl
  | ok a t =>
    have shorter := hp s a t h
    have same := upTo_eq_upTo hp (s := t) (Nat.lt_succ_self t.length) (show t.length < k by omega)
    simp only [same]

end Reader
end BackendSwitch
