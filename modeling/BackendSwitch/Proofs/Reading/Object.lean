import BackendSwitch.Proofs.Reading.Collection

/-! # Objects are read again

An item of an object is read again in front of anything that suits how it ends, and an object item by item. Keys that
were dropped are not seen in the tree, so it matters only that the items that are left can follow each other. -/
namespace BackendSwitch
set_option autoImplicit false

open Grammar
open Reader (flagText)

/-! ## Keys -/

namespace Key

/-- The blank text in front of a key. -/
def lead : Key → Text
  | .name n => n.before
  | .expr e => e.decor.lead

/-- The key that an expression makes. A name alone is a key of its own kind. -/
def ofExpr (before : Text) (e : Expr) (after : Text) : Key :=
  match e.node with
  | .variable t => .name ⟨before, t, after⟩
  | _ => .expr (e.within before after)

theorem text_eq (k : Key) : k.text = k.lead ++ k.core := by
  cases k with
  | name n => simp [Key.text_name, lead, core, Name.written]
  | expr e => rw [Key.text_expr, Expr.text_eq]; rfl

variable {before after : Text} {e : Expr}

theorem lead_ofExpr : (ofExpr before e after).lead = before := by
  unfold ofExpr
  split <;> rfl

theorem core_ofExpr : (ofExpr before e after).core = e.node.text ++ after := by
  unfold ofExpr
  split
  · next t h => rw [h, Node.text_variable]; rfl
  · rfl

theorem sound_ofExpr (h : (ofExpr before e after).Sound) : e.node.Sound := by
  unfold ofExpr at h
  split at h
  · next t hnode => rw [hnode]; trivial
  · exact Expr.sound_of_within (b := before) (a := after) h

end Key

/-! ## Objects without repeated keys -/

namespace ObjectItem

theorem length_put_le (item : ObjectItem) (items : List ObjectItem) : (put item items).length ≤ items.length + 1 := by
  induction items with
  | nil => simp [put]
  | cons i items ih =>
    unfold put
    split
    · simp
    · simpa using ih

theorem length_foldl_put_le (items kept : List ObjectItem) :
    (items.foldl (fun is item => put item is) kept).length ≤ kept.length + items.length := by
  induction items generalizing kept with
  | nil => simp
  | cons i items ih =>
    have hput := length_put_le i kept
    have hrest := ih (put i kept)
    simp only [List.foldl_cons, List.length_cons]
    omega

theorem put_eq_of_length {item : ObjectItem} {items : List ObjectItem} (h : items.length < (put item items).length) :
    put item items = items ++ [item] := by
  induction items with
  | nil => rfl
  | cons i items ih =>
    unfold put at h ⊢
    split
    · next hsame => simp [hsame] at h
    · next hsame =>
      simp only [hsame, Bool.false_eq_true, if_false, List.length_cons, Nat.add_lt_add_iff_right] at h
      rw [ih h, List.cons_append]

/-- Items that are put one after the other become as many as they are only if each is put behind the others. -/
theorem foldl_put_eq_of_length {items kept : List ObjectItem}
    (h : kept.length + items.length ≤ (items.foldl (fun is item => put item is) kept).length) :
    items.foldl (fun is item => put item is) kept = kept ++ items := by
  induction items generalizing kept with
  | nil => simp
  | cons i items ih =>
    have hput := length_put_le i kept
    have hrest := length_foldl_put_le items (put i kept)
    simp only [List.foldl_cons, List.length_cons] at h ⊢
    rw [ih (by omega), put_eq_of_length (by omega), List.append_assoc]
    rfl

/-- If none of the keys is repeated, merging changes nothing. -/
theorem merge_eq_of_length {items : List ObjectItem} (h : (merge items).length = items.length) : merge items = items := by
  have hle : ([] : List ObjectItem).length + items.length ≤ (merge items).length := by simp [h]
  exact foldl_put_eq_of_length hle

end ObjectItem

namespace Grammar

variable {inner inner' : Inner} {k : Nat}

theorem itemKey_repeats (h : inner.Repeats inner' k) {s r : Text} {key : Key} (hs : itemKey inner s = .ok key r)
    (hr : r ≠ []) (sound : key.Sound) (hk : key.text.length < k) :
    StartsTerm key.core ∧ Blank key.lead ∧
      ∀ r', Stopper true r' → r'.Avoids Identifier.extendsWith → itemKey inner' (key.text ++ r') = .ok key r' := by
  simp only [itemKey, Reader.bind_iff, Reader.pure_iff, Reader.absent_eq_ok_iff] at hs
  obtain ⟨b, s1, hb, _, s2, ⟨-, rfl⟩, e, s3, he, a, s4, ha, hkey, rfl⟩ := hs
  obtain rfl : Key.ofExpr b e a = key := hkey
  rw [Key.text_eq, Key.lead_ofExpr, Key.core_ofExpr] at hk
  simp only [List.length_append] at hk
  obtain ⟨hstart, hblank, -, hagain⟩ := h.enclosed true false hb he ha hr (Key.sound_ofExpr sound) (by omega)
  rw [Key.text_eq, Key.lead_ofExpr, Key.core_ofExpr]
  refine ⟨hstart.append _, hblank, fun r' hstop havoid => ?_⟩
  obtain ⟨hb', he', ha'⟩ := hagain r' hstop (alike_of_avoids havoid)
  have hbrace : Reader.char '}' (e.node.text ++ (a ++ r')) = .soft := Reader.char_of_head ((hstart.append _).head rfl)
  rw [List.append_assoc, List.append_assoc]
  exact Reader.bind_ok hb' <| Reader.bind_ok (Reader.absent_of_soft hbrace) <| Reader.bind_ok he' <|
    Reader.bind_ok ha' rfl

/-! ## Ends of items -/

/-- What an item may end with: a comment stands only in front of a line end. -/
def SuitsEnd (comment : Text) : Terminator → Prop
  | .newline => comment = [] ∨ IsLineComment comment
  | _ => comment = []

theorem itemEnd_eq_ok {s r comment : Text} {terminator : Terminator} (h : itemEnd s = .ok (comment, terminator) r) :
    s ≠ [] ∧ SuitsEnd comment terminator := by
  unfold itemEnd at h
  split at h
  · cases h
  · cases h
    exact ⟨by simp, rfl⟩
  · cases h
    exact ⟨by simp, rfl⟩
  · next c u _ _ =>
    refine ⟨by simp, ?_⟩
    split at h
    · obtain ⟨t, v, -, h⟩ := Reader.bind_eq_ok_iff.mp h
      cases h
      exact .inl rfl
    · split at h
      · obtain ⟨t, v, ht, h⟩ := Reader.bind_eq_ok_iff.mp h
        obtain ⟨w, x, -, h⟩ := Reader.bind_eq_ok_iff.mp h
        cases h
        exact .inr (lineComment_eq_ok ht).2.1
      · cases h

/-- The end of an item is read as it stands, a line end as a plain line feed. -/
theorem itemEnd_append {comment r : Text} {terminator : Terminator} (h : SuitsEnd comment terminator)
    (hr : terminator = .absent → ∃ u, r = '}' :: u) :
    itemEnd (comment ++ (terminator.symbol ++ r)) = .ok (comment, terminator) r := by
  cases terminator with
  | absent =>
    obtain rfl : comment = [] := h
    obtain ⟨u, rfl⟩ := hr rfl
    rfl
  | comma =>
    obtain rfl : comment = [] := h
    rfl
  | newline =>
    rcases h with rfl | hline
    · rfl
    · have hcomment : lineComment (comment ++ '\n' :: r) = .ok comment ('\n' :: r) :=
        lineComment_append hline (.inr (.inl ⟨r, rfl⟩))
      have hread : (lineComment.bind fun c => newline.bind fun _ => Reader.pure (c, Terminator.newline))
          (comment ++ '\n' :: r) = .ok (comment, .newline) r :=
        Reader.bind_eq_ok_iff.mpr ⟨comment, _, hcomment, rfl⟩
      obtain ⟨u, -, rfl | rfl⟩ := hline
      · exact hread
      · exact hread

theorem inlineEnd_of_suitsEnd {comment r : Text} {terminator : Terminator} (h : SuitsEnd comment terminator)
    (hr : terminator = .absent → ∃ u, r = '}' :: u) : InlineEnd (comment ++ (terminator.symbol ++ r)) := by
  cases terminator with
  | absent =>
    obtain rfl : comment = [] := h
    obtain ⟨u, rfl⟩ := hr rfl
    exact (blankEnd_cons rfl).inlineEnd
  | comma =>
    obtain rfl : comment = [] := h
    exact (blankEnd_cons rfl).inlineEnd
  | newline =>
    rcases h with rfl | ⟨u, -, rfl | rfl⟩
    · exact Pause.inlineEnd (.inl ⟨'\n', r, rfl, .inl rfl⟩)
    · exact Pause.inlineEnd (.inl ⟨'#', _, rfl, .inr (.inr rfl)⟩)
    · exact Pause.inlineEnd (.inr ⟨_, rfl⟩)

theorem avoids_of_suitsEnd {comment r : Text} {terminator : Terminator} (h : SuitsEnd comment terminator)
    (hr : terminator = .absent → ∃ u, r = '}' :: u) :
    Text.Avoids Identifier.extendsWith (comment ++ (terminator.symbol ++ r)) := by
  cases terminator with
  | absent =>
    obtain rfl : comment = [] := h
    obtain ⟨u, rfl⟩ := hr rfl
    exact Text.avoids_cons.mpr rfl
  | comma =>
    obtain rfl : comment = [] := h
    exact Text.avoids_cons.mpr rfl
  | newline =>
    rcases h with rfl | ⟨u, -, rfl | rfl⟩
    · exact Text.avoids_cons.mpr rfl
    · exact Text.avoids_cons.mpr rfl
    · exact Text.avoids_cons.mpr rfl

theorem blank_of_suitsEnd {comment : Text} (h : SuitsEnd comment .newline) : Blank (comment ++ ['\n']) := by
  rcases h with rfl | hline
  · exact .white rfl .nil
  · exact .line hline (.inl ⟨[], rfl⟩) (.white rfl .nil)

theorem eq_nil_of_suitsEnd {comment : Text} {terminator : Terminator} (h : SuitsEnd comment terminator)
    (hother : terminator ≠ .newline) : comment = [] := by
  cases terminator with
  | absent => exact h
  | comma => exact h
  | newline => exact absurd rfl hother

/-! ## Items -/

theorem itemSign_eq_ok {s r : Text} {colon : Bool} (h : itemSign s = .ok colon r) :
    s = (if colon then ':' else '=') :: r := by
  unfold itemSign at h
  split at h
  all_goals cases h
  all_goals rfl

theorem itemSign_cons (colon : Bool) (r : Text) : itemSign ((if colon then ':' else '=') :: r) = .ok colon r := by
  cases colon <;> rfl

/-- An item that is read again in front of anything that suits how it ends. -/
structure RereadsItem (inner : Inner) (i : ObjectItem) : Prop where
  start : StartsTerm i.key.core
  lead : Blank i.key.lead
  line : i.terminator = .newline → Blank (i.value.decor.tail ++ ['\n'])
  blank : i.terminator ≠ .newline → Blank i.value.decor.tail
  again : ∀ r', (i.terminator = .absent → ∃ u, r' = '}' :: u) →
    i.value.node.Stops false true (i.value.decor.tail ++ (i.terminator.symbol ++ r')) →
    objectItem inner (i.text ++ r') = .ok i r'

theorem objectItem_repeats (h : inner.Repeats inner' k) {s r : Text} {item : ObjectItem}
    (hs : objectItem inner s = .ok item r) (sound : item.Sound) (hk : item.text.length < k) : RereadsItem inner' item := by
  simp only [objectItem, Reader.bind_iff, Reader.pure_iff] at hs
  obtain ⟨key, s1, hkey, colon, s2, hsign, b, s3, hb, e, s4, he, a, s5, ha, ⟨comment, terminator⟩, s6, hend, hs⟩ := hs
  obtain ⟨rfl, rfl⟩ := hs
  obtain rfl := itemSign_eq_ok hsign
  obtain ⟨hkeySound, hvalueSound⟩ := sound
  obtain ⟨hs5, hsuits⟩ := itemEnd_eq_ok hend
  have hvalue : e.node.Sound := Expr.sound_of_within (b := b) (a := a ++ comment) hvalueSound
  simp only [ObjectItem.text_eq, Expr.within_text, List.length_append, List.length_cons] at hk
  obtain ⟨hs3, hstart⟩ := h.starts _ _ _ _ he hvalue
  obtain ⟨-, hb, -⟩ := inline_eq_ok hb
  obtain ⟨rfl, ha, -⟩ := inline_eq_ok ha
  obtain ⟨hkeyStart, hkeyBlank, hkeyAgain⟩ := itemKey_repeats h hkey (by simp) hkeySound (by omega)
  refine ⟨hkeyStart, hkeyBlank, fun hnewline => ?_, fun hother => ?_, fun r' hr' hstops => ?_⟩
  · obtain rfl : terminator = .newline := hnewline
    have hassoc : (e.within b (a ++ comment)).decor.tail ++ ['\n'] = a ++ (comment ++ ['\n']) :=
      List.append_assoc _ _ _
    rw [hassoc]
    exact ha.blank.append (blank_of_suitsEnd hsuits)
  · have hnil : comment = [] := eq_nil_of_suitsEnd hsuits hother
    change Blank (a ++ comment)
    rw [hnil, List.append_nil]
    exact ha.blank
  · have hend' := itemEnd_append hsuits hr'
    have hstops' : e.node.Stops false true (a ++ (comment ++ (terminator.symbol ++ r'))) := by
      rw [← List.append_assoc]
      exact hstops
    have hvalue' := h.expression _ _ _ _ he hvalue (by omega) (a ++ (comment ++ (terminator.symbol ++ r')))
      (alike_of_blank ha.blank (avoids_of_suitsEnd hsuits hr')) hstops'
    have hb' : inline (b ++ (e.node.text ++ (a ++ (comment ++ (terminator.symbol ++ r'))))) =
        .ok b (e.node.text ++ (a ++ (comment ++ (terminator.symbol ++ r')))) :=
      inline_append hb (hstart.append _).blankEnd.inlineEnd
    have ha' := inline_append ha (inlineEnd_of_suitsEnd hsuits hr')
    have hkey' : itemKey inner' (key.text ++ (if colon then ':' else '=') ::
        (b ++ (e.node.text ++ (a ++ (comment ++ (terminator.symbol ++ r')))))) =
        .ok key ((if colon then ':' else '=') :: (b ++ (e.node.text ++ (a ++ (comment ++ (terminator.symbol ++ r')))))) := by
      cases colon with
      | true =>
        exact hkeyAgain _ (stopper_colon (head_of_blank_startsTerm hb.blank hstart rfl rfl)) (Text.avoids_cons.mpr rfl)
      | false =>
        exact hkeyAgain _ (stopper_equals (head_of_blank_startsTerm hb.blank hstart rfl rfl)) (Text.avoids_cons.mpr rfl)
    have htext : (ObjectItem.mk key colon (e.within b (a ++ comment)) terminator).text ++ r' =
        key.text ++ (if colon then ':' else '=') ::
          (b ++ (e.node.text ++ (a ++ (comment ++ (terminator.symbol ++ r'))))) := by
      simp [ObjectItem.text_eq, Expr.within_text]
    rw [htext]
    exact Reader.bind_ok hkey' <| Reader.bind_ok (itemSign_cons _ _) <| Reader.bind_ok hb' <| Reader.bind_ok hvalue' <|
      Reader.bind_ok ha' <| Reader.bind_ok hend' rfl

/-! ## Objects -/

theorem mem_put {i item : ObjectItem} {items : List ObjectItem} (h : i ∈ ObjectItem.put item items) :
    i = item ∨ i ∈ items := by
  induction items with
  | nil => exact .inl (List.mem_singleton.mp h)
  | cons j items ih =>
    unfold ObjectItem.put at h
    split at h
    · rcases List.mem_cons.mp h with rfl | h
      · exact .inl rfl
      · exact .inr (List.mem_cons_of_mem _ h)
    · rcases List.mem_cons.mp h with rfl | h
      · exact .inr (List.mem_cons_self ..)
      · exact (ih h).imp_right (List.mem_cons_of_mem _)

theorem mem_of_mem_merge {i : ObjectItem} {items : List ObjectItem} (h : i ∈ ObjectItem.merge items) : i ∈ items := by
  have step : ∀ (items kept : List ObjectItem), i ∈ items.foldl (fun is item => ObjectItem.put item is) kept →
      i ∈ kept ∨ i ∈ items := by
    intro items
    induction items with
    | nil => intro kept h; exact .inl h
    | cons j items ih =>
      intro kept h
      rcases ih _ h with h | h
      · rcases mem_put h with rfl | h
        · exact .inr (List.mem_cons_self ..)
        · exact .inl h
      · exact .inr (List.mem_cons_of_mem _ h)
  rcases step items [] h with h | h
  · cases h
  · exact h

theorem separate_split {tail : Text} {items pre post : List ObjectItem} {i : ObjectItem} (h : Separate tail items)
    (hi : items = pre ++ i :: post) : Separate tail (i :: post) := by
  induction pre generalizing items with
  | nil =>
    rw [← show items = i :: post from hi]
    exact h
  | cons j pre ih =>
    rw [hi] at h
    exact ih h.2 rfl

theorem length_item_le {items : List ObjectItem} {i : ObjectItem} (hi : i ∈ items) :
    i.text.length ≤ (items.flatMap ObjectItem.text).length := by
  obtain ⟨pre, post, rfl⟩ := List.append_of_mem hi
  simp only [List.flatMap_append, List.flatMap_cons, List.length_append]
  omega

/-- Items that can follow each other are read again one by one, up to the brace behind them. -/
theorem items_repeats {items : List ObjectItem} {tail : Text} (hread : ∀ i ∈ items, RereadsItem inner' i)
    (hseparate : Separate tail items) (htail : Blank tail) (r' : Text) :
    Reader.many (objectItem inner') (items.flatMap ObjectItem.text ++ (tail ++ '}' :: r')) =
      .ok items (tail ++ '}' :: r') := by
  refine Reader.many_flatMap (fun i hi => ?_) (fun pre i post hi => ?_) ?_
  · obtain ⟨hstart, -⟩ := hread i hi
    have hne := hstart.ne_nil
    obtain ⟨key, colon, value, terminator⟩ := i
    simp [ObjectItem.text_eq]
  · obtain ⟨-, -, hline, hblank, hagain⟩ := hread i (by simp [hi])
    obtain ⟨hsuits, -⟩ := separate_split hseparate hi
    refine hagain _ (fun habsent => ?_) ?_
    · rw [habsent] at hsuits
      obtain ⟨rfl, rfl⟩ := hsuits
      exact ⟨r', rfl⟩
    · cases hterm : i.terminator with
      | absent =>
        rw [hterm] at hsuits hblank
        obtain ⟨rfl, rfl⟩ := hsuits
        exact stops_of_halts (halts_of_stopper (hblank (by simp)) (stopper_closer rfl)) _
      | comma =>
        rw [hterm] at hblank
        exact stops_of_halts (halts_of_stopper (hblank (by simp)) (stopper_closer rfl)) _
      | newline =>
        rw [hterm] at hsuits hline
        cases post with
        | nil =>
          have hassoc : i.value.decor.tail ++ (Terminator.newline.symbol ++ ([] ++ (tail ++ '}' :: r'))) =
              (i.value.decor.tail ++ ['\n'] ++ tail) ++ '}' :: r' := by
            simp [Terminator.symbol]
          rw [List.flatMap_nil, hassoc]
          exact stops_of_halts (halts_of_stopper ((hline rfl).append htail) (stopper_closer rfl)) _
        | cons j post =>
          have hnext := hsuits j post rfl (post.flatMap ObjectItem.text ++ (tail ++ '}' :: r'))
          rw [List.flatMap_cons, List.append_assoc]
          exact hnext
  · have habsent : itemKey inner' (tail ++ '}' :: r') = .soft :=
      (Reader.bind_of_ok (blank_append htail (blankEnd_cons rfl))).trans
        (Reader.bind_of_soft (Reader.absent_of_ok (Reader.char_cons _ _)))
    exact Reader.bind_of_soft habsent

/-- An object looks like a loop only if the key of its first item does. -/
theorem loopAhead_items {items : List ObjectItem} {tail : Text} (hread : ∀ i ∈ items, RereadsItem inner' i)
    (hlooks : ∀ i is, items = i :: is → opensLoop i.key.core = false) (htail : Blank tail) (r' : Text) :
    loopAhead (items.flatMap ObjectItem.text ++ (tail ++ '}' :: r')) =
      .ok false (items.flatMap ObjectItem.text ++ (tail ++ '}' :: r')) := by
  cases items with
  | nil => exact loopAhead_of_blank (blank_append htail (blankEnd_cons rfl))
  | cons i items =>
    obtain ⟨hstart, hlead, -⟩ := hread i (by simp)
    have hfirst := hlooks i items rfl
    obtain ⟨key, colon, value, terminator⟩ := i
    have htext : (ObjectItem.mk key colon value terminator :: items).flatMap ObjectItem.text ++ (tail ++ '}' :: r') =
        key.lead ++ (key.core ++ (if colon then ':' else '=') ::
          (value.text ++ (terminator.symbol ++ (items.flatMap ObjectItem.text ++ (tail ++ '}' :: r'))))) := by
      simp [ObjectItem.text_eq, Key.text_eq]
    rw [htext, loopAhead_of_blank (blank_append hlead (hstart.append _).blankEnd), opensLoop_append hfirst]
    cases colon
    · decide
    · decide

theorem plainObject_repeats (h : inner.Repeats inner' k) {s r : Text} {e : Expr}
    (hs : plainObject inner s = .ok e ('}' :: r)) (sound : e.node.Sound) (hk : e.node.text.length ≤ k) (r' : Text) :
    e.plain = e ∧ ∃ t, e.node.text ++ r' = '{' :: t ∧ loopAhead t = .ok false t ∧
      plainObject inner' t = .ok e ('}' :: r') := by
  simp only [plainObject, Reader.bind_iff, Reader.pure_iff, Reader.absent_eq_ok_iff] at hs
  obtain ⟨items, s1, hitems, tail, s2, htail, _, s3, ⟨-, rfl⟩, rfl, rfl⟩ := hs
  obtain ⟨hsound, hmerge, hseparate, hlooks⟩ := sound
  obtain ⟨-, htailBlank, -⟩ := blank_eq_ok htail (by simp)
  have htail' : blank (tail ++ '}' :: r') = .ok tail ('}' :: r') := blank_append htailBlank (blankEnd_cons rfl)
  generalize hmerged : ObjectItem.merge items = merged at *
  simp only [Expr.ofNode, Node.text_object, List.length_cons, List.length_append] at hk
  have hread : ∀ i ∈ merged, RereadsItem inner' i := by
    intro i hi
    obtain ⟨t, u, hitem⟩ := Reader.exists_of_mem_many hitems (mem_of_mem_merge (hmerged ▸ hi))
    have hlen := length_item_le hi
    exact objectItem_repeats h hitem ((itemsSound_iff merged).mp hsound i hi) (by omega)
  have hmany := items_repeats hread hseparate htailBlank r'
  have hlooks' := loopAhead_items hread hlooks htailBlank r'
  have hclose : Reader.absent (Reader.absent (Reader.char '}')) ('}' :: r') = .ok () ('}' :: r') :=
    Reader.absent_of_soft (Reader.absent_of_ok (Reader.char_cons _ _))
  refine ⟨rfl, merged.flatMap ObjectItem.text ++ (tail ++ '}' :: r'), by simp [Expr.ofNode, Node.text_object], hlooks', ?_⟩
  refine Reader.bind_ok hmany <| Reader.bind_ok htail' <| Reader.bind_ok hclose ?_
  rw [hmerge]
  rfl

/-! ## Loops -/

/-- The dots of a loop, with the blank text behind them. -/
def spreadDots : Reader (Option Text) := Reader.optional do
  Reader.word ['.', '.', '.']
  blank

/-- The blank text behind the dots that a loop keeps: all of it in front of a test, none without one. -/
def keptSpread (spread : Option Text) (test : Option Expr) : Option Text :=
  match test with
  | none => spread.map fun _ => []
  | some _ => spread

theorem spread_repeats (h : inner.Repeats inner' k) {ctx : Context} {s t r : Text} {spread : Option Text}
    {test : Option Expr} (hs : spreadDots s = .ok spread t) (ht : (loopTest inner ctx).optional t = .ok test ('}' :: r))
    (sound : TestSound test) (hk : (testText test).length ≤ k) (r' : Text) :
    s ≠ [] ∧ Stopper true (Node.spreadText (keptSpread spread test) ++ (testText test ++ '}' :: r')) ∧
      Alike s (Node.spreadText (keptSpread spread test) ++ (testText test ++ '}' :: r')) ∧
      spreadDots (Node.spreadText (keptSpread spread test) ++ (testText test ++ '}' :: r')) =
        .ok (keptSpread spread test) (testText test ++ '}' :: r') ∧
      (loopTest inner' ctx).optional (testText test ++ '}' :: r') = .ok test ('}' :: r') := by
  obtain ⟨hne, hstop, halike, hdot, htest⟩ := loopTest_repeats h rfl ht sound hk r'
  cases spread with
  | none =>
    obtain ⟨-, rfl⟩ := Reader.optional_eq_none_iff.mp hs
    have hkept : keptSpread none test = none := by cases test <;> rfl
    rw [hkept]
    refine ⟨hne, hstop, halike, ?_, htest⟩
    exact Reader.optional_eq_none_iff.mpr ⟨Reader.bind_of_soft (Reader.word_eq_soft_of_head hdot), rfl⟩
  | some tail =>
    simp only [spreadDots, Reader.optional_eq_some_iff, Reader.bind_iff, Reader.word_eq_ok_iff] at hs
    obtain ⟨_, s1, rfl, htail⟩ := hs
    obtain ⟨-, htail, -⟩ := blank_eq_ok htail hne
    obtain ⟨kept, hkept, hblank⟩ : ∃ kept, keptSpread (some tail) test = some kept ∧ Blank kept := by
      cases test with
      | none => exact ⟨[], rfl, .nil⟩
      | some test => exact ⟨tail, rfl, htail⟩
    rw [hkept]
    refine ⟨by simp, stopper_dots, alike_of_avoids (Text.avoids_cons.mpr rfl), ?_, htest⟩
    have hread : blank (kept ++ (testText test ++ '}' :: r')) = .ok kept (testText test ++ '}' :: r') :=
      blank_append hblank hstop.blankEnd
    exact Reader.optional_eq_some_iff.mpr (Reader.bind_ok (Reader.word_append ['.', '.', '.'] _) hread)

theorem forObject_repeats (h : inner.Repeats inner' k) {ctx : Context} {s r : Text} {e : Expr}
    (hs : forObject inner ctx s = .ok e ('}' :: r)) (hloop : loopAhead s = .ok true s) (sound : e.node.Sound)
    (hk : e.node.text.length ≤ k) (r' : Text) :
    ∃ t, e.node.text ++ r' = '{' :: t ∧ loopAhead t = .ok true t ∧ forObject inner' ctx t = .ok e.plain ('}' :: r') := by
  simp only [forObject, Reader.bind_iff, Reader.pure_iff, Reader.require_eq_ok_iff, Reader.word_eq_ok_iff] at hs
  obtain ⟨intro, s1, hintro, kb, s2, hkb, key, s3, hkey, ka, s4, hka, _, s5, rfl, vb, s6, hvb, value, s7, hvalue, va, s8,
    hva, spread, s9, hspread, test, s10, htest, he, rfl⟩ := hs
  have hnode : e.node = .forObject intro (key.within kb ka) (value.within vb va) (keptSpread spread test) test := by
    rw [← he]
    cases spread <;> cases test <;> rfl
  rw [hnode] at sound hk ⊢
  obtain ⟨hintroSound, hkeySound, hvalueSound, htestSound⟩ := sound
  simp only [Node.text_forObject, Expr.within_text, List.length_cons, List.length_append] at hk
  obtain ⟨hne, hstop, halike, hspread', htest'⟩ := spread_repeats h hspread htest htestSound (by omega) r'
  obtain ⟨hvstart, hvblank, -, hvagain⟩ := h.enclosed true true hvb hvalue hva hne
    (Expr.sound_of_within (b := vb) (a := va) hvalueSound) (by omega)
  obtain ⟨hkstart, hkblank, -, hkagain⟩ := h.enclosed true true hkb hkey hka (by simp)
    (Expr.sound_of_within (b := kb) (a := ka) hkeySound) (by omega)
  generalize hrest : Node.spreadText (keptSpread spread test) ++ (testText test ++ '}' :: r') = rest at hstop halike hspread'
  obtain ⟨hvb', hvalue', hva'⟩ := hvagain rest hstop halike
  obtain ⟨hkb', hkey', hka'⟩ := hkagain ('=' :: '>' :: (vb ++ (value.node.text ++ (va ++ rest))))
    (stopper_equals (by simp)) (alike_of_avoids (Text.avoids_cons.mpr rfl))
  obtain ⟨hlooks, hintro'⟩ := bracketIntro_repeats h hintro hloop hintroSound (by omega)
    (kb ++ (key.node.text ++ (ka ++ '=' :: '>' :: (vb ++ (value.node.text ++ (va ++ rest))))))
    (head_of_blank_startsTerm hkblank hkstart rfl rfl)
  refine ⟨_, by simp [Node.text_forObject, Expr.within_text, ← hrest], hlooks, ?_⟩
  refine Reader.bind_ok hintro' <| Reader.bind_ok hkb' <| Reader.bind_ok hkey' <| Reader.bind_ok hka' <|
    Reader.bind_ok (Reader.require_eq_ok_iff.mpr (Reader.word_append ['=', '>'] _)) <| Reader.bind_ok hvb' <|
    Reader.bind_ok hvalue' <| Reader.bind_ok hva' <| Reader.bind_ok hspread' <| Reader.bind_ok htest' ?_
  rw [← he]
  cases spread <;> cases test <;> rfl

/-! ## Braces -/

/-- What is between braces is read again, and what it makes of newlines behind it does not change. -/
theorem object_repeats (h : inner.Repeats inner' k) {ctx : Context} {s r : Text} {e : Expr} {newlines : Bool}
    (hs : object inner ctx s = .ok (e, newlines) r) (sound : e.node.Sound) (hk : e.node.text.length ≤ k) (r' : Text) :
    newlines = e.node.lines ctx.newlines ∧ object inner' ctx (e.node.text ++ r') = .ok (e.plain, newlines) r' := by
  simp only [object, Reader.bind_iff, Reader.char_eq_ok_iff] at hs
  obtain ⟨_, s1, rfl, isLoop, s2, hloop, hs⟩ := hs
  obtain rfl := eq_of_loopAhead hloop
  have hclose : closeMarker ('}' :: r') = .ok () r' := Reader.require_eq_ok_iff.mpr (Reader.char_cons _ _)
  cases isLoop with
  | true =>
    simp only [if_true, Reader.bind_iff, Reader.pure_iff, closeMarker, Reader.require_eq_ok_iff, Reader.char_eq_ok_iff,
      Prod.mk.injEq] at hs
    obtain ⟨e, s3, he, _, s4, rfl, ⟨rfl, rfl⟩, rfl⟩ := hs
    obtain ⟨t, ht, hlooks, hread⟩ := forObject_repeats h he hloop sound hk r'
    rw [ht]
    refine ⟨?_, Reader.bind_ok (Reader.char_cons _ _) <| Reader.bind_ok hlooks <| Reader.bind_ok hread <|
      Reader.bind_ok hclose rfl⟩
    simp only [forObject, Reader.bind_iff, Reader.pure_iff] at he
    obtain ⟨_, _, -, _, _, -, _, _, -, _, _, -, _, _, -, _, _, -, _, _, -, _, _, -, spread, _, -, test, _, -, rfl, -⟩ := he
    cases spread <;> cases test <;> simp [Expr.withAfter, Expr.ofNode, Node.lines]
  | false =>
    simp only [Bool.false_eq_true, if_false, Reader.bind_iff, Reader.pure_iff, closeMarker, Reader.require_eq_ok_iff,
      Reader.char_eq_ok_iff, Prod.mk.injEq] at hs
    obtain ⟨e, s3, he, _, s4, rfl, ⟨rfl, rfl⟩, rfl⟩ := hs
    obtain ⟨hplain, t, ht, hlooks, hread⟩ := plainObject_repeats h he sound hk r'
    rw [ht, hplain]
    refine ⟨?_, Reader.bind_ok (Reader.char_cons _ _) <| Reader.bind_ok hlooks <| Reader.bind_ok hread <|
      Reader.bind_ok hclose rfl⟩
    simp only [plainObject, Reader.bind_iff, Reader.pure_iff] at he
    obtain ⟨_, _, -, _, _, -, _, _, -, rfl, -⟩ := he
    simp [Expr.ofNode, Node.lines]

end Grammar
end BackendSwitch
