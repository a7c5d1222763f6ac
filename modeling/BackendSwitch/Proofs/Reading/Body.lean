import BackendSwitch.Proofs.Reading.Block

/-! # Reading a document from its text

The structures of a body are read one line after the other, up to the brace or the end of the text behind the last of them.
A document that is laid out and whose values are read again is read from its text with all its blank text in place. -/
namespace BackendSwitch
set_option autoImplicit false

open Grammar
open Identifier (startsWith extendsWith)

namespace Grammar

variable {body : Reader Body} {k : Nat}

/-! ## Blocks with lines of their own -/

/-- Behind an identifier and labels a brace begins the body of a block. -/
theorem afterIdentifier_eq_bind {taken : Bool} {start ident identAfter u : Text} {labels : List Label}
    (hlabels : LabelsFormed labels) (hlegible : ∀ l ∈ labels, l.Legible) :
    afterIdentifier body taken start ident identAfter (labels.flatMap Label.written ++ '{' :: u) =
      Reader.bind (blockBody body) (fun b => Reader.pure fun decor =>
        .block ⟨decor, ident, some identAfter, labels.map Label.reread, b⟩) ('{' :: u) := by
  obtain ⟨c, v, hcv, hc⟩ := labels_head hlabels u
  have hread := many_label_append hlabels hlegible u
  rw [hcv] at hread ⊢
  have hequals : ¬ c = '=' := by
    rintro rfl
    rcases hc with h | h | ⟨h, -⟩
    · cases h
    · cases h
    · cases h
  have hstart : (c = '{' || c = '"' || startsWith c) = true := by
    rcases hc with rfl | rfl | ⟨h, -⟩
    · rfl
    · rfl
    · rw [h, Bool.or_true]
  refine (Reader.bind_of_ok (Reader.peek_cons c v)).trans ?_
  rw [if_neg hequals, if_pos hstart]
  exact Reader.bind_of_ok hread

theorem afterIdentifier_labels {taken : Bool} {start ident identAfter r u : Text} {labels : List Label} {b : Body}
    (hlabels : LabelsFormed labels) (hlegible : ∀ l ∈ labels, l.Legible) (hbody : blockBody body ('{' :: u) = .ok b r) :
    afterIdentifier body taken start ident identAfter (labels.flatMap Label.written ++ '{' :: u) =
      .ok (fun decor => .block ⟨decor, ident, some identAfter, labels.map Label.reread, b⟩) r :=
  (afterIdentifier_eq_bind hlabels hlegible).trans (Reader.bind_ok hbody rfl)

theorem blockLine_append (hbody : RereadsLines body k) {used : List Text} {r : Text} {b : Block} (hb : b.Formed)
    (hv : b.Each Expr.Repeats Label.Legible) (hk : b.body.inside.length ≤ k) (hr : LineBreak r) :
    structureLine body used ((Structure.block b).text ++ r) = .ok ((Structure.block b).reread, r.isEmpty) (r.drop 1) := by
  obtain ⟨hdecor, ⟨hname, hbehind, hapart, hlabels⟩, hformed⟩ := Block.formed_iff.mp hb
  obtain ⟨hlegible, hvalues⟩ := Block.each_iff.mp hv
  have hblock := blockBody_append hbody hformed hvalues hk (b.decor.after.getD [] ++ r)
  have hbuild : ∀ start, afterIdentifier body (used.contains b.ident) start b.ident (b.identAfter.getD [' '])
      (b.labels.flatMap Label.written ++ '{' :: (b.body.inside ++ '}' :: (b.decor.after.getD [] ++ r))) =
      .ok (fun decor => .block ⟨decor, b.ident, some (b.identAfter.getD [' ']), b.labels.map Label.reread, b.body.reread⟩)
        (b.decor.after.getD [] ++ r) := fun start => afterIdentifier_labels hlabels hlegible hblock
  have hline := structureLine_of_parts (blank_append hdecor.before (blankEnd_of_isIdentifier hname _))
    (identifier_append hname (labels_avoids hbehind hapart hlabels _)) (inline_append hbehind (labels_inlineEnd hlabels _))
    (hbuild _) (trailing_append hdecor.after hr) hr
  obtain ⟨decor, ident, identAfter, labels, inner⟩ := b
  rw [Structure.text_block, Structure.reread, Block.reread, Block.core]
  simp only [List.append_assoc, List.cons_append]
  exact hline

/-! ## What stands behind the structures of a body -/

/-- Blank text up to the end of a body: a brace or the end of the text. -/
def BodyEnd (t : Text) : Prop := ∃ b z, blank t = .ok b z ∧ (z = [] ∨ ∃ r, z = '}' :: r)

theorem BodyEnd.onward {t : Text} (h : BodyEnd t) : Onward t := by
  obtain ⟨b, z, hb, rfl | ⟨r, rfl⟩⟩ := h
  · exact ⟨b, [], hb, .inl rfl⟩
  · exact ⟨b, _, hb, .inr ⟨'}', r, rfl, .inl rfl⟩⟩

theorem BodyEnd.structureLine {t : Text} (h : BodyEnd t) (used : List Text) : structureLine body used t = .soft := by
  obtain ⟨b, z, hb, hz⟩ := h
  have havoid : z.Avoids startsWith := by
    rcases hz with rfl | ⟨r, rfl⟩
    · exact Text.avoids_nil
    · exact Text.avoids_cons.mpr rfl
  have hident : identifier z = .soft := identifier_eq_soft havoid
  exact (Reader.bind_of_ok hb).trans (Reader.bind_of_soft (Reader.bind_of_soft hident))

theorem text_eq_cons {s : Structure} (h : s.Formed false) (r : Text) :
    ∃ b c u, s.text ++ r = b ++ c :: u ∧ Blank b ∧ startsWith c = true := by
  cases s with
  | attr a =>
    obtain ⟨hdecor, ⟨⟨c, u, hkey, hc, -⟩, -⟩⟩ : a.decor.Formed ∧ a.Formed := h
    have htext : (Structure.attr a).text = _ := Attribute.text_eq [] [] a
    rw [hkey] at htext
    exact ⟨_, c, _, by rw [htext, List.append_assoc, List.cons_append, List.cons_append], hdecor.before, hc⟩
  | block b =>
    obtain ⟨hdecor, ⟨⟨c, u, hname, hc, -⟩, -⟩, -⟩ := Block.formed_iff.mp h
    have htext : (Structure.block b).text = _ := Structure.text_block b
    rw [Block.core, hname] at htext
    exact ⟨_, c, _, by rw [htext, List.append_assoc, List.cons_append, List.cons_append], hdecor.before, hc⟩

theorem onward_text {s : Structure} (h : s.Formed false) (r : Text) : Onward (s.text ++ r) := by
  obtain ⟨b, c, u, htext, hb, hc⟩ := text_eq_cons h r
  rw [htext]
  exact ⟨b, c :: u, blank_append hb (blankEnd_cons (isSolid_of_startsWith hc)), .inr ⟨c, u, rfl, .inr hc⟩⟩

/-! ## The length of texts -/

theorem length_le_linesText {openEnd : Bool} {ss : List Structure} (h : ∀ s ∈ ss, s.Formed false) :
    ss.length ≤ (linesText openEnd ss).length := by
  have hpos : ∀ s ∈ ss, 1 ≤ s.text.length := by
    intro s hs
    obtain ⟨b, c, u, htext, -⟩ := text_eq_cons (h s hs) []
    rw [List.append_nil] at htext
    rw [htext, List.length_append, List.length_cons]
    omega
  induction ss with
  | nil => exact Nat.zero_le _
  | cons s ss ih =>
    have hrest := ih (fun t ht => h t (List.mem_cons_of_mem _ ht)) (fun t ht => hpos t (List.mem_cons_of_mem _ ht))
    have hs := hpos s (List.mem_cons_self ..)
    cases ss with
    | nil =>
      rw [linesText, List.length_append, List.length_singleton]
      omega
    | cons t ss =>
      simp only [linesText, List.length_append, List.length_cons] at hrest ⊢
      omega

/-- The body of a block is shorter than the lines that the block stands in. -/
theorem length_inside_lt {openEnd : Bool} {ss : List Structure} {b : Block} (h : .block b ∈ ss) :
    b.body.inside.length < (linesText openEnd ss).length := by
  have hblock : b.body.inside.length < (Structure.block b).text.length := by
    rw [Structure.text_block, Block.core]
    simp only [List.length_append, List.length_cons]
    omega
  induction ss with
  | nil => cases h
  | cons s ss ih =>
    cases ss with
    | nil =>
      obtain rfl := List.mem_singleton.mp h
      rw [linesText, List.length_append]
      omega
    | cons t ss =>
      rw [linesText, List.length_append, List.length_cons]
      rcases List.mem_cons.mp h with rfl | h
      · omega
      · have hrest := ih h
        omega

/-! ## Structures and bodies -/

theorem structureLine_append (hbody : RereadsLines body k) {used : List Text} {r : Text} {s : Structure}
    (hs : s.Formed false) (hv : s.Each Expr.Repeats Label.Legible) (hkey : ∀ key ∈ keys [s], key ∉ used)
    (hk : ∀ b, s = .block b → b.body.inside.length ≤ k) (hr : LineGoesOn r) :
    structureLine body used (s.text ++ r) = .ok (s.reread, r.isEmpty) (r.drop 1) := by
  cases s with
  | attr a => exact attributeLine_append hs.1 hs.2 hv (hkey a.key (List.mem_singleton.mpr rfl)) hr
  | block b => exact blockLine_append hbody hs hv (hk b rfl) hr.lineBreak

theorem structures_of_soft {n : Nat} {used : List Text} {ended : Bool} {s : Text}
    (h : structureLine body used s = .soft) : structures body (n + 1) used ended s = .ok ([], ended) s := by
  simp only [structures, h]

theorem structures_of_ok {n : Nat} {used : List Text} {ended ended' last : Bool} {s r u : Text} {item : Structure}
    {items : List Structure} (h : structureLine body used s = .ok (item, ended') r)
    (hrest : structures body n (keys [item] ++ used) ended' r = .ok (items, last) u) :
    structures body (n + 1) used ended s = .ok (item :: items, last) u := by
  simp only [structures, h]
  cases item with
  | attr a => exact Reader.bind_ok hrest rfl
  | block b => exact Reader.bind_ok hrest rfl

theorem keys_cons (s : Structure) (ss : List Structure) : keys (s :: ss) = keys [s] ++ keys ss := by
  cases s <;> rfl

theorem keys_reread (s : Structure) : keys [s.reread] = keys [s] := by
  cases s <;> rfl

theorem structures_append (hbody : RereadsLines body k) {openEnd : Bool} {tail : Text} (htail : BodyEnd tail)
    (hopen : openEnd = true → tail = []) {ss : List Structure} (hss : ∀ s ∈ ss, s.Formed false)
    (hv : ∀ s ∈ ss, s.Each Expr.Repeats Label.Legible) (hkeys : (keys ss).Nodup)
    (hk : ∀ b, .block b ∈ ss → b.body.inside.length ≤ k) {n : Nat} (hn : ss.length < n) {used : List Text}
    (hused : ∀ key ∈ keys ss, key ∉ used) (ended : Bool) :
    structures body n used ended (linesText openEnd ss ++ tail) =
      .ok (ss.map Structure.reread, if ss = [] then ended else openEnd) tail := by
  induction ss generalizing n used ended with
  | nil =>
    obtain ⟨m, rfl⟩ : ∃ m, n = m + 1 := ⟨n - 1, by simp only [List.length_nil] at hn; omega⟩
    exact structures_of_soft (htail.structureLine used)
  | cons s ss ih =>
    obtain ⟨m, rfl⟩ : ∃ m, n = m + 1 := ⟨n - 1, by simp only [List.length_cons] at hn; omega⟩
    obtain ⟨hs, hss'⟩ := List.forall_mem_cons.mp hss
    obtain ⟨hvs, hvss⟩ := List.forall_mem_cons.mp hv
    rw [keys_cons] at hkeys hused
    obtain ⟨-, hkeys', hapart⟩ := List.nodup_append.mp hkeys
    have hfree : ∀ key ∈ keys [s], key ∉ used := fun key hmem => hused key (List.mem_append_left _ hmem)
    have hused' : ∀ key ∈ keys ss, key ∉ keys [s.reread] ++ used := by
      intro key hmem hin
      rcases List.mem_append.mp hin with hin | hin
      · rw [keys_reread] at hin
        exact hapart key hin key hmem rfl
      · exact hused key (List.mem_append_right _ hmem) hin
    have hks : ∀ b, s = .block b → b.body.inside.length ≤ k := fun b hb => hk b (by rw [hb]; exact List.mem_cons_self ..)
    have hlater := fun ended => ih hss' hvss hkeys' (fun b hb => hk b (List.mem_cons_of_mem _ hb)) (n := m)
      (by simp only [List.length_cons] at hn; omega) hused' ended
    cases ss with
    | nil =>
      cases openEnd with
      | true =>
        obtain rfl := hopen rfl
        have hline := structureLine_append hbody hs hvs hfree hks (.inl rfl)
        rw [linesText, if_pos rfl, List.append_nil]
        exact structures_of_ok hline (hlater _)
      | false =>
        have hline := structureLine_append hbody hs hvs hfree hks (.inr ⟨tail, rfl, htail.onward⟩)
        rw [linesText, List.append_assoc]
        exact structures_of_ok hline (hlater _)
    | cons t ss =>
      have hnext : Onward (linesText openEnd (t :: ss) ++ tail) := by
        have ht := (List.forall_mem_cons.mp hss').1
        cases ss with
        | nil =>
          rw [linesText, List.append_assoc]
          exact onward_text ht _
        | cons u ss =>
          rw [linesText, List.append_assoc]
          exact onward_text ht _
      have hline := structureLine_append hbody hs hvs hfree hks (.inr ⟨_, rfl, hnext⟩)
      rw [linesText, List.append_assoc]
      exact structures_of_ok hline (hlater _)

/-- A body is read from its lines, up to the blank text in front of its end. -/
theorem bodyFrom_append (hbody : RereadsLines body k) {openEnd : Bool} {after z : Text}
    (hafter : blank (after ++ z) = .ok after z) (hz : z = [] ∨ ∃ r, z = '}' :: r)
    (hopen : openEnd = true → after ++ z = []) {ss : List Structure} (hss : ∀ s ∈ ss, s.Formed false)
    (hv : ∀ s ∈ ss, s.Each Expr.Repeats Label.Legible) (hkeys : (keys ss).Nodup)
    (hk : ∀ b, .block b ∈ ss → b.body.inside.length ≤ k) :
    bodyFrom body (linesText openEnd ss ++ (after ++ z)) =
      .ok ⟨⟨none, some after⟩, ss.map Structure.reread, false, if ss = [] then false else openEnd⟩ z := by
  have hn : ss.length < (linesText openEnd ss ++ (after ++ z)).length + 1 := by
    have hle : ss.length ≤ (linesText openEnd ss).length := length_le_linesText hss
    rw [List.length_append]
    omega
  have hused : ∀ key ∈ keys ss, key ∉ ([] : List Text) := fun key _ h => by cases h
  have hread := structures_append hbody ⟨after, z, hafter, hz⟩ hopen hss hv hkeys hk hn hused false
  exact Reader.bind_ok hread (Reader.bind_ok hafter rfl)

theorem rereadsLines_bodyLevel (n : Nat) : RereadsLines (bodyLevel n) n := by
  induction n with
  | zero =>
    intro b hb hv hk
    exact absurd hk (Nat.not_lt_zero _)
  | succ n ih =>
    intro b hb hv hk r
    have hafter : blank (b.decor.after.getD [] ++ '}' :: r) = .ok (b.decor.after.getD []) ('}' :: r) :=
      blank_append hb.after (blankEnd_cons rfl)
    have hshort : ∀ c, .block c ∈ b.items → c.body.inside.length ≤ n := by
      intro c hc
      have hlt : c.body.inside.length < (linesText false b.items).length := length_inside_lt hc
      omega
    have hclosed : false = true → b.decor.after.getD [] ++ '}' :: r = [] := fun h => by cases h
    have hread := bodyFrom_append ih hafter (.inr ⟨r, rfl⟩) hclosed hb.items (Body.each_iff.mp hv) hb.keys hshort
    rw [ite_self] at hread
    exact hread

end Grammar

/-! ## Documents -/

/-- A document that is laid out and whose values are read again is read from its text. -/
theorem Grammar.document_text {b : Body} (hb : b.DocumentFormed) (hv : b.Each Expr.Repeats Label.Legible) :
    document b.text = .ok b.rereadDocument [] := by
  have htext : b.text = linesText b.openEnd b.items ++ (b.decor.after.getD [] ++ []) := by
    rw [Body.text_eq, hb.before, List.append_nil, List.nil_append]
  have hafter : blank (b.decor.after.getD [] ++ []) = .ok (b.decor.after.getD []) [] := by
    rw [List.append_nil]
    exact hb.after
  have hopen : b.openEnd = true → b.decor.after.getD [] ++ [] = [] := by
    rw [List.append_nil]
    exact hb.openEnd
  have hshort : ∀ c, .block c ∈ b.items → c.body.inside.length ≤ b.text.length := by
    intro c hc
    have hlt : c.body.inside.length < (linesText b.openEnd b.items).length := length_inside_lt hc
    rw [htext, List.length_append]
    omega
  have hread := bodyFrom_append (rereadsLines_bodyLevel b.text.length) hafter (.inl rfl) hopen hb.items
    (Body.each_iff.mp hv) hb.keys hshort
  rw [← htext] at hread
  have hend : (if b.items = [] then false else b.openEnd) = (b.openEnd && !b.items.isEmpty) := by
    cases b.items with
    | nil => simp
    | cons s ss => simp
  rw [hend] at hread
  exact Reader.bind_ok hread rfl

end BackendSwitch
