import BackendSwitch.Proofs.Edits

/-! # What is read from the text of a backend

Whatever its settings are, the block of a backend is written on six lines. Its settings are read back as they are if all of
them are legible, and only then: the first one that is not is read as a template, as another text or not at all. -/
namespace BackendSwitch
set_option autoImplicit false

open Grammar

/-! ## Six lines -/

theorem linesText_false_cons (s : Structure) (ss : List Structure) (r : Text) :
    linesText false (s :: ss) ++ r = s.text ++ '\n' :: (linesText false ss ++ r) := by
  simp [linesText_false]

namespace Escape

/-- Whether a character can be seen; the others are escaped because they cannot. -/
def isVisible (c : Char) : Bool := 0x20 ≤ c.toNat && c.toNat != 0x7f

theorem isVisible_hexDigit {d : Nat} (h : d < 16) : isVisible (hexDigit d) = true := by
  have all : ∀ d, d < 16 → isVisible (hexDigit d) = true := by decide
  exact all d h

/-- What is written for a character can be seen. -/
theorem all_isVisible_char (c : Char) : (char c).all isVisible = true := by
  unfold char
  split
  · rfl
  split
  · rfl
  split
  · rfl
  split
  · rfl
  split
  · rfl
  split
  · rfl
  split
  · rfl
  split
  · next hcode =>
    have hsmall : c.toNat < 256 := by
      simp only [Bool.or_eq_true, decide_eq_true_eq] at hcode
      omega
    have high := isVisible_hexDigit (d := c.toNat / 16) (by omega)
    have low := isVisible_hexDigit (d := c.toNat % 16) (by omega)
    rw [List.all_cons, List.all_cons, List.all_cons, List.all_cons, List.all_cons, List.all_cons, high, low]
    rfl
  · next hcode =>
    have hvisible : isVisible c = true := by
      simp only [Bool.or_eq_true, decide_eq_true_eq, not_or] at hcode
      simp only [isVisible, Bool.and_eq_true, decide_eq_true_eq, bne_iff_ne]
      exact ⟨by omega, hcode.2⟩
    rw [List.all_cons, hvisible]
    rfl

theorem all_isVisible_quoted (t : Text) : (quoted t).all isVisible = true := by
  have hchars : (chars (markers t)).all isVisible = true := by
    rw [chars, List.all_flatMap]
    exact List.all_eq_true.mpr fun c _ => all_isVisible_char c
  rw [quoted, List.all_cons, List.all_append, hchars]
  rfl

end Escape

namespace S3Backend

/-- The text of the block of a backend. -/
def lines (backend : S3Backend) : Text := linesText false [.block backend.block]

/-- The lines of the block of a backend. -/
def written (backend : S3Backend) : List Text :=
  ["  backend \"s3\" \x7b".toList,
    "    bucket  = ".toList ++ Escape.quoted backend.bucket,
    "    key     = ".toList ++ Escape.quoted backend.key,
    "    region  = ".toList ++ Escape.quoted backend.region,
    "    encrypt = ".toList ++ (settingNode (.flag backend.encrypt)).text,
    "  \x7d".toList]

theorem text_settingNode (t : Text) : (settingNode (.text t)).text = Escape.quoted t := by
  simp [settingNode, Node.text, Node.pieces, render]

theorem text_setting (width : Nat) (key : Text) (s : Setting) : (Structure.attr (settingAttribute width key s)).text =
    "    ".toList ++ (key ++ (List.replicate (width - key.length + 1) ' ' ++ ("= ".toList ++ (settingNode s).text))) := by
  have htext : (Structure.attr (settingAttribute width key s)).text = (settingAttribute width key s).text [] [] := rfl
  rw [htext, Attribute.text_eq]
  simp [settingAttribute, Attribute.rest, Decor.tail, Expr.ofNode, Decor.bare, margin]

theorem lines_eq (backend : S3Backend) : backend.lines = backend.written.flatMap fun l => l ++ ['\n'] := by
  have hinside : backend.block.body.inside = _ := Body.inside_of_lines rfl
  rw [lines, linesText_false, List.flatMap_singleton, Structure.text_block, Block.core, hinside, linesText_false]
  simp [block, settings, written, text_setting, text_settingNode, blockIdent, label, margin, Label.written, Escape.quoted]
  rfl

theorem all_isVisible_written {backend : S3Backend} {l : Text} (h : l ∈ backend.written) :
    l.all Escape.isVisible = true := by
  have hbehind : ∀ lead t, lead.all Escape.isVisible = true → (lead ++ Escape.quoted t).all Escape.isVisible = true := by
    intro lead t hlead
    rw [List.all_append, hlead, Escape.all_isVisible_quoted]
    rfl
  simp only [written, List.mem_cons, List.not_mem_nil, or_false] at h
  rcases h with rfl | rfl | rfl | rfl | rfl | rfl
  · decide
  · exact hbehind _ _ (by decide)
  · exact hbehind _ _ (by decide)
  · exact hbehind _ _ (by decide)
  · cases backend.encrypt with
    | true => decide
    | false => decide
  · decide

end S3Backend

/-! ## Strings and the text between quotes -/

namespace Grammar

theorem node_of_conditional {inner : Inner} {ctx : Context} {test e : Expr} {s r : Text}
    (h : conditional inner ctx test s = .ok e r) : e.node.kind = .conditional := by
  unfold conditional at h
  simp only [Reader.bind_iff, Reader.pure_iff] at h
  obtain ⟨_, _, -, _, _, -, _, _, -, _, _, -, _, _, -, rfl, -⟩ := h
  rfl

/-- A string is nothing but a term. -/
theorem extend_eq_string {inner : Inner} {conditionals : Bool} {n : Nat} {ctx : Context} {e e' : Expr} {s r : Text}
    (h : extend inner conditionals n ctx e s = .ok e' r) (hstring : e'.node.kind = .string) : e' = e := by
  induction n generalizing ctx e s with
  | zero => exact (Reader.pure_iff.mp h).1.symm
  | succ n ih =>
    unfold extend at h
    split at h
    · split at h
      · exact (Reply.ok.inj h).1.symm
      · obtain ⟨more, u, -, h⟩ := Reader.bind_eq_ok_iff.mp h
        rw [ih h] at hstring
        cases hstring
      · cases hstring.symm.trans (node_of_conditional h)
      · obtain ⟨op, u, -, h⟩ := Reader.bind_eq_ok_iff.mp h
        obtain ⟨right, v, -, h⟩ := Reader.bind_eq_ok_iff.mp h
        rw [ih h] at hstring
        cases hstring
    · cases h

theorem quotedText_of_term {inner : Inner} {ctx : Context} {s r t : Text} {e : Expr} {newlines : Bool}
    (h : term inner ctx ('"' :: s) = .ok (e, newlines) r) (hnode : e.node = .string t) :
    quotedText ('"' :: s) = .ok t r := by
  have hsign : signBeforeTerm ('"' :: s) = .soft := rfl
  have hsigns : Reader.many signBeforeTerm ('"' :: s) = .ok [] ('"' :: s) := by simp only [Reader.many, hsign]
  rw [term, Reader.bind_of_ok hsigns] at h
  obtain ⟨⟨f, ctx'⟩, u, hoperand, h⟩ := Reader.bind_eq_ok_iff.mp h
  obtain ⟨he, rfl⟩ := Reader.pure_iff.mp h
  obtain rfl : f = e := (Prod.mk.inj he).1
  have hquoted : (do return (Expr.ofNode (← quoted inner), ctx.newlines) : Reader (Expr × Bool)) ('"' :: s) =
      .ok (f, ctx') u := hoperand
  obtain ⟨node, v, hread, hquoted⟩ := Reader.bind_eq_ok_iff.mp hquoted
  obtain ⟨hf, rfl⟩ := Reader.pure_iff.mp hquoted
  obtain rfl : node = .string t := by
    rw [← hnode, ← (Prod.mk.inj hf).1]
    rfl
  rcases Reader.or_eq_ok_iff.mp hread with hread | ⟨-, hread⟩
  · obtain ⟨t', w, htext, hsame⟩ := Reader.bind_eq_ok_iff.mp hread
    obtain ⟨hnode', rfl⟩ := Reader.pure_iff.mp hsame
    cases hnode'
    exact htext
  · obtain ⟨es, w, -, hsame⟩ := Reader.bind_eq_ok_iff.mp hread
    cases (Reader.pure_iff.mp hsame).1

/-- A value behind a quote that is read as a string is read as the text between quotes. -/
theorem quotedText_of_value {i s r t : Text} {e : Expr} (hi : Inline i) (h : value (i ++ '"' :: s) = .ok e r)
    (hnode : e.node = .string t) : ∃ r', quotedText ('"' :: s) = .ok t r' := by
  rw [value, Reader.bind_of_ok (inline_append hi (blankEnd_cons (c := '"') rfl).inlineEnd)] at h
  obtain ⟨f, u, hf, h⟩ := Reader.bind_eq_ok_iff.mp h
  obtain ⟨rfl, rfl⟩ := Reader.pure_iff.mp h
  obtain ⟨⟨g, newlines⟩, v, hterm, hextend⟩ := Reader.bind_eq_ok_iff.mp hf
  have hstring : f.node = .string t := hnode
  obtain rfl := extend_eq_string hextend (by rw [hstring]; rfl)
  exact ⟨v, quotedText_of_term hterm hstring⟩

/-! ## Lines -/

variable {body : Reader Body} {used : List Text}

/-- What a line was read as is decided by what stands behind its identifier. -/
theorem structureLine_parts {s s1 s2 s3 r before ident identAfter : Text} {item : Structure} {ended : Bool}
    (hbefore : blank s = .ok before s1) (hident : identifier s1 = .ok ident s2) (hidentAfter : inline s2 = .ok identAfter s3)
    (h : structureLine body used s = .ok (item, ended) r) :
    ∃ build decor u, afterIdentifier body (used.contains ident) s1 ident identAfter s3 = .ok build u ∧
      item = build decor := by
  rw [structureLine, Reader.bind_of_ok hbefore] at h
  obtain ⟨build, u, hbuild, h⟩ := Reader.bind_eq_ok_iff.mp h
  change Reader.bind identifier _ s1 = _ at hbuild
  simp only [Reader.bind_iff, Reader.pure_iff] at h
  obtain ⟨after, _, -, _, _, -, hitem, -⟩ := h
  have hident' : Reader.bind identifier (fun ident => Reader.bind inline fun identAfter =>
      afterIdentifier body (used.contains ident) s1 ident identAfter) s1 = _ := Reader.bind_of_ok hident
  have hinline' : Reader.bind inline (fun identAfter =>
      afterIdentifier body (used.contains ident) s1 ident identAfter) s2 = _ := Reader.bind_of_ok hidentAfter
  rw [hident', hinline'] at hbuild
  exact ⟨build, .around before after, u, hbuild, (Prod.mk.inj hitem).1.symm⟩

theorem afterIdentifier_attribute {taken : Bool} {start key keyAfter s t r : Text} {build : Decor → Structure}
    (h : afterIdentifier body taken start key keyAfter t = .ok build r) (ht : t = '=' :: s) :
    taken = false ∧ ∃ e, value s = .ok e r ∧ build = fun decor => .attr ⟨decor, key, some keyAfter, e⟩ := by
  obtain ⟨c, s1, hpeek, h⟩ := Reader.bind_eq_ok_iff.mp h
  obtain ⟨hc, rfl⟩ := Reader.peek_eq_ok_iff.mp hpeek
  have hsign : c = '=' := by simpa [ht] using hc.symm
  rw [if_pos hsign] at h
  cases taken with
  | true => cases h
  | false =>
    obtain ⟨_, s2, hequals, h⟩ := Reader.bind_eq_ok_iff.mp h
    have hrest : '=' :: s = '=' :: s2 := ht.symm.trans (Reader.char_eq_ok_iff.mp hequals)
    obtain ⟨e, s3, he, h⟩ := Reader.bind_eq_ok_iff.mp h
    obtain ⟨rfl, rfl⟩ := Reader.pure_iff.mp h
    rw [(List.cons.inj hrest).2]
    exact ⟨rfl, e, he, rfl⟩

theorem attributeLine_eq_ok {r u : Text} {a : Attribute} {item : Structure} {ended : Bool} (hdecor : a.decor.Formed)
    (ha : a.Formed) (h : structureLine body used (a.text [] [] ++ r) = .ok (item, ended) u) :
    a.key ∉ used ∧ ∃ e v, value (a.value.decor.before.getD [' '] ++ (a.value.node.text ++ (a.rest [] ++ r))) = .ok e v ∧
      item.statement = .attr a.key e.node := by
  have htext : a.text [] [] ++ r = a.decor.before.getD [] ++ (a.key ++ (a.keyAfter.getD [' '] ++
      '=' :: (a.value.decor.before.getD [' '] ++ (a.value.node.text ++ (a.rest [] ++ r))))) := by
    rw [Attribute.text_eq]
    simp
  rw [htext] at h
  obtain ⟨build, decor, w, hbuild, rfl⟩ := structureLine_parts
    (blank_append hdecor.before (blankEnd_of_isIdentifier ha.key _))
    (identifier_append ha.key (avoids_of_blank ha.keyAfter.blank (Text.avoids_cons.mpr rfl)))
    (inline_append ha.keyAfter (blankEnd_cons (c := '=') rfl).inlineEnd) h
  obtain ⟨hfree, e, hvalue, rfl⟩ := afterIdentifier_attribute hbuild rfl
  refine ⟨fun hmem => ?_, e, w, hvalue, rfl⟩
  rw [← List.contains_iff_mem, hfree] at hmem
  cases hmem

/-- A body that begins with a line end has lines. -/
theorem body_of_blockBody {s r : Text} {b : Body} (h : blockBody body ('{' :: '\n' :: s) = .ok b r) :
    ∃ b' u, body s = .ok b' u ∧ b'.items = b.items := by
  simp only [blockBody, Reader.bind_iff, Reader.pure_iff, Reader.require_eq_ok_iff, Reader.char_eq_ok_iff,
    Reader.or_eq_ok_iff] at h
  obtain ⟨_, s1, hopen, b', s2, hb, _, s3, rfl, rfl, rfl⟩ := h
  obtain rfl := (List.cons.inj hopen).2
  rcases hb with ⟨before, t1, hbefore, _, t2, hnewline, b, t3, hb, rfl, rfl⟩ | ⟨-, hb⟩
  · have hread : trailing ('\n' :: s) = .ok [] ('\n' :: s) := trailing_append Inline.nil.trailing (.inr ⟨s, rfl⟩)
    obtain ⟨rfl, rfl⟩ := Reply.ok.inj (hread.symm.trans hbefore)
    have hend : newline ('\n' :: s) = .ok ['\n'] s := rfl
    obtain ⟨-, rfl⟩ := Reply.ok.inj (hend.symm.trans hnewline)
    exact ⟨b, _, hb, rfl⟩
  · have hinline : inline ('\n' :: s) = .ok [] ('\n' :: s) := inline_append (t := []) .nil rfl
    have hattribute : lineAttribute ('\n' :: s) = .soft :=
      (Reader.bind_of_ok hinline).trans (Reader.bind_of_soft (identifier_eq_soft (Text.avoids_cons.mpr rfl)))
    have hread : lineBody ('\n' :: s) = .ok ⟨⟨none, some []⟩, [], true, false⟩ ('\n' :: s) :=
      Reader.bind_ok (Reader.optional_eq_none_iff.mpr ⟨hattribute, rfl⟩) (Reader.bind_ok hinline rfl)
    obtain ⟨-, hrest⟩ := Reply.ok.inj (hread.symm.trans hb)
    cases hrest

theorem blockLine_eq_ok {r u : Text} {c : Block} {item : Structure} {ended : Bool} (hc : c.Formed)
    (hlegible : ∀ l ∈ c.labels, l.Legible) (hlines : c.body.oneLine = false) (hbefore : c.body.decor.before.getD [] = [])
    (h : structureLine body used ((Structure.block c).text ++ r) = .ok (item, ended) u) :
    ∃ b v, body (linesText false c.body.items ++ (c.body.decor.after.getD [] ++ '}' :: (c.decor.after.getD [] ++ r))) =
      .ok b v ∧ item.statement = .block c.ident (c.labels.map Label.plain) b.statements := by
  obtain ⟨hdecor, ⟨hname, hbehind, hapart, hlabels⟩, hformed⟩ := Block.formed_iff.mp hc
  have htext : (Structure.block c).text ++ r = c.decor.before.getD [] ++ (c.ident ++ (c.identAfter.getD [' '] ++
      (c.labels.flatMap Label.written ++ '{' :: '\n' :: (linesText false c.body.items ++
        (c.body.decor.after.getD [] ++ '}' :: (c.decor.after.getD [] ++ r)))))) := by
    rw [Structure.text_block, Block.core, Body.inside_of_lines (by rw [Body.isLine, hlines]), hbefore]
    simp
  rw [htext] at h
  obtain ⟨build, decor, w, hbuild, rfl⟩ := structureLine_parts (blank_append hdecor.before (blankEnd_of_isIdentifier hname _))
    (identifier_append hname (labels_avoids hbehind hapart hlabels _)) (inline_append hbehind (labels_inlineEnd hlabels _)) h
  rw [afterIdentifier_eq_bind hlabels hlegible] at hbuild
  obtain ⟨b, x, hbody, hbuild⟩ := Reader.bind_eq_ok_iff.mp hbuild
  obtain ⟨rfl, rfl⟩ := Reader.pure_iff.mp hbuild
  obtain ⟨b', v, hread, hitems⟩ := body_of_blockBody hbody
  refine ⟨b', v, hread, ?_⟩
  have hplain : (c.labels.map Label.reread).map Label.plain = c.labels.map Label.plain := by
    rw [List.map_map]
    exact List.map_congr_left fun l _ => Label.plain_reread l
  rw [Structure.statement, Block.statement_eq, Body.statements_eq, Body.statements_eq, hitems, hplain]

/-- The first of the structures that were read, and those behind it. -/
theorem structures_eq_cons {n : Nat} {ended last : Bool} {s r : Text} {item : Structure} {items : List Structure}
    (h : structures body n used ended s = .ok (item :: items, last) r) :
    ∃ m used' ended' u, structureLine body used s = .ok (item, ended') u ∧
      structures body m used' ended' u = .ok (items, last) r := by
  cases n with
  | zero => cases (Prod.mk.inj (Reader.pure_iff.mp h).1).1
  | succ n =>
    unfold structures at h
    cases hline : structureLine body used s with
    | soft => simp [hline] at h
    | hard c u => simp [hline] at h
    | ok x u =>
      obtain ⟨first, ended'⟩ := x
      simp only [hline] at h
      obtain ⟨⟨items', last'⟩, v, hrest, he⟩ := Reader.bind_eq_ok_iff.mp h
      cases he
      exact ⟨n, _, ended', u, rfl, hrest⟩

theorem structures_of_bodyLevel {n : Nat} {s r : Text} {b : Body} (h : bodyLevel n s = .ok b r) :
    ∃ m k last u, structures (bodyLevel m) k [] false s = .ok (b.items, last) u := by
  cases n with
  | zero => cases h
  | succ n =>
    obtain ⟨⟨items, last⟩, u, hread, h⟩ := Reader.bind_eq_ok_iff.mp h
    obtain ⟨after, v, -, h⟩ := Reader.bind_eq_ok_iff.mp h
    obtain ⟨rfl, rfl⟩ := Reader.pure_iff.mp h
    exact ⟨n, _, last, u, hread⟩

end Grammar

/-! ## Settings -/

/-- No sign of a template in a setting is read in another way than it is written. -/
def Setting.Legible : Setting → Prop
  | .text t => Escape.Legible t
  | .flag _ => True

namespace S3Backend

theorem legible_iff {b : S3Backend} : b.Legible ↔ ∀ p ∈ b.settings, p.2.Legible := by
  simp [Legible, settings, Setting.Legible]

theorem repeats_setting {w : Nat} {key : Text} {s : Setting} (h : s.Legible) : (settingAttribute w key s).value.Repeats := by
  cases s with
  | text t => exact repeats_text h
  | flag b => exact repeats_flag b

end S3Backend

namespace Grammar

open S3Backend (settingAttribute settingNode)

variable {body : Reader Body} {used : List Text}

theorem onward_lines {ss : List Structure} {tail : Text} (hss : ∀ s ∈ ss, s.Formed false) (htail : BodyEnd tail) :
    Onward (linesText false ss ++ tail) := by
  match ss with
  | [] => exact htail.onward
  | s :: ss =>
    rw [linesText_false_cons]
    exact onward_text (hss s (List.mem_cons_self ..)) _

/-- The lines of some settings. -/
def settingLines (w : Nat) (ps : List (Text × Setting)) : List Structure :=
  ps.map fun p => .attr (settingAttribute w p.1 p.2)

theorem legible_of_value {s : Setting} {e : Expr} {r u : Text} (h : value (' ' :: ((settingNode s).text ++ r)) = .ok e u)
    (hnode : e.node = settingNode s) : s.Legible := by
  cases s with
  | flag b => trivial
  | text t =>
    rw [S3Backend.text_settingNode] at h
    obtain ⟨r', hread⟩ := quotedText_of_value (inline_replicate 1) h hnode
    exact legible_of_quotedText hread

/-- Where the lines of settings are read as they are, every setting is legible: a line that is legible is read up to its
end, so the next line is read where it stands. -/
theorem legible_of_structures {w : Nat} {tail : Text} (htail : BodyEnd tail) {ps : List (Text × Setting)}
    (hps : ∀ s ∈ settingLines w ps, s.Formed false) {n : Nat} {ended last : Bool} {r : Text} {items : List Structure}
    (h : structures body n used ended (linesText false (settingLines w ps) ++ tail) = .ok (items, last) r)
    (hsame : items.map Structure.statement = (settingLines w ps).map Structure.statement) : ∀ p ∈ ps, p.2.Legible := by
  induction ps generalizing n used ended items with
  | nil => exact fun p hp => by cases hp
  | cons p ps ih =>
    obtain ⟨key, setting⟩ := p
    obtain ⟨hp, hps⟩ := List.forall_mem_cons.mp hps
    rw [settingLines, List.map_cons, ← settingLines, linesText_false_cons] at h
    match items with
    | [] => cases hsame
    | item :: items =>
      obtain ⟨hitem, hitems⟩ := List.cons.inj hsame
      obtain ⟨m, used', ended', u, hline, hrest⟩ := structures_eq_cons h
      obtain ⟨hkey, e, z, hvalue, hstatement⟩ := attributeLine_eq_ok hp.1 hp.2 hline
      have hlegible : setting.Legible :=
        legible_of_value hvalue (Statement.attr.inj (hstatement.symm.trans hitem)).2
      have hforward : structureLine body _ _ = _ := attributeLine_append hp.1 hp.2 (S3Backend.repeats_setting hlegible) hkey
        (.inr ⟨_, rfl, onward_lines hps htail⟩)
      obtain ⟨-, rfl⟩ := Reply.ok.inj (hline.symm.trans hforward)
      exact List.forall_mem_cons.mpr ⟨hlegible, ih hps hrest hitems⟩

end Grammar

/-! ## Documents -/

namespace S3Backend

theorem legible_of_document {backend : S3Backend} {b : Body} (h : document backend.lines = .ok b [])
    (hsame : b.statements = [Statement.s3 backend]) : backend.Legible := by
  obtain ⟨b', t, hlevel, hend⟩ := Reader.bind_eq_ok_iff.mp h
  split at hend
  · cases hend
    obtain ⟨m, k, last, u, hstructures⟩ := structures_of_bodyLevel hlevel
    rw [Body.statements_eq] at hsame
    obtain ⟨item, hitem, hstatement⟩ := List.map_eq_singleton_iff.mp hsame
    rw [hitem] at hstructures
    obtain ⟨-, -, ended, v, hline, -⟩ := structures_eq_cons hstructures
    have hlabels : ∀ l ∈ backend.block.labels, l.Legible := fun l hl => by
      obtain rfl := List.mem_singleton.mp hl
      exact (by decide : Escape.Legible label)
    obtain ⟨b, w, hbody, hblock⟩ := blockLine_eq_ok backend.formed_block hlabels rfl rfl hline
    obtain ⟨m, k, last, u, hsettings⟩ := structures_of_bodyLevel hbody
    have hinner : b.items.map Structure.statement = backend.block.body.items.map Structure.statement := by
      rw [← Body.statements_eq, (Statement.block.inj (hblock.symm.trans hstatement)).2.2]
      rfl
    exact legible_iff.mpr (legible_of_structures ⟨margin, _, blank_append (inline_replicate 2).blank (blankEnd_cons rfl),
      .inr ⟨_, rfl⟩⟩ (Body.formed_iff.mp (Block.formed_iff.mp backend.formed_block).2.2).2.1 hsettings hinner)
  · cases hend

end S3Backend

namespace Document

/-- The document that holds a backend and nothing else. -/
def ofBackend (path : Text) (backend : S3Backend) : Document := ⟨path, Body.empty.pushS3 backend⟩

theorem render_ofBackend (path : Text) (backend : S3Backend) : (ofBackend path backend).render = backend.lines := by
  rw [render, Body.text_eq]
  exact List.append_nil _

theorem readable_ofBackend (path : Text) {backend : S3Backend} (h : backend.Legible) : (ofBackend path backend).Readable := by
  have hempty : (⟨path, Body.empty⟩ : Document).Readable :=
    ⟨⟨fun s hs => (by cases hs), .nil, rfl, rfl, rfl, fun _ => rfl⟩, trivial⟩
  exact hempty.changeBody (Body.harmless_pushS3 h)

/-- A backend is written on six lines, none of which has a line end or another control character in it. Exactly a legible
backend is read back as it is. -/
theorem parse_render_ofBackend (path : Text) (backend : S3Backend) :
    (ofBackend path backend).render = backend.written.flatMap (fun l => l ++ ['\n']) ∧
    backend.written.length = 6 ∧ (∀ l ∈ backend.written, l.all Escape.isVisible = true) ∧
    ((∃ d, parse path (ofBackend path backend).render = .ok d ∧ d.body.statements = [Statement.s3 backend]) ↔
      backend.Legible) := by
  refine ⟨?_, rfl, fun l hl => S3Backend.all_isVisible_written hl, fun ⟨d, h, hsame⟩ => ?_, fun h => ?_⟩
  · rw [render_ofBackend, S3Backend.lines_eq]
  · rw [render_ofBackend] at h
    exact S3Backend.legible_of_document (read_of_parse h) hsame
  · refine ⟨_, (readable_ofBackend path h).parse_render path, ?_⟩
    rw [Body.statements_rereadDocument]
    rfl

/-- Settings of which the bucket has a marker right behind a sign that stands behind a marker. -/
def hidden : S3Backend := { S3Backend.standard with bucket := "$\x7b%$\x7bx\x7d".toList }

/-- The kind of the first value in the first block. -/
def firstKind? : List Statement → Option Kind
  | .block _ _ (.attr _ value :: _) :: _ => some value.kind
  | _ => none

/-- The second marker is written as it is, so the bucket becomes a template. -/
theorem not_parse_render_ofBackend_hidden : ∃ d, parse "main.tf".toList (ofBackend "main.tf".toList hidden).render = .ok d ∧
    firstKind? d.body.statements = some .template ∧ d.body.statements ≠ [Statement.s3 hidden] := by
  obtain ⟨d, h, hkind⟩ := exists_of_parse (fun d => firstKind? d.body.statements = some .template) "main.tf".toList
    (ofBackend "main.tf".toList hidden).render (by decide +kernel)
  refine ⟨d, h, hkind, fun hsame => ?_⟩
  rw [hsame] at hkind
  cases hkind

end Document
end BackendSwitch
