import BackendSwitch.Proofs.Reading.Expression
import BackendSwitch.Grammar.Body

/-! # The end of a line

Behind the value of an attribute the line ends, with blank text and perhaps a comment before its end. There every expression
ends, also one that would go on over line ends, because of what stands on the next lines. -/
namespace BackendSwitch.Grammar
set_option autoImplicit false

open Identifier (startsWith extendsWith)

/-! ## What stands behind a structure on its line -/

/-- A comment up to the end of the line, or none. -/
def OptionalComment (c : Text) : Prop := c = [] ∨ IsLineComment c

/-- Blank text within a line, with a comment at its end or none. -/
def Trailing (t : Text) : Prop := ∃ i c, t = i ++ c ∧ Inline i ∧ OptionalComment c

theorem Inline.trailing {t : Text} (h : Inline t) : Trailing t := ⟨t, [], (List.append_nil t).symm, h, .inl rfl⟩

/-- The end of a line that is written, or of the text. -/
def LineBreak (r : Text) : Prop := r = [] ∨ ∃ u, r = '\n' :: u

theorem LineBreak.lineEnd {r : Text} (h : LineBreak r) : ∃ u, lineEnd r = .ok r.isEmpty u ∧ u = r.drop 1 := by
  rcases h with rfl | ⟨u, rfl⟩
  · exact ⟨[], rfl, rfl⟩
  · exact ⟨u, rfl, rfl⟩

theorem LineBreak.atLineEnd {r : Text} (h : LineBreak r) : r = [] ∨ AtLineEnd r := h.imp_right .inl

theorem optionalComment_append {c r : Text} (hc : OptionalComment c) (hr : LineBreak r) :
    lineComment.optional (c ++ r) = .ok (if c = [] then none else some c) r := by
  rcases hc with rfl | hc
  · have hsoft : lineComment r = .soft := by
      rcases hr with rfl | ⟨u, rfl⟩
      · rfl
      · rfl
    exact Reader.optional_eq_none_iff.mpr ⟨hsoft, rfl⟩
  · have hne : c ≠ [] := by
      obtain ⟨u, -, rfl | rfl⟩ := hc
      · simp
      · simp
    rw [if_neg hne]
    exact Reader.optional_eq_some_iff.mpr (lineComment_append hc hr.atLineEnd)

theorem inlineEnd_comment {c r : Text} (hc : OptionalComment c) (hr : LineBreak r) : InlineEnd (c ++ r) := by
  rcases hc with rfl | ⟨u, -, rfl | rfl⟩
  · rcases hr with rfl | ⟨u, rfl⟩
    · exact blankEnd_nil.inlineEnd
    · exact Pause.inlineEnd (.inl ⟨'\n', u, rfl, .inl rfl⟩)
  · exact Pause.inlineEnd (.inl ⟨'#', _, rfl, .inr (.inr rfl)⟩)
  · exact Pause.inlineEnd (.inr ⟨_, rfl⟩)

theorem trailing_append {t r : Text} (ht : Trailing t) (hr : LineBreak r) : trailing (t ++ r) = .ok t r := by
  obtain ⟨i, c, rfl, hi, hc⟩ := ht
  rw [List.append_assoc]
  refine Reader.bind_ok (inline_append hi (inlineEnd_comment hc hr)) <| Reader.bind_ok (optionalComment_append hc hr) ?_
  split
  · next h => simp only [h]; rfl
  · rfl

theorem trailing_eq_ok {s t r : Text} (h : trailing s = .ok t r) :
    s = t ++ r ∧ Trailing t := by
  simp only [trailing, Reader.bind_iff, Reader.pure_iff] at h
  obtain ⟨i, s1, hi, c, s2, hc, rfl, rfl⟩ := h
  obtain ⟨rfl, hinline, -⟩ := inline_eq_ok hi
  cases c with
  | none =>
    obtain ⟨-, rfl⟩ := Reader.optional_eq_none_iff.mp hc
    exact ⟨by simp, i, [], by simp, hinline, .inl rfl⟩
  | some c =>
    obtain ⟨rfl, hc, -⟩ := lineComment_eq_ok (Reader.optional_eq_some_iff.mp hc)
    exact ⟨by simp, i, c, rfl, hinline, .inr hc⟩

/-! ## What is behind a value -/

/-- A text with another structure next, or with the end of the body or of the document. -/
def Onward (r : Text) : Prop :=
  ∃ b u, blank r = .ok b u ∧ (u = [] ∨ ∃ c v, u = c :: v ∧ (c = '}' ∨ startsWith c = true))

/-- The end of a line, perhaps with a comment in front of it, with more behind it. -/
structure LineOut (z : Text) : Prop where
  pause : z = [] ∨ Pause z
  onward : Onward z

theorem lineOut_append {c r : Text} (hc : OptionalComment c) (hr : r = [] ∨ ∃ u, r = '\n' :: u ∧ Onward u) :
    LineOut (c ++ r) := by
  have hbreak : LineBreak r := hr.imp_right fun ⟨u, hu, _⟩ => ⟨u, hu⟩
  have honward : Onward r := by
    rcases hr with rfl | ⟨u, rfl, b, v, hb, hv⟩
    · exact ⟨[], [], rfl, .inl rfl⟩
    · exact ⟨'\n' :: b, v, blankOf_of_space rfl hb, hv⟩
  rcases hc with rfl | hc
  · refine ⟨?_, honward⟩
    rcases hr with rfl | ⟨u, rfl, -⟩
    · exact .inl rfl
    · exact .inr (.inl ⟨'\n', u, rfl, .inl rfl⟩)
  · obtain ⟨b, v, hb, hv⟩ := honward
    have hcomment : (lineComment.or inlineComment) (c ++ r) = .ok c r :=
      Reader.or_of_ok (lineComment_append hc hbreak.atLineEnd)
    refine ⟨?_, c ++ b, v, blankOf_of_comment isVerbatim_anyComment (avoids_of_isLineComment hc rfl rfl) hcomment hb, hv⟩
    obtain ⟨u, -, rfl | rfl⟩ := hc
    · exact .inr (.inl ⟨'#', _, rfl, .inr (.inr rfl)⟩)
    · exact .inr (.inr ⟨_, rfl⟩)

theorem LineOut.avoids {z : Text} (h : LineOut z) : z.Avoids extendsWith := by
  rcases h.pause with rfl | ⟨c, u, rfl, rfl | rfl | rfl⟩ | ⟨u, rfl⟩
  · exact Text.avoids_nil
  · exact Text.avoids_cons.mpr rfl
  · exact Text.avoids_cons.mpr rfl
  · exact Text.avoids_cons.mpr rfl
  · exact Text.avoids_cons.mpr rfl

/-- Every expression ends where its line does. -/
theorem halts_of_lineOut {t z : Text} (ht : Blank t) (hz : LineOut z) : Halts true (t ++ z) := by
  intro newlines
  cases newlines with
  | true =>
    obtain ⟨b, u, hb, hu⟩ := hz.onward
    have hread : gap true (t ++ z) = .ok (t ++ b) u := blank_join ht hb
    have hstop : Stopper true u := by
      rcases hu with rfl | ⟨c, v, rfl, rfl | hc⟩
      · exact stopper_nil
      · exact stopper_closer rfl
      · exact stopper_of_startsWith hc
    exact ⟨⟨_, u, hread, hstop.noCall⟩, _, u, hread, hstop.noMore, hstop.stepFree⟩
  | false =>
    have hend : InlineEnd z := by
      rcases hz.pause with rfl | h
      · exact blankEnd_nil.inlineEnd
      · exact h.inlineEnd
    obtain ⟨a, u, ha, hu⟩ := inline_of_blank ht hend
    have hpause : u = [] ∨ Pause u := by
      rcases hu with ⟨rfl, -⟩ | hu
      · exact hz.pause
      · exact .inr hu
    rcases hpause with rfl | hpause
    · exact ⟨⟨a, [], ha, rfl⟩, a, [], ha, rfl, stopper_nil (c := true).stepFree⟩
    · exact ⟨⟨a, u, ha, hpause.noCall⟩, a, u, ha, hpause.continuation?, hpause.stepFree⟩

end BackendSwitch.Grammar
