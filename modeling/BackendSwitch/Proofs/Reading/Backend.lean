import BackendSwitch.Proofs.Reading.Body

/-! # The block of a backend is read from its text

Its settings are strings in quotes and a flag. Nothing but a sign of a template in a string can keep it from being read as
it is. -/
namespace BackendSwitch
set_option autoImplicit false

open Grammar

/-! ## Values of settings -/

namespace Grammar

theorem expression_quoted {t : Text} (h : Escape.Legible t) :
    expression (Escape.quoted t) = .ok (.ofNode (.string t)) [] := by
  have hquoted : ∀ inner, quoted inner (Escape.quoted t) = .ok (.string t) [] := by
    intro inner
    have htext := quotedText_quoted h []
    rw [List.append_nil] at htext
    exact Reader.or_of_ok (Reader.bind_ok htext rfl)
  have hsign : signBeforeTerm (Escape.quoted t) = .soft := rfl
  have hsigns : Reader.many signBeforeTerm (Escape.quoted t) = .ok [] (Escape.quoted t) := by
    simp only [Reader.many, hsign]
  have hterm : ∀ inner, term inner .fresh (Escape.quoted t) = .ok (.ofNode (.string t), Context.fresh.newlines) [] :=
    fun inner => Reader.bind_ok hsigns (Reader.bind_ok (operand_of_quoted (hquoted inner)) rfl)
  exact Reader.bind_ok (hterm _) rfl

theorem expression_bool (b : Bool) : ∃ s, expression s = .ok (.ofNode (.bool b)) [] := by
  cases b with
  | true => exact ⟨['t', 'r', 'u', 'e'], rfl⟩
  | false => exact ⟨['f', 'a', 'l', 's', 'e'], rfl⟩

end Grammar

/-! ## The block -/

namespace S3Backend

/-- No setting has a sign of a template in it that is read in another way than it is written. -/
def Legible (b : S3Backend) : Prop := Escape.Legible b.bucket ∧ Escape.Legible b.key ∧ Escape.Legible b.region

instance (b : S3Backend) : Decidable b.Legible := inferInstanceAs (Decidable (_ ∧ _ ∧ _))

theorem repeats_text {t : Text} (h : Escape.Legible t) : (Expr.ofNode (settingNode (.text t))).Repeats :=
  Expr.repeats_of_isRead ⟨_, _, _, expression_quoted h, rfl, rfl⟩ ⟨h, rfl⟩

theorem repeats_flag (b : Bool) : (Expr.ofNode (settingNode (.flag b))).Repeats := by
  obtain ⟨s, hs⟩ := expression_bool b
  exact Expr.repeats_of_isRead ⟨_, s, _, hs, rfl, rfl⟩ ⟨trivial, rfl⟩

theorem each_block {backend : S3Backend} (h : backend.Legible) : backend.block.Each Expr.Repeats Label.Legible := by
  obtain ⟨hbucket, hkey, hregion⟩ := h
  refine Block.each_iff.mpr ⟨fun l hl => ?_, Body.each_iff.mpr fun s hs => ?_⟩
  · obtain rfl := List.mem_singleton.mp hl
    exact (by decide : Escape.Legible label)
  · obtain ⟨⟨key, setting⟩, hmem, rfl⟩ := List.mem_map.mp hs
    simp only [settings, List.mem_cons, Prod.mk.injEq, List.not_mem_nil, or_false] at hmem
    rcases hmem with ⟨-, rfl⟩ | ⟨-, rfl⟩ | ⟨-, rfl⟩ | ⟨-, rfl⟩
    · exact repeats_text hbucket
    · exact repeats_text hkey
    · exact repeats_text hregion
    · exact repeats_flag _

theorem legible_standard : standard.Legible := by decide

end S3Backend
end BackendSwitch
