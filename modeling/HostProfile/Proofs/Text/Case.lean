import HostProfile.Proofs.Text.Blank
import HostProfile.Text.Basic
import Mathlib

/-! A change of case moves letters only, and a second one of the same kind moves nothing. -/
namespace HostProfile.Text

theorem lower_lower (s : String) : lower (lower s) = lower s := by
  simp [lower, Function.comp_def]

theorem upper_upper (s : String) : upper (upper s) = upper s := by
  simp [upper, Function.comp_def]

theorem lower_eq_empty_iff (s : String) : lower s = "" ↔ s = "" := by
  rw [← String.toList_eq_nil_iff, ← String.toList_eq_nil_iff]
  simp [lower]

theorem upper_eq_empty_iff (s : String) : upper s = "" ↔ s = "" := by
  rw [← String.toList_eq_nil_iff, ← String.toList_eq_nil_iff]
  simp [upper]

private theorem mem_map_of_isAlpha_eq_false {f : Char → Char} {x : Char} (hx : x.isAlpha = false)
    (hf : ∀ c, (f c).isAlpha = c.isAlpha) (hid : ∀ c, c.isAlpha = false → f c = c)
    (cs : List Char) : x ∈ cs.map f ↔ x ∈ cs := by
  constructor
  · intro h
    obtain ⟨c, hc, rfl⟩ := List.mem_map.mp h
    rw [hf] at hx
    rwa [hid c hx]
  · intro h
    exact List.mem_map.mpr ⟨x, h, hid x hx⟩

theorem mem_toList_lower {x : Char} (hx : x.isAlpha = false) (s : String) :
    x ∈ (lower s).toList ↔ x ∈ s.toList := by
  rw [lower, String.toList_ofList]
  refine mem_map_of_isAlpha_eq_false hx Char.isAlpha_toLower_eq_isAlpha (fun c hc => ?_) _
  have hu : ¬ c.isUpper = true := by
    intro hu
    simp [Char.isAlpha, hu] at hc
  exact Char.toLower_eq_of_not_isUpper hu

theorem mem_toList_upper {x : Char} (hx : x.isAlpha = false) (s : String) :
    x ∈ (upper s).toList ↔ x ∈ s.toList := by
  rw [upper, String.toList_ofList]
  refine mem_map_of_isAlpha_eq_false hx Char.isAlpha_toUpper_eq_isAlpha (fun c hc => ?_) _
  have hl : ¬ c.isLower = true := by
    intro hl
    simp [Char.isAlpha, hl] at hc
  exact Char.toUpper_eq_of_not_isLower hl

theorem isAlpha_of_isBlank {c : Char} (h : isBlank c = true) : c.isAlpha = false := by
  have ha : ¬ c.isAlpha = true := by
    intro ha
    have hc : (65 ≤ c.toNat ∧ c.toNat ≤ 90) ∨ (97 ≤ c.toNat ∧ c.toNat ≤ 122) := by
      simpa [Char.isAlpha, Char.isUpper, Char.isLower, UInt32.le_iff_toNat_le] using ha
    simp only [isBlank, Bool.or_eq_true, Bool.and_eq_true, decide_eq_true_eq, beq_iff_eq] at h
    omega
  simpa using ha

theorem NoBlank.lower {s : String} (h : NoBlank s) : NoBlank (lower s) := by
  intro c hc
  by_contra hb
  have hb' : isBlank c = true := by simpa using hb
  exact hb (h c ((mem_toList_lower (isAlpha_of_isBlank hb') s).mp hc))

theorem NoBlank.upper {s : String} (h : NoBlank s) : NoBlank (upper s) := by
  intro c hc
  by_contra hb
  have hb' : isBlank c = true := by simpa using hb
  exact hb (h c ((mem_toList_upper (isAlpha_of_isBlank hb') s).mp hc))

end HostProfile.Text
