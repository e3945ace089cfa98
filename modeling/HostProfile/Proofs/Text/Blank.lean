import HostProfile.Text.Basic
import Mathlib.Data.List.DropRight

/-! Trimming removes the blanks at both ends and nothing else. -/
namespace HostProfile.Text

def AllBlank (cs : List Char) : Prop :=
  ∀ c ∈ cs, isBlank c = true

/-- No character of a text is a blank. -/
def NoBlank (s : String) : Prop :=
  ∀ c ∈ s.toList, isBlank c = false

/-- Neither end is a blank. -/
def Trimmed (cs : List Char) : Prop :=
  (∀ c ∈ cs.head?, isBlank c = false) ∧ (∀ c ∈ cs.getLast?, isBlank c = false)

-- The instances are named: there is a search through all characters as well.
instance (cs : List Char) : Decidable (AllBlank cs) :=
  List.decidableBAll (fun c => isBlank c = true) cs

instance (s : String) : Decidable (NoBlank s) :=
  List.decidableBAll (fun c => isBlank c = false) s.toList

instance (cs : List Char) : Decidable (Trimmed cs) :=
  @instDecidableAnd _ _ (Option.decidableForallMem _) (Option.decidableForallMem _)

theorem trimStart_append {a : List Char} (ha : AllBlank a) (cs : List Char) :
    trimStart (a ++ cs) = trimStart cs :=
  List.dropWhile_append_of_pos ha

theorem trimEnd_append {b : List Char} (hb : AllBlank b) (cs : List Char) :
    trimEnd (cs ++ b) = trimEnd cs := by
  have hr : ∀ c ∈ b.reverse, isBlank c = true := fun c hc => hb c (List.mem_reverse.mp hc)
  unfold trimEnd
  rw [List.reverse_append, List.dropWhile_append_of_pos hr]

theorem trimStart_eq_nil_iff (cs : List Char) : trimStart cs = [] ↔ AllBlank cs :=
  List.dropWhile_eq_nil_iff

/-- Blanks around a text do not show after trimming. -/
theorem trim_append {a b : List Char} (ha : AllBlank a) (hb : AllBlank b) (cs : List Char) :
    trim (a ++ cs ++ b) = trim cs := by
  unfold trim
  rw [List.append_assoc, trimStart_append ha]
  have hs : trimStart (cs ++ b) = if (trimStart cs).isEmpty then trimStart b
      else trimStart cs ++ b := List.dropWhile_append
  rw [hs]
  split
  · next he =>
    rw [List.isEmpty_iff.mp he, (trimStart_eq_nil_iff b).mpr hb]
  · exact trimEnd_append hb _

theorem trim_append_left {a : List Char} (ha : AllBlank a) (cs : List Char) :
    trim (a ++ cs) = trim cs := by
  simpa using trim_append ha (b := []) (by simp [AllBlank]) cs

theorem trim_append_right {b : List Char} (hb : AllBlank b) (cs : List Char) :
    trim (cs ++ b) = trim cs := by
  simpa using trim_append (a := []) (by simp [AllBlank]) hb cs

theorem trim_decomposition (cs : List Char) :
    ∃ a b, AllBlank a ∧ AllBlank b ∧ cs = a ++ trim cs ++ b := by
  refine ⟨cs.takeWhile isBlank, (trimStart cs).rtakeWhile isBlank,
    fun c hc => List.mem_takeWhile_imp hc, fun c hc => List.mem_rtakeWhile_imp hc, ?_⟩
  have hs : cs.takeWhile isBlank ++ trimStart cs = cs := List.takeWhile_append_dropWhile
  have he : trim cs ++ (trimStart cs).rtakeWhile isBlank = trimStart cs :=
    List.rdropWhile_append_rtakeWhile
  rw [List.append_assoc, he, hs]

theorem trimmed_trim (cs : List Char) : Trimmed (trim cs) := by
  constructor
  · intro c hc
    obtain ⟨r, hr⟩ := List.head?_eq_some_iff.mp hc
    obtain ⟨t, ht⟩ : trim cs <+: trimStart cs := List.rdropWhile_prefix isBlank _
    have hd : cs.dropWhile isBlank = c :: (r ++ t) := by
      rw [← List.cons_append, ← hr]
      exact ht.symm
    have hn := List.head?_dropWhile_not isBlank cs
    rw [hd] at hn
    exact hn
  · intro c hc
    have hne : trim cs ≠ [] := by
      intro h
      simp [h] at hc
    have hl := List.rdropWhile_last_not isBlank (trimStart cs) hne
    have hc' : (trim cs).getLast hne = c := by
      rw [List.getLast?_eq_some_getLast hne] at hc
      exact Option.some.inj hc
    change ¬ isBlank ((trim cs).getLast hne) = true at hl
    rw [hc'] at hl
    simpa using hl

theorem trim_of_trimmed {cs : List Char} (h : Trimmed cs) : trim cs = cs := by
  have hs : trimStart cs = cs := by
    cases cs with
    | nil => rfl
    | cons c r => simp [trimStart, h.1 c (by simp)]
  have he : cs.rdropWhile isBlank = cs := by
    rw [List.rdropWhile_eq_self_iff]
    intro hne hb
    have hl := h.2 (cs.getLast hne) (by simp [List.getLast?_eq_some_getLast hne])
    rw [hl] at hb
    cases hb
  unfold trim
  rw [hs]
  exact he

@[simp] theorem trim_trim (cs : List Char) : trim (trim cs) = trim cs :=
  trim_of_trimmed (trimmed_trim cs)

theorem trim_eq_nil_iff (cs : List Char) : trim cs = [] ↔ AllBlank cs := by
  constructor
  · intro h
    obtain ⟨a, b, ha, hb, hcs⟩ := trim_decomposition cs
    rw [hcs, h, List.append_nil]
    intro c hc
    exact (List.mem_append.mp hc).elim (ha c) (hb c)
  · intro h
    simpa [trim, trimStart, trimEnd] using trim_append_left h []

theorem trimmed_of_noBlank {s : String} (h : NoBlank s) : Trimmed s.toList :=
  ⟨fun c hc => h c (List.mem_of_mem_head? hc), fun c hc => h c (List.mem_of_getLast? hc)⟩

theorem mem_of_mem_trim {c : Char} {cs : List Char} (h : c ∈ trim cs) : c ∈ cs := by
  obtain ⟨a, b, -, -, hcs⟩ := trim_decomposition cs
  rw [hcs]
  simp [h]

theorem mem_trim {c : Char} {cs : List Char} (h : c ∈ cs) (hb : isBlank c = false) :
    c ∈ trim cs := by
  obtain ⟨a, b, ha, hb', hcs⟩ := trim_decomposition cs
  rw [hcs, List.mem_append, List.mem_append] at h
  rcases h with (h | h) | h
  · simp [ha c h] at hb
  · exact h
  · simp [hb' c h] at hb

theorem nonEmpty?_eq_some_iff (s t : String) : nonEmpty? s = some t ↔ s ≠ "" ∧ s = t := by
  by_cases h : s = "" <;> simp [nonEmpty?, h]

end HostProfile.Text
