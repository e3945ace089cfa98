import HostProfile.Machine
import HostProfile.Proofs.Text.Split
import Mathlib.Data.List.Infix

/-! The version is what stands in the first brackets that say `Version`, without the white space
around it. The output falls apart there in one way only, and later brackets have no say. -/
namespace HostProfile.WindowsVersion

open Text

/-- The output with its first marker, the text in the brackets that the marker opens, and the text
around them. -/
structure Bracketed (output before version after : String) : Prop where
  eq : output = before ++ "[Version " ++ version ++ "]" ++ after
  first : ¬ "[Version ".toList <:+: before.toList
  closed : ']' ∉ version.toList

variable {output before version after v : String}

/-- A bracket opens the marker and none stands in it. -/
theorem splitOnce?_marker_iff {cs a b : List Char} :
    splitOnce? "[Version ".toList cs = some (a, b) ↔
      a ++ "[Version ".toList ++ b = cs ∧ ¬ "[Version ".toList <:+: a :=
  splitOnce?_eq_some_iff_first (t := "Version ".toList) (by decide)

theorem splitOnce?_bracket_iff {cs a b : List Char} :
    splitOnce? [']'] cs = some (a, b) ↔ a ++ [']'] ++ b = cs ∧ ']' ∉ a := by
  rw [splitOnce?_eq_some_iff_first (by decide), List.singleton_infix_iff]

theorem bracketed_iff :
    Bracketed output before version after ↔
      ∃ rest, splitOnce? "[Version ".toList output.toList = some (before.toList, rest) ∧
        splitOnce? [']'] rest = some (version.toList, after.toList) := by
  simp only [splitOnce?_marker_iff, splitOnce?_bracket_iff]
  constructor
  · intro h
    refine ⟨version.toList ++ [']'] ++ after.toList, ⟨?_, h.first⟩, rfl, h.closed⟩
    rw [h.eq]
    simp [String.toList_append]
  · intro h
    obtain ⟨rest, ⟨hm, hf⟩, rfl, hc⟩ := h
    refine ⟨String.toList_injective ?_, hf, hc⟩
    rw [← hm]
    simp [String.toList_append]

theorem Bracketed.unique {before' version' after' : String}
    (h : Bracketed output before version after) (h' : Bracketed output before' version' after') :
    before = before' ∧ version = version' ∧ after = after' := by
  obtain ⟨rest, hm, hb⟩ := bracketed_iff.mp h
  obtain ⟨rest', hm', hb'⟩ := bracketed_iff.mp h'
  obtain ⟨hbefore, rfl⟩ := Prod.mk.inj (Option.some.inj (hm.symm.trans hm'))
  obtain ⟨hversion, hafter⟩ := Prod.mk.inj (Option.some.inj (hb.symm.trans hb'))
  exact ⟨String.toList_injective hbefore, String.toList_injective hversion,
    String.toList_injective hafter⟩

/-- The brackets decide: no version is there without them. -/
theorem ofOutput?_eq_some_iff :
    ofOutput? output = some v ↔ ∃ before version after, Bracketed output before version after ∧
      v.toList = trim version.toList ∧ v ≠ "" := by
  simp only [bracketed_iff]
  constructor
  · intro h
    obtain ⟨⟨p, rest⟩, hm, h⟩ := Option.bind_eq_some_iff.mp h
    obtain ⟨⟨w, q⟩, hb, h⟩ := Option.bind_eq_some_iff.mp h
    obtain ⟨hne, rfl⟩ := (nonEmpty?_eq_some_iff _ _).mp h
    refine ⟨.ofList p, .ofList w, .ofList q, ⟨rest, ?_, ?_⟩, ?_, hne⟩
    · simpa using hm
    · simpa using hb
    · simp
  · intro h
    obtain ⟨before, version, after, ⟨rest, hm, hb⟩, hv, hne⟩ := h
    have hs : nonEmpty? (.ofList (trim version.toList)) = some v := by
      rw [← hv, String.ofList_toList]
      exact (nonEmpty?_eq_some_iff v v).mpr ⟨hne, rfl⟩
    simp only [ofOutput?, hm, hb, Option.bind_eq_bind, Option.bind_some, hs]

theorem Bracketed.ofOutput?_eq_none_iff (h : Bracketed output before version after) :
    ofOutput? output = none ↔ AllBlank version.toList := by
  obtain ⟨rest, hm, hb⟩ := bracketed_iff.mp h
  have ho : ofOutput? output = nonEmpty? (.ofList (trim version.toList)) := by
    simp only [ofOutput?, hm, hb, Option.bind_eq_bind, Option.bind_some]
  rw [ho, nonEmpty?, ← trim_eq_nil_iff]
  simp

/-- There is no marker, the first one is not closed, or its brackets are blank. -/
theorem ofOutput?_eq_none_iff :
    ofOutput? output = none ↔
      ¬ "[Version ".toList <:+: output.toList ∨
      (∃ before rest, output = before ++ "[Version " ++ rest ∧
        ¬ "[Version ".toList <:+: before.toList ∧ ']' ∉ rest.toList) ∨
      ∃ before version after, Bracketed output before version after ∧ AllBlank version.toList := by
  constructor
  · intro h
    cases hm : splitOnce? "[Version ".toList output.toList with
    | none => exact .inl (splitOnce?_eq_none_iff.mp hm)
    | some parts =>
      obtain ⟨p, r⟩ := parts
      cases hb : splitOnce? [']'] r with
      | none =>
        obtain ⟨he, hf⟩ := splitOnce?_marker_iff.mp hm
        have hr : ']' ∉ r := by
          rwa [splitOnce?_eq_none_iff, List.singleton_infix_iff] at hb
        refine .inr (.inl ⟨.ofList p, .ofList r, String.toList_injective ?_, ?_, ?_⟩)
        · rw [← he]
          simp [String.toList_append]
        · simpa using hf
        · simpa using hr
      | some inner =>
        obtain ⟨w, q⟩ := inner
        have hbr : Bracketed output (.ofList p) (.ofList w) (.ofList q) :=
          bracketed_iff.mpr ⟨r, by simpa using hm, by simpa using hb⟩
        exact .inr (.inr ⟨_, _, _, hbr, hbr.ofOutput?_eq_none_iff.mp h⟩)
  · intro h
    rcases h with hn | ⟨before, rest, he, hf, hr⟩ | ⟨before, version, after, hb, hw⟩
    · simp only [ofOutput?, splitOnce?_eq_none_iff.mpr hn, Option.bind_eq_bind, Option.bind_none]
    · have hm : splitOnce? "[Version ".toList output.toList = some (before.toList, rest.toList) := by
        rw [splitOnce?_marker_iff, he]
        exact ⟨by simp [String.toList_append], hf⟩
      have hb : splitOnce? [']'] rest.toList = none := splitOnce?_eq_none hr []
      simp only [ofOutput?, hm, hb, Option.bind_eq_bind, Option.bind_some, Option.bind_none]
    · exact hb.ofOutput?_eq_none_iff.mpr hw

/-- The version is the trimmed text in the first brackets, which are found in one place only, and a
text without brackets after its first marker, or with blank ones, has none, whatever comes later. -/
theorem ofOutput?_exact (output : String) :
    (∀ v, ofOutput? output = some v ↔ ∃ before version after,
      Bracketed output before version after ∧ v.toList = trim version.toList ∧ v ≠ "") ∧
    (∀ before version after before' version' after', Bracketed output before version after →
      Bracketed output before' version' after' →
        before = before' ∧ version = version' ∧ after = after') ∧
    (∀ v, ofOutput? output = some v →
      v ≠ "" ∧ Trimmed v.toList ∧ ']' ∉ v.toList ∧ v.toList <:+: output.toList) ∧
    (ofOutput? output = none ↔
      ¬ "[Version ".toList <:+: output.toList ∨
      (∃ before rest, output = before ++ "[Version " ++ rest ∧
        ¬ "[Version ".toList <:+: before.toList ∧ ']' ∉ rest.toList) ∨
      ∃ before version after,
        Bracketed output before version after ∧ AllBlank version.toList) := by
  refine ⟨fun v => ofOutput?_eq_some_iff, fun _ _ _ _ _ _ h h' => h.unique h', fun v hv => ?_,
    ofOutput?_eq_none_iff⟩
  obtain ⟨before, version, after, hb, ht, hne⟩ := ofOutput?_eq_some_iff.mp hv
  rw [ht]
  refine ⟨hne, trimmed_trim _, fun hc => hb.closed (mem_of_mem_trim hc), ?_⟩
  have hv : version.toList <:+: output.toList :=
    ⟨before.toList ++ "[Version ".toList, "]".toList ++ after.toList, by
      rw [hb.eq]
      simp [String.toList_append]⟩
  obtain ⟨a, b, -, -, he⟩ := trim_decomposition version.toList
  exact List.IsInfix.trans ⟨a, b, he.symm⟩ hv

/-- A marker that is cut short stands before the first whole one, and another one after it. -/
theorem ofOutput?_exact_two_markers :
    let output := "Windows [Vers[Version  10.0.22631 ] [Version 11]"
    Bracketed output "Windows [Vers" " 10.0.22631 " " [Version 11]" ∧
      ofOutput? output = some "10.0.22631" ∧
      Trimmed "10.0.22631".toList ∧
      ∀ before version after, Bracketed output before version after →
        before = "Windows [Vers" ∧ version = " 10.0.22631 " ∧ after = " [Version 11]" := by
  intro output
  have hb : Bracketed output "Windows [Vers" " 10.0.22631 " " [Version 11]" :=
    ⟨by decide +kernel, by decide +kernel, by decide +kernel⟩
  obtain ⟨hs, hu, hp, -⟩ := ofOutput?_exact output
  have hv : ofOutput? output = some "10.0.22631" :=
    (hs _).mpr ⟨_, _, _, hb, by decide +kernel, by decide⟩
  exact ⟨hb, hv, (hp _ hv).2.1, fun _ _ _ h => hu _ _ _ _ _ _ h hb⟩

example : ofOutput? "[Version ] [Version 11]" = none := by decide +kernel

end HostProfile.WindowsVersion
