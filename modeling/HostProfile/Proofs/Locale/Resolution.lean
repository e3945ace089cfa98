import HostProfile.Locale.Name
import HostProfile.Proofs.Locale.Decoding

/-! The locale that the environment names. A variable is passed over if it is empty, and a name is
read without the blanks around it: a value of blanks only is taken, but names no locale, and hides
what the weaker variables say. -/
namespace HostProfile.Locale

open Text

namespace Category

variable (category : Category) (lookup : String → Option String)

/-- The value of the first variable that passes a test; all stronger ones are unset or fail it. -/
def First (p : String → Prop) (value : String) : Prop :=
  ∃ stronger name weaker, category.variableNames = stronger ++ name :: weaker ∧
    lookup name = some value ∧ p value ∧ ∀ n ∈ stronger, ∀ v, lookup n = some v → ¬ p v

/-- The value of the first variable that passes a test, or `C` where there is none. -/
def Chosen (p : String → Prop) (value : String) : Prop :=
  category.First lookup p value ∨
    (∀ n ∈ category.variableNames, ∀ v, lookup n = some v → ¬ p v) ∧ value = "C"

/-- The value names a locale: some character of it is no blank. -/
def Usable (value : String) : Prop :=
  ¬ AllBlank value.toList

instance : DecidablePred Usable := fun value =>
  inferInstanceAs (Decidable (¬ AllBlank value.toList))

/-- The first value that is not empty names no locale. -/
def Hidden : Prop :=
  ∃ value, category.First lookup (· ≠ "") value ∧ ¬ Usable value

/-! ### The first value -/

/-- `First`, computed. -/
def first? (p : String → Prop) [DecidablePred p] : Option String :=
  category.variableNames.findSome? fun n => (lookup n).filter fun v => p v

variable {category lookup} {p : String → Prop} [DecidablePred p]

theorem filter_eq_none_iff (s? : Option String) :
    s?.filter (fun v => p v) = none ↔ ∀ v, s? = some v → ¬ p v := by
  simp [Option.filter_eq_none_iff]

theorem first?_eq_some_iff (value : String) :
    category.first? lookup p = some value ↔ category.First lookup p value := by
  simp only [first?, First, List.findSome?_eq_some_iff, filter_eq_none_iff,
    Option.filter_eq_some_iff, decide_eq_true_eq, and_assoc]

theorem first?_eq_none_iff :
    category.first? lookup p = none ↔
      ∀ n ∈ category.variableNames, ∀ v, lookup n = some v → ¬ p v := by
  simp only [first?, List.findSome?_eq_none_iff, filter_eq_none_iff]

theorem chosen_iff (value : String) :
    category.Chosen lookup p value ↔ (category.first? lookup p).getD "C" = value := by
  rw [Chosen, ← first?_eq_some_iff, ← first?_eq_none_iff]
  cases category.first? lookup p <;> simp [eq_comm]

/-- Exactly one value is chosen. -/
theorem existsUnique_chosen : ∃! value, category.Chosen lookup p value := by
  simp only [chosen_iff, existsUnique_eq']

end Category

open Category

variable {category : Category} {lookup : String → Option String}

/-! ### Names -/

theorem resolveName_eq (category : Category) (lookup : String → Option String) :
    resolveName category lookup = (category.first? lookup (· ≠ "")).getD "C" := by
  have hp : (fun v : String => !v.isEmpty) = fun v => decide (v ≠ "") := by
    funext v
    by_cases h : v = "" <;> simp [h]
  rw [resolveName, hp, ← List.head?_filter, List.filter_filterMap, List.head?_filterMap, first?]

theorem chosen_resolveName (category : Category) (lookup : String → Option String) :
    category.Chosen lookup (· ≠ "") (resolveName category lookup) :=
  (chosen_iff _).mpr (resolveName_eq category lookup).symm

theorem resolveName_of_first {value : String} (h : category.First lookup (· ≠ "") value) :
    resolveName category lookup = value := by
  rw [resolveName_eq, (first?_eq_some_iff value).mpr h, Option.getD_some]

theorem usable_posix : Usable "C" := by
  decide

theorem ne_empty_of_usable {value : String} (h : Usable value) : value ≠ "" := by
  rintro rfl
  exact h fun c hc => by cases hc

theorem usable_of_chosen {name : String} (h : category.Chosen lookup Usable name) :
    Usable name := by
  rcases h with ⟨-, -, -, -, -, hu, -⟩ | ⟨-, rfl⟩
  · exact hu
  · exact usable_posix

theorem parse?_eq_none_iff_not_usable (name : String) : parse? name = none ↔ ¬ Usable name := by
  rw [parse?_eq_none_iff, Usable, not_not]

/-- No locale is found exactly where a blank value stands before all others. -/
theorem resolve?_eq_none_iff : resolve? category lookup = none ↔ category.Hidden lookup := by
  rw [resolve?, parse?_eq_none_iff_not_usable]
  constructor
  · intro hu
    rcases chosen_resolveName category lookup with hf | ⟨-, hc⟩
    · exact ⟨_, hf, hu⟩
    · rw [hc] at hu
      exact absurd usable_posix hu
  · rintro ⟨value, hf, hu⟩
    rwa [resolveName_of_first hf]

/-- Unless a blank value hides it, the name found is the first that is not blank. -/
theorem resolveName_of_not_hidden {name : String} (h : category.Chosen lookup Usable name)
    (hh : ¬ category.Hidden lookup) : resolveName category lookup = name := by
  -- what is passed over because it is empty is blank as well
  have hr : category.Chosen lookup Usable (resolveName category lookup) := by
    rcases chosen_resolveName category lookup with hf | ⟨hn, hc⟩
    · have hu : Usable (resolveName category lookup) := by
        by_contra hu
        exact hh ⟨_, hf, hu⟩
      obtain ⟨stronger, n, weaker, hs, hl, -, hno⟩ := hf
      exact .inl ⟨stronger, n, weaker, hs, hl, hu,
        fun m hm v hv hu' => hno m hm v hv (ne_empty_of_usable hu')⟩
    · exact .inr ⟨fun m hm v hv hu => hn m hm v hv (ne_empty_of_usable hu), hc⟩
  exact existsUnique_chosen.unique hr h

/-- The first name that is not blank is one of a locale, and it is the one that is read unless a
blank value hides it; then no locale is found at all. -/
theorem resolve?_exact (category : Category) (lookup : String → Option String) :
    (∃! name, category.Chosen lookup Usable name) ∧
    (resolve? category lookup = none ↔ category.Hidden lookup) ∧
    ∀ name, category.Chosen lookup Usable name →
      parse? name ≠ none ∧
      (resolve? category lookup = parse? name ↔ ¬ category.Hidden lookup) := by
  refine ⟨existsUnique_chosen, resolve?_eq_none_iff, fun name hn => ?_⟩
  have hp : parse? name ≠ none := by
    rw [Ne, parse?_eq_none_iff_not_usable, not_not]
    exact usable_of_chosen hn
  refine ⟨hp, fun he hh => ?_, fun hh => ?_⟩
  · rw [resolve?_eq_none_iff.mpr hh] at he
    exact hp he.symm
  · rw [resolve?, resolveName_of_not_hidden hn hh]

/-- An empty value is passed over, and the blank in front of a name does no harm. -/
theorem resolve?_exact_empty_before_padded :
    let lookup : String → Option String := fun name =>
      if name = "LC_ALL" then some "" else if name = "LANG" then some " de_DE.UTF-8" else none
    Category.display.Chosen lookup Usable " de_DE.UTF-8" ∧ ¬ Category.display.Hidden lookup ∧
      resolve? .display lookup = some ⟨some "de", none, some "DE", none, some "UTF-8"⟩ := by
  intro lookup
  obtain ⟨-, hn, hc⟩ := resolve?_exact .display lookup
  have hu : Category.display.Chosen lookup Usable " de_DE.UTF-8" := (chosen_iff _).mpr (by decide)
  have hp : parse? " de_DE.UTF-8" = some ⟨some "de", none, some "DE", none, some "UTF-8"⟩ := by
    decide
  have hh : ¬ Category.display.Hidden lookup := by
    rw [← hn]
    decide
  exact ⟨hu, hh, ((hc _ hu).2.mpr hh).trans hp⟩

/-- A blank hides a usable name. -/
theorem resolve?_of_blank :
    let lookup : String → Option String := fun name =>
      if name = "LC_ALL" then some " " else if name = "LANG" then some "de_DE.UTF-8" else none
    Category.format.Chosen lookup Usable "de_DE.UTF-8" ∧
      parse? "de_DE.UTF-8" = some ⟨some "de", none, some "DE", none, some "UTF-8"⟩ ∧
      resolve? .format lookup = none := by
  intro lookup
  exact ⟨(chosen_iff _).mpr (by decide), by decide, by decide⟩

end HostProfile.Locale
