import HostProfile.Proofs.Collect.NativeEncoding
import HostProfile.Proofs.Record.Properties

/-! Hosts whose environment names one locale for every purpose. Both locales of such a host are the
same, only the variables that name it count, and the flat view has no key of a format locale. -/
namespace HostProfile

open Text

namespace Host

/-- The variable has a text that is not empty. -/
def SetTo (h : Host) (key s : String) : Prop :=
  h.value? key = some (Utf8.encode s.toList) ∧ s ≠ ""

/-- The variable is unset, empty or no text. -/
def Silent (h : Host) (key : String) : Prop :=
  ∀ s, ¬ h.SetTo key s

/-- One locale is named for every purpose: by the variable that is stronger than all others, or by
no variable that is for one purpose only. -/
inductive Undivided (h : Host) : Prop
  | all {s : String} (hs : h.SetTo "LC_ALL" s)
  | lang (hc : h.Silent "LC_CTYPE") (hm : h.Silent "LC_MESSAGES")

/-- What a variable says, if it is not passed over. -/
def said? (h : Host) (key : String) : Option String :=
  (h.textValue? key).filter fun s => s ≠ ""

theorem said?_eq_some_iff {h : Host} {key s : String} : h.said? key = some s ↔ h.SetTo key s := by
  have ht : h.textValue? key = some s ↔ h.value? key = some (Utf8.encode s.toList) := by
    simp only [textValue?, Option.map_eq_some_iff, Option.bind_eq_some_iff, Utf8.decode?_eq_some_iff]
    constructor
    · intro hh
      obtain ⟨cs, ⟨bytes, hv, rfl⟩, rfl⟩ := hh
      rw [hv, String.toList_ofList]
    · intro hv
      exact ⟨s.toList, ⟨_, hv, rfl⟩, String.ofList_toList⟩
  simp [said?, SetTo, Option.filter_eq_some_iff, ht]

theorem said?_eq_none_iff {h : Host} {key : String} : h.said? key = none ↔ h.Silent key := by
  simp only [Option.eq_none_iff_forall_ne_some, Ne, said?_eq_some_iff, Silent]

theorem said?_congr {h k : Host} {key : String} (hv : h.value? key = k.value? key) :
    h.said? key = k.said? key := by
  rw [said?, said?, textValue?, textValue?, hv]

end Host

/-! ### Naming a locale -/

namespace Locale.Category

/-- The variable that is for this purpose only. -/
def ownVariable : Category → String
  | .format => "LC_CTYPE"
  | .display => "LC_MESSAGES"

theorem variableNames_eq (category : Category) :
    category.variableNames = ["LC_ALL", category.ownVariable, "LANG"] := by
  cases category <;> rfl

end Locale.Category

namespace Collect

variable {h k : Host} {category category' : Locale.Category}

/-- A purpose without a name of its own leaves the say to the other two variables. -/
theorem locale_of_silent (hs : h.Silent category.ownVariable) :
    locale h category =
      (Locale.parse? ((h.said? "LC_ALL" <|> h.said? "LANG").getD "C")).getD {} := by
  have hf : category.first? h.textValue? (· ≠ "") =
      ["LC_ALL", category.ownVariable, "LANG"].findSome? h.said? := by
    rw [Locale.Category.first?, Locale.Category.variableNames_eq]
    rfl
  have ho : ["LC_ALL", category.ownVariable, "LANG"].findSome? h.said? =
      (h.said? "LC_ALL" <|> h.said? "LANG") := by
    simp only [List.findSome?_cons, List.findSome?_nil, Host.said?_eq_none_iff.mpr hs]
    cases h.said? "LC_ALL" <;> cases h.said? "LANG" <;> rfl
  rw [locale, Locale.resolve?, Locale.resolveName_eq, hf, ho]

theorem locale_format_eq_display (hu : h.Undivided) : locale h .format = locale h .display := by
  cases hu with
  | all hs => rw [locale_of_lcAll hs.2 hs.1, locale_of_lcAll hs.2 hs.1]
  | lang hc hm =>
    have hf := locale_of_silent (show h.Silent (Locale.Category.format).ownVariable from hc)
    have hd := locale_of_silent (show h.Silent (Locale.Category.display).ownVariable from hm)
    rw [hf, hd]

/-- Hosts with one name for all purposes are told apart by that name only. -/
theorem locale_congr_of_setTo {s : String} (hs : h.SetTo "LC_ALL" s)
    (hv : k.value? "LC_ALL" = h.value? "LC_ALL") (category : Locale.Category) :
    locale k category = locale h category := by
  rw [locale_of_lcAll hs.2 hs.1, locale_of_lcAll hs.2 (hv.trans hs.1)]

theorem locale_congr_of_silent (hs : h.Silent category.ownVariable)
    (hs' : k.Silent category.ownVariable) (ha : k.value? "LC_ALL" = h.value? "LC_ALL")
    (hl : k.value? "LANG" = h.value? "LANG") : locale k category = locale h category := by
  rw [locale_of_silent hs, locale_of_silent hs', Host.said?_congr ha, Host.said?_congr hl]

end Collect

/-! ### Keys of the format locale -/

namespace Record

theorem Source.eq_formatPart_of_key {s : Source} {stem : String} (h : s.key = stem ++ ".format") :
    ∃ p, s = .formatPart p := by
  have hk : ∀ s ∈ Source.all, ".format".toList <:+ s.key.toList →
      ∃ p ∈ Locale.Part.all, s = .formatPart p := by
    decide +kernel
  obtain ⟨p, -, hp⟩ := hk s s.mem_all ⟨stem.toList, by rw [h, String.toList_append]⟩
  exact ⟨p, hp⟩

/-- A locale that is used for all purposes leaves no key of the format locale. -/
theorem get?_format_of_eq {r : Record} (h : r.formatLocale = r.displayLocale) (stem : String) :
    r.properties.get? (stem ++ ".format") = none := by
  rw [Option.eq_none_iff_forall_ne_some]
  intro v hv
  obtain ⟨s, hk, hg⟩ := (get?_properties_eq_some_iff r _ v).mp hv
  obtain ⟨p, rfl⟩ := Source.eq_formatPart_of_key hk
  cases hg with
  | formatPart hf hd => exact hd (h ▸ hf)

end Record

open Collect

/-- A host that names one locale for every purpose has it as both its locales, and no key of its flat
view ends as those of the format locale do. Which locale it is depends on one variable where that
has the say for all, and otherwise on that one and on the weakest. -/
theorem locales_of_undivided (c : Config) {h : Host} (hu : h.Undivided) :
    let r := collect c h
    r.formatLocale = r.displayLocale ∧
    (∀ stem : String, r.properties.get? (stem ++ ".format") = none) ∧
    (∀ (c' : Config) (k : Host), (∃ s, h.SetTo "LC_ALL" s) → (∃ s, k.SetTo "LC_ALL" s) →
      k.value? "LC_ALL" = h.value? "LC_ALL" →
        (collect c' k).formatLocale = r.formatLocale ∧
          (collect c' k).displayLocale = r.displayLocale) ∧
    (∀ (c' : Config) (k : Host), h.Silent "LC_CTYPE" → h.Silent "LC_MESSAGES" →
      k.Silent "LC_CTYPE" → k.Silent "LC_MESSAGES" → k.value? "LC_ALL" = h.value? "LC_ALL" →
      k.value? "LANG" = h.value? "LANG" →
        (collect c' k).formatLocale = r.formatLocale ∧
          (collect c' k).displayLocale = r.displayLocale) := by
  have he : (collect c h).formatLocale = (collect c h).displayLocale := by
    rw [formatLocale_collect, displayLocale_collect, locale_format_eq_display hu]
  refine ⟨he, Record.get?_format_of_eq he, fun c' k hs _ hv => ?_,
    fun c' k hc hm hc' hm' ha hl => ?_⟩
  · obtain ⟨s, hs⟩ := hs
    simp only [formatLocale_collect, displayLocale_collect]
    exact ⟨locale_congr_of_setTo hs hv _, locale_congr_of_setTo hs hv _⟩
  · simp only [formatLocale_collect, displayLocale_collect]
    exact ⟨locale_congr_of_silent hc hc' ha hl, locale_congr_of_silent hm hm' ha hl⟩

/-- A variable that is no text and an empty one are passed over, and a name for all purposes hides the
names of one. -/
theorem locales_of_undivided_unreadable :
    let lang := ("LANG", Utf8.encode "de_DE.UTF-8".toList)
    let h : Host := { environment := [("LC_ALL", []), ("LC_CTYPE", [0xFF]), lang] }
    let k : Host := { environment := [("LC_ALL", []), ("LC_MESSAGES", []), lang] }
    let all := ("LC_ALL", Utf8.encode "pt_BR".toList)
    let h' : Host := { environment := [all, ("LC_CTYPE", Utf8.encode "en_GB".toList)] }
    let k' : Host := { environment := [all, ("LC_MESSAGES", Utf8.encode "ja_JP".toList), lang] }
    h.Undivided ∧ h'.Undivided ∧
      (collect {} h).formatLocale = (collect {} h).displayLocale ∧
      (collect {} h).properties.get? "user.country.format" = none ∧
      (collect {} k).displayLocale = (collect {} h).displayLocale ∧
      (collect {} h').formatLocale = (collect {} h').displayLocale ∧
      (collect {} k').displayLocale = (collect {} h').displayLocale := by
  intro lang h k all h' k'
  have hc : h.Silent "LC_CTYPE" := Host.said?_eq_none_iff.mp (by decide +kernel)
  have hm : h.Silent "LC_MESSAGES" := Host.said?_eq_none_iff.mp (by decide +kernel)
  have kc : k.Silent "LC_CTYPE" := Host.said?_eq_none_iff.mp (by decide +kernel)
  have km : k.Silent "LC_MESSAGES" := Host.said?_eq_none_iff.mp (by decide +kernel)
  have hs : h'.SetTo "LC_ALL" "pt_BR" := ⟨rfl, by decide⟩
  have ks : k'.SetTo "LC_ALL" "pt_BR" := ⟨rfl, by decide⟩
  have hu : h.Undivided := .lang hc hm
  have hu' : h'.Undivided := .all hs
  obtain ⟨he, hn, -, hl⟩ := locales_of_undivided {} hu
  obtain ⟨he', -, ha, -⟩ := locales_of_undivided {} hu'
  have hk := hl {} k hc hm kc km rfl rfl
  have hk' := ha {} k' ⟨_, hs⟩ ⟨_, ks⟩ rfl
  exact ⟨hu, hu', he, hn "user.country", hk.2, he', hk'.2⟩

end HostProfile
