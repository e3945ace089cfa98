import HostProfile.Cli.Run
import HostProfile.Proofs.Locale.Tag

/-! What a table shows for a locale. Its row has the tag, and where that is empty a mark of absence,
so that the mark means that there is no part. One locale is shown alike and yet has a part: its
language is written like the mark. -/
namespace HostProfile.Cli

open Text

/-! ### Rows -/

theorem row_inj {label s t : String} : row label s = row label t ↔ s = t := by
  rw [row, row, ← String.toList_inj, ← String.toList_inj]
  simp

/-- Rows with labels that differ are not the same. -/
theorem row_ne_row {a b : String} (ha : a.length ≤ 16) (hb : b.length ≤ 16)
    (hne : padTo 17 (a ++ ":") ≠ padTo 17 (b ++ ":")) (s t : String) : row a s ≠ row b t := by
  have hlen {x : String} (hx : x.length ≤ 16) : (padTo 17 (x ++ ":")).toList.length = 17 := by
    simp only [padTo, String.toList_append, String.toList_ofList, List.length_append,
      List.length_replicate, String.length_append, String.length_toList]
    have hcolon : ":".length = 1 := by decide
    omega
  intro h
  rw [row, row, ← String.toList_inj] at h
  simp only [String.toList_append, List.append_assoc] at h
  have hp := List.append_cancel_left h
  exact hne (String.toList_inj.mp (List.append_inj hp ((hlen ha).trans (hlen hb).symm)).1)

/-- A line that is no locale's row. -/
def NoLocaleRow (line : String) : Prop :=
  ∀ s, line ≠ row "Format" s ∧ line ≠ row "Display" s

theorem noLocaleRow_row {label : String}
    (h : label.length ≤ 16 ∧ padTo 17 (label ++ ":") ≠ padTo 17 ("Format" ++ ":") ∧
      padTo 17 (label ++ ":") ≠ padTo 17 ("Display" ++ ":")) (s : String) :
    NoLocaleRow (row label s) := by
  obtain ⟨hl, hf, hd⟩ := h
  exact fun t => ⟨row_ne_row hl (by decide) hf s t, row_ne_row hl (by decide) hd s t⟩

/-- Rows are indented. -/
theorem noLocaleRow_of_head? {line : String} (h : line.toList.head? ≠ some ' ') :
    NoLocaleRow line := by
  have hr (label s : String) : line ≠ row label s := by
    rintro rfl
    simp [row] at h
  exact fun s => ⟨hr _ s, hr _ s⟩

section Table

variable (colours : Bool)

theorem head?_paint (style : Style) (s : String) :
    (paint colours style s).toList.head? = if colours then some '\x1b' else s.toList.head? := by
  cases colours <;> simp [paint]

theorem noLocaleRow_heading (s : String) : ∀ line ∈ heading colours s, NoLocaleRow line := by
  have hp : (paint colours .heading ("── " ++ s ++ " ──")).toList.head? ≠ some ' ' := by
    rw [head?_paint]
    cases colours <;> simp
  simp only [heading, List.forall_mem_cons]
  exact ⟨noLocaleRow_of_head? (by simp), noLocaleRow_of_head? hp, List.forall_mem_nil _⟩

theorem noLocaleRow_osLines (r : Record) : ∀ line ∈ osLines colours r, NoLocaleRow line := by
  simp only [osLines, List.forall_mem_append, List.forall_mem_cons, List.forall_mem_map]
  exact ⟨⟨⟨⟨⟨noLocaleRow_heading colours _, noLocaleRow_row (by decide) _,
    noLocaleRow_row (by decide) _, noLocaleRow_row (by decide) _,
    List.forall_mem_nil _⟩, fun s _ => noLocaleRow_row (by decide) s⟩,
    fun s _ => noLocaleRow_row (by decide) s⟩, noLocaleRow_row (by decide) _,
    noLocaleRow_row (by decide) _, List.forall_mem_nil _⟩,
    fun _ _ => noLocaleRow_row (by decide) _⟩

theorem noLocaleRow_environmentLines (r : Record) :
    ∀ line ∈ environmentLines colours r, NoLocaleRow line := by
  simp only [environmentLines, List.forall_mem_append, List.forall_mem_cons]
  exact ⟨noLocaleRow_heading colours _, noLocaleRow_row (by decide) _,
    noLocaleRow_row (by decide) _, noLocaleRow_row (by decide) _,
    noLocaleRow_row (by decide) _, noLocaleRow_row (by decide) _,
    noLocaleRow_row (by decide) _, noLocaleRow_row (by decide) _,
    List.forall_mem_nil _⟩

theorem noLocaleRow_encodingLines (r : Record) :
    ∀ line ∈ encodingLines colours r, NoLocaleRow line := by
  simp only [encodingLines, List.forall_mem_append, List.forall_mem_cons]
  exact ⟨noLocaleRow_heading colours _, noLocaleRow_row (by decide) _,
    noLocaleRow_row (by decide) _, noLocaleRow_row (by decide) _,
    noLocaleRow_row (by decide) _, noLocaleRow_row (by decide) _,
    List.forall_mem_nil _⟩

theorem noLocaleRow_proxyLines (p : Proxy.Settings) :
    ∀ line ∈ proxyLines colours p, NoLocaleRow line := by
  have hexceptions : ∀ line ∈ (if p.exceptions.isEmpty then [] else
      [row "Exceptions" (", ".intercalate p.exceptions)]), NoLocaleRow line := by
    intro line hm
    split at hm
    · cases hm
    · rw [List.mem_singleton.mp hm]
      exact noLocaleRow_row (by decide) _
  simp only [proxyLines, List.forall_mem_append, List.forall_mem_map]
  refine ⟨⟨noLocaleRow_heading colours _, fun kind _ => ?_⟩, hexceptions⟩
  refine noLocaleRow_row ?_ _
  cases kind <;> decide

/-- The locales' lines stand among others without such rows. -/
theorem exists_tableLines_eq (r : Record) :
    ∃ before after, (∀ line ∈ before ++ after, NoLocaleRow line) ∧
      tableLines colours r = before ++ localeLines colours r ++ after := by
  have htitle : NoLocaleRow (paint colours .title "═══ Platform Properties ═══") := by
    refine noLocaleRow_of_head? ?_
    rw [head?_paint]
    cases colours <;> simp
  refine ⟨[paint colours .title "═══ Platform Properties ═══"] ++ osLines colours r ++
      environmentLines colours r,
    encodingLines colours r ++ r.proxy.toList.flatMap (proxyLines colours), ?_, ?_⟩
  · simp only [List.forall_mem_append, List.forall_mem_singleton, List.forall_mem_flatMap]
    exact ⟨⟨⟨htitle, noLocaleRow_osLines colours r⟩, noLocaleRow_environmentLines colours r⟩,
      noLocaleRow_encodingLines colours r, fun p _ => noLocaleRow_proxyLines colours p⟩
  · unfold tableLines
    cases r.proxy <;> simp

/-- The locales that a table has a row for, with the labels of the rows. -/
def localeRows (r : Record) : List (String × Locale) :=
  [("Format", r.formatLocale), ("Display", r.displayLocale)]

/-- The rows of the two locales are the only ones with their labels. -/
theorem localeRow_mem_tableLines_iff (r : Record) {label : String} {l : Locale}
    (hl : (label, l) ∈ localeRows r) (s : String) :
    row label s ∈ tableLines colours r ↔ localeCell colours l = s := by
  obtain ⟨before, after, hno, he⟩ := exists_tableLines_eq colours r
  have hmem {line : String} (hn : ¬ NoLocaleRow line) :
      line ∈ tableLines colours r ↔
        line = row "Format" (localeCell colours r.formatLocale) ∨
          line = row "Display" (localeCell colours r.displayLocale) := by
    have hb : line ∉ before := fun hm => hn (hno line (List.mem_append_left _ hm))
    have ha : line ∉ after := fun hm => hn (hno line (List.mem_append_right _ hm))
    have hh : line ∉ heading colours "Locale" := fun hm => hn (noLocaleRow_heading colours _ _ hm)
    rw [he, localeLines]
    simp only [List.mem_append, hb, ha, hh, List.mem_cons, List.not_mem_nil, false_or, or_false]
  have hfd (s t : String) : row "Format" s ≠ row "Display" t :=
    row_ne_row (by decide) (by decide) (by decide) s t
  simp only [localeRows, List.mem_cons, Prod.mk.injEq, List.not_mem_nil, or_false] at hl
  rcases hl with ⟨rfl, rfl⟩ | ⟨rfl, rfl⟩
  · rw [hmem fun h => (h s).1 rfl]
    simp only [row_inj, hfd, or_false, eq_comm]
  · rw [hmem fun h => (h s).2 rfl]
    simp only [row_inj, (hfd _ _).symm, false_or, eq_comm]

/-! ### The mark -/

theorem absentCell_inj {a b : Bool} : absentCell a = absentCell b ↔ a = b := by
  revert a b
  decide

theorem localeCell_eq_absentCell_iff_tag (marked : Bool) (l : Locale) :
    localeCell colours l = absentCell marked ↔
      (colours = marked ∧ l.tag = "") ∨ l.tag = absentCell marked := by
  have hne : absentCell marked ≠ "" := by cases marked <;> decide
  unfold localeCell
  split
  · next h =>
    have ht : l.tag = "" := String.isEmpty_iff.mp h
    simp [absentCell_inj, ht, hne.symm]
  · next h =>
    have ht : l.tag ≠ "" := fun he => h (String.isEmpty_iff.mpr he)
    simp [ht]

/-- The mark, as it is printed with or without colours, cannot be told from a locale whose language is
written like it. -/
theorem localeCell_eq_absentCell_iff (marked : Bool) {name : String} {l : Locale}
    (h : Locale.parse? name = some l) (hd : '-' ∉ name.toList) :
    localeCell colours l = absentCell marked ↔
      (colours = marked ∧ l.parts = []) ∨ l.IsJust (absentCell marked) := by
  have hl : l.Canonical := Locale.canonical_of_parse? h
  have hp : ∀ s ∈ l.parts, '-' ∉ s.toList := fun s => Locale.dash_not_mem_of_parse? h hd
  have hne : absentCell marked ≠ "" := by cases marked <;> decide
  have hm : '-' ∉ (absentCell marked).toList := by cases marked <;> decide
  have hu : upper (absentCell marked) ≠ absentCell marked := by
    cases marked <;> decide
  have hs : ∀ e ∈ LocaleName.scripts, e.2 ≠ absentCell marked := by
    cases marked <;> decide
  rw [localeCell_eq_absentCell_iff_tag, Locale.tag_eq_empty_iff fun s => hl.ne_empty_of_mem_parts,
    hl.tag_eq_iff hp hne hm hu fun name hn => hs _ hn rfl]

end Table

/-- A tag is taken apart into its parts. In a table, the row of the locale that a name without a dash
gives shows the mark as the table prints it exactly if the locale has no part, or if its only part is a
language that is written like that. The mark as the other tables print it is only ever such a
language. -/
theorem localeRows_exact :
    (∀ l : Locale, (∀ s ∈ l.parts, s ≠ "" ∧ '-' ∉ s.toList) →
      dashPieces l.tag = (if l.parts = [] then [""] else l.parts) ∧ (l.tag = "" ↔ l.parts = []) ∧
      ∀ codeset, { l with codeset }.tag = l.tag) ∧
    ∀ name l, Locale.parse? name = some l → '-' ∉ name.toList →
      ∀ (r : Record) (label : String), (label, l) ∈ localeRows r → ∀ colours : Bool,
        (row label (absentCell colours) ∈ tableLines colours r ↔
          l.parts = [] ∨ l.IsJust (absentCell colours)) ∧
        (row label (absentCell !colours) ∈ tableLines colours r ↔ l.IsJust (absentCell !colours)) := by
  constructor
  · intro l hl
    have hempty : l.tag = "" ↔ l.parts = [] := Locale.tag_eq_empty_iff fun s hs => (hl s hs).1
    refine ⟨?_, hempty, fun codeset => l.tag_codeset codeset⟩
    split
    · next hp =>
      rw [hempty.mpr hp]
      rfl
    · next hp => exact Locale.dashPieces_tag (fun s hs => (hl s hs).2) hp
  · intro name l h hd r label hl colours
    constructor
    · rw [localeRow_mem_tableLines_iff colours r hl, localeCell_eq_absentCell_iff colours _ h hd]
      simp
    · rw [localeRow_mem_tableLines_iff colours r hl, localeCell_eq_absentCell_iff colours _ h hd]
      simp

/-- A locale with three of the parts. -/
def serbian : Locale where
  language := some "sr"
  script := some "Latn"
  country := some "RS"

theorem localeRows_exact_serbian :
    dashPieces serbian.tag = ["sr", "Latn", "RS"] ∧
      Locale.parse? "sr_RS@latin" = some serbian ∧
      row "Format" (absentCell true) ∉ tableLines true { formatLocale := serbian } := by
  obtain ⟨htag, hrow⟩ := localeRows_exact
  have hparts : serbian.parts = ["sr", "Latn", "RS"] := rfl
  have hl : ∀ s ∈ serbian.parts, s ≠ "" ∧ '-' ∉ s.toList := by
    rw [hparts]
    simp
  have hname : Locale.parse? "sr_RS@latin" = some serbian := by decide
  obtain ⟨hpieces, -, -⟩ := htag serbian hl
  refine ⟨by rw [hpieces, hparts, if_neg (by decide)], hname, ?_⟩
  rw [(hrow _ _ hname (by decide) _ _ (List.mem_cons_self ..) true).1, hparts, not_or]
  refine ⟨by decide, fun h => ?_⟩
  exact absurd h.script (by decide)

/-- A host with a name for its locales. -/
def localeHost (name : String) : Host where
  environment := [("HOME", Utf8.encode "/h".toList), ("LC_ALL", Utf8.encode name.toList)]

/-- A language that is written like the mark is shown like no locale at all, and the tag of no part at
all is still split into one piece. -/
theorem localeRow_of_absent_language :
    let r := collect {} (localeHost "(absent)")
    '-' ∉ "(absent)".toList ∧ Locale.parse? "(absent)" = some r.formatLocale ∧
      r.formatLocale.parts = ["(absent)"] ∧
      (run ["show"] (localeHost "(absent)")).stdout = joinLines (tableLines false r) ∧
      row "Format" "(absent)" ∈ tableLines false r ∧
      ({} : Locale).parts = [] ∧ dashPieces ({} : Locale).tag = [""] := by
  decide +kernel

end HostProfile.Cli
