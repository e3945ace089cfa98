import HostProfile.Processor
import HostProfile.Proofs.Record.Properties
import HostProfile.Proofs.Text.Split
import Mathlib.Data.List.Induction
import Mathlib.Data.List.Nodup

/-! The instruction sets of a processor are the words of one line, which is found by its key, each
of them where it occurs first. Written out again in such a line they are read back. -/
namespace HostProfile.Processor

open Text

/-! ### Repetitions -/

section Repetitions

variable {α : Type} [BEq α] {xs ys zs : List α}

/-- The members of `xs`, each of them once, in the order in which they first occur there. -/
structure FirstOccurrences (xs ys : List α) : Prop where
  mem_iff : ∀ x, x ∈ ys ↔ x ∈ xs
  ordered : ys.Pairwise fun x y => xs.idxOf x < xs.idxOf y

theorem FirstOccurrences.nodup (h : FirstOccurrences xs ys) : ys.Nodup := by
  refine h.ordered.imp fun hlt he => ?_
  rw [he] at hlt
  exact lt_irrefl _ hlt

theorem FirstOccurrences.unique (h : FirstOccurrences xs ys) (h' : FirstOccurrences xs zs) :
    ys = zs := by
  have hm (x : α) : x ∈ ys ↔ x ∈ zs := (h.mem_iff x).trans (h'.mem_iff x).symm
  have hp : ys.Perm zs := (List.perm_ext_iff_of_nodup h.nodup h'.nodup).mpr hm
  exact hp.eq_of_pairwise (fun _ _ _ _ hlt hgt => absurd hlt hgt.asymm) h.ordered h'.ordered

theorem distinct_eq_nil_iff : distinct xs = [] ↔ xs = [] := by
  cases xs <;> simp [distinct]

variable [LawfulBEq α]

/-- A further member comes last unless it is there. -/
theorem FirstOccurrences.append_singleton (h : FirstOccurrences xs ys) (x : α) :
    FirstOccurrences (xs ++ [x]) (if x ∈ ys then ys else ys ++ [x]) := by
  -- what is there keeps its place
  have hold : ys.Pairwise fun y z => (xs ++ [x]).idxOf y < (xs ++ [x]).idxOf z := by
    refine h.ordered.imp_of_mem fun hy hz hlt => ?_
    rwa [List.idxOf_append_of_mem ((h.mem_iff _).mp hy),
      List.idxOf_append_of_mem ((h.mem_iff _).mp hz)]
  by_cases hx : x ∈ ys
  · rw [if_pos hx]
    refine ⟨fun y => ?_, hold⟩
    rw [h.mem_iff, List.mem_append, List.mem_singleton]
    exact ⟨.inl, fun hy => hy.elim id fun he => he ▸ (h.mem_iff x).mp hx⟩
  · rw [if_neg hx]
    refine ⟨fun y => ?_, List.pairwise_append.mpr ⟨hold, List.pairwise_singleton .., ?_⟩⟩
    · rw [List.mem_append, List.mem_append, h.mem_iff]
    · intro y hy z hz
      have hxs : x ∉ xs := fun hm => hx ((h.mem_iff x).mpr hm)
      have hyx : y ∈ xs := (h.mem_iff y).mp hy
      rw [List.mem_singleton.mp hz, List.idxOf_append_of_mem hyx, List.idxOf_append_of_notMem hxs]
      exact Nat.lt_add_right _ (List.idxOf_lt_length_of_mem hyx)

/-- One more member is kept just if it is not among the kept ones. -/
theorem distinct_append_singleton (xs : List α) (x : α) :
    distinct (xs ++ [x]) = if x ∈ distinct xs then distinct xs else distinct xs ++ [x] := by
  induction xs with
  | nil => simp [distinct]
  | cons y ys ih =>
    rw [List.cons_append, distinct, distinct, ih]
    by_cases hy : x = y
    · rw [hy, if_pos (List.mem_cons_self ..)]
      split
      · rfl
      · simp
    · by_cases hx : x ∈ distinct ys <;> simp [hx, hy]

theorem firstOccurrences_distinct (xs : List α) : FirstOccurrences xs (distinct xs) := by
  induction xs using List.reverseRecOn with
  | nil => exact ⟨fun _ => Iff.rfl, .nil⟩
  | append_singleton xs x ih =>
    rw [distinct_append_singleton]
    exact ih.append_singleton x

theorem firstOccurrences_iff : FirstOccurrences xs ys ↔ distinct xs = ys :=
  ⟨fun h => (firstOccurrences_distinct xs).unique h, fun h => h ▸ firstOccurrences_distinct xs⟩

theorem distinct_of_nodup (h : xs.Nodup) : distinct xs = xs := by
  induction xs with
  | nil => rfl
  | cons x xs ih =>
    obtain ⟨hx, hxs⟩ := List.nodup_cons.mp h
    have hf : xs.filter (fun y => !(y == x)) = xs := by
      rw [List.filter_eq_self]
      intro y hy
      simpa using fun he : y = x => hx (he ▸ hy)
    rw [distinct, ih hxs, hf]

end Repetitions

/-! ### Lines with a key -/

/-- A line's key, and its value if there is a colon after the key. -/
inductive Entry : List Char → List Char → Option (List Char) → Prop
  | bare {line : List Char} (h : ':' ∉ line) : Entry line line none
  | pair {key value : List Char} (h : ':' ∉ key) : Entry (key ++ ':' :: value) key (some value)

/-- The line's key is the name, with or without blanks around it. -/
def Named (name : String) (line : List Char) : Prop :=
  ∃ key value?, Entry line key value? ∧ trim key = name.toList

/-- The first line with the name has the value. -/
def FirstValue (name cpuinfo : String) (value : List Char) : Prop :=
  ∃ before line after, lines cpuinfo.toList = before ++ line :: after ∧
    (∀ l ∈ before, ¬ Named name l) ∧
    ∃ key, Entry line key (some value) ∧ trim key = name.toList

/-- The text that lists the flags: the features count if the first line of flags has no colon, or if
there is none. -/
inductive Listed (cpuinfo : String) : List Char → Prop
  | flags {value : List Char} (h : FirstValue "flags" cpuinfo value) : Listed cpuinfo value
  | features {value : List Char} (hn : ∀ value, ¬ FirstValue "flags" cpuinfo value)
      (h : FirstValue "Features" cpuinfo value) : Listed cpuinfo value

variable {name cpuinfo : String} {value : List Char}

theorem entry_iff {line k : List Char} {v? : Option (List Char)} :
    Entry line k v? ↔ cut [':'] line = (k, v?) := by
  constructor
  · intro h
    cases h with
    | bare h => exact cut_of_not_mem h
    | pair h => exact cut_append h _
  · intro h
    obtain ⟨hk, hl⟩ := cut_cases ':' line
    rw [h] at hk hl
    rw [hl]
    cases v? with
    | none =>
      rw [Option.map_none, Option.getD_none, List.append_nil]
      exact .bare hk
    | some v => exact .pair hk

theorem named_iff {line : List Char} : Named name line ↔ key line = name.toList := by
  constructor
  · intro h
    obtain ⟨k, v?, he, hk⟩ := h
    rwa [key, entry_iff.mp he]
  · exact fun h => ⟨_, _, entry_iff.mpr rfl, h⟩

theorem firstValue_iff :
    FirstValue name cpuinfo value ↔
      ∃ line, (lines cpuinfo.toList).find? (fun l => key l == name.toList) = some line ∧
        (cut [':'] line).2 = some value := by
  simp only [List.find?_eq_some_iff_append, beq_iff_eq]
  constructor
  · intro h
    obtain ⟨before, line, after, hl, hb, k, he, hk⟩ := h
    have hc := entry_iff.mp he
    refine ⟨line, ⟨?_, before, after, hl, fun l hm => ?_⟩, by rw [hc]⟩
    · rwa [key, hc]
    · have hn := hb l hm
      rw [named_iff] at hn
      simpa using hn
  · intro h
    obtain ⟨line, ⟨hk, before, after, hl, hb⟩, hv⟩ := h
    refine ⟨before, line, after, hl, fun l hm => ?_, (cut [':'] line).1, entry_iff.mpr ?_, hk⟩
    · rw [named_iff]
      simpa using hb l hm
    · rw [← hv]

/-- A text of one line has that line's value. -/
theorem firstValue_of_line {k : List Char} (hk : ':' ∉ k) (ht : trim k = name.toList)
    (hn : '\n' ∉ k ++ ':' :: value) (hc : cpuinfo.toList = k ++ ':' :: value) :
    FirstValue name cpuinfo value := by
  have hl : lines cpuinfo.toList = [k ++ ':' :: value] := by
    rw [hc]
    exact lines_of_not_mem hn (by simp)
  exact ⟨[], _, [], hl, by simp, k, .pair hk, ht⟩

theorem field?_eq_some_iff {flags : List Char} :
    field? name cpuinfo.toList = some flags ↔
      ∃ value, FirstValue name cpuinfo value ∧ trim value = flags := by
  simp only [field?, value?, Option.bind_eq_some_iff, Option.map_eq_some_iff, firstValue_iff]
  constructor
  · intro h
    obtain ⟨line, hl, v, hv, ht⟩ := h
    exact ⟨v, ⟨line, hl, hv⟩, ht⟩
  · intro h
    obtain ⟨v, ⟨line, hl, hv⟩, ht⟩ := h
    exact ⟨line, hl, v, hv, ht⟩

theorem field?_eq_none_iff :
    field? name cpuinfo.toList = none ↔ ∀ value, ¬ FirstValue name cpuinfo value := by
  rw [Option.eq_none_iff_forall_ne_some]
  simp only [Ne, field?_eq_some_iff, not_exists, not_and]
  exact ⟨fun h value hv => h _ value hv rfl, fun h _ value hv => absurd hv (h value)⟩

/-! ### The sets -/

theorem instructionSets?_of_listed {flags : List (List Char)} (hl : Listed cpuinfo value)
    (hw : Words value flags) :
    instructionSets? cpuinfo =
      if flags = [] then none else some ((distinct flags).map .ofList) := by
  have hf : (field? "flags" cpuinfo.toList <|> field? "Features" cpuinfo.toList) =
      some (trim value) := by
    cases hl with
    | flags h =>
      rw [field?_eq_some_iff.mpr ⟨value, h, rfl⟩]
      rfl
    | features hn h =>
      rw [field?_eq_none_iff.mpr hn, field?_eq_some_iff.mpr ⟨value, h, rfl⟩]
      rfl
  simp only [instructionSets?, hf, words_trim, hw.words_eq, List.isEmpty_iff, distinct_eq_nil_iff]

theorem instructionSets?_of_not_listed (hn : ∀ value, ¬ Listed cpuinfo value) :
    instructionSets? cpuinfo = none := by
  have hflags : ∀ value, ¬ FirstValue "flags" cpuinfo value := fun v h => hn v (.flags h)
  have hfeatures : ∀ value, ¬ FirstValue "Features" cpuinfo value :=
    fun v h => hn v (.features hflags h)
  rw [← field?_eq_none_iff] at hflags hfeatures
  simp only [instructionSets?, hflags, hfeatures]
  rfl

theorem instructionSets?_eq_none_iff :
    instructionSets? cpuinfo = none ↔ ∀ value, Listed cpuinfo value → Words value [] := by
  constructor
  · intro h value hl
    rw [instructionSets?_of_listed hl (words_words value)] at h
    rw [words_iff]
    by_contra hne
    rw [if_neg hne] at h
    cases h
  · intro h
    by_cases hn : ∃ value, Listed cpuinfo value
    · obtain ⟨value, hl⟩ := hn
      rw [instructionSets?_of_listed hl (h value hl), if_pos rfl]
    · exact instructionSets?_of_not_listed (not_exists.mp hn)

theorem instructionSets?_eq_some_iff {sets : List String} :
    instructionSets? cpuinfo = some sets ↔
      sets ≠ [] ∧ ∃ value flags, Listed cpuinfo value ∧ Words value flags ∧
        FirstOccurrences flags (sets.map String.toList) := by
  constructor
  · intro h
    obtain ⟨value, hl⟩ : ∃ value, Listed cpuinfo value := by
      by_contra hn
      rw [instructionSets?_of_not_listed (not_exists.mp hn)] at h
      cases h
    have hw := words_words value
    rw [instructionSets?_of_listed hl hw, Option.ite_none_left_eq_some, Option.some.injEq] at h
    obtain ⟨hne, rfl⟩ := h
    refine ⟨?_, value, words value, hl, hw, ?_⟩
    · rwa [Ne, List.map_eq_nil_iff, distinct_eq_nil_iff]
    · rw [firstOccurrences_iff, List.map_map]
      simp [Function.comp_def]
  · intro h
    obtain ⟨hne, value, flags, hl, hw, ho⟩ := h
    have hd := firstOccurrences_iff.mp ho
    have hf : flags ≠ [] := by
      rwa [Ne, ← distinct_eq_nil_iff, hd, List.map_eq_nil_iff]
    rw [instructionSets?_of_listed hl hw, if_neg hf, hd, List.map_map]
    simp [Function.comp_def]

/-- No set is empty text or has a blank in it. -/
theorem instructionSets?_spec {sets : List String} (h : instructionSets? cpuinfo = some sets) :
    sets ≠ [] ∧ sets.Nodup ∧ ∀ s ∈ sets, s ≠ "" ∧ NoBlank s := by
  obtain ⟨hne, value, flags, -, hw, ho⟩ := instructionSets?_eq_some_iff.mp h
  refine ⟨hne, ho.nodup.of_map _, fun s hs => ?_⟩
  have hf : s.toList ∈ flags := (ho.mem_iff _).mp (List.mem_map_of_mem hs)
  obtain ⟨hs, hb⟩ := hw.of_mem hf
  exact ⟨fun he => hs (by rw [he]; rfl), hb⟩

/-! ### Written out again -/

/-- A line of flags without blanks in them names the flags. -/
theorem instructionSets?_line {sets : List String} (hne : sets ≠ []) (hd : sets.Nodup)
    (hs : ∀ s ∈ sets, s ≠ "" ∧ NoBlank s) :
    instructionSets? ("flags : " ++ " ".intercalate sets) = some sets := by
  have hw : ∀ w ∈ sets.map String.toList, w ≠ [] ∧ ∀ c ∈ w, isBlank c = false := by
    intro w hm
    obtain ⟨s, hs', rfl⟩ := List.mem_map.mp hm
    exact ⟨fun he => (hs s hs').1 (String.toList_eq_nil_iff.mp he), (hs s hs').2⟩
  let joined := [' '].intercalate (sets.map String.toList)
  have hj : words joined = sets.map String.toList := words_intercalate (by decide) hw
  have hn : '\n' ∉ joined := by
    intro hm
    rcases mem_of_mem_intercalate hm with he | ⟨w, hm, hc⟩
    · exact absurd he (by decide)
    · exact absurd ((hw w hm).2 _ hc) (by decide)
  have ht : ("flags : " ++ " ".intercalate sets).toList =
      "flags ".toList ++ ':' :: ' ' :: joined := by
    rw [String.toList_append, String.toList_intercalate]
    rfl
  have hv : FirstValue "flags" ("flags : " ++ " ".intercalate sets) (' ' :: joined) :=
    firstValue_of_line (by decide) (by decide) (by simpa using hn) ht
  have hf : Words (' ' :: joined) (sets.map String.toList) := by
    rw [words_iff, words_cons_blank (by decide), hj]
  have hd' : (sets.map String.toList).Nodup := hd.map fun _ _ he => String.toList_injective he
  exact instructionSets?_eq_some_iff.mpr
    ⟨hne, _, _, .flags hv, hf, firstOccurrences_iff.mpr (distinct_of_nodup hd')⟩

/-- The sets are the words of the first line of flags, or else of features, each of them once and in
the order of their first occurrences; if there is no such line or no word in it, there are none. As
the record prints them, they are read back. -/
theorem instructionSets?_exact (cpuinfo : String) :
    (∀ sets, instructionSets? cpuinfo = some sets ↔
      sets ≠ [] ∧ ∃ value flags, Listed cpuinfo value ∧ Words value flags ∧
        FirstOccurrences flags (sets.map String.toList)) ∧
    (instructionSets? cpuinfo = none ↔ ∀ value, Listed cpuinfo value → Words value []) ∧
    ∀ sets, instructionSets? cpuinfo = some sets →
      sets.Nodup ∧ instructionSets? ("flags : " ++ " ".intercalate sets) = some sets ∧
      ∀ r : Record, r.instructionSets = some sets →
        r.properties.get? "cpu.isalist" = some (" ".intercalate sets) := by
  refine ⟨fun sets => instructionSets?_eq_some_iff, instructionSets?_eq_none_iff,
    fun sets h => ?_⟩
  obtain ⟨hne, hd, hs⟩ := instructionSets?_spec h
  refine ⟨hd, instructionSets?_line hne hd hs, fun r hr => ?_⟩
  have hk : r.properties.get? "cpu.isalist" = r.property? .instructionSets :=
    r.get?_properties_key .instructionSets
  rw [hk, Record.property?, hr]
  rfl

/-- A line of flags without a colon, and two lines of features. -/
theorem instructionSets?_exact_features :
    let cpuinfo := "processor\t: 0\nflags\nFeatures\t: fp asimd fp\nFeatures\t: sve\n"
    let r : Record := { instructionSets := some ["fp", "asimd"] }
    instructionSets? cpuinfo = some ["fp", "asimd"] ∧
      (∃ value flags, Listed cpuinfo value ∧ Words value flags ∧
        FirstOccurrences flags ["fp".toList, "asimd".toList]) ∧
      r.properties.get? "cpu.isalist" = some "fp asimd" ∧
      instructionSets? "flags : fp asimd" = some ["fp", "asimd"] := by
  intro cpuinfo r
  have h : instructionSets? cpuinfo = some ["fp", "asimd"] := by decide +kernel
  obtain ⟨hsome, -, hback⟩ := instructionSets?_exact cpuinfo
  obtain ⟨-, hline, hr⟩ := hback _ h
  exact ⟨h, ((hsome _).mp h).2, hr r rfl, hline⟩

end HostProfile.Processor
