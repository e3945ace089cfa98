import HostProfile.Proofs.Proxy.Contents

/-! The modes of a listing. A line that opens the block of exceptions does so only outside it, and
one that closes it only inside, so that where a line stands hangs on the last change of mode before
it. The lines inside list the patterns, and each line outside has a say in one place of the settings
at most. -/
namespace HostProfile.Proxy

open Text

/-! ### Entries -/

/-- An entry is cut at its first separator, and its parts are trimmed. -/
theorem entryOf?_eq_some_iff {l : List Char} {key value : String} :
    entryOf? l = some (key, value) ↔ ∃ a b, a ++ [' ', ':', ' '] ++ b = l ∧
      (∀ a' b', a' ++ [' ', ':', ' '] ++ b' = l → a.length ≤ a'.length) ∧
      .ofList (trim a) = key ∧ .ofList (trim b) = value := by
  unfold entryOf?
  rw [Option.map_eq_some_iff]
  constructor
  · intro h
    obtain ⟨⟨a, b⟩, hs, he⟩ := h
    obtain ⟨hk, hv⟩ := Prod.mk.inj he
    obtain ⟨hl, hmin⟩ := splitOnce?_eq_some_iff.mp hs
    exact ⟨a, b, hl, hmin, hk, hv⟩
  · intro h
    obtain ⟨a, b, hl, hmin, rfl, rfl⟩ := h
    exact ⟨(a, b), splitOnce?_eq_some_iff.mpr ⟨hl, hmin⟩, rfl⟩

theorem slotName_injective : Function.Injective slotName := by
  intro slot slot' h
  have hs := slot?_slotName slot
  rw [h, slot?_slotName] at hs
  exact (Option.some.inj hs).symm

/-! ### Changes of mode -/

mutual

/-- The last change of mode before the place was an opening. -/
def Inside (ls : List (List Char)) (n : ℕ) : Prop :=
  ∃ i, ∃ _ : i < n, Opening ls i ∧ ∀ j, i < j → (_ : j < n) → ¬ Opening ls j ∧ ¬ Closing ls j
termination_by 2 * n

/-- The line at the place stands outside the block and opens it. -/
def Opening (ls : List (List Char)) (n : ℕ) : Prop :=
  ¬ Inside ls n ∧ ∃ l value, ls[n]? = some l ∧ entryOf? l = some ("ExceptionsList", value) ∧
    "<array>".toList <+: value.toList
termination_by 2 * n + 1

/-- The line at the place stands inside the block and closes it. -/
def Closing (ls : List (List Char)) (n : ℕ) : Prop :=
  Inside ls n ∧ ls[n]? = some ['\x7d']
termination_by 2 * n + 1

end

variable {ls : List (List Char)}

theorem inside_iff (ls : List (List Char)) (n : ℕ) :
    Inside ls n ↔
      ∃ i < n, Opening ls i ∧ ∀ j, i < j → j < n → ¬ Opening ls j ∧ ¬ Closing ls j := by
  rw [Inside]
  simp only [exists_prop]

theorem opensBlock_iff (l : List Char) :
    opensBlock l = true ↔
      ∃ value, entryOf? l = some ("ExceptionsList", value) ∧ "<array>".toList <+: value.toList := by
  unfold opensBlock
  cases entryOf? l with
  | none => simp
  | some e => simp [Prod.ext_iff, List.isPrefixOf_iff_prefix]

theorem opening_iff (ls : List (List Char)) (n : ℕ) :
    Opening ls n ↔ ¬ Inside ls n ∧ ∃ l, ls[n]? = some l ∧ opensBlock l = true := by
  rw [Opening]
  simp only [opensBlock_iff, exists_and_left]

theorem closing_iff (ls : List (List Char)) (n : ℕ) :
    Closing ls n ↔ Inside ls n ∧ ∃ l, ls[n]? = some l ∧ closesBlock l = true := by
  rw [Closing]
  simp [closesBlock]

theorem not_inside_zero (ls : List (List Char)) : ¬ Inside ls 0 := by
  rw [inside_iff]
  rintro ⟨i, hi, -⟩
  exact Nat.not_lt_zero i hi

/-- Behind a line the mode is as before it, unless the line changes it. -/
theorem inside_succ_iff (ls : List (List Char)) (n : ℕ) :
    Inside ls (n + 1) ↔ Opening ls n ∨ Inside ls n ∧ ¬ Closing ls n := by
  constructor
  · intro h
    obtain ⟨i, hi, ho, hn⟩ := (inside_iff ls _).mp h
    rcases Nat.lt_succ_iff_lt_or_eq.mp hi with hi | rfl
    · refine Or.inr ⟨(inside_iff ls n).mpr ⟨i, hi, ho, fun j hij hj => hn j hij (by omega)⟩, ?_⟩
      exact (hn n hi (Nat.lt_succ_self n)).2
    · exact Or.inl ho
  · intro h
    rw [inside_iff]
    rcases h with ho | ⟨hin, hc⟩
    · exact ⟨n, Nat.lt_succ_self n, ho, fun j hj hjn => by omega⟩
    · obtain ⟨i, hi, ho, hn⟩ := (inside_iff ls n).mp hin
      refine ⟨i, by omega, ho, fun j hij hj => ?_⟩
      rcases Nat.lt_succ_iff_lt_or_eq.mp hj with hj | rfl
      · exact hn j hij hj
      · exact ⟨fun hj => ((opening_iff ls j).mp hj).1 hin, hc⟩

theorem opensBlock_eq_false_of_closesBlock {l : List Char} (h : closesBlock l = true) :
    opensBlock l = false := by
  rw [eq_of_beq h]
  decide

/-- The flag that is carried from line to line tells the mode. -/
theorem blockOpen_take_iff (ls : List (List Char)) (n : ℕ) :
    blockOpen (ls.take n) = true ↔ Inside ls n := by
  induction n with
  | zero =>
    rw [List.take_zero]
    exact iff_of_false (by decide) (not_inside_zero ls)
  | succ n ih =>
    rw [inside_succ_iff, opening_iff, closing_iff, ← ih, List.take_add_one]
    cases hl : ls[n]? with
    | none => simp
    | some l =>
      rw [Option.toList_some, blockOpen_append_singleton]
      cases hc : closesBlock l with
      | true => simp [opensBlock_eq_false_of_closesBlock hc, hc]
      | false => cases ho : opensBlock l <;> simp [ho, hc]

instance (ls : List (List Char)) (n : ℕ) : Decidable (Inside ls n) :=
  decidable_of_iff _ (blockOpen_take_iff ls n)

/-- The lines inside the block, in their order. -/
def insideLines (ls : List (List Char)) : List (List Char) :=
  (ls.zipIdx.filter fun x => Inside ls x.2).map Prod.fst

theorem insideLines_eq (ls : List (List Char)) : insideLines ls = standing true ls := by
  unfold insideLines standing
  congr 1
  refine List.filter_congr fun x _ => ?_
  rw [beq_true, Bool.eq_iff_iff, decide_eq_true_iff, blockOpen_take_iff]

/-! ### The last word on a place -/

/-- The line at the place stands outside the block, and is an entry with the key and the value. -/
def EntryAt (ls : List (List Char)) (key value : String) (i : ℕ) : Prop :=
  ∃ l, ls[i]? = some l ∧ ¬ Inside ls i ∧ entryOf? l = some (key, value)

/-- The value of the last entry outside the block that has the key. -/
def LastOutside (ls : List (List Char)) (key value : String) : Prop :=
  ∃ i, EntryAt ls key value i ∧ ∀ j, i < j → ∀ w, ¬ EntryAt ls key w j

theorem getElem?_append_singleton_iff {ls : List (List Char)} {l m : List Char} {i : ℕ} :
    (ls ++ [l])[i]? = some m ↔ ls[i]? = some m ∨ i = ls.length ∧ l = m := by
  rcases Nat.lt_trichotomy i ls.length with hi | rfl | hi
  · rw [List.getElem?_append_left hi, or_iff_left (by omega)]
  · simp
  · rw [List.getElem?_eq_none (by simp; omega), List.getElem?_eq_none (by omega),
      or_iff_right (by simp)]
    exact iff_of_false (by simp) (by omega)

theorem inside_append_singleton {i : ℕ} (hi : i ≤ ls.length) (l : List Char) :
    Inside (ls ++ [l]) i ↔ Inside ls i := by
  rw [← blockOpen_take_iff, ← blockOpen_take_iff, List.take_append_of_le_length hi]

theorem EntryAt.lt_length {key value : String} {i : ℕ} (h : EntryAt ls key value i) :
    i < ls.length := by
  obtain ⟨l, hl, -⟩ := h
  exact (List.getElem?_eq_some_iff.mp hl).1

theorem EntryAt.key_eq {key key' value value' : String} {i : ℕ} (h : EntryAt ls key value i)
    (h' : EntryAt ls key' value' i) : key = key' := by
  obtain ⟨l, hl, -, he⟩ := h
  obtain ⟨m, hm, -, he'⟩ := h'
  obtain rfl : l = m := Option.some.inj (hl.symm.trans hm)
  rw [he] at he'
  exact (Prod.mk.inj (Option.some.inj he')).1

/-- A further line takes no entry away and adds itself, if it is one outside the block. -/
theorem entryAt_append_singleton {l : List Char} {key value : String} {i : ℕ} :
    EntryAt (ls ++ [l]) key value i ↔ EntryAt ls key value i ∨
      i = ls.length ∧ ¬ Inside ls ls.length ∧ entryOf? l = some (key, value) := by
  constructor
  · rintro ⟨m, hm, ho, he⟩
    rcases getElem?_append_singleton_iff.mp hm with hm | ⟨rfl, rfl⟩
    · have hi : i < ls.length := (List.getElem?_eq_some_iff.mp hm).1
      exact Or.inl ⟨m, hm, (inside_append_singleton hi.le l).not.mp ho, he⟩
    · exact Or.inr ⟨rfl, (inside_append_singleton (Nat.le_refl _) l).not.mp ho, he⟩
  · rintro (h | ⟨rfl, ho, he⟩)
    · have hi := h.lt_length
      obtain ⟨m, hm, ho, he⟩ := h
      exact ⟨m, getElem?_append_singleton_iff.mpr (Or.inl hm),
        (inside_append_singleton hi.le l).not.mpr ho, he⟩
    · exact ⟨l, getElem?_append_singleton_iff.mpr (Or.inr ⟨rfl, rfl⟩),
        (inside_append_singleton (Nat.le_refl _) l).not.mpr ho, he⟩

theorem lastOutside_nil (key value : String) : ¬ LastOutside [] key value := by
  rintro ⟨i, hi, -⟩
  exact Nat.not_lt_zero i hi.lt_length

/-- A further line that stands inside or has another key leaves the last entry what it was. -/
theorem lastOutside_append_of_not {l : List Char} {key : String}
    (h : ¬ Inside ls ls.length → ∀ w, entryOf? l ≠ some (key, w)) (value : String) :
    LastOutside (ls ++ [l]) key value ↔ LastOutside ls key value := by
  have he : ∀ w i, EntryAt (ls ++ [l]) key w i ↔ EntryAt ls key w i := by
    intro w i
    rw [entryAt_append_singleton, or_iff_left]
    rintro ⟨-, ho, he⟩
    exact h ho w he
  simp only [LastOutside, he]

/-- A further entry outside the block is the last one with its key. -/
theorem lastOutside_append_of_entry {l : List Char} {key value : String}
    (ho : ¬ Inside ls ls.length) (he : entryOf? l = some (key, value)) (v : String) :
    LastOutside (ls ++ [l]) key v ↔ value = v := by
  have hl : EntryAt (ls ++ [l]) key value ls.length :=
    entryAt_append_singleton.mpr (Or.inr ⟨rfl, ho, he⟩)
  constructor
  · rintro ⟨i, hi, hlast⟩
    rcases entryAt_append_singleton.mp hi with hi | ⟨-, -, hv⟩
    · exact absurd hl (hlast _ hi.lt_length value)
    · rw [he] at hv
      exact (Prod.mk.inj (Option.some.inj hv)).2
  · rintro rfl
    refine ⟨ls.length, hl, fun j hj w hw => ?_⟩
    have hjl := hw.lt_length
    rw [List.length_append, List.length_singleton] at hjl
    omega

theorem blockOpen_iff (ls : List (List Char)) : blockOpen ls = true ↔ Inside ls ls.length := by
  rw [← blockOpen_take_iff, List.take_length]

theorem blockOpen_eq_false_iff (ls : List (List Char)) :
    blockOpen ls = false ↔ ¬ Inside ls ls.length := by
  rw [← blockOpen_iff, Bool.not_eq_true]

theorem said?_append_of_entry {l : List Char} {slot : Kind × Field} {value : String}
    (ho : ¬ Inside ls ls.length) (he : entryOf? l = some (slotName slot, value)) :
    said? (ls ++ [l]) slot = some value := by
  have ha : assigned? l = some (slot, value) :=
    assigned?_eq_some_iff.mpr ⟨_, he, slot?_slotName slot⟩
  have hs : assigned (ls ++ [l]) = assigned ls ++ [(slot, value)] := by
    rw [assigned_append_singleton, ha, if_pos ((blockOpen_eq_false_iff ls).mpr ho),
      Option.toList_some]
  rw [said?_of_assigned_eq_append_singleton hs, if_pos rfl]

theorem said?_append_of_not {l : List Char} {slot : Kind × Field}
    (h : ¬ Inside ls ls.length → ∀ w, entryOf? l ≠ some (slotName slot, w)) :
    said? (ls ++ [l]) slot = said? ls slot := by
  rw [said?_of_assigned_eq_append (assigned_append_singleton ls l)]
  split
  · next hb =>
    cases ha : assigned? l with
    | none => rfl
    | some e =>
      obtain ⟨slot', w⟩ := e
      obtain ⟨key, he, hk⟩ := assigned?_eq_some_iff.mp ha
      have hne : slot' ≠ slot := by
        rintro rfl
        exact h ((blockOpen_eq_false_iff ls).mp hb) w (slotName_of_slot? hk ▸ he)
      simp [hne]
  · rfl

/-- What is said of a place is the last entry outside the block that has the place's name. -/
theorem said?_eq_some_iff (ls : List (List Char)) (slot : Kind × Field) (v : String) :
    said? ls slot = some v ↔ LastOutside ls (slotName slot) v := by
  induction ls using List.reverseRecOn with
  | nil => exact iff_of_false (by simp [said?, assigned, standing]) (lastOutside_nil _ _)
  | append_singleton ls l ih =>
    by_cases h : ¬ Inside ls ls.length ∧ ∃ w, entryOf? l = some (slotName slot, w)
    · obtain ⟨ho, w, he⟩ := h
      rw [said?_append_of_entry ho he, Option.some.injEq, lastOutside_append_of_entry ho he]
    · have hn : ¬ Inside ls ls.length → ∀ w, entryOf? l ≠ some (slotName slot, w) :=
        fun ho w he => h ⟨ho, w, he⟩
      rw [said?_append_of_not hn, lastOutside_append_of_not hn, ih]

/-! ### What one line can do -/

/-- The next line is read, if there is one. -/
theorem take_succ_cases (ls : List (List Char)) (n : ℕ) :
    ls.take (n + 1) = ls.take n ∨
      ∃ l, ls[n]? = some l ∧ (ls.take n).length = n ∧ ls.take (n + 1) = ls.take n ++ [l] := by
  rw [List.take_add_one]
  cases hl : ls[n]? with
  | none => exact Or.inl (List.append_nil _)
  | some l =>
    have hn : n < ls.length := (List.getElem?_eq_some_iff.mp hl).1
    exact Or.inr ⟨l, rfl, by rw [List.length_take, min_eq_left hn.le], rfl⟩

/-- Inside the block no endpoint is touched. -/
theorem endpoint_contents_take_succ {n : ℕ} (h : Inside ls n) :
    (contents (ls.take (n + 1))).endpoint = (contents (ls.take n)).endpoint := by
  rcases take_succ_cases ls n with hs | ⟨l, -, -, hs⟩
  · rw [hs]
  · rw [hs, contents_of_inside ((blockOpen_take_iff ls n).mpr h)]

/-- Outside it, no exception is. -/
theorem patterns_take_succ {n : ℕ} (h : ¬ Inside ls n) :
    patterns (ls.take (n + 1)) = patterns (ls.take n) := by
  rw [← blockOpen_take_iff, Bool.not_eq_true] at h
  rcases take_succ_cases ls n with hs | ⟨l, -, -, hs⟩
  · rw [hs]
  · rw [hs, patterns_of_outside h]

/-- A line that touches a place stands outside the block and has the place's name for its key. -/
theorem entryAt_of_held_take_succ_ne {slot : Kind × Field} {n : ℕ}
    (h : (contents (ls.take (n + 1))).held slot ≠ (contents (ls.take n)).held slot) :
    ∃ value, EntryAt ls (slotName slot) value n := by
  rw [held_contents, held_contents] at h
  rcases take_succ_cases ls n with hs | ⟨l, hl, hn, hs⟩
  · rw [hs] at h
    exact absurd rfl h
  · by_contra hne
    rw [hs, said?_append_of_not] at h
    · exact h rfl
    · intro ho w he
      rw [hn, ← blockOpen_take_iff, List.take_take, min_self, blockOpen_take_iff] at ho
      exact hne ⟨w, l, hl, ho, he⟩

/-! ### A whole listing -/

/-- What has been read of a text before the line at a place. -/
def Listing.upTo (t : String) (n : ℕ) : Listing :=
  ((lines t.toList).take n).foldl step {}

namespace Listing

theorem upTo_length (t : String) :
    (upTo t (trimmedLines t).length).settings = .ofListing t := by
  rw [upTo, trimmedLines, List.length_map, List.take_length, Settings.ofListing]

theorem settings_upTo (t : String) (n : ℕ) :
    (upTo t n).settings = contents ((trimmedLines t).take n) := by
  rw [upTo, foldl_step, List.map_take, trimmedLines]

variable {t : String} {n : ℕ}

theorem endpoint_upTo_succ (h : Inside (trimmedLines t) n) :
    (upTo t (n + 1)).settings.endpoint = (upTo t n).settings.endpoint := by
  rw [settings_upTo, settings_upTo, endpoint_contents_take_succ h]

theorem exceptions_upTo_succ (h : ¬ Inside (trimmedLines t) n) :
    (upTo t (n + 1)).settings.exceptions = (upTo t n).settings.exceptions := by
  rw [settings_upTo, settings_upTo]
  exact patterns_take_succ h

theorem entryAt_of_held_upTo_ne {slot : Kind × Field}
    (h : (upTo t (n + 1)).settings.held slot ≠ (upTo t n).settings.held slot) :
    ∃ value, EntryAt (trimmedLines t) (slotName slot) value n := by
  rw [settings_upTo, settings_upTo] at h
  exact entryAt_of_held_take_succ_ne h

theorem eq_of_held_upTo_ne {slot slot' : Kind × Field}
    (h : (upTo t (n + 1)).settings.held slot ≠ (upTo t n).settings.held slot)
    (h' : (upTo t (n + 1)).settings.held slot' ≠ (upTo t n).settings.held slot') :
    slot' = slot := by
  obtain ⟨v, hv⟩ := entryAt_of_held_upTo_ne h
  obtain ⟨w, hw⟩ := entryAt_of_held_upTo_ne h'
  exact slotName_injective (hw.key_eq hv)

theorem endpoint_http_upTo_succ {l : List Char} {key value : String}
    (hl : (trimmedLines t)[n]? = some l) (he : entryOf? l = some (key, value))
    (hk : "HTTPS".toList <+: key.toList) :
    (upTo t (n + 1)).settings.endpoint .http = (upTo t n).settings.endpoint .http := by
  refine Settings.endpoint_eq_of_held fun f => ?_
  by_contra h
  obtain ⟨w, m, hm, -, hw⟩ := entryAt_of_held_upTo_ne h
  obtain rfl : l = m := Option.some.inj (hl.symm.trans hm)
  rw [he] at hw
  obtain ⟨rfl, -⟩ := Prod.mk.inj (Option.some.inj hw)
  revert hk
  cases f <;> decide

end Listing

theorem endpoint_ofListing (t : String) (k : Kind) :
    let e := (Settings.ofListing t).endpoint k
    (e.enabled = true ↔ LastOutside (trimmedLines t) (k.listingName ++ "Enable") "1") ∧
      (∀ v, e.host = some v ↔ LastOutside (trimmedLines t) (k.listingName ++ "Proxy") v) ∧
      ∀ v, e.port = some v ↔ LastOutside (trimmedLines t) (k.listingName ++ "Port") v := by
  have henable : slotName (k, .enable) = k.listingName ++ "Enable" := rfl
  have hhost : slotName (k, .host) = k.listingName ++ "Proxy" := rfl
  have hport : slotName (k, .port) = k.listingName ++ "Port" := rfl
  rw [Settings.ofListing_eq, ← henable, ← hhost, ← hport]
  dsimp only [contents]
  rw [beq_iff_eq]
  exact ⟨said?_eq_some_iff _ _ _, said?_eq_some_iff _ _, said?_eq_some_iff _ _⟩

theorem exceptions_eq_insideLines (t : String) :
    (Settings.ofListing t).exceptions =
      (insideLines (trimmedLines t)).filterMap fun l => (entryOf? l).map Prod.snd := by
  rw [Settings.exceptions_ofListing, insideLines_eq]
  rfl

/-- The values of trimmed lines are neither empty nor padded. -/
theorem value_of_trimmedLines {t key value : String} {l : List Char} (hl : l ∈ trimmedLines t)
    (he : entryOf? l = some (key, value)) : value ≠ "" ∧ Trimmed value.toList := by
  obtain ⟨line, -, rfl⟩ := List.mem_map.mp hl
  exact ⟨(entryOf?_ne_empty (trimmed_trim line) he).2, (entryOf?_value he).1⟩

theorem value_of_lastOutside {t key value : String}
    (h : LastOutside (trimmedLines t) key value) : value ≠ "" ∧ Trimmed value.toList := by
  obtain ⟨i, ⟨l, hl, -, he⟩, -⟩ := h
  exact value_of_trimmedLines (List.mem_of_getElem? hl) he

theorem value_of_mem_exceptions {t v : String} (h : v ∈ (Settings.ofListing t).exceptions) :
    v ≠ "" ∧ Trimmed v.toList := by
  rw [exceptions_eq_insideLines, insideLines_eq] at h
  obtain ⟨l, hl, he⟩ := List.mem_filterMap.mp h
  obtain ⟨⟨key, value⟩, hentry, rfl⟩ := Option.map_eq_some_iff.mp he
  exact value_of_trimmedLines (standing_subset true _ hl) hentry

/-- An entry is cut at its first separator. The exceptions are the values of the entries inside the
block, in their order, and an endpoint has what the last entry outside with the right key says.
While a text is read line by line, a line inside touches no endpoint and one outside no exception; a
line touches one place of one endpoint at most, and with a key for secure connections none of the
plain ones. No host, port or exception is empty or padded. -/
theorem Settings.ofListing_exact :
    (∀ (l : List Char) (key value : String), entryOf? l = some (key, value) ↔
      ∃ a b, a ++ [' ', ':', ' '] ++ b = l ∧
        (∀ a' b', a' ++ [' ', ':', ' '] ++ b' = l → a.length ≤ a'.length) ∧
        .ofList (trim a) = key ∧ .ofList (trim b) = value) ∧
    ∀ t : String,
      let s := Settings.ofListing t
      let ls := trimmedLines t
      let read := fun n => (Listing.upTo t n).settings
      s.exceptions = (insideLines ls).filterMap (fun l => (entryOf? l).map Prod.snd) ∧
      (∀ k : Kind,
        ((s.endpoint k).enabled = true ↔ LastOutside ls (k.listingName ++ "Enable") "1") ∧
        (∀ v, (s.endpoint k).host = some v ↔ LastOutside ls (k.listingName ++ "Proxy") v) ∧
        (∀ v, (s.endpoint k).port = some v ↔ LastOutside ls (k.listingName ++ "Port") v) ∧
        ∀ v, (s.endpoint k).host = some v ∨ (s.endpoint k).port = some v →
          v ≠ "" ∧ Trimmed v.toList) ∧
      (∀ v ∈ s.exceptions, v ≠ "" ∧ Trimmed v.toList) ∧
      read ls.length = s ∧
      ∀ n,
        (Inside ls n → (read (n + 1)).endpoint = (read n).endpoint) ∧
        (¬ Inside ls n → (read (n + 1)).exceptions = (read n).exceptions) ∧
        (∀ slot slot' : Kind × Field, (read (n + 1)).held slot ≠ (read n).held slot →
          (read (n + 1)).held slot' ≠ (read n).held slot' → slot' = slot) ∧
        ∀ l key value, ls[n]? = some l → entryOf? l = some (key, value) →
          "HTTPS".toList <+: key.toList →
          (read (n + 1)).endpoint .http = (read n).endpoint .http := by
  refine ⟨fun l key value => entryOf?_eq_some_iff, fun t => ⟨exceptions_eq_insideLines t,
    fun k => ?_, fun v hv => value_of_mem_exceptions hv, Listing.upTo_length t, fun n => ?_⟩⟩
  · obtain ⟨he, hh, hp⟩ := endpoint_ofListing t k
    refine ⟨he, hh, hp, fun v hv => ?_⟩
    rcases hv with hv | hv
    · exact value_of_lastOutside ((hh v).mp hv)
    · exact value_of_lastOutside ((hp v).mp hv)
  · exact ⟨Listing.endpoint_upTo_succ, Listing.exceptions_upTo_succ,
      fun slot slot' => Listing.eq_of_held_upTo_ne,
      fun l key value => Listing.endpoint_http_upTo_succ⟩

/-- A listing with a value that is corrected, a brace out of place and a block that stays open. -/
private def muddled : String :=
  "HTTPEnable : 1\nHTTPSPort : 443\nHTTPEnable : yes\n\x7d\nExceptionsList : <array>\nFTPProxy :  a : b "

private def muddledLines : List (List Char) :=
  trimmedLines muddled

private def muddledSettings : Settings :=
  .ofListing muddled

/-- The settings before a line. -/
private def muddledUpTo (n : ℕ) : Settings :=
  (Listing.upTo muddled n).settings

theorem Settings.ofListing_exact_muddled :
    muddledSettings.exceptions = ["a : b"] ∧
      (∀ v ∈ muddledSettings.exceptions, v ≠ "" ∧ Trimmed v.toList) ∧
      ¬ LastOutside muddledLines (Kind.http.listingName ++ "Enable") "1" ∧
      (muddledSettings.endpoint .https).port = some "443" ∧
      LastOutside muddledLines (Kind.https.listingName ++ "Port") "443" ∧
      ("443" ≠ "" ∧ Trimmed "443".toList) ∧
      Inside muddledLines 5 ∧ (muddledUpTo 6).endpoint = (muddledUpTo 5).endpoint ∧
      ¬ Inside muddledLines 1 ∧ (muddledUpTo 2).exceptions = (muddledUpTo 1).exceptions ∧
      (muddledUpTo 2).held (.https, .port) ≠ (muddledUpTo 1).held (.https, .port) ∧
      (∀ slot, (muddledUpTo 2).held slot ≠ (muddledUpTo 1).held slot → slot = (.https, .port)) ∧
      (muddledUpTo 2).endpoint .http = (muddledUpTo 1).endpoint .http := by
  have hv : muddledSettings.exceptions = ["a : b"] ∧
      (muddledSettings.endpoint .http).enabled = false ∧
      (muddledSettings.endpoint .https).port = some "443" := by
    decide +kernel
  have hi : Inside muddledLines 5 ∧ ¬ Inside muddledLines 1 := by decide +kernel
  have hl : muddledLines[1]? = some "HTTPSPort : 443".toList := by decide +kernel
  have he : entryOf? "HTTPSPort : 443".toList = some ("HTTPSPort", "443") := by decide +kernel
  have hk : "HTTPS".toList <+: "HTTPSPort".toList := by decide +kernel
  have hp : (muddledUpTo 2).held (.https, .port) ≠ (muddledUpTo 1).held (.https, .port) := by
    decide +kernel
  obtain ⟨hexceptions, hhttp, hhttps⟩ := hv
  obtain ⟨-, hkinds, htidy, -, hread⟩ := Settings.ofListing_exact.2 muddled
  obtain ⟨henabled, -⟩ := hkinds .http
  obtain ⟨-, -, hport, hvalue⟩ := hkinds .https
  obtain ⟨-, -, hone, hsecure⟩ := hread 1
  have hplain : (muddledUpTo 2).endpoint .http = (muddledUpTo 1).endpoint .http :=
    hsecure "HTTPSPort : 443".toList "HTTPSPort" "443" hl he hk
  refine ⟨hexceptions, htidy, fun h => ?_, hhttps, (hport "443").mp hhttps,
    hvalue "443" (Or.inr hhttps), hi.1, (hread 5).1 hi.1, hi.2, (hread 1).2.1 hi.2, hp,
    fun slot => hone (.https, .port) slot hp, hplain⟩
  have htrue : (muddledSettings.endpoint .http).enabled = true := henabled.mpr h
  rw [hhttp] at htrue
  cases htrue

end HostProfile.Proxy
