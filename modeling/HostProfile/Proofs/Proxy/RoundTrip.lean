import HostProfile.Proofs.Proxy.Listing

/-! Reading undoes printing. No two entries of a configuration write to one place of the settings,
so that what is read does not depend on their order. -/
namespace HostProfile.Proxy
open Text

/-- What settings hold at one place. -/
def Settings.held (s : Settings) : Kind × Field → Option String
  | (k, .enable) => if (s.endpoint k).enabled then some "1" else none
  | (k, .host) => (s.endpoint k).host
  | (k, .port) => (s.endpoint k).port

/-- What a place holds after an entry. -/
def Field.holds : Field → Phrase → Option String
  | .enable, v => if v.text = "1" then some "1" else none
  | .host, v => some v.text
  | .port, v => some v.text

theorem Settings.endpoint_eq_of_held {s t : Settings} {k : Kind}
    (h : ∀ f, s.held (k, f) = t.held (k, f)) : s.endpoint k = t.endpoint k := by
  have h₁ : (if (s.endpoint k).enabled then some "1" else none) =
      if (t.endpoint k).enabled then some "1" else none := h .enable
  have h₂ : (s.endpoint k).host = (t.endpoint k).host := h .host
  have h₃ : (s.endpoint k).port = (t.endpoint k).port := h .port
  generalize s.endpoint k = d at h₁ h₂ h₃ ⊢
  generalize t.endpoint k = e at h₁ h₂ h₃ ⊢
  obtain ⟨enabled, host, port⟩ := d
  obtain ⟨enabled', host', port'⟩ := e
  cases h₂
  cases h₃
  cases enabled <;> cases enabled' <;> simp_all

theorem Settings.ext_held {s t : Settings} (h : ∀ slot, s.held slot = t.held slot)
    (he : s.exceptions = t.exceptions) : s = t :=
  ext_endpoint (fun k => endpoint_eq_of_held fun f => h (k, f)) he

theorem held_apply_slot (s : Settings) (slot slot' : Kind × Field) (v : Phrase) :
    (Entry.apply s (.slot slot v)).held slot' =
      if slot' = slot then slot.2.holds v else s.held slot' := by
  have hv : nonEmpty? v.text = some v.text := by
    simp [nonEmpty?, v.nonempty]
  obtain ⟨k, f⟩ := slot
  obtain ⟨k', f'⟩ := slot'
  by_cases hk : k' = k
  · subst hk
    cases f <;> cases f' <;>
      simp [Entry.apply, Settings.held, Field.holds, Endpoint.set, hv]
  · cases f' <;> simp [Entry.apply, Settings.held, hk]

theorem held_apply_exceptions (s : Settings) (slot : Kind × Field) (ps : List Phrase) :
    (Entry.apply s (.exceptions ps)).held slot = s.held slot := by
  obtain ⟨k, f⟩ := slot
  cases f <;> rfl

/-- A place that no entry names stays as it is. -/
theorem held_foldl_of_not_mem {es : List Entry} {slot : Kind × Field}
    (h : ∀ v, .slot slot v ∉ es) (s : Settings) :
    (es.foldl Entry.apply s).held slot = s.held slot := by
  induction es generalizing s with
  | nil => rfl
  | cons e es ih =>
    have hes : ∀ v, .slot slot v ∉ es := fun v hv => h v (List.mem_cons_of_mem _ hv)
    rw [List.foldl_cons, ih hes]
    cases e with
    | slot slot' v =>
      have hne : slot ≠ slot' := fun heq => h v (heq ▸ List.mem_cons_self ..)
      rw [held_apply_slot, if_neg hne]
    | exceptions ps => exact held_apply_exceptions s slot ps

/-- A place that one entry names holds what the entry says, wherever the entry stands. -/
theorem held_foldl_of_mem {es : List Entry} {slot : Kind × Field} {v : Phrase}
    (hm : .slot slot v ∈ es) (hu : ∀ w, .slot slot w ∈ es → w = v) (s : Settings) :
    (es.foldl Entry.apply s).held slot = slot.2.holds v := by
  induction es generalizing s with
  | nil => cases hm
  | cons e es ih =>
    rw [List.foldl_cons]
    by_cases hes : .slot slot v ∈ es
    · exact ih hes (fun w hw => hu w (List.mem_cons_of_mem _ hw)) _
    · have hn : ∀ w, .slot slot w ∉ es := by
        intro w hw
        have hwv : w = v := hu w (List.mem_cons_of_mem _ hw)
        exact hes (hwv ▸ hw)
      have he : e = .slot slot v := by
        rcases List.mem_cons.mp hm with h | h
        · exact h.symm
        · exact absurd h hes
      rw [held_foldl_of_not_mem hn, he, held_apply_slot, if_pos rfl]

def Entry.block? : Entry → Option (List Phrase)
  | .slot .. => none
  | .exceptions ps => some ps

theorem exceptions_foldl (es : List Entry) (s : Settings) :
    (es.foldl Entry.apply s).exceptions =
      s.exceptions ++ (es.filterMap Entry.block?).flatten.map Phrase.text := by
  induction es generalizing s with
  | nil => simp
  | cons e es ih =>
    rw [List.foldl_cons, ih]
    cases e with
    | slot slot v => rfl
    | exceptions ps => simp [Entry.apply, Entry.block?]

namespace Configuration

theorem slot_mem_entries (c : Configuration) (slot : Kind × Field) (v : Phrase) :
    .slot slot v ∈ c.entries ↔ c.value? slot = some v := by
  simp [entries, slots_complete]

theorem block?_entries (c : Configuration) :
    c.entries.filterMap Entry.block? = c.exceptions.toList := by
  have hs : (slots.filterMap fun slot => (c.value? slot).map (Entry.slot slot)).filterMap
      Entry.block? = [] := by
    rw [List.filterMap_filterMap, List.filterMap_eq_nil_iff]
    intro slot _
    cases c.value? slot <;> rfl
  rw [entries, List.filterMap_append, hs, List.nil_append]
  cases c.exceptions <;> rfl

theorem held_settings (c : Configuration) (slot : Kind × Field) :
    c.settings.held slot = (c.value? slot).bind slot.2.holds := by
  obtain ⟨k, f⟩ := slot
  cases f with
  | enable =>
    cases he : c.enable k with
    | none => simp [settings, Settings.held, value?, he]
    | some b => cases b <;> simp [settings, Settings.held, value?, he, Field.holds, Phrase.ofBool]
  | host => cases hh : c.host k <;> simp [settings, Settings.held, value?, hh, Field.holds]
  | port => cases hp : c.port k <;> simp [settings, Settings.held, value?, hp, Field.holds]

/-- The entries of a configuration may come in any order. -/
theorem foldl_apply_perm (c : Configuration) {es : List Entry} (h : es.Perm c.entries) :
    es.foldl Entry.apply {} = c.settings := by
  have hmem : ∀ slot v, .slot slot v ∈ es ↔ c.value? slot = some v := by
    intro slot v
    rw [h.mem_iff, slot_mem_entries]
  refine Settings.ext_held (fun slot => ?_) ?_
  · rw [held_settings]
    cases hv : c.value? slot with
    | none =>
      have hn : ∀ v, .slot slot v ∉ es := by simp [hmem, hv]
      rw [held_foldl_of_not_mem hn]
      obtain ⟨k, f⟩ := slot
      cases f <;> rfl
    | some v =>
      have hu : ∀ w, .slot slot w ∈ es → w = v := by simp [hmem, hv, eq_comm]
      rw [held_foldl_of_mem ((hmem slot v).mpr hv) hu]
      rfl
  · have hb : es.filterMap Entry.block? = c.exceptions.toList := by
      have hp := h.filterMap Entry.block?
      rw [block?_entries] at hp
      cases he : c.exceptions with
      | none =>
        rw [he] at hp
        exact List.perm_nil.mp hp
      | some ps =>
        rw [he] at hp
        exact List.perm_singleton.mp hp
    rw [exceptions_foldl, hb]
    cases he : c.exceptions <;> simp [settings, he]

end Configuration

/-- Reading undoes printing, for every order of the entries, every indentation and line end, and
with any lines of noise between the entries. -/
theorem ofListing_printed (c : Configuration) (items : List Item)
    (h : (items.filterMap Item.content?).Perm c.entries) (style : ℕ → LineStyle) :
    Settings.ofListing (.ofList (printLines style (items.flatMap Item.lines))) = c.settings := by
  rw [ofListing_printLines]
  exact c.foldl_apply_perm h

/-! A configuration whose listing is easily misread: a mark and a brace in its texts, a key that
resembles a proxy's, and lines of both ends. -/

private def digits : Phrase := ⟨"8080", by decide, by decide, by decide⟩

private def mark : Phrase := ⟨"a : b", by decide, by decide, by decide⟩

private def brace : Phrase := ⟨"\x7d", by decide, by decide, by decide⟩

private def header : Noise := ⟨"<dictionary> \x7b".toList, by decide, by simp [splitOnce?]⟩

private def passive : Noise :=
  ⟨" FTPPassive : 1".toList, by decide, by simp [splitOnce?]; decide⟩

private def misleading : Configuration where
  enable := fun | .http => some true | .socks => some false | _ => none
  host := fun | .https => some mark | _ => none
  port := fun | .http => some digits | _ => none
  exceptions := some [brace, mark]

private def backwards : List Item :=
  [.noise header, .entry (.exceptions [brace, mark]),
    .entry (.slot (.socks, .enable) (.ofBool false)), .noise passive,
    .entry (.slot (.https, .host) mark), .entry (.slot (.http, .port) digits),
    .entry (.slot (.http, .enable) (.ofBool true))]

private def mixedEnds (i : ℕ) : LineStyle :=
  { indent := [' ', '\t'], carriageReturn := i % 2 == 1 }

theorem ofListing_printed_backwards :
    (backwards.filterMap Item.content?).Perm misleading.entries ∧
      Settings.ofListing (.ofList (printLines mixedEnds (backwards.flatMap Item.lines))) =
        misleading.settings ∧
      String.ofList (printLines mixedEnds (backwards.flatMap Item.lines)) =
        " \t<dictionary> \x7b\n \tExceptionsList : <array> \x7b\r\n \t0 : \x7d\n \t1 : a : b\r\n" ++
          " \t\x7d\n \tSOCKSEnable : 0\r\n \t FTPPassive : 1\n \tHTTPSProxy : a : b\r\n" ++
          " \tHTTPPort : 8080\n \tHTTPEnable : 1\r\n" := by
  have hp : (backwards.filterMap Item.content?).Perm misleading.entries :=
    List.reverse_perm misleading.entries
  exact ⟨hp, ofListing_printed misleading backwards hp mixedEnds, by decide +kernel⟩

end HostProfile.Proxy
