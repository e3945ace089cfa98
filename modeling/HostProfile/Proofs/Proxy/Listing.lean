import HostProfile.Proofs.Proxy.Printing

/-! Reading a printed listing line by line. Outside the block of exceptions each entry writes one
place of the settings, and a line of noise writes none. -/
namespace HostProfile.Proxy
open Text

/-! ### Single lines -/

theorem entryOf?_entryLine {key value : List Char} (hs : ' ' ∉ key) (hk : Trimmed key)
    (hv : Trimmed value) : entryOf? (entryLine key value) = some (.ofList key, .ofList value) := by
  unfold entryOf? entryLine
  rw [splitOnce?_append hs]
  simp only [Option.map_some, trim_of_trimmed hk, trim_of_trimmed hv]

theorem slotName_line (slot : Kind × Field) :
    ' ' ∉ (slotName slot).toList ∧ (slotName slot).toList ≠ [] ∧
      Trimmed (slotName slot).toList ∧ slotName slot ≠ "ExceptionsList" := by
  obtain ⟨k, f⟩ := slot
  cases k <;> cases f <;> decide

theorem slot?_slotName (slot : Kind × Field) : slot? (slotName slot) = some slot := by
  obtain ⟨k, f⟩ := slot
  cases k <;> cases f <;> decide

theorem slots_complete (slot : Kind × Field) : slot ∈ slots := by
  obtain ⟨k, f⟩ := slot
  cases k <;> cases f <;> decide

/-- The search through the starts of a key finds nothing but the whole of it. -/
theorem slotName_of_slot? {key : String} {slot : Kind × Field} (h : slot? key = some slot) :
    slotName slot = key := by
  obtain ⟨k, -, hk⟩ := List.exists_of_findSome?_eq_some h
  simp only [Option.bind_eq_bind, Option.bind_eq_some_iff, Option.pure_def,
    Option.some.injEq] at hk
  obtain ⟨rest, hr, field, hf, rfl⟩ := hk
  have hname : field.listingName = .ofList rest := by
    simpa using List.find?_some hf
  have hkey : k.listingName.toList ++ rest = key.toList :=
    List.isPrefixOf?_eq_some_iff_append_eq.mp hr
  apply String.toList_inj.mp
  rw [slotName, hname, String.toList_append, String.toList_ofList, hkey]

theorem slot?_eq_none {key : String} (h : key ∉ recognised) : slot? key = none := by
  refine Option.eq_none_iff_forall_ne_some.mpr fun slot hs => h ?_
  rw [← slotName_of_slot? hs]
  exact List.mem_cons_of_mem _ (List.mem_map_of_mem (slots_complete slot))

theorem Phrase.toList_ne_nil (p : Phrase) : p.text.toList ≠ [] := by
  intro h
  exact p.nonempty (String.toList_eq_nil_iff.mp h)

namespace Listing

theorem step_trim (l : Listing) (line : List Char) : l.step (trim line) = l.step line := by
  unfold step
  rw [trim_trim]

theorem step_entryLine {s : Settings} {key value : List Char} (hs : ' ' ∉ key) (hk : key ≠ [])
    (hkt : Trimmed key) (hv : value ≠ []) (hvt : Trimmed value) :
    step ⟨s, false⟩ (entryLine key value) =
      if String.ofList key = "ExceptionsList" then
        ⟨s, "<array>".toList.isPrefixOf value⟩
      else match slot? (.ofList key) with
        | some (k, f) => ⟨s.setEndpoint k ((s.endpoint k).set (.ofList value) f), false⟩
        | none => ⟨s, false⟩ := by
  simp only [step, trim_of_trimmed (trimmed_entryLine hk hkt hv hvt), addEntry,
    entryOf?_entryLine hs hkt hvt, String.toList_ofList]
  rfl

theorem step_slot (s : Settings) (slot : Kind × Field) (v : Phrase) :
    step ⟨s, false⟩ (entryLine (slotName slot).toList v.text.toList) =
      ⟨s.setEndpoint slot.1 ((s.endpoint slot.1).set v.text slot.2), false⟩ := by
  obtain ⟨hs, hk, hkt, hne⟩ := slotName_line slot
  rw [step_entryLine hs hk hkt v.toList_ne_nil v.trimmed, String.ofList_toList,
    String.ofList_toList, if_neg hne, slot?_slotName]

/-! ### The block of exceptions -/

theorem step_open (s : Settings) :
    step ⟨s, false⟩ (entryLine "ExceptionsList".toList "<array> \x7b".toList) = ⟨s, true⟩ := by
  rw [step_entryLine (by decide) (by decide) (by decide) (by decide) (by decide),
    String.ofList_toList, if_pos rfl]
  congr 1

theorem step_close (s : Settings) : step ⟨s, true⟩ ['\x7d'] = ⟨s, false⟩ := by
  rfl

theorem step_pattern (s : Settings) (i : ℕ) (p : Phrase) :
    step ⟨s, true⟩ (patternLine i p) =
      ⟨{ s with exceptions := s.exceptions ++ [p.text] }, true⟩ := by
  have hd : ∀ c ∈ i.repr.toList, c.isDigit = true := by
    intro c hc
    rw [Nat.toList_repr] at hc
    exact Nat.isDigit_of_mem_toDigits (by decide) (by decide) hc
  have hs : ' ' ∉ i.repr.toList := fun h => by simpa using hd _ h
  have hk : i.repr.toList ≠ [] := by
    rw [Nat.toList_repr]
    exact Nat.toDigits_ne_nil
  have hkt : Trimmed i.repr.toList := trimmed_of_noBlank fun c hc => isBlank_of_isDigit (hd c hc)
  have hne : patternLine i p ≠ ['\x7d'] := by
    intro h
    have hm : ' ' ∈ patternLine i p := by simp [patternLine, entryLine]
    rw [h] at hm
    exact absurd hm (by decide)
  have hp : p.text.isEmpty = false := by
    simpa using p.nonempty
  have ht : trim (patternLine i p) = patternLine i p :=
    trim_of_trimmed (trimmed_entryLine hk hkt p.toList_ne_nil p.trimmed)
  simp only [step, ht, hne, if_true, if_false, addException]
  rw [patternLine, entryOf?_entryLine hs hkt p.trimmed]
  simp only [String.ofList_toList, hp]
  rfl

/-- Inside the block each line adds its pattern, whatever its number. -/
theorem foldl_patterns (ps : List Phrase) (s : Settings) (index : ℕ → ℕ) :
    (ps.mapIdx fun i p => patternLine (index i) p).foldl step ⟨s, true⟩ =
      ⟨{ s with exceptions := s.exceptions ++ ps.map Phrase.text }, true⟩ := by
  induction ps generalizing s index with
  | nil => simp
  | cons p ps ih =>
    rw [List.mapIdx_cons, List.foldl_cons, step_pattern, ih _ fun i => index (i + 1)]
    simp

end Listing

/-! ### Entries and noise -/

/-- What an entry of a listing does to the settings. -/
def Entry.apply (s : Settings) : Entry → Settings
  | .slot (k, f) v => s.setEndpoint k ((s.endpoint k).set v.text f)
  | .exceptions ps => { s with exceptions := s.exceptions ++ ps.map Phrase.text }

theorem Listing.foldl_entry (s : Settings) (e : Entry) :
    e.lines.foldl step ⟨s, false⟩ = ⟨e.apply s, false⟩ := by
  cases e with
  | slot slot v => exact step_slot s slot v
  | exceptions ps =>
    have hb := foldl_patterns ps s id
    rw [Entry.lines, List.foldl_cons, step_open, List.foldl_append]
    simp only [id] at hb
    rw [hb, List.foldl_cons, step_close]
    rfl

/-- Blanks before a text can only hide its first separator if the text starts inside one. -/
theorem splitOnce?_blank_append {a t k v : List Char} (ha : AllBlank a)
    (h : splitOnce? [' ', ':', ' '] t = some (k, v)) :
    (∃ k', splitOnce? [' ', ':', ' '] (a ++ t) = some (k', v) ∧ trim k' = trim k) ∨
      ∃ r, t = ':' :: r := by
  induction a with
  | nil => exact Or.inl ⟨k, h, rfl⟩
  | cons c a ih =>
    have hc : isBlank c = true := ha c (by simp)
    have ha' : AllBlank a := fun d hd => ha d (by simp [hd])
    rcases ih ha' with ⟨k', hk', ht⟩ | hr
    · by_cases hp : [' ', ':', ' '].isPrefixOf (c :: (a ++ t)) = true
      · obtain ⟨r, hr⟩ := List.isPrefixOf_iff_prefix.mp hp
        obtain ⟨-, hat⟩ := List.cons.inj hr
        cases a with
        | nil => exact Or.inr ⟨_, hat.symm⟩
        | cons d a =>
          obtain ⟨rfl, -⟩ := List.cons.inj hat
          have hb : isBlank ':' = true := ha' _ (by simp)
          exact absurd hb (by decide)
      · refine Or.inl ⟨c :: k', ?_, ?_⟩
        · rw [List.cons_append, splitOnce?, if_neg hp, hk']
          rfl
        · rw [← ht]
          exact trim_append_left (a := [c]) (by simpa [AllBlank] using hc) k'
    · exact Or.inr hr

theorem colon_not_mem_recognised : ∀ name ∈ recognised, ':' ∉ name.toList := by
  decide

/-- Trimming a line of noise does not give it a key that is read. -/
theorem Noise.key_not_mem (n : Noise) {key value : String}
    (h : entryOf? (trim n.text) = some (key, value)) : key ∉ recognised := by
  unfold entryOf? at h
  obtain ⟨⟨k, v⟩, hs, he⟩ := Option.map_eq_some_iff.mp h
  obtain ⟨rfl, -⟩ := Prod.mk.inj he
  obtain ⟨a, b, ha, hb, htext⟩ := trim_decomposition n.text
  rw [List.append_assoc] at htext
  rcases splitOnce?_blank_append ha (splitOnce?_append_of_some hs b) with ⟨k', hk', ht⟩ | ⟨r, hr⟩
  · rw [← htext] at hk'
    rw [← ht]
    exact n.unread k' _ hk'
  · have hk : ':' ∈ k := by
      rw [← append_of_splitOnce? hs] at hr
      cases k with
      | nil => cases hr
      | cons c k =>
        obtain ⟨rfl, -⟩ := List.cons.inj hr
        simp
    intro hm
    apply colon_not_mem_recognised _ hm
    rw [String.toList_ofList]
    exact mem_trim hk (by decide)

namespace Listing

theorem step_noise (s : Settings) (n : Noise) : step ⟨s, false⟩ n.text = ⟨s, false⟩ := by
  rw [← step_trim]
  simp only [step, trim_trim, addEntry]
  cases he : entryOf? (trim n.text) with
  | none => rfl
  | some e =>
    obtain ⟨key, value⟩ := e
    have hk : key ∉ recognised := n.key_not_mem he
    have hne : key ≠ "ExceptionsList" := fun h => hk (h ▸ List.mem_cons_self ..)
    simp [hne, slot?_eq_none hk]

/-- Between entries the flag is down, so that noise is skipped and the next entry is read. -/
theorem foldl_items (items : List Item) (s : Settings) :
    (items.flatMap Item.lines).foldl step ⟨s, false⟩ =
      ⟨(items.filterMap Item.content?).foldl Entry.apply s, false⟩ := by
  induction items generalizing s with
  | nil => rfl
  | cons item items ih =>
    rw [List.flatMap_cons, List.foldl_append]
    cases item with
    | entry e =>
      rw [Item.lines, foldl_entry, ih]
      rfl
    | noise n =>
      rw [Item.lines, List.foldl_cons, step_noise, List.foldl_nil, ih]
      rfl

end Listing

/-! ### The page -/

theorem lines_print (st : LineStyle) {l : List Char} (h : '\n' ∉ l) (rest : List Char) :
    (lines (st.print l ++ rest)).map trim = trim l :: (lines rest).map trim := by
  let body := st.indent ++ l ++ (if st.carriageReturn then ['\r'] else [])
  have hbody : st.print l ++ rest = body ++ '\n' :: rest := by
    cases hc : st.carriageReturn <;> simp [LineStyle.print, body, hc]
  have hn : '\n' ∉ body := by
    cases hc : st.carriageReturn <;> simp [body, hc, st.oneLine, h]
  have hb : AllBlank (if st.carriageReturn then ['\r'] else []) := by
    cases st.carriageReturn <;> decide
  have ht : trim body = trim l := trim_append st.blank hb l
  obtain ⟨l', hl', he⟩ := lines_append hn rest
  have hl : trim l' = trim body := by
    rcases he with he | he
    · rw [he]
    · rw [he]
      exact (trim_append_right (by decide) l').symm
  rw [hbody, hl', List.map_cons, hl, ht]

/-- Neither indentation nor the ends of the lines show after trimming. -/
theorem lines_printLines_append (ls : List (List Char)) (h : ∀ l ∈ ls, '\n' ∉ l)
    (style : ℕ → LineStyle) (rest : List Char) :
    (lines (printLines style ls ++ rest)).map trim = ls.map trim ++ (lines rest).map trim := by
  induction ls generalizing style with
  | nil => rfl
  | cons l ls ih =>
    have hl : '\n' ∉ l := h l (List.mem_cons_self ..)
    have hls : ∀ l ∈ ls, '\n' ∉ l := fun l hm => h l (List.mem_cons_of_mem _ hm)
    have hp : printLines style (l :: ls) =
        (style 0).print l ++ printLines (fun i => style (i + 1)) ls := by
      simp [printLines]
    rw [hp, List.append_assoc, lines_print _ hl, ih hls, List.map_cons, List.cons_append]

theorem lines_printLines (ls : List (List Char)) (h : ∀ l ∈ ls, '\n' ∉ l) (style : ℕ → LineStyle) :
    (lines (printLines style ls)).map trim = ls.map trim := by
  have hp := lines_printLines_append ls h style []
  rwa [List.append_nil, lines.eq_1, List.map_nil, List.append_nil] at hp

theorem Listing.foldl_step_trim (ls : List (List Char)) (l : Listing) :
    (ls.map trim).foldl step l = ls.foldl step l := by
  rw [List.foldl_map]
  simp only [step_trim]

theorem entryLine_oneLine {key value : List Char} (hk : '\n' ∉ key) (hv : '\n' ∉ value) :
    '\n' ∉ entryLine key value := by
  simp [entryLine, hk, hv]

theorem Item.lines_oneLine (item : Item) : ∀ l ∈ item.lines, '\n' ∉ l := by
  intro l hl
  cases item with
  | noise n =>
    rw [List.mem_singleton.mp hl]
    exact n.oneLine
  | entry e =>
    cases e with
    | slot slot v =>
      have hs : '\n' ∉ (slotName slot).toList := by
        obtain ⟨k, f⟩ := slot
        cases k <;> cases f <;> decide
      rw [List.mem_singleton.mp hl]
      exact entryLine_oneLine hs v.oneLine
    | exceptions ps =>
      rcases List.mem_cons.mp hl with rfl | hl
      · decide
      · rcases List.mem_append.mp hl with hl | hl
        · obtain ⟨i, hi, rfl⟩ := List.mem_mapIdx.mp hl
          refine entryLine_oneLine (fun hd => ?_) ps[i].oneLine
          rw [Nat.toList_repr] at hd
          exact absurd (Nat.isDigit_of_mem_toDigits (by decide) (by decide) hd) (by decide)
        · rw [List.mem_singleton.mp hl]
          decide

theorem ofListing_printLines (items : List Item) (style : ℕ → LineStyle) :
    Settings.ofListing (.ofList (printLines style (items.flatMap Item.lines))) =
      (items.filterMap Item.content?).foldl Entry.apply {} := by
  have hn : ∀ l ∈ items.flatMap Item.lines, '\n' ∉ l := by
    intro l hl
    obtain ⟨item, -, hl⟩ := List.mem_flatMap.mp hl
    exact item.lines_oneLine l hl
  unfold Settings.ofListing
  rw [String.toList_ofList, ← Listing.foldl_step_trim, lines_printLines _ hn style,
    Listing.foldl_step_trim, Listing.foldl_items]

end HostProfile.Proxy
