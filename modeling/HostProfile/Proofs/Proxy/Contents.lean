import HostProfile.Proofs.Proxy.RoundTrip

/-! What the lines of any listing say. A line stands inside the block of exceptions if the last line
before it that opens or closes the block opens it. The lines inside list the patterns and those
outside hold the entries, of which the last for each place counts. -/
namespace HostProfile.Proxy

open Text

/-! ### The block of exceptions -/

def opensBlock (line : List Char) : Bool :=
  (entryOf? line).any fun e => e.1 == "ExceptionsList" && "<array>".toList.isPrefixOf e.2.toList

def closesBlock (line : List Char) : Bool :=
  line == ['\x7d']

/-- Whether the block is open behind some lines. -/
def blockOpen (before : List (List Char)) : Bool :=
  (before.reverse.find? fun l => opensBlock l || closesBlock l).any opensBlock

theorem blockOpen_append_singleton (ls : List (List Char)) (l : List Char) :
    blockOpen (ls ++ [l]) = if opensBlock l || closesBlock l then opensBlock l else blockOpen ls := by
  unfold blockOpen
  rw [List.reverse_append, List.reverse_singleton, List.singleton_append, List.find?_cons]
  split <;> simp_all

/-- The lines that stand inside the block, or those that stand outside it. -/
def standing (inside : Bool) (ls : List (List Char)) : List (List Char) :=
  (ls.zipIdx.filter fun x => blockOpen (ls.take x.2) == inside).map Prod.fst

theorem standing_append_singleton (inside : Bool) (ls : List (List Char)) (l : List Char) :
    standing inside (ls ++ [l]) =
      standing inside ls ++ if blockOpen ls = inside then [l] else [] := by
  have hls : ls.zipIdx.filter (fun x => blockOpen ((ls ++ [l]).take x.2) == inside) =
      ls.zipIdx.filter fun x => blockOpen (ls.take x.2) == inside := by
    apply List.filter_congr
    intro x hx
    have hi : x.2 < ls.length := by
      have hm := List.mem_zipIdx (x := x.1) (i := x.2) hx
      omega
    rw [List.take_append_of_le_length hi.le]
  have hl : (ls ++ [l]).take ls.length = ls := List.take_left ..
  unfold standing
  rw [List.zipIdx_append, List.filter_append, List.map_append, hls]
  by_cases h : blockOpen ls = inside
  · simp [h, hl]
  · simp [h, hl]

theorem standing_subset (inside : Bool) (ls : List (List Char)) : standing inside ls ⊆ ls := by
  intro l hl
  obtain ⟨x, hx, rfl⟩ := List.mem_map.mp hl
  exact List.fst_mem_of_mem_zipIdx (List.mem_of_mem_filter hx)

/-! ### What lines say -/

/-- The patterns that lines list, in their order. -/
def patterns (ls : List (List Char)) : List String :=
  (standing true ls).filterMap fun l => (entryOf? l).map Prod.snd

/-- What a line outside the block sets, and to which value. -/
def assigned? (line : List Char) : Option ((Kind × Field) × String) :=
  (entryOf? line).bind fun e => (slot? e.1).map fun slot => (slot, e.2)

def assigned (ls : List (List Char)) : List ((Kind × Field) × String) :=
  (standing false ls).filterMap assigned?

/-- The last value that lines set for a place. -/
def said? (ls : List (List Char)) (slot : Kind × Field) : Option String :=
  ((assigned ls).reverse.find? fun e => e.1 = slot).map Prod.snd

/-- The settings that lines describe. An endpoint is enabled only by the value `1`. -/
def contents (ls : List (List Char)) : Settings where
  endpoint k :=
    { enabled := said? ls (k, .enable) == some "1"
      host := said? ls (k, .host)
      port := said? ls (k, .port) }
  exceptions := patterns ls

theorem filterMap_singleton {α β : Type} (f : α → Option β) (a : α) :
    [a].filterMap f = (f a).toList := by
  cases h : f a <;> simp [h]

theorem patterns_append_singleton (ls : List (List Char)) (l : List Char) :
    patterns (ls ++ [l]) =
      patterns ls ++ if blockOpen ls = true then ((entryOf? l).map Prod.snd).toList else [] := by
  unfold patterns
  rw [standing_append_singleton, List.filterMap_append]
  split
  · rw [filterMap_singleton]
  · rfl

theorem assigned_append_singleton (ls : List (List Char)) (l : List Char) :
    assigned (ls ++ [l]) =
      assigned ls ++ if blockOpen ls = false then (assigned? l).toList else [] := by
  unfold assigned
  rw [standing_append_singleton, List.filterMap_append]
  split
  · rw [filterMap_singleton]
  · rfl

/-- A later value hides an earlier one. -/
theorem said?_of_assigned_eq_append {ls ms : List (List Char)} {es : List ((Kind × Field) × String)}
    (h : assigned ms = assigned ls ++ es) (slot : Kind × Field) :
    said? ms slot = ((es.reverse.find? fun e => e.1 = slot).map Prod.snd).or (said? ls slot) := by
  unfold said?
  rw [h, List.reverse_append, List.find?_append]
  cases es.reverse.find? fun e => e.1 = slot <;> rfl

theorem said?_of_assigned_eq {ls ms : List (List Char)} (h : assigned ms = assigned ls) :
    said? ms = said? ls := by
  unfold said?
  rw [h]

theorem said?_of_assigned_eq_append_singleton {ls ms : List (List Char)} {slot : Kind × Field}
    {v : String} (h : assigned ms = assigned ls ++ [(slot, v)]) (slot' : Kind × Field) :
    said? ms slot' = if slot = slot' then some v else said? ls slot' := by
  rw [said?_of_assigned_eq_append h]
  by_cases hs : slot = slot' <;> simp [hs]

/-- What is seen of the last value for a place. Of a value that enables nothing, nothing is seen. -/
def Field.shows : Field → Option String → Option String
  | .enable, v => v.filter (· == "1")
  | .host, v => v
  | .port, v => v

theorem held_contents (ls : List (List Char)) (slot : Kind × Field) :
    (contents ls).held slot = slot.2.shows (said? ls slot) := by
  obtain ⟨k, f⟩ := slot
  cases f with
  | enable =>
    have he : ((contents ls).endpoint k).enabled = (said? ls (k, .enable) == some "1") := rfl
    have hh : (contents ls).held (k, .enable) =
        if ((contents ls).endpoint k).enabled then some "1" else none := rfl
    rw [hh, he, Field.shows]
    cases said? ls (k, .enable) with
    | none => rfl
    | some v => by_cases hv : v = "1" <;> simp [Option.filter, hv]
  | host => rfl
  | port => rfl

/-! ### One line -/

/-- Text before the mark of an entry and text behind it is not blank where the line is trimmed. -/
theorem not_allBlank_of_trimmed {a b : List Char} (h : Trimmed (a ++ [' ', ':', ' '] ++ b)) :
    ¬ AllBlank a ∧ ¬ AllBlank b := by
  have hs : isBlank ' ' = true := by decide
  constructor
  · intro ha
    cases a with
    | nil =>
      have hc := h.1 ' ' rfl
      rw [hs] at hc
      cases hc
    | cons c a =>
      have hc := h.1 c rfl
      rw [ha c (List.mem_cons_self ..)] at hc
      cases hc
  · intro hb
    rcases List.eq_nil_or_concat b with rfl | ⟨b, c, rfl⟩
    · have hc := h.2 ' ' (by simp)
      rw [hs] at hc
      cases hc
    · have hlast : (a ++ [' ', ':', ' '] ++ b.concat c).getLast? = some c := by
        rw [List.concat_eq_append, ← List.append_assoc, List.getLast?_concat]
      have hc := h.2 c hlast
      rw [hb c (by simp)] at hc
      cases hc

theorem ofList_trim_ne_empty {cs : List Char} (h : ¬ AllBlank cs) : String.ofList (trim cs) ≠ "" := by
  intro he
  rw [← trim_eq_nil_iff] at h
  exact h (String.ofList_injective he)

theorem entryOf?_ne_empty {l : List Char} (hl : Trimmed l) {key value : String}
    (h : entryOf? l = some (key, value)) : key ≠ "" ∧ value ≠ "" := by
  unfold entryOf? at h
  obtain ⟨⟨a, b⟩, hs, he⟩ := Option.map_eq_some_iff.mp h
  obtain ⟨rfl, rfl⟩ := Prod.mk.inj he
  rw [← append_of_splitOnce? hs] at hl
  obtain ⟨ha, hb⟩ := not_allBlank_of_trimmed hl
  exact ⟨ofList_trim_ne_empty ha, ofList_trim_ne_empty hb⟩

theorem entryOf?_value {l : List Char} {key value : String} (h : entryOf? l = some (key, value)) :
    Trimmed value.toList ∧ ∀ c ∈ value.toList, c ∈ l := by
  unfold entryOf? at h
  obtain ⟨⟨a, b⟩, hs, he⟩ := Option.map_eq_some_iff.mp h
  obtain ⟨rfl, rfl⟩ := Prod.mk.inj he
  rw [String.toList_ofList]
  refine ⟨trimmed_trim b, fun c hc => ?_⟩
  rw [← append_of_splitOnce? hs]
  exact List.mem_append_right _ (mem_of_mem_trim hc)

theorem assigned?_eq_some_iff {l : List Char} {slot : Kind × Field} {v : String} :
    assigned? l = some (slot, v) ↔ ∃ key, entryOf? l = some (key, v) ∧ slot? key = some slot := by
  unfold assigned?
  constructor
  · intro h
    obtain ⟨⟨key, w⟩, he, hs⟩ := Option.bind_eq_some_iff.mp h
    obtain ⟨slot', hk, heq⟩ := Option.map_eq_some_iff.mp hs
    obtain ⟨rfl, rfl⟩ := Prod.mk.inj heq
    exact ⟨key, he, hk⟩
  · intro h
    obtain ⟨key, he, hk⟩ := h
    rw [he, Option.bind_some, hk]
    rfl

/-! ### One more line -/

theorem contents_of_inside {ls : List (List Char)} (ho : blockOpen ls = true) (l : List Char) :
    contents (ls ++ [l]) =
      { contents ls with exceptions := patterns ls ++ ((entryOf? l).map Prod.snd).toList } := by
  have ha : assigned (ls ++ [l]) = assigned ls := by
    rw [assigned_append_singleton, ho]
    exact List.append_nil _
  unfold contents
  rw [said?_of_assigned_eq ha, patterns_append_singleton, if_pos ho]

theorem patterns_of_outside {ls : List (List Char)} (ho : blockOpen ls = false) (l : List Char) :
    patterns (ls ++ [l]) = patterns ls := by
  rw [patterns_append_singleton, ho]
  exact List.append_nil _

theorem contents_of_outside {ls : List (List Char)} (ho : blockOpen ls = false) {l : List Char}
    (h : assigned? l = none) : contents (ls ++ [l]) = contents ls := by
  have ha : assigned (ls ++ [l]) = assigned ls := by
    rw [assigned_append_singleton, h]
    exact (congrArg _ (ite_self _)).trans (List.append_nil _)
  unfold contents
  rw [said?_of_assigned_eq ha, patterns_of_outside ho]

theorem contents_of_assigned {ls : List (List Char)} (ho : blockOpen ls = false) {l : List Char}
    {k : Kind} {f : Field} {v : String} (h : assigned? l = some ((k, f), v)) (hv : v ≠ "") :
    contents (ls ++ [l]) =
      (contents ls).setEndpoint k (((contents ls).endpoint k).set v f) := by
  have ha : assigned (ls ++ [l]) = assigned ls ++ [((k, f), v)] := by
    rw [assigned_append_singleton, h, if_pos ho]
    rfl
  have hs := said?_of_assigned_eq_append_singleton ha
  have hn : nonEmpty? v = some v := (nonEmpty?_eq_some_iff v v).mpr ⟨hv, rfl⟩
  apply Settings.ext_held
  · intro slot
    obtain ⟨k', f'⟩ := slot
    by_cases hk : k' = k
    · subst hk
      cases f <;> cases f' <;> simp [Settings.held, contents, hs, Endpoint.set, hn]
    · have hk' : k ≠ k' := Ne.symm hk
      cases f' <;> simp [Settings.held, contents, hs, hk, hk']
  · exact patterns_of_outside ho l

namespace Listing

/-- Inside the block a closing brace ends it, and any other line adds the pattern it has. -/
theorem step_of_inside {ls : List (List Char)} (ho : blockOpen ls = true) {l : List Char}
    (hl : Trimmed l) :
    step ⟨contents ls, true⟩ l = ⟨contents (ls ++ [l]), blockOpen (ls ++ [l])⟩ := by
  rw [contents_of_inside ho, blockOpen_append_singleton, ho]
  simp only [step, trim_of_trimmed hl, if_true]
  by_cases hc : l = ['\x7d']
  · subst hc
    have he : entryOf? ['\x7d'] = none := by decide
    have hop : opensBlock ['\x7d'] = false := by rw [opensBlock, he, Option.any_none]
    simp [he, hop, closesBlock, contents]
  · have hb : closesBlock l = false := beq_eq_false_iff_ne.mpr hc
    have ho' : (if opensBlock l || closesBlock l then opensBlock l else true) = true := by
      cases h : opensBlock l <;> simp [hb]
    rw [if_neg hc, addException, ho']
    cases he : entryOf? l with
    | none => simp [contents]
    | some e =>
      obtain ⟨key, value⟩ := e
      have hv : value.isEmpty = false := by simpa using (entryOf?_ne_empty hl he).2
      simp [hv, contents]

/-- Outside the block an entry opens it, sets a place or says nothing of proxies. -/
theorem step_of_outside {ls : List (List Char)} (ho : blockOpen ls = false) {l : List Char}
    (hl : Trimmed l) :
    step ⟨contents ls, false⟩ l = ⟨contents (ls ++ [l]), blockOpen (ls ++ [l])⟩ := by
  rw [blockOpen_append_singleton, ho]
  have hif : (if opensBlock l || closesBlock l then opensBlock l else false) = opensBlock l := by
    cases h : opensBlock l <;> simp
  rw [hif]
  simp only [step, trim_of_trimmed hl, Bool.false_eq_true, if_false, addEntry]
  cases he : entryOf? l with
  | none =>
    have ha : assigned? l = none := by simp [assigned?, he]
    rw [contents_of_outside ho ha]
    simp [opensBlock, he]
  | some e =>
    obtain ⟨key, value⟩ := e
    by_cases hk : key = "ExceptionsList"
    · have ha : assigned? l = none := by
        have hs : slot? "ExceptionsList" = none := by decide
        simp [assigned?, he, hk, hs]
      rw [contents_of_outside ho ha]
      simp [opensBlock, he, hk]
    · have hb : opensBlock l = false := by simp [opensBlock, he, hk]
      rw [hb]
      cases hs : slot? key with
      | none =>
        have ha : assigned? l = none := by simp [assigned?, he, hs]
        rw [contents_of_outside ho ha]
        simp [hk, hs]
      | some slot =>
        obtain ⟨k, f⟩ := slot
        have ha : assigned? l = some ((k, f), value) := assigned?_eq_some_iff.mpr ⟨key, he, hs⟩
        rw [contents_of_assigned ho ha (entryOf?_ne_empty hl he).2]
        simp [hk, hs]

/-- What has been read of any lines is what they say, and the flag tells whether the block is open. -/
theorem foldl_step (ls : List (List Char)) :
    ls.foldl step {} = ⟨contents (ls.map trim), blockOpen (ls.map trim)⟩ := by
  induction ls using List.reverseRecOn with
  | nil => rfl
  | append_singleton ls l ih =>
    have hl := trimmed_trim l
    rw [List.foldl_append, List.foldl_cons, List.foldl_nil, ih, ← step_trim, List.map_append,
      List.map_singleton]
    cases ho : blockOpen (ls.map trim) with
    | true => exact step_of_inside ho hl
    | false => exact step_of_outside ho hl

end Listing

/-- The lines of a text, without the blanks around them. -/
def trimmedLines (s : String) : List (List Char) :=
  (lines s.toList).map trim

theorem Settings.ofListing_eq (s : String) : ofListing s = contents (trimmedLines s) := by
  unfold ofListing trimmedLines
  rw [Listing.foldl_step]

theorem Settings.exceptions_ofListing (s : String) :
    (ofListing s).exceptions = patterns (trimmedLines s) := by
  rw [ofListing_eq]
  rfl

end HostProfile.Proxy
