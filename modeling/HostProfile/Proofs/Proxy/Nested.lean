import HostProfile.Proofs.Proxy.Contents

/-! Dictionaries within a listing. The reader does not count braces outside the block of exceptions, and
so it takes the entries of an inner dictionary for the outer one's. -/
namespace HostProfile.Proxy

open Text

variable {a b ls ms : List (List Char)}

/-! ### Listings joined outside the block -/

theorem blockOpen_append (ha : blockOpen a = false) (b : List (List Char)) :
    blockOpen (a ++ b) = blockOpen b := by
  induction b using List.reverseRecOn with
  | nil =>
    rw [List.append_nil, ha]
    rfl
  | append_singleton b l ih =>
    rw [← List.append_assoc, blockOpen_append_singleton, blockOpen_append_singleton, ih]

theorem patterns_append (ha : blockOpen a = false) (b : List (List Char)) :
    patterns (a ++ b) = patterns a ++ patterns b := by
  induction b using List.reverseRecOn with
  | nil => rw [List.append_nil, patterns.eq_1 []]; exact (List.append_nil _).symm
  | append_singleton b l ih =>
    rw [← List.append_assoc, patterns_append_singleton, patterns_append_singleton,
      blockOpen_append ha, ih, List.append_assoc]

theorem assigned_append (ha : blockOpen a = false) (b : List (List Char)) :
    assigned (a ++ b) = assigned a ++ assigned b := by
  induction b using List.reverseRecOn with
  | nil => rw [List.append_nil, assigned.eq_1 []]; exact (List.append_nil _).symm
  | append_singleton b l ih =>
    rw [← List.append_assoc, assigned_append_singleton, assigned_append_singleton,
      blockOpen_append ha, ih, List.append_assoc]

theorem said?_append (ha : blockOpen a = false) (b : List (List Char)) (slot : Kind × Field) :
    said? (a ++ b) slot = (said? b slot).or (said? a slot) :=
  said?_of_assigned_eq_append (assigned_append ha b) slot

/-! ### The places between the entries of a dictionary -/

theorem blockOpen_singleton {l : List Char} (h : opensBlock l = false) : blockOpen [l] = false := by
  have hs := blockOpen_append_singleton [] l
  rw [List.nil_append, h] at hs
  rw [hs]
  exact ite_self _

theorem entryOf?_brace : entryOf? ['\x7d'] = none := by
  decide

/-- A closing brace ends the block and says nothing more. -/
theorem append_brace (ls : List (List Char)) :
    blockOpen (ls ++ [['\x7d']]) = false ∧ patterns (ls ++ [['\x7d']]) = patterns ls ∧
      assigned (ls ++ [['\x7d']]) = assigned ls := by
  have hopens : opensBlock ['\x7d'] = false := by
    rw [opensBlock, entryOf?_brace, Option.any_none]
  have hassigned : assigned? ['\x7d'] = none := by
    rw [assigned?, entryOf?_brace, Option.bind_none]
  refine ⟨?_, ?_, ?_⟩
  · rw [blockOpen_append_singleton, hopens]
    rfl
  · rw [patterns_append_singleton, entryOf?_brace]
    exact (congrArg _ (ite_self _)).trans (List.append_nil _)
  · rw [assigned_append_singleton, hassigned]
    exact (congrArg _ (ite_self _)).trans (List.append_nil _)

/-- The entries of one dictionary: lines that open and close nothing, and blocks with balanced lines in
them. -/
inductive Level : List (List Char) → Prop where
  | nil : Level []
  | line {l : List Char} {ls : List (List Char)} (ho : opensBlock l = false)
      (hc : closesBlock l = false) (h : Level ls) : Level (l :: ls)
  | block (l : List Char) (inner ls : List (List Char)) (hi : Level inner) (h : Level ls) :
      Level (l :: inner ++ [['\x7d']] ++ ls)

/-- No place between the entries of a dictionary is inside the block of exceptions. -/
theorem Level.blockOpen (h : Level ls) : blockOpen ls = false := by
  induction h with
  | nil => rfl
  | line ho hc h ih => exact (blockOpen_append (blockOpen_singleton ho) _).trans ih
  | block l inner ls hi h _ ih => exact (blockOpen_append (append_brace _).1 _).trans ih

/-! ### What settings show -/

theorem contents_eq_iff :
    contents ls = contents ms ↔ patterns ls = patterns ms ∧
      ∀ slot : Kind × Field, slot.2.shows (said? ls slot) = slot.2.shows (said? ms slot) := by
  simp only [← held_contents]
  constructor
  · intro h
    have hp : patterns ls = patterns ms := congrArg Settings.exceptions h
    exact ⟨hp, fun slot => by rw [h]⟩
  · intro h
    exact Settings.ext_held h.2 h.1

/-- What joined listings say, the middle one ending outside the block. -/
theorem contents_append (ha : blockOpen a = false) {n : List (List Char)} (hn : blockOpen n = false)
    (b : List (List Char)) :
    patterns (a ++ (n ++ b)) = patterns a ++ patterns n ++ patterns b ∧
      ∀ slot, said? (a ++ (n ++ b)) slot = ((said? b slot).or (said? n slot)).or (said? a slot) := by
  constructor
  · rw [patterns_append ha, patterns_append hn, List.append_assoc]
  · intro slot
    rw [said?_append ha, said?_append hn]

/-- Lines between others make no difference exactly if they list nothing and all that is seen of them is
hidden by the later lines or said by the earlier ones. -/
theorem contents_append_eq_iff (ha : blockOpen a = false) {n : List (List Char)}
    (hn : blockOpen n = false) (b : List (List Char)) :
    contents (a ++ (n ++ b)) = contents (a ++ b) ↔
      patterns n = [] ∧ ∀ (slot : Kind × Field) (v : String), said? n slot = some v →
        said? b slot = none → slot.2.shows (some v) = slot.2.shows (said? a slot) := by
  obtain ⟨hp, hs⟩ := contents_append ha hn b
  rw [contents_eq_iff, hp, patterns_append ha, List.append_assoc, List.append_cancel_left_eq,
    List.append_left_eq_self]
  apply and_congr_right
  intro _
  apply forall_congr'
  intro slot
  rw [hs, said?_append ha]
  cases said? b slot with
  | some w => simp
  | none =>
    cases said? n slot with
    | none => simp
    | some v => simp

/-! ### An inner dictionary -/

/-- An entry that is a dictionary, with a key that is not for a reader of proxy settings. Its body may be
any lines at all. -/
structure Inner where
  key : List Char
  body : List (List Char)
  unread : ∀ k v, splitOnce? [' ', ':', ' '] (entryLine key "<dictionary> \x7b".toList) = some (k, v) →
    .ofList (trim k) ∉ recognised
  oneLine : ∀ l ∈ key :: body, '\n' ∉ l

namespace Inner

def opening (n : Inner) : Noise where
  text := entryLine n.key "<dictionary> \x7b".toList
  oneLine := entryLine_oneLine (n.oneLine n.key (List.mem_cons_self ..)) (by decide)
  unread := n.unread

def lines (n : Inner) : List (List Char) :=
  n.opening.text :: n.body ++ [['\x7d']]

theorem lines_oneLine (n : Inner) : ∀ l ∈ n.lines, '\n' ∉ l := by
  intro l hl
  rcases List.mem_append.mp hl with hl | hl
  · rcases List.mem_cons.mp hl with rfl | hl
    · exact n.opening.oneLine
    · exact n.oneLine l (List.mem_cons_of_mem _ hl)
  · rw [List.mem_singleton.mp hl]
    decide

end Inner

theorem opensBlock_noise (n : Noise) : opensBlock (trim n.text) = false := by
  unfold opensBlock
  cases he : entryOf? (trim n.text) with
  | none => rfl
  | some e =>
    have hk : e.1 ≠ "ExceptionsList" := by
      intro h
      exact n.key_not_mem he (h ▸ List.mem_cons_self ..)
    simp [hk]

theorem assigned?_noise (n : Noise) : assigned? (trim n.text) = none := by
  unfold assigned?
  cases he : entryOf? (trim n.text) with
  | none => rfl
  | some e =>
    have hs : slot? e.1 = none := slot?_eq_none (n.key_not_mem he)
    rw [Option.bind_some, hs]
    rfl

/-- The two lines around the body say nothing. -/
theorem Inner.contents_lines (n : Inner) :
    Proxy.blockOpen (n.lines.map trim) = false ∧
      patterns (n.lines.map trim) = patterns (n.body.map trim) ∧
      assigned (n.lines.map trim) = assigned (n.body.map trim) := by
  have hopen : Proxy.blockOpen [trim n.opening.text] = false :=
    blockOpen_singleton (opensBlock_noise n.opening)
  have hpatterns : patterns [trim n.opening.text] = [] :=
    @patterns_of_outside [] rfl (trim n.opening.text)
  have hassigned : assigned [trim n.opening.text] = [] := by
    have ha := assigned_append_singleton [] (trim n.opening.text)
    rw [List.nil_append, assigned?_noise] at ha
    exact ha
  have hlines : n.lines.map trim =
      [trim n.opening.text] ++ n.body.map trim ++ [['\x7d']] := by
    have hb : trim ['\x7d'] = ['\x7d'] := by decide
    simp [Inner.lines, hb]
  obtain ⟨ho, hp, ha⟩ := append_brace ([trim n.opening.text] ++ n.body.map trim)
  rw [hlines, hp, ha, patterns_append hopen, assigned_append hopen, hpatterns, hassigned]
  exact ⟨ho, rfl, rfl⟩

theorem trimmedLines_append {s : String} (h : ∀ c ∈ s.toList.getLast?, c = '\n') (t : String) :
    trimmedLines (s ++ t) = trimmedLines s ++ trimmedLines t := by
  unfold trimmedLines
  rw [String.toList_append, lines_append_of_ended h, List.map_append]

theorem trimmedLines_printLines_append {ls : List (List Char)} (h : ∀ l ∈ ls, '\n' ∉ l)
    (style : ℕ → LineStyle) (t : String) :
    trimmedLines (.ofList (printLines style ls) ++ t) = ls.map trim ++ trimmedLines t := by
  unfold trimmedLines
  rw [String.toList_append, String.toList_ofList, lines_printLines_append ls h]

/-- The entries of an inner dictionary are read as entries of the outer one, in their place. So the inner
dictionary is without effect exactly if it lists no exceptions and each value in it that is seen is
hidden by a later one or was there before. -/
theorem Settings.ofListing_inner (before after : String) (n : Inner) (style : ℕ → LineStyle)
    (hb : ∀ c ∈ before.toList.getLast?, c = '\n') (ho : blockOpen (trimmedLines before) = false) :
    let s := ofListing (before ++ (.ofList (printLines style n.lines) ++ after))
    let body := n.body.map trim
    s.exceptions = patterns (trimmedLines before) ++ patterns body ++ patterns (trimmedLines after) ∧
      (∀ slot : Kind × Field, s.held slot = slot.2.shows (((said? (trimmedLines after) slot).or
        (said? body slot)).or (said? (trimmedLines before) slot))) ∧
      (s = ofListing (before ++ after) ↔
        patterns body = [] ∧ ∀ (slot : Kind × Field) (v : String), said? body slot = some v →
          said? (trimmedLines after) slot = none →
            slot.2.shows (some v) = slot.2.shows (said? (trimmedLines before) slot)) := by
  intro s body
  obtain ⟨hno, hnp, hna⟩ := n.contents_lines
  have hns : said? (n.lines.map trim) = said? body := said?_of_assigned_eq hna
  have hs : s = contents (trimmedLines before ++ (n.lines.map trim ++ trimmedLines after)) := by
    rw [← trimmedLines_printLines_append n.lines_oneLine style, ← trimmedLines_append hb]
    exact ofListing_eq _
  have ht : ofListing (before ++ after) = contents (trimmedLines before ++ trimmedLines after) := by
    rw [← trimmedLines_append hb]
    exact ofListing_eq _
  obtain ⟨hpatterns, hsaid⟩ := contents_append ho hno (trimmedLines after)
  rw [hnp] at hpatterns
  rw [hns] at hsaid
  refine ⟨?_, fun slot => ?_, ?_⟩
  · rw [hs]
    exact hpatterns
  · rw [hs, held_contents, hsaid]
  · rw [hs, ht, contents_append_eq_iff ho hno, hnp, hns]

/-! The proxies of one interface, before or behind the settings of the system. -/

private def interface : Inner where
  key := "__SCOPED__".toList
  body := ["en0 : <dictionary> \x7b".toList, "HTTPEnable : 1".toList,
    "HTTPProxy : wifi.lan".toList, ['\x7d']]
  unread := by simp [entryLine, splitOnce?]; decide
  oneLine := by decide

private def exceptionsFirst : String :=
  "<dictionary> \x7b\n  ExceptionsList : <array> \x7b\n    0 : *.local\n  \x7d\n"

private def systemProxy : String :=
  "  HTTPEnable : 1\n  HTTPProxy : proxy.lan\n\x7d\n"

theorem Settings.ofListing_inner_interface :
    (∀ c ∈ exceptionsFirst.toList.getLast?, c = '\n') ∧
      blockOpen (trimmedLines exceptionsFirst) = false ∧
      ofListing (exceptionsFirst ++ (.ofList (printLines (fun _ => {}) interface.lines) ++ systemProxy)) =
        ofListing (exceptionsFirst ++ systemProxy) := by
  have hlast : exceptionsFirst.toList.getLast? = some '\n' := by decide
  have hb : ∀ c ∈ exceptionsFirst.toList.getLast?, c = '\n' := by
    intro c hc
    exact Option.some.inj ((Option.mem_def.mp hc).symm.trans hlast)
  have hlines : trimmedLines exceptionsFirst = ["<dictionary> \x7b".toList,
      "ExceptionsList : <array> \x7b".toList, "0 : *.local".toList, ['\x7d']] := by decide +kernel
  have hlevel : Level (trimmedLines exceptionsFirst) := by
    rw [hlines]
    apply Level.line
    · decide +kernel
    · decide
    · exact .block _ [_] [] (.line (by decide +kernel) (by decide) .nil) .nil
  have hbody : ∀ slot ∈ slots, said? (interface.body.map trim) slot = none ∨
      said? (trimmedLines systemProxy) slot ≠ none := by
    decide +kernel
  obtain ⟨-, -, hiff⟩ :=
    Settings.ofListing_inner exceptionsFirst systemProxy interface (fun _ => {}) hb hlevel.blockOpen
  refine ⟨hb, hlevel.blockOpen, hiff.mpr ⟨by decide +kernel, fun slot v hv ha => ?_⟩⟩
  rcases hbody slot (slots_complete slot) with h | h
  · rw [h] at hv
    cases hv
  · exact absurd ha h

private def unproxied : String :=
  "<dictionary> \x7b\n  HTTPEnable : 0\n\x7d\n"

private def unproxiedWithInterface : String :=
  "<dictionary> \x7b\n  HTTPEnable : 0\n  __SCOPED__ : <dictionary> \x7b\n    en0 : <dictionary> \x7b\n" ++
    "      ExceptionsList : <array> \x7b\n        0 : *.wifi\n      \x7d\n" ++
    "      HTTPEnable : 1\n      HTTPProxy : wifi.lan\n    \x7d\n  \x7d\n\x7d\n"

/-- Where the system has no proxy, those of an interface are taken for its own. -/
theorem Settings.ofListing_of_interface :
    "__SCOPED__" ∉ recognised ∧
      (ofListing unproxied).endpoint .http = {} ∧ (ofListing unproxied).exceptions = [] ∧
      (ofListing unproxiedWithInterface).endpoint .http =
        { enabled := true, host := some "wifi.lan" } ∧
      (ofListing unproxiedWithInterface).exceptions = ["*.wifi"] ∧
      ofListing unproxiedWithInterface ≠ ofListing unproxied := by
  have ho : ((ofListing unproxied).endpoint .http, (ofListing unproxied).exceptions) = ({}, []) := by
    decide +kernel
  have hi : ((ofListing unproxiedWithInterface).endpoint .http,
      (ofListing unproxiedWithInterface).exceptions) =
        ({ enabled := true, host := some "wifi.lan" }, ["*.wifi"]) := by
    decide +kernel
  obtain ⟨hoe, hox⟩ := Prod.mk.inj ho
  obtain ⟨hie, hix⟩ := Prod.mk.inj hi
  refine ⟨by decide, hoe, hox, hie, hix, fun h => ?_⟩
  rw [h, hox] at hix
  cases hix

end HostProfile.Proxy
