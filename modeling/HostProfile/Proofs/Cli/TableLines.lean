import HostProfile.Collect
import HostProfile.Proofs.Cli.PropertyLines
import Mathlib.Algebra.BigOperators.Group.List.Basic
import Mathlib.Data.List.Forall2

/-! The lines of a table. Which lines there are depends on what is present in a record, and escaped
fields stay in their rows, whatever they hold. Some texts are shown as they are, though: a line feed
in one of these adds a line. -/
namespace HostProfile

open Text

/-- What decides which lines a table has. -/
structure Record.Shape where
  archAbi : Bool
  patchLevel : Bool
  instructionSets : Bool
  /-- Whether there is a proxy, and if so, whether it has exceptions. -/
  proxy : Option Bool
  deriving DecidableEq, Repr

def Record.shape (r : Record) : Record.Shape :=
  { archAbi := (r.text .archAbi).isSome
    patchLevel := (r.text .patchLevel).isSome
    instructionSets := r.instructionSets.isSome
    proxy := r.proxy.map fun p => !p.exceptions.isEmpty }

/-- Native text, as well as it can be shown. -/
def NativeText.shown (t : NativeText) : String :=
  match t.toString? with
  | .ok s => s
  | .error _ => t.toStringLossy

namespace Cli

/-! ### Texts and the line breaks in them -/

def occurrences (c : Char) (s : String) : Nat :=
  s.toList.count c

/-- All line breaks in a text are those of some texts in it. -/
def Shows (s : String) (raw : List String) : Prop :=
  ∀ c, c = '\r' ∨ c = '\n' → occurrences c s = (raw.map (occurrences c)).sum

/-- No line feed and no carriage return. -/
abbrev Unbroken (s : String) : Prop :=
  Shows s []

theorem occurrences_append (c : Char) (s t : String) :
    occurrences c (s ++ t) = occurrences c s + occurrences c t := by
  simp [occurrences]

theorem occurrences_eq_zero_iff (c : Char) (s : String) : occurrences c s = 0 ↔ c ∉ s.toList :=
  List.count_eq_zero

theorem unbroken_iff (s : String) : Unbroken s ↔ '\r' ∉ s.toList ∧ '\n' ∉ s.toList := by
  rw [← occurrences_eq_zero_iff, ← occurrences_eq_zero_iff]
  constructor
  · intro h
    exact ⟨h _ (.inl rfl), h _ (.inr rfl)⟩
  · rintro ⟨hr, hn⟩ c (rfl | rfl)
    · exact hr
    · exact hn

instance (s : String) : Decidable (Unbroken s) :=
  decidable_of_iff' _ (unbroken_iff s)

theorem Shows.self (s : String) : Shows s [s] := by
  intro c _
  simp

theorem Shows.append {s t : String} {xs ys : List String} (hs : Shows s xs) (ht : Shows t ys) :
    Shows (s ++ t) (xs ++ ys) := by
  intro c hc
  rw [occurrences_append, hs c hc, ht c hc, List.map_append, List.sum_append]

theorem Shows.append_unbroken {s t : String} {xs : List String} (hs : Shows s xs) (ht : Unbroken t) :
    Shows (s ++ t) xs :=
  List.append_nil xs ▸ Shows.append hs ht

theorem Shows.unbroken_append {s t : String} {xs : List String} (hs : Unbroken s) (ht : Shows t xs) :
    Shows (s ++ t) xs :=
  hs.append ht

theorem shows_intercalate {sep : String} (h : Unbroken sep) (xs : List String) :
    Shows (sep.intercalate xs) xs := by
  induction xs with
  | nil => exact (unbroken_iff _).mpr (by simp)
  | cons x xs ih =>
    cases xs with
    | nil => simpa using Shows.self x
    | cons y ys =>
      rw [String.intercalate_cons_cons]
      exact ((Shows.self x).append_unbroken h).append ih

theorem unbroken_escape (s : String) : Unbroken (escape s) :=
  (unbroken_iff _).mpr ⟨not_mem_escape (by simp) s, not_mem_escape (by simp) s⟩

theorem not_mem_toString {c : Char} (hc : c.isDigit = false) (n : Nat) : c ∉ (toString n).toList := by
  rw [Nat.toString_eq_repr, Nat.toList_repr]
  intro hm
  rw [Nat.isDigit_of_mem_toDigits (by decide) (by decide) hm] at hc
  cases hc

theorem unbroken_toString (n : Nat) : Unbroken (toString n) :=
  (unbroken_iff _).mpr ⟨not_mem_toString (by decide) n, not_mem_toString (by decide) n⟩

theorem Shows.padTo {s : String} {raw : List String} (h : Shows s raw) (width : Nat) :
    Shows (padTo width s) raw := by
  have hblank (n : Nat) : Unbroken (.ofList (List.replicate n ' ')) := by
    simp [unbroken_iff, List.mem_replicate]
  exact h.append_unbroken (hblank _)

section Table

variable (colours : Bool)

theorem Shows.paint {s : String} {raw : List String} (h : Shows s raw) (style : Style) :
    Shows (paint colours style s) raw := by
  unfold Cli.paint
  split
  · have hp : Unbroken ("\x1b[" ++ style.parameters ++ "m") := by
      cases style <;> decide
    exact (Shows.unbroken_append hp h).append_unbroken (by decide)
  · exact h

/-! ### Cells -/

theorem unbroken_absentCell : Unbroken (absentCell colours) :=
  Shows.paint colours (by decide) .dimmed

theorem unbroken_textCell (o : Option String) : Unbroken (textCell colours o) := by
  cases o with
  | none => exact unbroken_absentCell colours
  | some s => exact unbroken_escape s

theorem shows_nativeCell (o : Option NativeText) :
    Shows (nativeCell colours o) (o.map NativeText.shown).toList := by
  cases o with
  | none => exact unbroken_absentCell colours
  | some t =>
    simp only [nativeCell, NativeText.shown, Option.map_some, Option.toList_some]
    cases t.toString? with
    | ok s => exact Shows.self s
    | error e =>
      have hm : Unbroken (Cli.paint colours .bad "(not valid text)") :=
        Shows.paint colours (by decide) .bad
      exact ((Shows.self _).append_unbroken (by decide)).append hm

theorem shows_localeCell (l : Locale) :
    Shows (localeCell colours l) (Locale.Part.all.filterMap l.part) := by
  have ht : Shows l.tag (Locale.Part.all.filterMap l.part) := shows_intercalate (by decide) _
  unfold localeCell
  split
  · next he =>
    intro c hc
    rw [← ht c hc, String.isEmpty_iff.mp he]
    exact unbroken_absentCell colours c hc
  · exact ht

theorem shows_getD (o : Option String) {d : String} (h : Unbroken d) :
    Shows (o.getD d) o.toList := by
  cases o with
  | none => exact h
  | some s => exact Shows.self s

/-! ### Layout -/

/-- A line of a table, by what it starts with whatever the values are, and by the texts in it that
are shown as they are. -/
structure Line where
  start : String
  raw : List String := []

def Line.row (label : String) (raw : List String) : Line :=
  { start := "  " ++ padTo 17 (label ++ ":"), raw }

def headingLayout (s : String) : List Line :=
  (heading colours s).map fun start => { start }

def osLayout (r : Record) : List Line :=
  headingLayout colours "OS" ++
    [Line.row "Name" [], Line.row "Version" [], Line.row "Arch" []] ++
    (r.text .archAbi).toList.map (fun s => Line.row "ABI" [s]) ++
    (r.text .patchLevel).toList.map (fun s => Line.row "Patch Level" [s]) ++
    [Line.row "Data Model" (r.text .dataModel).toList, Line.row "CPU Endian" []] ++
    r.instructionSets.toList.map fun _ => Line.row "ISA List" []

def environmentLayout (r : Record) : List Line :=
  let cell (f : NativeField) := ((r.native f).map NativeText.shown).toList
  headingLayout colours "Environment" ++
    [Line.row "User" (cell .userName), Line.row "Home" (cell .userHome),
      Line.row "Working Dir" (cell .userDir), Line.row "Temp Dir" (cell .tmpDir),
      Line.row "File Separator" [], Line.row "Path Separator" [], Line.row "Line Separator" []]

def localeLayout (r : Record) : List Line :=
  headingLayout colours "Locale" ++
    [Line.row "Format" (Locale.Part.all.filterMap r.formatLocale.part),
      Line.row "Display" (Locale.Part.all.filterMap r.displayLocale.part)]

def encodingLayout : List Line :=
  headingLayout colours "Encoding" ++
    [Line.row "Default" [], Line.row "Native" [], Line.row "Stdout" [], Line.row "Stderr" [],
      Line.row "Unicode" []]

def proxyLayout (p : Proxy.Settings) : List Line :=
  headingLayout colours "Proxy" ++
    Proxy.Kind.all.map (fun k =>
      Line.row k.name ((p.endpoint k).host.toList ++ (p.endpoint k).port.toList)) ++
    if p.exceptions.isEmpty then [] else [Line.row "Exceptions" p.exceptions]

def tableLayout (r : Record) : List Line :=
  [{ start := paint colours .title "═══ Platform Properties ═══" }] ++ osLayout colours r ++
    environmentLayout colours r ++ localeLayout colours r ++ encodingLayout colours ++
    r.proxy.toList.flatMap (proxyLayout colours)

/-- A line is as laid out. -/
structure Laid (l : Line) (line : String) : Prop where
  starts : l.start.toList <+: line.toList
  shows : Shows line l.raw

theorem laid_row {label cell : String} {raw : List String} (hl : Unbroken label)
    (hc : Shows cell raw) : Laid (.row label raw) (row label cell) := by
  have hlabel : Unbroken (label ++ ":") := hl.append_unbroken (by decide)
  have hstart : Unbroken ("  " ++ padTo 17 (label ++ ":")) :=
    Shows.unbroken_append (by decide) (hlabel.padTo 17)
  refine ⟨?_, hstart.append hc⟩
  rw [row, String.toList_append]
  exact List.prefix_append _ _

theorem laid_of_unbroken {s : String} (h : Unbroken s) : Laid { start := s } s :=
  ⟨List.prefix_refl _, h⟩

theorem laid_heading {s : String} (h : Unbroken s) :
    List.Forall₂ Laid (headingLayout colours s) (heading colours s) := by
  have hs : Unbroken ("── " ++ s ++ " ──") :=
    (Shows.unbroken_append (by decide) h).append_unbroken (by decide)
  have hp : Unbroken (paint colours .heading ("── " ++ s ++ " ──")) :=
    Shows.paint colours hs .heading
  exact .cons (laid_of_unbroken (by decide)) (.cons (laid_of_unbroken hp) .nil)

theorem forall₂_map {α β γ : Type} {R : β → γ → Prop} {f : α → β} {g : α → γ}
    (h : ∀ a, R (f a) (g a)) (xs : List α) : List.Forall₂ R (xs.map f) (xs.map g) := by
  rw [List.forall₂_map_left_iff, List.forall₂_map_right_iff, List.forall₂_same]
  exact fun a _ => h a

theorem laid_textRow {label : String} (hl : Unbroken label) (o : Option String) :
    Laid (.row label []) (row label (textCell colours o)) :=
  laid_row hl (unbroken_textCell colours o)

theorem laid_nativeRow {label : String} (hl : Unbroken label) (o : Option NativeText) :
    Laid (.row label (o.map NativeText.shown).toList) (row label (nativeCell colours o)) :=
  laid_row hl (shows_nativeCell colours o)

theorem laid_osLines (r : Record) :
    List.Forall₂ Laid (osLayout colours r) (osLines colours r) := by
  have hname : List.Forall₂ Laid [.row "Name" [], .row "Version" [], .row "Arch" []]
      [row "Name" (textCell colours (r.text .osName)),
        row "Version" (textCell colours (r.text .osVersion)),
        row "Arch" (textCell colours (r.text .osArch))] :=
    .cons (laid_textRow colours (by decide) _) <|
      .cons (laid_textRow colours (by decide) _) <|
      .cons (laid_textRow colours (by decide) _) .nil
  have hmodel : List.Forall₂ Laid [.row "Data Model" (r.text .dataModel).toList, .row "CPU Endian" []]
      [row "Data Model" ((r.text .dataModel).getD "?" ++ "-bit"),
        row "CPU Endian" (textCell colours (r.text .cpuEndian))] :=
    .cons (laid_row (by decide)
        ((shows_getD _ (by decide)).append_unbroken (by decide))) <|
      .cons (laid_textRow colours (by decide) _) .nil
  have hsets (sets : List String) :
      Laid (.row "ISA List" []) (row "ISA List" s!"{sets.length} entries") :=
    laid_row (by decide)
      ((unbroken_toString _).append_unbroken (by decide))
  refine List.rel_append (List.rel_append (List.rel_append (List.rel_append (List.rel_append
    (laid_heading colours (by decide)) hname) (forall₂_map (fun s => ?_) _))
    (forall₂_map (fun s => ?_) _)) hmodel) (forall₂_map hsets _)
  · exact laid_row (by decide) (Shows.self s)
  · exact laid_row (by decide) (Shows.self s)

theorem laid_environmentLines (r : Record) :
    List.Forall₂ Laid (environmentLayout colours r) (environmentLines colours r) :=
  List.rel_append (laid_heading colours (by decide)) <|
    .cons (laid_nativeRow colours (by decide) _) <|
    .cons (laid_nativeRow colours (by decide) _) <|
    .cons (laid_nativeRow colours (by decide) _) <|
    .cons (laid_nativeRow colours (by decide) _) <|
    .cons (laid_textRow colours (by decide) _) <|
    .cons (laid_textRow colours (by decide) _) <|
    .cons (laid_textRow colours (by decide) _) .nil

theorem laid_localeLines (r : Record) :
    List.Forall₂ Laid (localeLayout colours r) (localeLines colours r) :=
  List.rel_append (laid_heading colours (by decide)) <|
    .cons (laid_row (by decide) (shows_localeCell colours r.formatLocale)) <|
    .cons (laid_row (by decide) (shows_localeCell colours r.displayLocale)) .nil

theorem laid_encodingLines (r : Record) :
    List.Forall₂ Laid (encodingLayout colours) (encodingLines colours r) := by
  have horder : Unbroken r.unicodeOrder.unicodeName := by
    cases r.unicodeOrder <;> decide
  exact List.rel_append (laid_heading colours (by decide)) <|
    .cons (laid_textRow colours (by decide) _) <|
    .cons (laid_textRow colours (by decide) _) <|
    .cons (laid_textRow colours (by decide) _) <|
    .cons (laid_textRow colours (by decide) _) <|
    .cons (laid_row (by decide) horder) .nil

theorem laid_endpointRow (kind : Proxy.Kind) (e : Proxy.Endpoint) :
    Laid (.row kind.name (e.host.toList ++ e.port.toList)) (endpointRow colours kind e) := by
  have hkind : Unbroken kind.name := by
    cases kind <;> decide
  have hstate : Shows (if e.enabled then paint colours .good "enabled"
      else paint colours .dimmed "disabled") [] := by
    split
    · exact Shows.paint colours (by decide) .good
    · exact Shows.paint colours (by decide) .dimmed
  have hhost := (hstate.append_unbroken (t := " ") (by decide)).append
    (shows_getD e.host (d := "-") (by decide))
  exact laid_row hkind ((hhost.append_unbroken (by decide)).append
    (shows_getD e.port (by decide)))

theorem laid_proxyLines (p : Proxy.Settings) :
    List.Forall₂ Laid (proxyLayout colours p) (proxyLines colours p) := by
  refine List.rel_append (List.rel_append (laid_heading colours (by decide))
    (forall₂_map (fun k => laid_endpointRow colours k (p.endpoint k)) _)) ?_
  split
  · exact .nil
  · exact .cons (laid_row (by decide) (shows_intercalate (by decide) _)) .nil

theorem laid_tableLines (r : Record) :
    List.Forall₂ Laid (tableLayout colours r) (tableLines colours r) := by
  have htitle : Unbroken (paint colours .title "═══ Platform Properties ═══") :=
    Shows.paint colours (by decide) .title
  refine List.rel_append (List.rel_append (List.rel_append (List.rel_append (List.rel_append
    (.cons (laid_of_unbroken htitle) .nil) (laid_osLines colours r))
    (laid_environmentLines colours r)) (laid_localeLines colours r))
    (laid_encodingLines colours r)) ?_
  cases r.proxy with
  | none => exact .nil
  | some p =>
    rw [Option.toList_some, List.flatMap_singleton]
    exact laid_proxyLines colours p

/-! ### What decides the lines -/

theorem map_start_eq {α : Type} {f : α → Line} {start : String} (hf : ∀ a, (f a).start = start)
    {o p : Option α} (h : o.isSome = p.isSome) :
    (o.toList.map f).map Line.start = (p.toList.map f).map Line.start := by
  cases o <;> cases p <;> simp_all

theorem osLayout_start_eq {r s : Record} (h : r.shape = s.shape) :
    (osLayout colours r).map Line.start = (osLayout colours s).map Line.start := by
  have habi := map_start_eq (f := fun s => Line.row "ABI" [s]) (fun _ => rfl)
    (congrArg Record.Shape.archAbi h)
  have hpatch := map_start_eq (f := fun s => Line.row "Patch Level" [s]) (fun _ => rfl)
    (congrArg Record.Shape.patchLevel h)
  have hsets := map_start_eq (f := fun _ => Line.row "ISA List" []) (fun _ => rfl)
    (congrArg Record.Shape.instructionSets h)
  simp only [osLayout, List.map_append, habi, hpatch, hsets]
  rfl

theorem proxyLayout_start_eq {p q : Proxy.Settings} (h : p.exceptions.isEmpty = q.exceptions.isEmpty) :
    (proxyLayout colours p).map Line.start = (proxyLayout colours q).map Line.start := by
  unfold proxyLayout
  rw [h]
  cases q.exceptions.isEmpty <;> rfl

theorem tableLayout_start_eq {r s : Record} (h : r.shape = s.shape) :
    (tableLayout colours r).map Line.start = (tableLayout colours s).map Line.start := by
  have hproxy : (r.proxy.toList.flatMap (proxyLayout colours)).map Line.start =
      (s.proxy.toList.flatMap (proxyLayout colours)).map Line.start := by
    have hp : r.proxy.map (fun p => !p.exceptions.isEmpty) =
        s.proxy.map fun p => !p.exceptions.isEmpty := congrArg Record.Shape.proxy h
    cases hr : r.proxy with
    | none =>
      cases hs : s.proxy with
      | none => rfl
      | some q => simp [hr, hs] at hp
    | some p =>
      cases hs : s.proxy with
      | none => simp [hr, hs] at hp
      | some q =>
        rw [hr, hs] at hp
        simpa using proxyLayout_start_eq colours (Bool.not_inj (Option.some.inj hp))
  simp only [tableLayout, List.map_append, osLayout_start_eq colours h, hproxy]
  rfl

end Table

/-! ### Counting -/

theorem occurrences_joinLines (c : Char) (ls : List String) :
    occurrences c (joinLines ls) = ls.length * occurrences c "\n" + (ls.map (occurrences c)).sum := by
  induction ls with
  | nil => simp [joinLines, occurrences]
  | cons l ls ih =>
    rw [joinLines_cons, occurrences_append, occurrences_append, ih, List.length_cons, List.map_cons,
      List.sum_cons, Nat.succ_mul]
    omega

theorem length_pieces (text : String) : (pieces text).length = occurrences '\n' text + 1 :=
  length_splitAll _ _

/-- All line breaks in lines are those of the texts that are shown as they are. -/
theorem sum_occurrences_of_laid {layout : List Line} {lines : List String}
    (h : List.Forall₂ Laid layout lines) {c : Char} (hc : c = '\r' ∨ c = '\n') :
    (lines.map (occurrences c)).sum = ((layout.flatMap Line.raw).map (occurrences c)).sum := by
  induction h with
  | nil => rfl
  | cons hl _ ih =>
    rw [List.map_cons, List.sum_cons, List.flatMap_cons, List.map_append, List.sum_append, ih,
      hl.shows c hc]

theorem sum_occurrences_eq_zero_iff (c : Char) (ss : List String) :
    (ss.map (occurrences c)).sum = 0 ↔ ∀ s ∈ ss, c ∉ s.toList := by
  simp only [List.sum_eq_zero_iff, List.forall_mem_map, occurrences_eq_zero_iff]

theorem length_pieces_report (colours : Bool) (r : Record) :
    (pieces (report colours r .table)).length = (tableLayout colours r).length +
      (((tableLayout colours r).flatMap Line.raw).map (occurrences '\n')).sum + 1 := by
  have hlaid := laid_tableLines colours r
  rw [length_pieces, report, occurrences_joinLines, sum_occurrences_of_laid hlaid (.inr rfl),
    ← hlaid.length_eq]
  simp [occurrences]

/-- There is a line for each one of the layout and another for each line feed in a text that is
shown as it is, so the lines are as laid out if there is no such line feed, and only then. The
layout starts its lines alike for records of one shape. -/
theorem report_table_exact (colours : Bool) :
    (∀ r s : Record, r.shape = s.shape →
      (tableLayout colours r).map Line.start = (tableLayout colours s).map Line.start) ∧
    ∀ r : Record,
      let lines := (pieces (report colours r .table)).dropLast
      let raw := (tableLayout colours r).flatMap Line.raw
      lines.length = (tableLayout colours r).length + (raw.map (occurrences '\n')).sum ∧
      (List.Forall₂ (fun l line => l.start.toList <+: line) (tableLayout colours r) lines ↔
        ∀ s ∈ raw, '\n' ∉ s.toList) ∧
      ('\r' ∈ (report colours r .table).toList ↔ ∃ s ∈ raw, '\r' ∈ s.toList) := by
  refine ⟨fun r s => tableLayout_start_eq colours, fun r => ?_⟩
  intro lines raw
  have hlaid := laid_tableLines colours r
  have hfeeds := sum_occurrences_of_laid hlaid (.inr rfl)
  have hreturns := sum_occurrences_of_laid hlaid (.inl rfl)
  have hlength : lines.length = (tableLayout colours r).length + (raw.map (occurrences '\n')).sum := by
    rw [List.length_dropLast, length_pieces_report, Nat.add_sub_cancel]
  refine ⟨hlength, ⟨fun h => ?_, fun h => ?_⟩, ?_⟩
  · rw [← sum_occurrences_eq_zero_iff]
    have he := h.length_eq
    omega
  · have hl : ∀ l ∈ tableLines colours r, '\n' ∉ l.toList := by
      rwa [← sum_occurrences_eq_zero_iff, hfeeds, sum_occurrences_eq_zero_iff]
    have he : lines = (tableLines colours r).map String.toList := by
      have hp : lines = ((tableLines colours r).map String.toList ++ [[]]).dropLast :=
        congrArg List.dropLast (pieces_joinLines hl)
      rw [hp, List.dropLast_concat]
    rw [he, List.forall₂_map_right_iff]
    exact hlaid.imp fun _ _ hl => hl.starts
  · have hn : occurrences '\r' (report colours r .table) = (raw.map (occurrences '\r')).sum := by
      rw [report, occurrences_joinLines, hreturns]
      simp [occurrences, raw]
    rw [← not_iff_not, ← occurrences_eq_zero_iff, hn, sum_occurrences_eq_zero_iff]
    simp

/-- A record with all kinds of lines but the processor's. -/
def fullRecord (name : String) : Record :=
  .ofAssignments [.text .osName (some name), .text .archAbi (some "eabi"),
    .text .patchLevel (some "3"), .proxy (some { exceptions := ["*.local"] })]

/-- A name of two lines stays in its row. -/
theorem report_table_exact_escaped :
    (fullRecord "a\nb").shape = (fullRecord "ab").shape ∧
      (tableLayout true (fullRecord "a\nb")).map Line.start =
        (tableLayout true (fullRecord "ab")).map Line.start ∧
      (pieces (report true (fullRecord "a\nb") .table)).dropLast.length =
        (pieces (report true (fullRecord "ab") .table)).dropLast.length := by
  obtain ⟨hstarts, hlines⟩ := report_table_exact true
  have hs : (fullRecord "a\nb").shape = (fullRecord "ab").shape := by decide
  have he := hstarts _ _ hs
  have hl := congrArg List.length he
  rw [List.length_map, List.length_map] at hl
  have hr : (((tableLayout true (fullRecord "a\nb")).flatMap Line.raw).map (occurrences '\n')).sum =
      (((tableLayout true (fullRecord "ab")).flatMap Line.raw).map (occurrences '\n')).sum := by
    decide
  refine ⟨hs, he, ?_⟩
  rw [(hlines _).1, (hlines _).1, hr, hl]

/-- A host that knows its user by a variable. -/
def userHost (name : String) : Host where
  environment := [("HOME", Utf8.encode "/h".toList), ("USER", Utf8.encode name.toList)]

/-- A user's name of two lines adds a line, though the same fields are there. -/
theorem report_table_of_two_line_user :
    (collect {} (userHost "a\nb")).shape = (collect {} (userHost "ab")).shape ∧
      (pieces (report false (collect {} (userHost "a\nb")) .table)).length =
        (pieces (report false (collect {} (userHost "ab")) .table)).length + 1 := by
  have hs : (collect {} (userHost "a\nb")).shape = (collect {} (userHost "ab")).shape := by
    decide
  have hl := congrArg List.length (tableLayout_start_eq false hs)
  rw [List.length_map, List.length_map] at hl
  have hn : (((tableLayout false (collect {} (userHost "a\nb"))).flatMap Line.raw).map
      (occurrences '\n')).sum = 1 := by
    decide
  have hz : (((tableLayout false (collect {} (userHost "ab"))).flatMap Line.raw).map
      (occurrences '\n')).sum = 0 := by
    decide
  refine ⟨hs, ?_⟩
  rw [length_pieces_report, length_pieces_report, hl, hn, hz]

end Cli

end HostProfile
