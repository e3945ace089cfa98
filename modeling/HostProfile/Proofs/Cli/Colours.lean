import HostProfile.Proofs.Charset
import HostProfile.Proofs.Cli.Outcomes
import HostProfile.Proofs.Cli.TableLines
import HostProfile.Proofs.Collect.Colours
import HostProfile.Proofs.Json.Pretty
import HostProfile.Proofs.Text.Control

/-! Colours change nothing but colours. Without its control sequences a report in colours is the
report without colours, provided that no value that it shows can begin such a sequence. -/
namespace HostProfile

open Text

/-- The texts that the table shows of a record. -/
def Record.tableTexts (r : Record) : List String :=
  TextField.all.filterMap r.text ++
    NativeField.all.filterMap (fun f => (r.native f).map NativeText.shown) ++
    [r.formatLocale.tag, r.displayLocale.tag] ++
    r.proxy.toList.flatMap fun p =>
      Proxy.Kind.all.flatMap (fun k => (p.endpoint k).host.toList ++ (p.endpoint k).port.toList) ++
        p.exceptions

namespace Record

variable {r : Record} (h : ∀ s ∈ r.tableTexts, Plain s)

include h

theorem plain_text {f : TextField} {s : String} (hs : r.text f = some s) : Plain s := by
  refine h s ?_
  simp only [tableTexts, List.mem_append, List.mem_filterMap]
  exact .inl (.inl (.inl ⟨f, f.mem_all, hs⟩))

theorem plain_native {f : NativeField} {t : NativeText} (ht : r.native f = some t) :
    Plain t.shown := by
  refine h _ ?_
  simp only [tableTexts, List.mem_append, List.mem_filterMap]
  exact .inl (.inl (.inr ⟨f, f.mem_all, by rw [ht, Option.map_some]⟩))

theorem plain_formatLocale : Plain r.formatLocale.tag :=
  h _ (by simp [tableTexts])

theorem plain_displayLocale : Plain r.displayLocale.tag :=
  h _ (by simp [tableTexts])

theorem plain_endpoint {p : Proxy.Settings} (hp : r.proxy = some p) (k : Proxy.Kind) {s : String}
    (hs : (p.endpoint k).host = some s ∨ (p.endpoint k).port = some s) : Plain s := by
  refine h s (List.mem_append_right _ ?_)
  rw [hp, Option.toList_some, List.flatMap_singleton]
  refine List.mem_append_left _ (List.mem_flatMap.mpr ⟨k, k.mem_all, ?_⟩)
  simpa using hs

theorem plain_exceptions {p : Proxy.Settings} (hp : r.proxy = some p) :
    ∀ s ∈ p.exceptions, Plain s := by
  intro s hs
  refine h s (List.mem_append_right _ ?_)
  rw [hp, Option.toList_some, List.flatMap_singleton]
  exact List.mem_append_right _ hs

end Record

namespace Cli

theorem Style.all_parameters (style : Style) : style.parameters.toList.all isParameter = true := by
  cases style <;> decide

theorem painted_joinLines {ls ms : List String} (h : List.Forall₂ Painted ls ms) :
    Painted (joinLines ls) (joinLines ms) := by
  induction h with
  | nil => exact .refl (by decide)
  | cons hl _ ih =>
    rw [joinLines_cons, joinLines_cons]
    exact (hl.append (.refl (by decide))).append ih

theorem plain_joinLines {ls : List String} (h : ∀ l ∈ ls, Plain l) : Plain (joinLines ls) := by
  rw [Plain, toList_joinLines, List.mem_flatMap]
  rintro ⟨cs, hcs, hm⟩
  obtain ⟨l, hl, rfl⟩ := List.mem_map.mp hcs
  rcases List.mem_append.mp hm with hm | hm
  · exact h l hl hm
  · exact absurd hm (by decide)

section Table

variable (colours : Bool)

theorem painted_paint {s : String} (h : Plain s) (style : Style) :
    Painted (paint colours style s) (paint false style s) := by
  cases colours with
  | false => exact .refl h
  | true =>
    have hreset : Painted ("\x1b[" ++ "0" ++ "m") "" := painted_sequence (by decide)
    have hp := ((painted_sequence style.all_parameters).append (.refl h)).append hreset
    rwa [String.empty_append, String.append_empty] at hp

/-! ### Cells -/

theorem painted_absentCell : Painted (absentCell colours) (absentCell false) :=
  painted_paint colours (by decide) .dimmed

theorem painted_textCell {o : Option String} (h : ∀ s, o = some s → Plain s) :
    Painted (textCell colours o) (textCell false o) := by
  cases o with
  | none => exact painted_absentCell colours
  | some s => exact .refl (plain_escape (h s rfl))

theorem painted_nativeCell {o : Option NativeText} (h : ∀ t, o = some t → Plain t.shown) :
    Painted (nativeCell colours o) (nativeCell false o) := by
  cases o with
  | none => exact painted_absentCell colours
  | some t =>
    have ht := h t rfl
    unfold NativeText.shown at ht
    simp only [nativeCell]
    cases hc : t.toString? with
    | ok s =>
      rw [hc] at ht
      exact .refl ht
    | error e =>
      rw [hc] at ht
      exact ((Painted.refl ht).append (.refl (by decide))).append
        (painted_paint colours (by decide) .bad)

theorem painted_localeCell {l : Locale} (h : Plain l.tag) :
    Painted (localeCell colours l) (localeCell false l) := by
  unfold localeCell
  split
  · exact painted_absentCell colours
  · exact .refl h

theorem plain_getD {o : Option String} {d : String} (hd : Plain d)
    (h : ∀ s, o = some s → Plain s) : Plain (o.getD d) := by
  cases o with
  | none => exact hd
  | some s => exact h s rfl

/-! ### Lines -/

theorem painted_of_plain {ls : List String} (h : ∀ l ∈ ls, Plain l) : List.Forall₂ Painted ls ls :=
  List.forall₂_same.mpr fun l hl => .refl (h l hl)

theorem plain_padTo {s : String} (h : Plain s) (width : Nat) : Plain (padTo width s) := by
  refine h.append ?_
  simp [Plain, List.mem_replicate]

theorem plain_start {label : String} (h : Plain label) : Plain ("  " ++ padTo 17 (label ++ ":")) :=
  Plain.append (by decide) (plain_padTo (h.append (by decide)) 17)

theorem plain_row {label s : String} (hl : Plain label) (h : Plain s) : Plain (row label s) :=
  (plain_start hl).append h

theorem painted_row {label s t : String} (hl : Plain label) (h : Painted s t) :
    Painted (row label s) (row label t) :=
  (Painted.refl (plain_start hl)).append h

theorem painted_heading {s : String} (h : Plain s) :
    List.Forall₂ Painted (heading colours s) (heading false s) := by
  have hs : Plain ("── " ++ s ++ " ──") :=
    (Plain.append (by decide) h).append (by decide)
  exact .cons (.refl (by decide)) (.cons (painted_paint colours hs .heading) .nil)

theorem painted_endpointRow (kind : Proxy.Kind) {e : Proxy.Endpoint}
    (h : ∀ s, e.host = some s ∨ e.port = some s → Plain s) :
    Painted (endpointRow colours kind e) (endpointRow false kind e) := by
  have hkind : Plain kind.name := by
    cases kind <;> decide
  have hstate : Painted
      (if e.enabled then paint colours .good "enabled" else paint colours .dimmed "disabled")
      (if e.enabled then paint false .good "enabled" else paint false .dimmed "disabled") := by
    split
    · exact painted_paint colours (by decide) .good
    · exact painted_paint colours (by decide) .dimmed
  have hhost : Plain (e.host.getD "-") := plain_getD (by decide) fun s hs => h s (.inl hs)
  have hport : Plain (e.port.getD "-") := plain_getD (by decide) fun s hs => h s (.inr hs)
  exact painted_row hkind ((((hstate.append (.refl (by decide))).append (.refl hhost)).append
    (.refl (by decide))).append (.refl hport))

variable {r : Record} (h : ∀ s ∈ r.tableTexts, Plain s)

include h

theorem painted_textRow {label : String} (hl : Plain label) (f : TextField) :
    Painted (row label (textCell colours (r.text f))) (row label (textCell false (r.text f))) :=
  painted_row hl (painted_textCell colours fun _ => r.plain_text h)

theorem painted_nativeRow {label : String} (hl : Plain label) (f : NativeField) :
    Painted (row label (nativeCell colours (r.native f)))
      (row label (nativeCell false (r.native f))) :=
  painted_row hl (painted_nativeCell colours fun _ => r.plain_native h)

theorem painted_osLines : List.Forall₂ Painted (osLines colours r) (osLines false r) := by
  have hoptional {label : String} (hl : Plain label) (f : TextField) :
      ∀ l ∈ (r.text f).toList.map (row label), Plain l := by
    intro l hm
    obtain ⟨s, hs, rfl⟩ := List.mem_map.mp hm
    exact plain_row hl (r.plain_text h (Option.mem_toList.mp hs))
  have hmodel : Plain ((r.text .dataModel).getD "?" ++ "-bit") :=
    (plain_getD (by decide) fun _ => r.plain_text h).append (by decide)
  have hsets (sets : List String) : Plain (row "ISA List" s!"{sets.length} entries") :=
    plain_row (by decide) (Plain.append (not_mem_toString (by decide) _) (by decide))
  refine List.rel_append (List.rel_append (List.rel_append (List.rel_append (List.rel_append
    (painted_heading colours (by decide)) ?_) (painted_of_plain (hoptional (by decide) _)))
    (painted_of_plain (hoptional (by decide) _))) ?_)
    (forall₂_map (fun sets => .refl (hsets sets)) _)
  · exact .cons (painted_textRow colours h (by decide) _) <|
      .cons (painted_textRow colours h (by decide) _) <|
      .cons (painted_textRow colours h (by decide) _) .nil
  · exact .cons (painted_row (by decide) (.refl hmodel)) <|
      .cons (painted_textRow colours h (by decide) _) .nil

theorem painted_environmentLines :
    List.Forall₂ Painted (environmentLines colours r) (environmentLines false r) :=
  List.rel_append (painted_heading colours (by decide)) <|
    .cons (painted_nativeRow colours h (by decide) _) <|
    .cons (painted_nativeRow colours h (by decide) _) <|
    .cons (painted_nativeRow colours h (by decide) _) <|
    .cons (painted_nativeRow colours h (by decide) _) <|
    .cons (painted_textRow colours h (by decide) _) <|
    .cons (painted_textRow colours h (by decide) _) <|
    .cons (painted_textRow colours h (by decide) _) .nil

theorem painted_localeLines :
    List.Forall₂ Painted (localeLines colours r) (localeLines false r) :=
  List.rel_append (painted_heading colours (by decide)) <|
    .cons (painted_row (by decide) (painted_localeCell colours (r.plain_formatLocale h))) <|
    .cons (painted_row (by decide) (painted_localeCell colours (r.plain_displayLocale h))) .nil

theorem painted_encodingLines :
    List.Forall₂ Painted (encodingLines colours r) (encodingLines false r) := by
  have horder : Plain r.unicodeOrder.unicodeName := by
    cases r.unicodeOrder <;> decide
  exact List.rel_append (painted_heading colours (by decide)) <|
    .cons (painted_textRow colours h (by decide) _) <|
    .cons (painted_textRow colours h (by decide) _) <|
    .cons (painted_textRow colours h (by decide) _) <|
    .cons (painted_textRow colours h (by decide) _) <|
    .cons (painted_row (by decide) (.refl horder)) .nil

theorem painted_proxyLines {p : Proxy.Settings} (hp : r.proxy = some p) :
    List.Forall₂ Painted (proxyLines colours p) (proxyLines false p) := by
  refine List.rel_append (List.rel_append (painted_heading colours (by decide))
    (forall₂_map (fun k => painted_endpointRow colours k fun _ => r.plain_endpoint h hp k) _)) ?_
  split
  · exact .nil
  · have hx : Plain (", ".intercalate p.exceptions) :=
      plain_intercalate (by decide) (r.plain_exceptions h hp)
    exact .cons (painted_row (by decide) (.refl hx)) .nil

theorem painted_tableLines :
    List.Forall₂ Painted (tableLines colours r) (tableLines false r) := by
  have htitle : Painted (paint colours .title "═══ Platform Properties ═══")
      (paint false .title "═══ Platform Properties ═══") :=
    painted_paint colours (by decide) .title
  refine List.rel_append (List.rel_append (List.rel_append (List.rel_append (List.rel_append
    (.cons htitle .nil) (painted_osLines colours h)) (painted_environmentLines colours h))
    (painted_localeLines colours h)) (painted_encodingLines colours h)) ?_
  cases hp : r.proxy with
  | none => exact .nil
  | some p => exact painted_proxyLines colours h hp

end Table

/-! ### Reports -/

theorem plain_canonical {name : String} (h : Plain name) : Plain (Charset.canonical name) := by
  rcases Charset.canonical_cases name with he | he
  · rwa [he]
  · have hr : ∀ name ∈ Charset.registered, Plain name := by decide
    exact hr _ he

theorem painted_normalizedLine (colours : Bool) {name : String} (h : Plain name) :
    Painted (normalizedLine colours name) (normalizedLine false name) := by
  simp only [normalizedLine]
  split
  · exact .refl h
  · exact ((((painted_paint colours h .dimmed).append (.refl (by decide))).append
      (painted_paint colours (by decide) .dimmed)).append (.refl (by decide))).append
      (painted_paint colours (plain_canonical h) .strong)

theorem plain_pretty (v : Json) : Plain v.pretty := by
  intro hm
  rcases Json.printed_pretty v _ hm with h | h <;> revert h <;> decide

theorem plain_key : ∀ s ∈ Record.Source.all, Plain s.key := by
  decide +kernel

theorem plain_key_of_mem_entries {r : Record} {e : String × String}
    (h : e ∈ r.properties.entries) : Plain e.1 := by
  obtain ⟨s, hs, he⟩ := exists_key_eq_of_mem_entries h
  rw [← he]
  exact plain_key s hs

theorem plain_propertyLines {r : Record} (h : ∀ e ∈ r.properties.entries, Plain e.2) :
    ∀ l ∈ propertyLines r, Plain l := by
  intro l hl
  rw [propertyLines_eq] at hl
  obtain ⟨e, he, rfl⟩ := List.mem_map.mp hl
  exact ((plain_key_of_mem_entries he).append (by decide)).append (plain_escape (h e he))

/-- The texts that a request shows of a record. JSON shows none as it is, and neither does a request
that fails. -/
def shownTexts (r : Record) : Request → List String
  | .show name =>
    match Format.ofName? name with
    | some .table => r.tableTexts
    | some .properties => r.properties.entries.map Prod.snd
    | some .json | none => []
  | .normalize names => names
  | .get key => (r.properties.get? key).toList

/-- Whether the answer to a request is for programs to read. -/
def Request.isForPrograms : Request → Bool
  | .show name => name = "json" || name = "properties"
  | .normalize _ => false
  | .get _ => true

/-- The forms for programs have no colours. -/
theorem plain_report (colours : Bool) {r : Record} {name : String} {format : Format}
    (hf : Format.ofName? name = some format) (hne : format ≠ .table)
    (h : ∀ s ∈ shownTexts r (.show name), Plain s) : Plain (report colours r format) := by
  simp only [shownTexts, hf] at h
  cases format with
  | table => exact absurd rfl hne
  | json => exact plain_joinLines (List.forall_mem_singleton.mpr (plain_pretty _))
  | properties =>
    exact plain_joinLines (plain_propertyLines fun e he => h _ (List.mem_map_of_mem he))

theorem painted_report (colours : Bool) {r : Record} {name : String} {format : Format}
    (hf : Format.ofName? name = some format) (h : ∀ s ∈ shownTexts r (.show name), Plain s) :
    Painted (report colours r format) (report false r format) := by
  by_cases ht : format = .table
  · subst ht
    simp only [shownTexts, hf] at h
    exact painted_joinLines (painted_tableLines colours h)
  · have hr : report colours r format = report false r format := by
      cases format with
      | table => exact absurd rfl ht
      | _ => rfl
    rw [hr]
    exact .refl (plain_report false hf ht h)

/-! ### Runs -/

section Answer

variable {c : Config} {h k : Host} {q : Request}

theorem plain_answer (hs : ∀ s ∈ shownTexts (collect c h) q, Plain s)
    (hq : q.isForPrograms = true) : Plain (answer c h q).stdout := by
  cases q with
  | «show» name =>
    cases hf : Format.ofName? name with
    | none =>
      simp only [answer, hf]
      exact (by decide : Plain "")
    | some format =>
      have hne : format ≠ .table := by
        rintro rfl
        simp only [Request.isForPrograms, Bool.or_eq_true, decide_eq_true_eq] at hq
        rcases hq with rfl | rfl <;> exact absurd hf (by decide)
      simp only [answer, hf]
      exact plain_report _ hf hne hs
  | normalize names => cases hq
  | get key =>
    cases hv : (collect c h).properties.get? key with
    | none =>
      simp only [answer, hv]
      exact (by decide : Plain "")
    | some value =>
      have hp : Plain value := hs value (by simp [shownTexts, hv])
      simp only [answer, hv]
      exact plain_joinLines (List.forall_mem_singleton.mpr (plain_escape hp))

theorem painted_answer (hr : collect c k = collect c h) (hc : usesColours h = false)
    (hs : ∀ s ∈ shownTexts (collect c h) q, Plain s) :
    (answer c k q).exitCode = (answer c h q).exitCode ∧
      Painted (answer c k q).stdout (answer c h q).stdout := by
  cases q with
  | «show» name =>
    cases hf : Format.ofName? name with
    | none =>
      have he : answer c k (.show name) = answer c h (.show name) := by
        simp only [answer, hf]
      have hout : (answer c h (.show name)).stdout = "" := by
        simp only [answer, hf]
        rfl
      rw [he, hout]
      exact ⟨rfl, .refl (by decide)⟩
    | some format =>
      have ha (x : Host) : answer c x (.show name) =
          { stdout := report (usesColours x) (collect c x) format } := by
        simp only [answer, hf]
      rw [ha, ha, hr, hc]
      exact ⟨rfl, painted_report _ hf hs⟩
  | normalize names =>
    have ha (x : Host) : answer c x (.normalize names) =
        { stdout := joinLines (names.map (normalizedLine (usesColours x))) } := rfl
    rw [ha, ha, hc]
    refine ⟨rfl, painted_joinLines ?_⟩
    rw [List.forall₂_map_left_iff, List.forall₂_map_right_iff, List.forall₂_same]
    exact fun name hn => painted_normalizedLine _ (hs name hn)
  | get key =>
    have he : answer c k (.get key) = answer c h (.get key) := by
      simp only [answer, hr]
    rw [he]
    exact ⟨rfl, .refl (plain_answer hs rfl)⟩

end Answer

theorem stdout_of_loadConfig_eq_error {o : Options} {h : Host} {out : Outcome}
    (he : loadConfig o h = .error out) : out.stdout = "" := by
  rcases loadConfig_cases o h with ⟨-, subject, e, hl⟩ | ⟨file, subject, e, -, -, hl⟩ | ⟨c, -, hl⟩
  · rw [hl] at he
    cases he
    rfl
  · rw [hl] at he
    cases he
    cases e <;> rfl
  · rw [hl] at he
    cases he

/-- Two hosts differ in their colours only, and one of them has none. Commands end on them with one exit
code, and without the control sequences they print the same, provided that no text that is shown can
begin one. What is printed for programs has no control sequences at all. -/
theorem run_colours (words : List String) (o : Options) (q : Request) (h k : Host)
    (hw : Invocation.ofArguments words = .run o q) (hk : k.uncoloured = h.uncoloured)
    (hc : usesColours h = false)
    (hs : ∀ c, loadConfig o h = .ok c → ∀ s ∈ shownTexts (collect c h) q, Plain s) :
    (run words k).exitCode = (run words h).exitCode ∧
      unpaint (run words k).stdout = (run words h).stdout ∧
      (q.isForPrograms = true → Plain (run words k).stdout ∧ Plain (run words h).stdout) := by
  have hl : loadConfig o k = loadConfig o h := loadConfig_eq_of_uncoloured_eq hk o
  cases he : loadConfig o h with
  | error out =>
    have hout : out.stdout = "" := stdout_of_loadConfig_eq_error he
    have hrun (x : Host) (hx : loadConfig o x = .error out) : run words x = out := by
      simp only [run, hw, hx]
    rw [hrun k (hl.trans he), hrun h he, hout]
    exact ⟨rfl, unpaint_of_plain (by decide), fun _ => ⟨by decide, by decide⟩⟩
  | ok c =>
    have hr : collect c k = collect c h := collect_eq_of_uncoloured_eq hk c
    have hsh : ∀ s ∈ shownTexts (collect c h) q, Plain s := hs c he
    have hsk : ∀ s ∈ shownTexts (collect c k) q, Plain s := by
      rwa [hr]
    obtain ⟨hcode, hpaint⟩ := painted_answer hr hc hsh
    rw [run_of_ofArguments hw (hl.trans he), run_of_ofArguments hw he]
    exact ⟨hcode, hpaint.unpaint_eq, fun hq => ⟨plain_answer hsk hq, plain_answer hsh hq⟩⟩

/-- The table of a host that knows its user, with its colours forced. -/
theorem run_colours_of_user :
    usesColours (userHost "ada").withColours = true ∧
      (run ["show"] (userHost "ada").withColours).stdout ≠ (run ["show"] (userHost "ada")).stdout ∧
      unpaint (run ["show"] (userHost "ada").withColours).stdout =
        (run ["show"] (userHost "ada")).stdout := by
  have hw : Invocation.ofArguments ["show"] = .run {} (.show "table") := by decide +kernel
  have hp : (loadConfig {} (userHost "ada")).toOption.all (fun c =>
      decide (∀ s ∈ shownTexts (collect c (userHost "ada")) (.show "table"), Plain s)) = true := by
    decide +kernel
  have hs : ∀ c, loadConfig {} (userHost "ada") = .ok c →
      ∀ s ∈ shownTexts (collect c (userHost "ada")) (.show "table"), Plain s := by
    intro c hc
    rw [hc] at hp
    exact of_decide_eq_true hp
  obtain ⟨-, hout, -⟩ := run_colours ["show"] {} (.show "table") (userHost "ada")
    (userHost "ada").withColours hw (userHost "ada").uncoloured_withColours (by decide +kernel) hs
  exact ⟨(userHost "ada").usesColours_withColours, by decide +kernel, hout⟩

end Cli

end HostProfile
