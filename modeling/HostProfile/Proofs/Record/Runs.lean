import HostProfile.Proofs.Record.Fields

/-! Runs of assignments. After each step of a run a field holds what the last assignment to it so
far has stored, and its default where there was none, so that the order of assignments to different
fields does not matter. -/
namespace HostProfile

/-- What a field holds as long as nothing is assigned to it. -/
def Field.default : Field → Assignment
  | .text f => .text f none
  | .native f => .native f none
  | .formatLocale => .formatLocale {}
  | .displayLocale => .displayLocale {}
  | .unicodeOrder => .unicodeOrder .host
  | .instructionSets => .instructionSets none
  | .proxy => .proxy none

namespace Record

/-- What a run of assignments leaves in a field. -/
inductive Leaves : List Assignment → Field → Assignment → Prop where
  | default {as : List Assignment} {f : Field} (h : ∀ a ∈ as, a.field ≠ f) : Leaves as f f.default
  | last {before after : List Assignment} {a : Assignment} (h : ∀ b ∈ after, b.field ≠ a.field) :
      Leaves (before ++ a :: after) a.field a.stored

/-- The records that a run goes through, from the empty one on. -/
def stages (as : List Assignment) : List Record :=
  as.scanl assign {}

theorem content_empty (f : Field) : ({} : Record).content f = f.default := by
  cases f <;> rfl

/-- A record is what its fields hold. -/
theorem ext_content {r s : Record} (h : ∀ f, r.content f = s.content f) : r = s := by
  have ht : r.text = s.text := funext fun f => by simpa [content] using h (.text f)
  have hn : r.native = s.native := funext fun f => by simpa [content] using h (.native f)
  have hf : r.formatLocale = s.formatLocale := by simpa [content] using h .formatLocale
  have hd : r.displayLocale = s.displayLocale := by simpa [content] using h .displayLocale
  have hu : r.unicodeOrder = s.unicodeOrder := by simpa [content] using h .unicodeOrder
  have hi : r.instructionSets = s.instructionSets := by simpa [content] using h .instructionSets
  have hp : r.proxy = s.proxy := by simpa [content] using h .proxy
  cases r
  cases s
  simp_all

/-! ### One more assignment -/

theorem Leaves.append_of_ne {as : List Assignment} {f : Field} {v : Assignment}
    (h : Leaves as f v) {a : Assignment} (ha : a.field ≠ f) : Leaves (as ++ [a]) f v := by
  cases h with
  | default h =>
    refine .default fun b hb => ?_
    rcases List.mem_append.mp hb with hb | hb
    · exact h b hb
    · exact List.mem_singleton.mp hb ▸ ha
  | last h =>
    rw [List.append_assoc, List.cons_append]
    refine .last fun b hb => ?_
    rcases List.mem_append.mp hb with hb | hb
    · exact h b hb
    · exact List.mem_singleton.mp hb ▸ ha

theorem leaves_append_singleton (as : List Assignment) (a : Assignment) :
    Leaves (as ++ [a]) a.field a.stored :=
  .last fun _ hb => absurd hb List.not_mem_nil

/-! ### All assignments -/

theorem leaves_content (as : List Assignment) (f : Field) :
    Leaves as f ((ofAssignments as).content f) := by
  induction as using List.reverseRecOn with
  | nil => exact content_empty f ▸ .default fun _ ha => absurd ha List.not_mem_nil
  | append_singleton as a ih =>
    rw [ofAssignments_append_singleton, content_assign]
    split
    · next hf => exact hf ▸ leaves_append_singleton as a
    · next hf => exact ih.append_of_ne (Ne.symm hf)

theorem Leaves.content_eq {as : List Assignment} {f : Field} {v : Assignment}
    (h : Leaves as f v) : (ofAssignments as).content f = v := by
  have hn {bs : List Assignment} {g : Field} (hb : ∀ b ∈ bs, b.field ≠ g) :
      g ∉ bs.map Assignment.field := by
    rw [List.mem_map]
    rintro ⟨b, hm, hg⟩
    exact hb b hm hg
  cases h with
  | default h => rw [ofAssignments, content_foldl_of_not_mem (hn h), content_empty]
  | last h =>
    rw [ofAssignments, List.foldl_append, List.foldl_cons, content_foldl_of_not_mem (hn h),
      content_assign, if_pos rfl]

theorem content_ofAssignments_iff (as : List Assignment) (f : Field) (v : Assignment) :
    (ofAssignments as).content f = v ↔ Leaves as f v :=
  ⟨fun h => h ▸ leaves_content as f, Leaves.content_eq⟩

theorem getElem?_stages (as : List Assignment) (n : Nat) :
    (stages as)[n]? = if n ≤ as.length then some (ofAssignments (as.take n)) else none :=
  List.getElem?_scanl

/-- A field holds what the last assignment to it stored, or its default without one, and it does so
after each step of the run. Runs with the same assignments to each field in the same order fill
equal records, however the fields are interleaved. -/
theorem ofAssignments_exact :
    (∀ as f v, (ofAssignments as).content f = v ↔ Leaves as f v) ∧
    (∀ as bs : List Assignment,
      (∀ f, as.filter (fun a => a.field = f) = bs.filter fun b => b.field = f) →
        ofAssignments as = ofAssignments bs) ∧
    (∀ as, (stages as).length = as.length + 1 ∧ (stages as).getLast? = some (ofAssignments as)) ∧
    (∀ as n r, (stages as)[n]? = some r ↔
      n ≤ as.length ∧ ∀ f, Leaves (as.take n) f (r.content f)) := by
  refine ⟨content_ofAssignments_iff, fun as bs h => ext_content fun f => ?_, fun as => ⟨?_, ?_⟩,
    fun as n r => ?_⟩
  · rw [content_ofAssignments_eq, content_ofAssignments_eq, lastTo?, lastTo?, h f]
  · exact List.length_scanl
  · rw [List.getLast?_eq_getElem?, getElem?_stages, stages, List.length_scanl]
    simp
  · rw [getElem?_stages]
    constructor
    · intro h
      split at h
      · next hn => exact ⟨hn, fun f => Option.some.inj h ▸ leaves_content _ f⟩
      · cases h
    · rintro ⟨hn, h⟩
      rw [if_pos hn, ext_content fun f => (h f).content_eq]

/-- A name that an empty one erases, between assignments to other fields, and the same run with
these elsewhere. -/
theorem ofAssignments_exact_erased :
    let as : List Assignment := [.text .osName (some "Linux"),
      .native .userDir (some (.narrow [0x2F])), .text .osName (some ""),
      .instructionSets (some ["sse2"])]
    let bs : List Assignment := [.instructionSets (some ["sse2"]), .text .osName (some "Linux"),
      .text .osName (some ""), .native .userDir (some (.narrow [0x2F]))]
    (∀ f, as.filter (fun a => a.field = f) = bs.filter fun b => b.field = f) ∧
      ofAssignments as = ofAssignments bs ∧
      (stages as)[1]? = some (ofAssignments (as.take 1)) ∧
      (ofAssignments (as.take 1)).text .osName = some "Linux" ∧
      Leaves (as.take 1) (.text .osName) (.text .osName (some "Linux")) ∧
      (ofAssignments as).text .osName = none := by
  intro as bs
  obtain ⟨-, hc, -, hs⟩ := ofAssignments_exact
  have hf : ∀ f, as.filter (fun a => a.field = f) = bs.filter fun b => b.field = f := by
    intro f
    cases f with
    | text f => cases f <;> rfl
    | native f => cases f <;> rfl
    | _ => rfl
  have h₁ : (stages as)[1]? = some (ofAssignments (as.take 1)) := rfl
  have hl := ((hs as 1 _).mp h₁).2 (.text .osName)
  exact ⟨hf, hc as bs hf, h₁, rfl, hl, rfl⟩

end Record

end HostProfile
