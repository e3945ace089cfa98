import HostProfile.Proofs.Processor

/-! The processors of a text, each described by a block of lines, and the one whose instruction sets
are found. The first line of flags is looked for in the whole text before any line of features is, so
that a later processor with flags is taken before a first one that has features only. -/
namespace HostProfile.Processor

open Text

/-- The lines about one processor. -/
abbrev Block := List (List Char)

def HasLine (name : String) (b : Block) : Prop :=
  ∃ line ∈ b, Named name line

instance (name : String) (line : List Char) : Decidable (Named name line) :=
  decidable_of_iff _ named_iff.symm

instance (name : String) (b : Block) : Decidable (HasLine name b) :=
  inferInstanceAs (Decidable (∃ line ∈ b, Named name line))

/-- The text says one thing after the other about each processor, starting with its number. There may
be blank lines between. -/
structure Describes (cpuinfo : String) (blocks : List Block) : Prop where
  lines_eq : lines cpuinfo.toList = blocks.flatten
  opened : ∀ b ∈ blocks, ∃ line ∈ b.head?, Named "processor" line
  colon : ∀ b ∈ blocks, ∀ line ∈ b, ':' ∈ line ∨ AllBlank line

/-- The block that has the first line of flags, or that of features if there are no flags at all. -/
inductive Decides : List Block → Block → Prop
  | flags {before after : List Block} {b : Block} (hb : ∀ c ∈ before, ¬ HasLine "flags" c)
      (h : HasLine "flags" b) : Decides (before ++ b :: after) b
  | features {before after : List Block} {b : Block}
      (hn : ∀ c ∈ before ++ b :: after, ¬ HasLine "flags" c)
      (hb : ∀ c ∈ before, ¬ HasLine "Features" c) (h : HasLine "Features" b) :
      Decides (before ++ b :: after) b

variable {name : String} {b d : Block} {bs blocks blocks' : List Block} {cpuinfo cpuinfo' : String}

/-! ### The first line with a name -/

/-- The value on the first line with the given key. -/
def Block.field? (name : String) (b : Block) : Option (List Char) :=
  (b.find? fun line => key line == name.toList).bind value?

theorem field?_eq (name : String) (cs : List Char) : field? name cs = Block.field? name (lines cs) :=
  rfl

theorem find?_eq_none_iff_not_hasLine :
    b.find? (fun line => key line == name.toList) = none ↔ ¬ HasLine name b := by
  simp [HasLine, named_iff]

theorem exists_find?_of_hasLine (h : HasLine name b) :
    ∃ line, b.find? (fun line => key line == name.toList) = some line :=
  Option.ne_none_iff_exists'.mp fun hn => find?_eq_none_iff_not_hasLine.mp hn h

theorem Block.field?_of_not_hasLine (h : ¬ HasLine name b) : Block.field? name b = none := by
  rw [Block.field?, find?_eq_none_iff_not_hasLine.mpr h]
  rfl

theorem Block.field?_append_of_hasLine (h : HasLine name b) (c : Block) :
    Block.field? name (b ++ c) = Block.field? name b := by
  obtain ⟨line, hl⟩ := exists_find?_of_hasLine h
  rw [Block.field?, Block.field?, List.find?_append, hl]
  rfl

theorem Block.field?_append_of_not_hasLine (h : ¬ HasLine name b) (c : Block) :
    Block.field? name (b ++ c) = Block.field? name c := by
  rw [Block.field?, Block.field?, List.find?_append, find?_eq_none_iff_not_hasLine.mpr h]
  rfl

theorem hasLine_flatten_iff : HasLine name blocks.flatten ↔ ∃ b ∈ blocks, HasLine name b := by
  constructor
  · intro h
    obtain ⟨line, hl, hn⟩ := h
    obtain ⟨b, hb, hl⟩ := List.mem_flatten.mp hl
    exact ⟨b, hb, line, hl, hn⟩
  · intro h
    obtain ⟨b, hb, line, hl, hn⟩ := h
    exact ⟨line, List.mem_flatten.mpr ⟨b, hb, hl⟩, hn⟩

/-- Of several blocks the first with the name counts. -/
theorem Block.field?_flatten {before after : List Block} (hb : ∀ c ∈ before, ¬ HasLine name c)
    (h : HasLine name d) :
    Block.field? name (before ++ d :: after).flatten = Block.field? name d := by
  have hn : ¬ HasLine name before.flatten := by
    rw [hasLine_flatten_iff]
    exact fun ⟨c, hc, hl⟩ => hb c hc hl
  rw [List.flatten_append, Block.field?_append_of_not_hasLine hn, List.flatten_cons,
    Block.field?_append_of_hasLine h]

/-- A line with a name is not blank, so that it has a value. -/
theorem Block.field?_ne_none (hc : ∀ line ∈ b, ':' ∈ line ∨ AllBlank line) (hname : name ≠ "")
    (h : HasLine name b) : Block.field? name b ≠ none := by
  obtain ⟨line, hl⟩ := exists_find?_of_hasLine h
  have hk : key line = name.toList := by simpa using List.find?_some hl
  rw [Block.field?, hl]
  intro hv
  have hcut : (cut [':'] line).2 = none := by simpa [value?] using hv
  obtain ⟨hk', hline⟩ := cut_cases ':' line
  rw [hcut, Option.map_none, Option.getD_none, List.append_nil] at hline
  rcases hc line (List.mem_of_find?_eq_some hl) with hm | hb
  · exact hk' (hline ▸ hm)
  · rw [key, ← hline, (trim_eq_nil_iff line).mpr hb] at hk
    exact hname (String.toList_eq_nil_iff.mp hk.symm)

/-! ### The block that decides -/

/-- What is read of all blocks is read of the one that decides. -/
theorem Decides.fields_eq (hd : Decides blocks d) (hc : ∀ line ∈ d, ':' ∈ line ∨ AllBlank line) :
    (Block.field? "flags" blocks.flatten <|> Block.field? "Features" blocks.flatten) =
      (Block.field? "flags" d <|> Block.field? "Features" d) := by
  cases hd with
  | flags hb h =>
    obtain ⟨v, hv⟩ := Option.ne_none_iff_exists'.mp (Block.field?_ne_none hc (by decide) h)
    rw [Block.field?_flatten hb h, hv]
    rfl
  | @features before after _ hn hb h =>
    have hall : ¬ HasLine "flags" (before ++ d :: after).flatten := by
      rw [hasLine_flatten_iff]
      exact fun ⟨c, hc, hl⟩ => hn c hc hl
    have hd : ¬ HasLine "flags" d := hn d (by simp)
    rw [Block.field?_of_not_hasLine hall, Block.field?_of_not_hasLine hd,
      Block.field?_flatten hb h]

theorem Decides.mem (hd : Decides blocks d) : d ∈ blocks := by
  cases hd <;> simp

/-- The block that decides is all that counts of a text. -/
theorem instructionSets?_eq_of_decides (h : Describes cpuinfo blocks) (hd : Decides blocks d)
    (h' : Describes cpuinfo' blocks') (hd' : Decides blocks' d) :
    instructionSets? cpuinfo' = instructionSets? cpuinfo := by
  have hf := hd.fields_eq (h.colon d hd.mem)
  have hf' := hd'.fields_eq (h.colon d hd.mem)
  simp only [instructionSets?, field?_eq, h.lines_eq, h'.lines_eq, hf, hf']

theorem exists_decides (hb : HasLine "flags" b ∨ HasLine "Features" b) :
    ∃ d, Decides (b :: bs) d := by
  cases hf : (b :: bs).find? fun c => HasLine "flags" c with
  | some d =>
    obtain ⟨hd, before, after, he, hn⟩ := List.find?_eq_some_iff_append.mp hf
    refine ⟨d, he ▸ .flags (fun c hc => ?_) (by simpa using hd)⟩
    simpa using hn c hc
  | none =>
    have hn : ∀ c ∈ b :: bs, ¬ HasLine "flags" c := by simpa using hf
    have hb := hb.resolve_left (hn b (List.mem_cons_self ..))
    exact ⟨b, @Decides.features [] bs b hn nofun hb⟩

/-- The first block decides unless it has features only and a later one has flags. -/
theorem decides_head_iff (hb : HasLine "flags" b ∨ HasLine "Features" b) :
    Decides (b :: bs) b ↔ HasLine "flags" b ∨ ∀ c ∈ bs, ¬ HasLine "flags" c := by
  constructor
  · intro hd
    generalize hbl : b :: bs = blocks at hd
    cases hd with
    | flags _ h => exact .inl h
    | features hn => exact .inr fun c hc => hn c (hbl ▸ List.mem_cons_of_mem b hc)
  · intro h
    by_cases hf : HasLine "flags" b
    · exact @Decides.flags [] bs b nofun hf
    · have hn : ∀ c ∈ b :: bs, ¬ HasLine "flags" c :=
        List.forall_mem_cons.mpr ⟨hf, h.resolve_left hf⟩
      exact @Decides.features [] bs b hn nofun (hb.resolve_left hf)

/-! ### Later blocks -/

/-- Blocks that each stand in some text stand together in one. -/
theorem exists_describes (h : ∀ b ∈ blocks, ∃ cpuinfo bs, Describes cpuinfo bs ∧ b ∈ bs) :
    ∃ cpuinfo, Describes cpuinfo blocks := by
  have hn : ∀ line ∈ blocks.flatten, '\n' ∉ line := by
    intro line hl
    obtain ⟨b, hb, hl⟩ := List.mem_flatten.mp hl
    obtain ⟨cpuinfo, bs, hd, hm⟩ := h b hb
    have hl : line ∈ lines cpuinfo.toList := by
      rw [hd.lines_eq]
      exact List.mem_flatten.mpr ⟨b, hm, hl⟩
    exact not_mem_of_mem_lines hl
  refine ⟨.ofList (blocks.flatten.flatMap fun line => line ++ ['\r', '\n']), ?_, fun b hb => ?_,
    fun b hb => ?_⟩
  · rw [String.toList_ofList, lines_flatMap_lineEnd hn]
  · obtain ⟨cpuinfo, bs, hd, hm⟩ := h b hb
    exact hd.opened b hm
  · obtain ⟨cpuinfo, bs, hd, hm⟩ := h b hb
    exact hd.colon b hm

/-- Behind a block without flags, another one has the last word. -/
theorem exists_later {c : Block} {alone : String} (h : Describes cpuinfo (b :: bs))
    (hb : ¬ HasLine "flags" b) (ha : Describes alone [c]) (hc : HasLine "flags" c) :
    ∃ cpuinfo', Describes cpuinfo' [b, c] ∧ instructionSets? cpuinfo' = instructionSets? alone := by
  have hblocks : ∀ d ∈ [b, c], ∃ cpuinfo bs, Describes cpuinfo bs ∧ d ∈ bs := by
    rw [List.forall_mem_cons, List.forall_mem_singleton]
    exact ⟨⟨_, _, h, List.mem_cons_self ..⟩, ⟨_, _, ha, List.mem_cons_self ..⟩⟩
  obtain ⟨cpuinfo', h'⟩ := exists_describes hblocks
  have hd : Decides [b, c] c := @Decides.flags [b] [] c (List.forall_mem_singleton.mpr hb) hc
  exact ⟨cpuinfo', h', instructionSets?_eq_of_decides ha (@Decides.flags [] [] c nofun hc) h' hd⟩

/-- The sets are those of the block that decides, whatever the others are. That is the first one if
it has flags, or if it has features and no later one has flags. It is so whatever comes later just if
the first one has flags. -/
theorem instructionSets?_of_described (h : Describes cpuinfo (b :: bs))
    (hb : HasLine "flags" b ∨ HasLine "Features" b) :
    (∃ d, Decides (b :: bs) d) ∧
    (∀ d cpuinfo' blocks', Decides (b :: bs) d → Describes cpuinfo' blocks' → Decides blocks' d →
      instructionSets? cpuinfo' = instructionSets? cpuinfo) ∧
    (Decides (b :: bs) b ↔ HasLine "flags" b ∨ ∀ c ∈ bs, ¬ HasLine "flags" c) ∧
    ((∀ cpuinfo' bs', Describes cpuinfo' (b :: bs') →
      instructionSets? cpuinfo' = instructionSets? cpuinfo) ↔ HasLine "flags" b) := by
  refine ⟨exists_decides hb, fun d _ _ hd h' hd' => instructionSets?_eq_of_decides h hd h' hd',
    decides_head_iff hb, ?_⟩
  constructor
  · intro hsame
    by_contra hn
    -- two texts that go on with different flags
    have ha : Describes "processor: 1\nflags: a" [["processor: 1".toList, "flags: a".toList]] :=
      ⟨by decide +kernel, by decide +kernel, by decide +kernel⟩
    have hc : Describes "processor: 1\nflags: c" [["processor: 1".toList, "flags: c".toList]] :=
      ⟨by decide +kernel, by decide +kernel, by decide +kernel⟩
    obtain ⟨_, hta, hva⟩ := exists_later h hn ha (by decide +kernel)
    obtain ⟨_, htc, hvc⟩ := exists_later h hn hc (by decide +kernel)
    rw [hsame _ _ hta] at hva
    rw [hsame _ _ htc, hva] at hvc
    exact absurd hvc (by decide +kernel)
  · intro hf cpuinfo' bs' h'
    exact instructionSets?_eq_of_decides h ((decides_head_iff hb).mpr (.inl hf)) h'
      ((decides_head_iff hb).mpr (.inl hf))

/-- Two processors of one kind, and the first of them beside one of another kind. -/
theorem instructionSets?_of_described_flags :
    let b : Block := ["processor\t: 0".toList, "flags\t\t: fpu sse".toList, []]
    let c : Block := ["processor\t: 1".toList, "flags\t\t: fpu sse avx".toList]
    let c' : Block := ["processor\t: 1".toList, "Features\t: fp".toList]
    let cpuinfo := "processor\t: 0\nflags\t\t: fpu sse\n\nprocessor\t: 1\nflags\t\t: fpu sse avx\n"
    let cpuinfo' := "processor\t: 0\nflags\t\t: fpu sse\n\nprocessor\t: 1\nFeatures\t: fp\n"
    Describes cpuinfo [b, c] ∧ Describes cpuinfo' [b, c'] ∧ HasLine "flags" b ∧
      Decides [b, c] b ∧ instructionSets? cpuinfo = some ["fpu", "sse"] ∧
      instructionSets? cpuinfo' = some ["fpu", "sse"] := by
  intro b c c' cpuinfo cpuinfo'
  have h : Describes cpuinfo [b, c] := ⟨by decide +kernel, by decide +kernel, by decide +kernel⟩
  have h' : Describes cpuinfo' [b, c'] := ⟨by decide +kernel, by decide +kernel, by decide +kernel⟩
  have hb : HasLine "flags" b := by decide +kernel
  have hs : instructionSets? cpuinfo = some ["fpu", "sse"] := by decide +kernel
  obtain ⟨-, -, hd, hi⟩ := instructionSets?_of_described h (.inl hb)
  exact ⟨h, h', hb, hd.mpr (.inl hb), hs, (hi.mpr hb cpuinfo' _ h').trans hs⟩

/-- A processor with features, and behind it one with flags. -/
theorem instructionSets?_of_later_flags :
    let b : Block := ["processor\t: 0".toList, "Features\t: fp asimd".toList]
    let c : Block := ["processor\t: 1".toList, "flags\t\t: sse".toList]
    let first := "processor\t: 0\nFeatures\t: fp asimd\n"
    let both := "processor\t: 0\nFeatures\t: fp asimd\nprocessor\t: 1\nflags\t\t: sse\n"
    Describes first [b] ∧ Describes both [b, c] ∧
      Block.field? "Features" b = some "fp asimd".toList ∧
      instructionSets? first = some ["fp", "asimd"] ∧ instructionSets? both = some ["sse"] := by
  intro b c first both
  have h : Describes first [b] := ⟨by decide +kernel, by decide +kernel, by decide +kernel⟩
  have h' : Describes both [b, c] := ⟨by decide +kernel, by decide +kernel, by decide +kernel⟩
  exact ⟨h, h', by decide +kernel, by decide +kernel, by decide +kernel⟩

end HostProfile.Processor
