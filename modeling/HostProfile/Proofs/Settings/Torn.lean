import HostProfile.Proofs.Settings.Environment
import HostProfile.Proofs.Text.Utf8

/-! Variables whose values cannot be read at all. Only a quoted text that has both an escape and a
character beyond ASCII is ever cut inside a character. -/
namespace HostProfile.Environment

open Text

/-- What a text must have to be cut inside a character. -/
structure Tearable (cs : List Char) : Prop where
  quote : '"' ∈ cs
  escape : '\\' ∈ cs
  wide : ∃ c ∈ cs, 0x80 ≤ c.toNat

theorem Tearable.mono {cs ds : List Char} (h : Tearable cs) (hs : cs ⊆ ds) : Tearable ds := by
  obtain ⟨c, hc, hw⟩ := h.wide
  exact ⟨hs h.quote, hs h.escape, c, hs hc, hw⟩

/-- What a reader leaves was in its text, and only a text that can be cut ends its reading. -/
structure Sound {α : Type} (r : ValueReader α) : Prop where
  subset : ∀ {cs x rest}, r cs = .ok (x, rest) → rest ⊆ cs
  tearable : ∀ {cs}, r cs = .error .torn → Tearable cs

/-! ### Quoted text -/

theorem enclosed?_subset {cs s r : List Char} (h : enclosed? cs = some (s, r)) :
    '"' ∈ cs ∧ s ⊆ cs ∧ r ⊆ cs := by
  fun_induction enclosed? cs generalizing s r with
  | case1 => cases h
  | case2 =>
    obtain ⟨rfl, rfl⟩ := Prod.mk.inj (Option.some.inj h)
    exact ⟨List.mem_cons_self .., List.nil_subset _, List.subset_cons_self ..⟩
  | case3 c cs ih =>
    obtain ⟨⟨s', r'⟩, he, hs⟩ := Option.map_eq_some_iff.mp h
    obtain ⟨rfl, rfl⟩ := Prod.mk.inj hs
    obtain ⟨hq, hss, hr⟩ := ih he
    have hsub : cs ⊆ '\\' :: c :: cs :=
      List.subset_cons_of_subset _ (List.subset_cons_self ..)
    exact ⟨hsub hq, List.cons_subset_cons _ (List.cons_subset_cons _ hss), fun d hd => hsub (hr hd)⟩
  | case4 c cs _ _ ih =>
    obtain ⟨⟨s', r'⟩, he, hs⟩ := Option.map_eq_some_iff.mp h
    obtain ⟨rfl, rfl⟩ := Prod.mk.inj hs
    obtain ⟨hq, hss, hr⟩ := ih he
    exact ⟨List.mem_cons_of_mem _ hq, List.cons_subset_cons _ hss,
      List.subset_cons_of_subset _ hr⟩

/-- Text before an escape is cut where as many characters end, unless one of them takes more bytes. -/
theorem mem_of_unquoted_torn {cs : List Char} (h : unquoted cs = .error .torn) :
    '\\' ∈ cs ∧ ∃ c ∈ cs, 0x80 ≤ c.toNat := by
  unfold unquoted at h
  dsimp only [Reader.run] at h
  split at h
  · cases h
  · split at h
    · cases h
    · next ht =>
      constructor
      · by_contra hn
        apply ht
        rw [List.isEmpty_iff, List.dropWhile_eq_nil_iff]
        intro c hc
        exact bne_iff_ne.mpr fun he => hn (he ▸ hc)
      · by_contra hn
        have ha : ∀ c ∈ cs.takeWhile (· != '\\'), c.toNat < 0x80 := by
          intro c hc
          by_contra hw
          exact hn ⟨c, (List.takeWhile_sublist _).subset hc, by omega⟩
        rw [← Utf8.length_encode_of_ascii ha, List.take_length, Utf8.decode?_encode] at h
        dsimp only at h
        split at h <;> cases h

theorem sound_quotedText : Sound quotedText where
  subset {cs x rest} h := by
    unfold quotedText at h
    split at h
    · next s r he =>
      obtain ⟨s', -, hs⟩ := exists_of_map_eq_ok h
      obtain ⟨-, rfl⟩ := Prod.mk.inj hs
      exact (enclosed?_subset he).2.2
    · cases h
  tearable {cs} h := by
    unfold quotedText at h
    split at h
    · next s r he =>
      obtain ⟨hq, hs, -⟩ := enclosed?_subset he
      obtain ⟨hb, c, hc, hw⟩ := mem_of_unquoted_torn (map_eq_error h)
      exact ⟨hq, hs hb, c, hs hc, hw⟩
    · cases h

/-! ### Keys and values -/

theorem skipBlanks_subset (cs : List Char) : skipBlanks cs ⊆ cs :=
  (List.dropWhile_sublist _).subset

theorem sound_scalar : Sound scalar where
  subset {cs x rest} h := by
    unfold scalar at h
    split at h
    · cases h
      intro c hc
      simp [hc]
    · cases h
      intro c hc
      simp [hc]
    · obtain ⟨⟨s, r⟩, hq, hs⟩ := exists_of_map_eq_ok h
      obtain ⟨-, rfl⟩ := Prod.mk.inj hs
      exact List.subset_cons_of_subset _ (sound_quotedText.subset hq)
    · cases h
      intro c hc
      simp [hc]
    · cases h
    · cases h
      exact (List.dropWhile_sublist _).subset
  tearable {cs} h := by
    unfold scalar at h
    split at h
    · cases h
    · cases h
    · exact (sound_quotedText.tearable (map_eq_error h)).mono (List.subset_cons_self ..)
    · cases h
    · cases h
    · cases h

theorem skipBlanks_subset_of_eq {cs r : List Char} {c : Char} (h : skipBlanks cs = c :: r) :
    r ⊆ cs := by
  intro d hd
  apply skipBlanks_subset
  rw [h]
  exact List.mem_cons_of_mem c hd

theorem sound_key : Sound key where
  subset {cs x rest} h := by
    unfold key at h
    dsimp only at h
    split at h
    · next r hr =>
      obtain ⟨⟨k, r'⟩, hq, h⟩ := exists_of_bind_eq_ok h
      split at h
      · next he =>
        cases h
        intro c hc
        exact skipBlanks_subset_of_eq hr (sound_quotedText.subset hq (skipBlanks_subset_of_eq he hc))
      · cases h
    · split at h
      · cases h
      · obtain ⟨⟨k, r'⟩, hq, h⟩ := exists_of_bind_eq_ok h
        cases hq
        split at h
        · next he =>
          cases h
          intro c hc
          exact skipBlanks_subset cs
            ((List.dropWhile_sublist _).subset (skipBlanks_subset_of_eq he hc))
        · cases h
  tearable {cs} h := by
    unfold key at h
    dsimp only at h
    split at h
    · next r hr =>
      rcases bind_eq_error h with hq | ⟨_, -, h⟩
      · exact (sound_quotedText.tearable hq).mono
          (List.Subset.trans (List.subset_cons_self ..) (hr ▸ skipBlanks_subset cs))
      · split at h <;> cases h
    · split at h
      · cases h
      · rcases bind_eq_error h with hq | ⟨_, -, h⟩
        · cases hq
        · split at h <;> cases h

theorem sound_pair {item : ValueReader Setting} (hi : Sound item) : Sound (pair item) where
  subset {cs x rest} h := by
    obtain ⟨⟨k, r⟩, hk, h⟩ := exists_of_bind_eq_ok h
    obtain ⟨⟨v, r'⟩, hv, h⟩ := exists_of_bind_eq_ok h
    cases h
    exact fun c hc => sound_key.subset hk (hi.subset hv hc)
  tearable {cs} h := by
    rcases bind_eq_error h with hk | ⟨⟨k, r⟩, hk, h⟩
    · exact sound_key.tearable hk
    · rcases bind_eq_error h with hv | ⟨⟨v, r'⟩, hv, h⟩
      · exact (hi.tearable hv).mono (sound_key.subset hk)
      · cases h

theorem sound_items {α : Type} {item : ValueReader α} (hi : Sound item) (close : Char) :
    Sound (items close item) where
  subset {cs x rest} h := by
    fun_induction items close item cs generalizing x rest with
    | case2 =>
      cases h
      exact List.subset_cons_self ..
    | case5 c r _ y d r' hy _ ih =>
      obtain ⟨⟨ys, r''⟩, hys, h⟩ := exists_of_map_eq_ok h
      cases h
      exact fun e he => hi.subset hy (List.mem_cons_of_mem d (ih hys he))
    | case6 c r _ y d r' hy =>
      cases h
      exact fun e he => hi.subset hy (List.mem_cons_of_mem d he)
    | _ => cases h
  tearable {cs} h := by
    fun_induction items close item cs with
    | case3 _ _ _ e he =>
      cases h
      exact hi.tearable he
    | case5 c r _ y d r' hy _ ih =>
      exact (ih (map_eq_error h)).mono fun e he => hi.subset hy (List.mem_cons_of_mem d he)
    | _ => cases h

/-- Lists and tables are read by a reader of less depth. -/
theorem sound_value_of_pred {depth : Nat} (ih : ∀ d, depth = d + 1 → Sound (value d)) :
    Sound (value depth) where
  subset {cs x rest} h := by
    unfold value at h
    split at h
    · next hs =>
      obtain ⟨_, hm, h⟩ := exists_of_bind_eq_ok h
      obtain ⟨_, hx, rfl⟩ := exists_of_map_eq_ok hm
      cases h
      have hi := sound_items (ih _ rfl) ']'
      exact fun c hc => skipBlanks_subset_of_eq hs (hi.subset hx (skipBlanks_subset _ hc))
    · next hs =>
      obtain ⟨_, hm, h⟩ := exists_of_bind_eq_ok h
      obtain ⟨_, hx, rfl⟩ := exists_of_map_eq_ok hm
      cases h
      have hi := sound_items (sound_pair (ih _ rfl)) '\x7d'
      exact fun c hc => skipBlanks_subset_of_eq hs (hi.subset hx (skipBlanks_subset _ hc))
    · obtain ⟨_, hv, h⟩ := exists_of_bind_eq_ok h
      cases h
      exact fun c hc => skipBlanks_subset cs (sound_scalar.subset hv (skipBlanks_subset _ hc))
  tearable {cs} h := by
    unfold value at h
    split at h
    · next hs =>
      rcases bind_eq_error h with hm | ⟨_, -, h⟩
      · have hi := sound_items (ih _ rfl) ']'
        exact (hi.tearable (map_eq_error hm)).mono (skipBlanks_subset_of_eq hs)
      · cases h
    · next hs =>
      rcases bind_eq_error h with hm | ⟨_, -, h⟩
      · have hi := sound_items (sound_pair (ih _ rfl)) '\x7d'
        exact (hi.tearable (map_eq_error hm)).mono (skipBlanks_subset_of_eq hs)
      · cases h
    · rcases bind_eq_error h with hv | ⟨_, -, h⟩
      · exact (sound_scalar.tearable hv).mono (skipBlanks_subset cs)
      · cases h

theorem sound_value (depth : Nat) : Sound (value depth) := by
  induction depth with
  | zero => exact sound_value_of_pred nofun
  | succ depth ih =>
    apply sound_value_of_pred
    intro d hd
    obtain rfl : depth = d := by omega
    exact ih

/-- A variable that ends all reading holds a setting, with a quote, an escape and a character beyond
ASCII in its value. -/
theorem exists_tearable_of_hasTorn {env : List (String × String)} (h : hasTorn env = true) :
    ∃ e ∈ env, path? e.1 ≠ none ∧ Tearable e.2.toList := by
  obtain ⟨e, he, ht⟩ := List.any_eq_true.mp h
  obtain ⟨hp, ht⟩ := Bool.and_eq_true_iff.mp ht
  refine ⟨e, he, Option.isSome_iff_ne_none.mp hp, ?_⟩
  unfold isTorn at ht
  split at ht
  · next hv => exact (sound_value _).tearable hv
  · cases ht

end HostProfile.Environment
