import Mathlib.Data.List.Sort
import Mathlib.Data.List.Perm.Basic

/-!
# Lists

The parts of a list between separators, an operation on every element that may fail, sorting by a
key, and prefixes that can be continued.
-/

namespace SkillHive.Foundation

/-! ## Parts -/

theorem mem_of_mem_splitOn {α : Type} [DecidableEq α] {separator a : α} {as part : List α}
    (hpart : part ∈ as.splitOn separator) (ha : a ∈ part) : a ∈ as := by
  induction as generalizing part with
  | nil =>
    rw [List.splitOn_nil, List.mem_singleton] at hpart
    exact hpart ▸ ha
  | cons b as ih =>
    rw [List.splitOn_cons_eq_if_modifyHead] at hpart
    obtain ⟨first, rest, hparts⟩ := List.exists_cons_of_ne_nil (List.splitOn_ne_nil separator as)
    rw [hparts] at ih hpart
    split at hpart
    case isTrue =>
      rcases List.mem_cons.mp hpart with rfl | hpart
      · cases ha
      · exact List.mem_cons_of_mem b (ih hpart ha)
    case isFalse =>
      rcases List.mem_cons.mp hpart with rfl | hpart
      · rcases List.mem_cons.mp ha with rfl | ha
        · exact List.mem_cons_self
        · exact List.mem_cons_of_mem b (ih List.mem_cons_self ha)
      · exact List.mem_cons_of_mem b (ih (List.mem_cons_of_mem first hpart) ha)

/-- The parts between the separators: none has a separator, and every other element is in one. -/
theorem mem_splitOn {α : Type} [DecidableEq α] (separator : α) (as : List α) :
    (∀ part ∈ as.splitOn separator, separator ∉ part) ∧
      ∀ a ∈ as, a ≠ separator → ∃ part ∈ as.splitOn separator, a ∈ part := by
  induction as with
  | nil => simp
  | cons a as ih =>
    obtain ⟨ihout, ihin⟩ := ih
    rw [List.splitOn_cons_eq_if_modifyHead]
    by_cases heq : a = separator
    · subst heq
      simp only [BEq.rfl, if_pos]
      refine ⟨?_, fun b hb hne ↦ ?_⟩
      · simpa using ihout
      · obtain ⟨part, hpart, hmem⟩ := ihin b ((List.mem_cons.mp hb).resolve_left hne) hne
        exact ⟨part, List.mem_cons_of_mem _ hpart, hmem⟩
    · obtain ⟨first, rest, hparts⟩ := List.exists_cons_of_ne_nil (List.splitOn_ne_nil separator as)
      rw [hparts] at ihout ihin ⊢
      simp only [beq_iff_eq, heq, if_false, List.modifyHead_cons, List.forall_mem_cons] at ihout ⊢
      refine ⟨⟨fun hmem ↦ ?_, ihout.2⟩, ⟨fun _ ↦ ⟨_, List.mem_cons_self, List.mem_cons_self⟩, ?_⟩⟩
      · rcases List.mem_cons.mp hmem with h | h
        · exact heq h.symm
        · exact ihout.1 h
      · intro b hb hne
        obtain ⟨part, hpart, hmem⟩ := ihin b hb hne
        rcases List.mem_cons.mp hpart with rfl | hpart
        · exact ⟨_, List.mem_cons_self, List.mem_cons_of_mem _ hmem⟩
        · exact ⟨part, List.mem_cons_of_mem _ hpart, hmem⟩

/-! ## Elements -/

/-- The operation succeeds on every element. -/
theorem mapM_eq_some_iff {α β : Type} {f : α → Option β} {as : List α} {bs : List β} :
    as.mapM f = some bs ↔ List.Forall₂ (fun a b ↦ f a = some b) as bs := by
  induction as generalizing bs with
  | nil => simp [eq_comm]
  | cons a as ih =>
    rw [List.mapM_cons, List.forall₂_cons_left_iff]
    simp only [Option.bind_eq_bind, Option.bind_eq_some_iff, Option.pure_def, Option.some.injEq, ih]
    constructor
    · rintro ⟨b, hb, rest, hrest, rfl⟩
      exact ⟨b, rest, hb, hrest, rfl⟩
    · rintro ⟨b, rest, hb, hrest, rfl⟩
      exact ⟨b, hb, rest, hrest, rfl⟩

/-- A permutation of the images is the list of images of a permutation. -/
theorem exists_eq_map_of_perm {α β : Type} {f : α → β} {bs : List β} {as : List α}
    (h : bs.Perm (as.map f)) : ∃ as' : List α, bs = as'.map f ∧ as'.Perm as := by
  have hmap : List.Forall₂ (fun b a ↦ b = f a) (as.map f) as := by
    rw [List.forall₂_map_left_iff, List.forall₂_same]
    exact fun _ _ ↦ rfl
  obtain ⟨as', has', hperm⟩ := List.perm_comp_forall₂ h hmap
  refine ⟨as', ?_, hperm⟩
  rwa [← List.forall₂_map_right_iff, List.forall₂_eq_eq_eq] at has'

/-! ## Sorting -/

theorem pairwise_sortBy {α κ : Type} [LinearOrder κ] (key : α → κ) (as : List α) :
    (as.mergeSort fun left right ↦ decide (key left ≤ key right)).Pairwise
      fun left right ↦ key left ≤ key right := by
  have htrans : ∀ a b c : α, decide (key a ≤ key b) = true → decide (key b ≤ key c) = true →
      decide (key a ≤ key c) = true := by
    intro a b c hab hbc
    exact decide_eq_true (le_trans (of_decide_eq_true hab) (of_decide_eq_true hbc))
  have htotal : ∀ a b : α, (decide (key a ≤ key b) || decide (key b ≤ key a)) = true := by
    intro a b
    simpa using le_total (key a) (key b)
  exact (List.pairwise_mergeSort htrans htotal as).imp of_decide_eq_true

/-! ## Prefixes -/

/-- A shorter prefix can be continued inside the longer one. -/
theorem prefix_eq_or_next {α : Type} {xs ys zs : List α} {x : α} (hxs : xs <+: ys)
    (hys : ys <+: zs) (hx : xs ++ [x] <+: zs) : xs = ys ∨ xs ++ [x] <+: ys := by
  rcases List.prefix_or_prefix_of_prefix hys hx with hle | hnext
  · rcases List.prefix_concat_iff.mp hle with rfl | hback
    · exact .inr (List.prefix_refl _)
    · exact .inl (hxs.eq_of_length_le hback.length_le)
  · exact .inr hnext

/-- A prefix can be continued if something more follows. -/
theorem exists_next_of_prefix {α : Type} {xs ys : List α} (h : xs <+: ys) (y : α) :
    ∃ x, xs ++ [x] <+: ys ++ [y] := by
  obtain ⟨more, rfl⟩ := h
  cases more with
  | nil => exact ⟨y, by simp⟩
  | cons x more => exact ⟨x, more ++ [y], by simp⟩

end SkillHive.Foundation
