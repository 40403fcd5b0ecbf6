import Mathlib.Data.List.Nodup
import Mathlib.Data.List.Perm.Subperm
import Mathlib.Order.Lattice
import Mathlib.Order.Nat
import Mathlib.Tactic.Common

/-!
# Row numbers

`ROW_NUMBER() OVER (PARTITION BY part ORDER BY rank)`: the place of a row among the rows of
its partition. Where the rank tells the rows of a partition apart, the numbers of a partition
are 1, 2, 3 and so on, in the order of the ranks.
-/

namespace SkillHive.Foundation

variable {ρ π κ : Type*} [DecidableEq π] [LinearOrder κ]

/-- One more than the rows of the partition that come before this one. -/
def rowNumber (part : ρ → π) (rank : ρ → κ) (rows : List ρ) (row : ρ) : ℕ :=
  rows.countP (fun other ↦ part other = part row ∧ rank other < rank row) + 1

/-- A stronger condition that leaves some element out counts fewer. -/
theorem countP_lt_countP {p q : ρ → Bool} {rows : List ρ} {a : ρ} (hpq : ∀ x, p x → q x)
    (ha : a ∈ rows) (hq : q a) (hp : ¬ p a) : rows.countP p < rows.countP q := by
  rw [List.countP_eq_length_filter, List.countP_eq_length_filter]
  have hsub : (rows.filter p).Sublist (rows.filter q) := List.monotone_filter_right rows hpq
  apply lt_of_le_of_ne hsub.length_le
  intro heq
  have hmem : a ∈ rows.filter p := by
    rw [hsub.eq_of_length heq]
    exact List.mem_filter.mpr ⟨ha, hq⟩
  exact hp (List.mem_filter.mp hmem).2

variable {part : ρ → π} {rank : ρ → κ} {rows : List ρ} {a b : ρ}

theorem rowNumber_pos : 0 < rowNumber part rank rows a := Nat.succ_pos _

theorem rowNumber_le (ha : a ∈ rows) :
    rowNumber part rank rows a ≤ rows.countP fun other ↦ part other = part a := by
  rw [rowNumber, Nat.succ_le_iff]
  apply countP_lt_countP _ ha <;> simp +contextual

/-- In one partition the numbers are in the order of the ranks. -/
theorem rowNumber_lt_iff (ha : a ∈ rows) (hpart : part a = part b) :
    rowNumber part rank rows a < rowNumber part rank rows b ↔ rank a < rank b := by
  rw [rowNumber, rowNumber, Nat.succ_lt_succ_iff]
  constructor
  · intro hlt
    by_contra hle
    apply hlt.not_ge
    apply List.countP_mono_left
    simp only [decide_eq_true_eq]
    exact fun other _ hother ↦
      ⟨hother.1.trans hpart.symm, hother.2.trans_le (not_lt.mp hle)⟩
  · intro hlt
    apply countP_lt_countP _ ha
    · simpa using ⟨hpart, hlt⟩
    · simp
    · simp only [decide_eq_true_eq]
      exact fun other hother ↦ ⟨hother.1.trans hpart, hother.2.trans hlt⟩

theorem rowNumber_inj (hnodup : (rows.map fun row ↦ (part row, rank row)).Nodup) (ha : a ∈ rows)
    (hb : b ∈ rows) (hpart : part a = part b)
    (heq : rowNumber part rank rows a = rowNumber part rank rows b) : a = b := by
  have hle : rank b ≤ rank a := not_lt.mp fun hlt ↦ ((rowNumber_lt_iff ha hpart).mpr hlt).ne heq
  have hge : rank a ≤ rank b :=
    not_lt.mp fun hlt ↦ ((rowNumber_lt_iff hb hpart.symm).mpr hlt).ne heq.symm
  exact List.inj_on_of_nodup_map hnodup ha hb (Prod.ext hpart (le_antisymm hge hle))

/-- The numbers of a partition are `1, 2, …`, each once. -/
theorem rowNumber_perm (hnodup : (rows.map fun row ↦ (part row, rank row)).Nodup) (p : π) :
    ((rows.filter fun row ↦ part row = p).map (rowNumber part rank rows)).Perm
      (List.range' 1 (rows.countP fun row ↦ part row = p)) := by
  have hdistinct : ((rows.filter fun row ↦ part row = p).map (rowNumber part rank rows)).Nodup := by
    apply List.Nodup.map_on _ ((List.Nodup.of_map _ hnodup).filter _)
    intro a ha b hb heq
    obtain ⟨ha, hpa⟩ := List.mem_filter.mp ha
    obtain ⟨hb, hpb⟩ := List.mem_filter.mp hb
    apply rowNumber_inj hnodup ha hb _ heq
    rw [of_decide_eq_true hpa, of_decide_eq_true hpb]
  apply (List.subperm_of_subset hdistinct ?_).perm_of_length_le
  · rw [List.length_range', List.length_map, List.countP_eq_length_filter]
  · intro number hnumber
    obtain ⟨row, hrow, rfl⟩ := List.mem_map.mp hnumber
    obtain ⟨hrow, hpart⟩ := List.mem_filter.mp hrow
    have hbound : rowNumber part rank rows row ≤ _ := rowNumber_le hrow
    rw [of_decide_eq_true hpart] at hbound
    have hpos : 0 < rowNumber part rank rows row := rowNumber_pos
    rw [List.mem_range'_1]
    omega

end SkillHive.Foundation
