import Mathlib.Data.List.Basic
import Mathlib.Logic.Function.Iterate
import Mathlib.Tactic.Common

/-!
# Sweeping in batches

A sweep looks at the first rows of a list, a batch of them, and drops those that need not be
kept. Swept again and again, the list settles: what need not be kept goes, except behind a full
batch of rows that are kept.
-/

namespace SkillHive.Foundation

variable {α : Type*} (keep : α → Bool)

/-- One sweep: only a batch of rows is looked at. -/
def sweepBatch (batch : ℕ) (rows : List α) : List α :=
  (rows.take batch).filter keep ++ rows.drop batch

/-- What the sweeps leave in the end. -/
def settled : ℕ → List α → List α
  | 0, rows => rows
  | _ + 1, [] => []
  | batch + 1, row :: rows =>
    if keep row then row :: settled batch rows else settled (batch + 1) rows

variable {keep}

@[simp]
theorem sweepBatch_zero (rows : List α) : sweepBatch keep 0 rows = rows := by
  simp [sweepBatch]

theorem sweepBatch_cons_of_keep {row : α} (hkeep : keep row) (batch : ℕ) (rows : List α) :
    sweepBatch keep (batch + 1) (row :: rows) = row :: sweepBatch keep batch rows := by
  simp [sweepBatch, hkeep]

theorem sweepBatch_cons_of_not_keep {row : α} (hkeep : ¬ keep row) (batch : ℕ) (rows : List α) :
    sweepBatch keep (batch + 1) (row :: rows) = sweepBatch keep batch rows := by
  simp [sweepBatch, hkeep]

theorem sweepBatch_sublist (batch : ℕ) (rows : List α) :
    (sweepBatch keep batch rows).Sublist rows := by
  have happend : (sweepBatch keep batch rows).Sublist (rows.take batch ++ rows.drop batch) :=
    List.filter_sublist.append_right _
  rwa [List.take_append_drop] at happend

/-- A sweep drops what it looks at and does not keep. -/
theorem mem_sweepBatch_iff {batch : ℕ} {rows : List α} (hrows : rows.Nodup) {row : α} :
    row ∈ sweepBatch keep batch rows ↔ row ∈ rows ∧ ¬ (row ∈ rows.take batch ∧ ¬ keep row) := by
  have hsplit : row ∈ rows ↔ row ∈ rows.take batch ∨ row ∈ rows.drop batch := by
    rw [← List.mem_append, List.take_append_drop]
  have hdisjoint : row ∈ rows.take batch → row ∉ rows.drop batch :=
    fun h h' ↦ List.disjoint_take_drop hrows (Nat.le_refl batch) h h'
  rw [sweepBatch, List.mem_append, List.mem_filter, hsplit]
  by_cases htake : row ∈ rows.take batch
  · simp [htake, hdisjoint htake]
  · simp [htake]

/-- A sweep by at most the batch changes nothing about where the list settles. -/
theorem settled_sweepBatch {few batch : ℕ} (hle : few ≤ batch) (rows : List α) :
    settled keep batch (sweepBatch keep few rows) = settled keep batch rows := by
  induction rows generalizing few batch with
  | nil => simp [sweepBatch]
  | cons row rows ih =>
    cases few with
    | zero => rw [sweepBatch_zero]
    | succ few =>
      obtain ⟨batch, rfl⟩ : ∃ n, batch = n + 1 := ⟨batch - 1, by omega⟩
      by_cases hkeep : keep row
      · rw [sweepBatch_cons_of_keep hkeep, settled, settled, if_pos hkeep, if_pos hkeep,
          ih (by omega)]
      · rw [sweepBatch_cons_of_not_keep hkeep, ih (by omega), settled, if_neg hkeep]

theorem settled_iterate (batch times : ℕ) (rows : List α) :
    settled keep batch ((sweepBatch keep batch)^[times] rows) = settled keep batch rows := by
  induction times with
  | zero => rfl
  | succ times ih =>
    rw [Function.iterate_succ_apply', settled_sweepBatch (Nat.le_refl batch), ih]

/-- What stays in the end has not been dropped before. -/
theorem settled_sublist (batch : ℕ) (rows : List α) : (settled keep batch rows).Sublist rows := by
  induction rows generalizing batch with
  | nil => cases batch <;> exact List.Sublist.refl _
  | cons row rows ih =>
    cases batch with
    | zero => exact List.Sublist.refl _
    | succ batch =>
      rw [settled]
      split
      · exact (ih batch).cons_cons row
      · exact (ih (batch + 1)).cons row

/-- A list that a sweep leaves as it is has settled. -/
theorem settled_of_sweepBatch_eq {batch : ℕ} {rows : List α}
    (h : ∀ row ∈ rows.take batch, keep row) : settled keep batch rows = rows := by
  induction rows generalizing batch with
  | nil => cases batch <;> rfl
  | cons row rows ih =>
    cases batch with
    | zero => rfl
    | succ batch =>
      rw [List.take_succ_cons] at h
      rw [settled, if_pos (h row List.mem_cons_self),
        ih fun row' hrow' ↦ h row' (List.mem_cons_of_mem _ hrow')]

/-- How many rows the sweeps would like to drop. -/
def unkept (keep : α → Bool) (rows : List α) : ℕ := rows.countP fun row ↦ !keep row

/-- A sweep that finds something to drop drops it. -/
theorem unkept_sweepBatch_lt {batch : ℕ} {rows : List α}
    (h : ¬ ∀ row ∈ rows.take batch, keep row) :
    unkept keep (sweepBatch keep batch rows) < unkept keep rows := by
  have hnone : ((rows.take batch).filter keep).countP (fun row ↦ !keep row) = 0 := by
    simp [List.countP_eq_zero]
  have hsome : 0 < (rows.take batch).countP fun row ↦ !keep row := by
    rw [List.countP_pos_iff]
    push Not at h
    obtain ⟨row, hrow, hkeep⟩ := h
    exact ⟨row, hrow, by simpa using hkeep⟩
  have hsplit : unkept keep rows = (rows.take batch).countP (fun row ↦ !keep row) +
      (rows.drop batch).countP fun row ↦ !keep row := by
    rw [← List.countP_append, List.take_append_drop]
    rfl
  rw [hsplit, unkept, sweepBatch, List.countP_append, hnone]
  omega

/-- After as many sweeps as there are rows to drop, the list has settled. -/
theorem iterate_sweepBatch {batch times : ℕ} {rows : List α} (h : unkept keep rows ≤ times) :
    (sweepBatch keep batch)^[times] rows = settled keep batch rows := by
  induction times generalizing rows with
  | zero =>
    rw [Function.iterate_zero_apply, settled_of_sweepBatch_eq]
    intro row hrow
    have hzero : unkept keep rows = 0 := by omega
    simpa using List.countP_eq_zero.mp hzero row (List.mem_of_mem_take hrow)
  | succ times ih =>
    rw [Function.iterate_succ_apply]
    by_cases hdone : ∀ row ∈ rows.take batch, keep row
    · have hfixed : sweepBatch keep batch rows = rows := by
        rw [sweepBatch, List.filter_eq_self.mpr hdone, List.take_append_drop]
      rw [hfixed, Function.iterate_fixed hfixed, settled_of_sweepBatch_eq hdone]
    · have hfewer := unkept_sweepBatch_lt hdone
      rw [ih (by omega), settled_sweepBatch (Nat.le_refl batch)]

/-- Which rows stay, when the list is in a strict order: those that are kept, and those with a
full batch of kept rows before them. -/
theorem mem_settled_iff {r : α → α → Prop} [DecidableRel r] (hasymm : ∀ a b, r a b → ¬ r b a)
    {rows : List α} (hrows : rows.Pairwise r) {batch : ℕ} {row : α} :
    row ∈ settled keep batch rows ↔
      row ∈ rows ∧
        (keep row ∨ batch ≤ rows.countP fun other ↦ keep other && decide (r other row)) := by
  induction rows generalizing batch with
  | nil => cases batch <;> simp [settled]
  | cons first rows ih =>
    obtain ⟨hfirst, hrest⟩ := List.pairwise_cons.mp hrows
    cases batch with
    | zero => simp [settled]
    | succ batch =>
      rw [settled, List.countP_cons, List.mem_cons]
      by_cases heq : row = first
      · subst heq
        have hirrefl : ¬ r row row := fun h ↦ hasymm row row h h
        have hnone : rows.countP (fun other ↦ keep other && decide (r other row)) = 0 := by
          rw [List.countP_eq_zero]
          intro other hother
          simpa using fun _ ↦ hasymm row other (hfirst other hother)
        by_cases hkeep : keep row
        · simp [hkeep]
        · have hout : row ∉ settled keep (batch + 1) rows := by
            rw [ih hrest]
            exact fun h ↦ hirrefl (hfirst row h.1)
          simp [hkeep, hout, hnone]
      · by_cases hkeep : keep first
        · rw [if_pos hkeep, List.mem_cons, or_iff_right heq, or_iff_right heq, ih hrest]
          apply and_congr_right
          intro hrow
          simp [hkeep, hfirst row hrow]
        · rw [if_neg hkeep, or_iff_right heq, ih hrest]
          simp [hkeep]

end SkillHive.Foundation
