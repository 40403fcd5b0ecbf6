import Mathlib.Data.List.Basic
import Mathlib.Data.List.Forall2
import Mathlib.Tactic.Common

/-!
# Reading an ordered sequence page by page

The rows of a sequence are ordered by a key, and a page is a prefix of the rows after a
position. The key of its last row is the next position: what a page holds is exactly what
lies between the two, and what it does not hold lies after the next one.
-/

namespace SkillHive.Foundation

variable {α : Type*} {key : α → ℕ} {rows : List α} {position : ℕ}

/-- The position after a page: the key of its last row, if it has one. -/
def lastKey (key : α → ℕ) (position : ℕ) (page : List α) : ℕ := page.getLast?.elim position key

theorem lastKey_append_singleton (page : List α) (row : α) :
    lastKey key position (page ++ [row]) = key row := by
  rw [lastKey, List.getLast?_append, List.getLast?_singleton, Option.some_or, Option.elim_some]

/-- No row of an ordered page lies after the position that the page ends at. -/
theorem le_lastKey (hsorted : rows.Pairwise fun row row' ↦ key row < key row') {row : α}
    (h : row ∈ rows) : key row ≤ lastKey key position rows := by
  obtain ⟨init, last, rfl⟩ : ∃ init last, rows = init ++ [last] :=
    ⟨rows.dropLast, rows.getLast (List.ne_nil_of_mem h), (List.dropLast_append_getLast _).symm⟩
  rw [lastKey_append_singleton]
  rcases List.mem_append.mp h with hinit | hlast
  · apply Nat.le_of_lt
    exact (List.pairwise_append.mp hsorted).2.2 row hinit last (List.mem_singleton_self last)
  · exact Nat.le_of_eq (congrArg key (List.mem_singleton.mp hlast))

/-- A page does not go back. -/
theorem position_le_lastKey (hafter : ∀ row ∈ rows, position < key row) :
    position ≤ lastKey key position rows := by
  cases hlast : rows.getLast? with
  | none =>
    have hstay : lastKey key position rows = position := by
      rw [lastKey, hlast, Option.elim_none]
    exact Nat.le_of_eq hstay.symm
  | some row =>
    rw [lastKey, hlast, Option.elim_some]
    exact Nat.le_of_lt (hafter row (List.mem_of_getLast? hlast))

/-- A bound on the position and on the rows of a page bounds where it ends. -/
theorem lastKey_lt {bound : ℕ} (hposition : position < bound)
    (hrows : ∀ row ∈ rows, key row < bound) : lastKey key position rows < bound := by
  cases hlast : rows.getLast? with
  | none =>
    rw [lastKey, hlast, Option.elim_none]
    exact hposition
  | some row =>
    rw [lastKey, hlast, Option.elim_some]
    exact hrows row (List.mem_of_getLast? hlast)

/-- The rows that a page leaves out lie after the position that it ends at. -/
theorem lastKey_lt_of_mem_drop (hsorted : rows.Pairwise fun row row' ↦ key row < key row')
    (hafter : ∀ row ∈ rows, position < key row) (n : ℕ) {row : α} (h : row ∈ rows.drop n) :
    lastKey key position (rows.take n) < key row := by
  have hsplit : (rows.take n ++ rows.drop n).Pairwise fun row row' ↦ key row < key row' := by
    rw [List.take_append_drop]
    exact hsorted
  cases hlast : (rows.take n).getLast? with
  | none =>
    rw [lastKey, hlast, Option.elim_none]
    exact hafter row (List.mem_of_mem_drop h)
  | some last =>
    rw [lastKey, hlast, Option.elim_some]
    exact (List.pairwise_append.mp hsplit).2.2 last (List.mem_of_getLast? hlast) row h

/-- What a page holds: the rows up to the position that it ends at. -/
theorem mem_take_iff_le_lastKey (hsorted : rows.Pairwise fun row row' ↦ key row < key row')
    (hafter : ∀ row ∈ rows, position < key row) (n : ℕ) {row : α} :
    row ∈ rows.take n ↔ row ∈ rows ∧ key row ≤ lastKey key position (rows.take n) := by
  constructor
  · intro h
    have hpage := hsorted.sublist (List.take_sublist n rows)
    exact ⟨List.mem_of_mem_take h, le_lastKey hpage h⟩
  · rintro ⟨hmem, hle⟩
    rw [← List.take_append_drop n rows] at hmem
    rcases List.mem_append.mp hmem with htake | hdrop
    · exact htake
    · exact absurd hle (Nat.not_le.mpr (lastKey_lt_of_mem_drop hsorted hafter n hdrop))

/-! ## Related lists -/

section Related

variable {β : Type*} {R : α → β → Prop} {items : List α}

theorem exists_of_mem_left {rows : List β} (h : List.Forall₂ R items rows) {item : α}
    (hitem : item ∈ items) : ∃ row ∈ rows, R item row := by
  induction h with
  | nil => cases hitem
  | cons hrelated _ ih =>
    rcases List.mem_cons.mp hitem with rfl | hmem
    · exact ⟨_, List.mem_cons_self, hrelated⟩
    · obtain ⟨row, hrow, hrelated⟩ := ih hmem
      exact ⟨row, List.mem_cons_of_mem _ hrow, hrelated⟩

/-- A list is cut where the related one is. -/
theorem exists_cut_of_forall₂ {before after : List β} {row : β}
    (h : List.Forall₂ R items (before ++ row :: after)) :
    ∃ items₁ item items₂, items = items₁ ++ item :: items₂ ∧ R item row ∧
      List.Forall₂ R items₂ after := by
  obtain ⟨item, items₂, hrelated, hafter, hdrop⟩ := List.forall₂_cons_right_iff.mp
    (List.forall₂_drop_append items before (row :: after) h)
  refine ⟨items.take before.length, item, items₂, ?_, hrelated, hafter⟩
  rw [← hdrop, List.take_append_drop]

end Related

end SkillHive.Foundation
