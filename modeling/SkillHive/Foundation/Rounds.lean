import SkillHive.Foundation.Table

/-!
# Rounds of questions

A question is asked of a pair of parties and is pending until it is closed with an outcome. Closed
questions are kept, and no two questions of a pair have the same status. So a pending question can
be closed with every outcome exactly when its pair has never been asked before.
-/

namespace SkillHive.Foundation

/-- Which parties a question concerns, and how it stands. -/
structure Rounds (ρ β τ : Type*) where
  pair : ρ → β
  status : ρ → τ
  pending : τ

namespace Rounds

variable {ρ κ β τ : Type*} {key : ρ → κ} (q : Rounds ρ β τ)

/-- No two questions of a pair stand the same. -/
def Distinct (t : Table ρ key) : Prop :=
  ∀ row ∈ t, ∀ other ∈ t, q.pair other = q.pair row → q.status other = q.status row → other = row

/-- No other question has the pair and the status of this one. -/
def Free (t : Table ρ key) (row : ρ) : Prop :=
  ∀ other ∈ t, key other ≠ key row → ¬ (q.pair other = q.pair row ∧ q.status other = q.status row)

/-- A pending question is the only one of its pair. -/
def Closable (t : Table ρ key) : Prop :=
  ∀ row ∈ t, q.status row = q.pending → ∀ other ∈ t, q.pair other = q.pair row → other = row

/-- The pair has been asked. -/
def Asked (t : Table ρ key) (pair : β) : Prop := ∃ row ∈ t, q.pair row = pair

variable {q} {t t' : Table ρ key} {row : ρ}

/-- A pending question is alone with its pair exactly when nothing stands in the way of any
outcome. -/
theorem alone_iff_free (hdistinct : q.Distinct t) (hrow : row ∈ t)
    (hpending : q.status row = q.pending) (close : τ → ρ)
    (hkey : ∀ outcome, key (close outcome) = key row)
    (hpair : ∀ outcome, q.pair (close outcome) = q.pair row)
    (hstatus : ∀ outcome, q.status (close outcome) = outcome) :
    (∀ other ∈ t, q.pair other = q.pair row → other = row) ↔
      ∀ outcome, outcome ≠ q.pending → q.Free t (close outcome) := by
  constructor
  · intro halone outcome _ other hother hne hsame
    rw [hkey] at hne
    rw [hpair] at hsame
    exact hne (congrArg key (halone other hother hsame.1))
  · intro hfree other hother hsame
    by_cases hopen : q.status other = q.pending
    · exact hdistinct row hrow other hother hsame (hopen.trans hpending.symm)
    · by_contra hne
      apply hfree (q.status other) hopen other hother
      · rw [hkey]
        exact fun heq ↦ hne (Table.eq_of_key_eq hother hrow heq)
      · exact ⟨hsame.trans (hpair _).symm, (hstatus _).symm⟩

/-! ## Asking -/

section Asking

variable [DecidableEq κ]

theorem Distinct.insert (hdistinct : q.Distinct t) (hfree : q.Free t row)
    (h : t.insert? row = some t') : q.Distinct t' := by
  have hnew : ∀ other ∈ t, key other ≠ key row := by
    intro other hother heq
    exact Table.get?_eq_none_iff.mp (Table.get?_eq_none_of_insert? h) other hother heq
  intro first hfirst second hsecond hpair hstatus
  rw [Table.mem_insert? h] at hfirst hsecond
  rcases hfirst with hfirst | rfl <;> rcases hsecond with hsecond | rfl
  · exact hdistinct first hfirst second hsecond hpair hstatus
  · exact absurd ⟨hpair.symm, hstatus.symm⟩ (hfree first hfirst (hnew first hfirst))
  · exact absurd ⟨hpair, hstatus⟩ (hfree second hsecond (hnew second hsecond))
  · rfl

/-- A new question leaves everything closable exactly when its pair has not been asked. -/
theorem closable_insert_iff (hclosable : q.Closable t) (hpending : q.status row = q.pending)
    (h : t.insert? row = some t') : q.Closable t' ↔ ¬ q.Asked t (q.pair row) := by
  constructor
  · rintro hnext ⟨other, hother, hpair⟩
    have heq : other = row := hnext row ((Table.mem_insert? h).mpr (.inr rfl)) hpending other
      ((Table.mem_insert? h).mpr (.inl hother)) hpair
    subst heq
    exact Table.get?_eq_none_iff.mp (Table.get?_eq_none_of_insert? h) other hother rfl
  · intro hnew first hfirst hopen second hsecond hpair
    rw [Table.mem_insert? h] at hfirst hsecond
    rcases hfirst with hfirst | rfl <;> rcases hsecond with hsecond | rfl
    · exact hclosable first hfirst hopen second hsecond hpair
    · exact absurd ⟨first, hfirst, hpair.symm⟩ hnew
    · exact absurd ⟨second, hsecond, hpair⟩ hnew
    · rfl

end Asking

/-! ## Closing -/

section Closing

variable [DecidableEq κ]

theorem eq_or_mem_of_mem_replace {row' : ρ} (h : row' ∈ t.replace row) :
    row' = row ∨ (row' ∈ t ∧ key row' ≠ key row) := by
  have hget := Table.get?_of_mem h
  rw [Table.get?_replace] at hget
  split at hget
  case isTrue =>
    obtain ⟨old, -, rfl⟩ := Option.map_eq_some_iff.mp hget
    exact .inl rfl
  case isFalse hne => exact .inr ⟨Table.mem_of_get? hget, hne⟩

theorem Distinct.replace (hdistinct : q.Distinct t) (hfree : q.Free t row) :
    q.Distinct (t.replace row) := by
  intro first hfirst second hsecond hpair hstatus
  rcases eq_or_mem_of_mem_replace hfirst with rfl | ⟨hfirstOld, hfirstKey⟩ <;>
    rcases eq_or_mem_of_mem_replace hsecond with rfl | ⟨hsecondOld, hsecondKey⟩
  · rfl
  · exact absurd ⟨hpair, hstatus⟩ (hfree second hsecondOld hsecondKey)
  · exact absurd ⟨hpair.symm, hstatus.symm⟩ (hfree first hfirstOld hfirstKey)
  · exact hdistinct first hfirstOld second hsecondOld hpair hstatus

/-- A closed question stands in nobody's way. -/
theorem Closable.replace {old : ρ} (hclosable : q.Closable t) (hold : old ∈ t)
    (hkey : key old = key row) (hpair : q.pair old = q.pair row)
    (hclosed : q.status row ≠ q.pending) : q.Closable (t.replace row) := by
  intro first hfirst hopen second hsecond hsame
  rcases eq_or_mem_of_mem_replace hfirst with rfl | ⟨hfirstOld, hfirstKey⟩
  · exact absurd hopen hclosed
  · rcases eq_or_mem_of_mem_replace hsecond with rfl | ⟨hsecondOld, -⟩
    · have heq := hclosable first hfirstOld hopen old hold (hpair.trans hsame)
      exact absurd (heq ▸ hkey) hfirstKey
    · exact hclosable first hfirstOld hopen second hsecondOld hsame

end Closing

end Rounds

end SkillHive.Foundation
