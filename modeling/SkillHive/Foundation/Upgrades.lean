import SkillHive.Foundation.Table
import SkillHive.Foundation.Transaction

/-!
# Versioned upgrades

A store carries the numbers of the scripts that were applied to it. To upgrade it is to apply,
in order, every script with a number above its version; a script and its number are stored
together. However many scripts an earlier upgrade got through, the next one ends where the
first would have.
-/

namespace SkillHive.Foundation

variable {ε σ : Type}

/-- A numbered change of the stored data. -/
abbrev Script (ε σ : Type) : Type := ℕ × (σ → Except ε σ)

/-- Data with the numbers of the scripts that made it. -/
structure Stamped (σ : Type) where
  stamps : List ℕ
  tables : σ

namespace Stamped

/-- `COALESCE(MAX(version), 0)` -/
def version (s : Stamped σ) : ℕ := s.stamps.foldr max 0

def pending (scripts : List (Script ε σ)) (s : Stamped σ) : List (Script ε σ) :=
  scripts.filter fun script ↦ s.version < script.1

/-- The script and its stamp, in one transaction. -/
def apply (script : Script ε σ) (s : Stamped σ) : Except ε (Stamped σ) := do
  let tables ← script.2 s.tables
  .ok ⟨s.stamps ++ [script.1], tables⟩

/-- All scripts that are pending. -/
def upgrade (scripts : List (Script ε σ)) (s : Stamped σ) : Except ε (Stamped σ) :=
  foldE (fun s script ↦ s.apply script) s (s.pending scripts)

variable {scripts rest : List (Script ε σ)} {script : Script ε σ} {s s' : Stamped σ}

theorem version_apply (h : s.apply script = .ok s') : s'.version = max s.version script.1 := by
  obtain ⟨tables, -, ⟨⟩⟩ := bind_eq_ok.mp h
  have hfold : ∀ (stamps : List ℕ) (n : ℕ),
      (stamps ++ [n]).foldr max 0 = max (stamps.foldr max 0) n := by
    intro stamps n
    induction stamps with
    | nil => simp
    | cons stamp stamps ih => simp [ih, Nat.max_assoc]
  exact hfold s.stamps script.1

/-- After the first pending script the others are pending. -/
theorem pending_apply (hsorted : scripts.Pairwise fun a b ↦ a.1 < b.1)
    (hpending : s.pending scripts = script :: rest) (h : s.apply script = .ok s') :
    s'.pending scripts = rest := by
  have hmem : s.version < script.1 := by
    have hscript : script ∈ s.pending scripts := by simp [hpending]
    simpa using (List.mem_filter.mp hscript).2
  have hrest : ∀ later ∈ rest, script.1 < later.1 := by
    have hpairwise := hsorted.filter fun script ↦ decide (s.version < script.1)
    rw [show scripts.filter _ = script :: rest from hpending] at hpairwise
    exact (List.pairwise_cons.mp hpairwise).1
  have hsplit : s'.pending scripts = (s.pending scripts).filter fun later ↦ script.1 < later.1 := by
    rw [pending, pending, List.filter_filter, version_apply h]
    apply List.filter_congr
    intro later _
    grind
  rw [hsplit, hpending, List.filter_cons_of_neg (by simp), List.filter_eq_self]
  simpa using hrest

/-- A script that was applied is one that the upgrade would have applied. -/
theorem upgrade_apply (hsorted : scripts.Pairwise fun a b ↦ a.1 < b.1)
    (hpending : s.pending scripts = script :: rest) (h : s.apply script = .ok s') :
    s'.upgrade scripts = s.upgrade scripts := by
  rw [upgrade, upgrade, pending_apply hsorted hpending h, hpending, foldE, h]
  rfl

end Stamped

/-! ## Tables with other columns -/

namespace Table

variable {ρ ρ' κ : Type*} {key : ρ → κ} {key' : ρ' → κ}

/-- The rows in another shape, under their keys. -/
def reshape (t : Table ρ key) (f : ρ → ρ') (hf : ∀ r, key' (f r) = key r) : Table ρ' key' where
  rows := t.rows.map f
  nodup_keys := by
    have hkeys : (t.rows.map f).map key' = t.rows.map key := by
      rw [List.map_map]
      exact List.map_congr_left fun r _ ↦ hf r
    rw [hkeys]
    exact t.nodup_keys

end Table

end SkillHive.Foundation
