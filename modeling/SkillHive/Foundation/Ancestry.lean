import Mathlib.Data.List.Nodup
import Mathlib.Data.List.Perm.Subperm
import Mathlib.Data.Nat.Find
import Mathlib.Logic.Function.Basic
import Mathlib.Tactic.Common

/-!
# Parent functions of bounded depth

A partial function that gives every node its parent. A bound on the length of its chains
excludes cycles. Hanging a node under a new parent keeps the bound exactly when the parent
is not below the node and the chain above the parent fits on top of every chain that ends
at the node.
-/

namespace SkillHive.Foundation

variable {α : Type*} {parent : α → Option α}

/-- The `n`-th ancestor of a node; the node itself is its ancestor number zero. -/
def ancestor (parent : α → Option α) : ℕ → α → Option α
  | 0, a => some a
  | n + 1, a => (parent a).bind (ancestor parent n)

/-- No chain has more than `limit` nodes. -/
def Bounded (parent : α → Option α) (limit : ℕ) : Prop := ∀ a, ancestor parent limit a = none

@[simp]
theorem ancestor_zero (a : α) : ancestor parent 0 a = some a := rfl

theorem ancestor_succ (n : ℕ) (a : α) :
    ancestor parent (n + 1) a = (parent a).bind (ancestor parent n) := rfl

theorem ancestor_add (m n : ℕ) (a : α) :
    ancestor parent (m + n) a = (ancestor parent m a).bind (ancestor parent n) := by
  induction m generalizing a with
  | zero => rw [Nat.zero_add, ancestor_zero, Option.bind_some]
  | succ m ih =>
    rw [Nat.succ_add, ancestor_succ, ancestor_succ]
    cases parent a with
    | none => rfl
    | some b => exact ih b

theorem ancestor_add_of_eq_some {m n : ℕ} {a b : α} (h : ancestor parent m a = some b) :
    ancestor parent (m + n) a = ancestor parent n b := by
  rw [ancestor_add, h, Option.bind_some]

/-- A chain that has ended does not go on. -/
theorem ancestor_eq_none_of_le {m n : ℕ} {a : α} (hle : m ≤ n) (h : ancestor parent m a = none) :
    ancestor parent n a = none := by
  obtain ⟨k, rfl⟩ := Nat.exists_eq_add_of_le hle
  rw [ancestor_add, h, Option.bind_none]

/-- Going round a cycle any number of times comes back to its node. -/
theorem ancestor_mul_of_cycle {n : ℕ} {a : α} (h : ancestor parent n a = some a) (k : ℕ) :
    ancestor parent (k * n) a = some a := by
  induction k with
  | zero => rw [Nat.zero_mul, ancestor_zero]
  | succ k ih => rw [Nat.succ_mul, ancestor_add_of_eq_some ih, h]

/-- A node has the ancestors that it has by fewer parents. -/
theorem ancestor_of_le {parent' : α → Option α} (h : ∀ a b, parent a = some b → parent' a = some b)
    {n : ℕ} {a b : α} (hab : ancestor parent n a = some b) : ancestor parent' n a = some b := by
  induction n generalizing a with
  | zero => exact hab
  | succ n ih =>
    obtain ⟨c, hc, hcb⟩ := Option.bind_eq_some_iff.mp hab
    exact Option.bind_eq_some_iff.mpr ⟨c, h a c hc, ih hcb⟩

/-- No node is its own ancestor. -/
def Acyclic (parent : α → Option α) : Prop := ∀ n a, 0 < n → ancestor parent n a ≠ some a

namespace Acyclic

/-- Parents that lower a rank form no cycle. -/
theorem of_rank (rank : α → ℕ) (h : ∀ a b, parent a = some b → rank b < rank a) :
    Acyclic parent := by
  have hrank : ∀ n a b, ancestor parent n a = some b → rank b + n ≤ rank a := by
    intro n
    induction n with
    | zero =>
      rintro a b ⟨⟩
      exact Nat.le_refl _
    | succ n ih =>
      intro a b hab
      obtain ⟨c, hc, hcb⟩ := Option.bind_eq_some_iff.mp hab
      have hlt := h a c hc
      have hle := ih c b hcb
      omega
  intro n a hn hcycle
  have hle := hrank n a a hcycle
  omega

/-- A chain meets a node at most once. -/
theorem ancestor_injective (hacyclic : Acyclic parent) {m n : ℕ} {a b : α}
    (hm : ancestor parent m a = some b) (hn : ancestor parent n a = some b) : m = n := by
  have hle : ∀ {m n : ℕ}, ancestor parent m a = some b → ancestor parent n a = some b →
      n ≤ m := by
    intro m n hm hn
    by_contra hlt
    obtain ⟨k, rfl⟩ := Nat.exists_eq_add_of_lt (Nat.lt_of_not_le hlt)
    rw [Nat.add_assoc, ancestor_add_of_eq_some hm] at hn
    exact hacyclic (k + 1) b (Nat.succ_pos k) hn
  exact Nat.le_antisymm (hle hn hm) (hle hm hn)

/-- A chain that stays among the nodes has no more of them than there are. -/
theorem lt_length_of_ancestor (hacyclic : Acyclic parent) {nodes : List α}
    (hnodes : ∀ a b, parent a = some b → a ∈ nodes) {n : ℕ} {a b : α}
    (hab : ancestor parent n a = some b) (hb : b ∈ nodes) : n < nodes.length := by
  have hchain : ∀ m, m ≤ n → ∃ c, ancestor parent m a = some c ∧ c ∈ nodes := by
    intro m hm
    cases hc : ancestor parent m a with
    | none =>
      rw [ancestor_eq_none_of_le hm hc] at hab
      cases hab
    | some c =>
      refine ⟨c, rfl, ?_⟩
      obtain ⟨k, rfl⟩ := Nat.exists_eq_add_of_le hm
      rw [ancestor_add_of_eq_some hc] at hab
      cases k with
      | zero =>
        cases hab
        exact hb
      | succ k =>
        obtain ⟨d, hd, -⟩ := Option.bind_eq_some_iff.mp hab
        exact hnodes c d hd
  let chain := (List.range (n + 1)).map fun m ↦ (ancestor parent m a).getD a
  have hnodup : chain.Nodup := by
    refine List.Nodup.map_on (fun m hm n hn heq ↦ ?_) List.nodup_range
    obtain ⟨b, hb, -⟩ := hchain m (Nat.le_of_lt_succ (List.mem_range.mp hm))
    obtain ⟨c, hc, -⟩ := hchain n (Nat.le_of_lt_succ (List.mem_range.mp hn))
    rw [hb, hc, Option.getD_some, Option.getD_some] at heq
    exact hacyclic.ancestor_injective hb (heq ▸ hc)
  have hsubset : chain ⊆ nodes := by
    intro b hb
    obtain ⟨n, hn, rfl⟩ := List.mem_map.mp hb
    obtain ⟨b, hb, hmem⟩ := hchain n (Nat.le_of_lt_succ (List.mem_range.mp hn))
    rw [hb, Option.getD_some]
    exact hmem
  have hlength : chain.length ≤ nodes.length := (hnodup.subperm hsubset).length_le
  rw [List.length_map, List.length_range] at hlength
  exact hlength

/-- A chain has no more nodes with a parent than there are. -/
theorem bounded (hacyclic : Acyclic parent) {nodes : List α}
    (hnodes : ∀ a b, parent a = some b → a ∈ nodes) : Bounded parent (nodes.length + 1) := by
  intro a
  rw [Option.eq_none_iff_forall_ne_some]
  intro c hc
  rw [ancestor_add, Option.bind_eq_some_iff] at hc
  obtain ⟨b, hb, hbc⟩ := hc
  obtain ⟨d, hparent, -⟩ := Option.bind_eq_some_iff.mp hbc
  exact absurd (hacyclic.lt_length_of_ancestor hnodes hb (hnodes b d hparent)) (Nat.lt_irrefl _)

end Acyclic

namespace Bounded

variable {limit : ℕ}

theorem lt_of_ancestor (hbounded : Bounded parent limit) {n : ℕ} {a b : α}
    (h : ancestor parent n a = some b) : n < limit := by
  by_contra hle
  rw [ancestor_eq_none_of_le (Nat.le_of_not_lt hle) (hbounded a)] at h
  cases h

/-- A bounded parent function has no cycle. -/
theorem acyclic (hbounded : Bounded parent limit) {n : ℕ} (hn : 0 < n) (a : α) :
    ancestor parent n a ≠ some a := by
  intro hcycle
  have hlt := hbounded.lt_of_ancestor (ancestor_mul_of_cycle hcycle limit)
  exact absurd hlt (Nat.not_lt.mpr (Nat.le_mul_of_pos_right limit hn))

theorem ancestor_injective (hbounded : Bounded parent limit) {m n : ℕ} {a b : α}
    (hm : ancestor parent m a = some b) (hn : ancestor parent n a = some b) : m = n :=
  Acyclic.ancestor_injective (fun _ a hn ↦ hbounded.acyclic hn a) hm hn

theorem of_le {parent' : α → Option α} (hbounded : Bounded parent limit)
    (h : ∀ a b, parent' a = some b → parent a = some b) : Bounded parent' limit := by
  intro a
  by_contra hsome
  obtain ⟨b, hb⟩ := Option.ne_none_iff_exists'.mp hsome
  have hnone := hbounded a
  rw [ancestor_of_le h hb] at hnone
  cases hnone

theorem mono {limit' : ℕ} (hbounded : Bounded parent limit) (hle : limit ≤ limit') :
    Bounded parent limit' := fun a ↦ ancestor_eq_none_of_le hle (hbounded a)

end Bounded

/-! ## Changing one parent -/

section Update

variable [DecidableEq α] {node : α} {new : Option α} {limit : ℕ}

/-- A chain that does not go through the node is the one it was. -/
theorem ancestor_update_of_avoids {n : ℕ} {a : α}
    (h : ∀ k, k < n → ancestor parent k a ≠ some node) :
    ancestor (Function.update parent node new) n a = ancestor parent n a := by
  induction n generalizing a with
  | zero => rfl
  | succ n ih =>
    have hne : a ≠ node := fun heq ↦ h 0 (Nat.succ_pos n) (congrArg some heq)
    rw [ancestor_succ, ancestor_succ, Function.update_of_ne hne]
    cases hparent : parent a with
    | none => rfl
    | some b =>
      refine ih fun k hk hkb ↦ h (k + 1) (Nat.succ_lt_succ hk) ?_
      rw [ancestor_succ, hparent, Option.bind_some, hkb]

/-- A chain through the node continues above the new parent. -/
theorem ancestor_update_of_through {k n : ℕ} {a : α} (hk : ancestor parent k a = some node)
    (hfirst : ∀ j, j < k → ancestor parent j a ≠ some node) :
    ancestor (Function.update parent node new) (k + (n + 1)) a =
      new.bind (ancestor (Function.update parent node new) n) := by
  have hnode : ancestor (Function.update parent node new) k a = some node :=
    (ancestor_update_of_avoids hfirst).trans hk
  rw [ancestor_add_of_eq_some hnode, ancestor_succ, Function.update_self]

/-- The new parent can carry the node: it is not below the node, and every chain that ends
at the node fits under the chain that starts at the parent. -/
structure Carries (parent : α → Option α) (limit : ℕ) (node above : α) : Prop where
  notBelow : ∀ n, ancestor parent n above ≠ some node
  fits : ∀ n m a, ancestor parent n a = some node → ancestor parent m above ≠ none →
    n + m + 2 ≤ limit

/-- Hanging a node under a parent keeps the bound exactly when the parent can carry it. -/
theorem bounded_update_some_iff {above : α} (hbounded : Bounded parent limit) :
    Bounded (Function.update parent node (some above)) limit ↔
      Carries parent limit node above := by
  constructor
  · intro hupdated
    have hnotBelow : ∀ n, ancestor parent n above ≠ some node := by
      intro n hn
      have hexists : ∃ n, ancestor parent n above = some node := ⟨n, hn⟩
      -- Up from the new parent to the node, and from the node to the parent again.
      have hround : ancestor (Function.update parent node (some above))
          (0 + (Nat.find hexists + 1)) node = some node := by
        rw [ancestor_update_of_through rfl (fun j hj ↦ absurd hj (Nat.not_lt_zero j)),
          Option.bind_some,
          ancestor_update_of_avoids (fun k hk ↦ Nat.find_min hexists hk)]
        exact Nat.find_spec hexists
      exact hupdated.acyclic (by omega) node hround
    refine ⟨hnotBelow, fun n m a hn hm ↦ ?_⟩
    have hchain : ancestor (Function.update parent node (some above)) (n + (m + 1)) a =
        ancestor parent m above := by
      rw [ancestor_update_of_through hn (fun j hj hj' ↦
        absurd (hbounded.ancestor_injective hj' hn) (Nat.ne_of_lt hj)), Option.bind_some]
      exact ancestor_update_of_avoids fun k _ ↦ hnotBelow k
    obtain ⟨b, hb⟩ := Option.ne_none_iff_exists'.mp hm
    have hlt := hupdated.lt_of_ancestor (hchain.trans hb)
    omega
  · intro hcarries a
    by_cases hthrough : ∃ k, ancestor parent k a = some node
    · obtain ⟨k, hk⟩ := hthrough
      have hlt := hbounded.lt_of_ancestor hk
      obtain ⟨n, hn⟩ : ∃ n, limit = k + (n + 1) := ⟨limit - k - 1, by omega⟩
      have hchain : ancestor (Function.update parent node (some above)) limit a =
          ancestor parent n above := by
        rw [hn, ancestor_update_of_through hk (fun j hj hj' ↦
          absurd (hbounded.ancestor_injective hj' hk) (Nat.ne_of_lt hj)), Option.bind_some]
        exact ancestor_update_of_avoids fun j _ ↦ hcarries.notBelow j
      rw [hchain]
      by_contra hsome
      have hfits := hcarries.fits k n a hk hsome
      omega
    · rw [ancestor_update_of_avoids fun k _ hk ↦ hthrough ⟨k, hk⟩]
      exact hbounded a

/-- A node that loses its parent keeps the bound. -/
theorem bounded_update_none (hbounded : Bounded parent limit) :
    Bounded (Function.update parent node none) limit := by
  intro a
  by_cases hthrough : ∃ k, ancestor parent k a = some node
  · obtain ⟨k, hk⟩ := hthrough
    have hlt := hbounded.lt_of_ancestor hk
    obtain ⟨n, hn⟩ : ∃ n, limit = k + (n + 1) := ⟨limit - k - 1, by omega⟩
    rw [hn, ancestor_update_of_through hk (fun j hj hj' ↦
      absurd (hbounded.ancestor_injective hj' hk) (Nat.ne_of_lt hj)), Option.bind_none]
  · rw [ancestor_update_of_avoids fun k _ hk ↦ hthrough ⟨k, hk⟩]
    exact hbounded a

end Update

end SkillHive.Foundation
