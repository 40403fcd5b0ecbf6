import Mathlib.Data.List.Basic
import Mathlib.Tactic.Common

/-!
# Marking from roots

A worklist marks everything reachable from its roots. Only finitely many vertices have
successors, so the worklist runs empty, and then the marked vertices are the reachable ones.
-/

namespace SkillHive.Foundation

/-- A graph in which only the listed vertices have successors. -/
structure SourcedGraph (α : Type*) where
  succ : α → List α
  sources : List α
  succ_eq_nil : ∀ a, a ∉ sources → succ a = []

namespace SourcedGraph

variable {α : Type*} (g : SourcedGraph α)

/-- Some path leads from a root to the vertex. -/
inductive Reached (roots : List α) : α → Prop where
  | root {a : α} (h : a ∈ roots) : Reached roots a
  | step {a b : α} (ha : Reached roots a) (hb : b ∈ g.succ a) : Reached roots b

variable {g}

/-- A set that holds the roots and the successors of its members holds what is reached. -/
theorem Reached.of_closed {roots : List α} {P : α → Prop} (hroots : ∀ a ∈ roots, P a)
    (hsucc : ∀ a b, P a → b ∈ g.succ a → P b) {a : α} (h : g.Reached roots a) : P a := by
  induction h with
  | root h => exact hroots _ h
  | step ha hb ih => exact hsucc _ _ ih hb

/-- What is reached depends on the successors of reached vertices only. -/
theorem Reached.congr {g' : SourcedGraph α} {roots : List α}
    (h : ∀ a, g.Reached roots a → g'.succ a = g.succ a) {a : α} :
    g'.Reached roots a ↔ g.Reached roots a := by
  constructor
  · intro ha
    induction ha with
    | root ha => exact .root ha
    | step _ hb ih => exact .step ih (h _ ih ▸ hb)
  · intro ha
    induction ha with
    | root ha => exact .root ha
    | step ha hb ih => exact .step ih ((h _ ha).symm ▸ hb)

/-- The worklist holds the successors of every marked vertex that are not marked yet. -/
def Covered (g : SourcedGraph α) (frontier marked : List α) : Prop :=
  ∀ a ∈ marked, ∀ b ∈ g.succ a, b ∈ marked ∨ b ∈ frontier

theorem Covered.skip {a : α} {frontier marked : List α} (h : g.Covered (a :: frontier) marked)
    (ha : a ∈ marked) : g.Covered frontier marked := by
  intro b hb c hc
  rcases h b hb c hc with hmarked | hfrontier
  · exact .inl hmarked
  · rcases List.mem_cons.mp hfrontier with rfl | hrest
    · exact .inl ha
    · exact .inr hrest

variable [DecidableEq α]

/-- The vertices of the list that are not marked. -/
def fresh (marked as : List α) : List α := as.filter fun a ↦ a ∉ marked

theorem mem_fresh {marked as : List α} {a : α} : a ∈ fresh marked as ↔ a ∈ as ∧ a ∉ marked := by
  simp [fresh]

theorem fresh_cons_sublist (a : α) (marked as : List α) :
    (fresh (a :: marked) as).Sublist (fresh marked as) := by
  apply List.monotone_filter_right
  intro b
  simp only [decide_eq_true_eq, List.mem_cons, not_or]
  exact And.right

theorem length_fresh_cons_lt {a : α} {marked as : List α} (ha : a ∈ as) (hnew : a ∉ marked) :
    (fresh (a :: marked) as).length < (fresh marked as).length := by
  have hsublist := fresh_cons_sublist a marked as
  have hne : fresh (a :: marked) as ≠ fresh marked as := by
    intro heq
    have hmem : a ∈ fresh marked as := mem_fresh.mpr ⟨ha, hnew⟩
    rw [← heq] at hmem
    exact (mem_fresh.mp hmem).2 List.mem_cons_self
  have hle := hsublist.length_le
  have hlength := mt hsublist.eq_of_length hne
  omega

variable (g)

/-- What is marked when the worklist has run empty. -/
def mark : List α → List α → List α
  | [], marked => marked
  | a :: frontier, marked =>
    if a ∈ marked then mark frontier marked
    else mark (fresh (a :: marked) (g.succ a) ++ frontier) (a :: marked)
termination_by frontier marked => ((fresh marked g.sources).length, frontier.length)
decreasing_by
  · exact Prod.Lex.right _ (Nat.lt_succ_self _)
  case _ hnew =>
    by_cases hsource : a ∈ g.sources
    · exact Prod.Lex.left _ _ (length_fresh_cons_lt hsource hnew)
    · rw [g.succ_eq_nil a hsource]
      have hle := (fresh_cons_sublist a marked g.sources).length_le
      rcases Nat.lt_or_eq_of_le hle with hlt | heq
      · exact Prod.Lex.left _ _ hlt
      · rw [heq]
        exact Prod.Lex.right _ (Nat.lt_succ_self _)

variable {g}

theorem Covered.expand {a : α} {frontier marked : List α}
    (h : g.Covered (a :: frontier) marked) :
    g.Covered (fresh (a :: marked) (g.succ a) ++ frontier) (a :: marked) := by
  intro b hb c hc
  by_cases hmarked : c ∈ a :: marked
  · exact .inl hmarked
  right
  rw [List.mem_append]
  rcases List.mem_cons.mp hb with rfl | hold
  · exact .inl (mem_fresh.mpr ⟨hc, hmarked⟩)
  · rcases h b hold c hc with hin | hfrontier
    · exact absurd (List.mem_cons_of_mem a hin) hmarked
    · rcases List.mem_cons.mp hfrontier with rfl | hrest
      · exact absurd List.mem_cons_self hmarked
      · exact .inr hrest

/-- What was marked stays so, the worklist is marked, and the marked vertices are closed
under successors. -/
theorem mark_spec (frontier marked : List α) (h : g.Covered frontier marked) :
    (∀ a ∈ marked, a ∈ g.mark frontier marked) ∧ (∀ a ∈ frontier, a ∈ g.mark frontier marked) ∧
      ∀ a ∈ g.mark frontier marked, ∀ b ∈ g.succ a, b ∈ g.mark frontier marked := by
  induction frontier, marked using mark.induct g with
  | case1 marked =>
    rw [mark]
    refine ⟨fun _ ha ↦ ha, fun _ ha ↦ (by cases ha), fun a ha b hb ↦ ?_⟩
    exact (h a ha b hb).resolve_right List.not_mem_nil
  | case2 a frontier marked ha ih =>
    obtain ⟨hmarked, hfrontier, hclosed⟩ := ih (h.skip ha)
    rw [mark, if_pos ha]
    refine ⟨hmarked, fun b hb ↦ ?_, hclosed⟩
    rcases List.mem_cons.mp hb with rfl | hrest
    · exact hmarked b ha
    · exact hfrontier b hrest
  | case3 a frontier marked ha ih =>
    obtain ⟨hmarked, hfrontier, hclosed⟩ := ih h.expand
    rw [mark, if_neg ha]
    refine ⟨fun b hb ↦ hmarked b (List.mem_cons_of_mem a hb), fun b hb ↦ ?_, hclosed⟩
    rcases List.mem_cons.mp hb with rfl | hrest
    · exact hmarked b List.mem_cons_self
    · exact hfrontier b (List.mem_append_right _ hrest)

/-- Nothing is marked but what was, and what is reached from the worklist. -/
theorem mark_subset {P : α → Prop} (hP : ∀ a b, P a → b ∈ g.succ a → P b)
    (frontier marked : List α) (hfrontier : ∀ a ∈ frontier, P a) (hmarked : ∀ a ∈ marked, P a) :
    ∀ a ∈ g.mark frontier marked, P a := by
  induction frontier, marked using mark.induct g with
  | case1 marked =>
    rw [mark]
    exact hmarked
  | case2 a frontier marked ha ih =>
    rw [mark, if_pos ha]
    exact ih (fun b hb ↦ hfrontier b (List.mem_cons_of_mem a hb)) hmarked
  | case3 a frontier marked ha ih =>
    have hroot : P a := hfrontier a List.mem_cons_self
    rw [mark, if_neg ha]
    apply ih
    · intro b hb
      rcases List.mem_append.mp hb with hsucc | hrest
      · exact hP a b hroot (mem_fresh.mp hsucc).1
      · exact hfrontier b (List.mem_cons_of_mem a hrest)
    · intro b hb
      rcases List.mem_cons.mp hb with rfl | hold
      · exact hroot
      · exact hmarked b hold

/-- From an empty mark set, the marked vertices are the reached ones. -/
theorem mem_mark_iff {roots : List α} {a : α} : a ∈ g.mark roots [] ↔ g.Reached roots a := by
  have hcovered : g.Covered roots [] := fun _ h ↦ (by cases h)
  obtain ⟨-, hroots, hclosed⟩ := mark_spec roots [] hcovered
  constructor
  · intro ha
    apply mark_subset (P := g.Reached roots) (fun _ _ ↦ .step) roots [] (fun _ ↦ .root) ?_ a ha
    exact fun b hb ↦ (by cases hb)
  · intro ha
    exact ha.of_closed (P := fun b ↦ b ∈ g.mark roots []) hroots
      fun b c hb hc ↦ hclosed b hb c hc

end SourcedGraph

end SkillHive.Foundation
