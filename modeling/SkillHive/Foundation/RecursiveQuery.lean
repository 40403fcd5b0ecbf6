import Mathlib.Data.List.MinMax
import Mathlib.Order.Bounds.Defs
import Mathlib.Order.Nat
import SkillHive.Foundation.Ancestry

/-!
# Recursive queries

The rows of `WITH RECURSIVE … UNION ALL`: the base rows, what one round makes of them, what
the next round makes of those, until a round has no row. No round remembers the rows before
it, so on a cycle of rows the query goes on for ever.
-/

namespace SkillHive.Foundation

variable {α β : Type*} {step : α → List α}

/-- The rows of the round number `n`. -/
def roundRows (step : α → List α) : ℕ → List α → List α
  | 0, rows => rows
  | n + 1, rows => roundRows step n (rows.flatMap step)

/-- All rows, when the query ends within the given number of rounds. -/
def recursiveQuery (step : α → List α) : ℕ → List α → Option (List α)
  | _, [] => some []
  | 0, _ :: _ => none
  | rounds + 1, row :: rows =>
    (recursiveQuery step rounds ((row :: rows).flatMap step)).map ((row :: rows) ++ ·)

theorem roundRows_nil (n : ℕ) : roundRows step n [] = [] := by
  induction n with
  | zero => rfl
  | succ n ih => exact ih

theorem flatMap_roundRows_nil (ns : List ℕ) : ns.flatMap (roundRows step · []) = [] := by
  rw [List.flatMap_eq_nil_iff]
  exact fun n _ ↦ roundRows_nil n

/-- Once a round is empty the query has ended, with the rows of the rounds before. -/
theorem recursiveQuery_eq_some {n rounds : ℕ} {rows : List α} (hend : roundRows step n rows = [])
    (hle : n ≤ rounds) :
    recursiveQuery step rounds rows =
      some ((List.range n).flatMap (roundRows step · rows)) := by
  induction n generalizing rounds rows with
  | zero =>
    have hnil : rows = [] := hend
    subst hnil
    cases rounds <;> rfl
  | succ n ih =>
    obtain ⟨rounds, rfl⟩ := Nat.exists_eq_add_of_le' hle
    cases rows with
    | nil =>
      rw [flatMap_roundRows_nil]
      rfl
    | cons row rows =>
      have hnext : roundRows step n ((row :: rows).flatMap step) = [] := hend
      rw [← Nat.add_assoc, recursiveQuery, ih hnext (Nat.le_add_left n rounds), Option.map_some,
        List.range_succ_eq_map]
      simp only [List.flatMap_cons, List.flatMap_map]
      rfl

/-- A query that has ended has the same rows under any larger number of rounds. -/
theorem roundRows_eq_nil_of_eq_some {rounds : ℕ} {rows result : List α}
    (h : recursiveQuery step rounds rows = some result) : roundRows step rounds rows = [] := by
  induction rounds generalizing rows result with
  | zero =>
    cases rows with
    | nil => rfl
    | cons row rows => cases h
  | succ rounds ih =>
    cases rows with
    | nil => exact roundRows_nil _
    | cons row rows =>
      obtain ⟨rest, hrest, -⟩ := Option.map_eq_some_iff.mp h
      exact ih hrest

/-- The rows of a query that has ended are those of its rounds. -/
theorem mem_of_recursiveQuery {rounds : ℕ} {rows result : List α} {row : α}
    (h : recursiveQuery step rounds rows = some result) :
    row ∈ result ↔ ∃ n, row ∈ roundRows step n rows := by
  have hend := roundRows_eq_nil_of_eq_some h
  rw [recursiveQuery_eq_some hend (Nat.le_refl rounds), Option.some.injEq] at h
  subst h
  rw [List.mem_flatMap]
  constructor
  · rintro ⟨n, -, hrow⟩
    exact ⟨n, hrow⟩
  · rintro ⟨n, hrow⟩
    refine ⟨n, List.mem_range.mpr ?_, hrow⟩
    by_contra hle
    have hempty : ∀ k m (start : List α), roundRows step m start = [] →
        roundRows step (m + k) start = [] := by
      intro k m start hstart
      induction m generalizing start with
      | zero =>
        rw [Nat.zero_add]
        exact (congrArg (roundRows step k) hstart).trans (roundRows_nil k)
      | succ m ih =>
        rw [Nat.succ_add]
        exact ih _ hstart
    obtain ⟨k, rfl⟩ := Nat.exists_eq_add_of_le (Nat.le_of_not_lt hle)
    rw [hempty k rounds rows hend] at hrow
    cases hrow

/-! ## Queries along a parent function -/

section Parents

variable {parent : α → Option α} {limit : ℕ}

/-- The rounds of a walk upwards are the ancestors, one each. -/
theorem roundRows_parents (n : ℕ) (a : α) :
    roundRows (fun a ↦ (parent a).toList) n [a] = (ancestor parent n a).toList := by
  induction n generalizing a with
  | zero => rfl
  | succ n ih =>
    rw [roundRows, List.flatMap_singleton, ancestor_succ]
    cases parent a with
    | none => exact roundRows_nil n
    | some b => exact ih b

/-- The rounds of a walk upwards from several nodes. -/
theorem mem_roundRows_parents {n : ℕ} {rows : List α} {b : α} :
    b ∈ roundRows (fun a ↦ (parent a).toList) n rows ↔ ∃ a ∈ rows, ancestor parent n a = some b := by
  induction n generalizing rows with
  | zero => simp [roundRows]
  | succ n ih =>
    rw [roundRows, ih]
    constructor
    · rintro ⟨c, hc, hb⟩
      obtain ⟨a, ha, hca⟩ := List.mem_flatMap.mp hc
      rw [Option.mem_toList] at hca
      exact ⟨a, ha, Option.bind_eq_some_iff.mpr ⟨c, hca, hb⟩⟩
    · rintro ⟨a, ha, hb⟩
      obtain ⟨c, hc, hb⟩ := Option.bind_eq_some_iff.mp hb
      exact ⟨c, List.mem_flatMap.mpr ⟨a, ha, Option.mem_toList.mpr hc⟩, hb⟩

/-- The rounds of a walk downwards are the nodes that have the first one as an ancestor. -/
theorem mem_roundRows_children {children : α → List α}
    (hchildren : ∀ a b, b ∈ children a ↔ parent b = some a) {n : ℕ} {rows : List α} {b : α} :
    b ∈ roundRows children n rows ↔ ∃ a ∈ rows, ancestor parent n b = some a := by
  induction n generalizing rows with
  | zero => simp [roundRows]
  | succ n ih =>
    rw [roundRows, ih]
    constructor
    · rintro ⟨c, hc, hb⟩
      obtain ⟨a, ha, hca⟩ := List.mem_flatMap.mp hc
      refine ⟨a, ha, ?_⟩
      rw [ancestor_add_of_eq_some hb, ancestor_succ, (hchildren a c).mp hca]
      rfl
    · rintro ⟨a, ha, hb⟩
      rw [ancestor_add] at hb
      obtain ⟨c, hc, hca⟩ := Option.bind_eq_some_iff.mp hb
      rw [ancestor_succ] at hca
      obtain ⟨a', hparent, ⟨⟩⟩ := Option.bind_eq_some_iff.mp hca
      exact ⟨c, List.mem_flatMap.mpr ⟨a, ha, (hchildren a c).mpr hparent⟩, hc⟩

/-- A walk upwards that has ended lists the chain of ancestors. -/
theorem getElem?_recursiveQuery_parents {rounds : ℕ} {a : α} {result : List α}
    (h : recursiveQuery (fun a ↦ (parent a).toList) rounds [a] = some result) (n : ℕ) :
    result[n]? = ancestor parent n a := by
  induction rounds generalizing a result n with
  | zero => cases h
  | succ rounds ih =>
    obtain ⟨rest, hrest, rfl⟩ := Option.map_eq_some_iff.mp h
    cases n with
    | zero => rfl
    | succ n =>
      rw [List.flatMap_singleton] at hrest
      rw [List.singleton_append, List.getElem?_cons_succ, ancestor_succ]
      cases hparent : parent a with
      | none =>
        rw [hparent] at hrest
        cases rounds <;> (cases hrest; rfl)
      | some b =>
        rw [hparent] at hrest
        exact ih hrest n

theorem recursiveQuery_parents_isSome {rounds n : ℕ} {a : α} (hend : ancestor parent n a = none)
    (hle : n ≤ rounds) : (recursiveQuery (fun a ↦ (parent a).toList) rounds [a]).isSome := by
  have hrows : roundRows (fun a ↦ (parent a).toList) n [a] = [] := by
    rw [roundRows_parents, hend, Option.toList_none]
  rw [recursiveQuery_eq_some hrows hle, Option.isSome_some]

/-- Below a bounded parent function a walk downwards has ended after as many rounds. -/
theorem roundRows_children_eq_nil {children : α → List α}
    (hchildren : ∀ a b, b ∈ children a ↔ parent b = some a) (hbounded : Bounded parent limit)
    (rows : List α) : roundRows children limit rows = [] := by
  refine List.eq_nil_iff_forall_not_mem.mpr fun b hb ↦ ?_
  obtain ⟨a, -, ha⟩ := (mem_roundRows_children hchildren).mp hb
  rw [hbounded b] at ha
  cases ha

end Parents

/-! ## Levels -/

/-- The rows of a step, one level below their own. -/
def withLevel (step : α → List α) (row : α × ℕ) : List (α × ℕ) :=
  (step row.1).map (·, row.2 + 1)

/-- The rows of a round all have the level of the round. -/
theorem roundRows_withLevel (n level : ℕ) (rows : List α) :
    roundRows (withLevel step) n (rows.map (·, level)) =
      (roundRows step n rows).map (·, level + n) := by
  induction n generalizing level rows with
  | zero => rfl
  | succ n ih =>
    have hround : (rows.map (·, level)).flatMap (withLevel step) =
        (rows.flatMap step).map (·, level + 1) := by
      rw [List.flatMap_map, List.map_flatMap]
      rfl
    rw [roundRows, roundRows, hround, ih, Nat.add_assoc, Nat.add_comm 1 n]

theorem isGreatest_foldr_max {levels : List ℕ} (h : levels ≠ []) :
    IsGreatest {level | level ∈ levels} (levels.foldr max 0) := by
  refine ⟨?_, fun level hlevel ↦ List.le_max_of_le hlevel (Nat.le_refl level)⟩
  exact List.maximum_mem (List.foldr_max_of_ne_nil h).symm

end SkillHive.Foundation
