import Mathlib.Data.Set.Insert
import Mathlib.Logic.Function.Iterate
import Mathlib.Tactic.Common

/-!
# Names drawn from a chain

Whoever needs a name and is not given one takes the candidate, the successor of the name that was
taken last. The chain does not come back to a name, so candidates stay free as long as nobody
takes a name ahead of them. Once a candidate is taken it stays taken: only a name that is given
moves the chain to another place.
-/

namespace SkillHive.Foundation

variable {ν : Type*}

/-- The names that are taken, and the one that the next draw takes. -/
structure Names (ν : Type*) where
  taken : Set ν
  candidate : ν

namespace Names

variable (next : ν → ν)

/-- No candidate to come is taken. -/
def Clear (s : Names ν) : Prop := ∀ n, next^[n] s.candidate ∉ s.taken

/-- The names after one was taken. -/
def take (s : Names ν) (name : ν) : Names ν := ⟨insert name s.taken, next name⟩

/-- One step of a holder of names, to whom a name may be given; `none` is no holder. -/
inductive Step (given : Option ν) : Option (Names ν) → Option (Names ν) → Prop where
  | kept (s : Option (Names ν)) (hgiven : given = none) : Step given s s
  | gone (s : Option (Names ν)) (hgiven : given = none) : Step given s none
  | drawn (s : Names ν) (hgiven : given = none) (hfree : s.candidate ∉ s.taken) :
    Step given (some s) (some (s.take next s.candidate))
  | born (name : ν) (hgiven : given = some name) : Step given none (some ⟨{name}, next name⟩)
  | taken (s : Names ν) (name : ν) (hgiven : given = some name) :
    Step given (some s) (some (s.take next name))
  | moved (s : Names ν) (name : ν) (hgiven : given = some name) (hmem : name ∈ s.taken) :
    Step given (some s) (some ⟨s.taken, next name⟩)

/-- Every holder has its candidates clear. -/
def AllClear (s : Option (Names ν)) : Prop := ∀ names ∈ s, names.Clear next

/-- The names that are taken, none without a holder. -/
def takenOf (s : Option (Names ν)) : Set ν := s.elim ∅ Names.taken

variable {next} {given : Option ν} {s : Names ν} {before after : Option (Names ν)}

theorem Clear.free (h : s.Clear next) : s.candidate ∉ s.taken := h 0

/-- A name is clear to be taken if no name behind it is. -/
theorem clear_take_iff (hchain : ∀ name n, next^[n + 1] name ≠ name) {name : ν} :
    (s.take next name).Clear next ↔ ∀ n, next^[n + 1] name ∉ s.taken := by
  unfold Clear take
  simp only [← Function.iterate_succ_apply, Set.mem_insert_iff, not_or]
  constructor
  · intro h n
    exact (h n).2
  · intro h n
    exact ⟨hchain name n, h n⟩

theorem clear_moved_iff {taken : Set ν} {name : ν} :
    (⟨taken, next name⟩ : Names ν).Clear next ↔ ∀ n, next^[n + 1] name ∉ taken := by
  unfold Clear
  simp only [← Function.iterate_succ_apply]

theorem allClear_some : AllClear next (some s) ↔ s.Clear next :=
  ⟨fun h ↦ h s rfl, fun h _ hs ↦ Option.some.inj hs ▸ h⟩

namespace Step

/-- A step keeps the candidates clear exactly if nothing ahead of a given name is taken. -/
theorem allClear_iff (hchain : ∀ name n, next^[n + 1] name ≠ name)
    (hstep : Step next given before after) (hbefore : AllClear next before) :
    AllClear next after ↔ ∀ name ∈ given, ∀ n, next^[n + 1] name ∉ takenOf before := by
  cases hstep with
  | kept _ hgiven => simp [hgiven, hbefore]
  | gone _ hgiven => simp [hgiven, AllClear]
  | drawn s hgiven hfree =>
    simp only [hgiven, Option.mem_def, reduceCtorEq, false_implies, implies_true, iff_true]
    rw [allClear_some] at hbefore ⊢
    exact (clear_take_iff hchain).mpr fun n ↦ hbefore (n + 1)
  | born name hgiven =>
    rw [allClear_some, clear_moved_iff]
    simp only [hgiven, Option.mem_some_iff, forall_eq', takenOf, Option.elim_none]
    exact ⟨fun _ _ ↦ Set.notMem_empty _, fun _ n ↦ hchain name n⟩
  | taken s name hgiven =>
    rw [allClear_some, clear_take_iff hchain]
    simp [hgiven, takenOf]
  | moved s name hgiven hmem =>
    rw [allClear_some, clear_moved_iff]
    simp [hgiven, takenOf]

/-- Who draws from a taken candidate draws nothing. -/
theorem stuck (hstep : Step next none before after) (hbefore : before = some s)
    (htaken : s.candidate ∈ s.taken) (hafter : after ≠ none) : after = some s := by
  cases hstep with
  | kept => exact hbefore
  | gone => exact absurd rfl hafter
  | drawn s' _ hfree =>
    cases hbefore
    exact absurd htaken hfree
  | born name hgiven => cases hgiven
  | taken s' name hgiven => cases hgiven
  | moved s' name hgiven => cases hgiven

end Step

end Names

end SkillHive.Foundation
