import SkillHive.Foundation.TransitionSystem

/-!
# History variables

A history variable is carried along a run and written after each step from what the step
did. It never decides whether a step is enabled, so the runs with history are the runs of
the system, and a statement about the past of a run becomes a statement about one state.
-/

namespace SkillHive.Foundation

namespace TransitionSystem

variable {σ α γ : Type*} (T : TransitionSystem σ α)

/-- The system with a history variable, which starts as `start` and is written by `record`
from the old value, the state before, the action and the state after. -/
def withHistory (start : γ) (record : γ → σ → α → σ → γ) : TransitionSystem (σ × γ) α where
  init := fun x ↦ T.init x.1 ∧ x.2 = start
  step := fun x a ↦ (T.step x.1 a).map fun s' ↦ (s', record x.2 x.1 a s')

variable {T} {start : γ} {record : γ → σ → α → σ → γ}

theorem withHistory_step_eq_some {x y : σ × γ} {a : α} :
    (T.withHistory start record).step x a = some y ↔
      T.step x.1 a = some y.1 ∧ y.2 = record x.2 x.1 a y.1 := by
  simp only [withHistory, Option.map_eq_some_iff]
  constructor
  · rintro ⟨s', hstep, rfl⟩
    exact ⟨hstep, rfl⟩
  · rintro ⟨hstep, hrecord⟩
    exact ⟨y.1, hstep, by rw [← hrecord]⟩

/-- Forgetting the history gives back the run of the system. -/
theorem run_withHistory (s : σ) (g : γ) (as : List α) :
    ((T.withHistory start record).run (s, g) as).map Prod.fst = T.run s as := by
  induction as generalizing s g with
  | nil => rfl
  | cons a as ih =>
    simp only [run, withHistory]
    cases T.step s a with
    | none => rfl
    | some s' => exact ih s' (record g s a s')

end TransitionSystem

end SkillHive.Foundation
