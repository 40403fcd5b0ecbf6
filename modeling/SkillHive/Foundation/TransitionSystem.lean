import Mathlib.Data.Option.Basic
import Mathlib.Tactic.Common

/-!
# Executable transition systems

A system is a step function that may be disabled in a state. Runs are lists of actions,
so a run can be evaluated, cut at any point and extended. Two modalities over runs carry
the statements of a development: `Always` speaks about every state a run visits,
`EachStep` about every action together with the state it is taken in.

The rules below reduce both to one step: a predicate that every step preserves holds
always, and the weaker rule asks a step to preserve it only where the step meets a
condition.
-/

namespace SkillHive.Foundation

/-- A step function over actions; `none` where the action is not enabled. -/
structure TransitionSystem (σ α : Type*) where
  init : σ → Prop
  step : σ → α → Option σ

namespace TransitionSystem

variable {σ α : Type*} (T : TransitionSystem σ α)

/-- The state after the actions, taken in order. -/
def run : σ → List α → Option σ
  | s, [] => some s
  | s, a :: as => (T.step s a).bind fun s' ↦ run s' as

/-- `P` holds in every state that the run visits, the first one included. -/
def Always (P : σ → Prop) : σ → List α → Prop
  | s, [] => P s
  | s, a :: as => P s ∧ ∀ s', T.step s a = some s' → Always P s' as

/-- Every action that the run takes meets `C` in the state where it is taken. -/
def EachStep (C : σ → α → Prop) : σ → List α → Prop
  | _, [] => True
  | s, a :: as => ∀ s', T.step s a = some s' → C s a ∧ EachStep C s' as

/-- The actions that a run takes, each with the state it is taken in. -/
def trace : σ → List α → List (σ × α)
  | _, [] => []
  | s, a :: as => (T.step s a).elim [] fun s' ↦ (s, a) :: trace s' as

/-- Some run leads from the first state to the second. -/
def Reaches (s t : σ) : Prop := ∃ as, T.run s as = some t

/-- Some run from an initial state ends in the state. -/
def Reachable (s : σ) : Prop := ∃ s₀ as, T.init s₀ ∧ T.run s₀ as = some s

variable {T}

@[simp]
theorem run_nil (s : σ) : T.run s [] = some s := rfl

theorem run_cons_eq_some {s t : σ} {a : α} {as : List α} :
    T.run s (a :: as) = some t ↔ ∃ s', T.step s a = some s' ∧ T.run s' as = some t := by
  simp [run, Option.bind_eq_some_iff]

theorem run_append (s : σ) (as bs : List α) :
    T.run s (as ++ bs) = (T.run s as).bind fun t ↦ T.run t bs := by
  induction as generalizing s with
  | nil => rfl
  | cons a as ih =>
    simp only [List.cons_append, run]
    cases T.step s a with
    | none => rfl
    | some s' => exact ih s'

/-- A run that is enabled throughout ends in the state it computes. -/
theorem run_eq_some_getD {s d : σ} {as : List α} (h : (T.run s as).isSome = true) :
    T.run s as = some ((T.run s as).getD d) := by
  obtain ⟨t, ht⟩ := Option.isSome_iff_exists.mp h
  rw [ht]
  rfl

theorem Reaches.refl (s : σ) : T.Reaches s s := ⟨[], run_nil s⟩

theorem Reaches.trans {s t u : σ} (h : T.Reaches s t) (h' : T.Reaches t u) : T.Reaches s u := by
  obtain ⟨as, hrun⟩ := h
  obtain ⟨bs, hrun'⟩ := h'
  refine ⟨as ++ bs, ?_⟩
  rw [run_append, hrun]
  exact hrun'

theorem Reaches.single {s t : σ} (a : α) (h : T.step s a = some t) : T.Reaches s t :=
  ⟨[a], run_cons_eq_some.mpr ⟨t, h, run_nil t⟩⟩

theorem Reachable.of_init {s : σ} (h : T.init s) : T.Reachable s := ⟨s, [], h, rfl⟩

theorem Reachable.run {s t : σ} {as : List α} (hs : T.Reachable s) (h : T.run s as = some t) :
    T.Reachable t := by
  obtain ⟨s₀, bs, hinit, hrun⟩ := hs
  refine ⟨s₀, bs ++ as, hinit, ?_⟩
  rw [run_append, hrun]
  exact h

theorem Reachable.reaches {s t : σ} (hs : T.Reachable s) (h : T.Reaches s t) : T.Reachable t :=
  hs.run h.choose_spec

theorem Reachable.step {s t : σ} {a : α} (hs : T.Reachable s) (h : T.step s a = some t) :
    T.Reachable t :=
  hs.run (run_cons_eq_some.mpr ⟨t, h, run_nil t⟩)

/-! ## Traces -/

theorem reaches_of_mem_trace {s t : σ} {b : α} {as : List α} (h : (t, b) ∈ T.trace s as) :
    T.Reaches s t := by
  induction as generalizing s with
  | nil => cases h
  | cons a as ih =>
    rw [trace] at h
    cases hstep : T.step s a with
    | none =>
      rw [hstep] at h
      cases h
    | some s' =>
      rw [hstep, Option.elim_some] at h
      rcases List.mem_cons.mp h with heq | hmem
      · cases heq
        exact .refl t
      · exact (Reaches.single a hstep).trans (ih hmem)

/-- A relation between an action and every action taken in a state reached from its
successor holds between any two actions of a run, the earlier one first. -/
theorem pairwise_trace {I : σ → Prop} {R : σ × α → σ × α → Prop}
    (hI : ∀ s a s', I s → T.step s a = some s' → I s')
    (hR : ∀ s a s' t b, I s → T.step s a = some s' → T.Reaches s' t → R (s, a) (t, b))
    {s : σ} (hs : I s) (as : List α) : (T.trace s as).Pairwise R := by
  induction as generalizing s with
  | nil => exact List.Pairwise.nil
  | cons a as ih =>
    rw [trace]
    cases hstep : T.step s a with
    | none => exact List.Pairwise.nil
    | some s' =>
      refine List.Pairwise.cons ?_ (ih (hI s a s' hs hstep))
      rintro ⟨t, b⟩ hmem
      exact hR s a s' t b hs hstep (reaches_of_mem_trace hmem)

/-- What holds of the final state of a run was there at its start, or some action of the
run brought it about. -/
theorem run_origin {P : σ → Prop} {s t : σ} {as : List α} (h : T.run s as = some t) (ht : P t) :
    P s ∨ ∃ x ∈ T.trace s as, ¬ P x.1 ∧ ∃ s', T.step x.1 x.2 = some s' ∧ P s' := by
  induction as generalizing s with
  | nil =>
    cases h
    exact .inl ht
  | cons a as ih =>
    obtain ⟨s', hstep, hrun⟩ := run_cons_eq_some.mp h
    have htrace : T.trace s (a :: as) = (s, a) :: T.trace s' as := by
      rw [trace, hstep, Option.elim_some]
    rw [htrace]
    rcases ih hrun with hs' | ⟨x, hx, horigin⟩
    · by_cases hs : P s
      · exact .inl hs
      · exact .inr ⟨(s, a), List.mem_cons_self, hs, s', hstep, hs'⟩
    · exact .inr ⟨x, List.mem_cons_of_mem _ hx, horigin⟩

/-! ## Invariants -/

/-- A predicate preserved by every step holds in every state of a run. -/
theorem always_of_step {P : σ → Prop} (hstep : ∀ s a s', P s → T.step s a = some s' → P s')
    (s : σ) (as : List α) (hs : P s) : T.Always P s as := by
  induction as generalizing s with
  | nil => exact hs
  | cons a as ih => exact ⟨hs, fun s' h ↦ ih s' (hstep s a s' hs h)⟩

theorem run_invariant {P : σ → Prop} (hstep : ∀ s a s', P s → T.step s a = some s' → P s')
    {s t : σ} {as : List α} (hs : P s) (h : T.run s as = some t) : P t := by
  induction as generalizing s with
  | nil =>
    cases h
    exact hs
  | cons a as ih =>
    obtain ⟨s', hs', hrun⟩ := run_cons_eq_some.mp h
    exact ih (hstep s a s' hs hs') hrun

/-- The invariant rule: initial and preserved by every step. -/
theorem Reachable.invariant {P : σ → Prop} (hinit : ∀ s, T.init s → P s)
    (hstep : ∀ s a s', P s → T.step s a = some s' → P s') {s : σ} (h : T.Reachable s) : P s := by
  obtain ⟨s₀, as, h₀, hrun⟩ := h
  exact run_invariant hstep (hinit s₀ h₀) hrun

theorem Always.mono {P Q : σ → Prop} (h : ∀ s, P s → Q s) {s : σ} {as : List α}
    (hP : T.Always P s as) : T.Always Q s as := by
  induction as generalizing s with
  | nil => exact h s hP
  | cons a as ih => exact ⟨h s hP.1, fun s' hs' ↦ ih (hP.2 s' hs')⟩

theorem Always.head {P : σ → Prop} {s : σ} {as : List α} (h : T.Always P s as) : P s := by
  cases as with
  | nil => exact h
  | cons a as => exact h.1

theorem Always.last {P : σ → Prop} {s t : σ} {as : List α} (hP : T.Always P s as)
    (h : T.run s as = some t) : P t := by
  induction as generalizing s with
  | nil =>
    cases h
    exact hP
  | cons a as ih =>
    obtain ⟨s', hs', hrun⟩ := run_cons_eq_some.mp h
    exact ih (hP.2 s' hs') hrun

/-- What every step into a state with `Q` preserves holds at the end of a run with `Q`
throughout. -/
theorem Always.run_preserves {P Q : σ → Prop}
    (hstep : ∀ s a s', P s → Q s' → T.step s a = some s' → P s') {s t : σ} {as : List α}
    (hQ : T.Always Q s as) (hs : P s) (h : T.run s as = some t) : P t := by
  induction as generalizing s with
  | nil =>
    cases h
    exact hs
  | cons a as ih =>
    obtain ⟨s', hs', hrun⟩ := run_cons_eq_some.mp h
    have hrest := hQ.2 s' hs'
    exact ih hrest (hstep s a s' hs hrest.head hs') hrun

/-! ## Runs whose steps meet a condition -/

theorem EachStep.cons {C : σ → α → Prop} {s s' : σ} {a : α} {as : List α}
    (hstep : T.step s a = some s') (hc : C s a) (hrest : T.EachStep C s' as) :
    T.EachStep C s (a :: as) := by
  intro t ht
  rw [hstep, Option.some.injEq] at ht
  subst ht
  exact ⟨hc, hrest⟩

theorem eachStep_of_forall {C : σ → α → Prop} {as : List α} (h : ∀ a ∈ as, ∀ s, C s a) (s : σ) :
    T.EachStep C s as := by
  induction as generalizing s with
  | nil => trivial
  | cons a as ih =>
    intro s' _
    exact ⟨h a List.mem_cons_self s, ih (fun b hb ↦ h b (List.mem_cons_of_mem a hb)) s'⟩

instance decidableEachStep {C : σ → α → Prop} [∀ s a, Decidable (C s a)] :
    ∀ s as, Decidable (T.EachStep C s as)
  | _, [] => .isTrue trivial
  | s, a :: as =>
    match hstep : T.step s a with
    | none => .isTrue fun _ hs' ↦ nomatch hstep.symm.trans hs'
    | some s' =>
      haveI := decidableEachStep (C := C) s' as
      decidable_of_iff (C s a ∧ T.EachStep C s' as)
        ⟨fun h _ hs' ↦ Option.some.inj (hstep.symm.trans hs') ▸ h, fun h ↦ h s' hstep⟩

/-- Preservation under a condition on steps lifts to runs whose steps meet it. -/
theorem EachStep.always {C : σ → α → Prop} {P : σ → Prop}
    (hstep : ∀ s a s', P s → C s a → T.step s a = some s' → P s') {s : σ} {as : List α}
    (hC : T.EachStep C s as) (hs : P s) : T.Always P s as := by
  induction as generalizing s with
  | nil => exact hs
  | cons a as ih =>
    refine ⟨hs, fun s' hs' ↦ ?_⟩
    obtain ⟨hc, hrest⟩ := hC s' hs'
    exact ih hrest (hstep s a s' hs hc hs')

/-- What a step owes to its condition and to the state it is taken in, every step of such a
run does. -/
theorem EachStep.of_always {C D : σ → α → Prop} {P : σ → Prop} (h : ∀ s a, P s → C s a → D s a)
    {s : σ} {as : List α} (hC : T.EachStep C s as) (hP : T.Always P s as) :
    T.EachStep D s as := by
  induction as generalizing s with
  | nil => trivial
  | cons a as ih =>
    intro s' hs'
    obtain ⟨hc, hrest⟩ := hC s' hs'
    exact ⟨h s a hP.1 hc, ih hrest (hP.2 s' hs')⟩

theorem EachStep.run {C : σ → α → Prop} {P : σ → Prop}
    (hstep : ∀ s a s', P s → C s a → T.step s a = some s' → P s') {s t : σ} {as : List α}
    (hC : T.EachStep C s as) (hs : P s) (h : T.run s as = some t) : P t := by
  induction as generalizing s with
  | nil =>
    cases h
    exact hs
  | cons a as ih =>
    obtain ⟨s', hs', hrun⟩ := run_cons_eq_some.mp h
    obtain ⟨hc, hrest⟩ := hC s' hs'
    exact ih hrest (hstep s a s' hs hc hs') hrun

/-- A condition that is exactly what one step needs to keep a predicate, given an
invariant, is exactly what a run needs to keep it throughout. -/
theorem always_iff_eachStep {C : σ → α → Prop} {I P : σ → Prop}
    (hI : ∀ s a s', I s → T.step s a = some s' → I s')
    (hstep : ∀ s a s', I s → P s → T.step s a = some s' → (P s' ↔ C s a))
    {s : σ} {as : List α} (hinv : I s) (hs : P s) : T.Always P s as ↔ T.EachStep C s as := by
  induction as generalizing s with
  | nil => exact ⟨fun _ ↦ trivial, fun _ ↦ hs⟩
  | cons a as ih =>
    constructor
    · intro h s' hs'
      have hnext := h.2 s' hs'
      exact ⟨(hstep s a s' hinv hs hs').mp hnext.head, (ih (hI s a s' hinv hs') hnext.head).mp hnext⟩
    · intro h
      refine ⟨hs, fun s' hs' ↦ ?_⟩
      obtain ⟨hc, hrest⟩ := h s' hs'
      exact (ih (hI s a s' hinv hs') ((hstep s a s' hinv hs hs').mpr hc)).mpr hrest

/-- The same for a predicate on states together with one on the steps themselves. -/
theorem always_and_eachStep_iff {C D : σ → α → Prop} {I P : σ → Prop}
    (hI : ∀ s a s', I s → T.step s a = some s' → I s')
    (hstep : ∀ s a s', I s → P s → T.step s a = some s' → (P s' ∧ D s a ↔ C s a))
    {s : σ} {as : List α} (hinv : I s) (hs : P s) :
    T.Always P s as ∧ T.EachStep D s as ↔ T.EachStep C s as := by
  induction as generalizing s with
  | nil => exact ⟨fun _ ↦ trivial, fun _ ↦ ⟨hs, trivial⟩⟩
  | cons a as ih =>
    constructor
    · rintro ⟨hP, hD⟩ s' hs'
      have hnext := hP.2 s' hs'
      obtain ⟨hd, hrest⟩ := hD s' hs'
      exact ⟨(hstep s a s' hinv hs hs').mp ⟨hnext.head, hd⟩,
        (ih (hI s a s' hinv hs') hnext.head).mp ⟨hnext, hrest⟩⟩
    · intro h
      have hboth : ∀ s', T.step s a = some s' →
          (P s' ∧ D s a) ∧ T.Always P s' as ∧ T.EachStep D s' as := by
        intro s' hs'
        obtain ⟨hc, hrest⟩ := h s' hs'
        have hkeeps := (hstep s a s' hinv hs hs').mpr hc
        exact ⟨hkeeps, (ih (hI s a s' hinv hs') hkeeps.1).mpr hrest⟩
      exact ⟨⟨hs, fun s' hs' ↦ (hboth s' hs').2.1⟩,
        fun s' hs' ↦ ⟨(hboth s' hs').1.2, (hboth s' hs').2.2⟩⟩

/-! ## Predicates that steps set and reset -/

/-- Some step of the run sets a predicate, and no later one resets it. -/
def SetForGood (T : TransitionSystem σ α) (sets resets : σ → α → Prop) (s : σ) (as : List α) :
    Prop :=
  ∃ before a after s₁ s₂, as = before ++ a :: after ∧ T.run s before = some s₁ ∧ sets s₁ a ∧
    T.step s₁ a = some s₂ ∧ T.EachStep (fun s a ↦ ¬ resets s a) s₂ after

theorem setForGood_nil {sets resets : σ → α → Prop} {s : σ} :
    ¬ T.SetForGood sets resets s [] := by
  rintro ⟨before, a, after, -, -, has, -⟩
  simp at has

/-- The first step sets the predicate for good, or a later one does. -/
theorem setForGood_cons_iff {sets resets : σ → α → Prop} {s s' : σ} {a : α} {as : List α}
    (hstep : T.step s a = some s') :
    T.SetForGood sets resets s (a :: as) ↔
      sets s a ∧ T.EachStep (fun s a ↦ ¬ resets s a) s' as ∨ T.SetForGood sets resets s' as := by
  constructor
  · rintro ⟨before, b, after, s₁, s₂, has, hrun, hsets, hset, hkept⟩
    cases before with
    | nil =>
      cases has
      cases hrun
      cases hstep.symm.trans hset
      exact .inl ⟨hsets, hkept⟩
    | cons c before =>
      cases has
      obtain ⟨t, hfirst, hrest⟩ := run_cons_eq_some.mp hrun
      cases hstep.symm.trans hfirst
      exact .inr ⟨before, b, after, s₁, s₂, rfl, hrest, hsets, hset, hkept⟩
  · rintro (⟨hsets, hkept⟩ | ⟨before, b, after, s₁, s₂, rfl, hrun, hrest⟩)
    · exact ⟨[], a, as, s, s', rfl, rfl, hsets, hstep, hkept⟩
    · exact ⟨a :: before, b, after, s₁, s₂, rfl, run_cons_eq_some.mpr ⟨s', hstep, hrun⟩, hrest⟩

/-- A predicate that steps set and reset under known conditions holds at the end of a run that
starts without it exactly if a step set it for good. -/
theorem run_setForGood_iff {P : σ → Prop} {sets resets : σ → α → Prop}
    (hset : ∀ s a s', ¬ P s → T.step s a = some s' → (P s' ↔ sets s a))
    (hreset : ∀ s a s', P s → T.step s a = some s' → (P s' ↔ ¬ resets s a))
    (hsets : ∀ s a, sets s a → ¬ P s) {s t : σ} {as : List α} (hs : ¬ P s)
    (h : T.run s as = some t) : P t ↔ T.SetForGood sets resets s as := by
  have hboth : ∀ (as : List α) (s : σ), T.run s as = some t →
      (¬ P s → (P t ↔ T.SetForGood sets resets s as)) ∧
      (P s → (P t ↔ T.EachStep (fun s a ↦ ¬ resets s a) s as ∨
        T.SetForGood sets resets s as)) := by
    intro as
    induction as with
    | nil =>
      intro s hrun
      cases hrun
      exact ⟨fun ht ↦ iff_of_false ht setForGood_nil, fun ht ↦ iff_of_true ht (.inl trivial)⟩
    | cons a as ih =>
      intro s hrun
      obtain ⟨s', hstep, hrest⟩ := run_cons_eq_some.mp hrun
      obtain ⟨hunset, hkept⟩ := ih s' hrest
      have heach : T.EachStep (fun s a ↦ ¬ resets s a) s (a :: as) ↔
          ¬ resets s a ∧ T.EachStep (fun s a ↦ ¬ resets s a) s' as :=
        ⟨fun h ↦ h s' hstep, fun h ↦ .cons hstep h.1 h.2⟩
      rw [setForGood_cons_iff hstep]
      constructor
      · intro hs
        by_cases hs' : P s'
        · rw [hkept hs', and_iff_right ((hset s a s' hs hstep).mp hs')]
        · rw [hunset hs', or_iff_right fun h ↦ hs' ((hset s a s' hs hstep).mpr h.1)]
      · intro hs
        have hnot : ¬ sets s a := fun h ↦ hsets s a h hs
        rw [heach, or_iff_right (a := sets s a ∧ _) fun h ↦ hnot h.1]
        by_cases hs' : P s'
        · rw [hkept hs', and_iff_right ((hreset s a s' hs hstep).mp hs')]
        · rw [hunset hs', or_iff_right fun h ↦ hs' ((hreset s a s' hs hstep).mpr h.1)]
  exact (hboth as s h).1 hs

end TransitionSystem

end SkillHive.Foundation
