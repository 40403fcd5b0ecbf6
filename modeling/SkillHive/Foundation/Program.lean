import SkillHive.Foundation.Transaction

/-!
# Programs over a durable store

A program runs transactions one after the other. A transaction that fails rolls back, but
what the program committed before stays, so the store survives a failing program:
`exec` returns the store in both cases.

`Frames R p` says that `R` relates the store before `p` to the store after it, however `p`
ends. For a reflexive and transitive `R` it is checked one transaction at a time.
-/

namespace SkillHive.Foundation

/-- A program over a store `σ` that fails with an `ε` or returns an `α`. -/
abbrev Program (σ ε α : Type) := ExceptT ε (StateM σ) α

namespace Program

variable {σ ε ε' α β : Type}

/-- Run the program from a store. -/
def exec (p : Program σ ε α) (s : σ) : Except ε α × σ := StateT.run (ExceptT.run p) s

@[simp]
theorem exec_pure (a : α) (s : σ) : exec (pure a : Program σ ε α) s = (.ok a, s) := rfl

@[simp]
theorem exec_throw (e : ε) (s : σ) : exec (throw e : Program σ ε α) s = (.error e, s) := rfl

theorem exec_bind (p : Program σ ε α) (f : α → Program σ ε β) (s : σ) :
    exec (p >>= f) s =
      match exec p s with
      | (.ok a, s') => exec (f a) s'
      | (.error e, s') => (.error e, s') := by
  simp only [exec, ExceptT.run_bind, StateT.run_bind]
  cases h : StateT.run (ExceptT.run p) s with
  | mk result s' => cases result <;> rfl

theorem exec_bind_ok {p : Program σ ε α} {f : α → Program σ ε β} {s s' : σ} {a : α}
    (h : exec p s = (.ok a, s')) : exec (p >>= f) s = exec (f a) s' := by
  rw [exec_bind, h]

theorem exec_bind_error {p : Program σ ε α} {f : α → Program σ ε β} {s s' : σ} {e : ε}
    (h : exec p s = (.error e, s')) : exec (p >>= f) s = (.error e, s') := by
  rw [exec_bind, h]

/-- A continuation that leaves the store alone does not show in the final store. -/
theorem exec_bind_snd {p : Program σ ε α} {f : α → Program σ ε β}
    (hf : ∀ a s, (exec (f a) s).2 = s) (s : σ) : (exec (p >>= f) s).2 = (exec p s).2 := by
  rw [exec_bind]
  match exec p s with
  | (.ok a, s') => exact hf a s'
  | (.error e, s') => rfl

/-- One transaction on the store, rolled back when it fails. -/
def transaction (tx : σ → Except ε (σ × α)) : Program σ ε α := fun s ↦
  match tx s with
  | .ok (s', a) => (.ok a, s')
  | .error e => (.error e, s)

theorem exec_transaction_ok {tx : σ → Except ε (σ × α)} {s s' : σ} {a : α}
    (h : tx s = .ok (s', a)) : exec (transaction tx) s = (.ok a, s') := by
  simp [exec, transaction, ExceptT.run, StateT.run, h]

theorem exec_transaction_error {tx : σ → Except ε (σ × α)} {s : σ} {e : ε}
    (h : tx s = .error e) : exec (transaction tx) s = (.error e, s) := by
  simp [exec, transaction, ExceptT.run, StateT.run, h]

/-- A computation that does not touch the store. -/
def lift (result : Except ε α) : Program σ ε α := fun s ↦ (result, s)

@[simp]
theorem exec_lift (result : Except ε α) (s : σ) : exec (lift result) s = (result, s) := rfl

/-- Run the program and hand its result to the caller, who may go on after a failure. -/
def attempt (p : Program σ ε α) : Program σ ε' (Except ε α) := fun s ↦
  match exec p s with
  | (result, s') => (.ok result, s')

@[simp]
theorem exec_attempt (p : Program σ ε α) (s : σ) :
    exec (attempt p : Program σ ε' (Except ε α)) s = (.ok (exec p s).1, (exec p s).2) := rfl

/-! ## Frames -/

/-- However the program ends, `R` relates the store before it to the store after it. -/
def Frames (R : σ → σ → Prop) (p : Program σ ε α) : Prop := ∀ s, R s (exec p s).2

variable {R : σ → σ → Prop}

theorem Frames.pure (hrefl : ∀ s, R s s) (a : α) : Frames R (pure a : Program σ ε α) := hrefl

theorem Frames.throw (hrefl : ∀ s, R s s) (e : ε) : Frames R (throw e : Program σ ε α) := hrefl

theorem Frames.bind (htrans : ∀ s t u, R s t → R t u → R s u) {p : Program σ ε α}
    {f : α → Program σ ε β} (hp : Frames R p) (hf : ∀ a, Frames R (f a)) :
    Frames R (p >>= f) := by
  intro s
  have hps := hp s
  rw [exec_bind]
  match h : exec p s with
  | (.ok a, s') =>
    rw [h] at hps
    exact htrans s s' _ hps (hf a s')
  | (.error e, s') =>
    rw [h] at hps
    exact hps

/-- What follows a program relates its final store to the final store of the whole. -/
theorem Frames.after (hrefl : ∀ s, R s s) {f : α → Program σ ε β} (hf : ∀ a, Frames R (f a))
    (p : Program σ ε α) (s : σ) : R (exec p s).2 (exec (p >>= f) s).2 := by
  rw [exec_bind]
  match exec p s with
  | (.ok a, s') => exact hf a s'
  | (.error e, s') => exact hrefl s'

theorem Frames.transaction (hrefl : ∀ s, R s s) {tx : σ → Except ε (σ × α)}
    (htx : ∀ s s' a, tx s = .ok (s', a) → R s s') : Frames R (transaction tx) := by
  intro s
  match h : tx s with
  | .ok (s', a) =>
    rw [exec_transaction_ok h]
    exact htx s s' a h
  | .error e =>
    rw [exec_transaction_error h]
    exact hrefl s

theorem Frames.attempt {p : Program σ ε α} (hp : Frames R p) :
    Frames R (attempt p : Program σ ε' (Except ε α)) := hp

end Program

end SkillHive.Foundation
