import Mathlib.Tactic.Common

/-!
# Procedures that may be cut off

A procedure does one operation after the other on a medium that outlives it. It may be cut off
between two operations or inside one, which then leaves the medium somewhere on its way.

`Meets Q C` says of a procedure that its result and the final medium satisfy `Q`, and that
every medium that a cut may leave satisfies `C`. It is checked one operation at a time.
-/

namespace SkillHive.Foundation

variable {σ χ ε ε' α β : Type}

/-- An operation on a medium, and what it leaves when it is cut off at a point inside it. -/
structure Operation (σ χ : Type) where
  run : σ → σ
  cut : χ → σ → Option σ

/-- Operations up to a result, each in view of the medium that it finds. -/
inductive Steps (σ χ α : Type) where
  | done (result : α)
  | act (op : Operation σ χ) (next : σ → Steps σ χ α)

/-- What a procedure does depends on the medium it starts with. -/
def Procedure (σ χ ε α : Type) : Type := σ → Steps σ χ (Except ε α)

namespace Steps

/-- Go on with the value of the steps, or stop with their error. -/
def andThen : Steps σ χ (Except ε α) → (α → Procedure σ χ ε β) → σ → Steps σ χ (Except ε β)
  | .done (.ok a), f, s => f a s
  | .done (.error e), _, _ => .done (.error e)
  | .act op next, f, _ => .act op fun s ↦ (next s).andThen f s

/-- The result and the final medium. -/
def exec : Steps σ χ α → σ → α × σ
  | .done a, s => (a, s)
  | .act op next, s => (next (op.run s)).exec (op.run s)

/-- The medium after a number of operations and a cut inside the next one. -/
def cutOff : Steps σ χ α → σ → ℕ → χ → Option σ
  | .done _, s, _, _ => some s
  | .act op _, s, 0, point => op.cut point s
  | .act op next, s, n + 1, point => (next (op.run s)).cutOff (op.run s) n point

/-- What holds at the end, and what holds wherever the steps are cut off. -/
def Meets (Q : α → σ → Prop) (C : σ → Prop) : Steps σ χ α → σ → Prop
  | .done a, s => Q a s ∧ C s
  | .act op next, s =>
    (∀ point s', op.cut point s = some s' → C s') ∧ (next (op.run s)).Meets Q C (op.run s)

variable {Q : α → σ → Prop} {C : σ → Prop} {p : Steps σ χ α} {s : σ}

theorem Meets.exec (h : p.Meets Q C s) : Q (p.exec s).1 (p.exec s).2 ∧ C (p.exec s).2 := by
  induction p generalizing s with
  | done a => exact h
  | act op next ih => exact ih _ h.2

theorem Meets.cutOff (h : p.Meets Q C s) {n : ℕ} {point : χ} {s' : σ}
    (hcut : p.cutOff s n point = some s') : C s' := by
  induction p generalizing s n with
  | done a =>
    cases hcut
    exact h.2
  | act op next ih =>
    cases n with
    | zero => exact h.1 point s' hcut
    | succ n => exact ih _ h.2 hcut

theorem Meets.mono {Q' : α → σ → Prop} {C' : σ → Prop} (h : p.Meets Q C s)
    (hQ : ∀ a s, Q a s → Q' a s) (hC : ∀ s, C s → C' s) : p.Meets Q' C' s := by
  induction p generalizing s with
  | done a => exact ⟨hQ a s h.1, hC s h.2⟩
  | act op next ih => exact ⟨fun point s' hcut ↦ hC s' (h.1 point s' hcut), ih _ h.2⟩

theorem Meets.andThen {Q : Except ε α → σ → Prop} {R : Except ε β → σ → Prop} {C : σ → Prop}
    {p : Steps σ χ (Except ε α)} {f : α → Procedure σ χ ε β} {s : σ} (h : p.Meets Q C s)
    (hok : ∀ a s, Q (.ok a) s → C s → (f a s).Meets R C s)
    (herror : ∀ e s, Q (.error e) s → R (.error e) s) : (p.andThen f s).Meets R C s := by
  induction p generalizing s with
  | done result =>
    cases result with
    | ok a => exact hok a s h.1 h.2
    | error e => exact ⟨herror e s h.1, h.2⟩
  | act op next ih => exact ⟨h.1, ih _ h.2⟩

end Steps

namespace Procedure

instance : Monad (Procedure σ χ ε) where
  pure a := fun _ ↦ .done (.ok a)
  bind p f := fun s ↦ (p s).andThen f s

def fail (e : ε) : Procedure σ χ ε α := fun _ ↦ .done (.error e)

/-- The medium, as it is. -/
def look : Procedure σ χ ε σ := fun s ↦ .done (.ok s)

def perform (op : Operation σ χ) : Procedure σ χ ε Unit := fun _ ↦ .act op fun _ ↦ .done (.ok ())

/-- A check that does no operation. -/
def lift (result : Except ε α) : Procedure σ χ ε α := fun _ ↦ .done result

/-- Hand the result to the caller, who goes on after an error as well. -/
def attempt (p : Procedure σ χ ε α) : Procedure σ χ ε' (Except ε α) := fun s ↦
  let rec keep : Steps σ χ (Except ε α) → Steps σ χ (Except ε' (Except ε α))
    | .done result => .done (.ok result)
    | .act op next => .act op fun s ↦ keep (next s)
  keep (p s)

def exec (p : Procedure σ χ ε α) (s : σ) : Except ε α × σ := (p s).exec s

def cutOff (p : Procedure σ χ ε α) (s : σ) (n : ℕ) (point : χ) : Option σ := (p s).cutOff s n point

/-- From this medium, `Q` at the end and `C` wherever the procedure is cut off. -/
def Meets (Q : Except ε α → σ → Prop) (C : σ → Prop) (p : Procedure σ χ ε α) (s : σ) : Prop :=
  (p s).Meets Q C s

variable {Q : Except ε α → σ → Prop} {R : Except ε β → σ → Prop} {C : σ → Prop}
  {p : Procedure σ χ ε α} {s : σ}

theorem Meets.bind {f : α → Procedure σ χ ε β} (h : p.Meets Q C s)
    (hok : ∀ a s, Q (.ok a) s → C s → (f a).Meets R C s)
    (herror : ∀ e s, Q (.error e) s → R (.error e) s) : (p >>= f).Meets R C s :=
  Steps.Meets.andThen h hok herror

/-- What comes after a look depends on the medium as it is. -/
theorem Meets.look {f : σ → Procedure σ χ ε β} (h : (f s).Meets R C s) : (look >>= f).Meets R C s := h

theorem Meets.attempt {Q : Except ε' (Except ε α) → σ → Prop}
    (h : p.Meets (fun result ↦ Q (.ok result)) C s) : p.attempt.Meets Q C s := by
  unfold Procedure.Meets Procedure.attempt at *
  generalize p s = steps at h
  induction steps generalizing s with
  | done result => exact h
  | act op next ih => exact ⟨h.1, ih _ h.2⟩

theorem Meets.exec (h : p.Meets Q C s) : Q (p.exec s).1 (p.exec s).2 := (Steps.Meets.exec h).1

theorem Meets.cutOff (h : p.Meets Q C s) {n : ℕ} {point : χ} {s' : σ}
    (hcut : p.cutOff s n point = some s') : C s' := Steps.Meets.cutOff h hcut

/-! ## Procedures with a known end -/

/-- The procedure ends with this result and this medium. -/
def Ends (C : σ → Prop) (p : Procedure σ χ ε α) (s : σ) (result : Except ε α) (final : σ) : Prop :=
  p.Meets (fun result' final' ↦ result' = result ∧ final' = final) C s

variable {f : α → Procedure σ χ ε β} {a : α} {e : ε} {final : σ}

theorem Ends.pure (hC : C s) : (pure a : Procedure σ χ ε α).Ends C s (.ok a) s := ⟨⟨rfl, rfl⟩, hC⟩

theorem Ends.fail (hC : C s) : (fail e : Procedure σ χ ε α).Ends C s (.error e) s :=
  ⟨⟨rfl, rfl⟩, hC⟩

theorem Ends.of_eq {q : Procedure σ χ ε α} {result : Except ε α} (h : p s = q s)
    (hq : q.Ends C s result final) : p.Ends C s result final := by
  unfold Ends Meets
  rw [h]
  exact hq

/-- One operation. -/
theorem Ends.perform {op : Operation σ χ} (hcut : ∀ point s', op.cut point s = some s' → C s')
    (hC : C (op.run s)) : (perform op : Procedure σ χ ε Unit).Ends C s (.ok ()) (op.run s) :=
  ⟨hcut, ⟨rfl, rfl⟩, hC⟩

/-- After a procedure that ends with a value comes what its continuation does. -/
theorem Ends.bind (h : p.Ends C s (.ok a) final) (hf : (f a).Meets R C final) :
    (p >>= f).Meets R C s := by
  refine Meets.bind h ?_ ?_
  · rintro a' s' ⟨⟨⟩, rfl⟩ -
    exact hf
  · rintro e s' ⟨⟨⟩, -⟩

theorem Ends.bind_error (h : p.Ends C s (.error e) final) :
    (p >>= f).Ends C s (.error e) final := by
  refine Meets.bind h ?_ ?_
  · rintro a' s' ⟨⟨⟩, -⟩
  · rintro e' s' ⟨⟨⟩, rfl⟩
    exact ⟨rfl, rfl⟩

theorem Ends.meets {result : Except ε α} (h : p.Ends C s result final) (hQ : Q result final) :
    p.Meets Q C s := by
  refine Steps.Meets.mono h ?_ fun _ hC ↦ hC
  rintro _ _ ⟨rfl, rfl⟩
  exact hQ

theorem Ends.attempt {result : Except ε α} (h : p.Ends C s result final) :
    (p.attempt : Procedure σ χ ε' _).Ends C s (.ok result) final := by
  refine Meets.attempt ?_
  exact h.meets ⟨rfl, rfl⟩

theorem Ends.exec {result : Except ε α} (h : p.Ends C s result final) :
    p.exec s = (result, final) := by
  obtain ⟨hresult, hfinal⟩ := Meets.exec h
  exact Prod.ext hresult hfinal

/-! ## Runs that end or are cut off -/

/-- The result, if the procedure gets there, and the medium that it leaves. -/
def runUntil (p : Procedure σ χ ε α) (cut : Option (ℕ × χ)) (s : σ) :
    Option (Option (Except ε α) × σ) :=
  match cut with
  | none => some (some (p.exec s).1, (p.exec s).2)
  | some (n, point) => (p.cutOff s n point).map fun s' ↦ (none, s')

theorem Meets.runUntil (h : p.Meets Q C s) {cut : Option (ℕ × χ)} {result : Option (Except ε α)}
    {s' : σ} (hrun : p.runUntil cut s = some (result, s')) :
    C s' ∧ ∀ r ∈ result, Q r s' := by
  cases cut with
  | none =>
    cases hrun
    obtain ⟨hQ, hC⟩ := Steps.Meets.exec h
    refine ⟨hC, fun r hr ↦ ?_⟩
    cases hr
    exact hQ
  | some stop =>
    obtain ⟨left, hcut, heq⟩ := Option.map_eq_some_iff.mp hrun
    cases heq
    exact ⟨h.cutOff hcut, nofun⟩

/-! ## Procedures that preserve a predicate -/

/-- What holds at the start holds at the end and wherever the procedure is cut off. -/
def Preserves (I : σ → Prop) (p : Procedure σ χ ε α) : Prop := ∀ s, I s → p.Meets (fun _ ↦ I) I s

variable {I : σ → Prop}

theorem Preserves.pure (a : α) : (pure a : Procedure σ χ ε α).Preserves I := fun _ h ↦ ⟨h, h⟩

theorem Preserves.fail (e : ε) : (fail e : Procedure σ χ ε α).Preserves I := fun _ h ↦ ⟨h, h⟩

theorem Preserves.look : (look : Procedure σ χ ε σ).Preserves I := fun _ h ↦ ⟨h, h⟩

theorem Preserves.lift (result : Except ε α) : (lift result : Procedure σ χ ε α).Preserves I :=
  fun _ h ↦ ⟨h, h⟩

theorem Preserves.perform {op : Operation σ χ}
    (hcut : ∀ point s s', I s → op.cut point s = some s' → I s') (hrun : ∀ s, I s → I (op.run s)) :
    (perform op : Procedure σ χ ε Unit).Preserves I :=
  fun s h ↦ ⟨fun point s' hs' ↦ hcut point s s' h hs', hrun s h, hrun s h⟩

theorem Preserves.bind {f : α → Procedure σ χ ε β} (hp : p.Preserves I)
    (hf : ∀ a, (f a).Preserves I) : (p >>= f).Preserves I :=
  fun s h ↦ (hp s h).bind (fun a s' hs' _ ↦ hf a s' hs') fun _ _ hs' ↦ hs'

theorem Preserves.attempt (hp : p.Preserves I) :
    (p.attempt : Procedure σ χ ε' _).Preserves I := fun s h ↦ (hp s h).attempt

/-- After a procedure that preserves `I` comes whatever follows from a medium with `I`. -/
theorem Preserves.bind_meets {f : α → Procedure σ χ ε β} (hp : p.Preserves I) (hs : I s)
    (hC : ∀ s, I s → C s) (hok : ∀ a s, I s → (f a).Meets R C s)
    (herror : ∀ e s, I s → R (.error e) s) : (p >>= f).Meets R C s := by
  have hmeets : p.Meets (fun _ ↦ I) C s := Steps.Meets.mono (hp s hs) (fun _ _ h ↦ h) hC
  exact hmeets.bind (fun a s hI _ ↦ hok a s hI) herror

end Procedure

/-! ## Cuts by the number of operations -/

namespace Steps

variable {C : σ → Prop} {D : ℕ → σ → Prop} {Q : α → σ → Prop} {p : Steps σ χ α} {s : σ} {k : ℕ}

/-- What holds of a medium that a cut leaves, by the number of operations that are done then; of
these the ones before the first step count as `k`. -/
def CountsFrom (D : ℕ → σ → Prop) : ℕ → Steps σ χ α → σ → Prop
  | k, .done _, s => ∀ n, k ≤ n → D n s
  | k, .act op next, s =>
    (∀ point s', op.cut point s = some s' → D k s') ∧
      (next (op.run s)).CountsFrom D (k + 1) (op.run s)

theorem CountsFrom.cutOff (h : p.CountsFrom D k s) {n : ℕ} {point : χ} {s' : σ}
    (hcut : p.cutOff s n point = some s') : D (k + n) s' := by
  induction p generalizing s k n with
  | done a =>
    cases hcut
    exact h _ (Nat.le_add_right k n)
  | act op next ih =>
    cases n with
    | zero => exact h.1 point s' hcut
    | succ n =>
      rw [Nat.add_comm n 1, ← Nat.add_assoc]
      exact ih _ h.2 hcut

theorem CountsFrom.exec (h : p.CountsFrom D k s) : ∃ m, ∀ n, m ≤ n → D n (p.exec s).2 := by
  induction p generalizing s k with
  | done a => exact ⟨k, h⟩
  | act op next ih => exact ih _ h.2

/-- What holds wherever the steps are cut off says enough from here on. -/
theorem Meets.countsFrom (h : p.Meets Q C s) (hD : ∀ n s, k ≤ n → C s → D n s) :
    p.CountsFrom D k s := by
  induction p generalizing s k with
  | done a => exact fun n hn ↦ hD n s hn h.2
  | act op next ih =>
    refine ⟨fun point s' hcut ↦ hD k s' (Nat.le_refl k) (h.1 point s' hcut), ih _ h.2 ?_⟩
    exact fun n s hn ↦ hD n s (Nat.le_of_succ_le hn)

theorem CountsFrom.mono {D' : ℕ → σ → Prop} (h : p.CountsFrom D k s)
    (hD : ∀ n s, k ≤ n → D n s → D' n s) : p.CountsFrom D' k s := by
  induction p generalizing s k with
  | done a => exact fun n hn ↦ hD n s hn (h n hn)
  | act op next ih =>
    refine ⟨fun point s' hcut ↦ hD k s' (Nat.le_refl k) (h.1 point s' hcut), ih _ h.2 ?_⟩
    exact fun n s hn ↦ hD n s (Nat.le_of_succ_le hn)

theorem meets_trivial (p : Steps σ χ α) (s : σ) : p.Meets (fun _ _ ↦ True) (fun _ ↦ True) s := by
  induction p generalizing s with
  | done a => exact ⟨trivial, trivial⟩
  | act op next ih => exact ⟨fun _ _ _ ↦ trivial, ih _ _⟩

theorem Meets.and {Q' : α → σ → Prop} {C' : σ → Prop} (h : p.Meets Q C s) (h' : p.Meets Q' C' s) :
    p.Meets (fun a s ↦ Q a s ∧ Q' a s) (fun s ↦ C s ∧ C' s) s := by
  induction p generalizing s with
  | done a => exact ⟨⟨h.1, h'.1⟩, h.2, h'.2⟩
  | act op next ih =>
    exact ⟨fun point s' hcut ↦ ⟨h.1 point s' hcut, h'.1 point s' hcut⟩, ih _ h.2 h'.2⟩

end Steps

namespace Procedure

theorem Preserves.and {I J : σ → Prop} {p : Procedure σ χ ε α} (hI : p.Preserves I)
    (hJ : p.Preserves J) : p.Preserves fun s ↦ I s ∧ J s :=
  fun s h ↦ (hI s h.1).and (hJ s h.2)

variable {D : ℕ → σ → Prop} {p : Procedure σ χ ε α} {s s' : σ} {cut : Option (ℕ × χ)}

/-- The run does this many operations, unless it ends before. -/
def reaches (count : ℕ) (cut : Option (ℕ × χ)) : Bool := cut.all fun stop ↦ count ≤ stop.1

/-- A run that is not cut off counts as any number of operations that is large enough. -/
theorem runUntil_counts (h : (p s).CountsFrom D 0 s) {result : Option (Except ε α)}
    (hrun : p.runUntil cut s = some (result, s')) (bound : ℕ) :
    ∃ n, D n s' ∧ cut.elim (bound ≤ n) fun stop ↦ n = stop.1 := by
  cases cut with
  | none =>
    cases hrun
    obtain ⟨m, hm⟩ := h.exec
    exact ⟨max m bound, hm _ (Nat.le_max_left m bound), Nat.le_max_right m bound⟩
  | some stop =>
    obtain ⟨left, hcut, heq⟩ := Option.map_eq_some_iff.mp hrun
    cases heq
    have hcount := h.cutOff hcut
    rw [Nat.zero_add] at hcount
    exact ⟨stop.1, hcount, rfl⟩

end Procedure

end SkillHive.Foundation
