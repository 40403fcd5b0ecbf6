import SkillHive.Foundation.Program

/-!
# Pre- and postconditions of programs

A triple tells what holds after a program that started with a precondition, for the two ways it
can end: with a result, or with an error. The store after an error counts as much as the other
one, since nothing rolls it back.
-/

namespace SkillHive.Foundation

namespace Program

variable {σ ε ε' α β : Type}

/-- From a store with `P`, the program returns with `Q` or fails with `E`. -/
def Triple (P : σ → Prop) (p : Program σ ε α) (Q : α → σ → Prop) (E : ε → σ → Prop) : Prop :=
  ∀ s, P s →
    match exec p s with
    | (.ok a, s') => Q a s'
    | (.error e, s') => E e s'

/-- The store as it is. -/
def read : Program σ ε σ := fun s ↦ (.ok s, s)

@[simp]
theorem exec_read (s : σ) : exec (read : Program σ ε σ) s = (.ok s, s) := rfl

theorem exec_lift_bind {result : Except ε α} {f : α → Program σ ε β} {a : α} (h : result = .ok a)
    (s : σ) : exec (lift result >>= f) s = exec (f a) s := by
  subst h
  exact exec_bind_ok (exec_lift _ s)

theorem exec_require_bind {condition : Prop} [Decidable condition] {e : ε} {f : Unit → Program σ ε β}
    (h : condition) (s : σ) : exec (lift (require condition e) >>= f) s = exec (f ()) s :=
  exec_lift_bind (require_eq_ok.mpr h) s

theorem exists_exec_eq {p : Program σ ε α} {s : σ} {result : Except ε α}
    (h : (exec p s).1 = result) : ∃ s', exec p s = (result, s') := ⟨_, Prod.ext h rfl⟩

/-- The errors of a program, told in other words. -/
def mapError (g : ε → ε') (p : Program σ ε α) : Program σ ε' α := fun s ↦
  ((exec p s).1.mapError g, (exec p s).2)

theorem exec_mapError_ok {g : ε → ε'} {p : Program σ ε α} {s s' : σ} {a : α}
    (h : exec p s = (.ok a, s')) : exec (mapError g p) s = (.ok a, s') := by
  have hmap : exec (mapError g p) s = ((exec p s).1.mapError g, (exec p s).2) := rfl
  rw [hmap, h]
  rfl

theorem exec_mapError_error {g : ε → ε'} {p : Program σ ε α} {s s' : σ} {e : ε}
    (h : exec p s = (.error e, s')) : exec (mapError g p) s = (.error (g e), s') := by
  have hmap : exec (mapError g p) s = ((exec p s).1.mapError g, (exec p s).2) := rfl
  rw [hmap, h]
  rfl

namespace Triple

variable {P P' : σ → Prop} {p : Program σ ε α} {f : α → Program σ ε β} {Q Q' : α → σ → Prop}
  {R : β → σ → Prop} {E E' : ε → σ → Prop}

/-- One store at a time. -/
theorem of_each (h : ∀ s, P s → Triple (· = s) p Q E) : Triple P p Q E :=
  fun s hs ↦ h s hs s rfl

theorem ok (h : Triple P p Q E) {s s' : σ} {a : α} (hs : P s) (hexec : exec p s = (.ok a, s')) :
    Q a s' := by
  have hp := h s hs
  rwa [hexec] at hp

theorem error (h : Triple P p Q E) {s s' : σ} {e : ε} (hs : P s)
    (hexec : exec p s = (.error e, s')) : E e s' := by
  have hp := h s hs
  rwa [hexec] at hp

theorem conseq (h : Triple P p Q E) (hP : ∀ s, P' s → P s) (hQ : ∀ a s, Q a s → Q' a s)
    (hE : ∀ e s, E e s → E' e s) : Triple P' p Q' E' := by
  intro s hs
  match hexec : exec p s with
  | (.ok a, s') => exact hQ a s' (h.ok (hP s hs) hexec)
  | (.error e, s') => exact hE e s' (h.error (hP s hs) hexec)

/-- What does not depend on the store stays true. -/
theorem const {c : Prop} : Triple (fun _ ↦ c) p (fun _ _ ↦ c) fun (_ : ε) _ ↦ True := by
  intro s hs
  match exec p s with
  | (.ok a, s') => exact hs
  | (.error e, s') => exact trivial

theorem pure {a : α} (h : ∀ s, P s → Q a s) : Triple P (pure a : Program σ ε α) Q E := h

theorem throw {e : ε} (h : ∀ s, P s → E e s) : Triple P (throw e : Program σ ε α) Q E := h

theorem bind (hp : Triple P p Q E) (hf : ∀ a, Triple (Q a) (f a) R E) :
    Triple P (p >>= f) R E := by
  intro s hs
  match hexec : exec p s with
  | (.ok a, s') =>
    rw [exec_bind_ok hexec]
    exact hf a s' (hp.ok hs hexec)
  | (.error e, s') =>
    rw [exec_bind_error hexec]
    exact hp.error hs hexec

/-- A computation that leaves the store alone goes on with its result. -/
theorem lift_bind {result : Except ε α} (hok : ∀ a, result = .ok a → Triple P (f a) R E)
    (herror : ∀ e, result = .error e → ∀ s, P s → E e s) : Triple P (lift result >>= f) R E := by
  intro s hs
  match hresult : result with
  | .ok a =>
    rw [exec_bind_ok (exec_lift _ s)]
    exact hok a rfl s hs
  | .error e =>
    rw [exec_bind_error (exec_lift _ s)]
    exact herror e rfl s hs

/-- What is required holds from there on. -/
theorem require_bind {condition : Prop} [Decidable condition] {e : ε} {f : Unit → Program σ ε β}
    (hok : condition → Triple P (f ()) R E) (herror : ¬ condition → ∀ s, P s → E e s) :
    Triple P (lift (require condition e) >>= f) R E := by
  refine lift_bind (fun u hu ↦ hok (require_eq_ok.mp hu)) fun e' he' s hs ↦ ?_
  unfold require at he'
  split at he'
  case isTrue => cases he'
  case isFalse hfails =>
    cases he'
    exact herror hfails s hs

theorem read_bind {f : σ → Program σ ε β} (h : ∀ s, P s → Triple (· = s) (f s) R E) :
    Triple P (read >>= f) R E := by
  intro s hs
  rw [exec_bind_ok (exec_read s)]
  exact h s hs s rfl

theorem mapError {g : ε → ε'} {E' : ε' → σ → Prop} (h : Triple P p Q E)
    (herror : ∀ e s, E e s → E' (g e) s) : Triple P (mapError g p) Q E' := by
  intro s hs
  have hmap : exec (Program.mapError g p) s = ((exec p s).1.mapError g, (exec p s).2) := rfl
  rw [hmap]
  match hexec : exec p s with
  | (.ok a, s') => exact h.ok hs hexec
  | (.error e, s') => exact herror e s' (h.error hs hexec)

/-- Whoever runs the program sees how it ended. -/
theorem attempt {S : Except ε α → σ → Prop} {E' : ε' → σ → Prop} (h : Triple P p Q E)
    (hok : ∀ a s, Q a s → S (.ok a) s) (herror : ∀ e s, E e s → S (.error e) s) :
    Triple P (attempt p : Program σ ε' (Except ε α)) S E' := by
  intro s hs
  rw [exec_attempt]
  match hexec : exec p s with
  | (.ok a, s') => exact hok a s' (h.ok hs hexec)
  | (.error e, s') => exact herror e s' (h.error hs hexec)

end Triple

end Program

end SkillHive.Foundation
