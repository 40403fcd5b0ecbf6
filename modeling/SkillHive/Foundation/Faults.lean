import SkillHive.Foundation.Interruptible

/-!
# Procedures with steps that go wrong

Every step of a procedure has a name, and a schedule says of each name what goes wrong with the
step. A failure stops the procedure with an error, which a caller may handle; a crash stops the
caller as well. Either leaves the medium as an operation that is cut off leaves it.
-/

namespace SkillHive.Foundation

variable {ι σ χ ε ε' α β : Type}

/-- What goes wrong with a step, and where in its operation. -/
inductive Fault (χ : Type) where
  | failure (point : χ)
  | crash (point : χ)
  deriving DecidableEq, Repr

/-- Why a procedure has no value. -/
inductive Stop (ε : Type) where
  | failed (error : ε)
  | crashed
  deriving DecidableEq, Repr

namespace Fault

def point : Fault χ → χ
  | failure point | crash point => point

/-- How the step ends that would have failed with this error. -/
def stop (error : ε) : Fault χ → Stop ε
  | failure _ => .failed error
  | crash _ => .crashed

end Fault

/-- What goes wrong with each step. -/
abbrev Schedule (ι χ : Type) : Type := ι → Option (Fault χ)

/-- What a procedure does depends on the schedule and on the medium it starts with. -/
def Faulty (ι σ χ ε α : Type) : Type := Schedule ι χ → σ → Except (Stop ε) α × σ

/-- After the steps comes what their value is continued with. -/
theorem Steps.exec_andThen (p : Steps σ χ (Except ε α)) (f : α → Procedure σ χ ε β) (s : σ) :
    (p.andThen f s).exec s =
      match p.exec s with
      | (.ok a, s') => (f a).exec s'
      | (.error error, s') => (.error error, s') := by
  induction p generalizing s with
  | done result => cases result <;> rfl
  | act op next ih => exact ih _ _

/-- An error is a value for the caller. -/
theorem Procedure.exec_attempt (p : Procedure σ χ ε α) (s : σ) :
    (p.attempt : Procedure σ χ ε' _).exec s = (.ok (p.exec s).1, (p.exec s).2) := by
  change (Procedure.attempt.keep (p s)).exec s = (.ok ((p s).exec s).1, ((p s).exec s).2)
  generalize p s = steps
  induction steps generalizing s with
  | done result => rfl
  | act op next ih => exact ih _ _

namespace Faulty

instance : Monad (Faulty ι σ χ ε) where
  pure a := fun _ s ↦ (.ok a, s)
  bind p f := fun faults s ↦
    match p faults s with
    | (.ok a, s') => f a faults s'
    | (.error stop, s') => (.error stop, s')

def fail (error : ε) : Faulty ι σ χ ε α := fun _ s ↦ (.error (.failed error), s)

/-- A step that changes the medium. -/
def perform (name : ι) (error : ε) (op : Operation σ χ) : Faulty ι σ χ ε Unit := fun faults s ↦
  match faults name with
  | none => (.ok (), op.run s)
  | some fault => (.error (fault.stop error), (op.cut fault.point s).getD s)

/-- A step that looks at the medium. -/
def inspect (name : ι) (error : ε) (view : σ → α) : Faulty ι σ χ ε α := fun faults s ↦
  match faults name with
  | none => (.ok (view s), s)
  | some fault => (.error (fault.stop error), s)

/-- The medium, as it is. -/
def look : Faulty ι σ χ ε σ := fun _ s ↦ (.ok s, s)

/-- Hand the value or the error to the caller, who goes on after an error as well. -/
def attempt (p : Faulty ι σ χ ε α) : Faulty ι σ χ ε' (Except ε α) := fun faults s ↦
  match p faults s with
  | (.ok a, s') => (.ok (.ok a), s')
  | (.error (.failed error), s') => (.ok (.error error), s')
  | (.error .crashed, s') => (.error .crashed, s')

/-! ## Values and stops -/

section Meets

variable {faults : Schedule ι χ} {P : α → σ → Prop} {R : β → σ → Prop} {E : Stop ε → σ → Prop}
  {p : Faulty ι σ χ ε α} {f : α → Faulty ι σ χ ε β} {s s' : σ}

/-- From this medium and under this schedule, `P` holds of the value and the final medium, or `E`
of why there is none. -/
@[irreducible]
def Meets (faults : Schedule ι χ) (P : α → σ → Prop) (E : Stop ε → σ → Prop)
    (p : Faulty ι σ χ ε α) (s : σ) : Prop :=
  match p faults s with
  | (.ok a, s') => P a s'
  | (.error stop, s') => E stop s'

theorem bind_of_ok {a : α} (h : p faults s = (.ok a, s')) : (p >>= f) faults s = f a faults s' := by
  change (match p faults s with
    | (.ok a, s') => f a faults s'
    | (.error stop, s') => (.error stop, s')) = f a faults s'
  rw [h]

theorem bind_of_error {stop : Stop ε} (h : p faults s = (.error stop, s')) :
    (p >>= f) faults s = (.error stop, s') := by
  change (match p faults s with
    | (.ok a, s') => f a faults s'
    | (.error stop, s') => (.error stop, s')) = (.error stop, s')
  rw [h]

theorem perform_of_none {name : ι} {error : ε} {op : Operation σ χ} (h : faults name = none) :
    perform name error op faults s = (.ok (), op.run s) := by
  unfold perform
  rw [h]

theorem inspect_of_none {name : ι} {error : ε} {view : σ → α} (h : faults name = none) :
    inspect name error view faults s = (.ok (view s), s) := by
  unfold inspect
  rw [h]

theorem attempt_of_ok {a : α} (h : p faults s = (.ok a, s')) :
    (p.attempt : Faulty ι σ χ ε' _) faults s = (.ok (.ok a), s') := by
  unfold attempt
  rw [h]

theorem attempt_of_failed {error : ε} (h : p faults s = (.error (.failed error), s')) :
    (p.attempt : Faulty ι σ χ ε' _) faults s = (.ok (.error error), s') := by
  unfold attempt
  rw [h]

theorem Meets.of_ok {a : α} (h : p.Meets faults P E s) (hp : p faults s = (.ok a, s')) : P a s' := by
  unfold Meets at h
  rw [hp] at h
  exact h

theorem Meets.of_error {stop : Stop ε} (h : p.Meets faults P E s)
    (hp : p faults s = (.error stop, s')) : E stop s' := by
  unfold Meets at h
  rw [hp] at h
  exact h

/-- Only the end matters. -/
theorem Meets.of_eq {q : Faulty ι σ χ ε α} (h : q.Meets faults P E s')
    (heq : p faults s = q faults s') : p.Meets faults P E s := by
  unfold Meets at h ⊢
  rw [heq]
  exact h

/-- What holds of the final medium however the procedure ends. -/
theorem Meets.final {I : σ → Prop} (h : p.Meets faults (fun _ ↦ I) (fun _ ↦ I) s) :
    I (p faults s).2 := by
  rcases hp : p faults s with ⟨stop | a, s'⟩
  · exact h.of_error hp
  · exact h.of_ok hp

theorem Meets.bind (h : p.Meets faults P E s) (hf : ∀ a s', P a s' → (f a).Meets faults R E s') :
    (p >>= f).Meets faults R E s := by
  rcases hp : p faults s with ⟨stop | a, s'⟩
  · unfold Meets
    rw [bind_of_error hp]
    exact h.of_error hp
  · exact (hf a s' (h.of_ok hp)).of_eq (bind_of_ok hp)

theorem Meets.mono {P' : α → σ → Prop} {E' : Stop ε → σ → Prop} (h : p.Meets faults P E s)
    (hP : ∀ a s', P a s' → P' a s') (hE : ∀ stop s', E stop s' → E' stop s') :
    p.Meets faults P' E' s := by
  unfold Meets
  rcases hp : p faults s with ⟨stop | a, s'⟩
  · exact hE stop s' (h.of_error hp)
  · exact hP a s' (h.of_ok hp)

theorem Meets.pure {a : α} (h : P a s) : (pure a : Faulty ι σ χ ε α).Meets faults P E s := by
  unfold Meets
  exact h

theorem Meets.fail {error : ε} (h : E (.failed error) s) :
    (fail error : Faulty ι σ χ ε α).Meets faults P E s := by
  unfold Meets
  exact h

theorem Meets.perform {P : Unit → σ → Prop} {name : ι} {error : ε} {op : Operation σ χ}
    (hdone : faults name = none → P () (op.run s))
    (hfault : ∀ fault, faults name = some fault →
      E (fault.stop error) ((op.cut fault.point s).getD s)) :
    (Faulty.perform name error op).Meets faults P E s := by
  unfold Meets Faulty.perform
  cases hname : faults name with
  | none => exact hdone hname
  | some fault => exact hfault fault hname

theorem Meets.inspect {name : ι} {error : ε} {view : σ → α} (hdone : faults name = none → P (view s) s)
    (hfault : ∀ fault, faults name = some fault → E (fault.stop error) s) :
    (Faulty.inspect name error view).Meets faults P E s := by
  unfold Meets Faulty.inspect
  cases hname : faults name with
  | none => exact hdone hname
  | some fault => exact hfault fault hname

theorem Meets.look {f : σ → Faulty ι σ χ ε β} (h : (f s).Meets faults R E s) :
    (look >>= f).Meets faults R E s :=
  h.of_eq rfl

/-- An error becomes a value of the caller. -/
theorem Meets.attempt {P : Except ε α → σ → Prop} {E : Stop ε' → σ → Prop}
    (h : p.Meets faults (fun a s' ↦ P (.ok a) s')
      (fun stop s' ↦
        match stop with
        | .failed error => P (.error error) s'
        | .crashed => E .crashed s') s) :
    (p.attempt : Faulty ι σ χ ε' _).Meets faults P E s := by
  unfold Meets Faulty.attempt
  rcases hp : p faults s with ⟨(error | _) | a, s'⟩
  · exact h.of_error hp
  · exact h.of_error hp
  · exact h.of_ok hp

end Meets

/-! ## What is preserved -/

section Preserves

variable {I : σ → Prop} {p : Faulty ι σ χ ε α} {f : α → Faulty ι σ χ ε β}

/-- What holds at the start holds at the end, whatever goes wrong. -/
def Preserves (I : σ → Prop) (p : Faulty ι σ χ ε α) : Prop :=
  ∀ faults s, I s → p.Meets faults (fun _ ↦ I) (fun _ ↦ I) s

theorem Preserves.pure (a : α) : (pure a : Faulty ι σ χ ε α).Preserves I := fun _ _ h ↦ .pure h

theorem Preserves.fail (error : ε) : (fail error : Faulty ι σ χ ε α).Preserves I :=
  fun _ _ h ↦ .fail h

theorem Preserves.bind (hp : p.Preserves I) (hf : ∀ a, (f a).Preserves I) :
    (p >>= f).Preserves I :=
  fun faults s h ↦ (hp faults s h).bind fun a s' hs' ↦ hf a faults s' hs'

theorem Preserves.attempt (hp : p.Preserves I) :
    (p.attempt : Faulty ι σ χ ε' _).Preserves I := by
  intro faults s h
  refine Meets.attempt ((hp faults s h).mono (fun _ _ hs' ↦ hs') ?_)
  rintro (error | _) s' hs' <;> exact hs'

theorem Preserves.look : (look : Faulty ι σ χ ε σ).Preserves I := by
  intro faults s h
  unfold Meets
  exact h

theorem Preserves.inspect (name : ι) (error : ε) (view : σ → α) :
    (inspect name error view : Faulty ι σ χ ε α).Preserves I :=
  fun _ _ h ↦ Meets.inspect (fun _ ↦ h) fun _ _ ↦ h

theorem Preserves.perform {op : Operation σ χ} (name : ι) (error : ε)
    (hrun : ∀ s, I s → I (op.run s)) (hcut : ∀ point s s', I s → op.cut point s = some s' → I s') :
    (perform name error op : Faulty ι σ χ ε Unit).Preserves I := by
  intro faults s h
  refine Meets.perform (fun _ ↦ hrun s h) fun fault _ ↦ ?_
  cases hleft : op.cut fault.point s with
  | none => exact h
  | some s' => exact hcut fault.point s s' h hleft

end Preserves

/-! ## Schedules without a fault -/

section Agrees

variable {χ' : Type} {p : Faulty ι σ χ ε α} {q : Procedure σ χ' ε α} {s : σ}
  {f : α → Faulty ι σ χ ε β} {g : α → Procedure σ χ' ε β}

/-- From this medium the procedure ends as the other one does when nothing cuts that off. -/
def Agrees (s : σ) (p : Faulty ι σ χ ε α) (q : Procedure σ χ' ε α) : Prop :=
  p (fun _ ↦ none) s = ((q.exec s).1.mapError .failed, (q.exec s).2)

theorem Agrees.pure (a : α) :
    Agrees s (pure a : Faulty ι σ χ ε α) (pure a : Procedure σ χ' ε α) := rfl

theorem Agrees.fail (error : ε) :
    Agrees s (fail error : Faulty ι σ χ ε α) (Procedure.fail error : Procedure σ χ' ε α) := rfl

theorem Agrees.perform {op : Operation σ χ} {op' : Operation σ χ'} (name : ι) (error : ε)
    (h : op.run s = op'.run s) :
    Agrees s (perform name error op : Faulty ι σ χ ε Unit) (Procedure.perform op') :=
  congrArg (Prod.mk _) h

/-- Both go on from the same medium with the same value, or end with the same error. -/
theorem Agrees.bind (h : Agrees s p q)
    (hf : ∀ a s', q.exec s = (.ok a, s') → Agrees s' (f a) (g a)) : Agrees s (p >>= f) (q >>= g) := by
  have hexec : (q >>= g).exec s = match q.exec s with
      | (.ok a, s') => (g a).exec s'
      | (.error error, s') => (.error error, s') := (q s).exec_andThen g s
  unfold Agrees at *
  rw [hexec]
  rcases hq : q.exec s with ⟨error | a, s'⟩
  · rw [hq] at h
    exact bind_of_error h
  · rw [hq] at h
    exact (bind_of_ok h).trans (hf a s' hq)

theorem Agrees.attempt (h : Agrees s p q) :
    Agrees s (p.attempt : Faulty ι σ χ ε' _) (q.attempt : Procedure σ χ' ε' _) := by
  unfold Agrees at *
  rw [Procedure.exec_attempt]
  unfold Faulty.attempt
  rw [h]
  rcases q.exec s with ⟨error | a, s'⟩ <;> rfl

theorem Agrees.look {f : σ → Faulty ι σ χ ε β} {g : σ → Procedure σ χ' ε β} (h : Agrees s (f s) (g s)) :
    Agrees s (Faulty.look >>= f) (Procedure.look >>= g) := h

/-- A look agrees with a look, and with no step at all. -/
theorem Agrees.inspect {g : σ → Procedure σ χ' ε β} (name : ι) (error : ε) {view : σ → α}
    (h : Agrees s (f (view s)) (g s)) :
    Agrees s (Faulty.inspect name error view >>= f) (Procedure.look >>= g) := h

/-- A look of the other one makes no difference. -/
theorem Agrees.lookRight {p : Faulty ι σ χ ε β} {g : σ → Procedure σ χ' ε β} (h : Agrees s p (g s)) :
    Agrees s p (Procedure.look >>= g) := h

/-- The result of an attempt does not matter when nothing is done with it. -/
theorem Agrees.drop {p : Faulty ι σ χ ε' Unit} {q : Procedure σ χ' ε α} {f : Faulty ι σ χ ε' β}
    {g : Procedure σ χ' ε' β} (h : p (fun _ ↦ none) s = (.ok (), (q.exec s).2))
    (hf : Agrees (q.exec s).2 f g) : Agrees s (p >>= fun _ ↦ f) (q.attempt >>= fun _ ↦ g) := by
  have hexec : (q.attempt >>= fun _ ↦ g).exec s = g.exec (q.exec s).2 := by
    have hattempt := (q.attempt s).exec_andThen (fun _ : Except ε α ↦ g) s
    have hq : (q.attempt s : Steps σ χ' (Except ε' (Except ε α))).exec s =
        (.ok (q.exec s).1, (q.exec s).2) := q.exec_attempt s
    rw [hq] at hattempt
    exact hattempt
  unfold Agrees
  rw [bind_of_ok h, hexec]
  exact hf

theorem Agrees.skip {q : Procedure σ χ' ε β} (name : ι) (error : ε) {view : σ → α}
    (h : Agrees s (f (view s)) q) : Agrees s (Faulty.inspect name error view >>= f) q := h

/-- A last step that only looks makes no difference. -/
theorem Agrees.andCheck {p : Faulty ι σ χ ε Unit} {q : Procedure σ χ' ε Unit} (h : Agrees s p q)
    (name : ι) (error : ε) : Agrees s (p >>= fun _ ↦ Faulty.inspect name error fun _ ↦ ()) q := by
  unfold Agrees at *
  rcases hq : q.exec s with ⟨error | _, s'⟩
  · rw [hq] at h
    exact bind_of_error h
  · rw [hq] at h
    exact bind_of_ok h

end Agrees

end Faulty

end SkillHive.Foundation
