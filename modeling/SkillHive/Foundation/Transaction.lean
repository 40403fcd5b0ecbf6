import Mathlib.Data.List.Forall2
import Mathlib.Tactic.Common

/-!
# Fallible steps and transactions

A statement over a store is a function into `Except`. `bind_eq_ok` peels a
sequence of statements apart, and `foldE_invariant` is the induction rule for a loop of
statements. `transactionally` is the boundary that callers see: the new store on
success, the old one on an error.
-/

namespace SkillHive.Foundation

universe u

variable {ε : Type*} {σ α β : Type u}

theorem bind_eq_ok {x : Except ε α} {f : α → Except ε β} {b : β} :
    (x >>= f) = .ok b ↔ ∃ a, x = .ok a ∧ f a = .ok b := by
  cases x with
  | error e => simp [bind, Except.bind]
  | ok a => simp [bind, Except.bind]

theorem exists_bind_eq_ok {x : Except ε α} {f : α → Except ε β} :
    (∃ b, (x >>= f) = .ok b) ↔ ∃ a, x = .ok a ∧ ∃ b, f a = .ok b := by
  simp only [bind_eq_ok]
  constructor
  · rintro ⟨b, a, hx, hf⟩
    exact ⟨a, hx, b, hf⟩
  · rintro ⟨a, hx, b, hf⟩
    exact ⟨b, a, hx, hf⟩

theorem map_fst_eq_ok {x : Except ε (σ × α)} {s : σ} :
    Prod.fst <$> x = .ok s ↔ ∃ a, x = .ok (s, a) := by
  cases x with
  | error e => simp [Functor.map, Except.map]
  | ok out =>
    obtain ⟨s', a⟩ := out
    simp [Functor.map, Except.map]

theorem mapError_eq_ok {ε' : Type*} {f : ε → ε'} {x : Except ε α} {a : α} :
    x.mapError f = .ok a ↔ x = .ok a := by
  cases x <;> simp [Except.mapError]

theorem toOption_eq_some {x : Except ε α} {a : α} : x.toOption = some a ↔ x = .ok a := by
  cases x <;> simp [Except.toOption]

theorem filterAuxM_eq_ok {α : Type} {f : α → Except ε Bool} {as kept result : List α} :
    as.filterAuxM f kept = .ok result ↔ (∀ a ∈ as, ∃ keep, f a = .ok keep) ∧
      result = (as.filter fun a ↦ (f a).toOption = some true).reverse ++ kept := by
  induction as generalizing kept with
  | nil => simp [List.filterAuxM, pure, Except.pure, eq_comm]
  | cons a as ih =>
    rw [List.filterAuxM, bind_eq_ok]
    cases hf : f a with
    | error e => simp [hf]
    | ok keep => cases keep <;> simp [ih, hf, Except.toOption]

/-- A filter with a fallible test keeps what the test accepts, if it fails nowhere. -/
theorem filterM_eq_ok {α : Type} {f : α → Except ε Bool} {as result : List α} :
    as.filterM f = .ok result ↔ (∀ a ∈ as, ∃ keep, f a = .ok keep) ∧
      result = as.filter fun a ↦ (f a).toOption = some true := by
  rw [List.filterM, bind_eq_ok]
  simp only [filterAuxM_eq_ok, List.append_nil]
  constructor
  · rintro ⟨_, ⟨hall, rfl⟩, h⟩
    cases h
    exact ⟨hall, List.reverse_reverse _⟩
  · rintro ⟨hall, rfl⟩
    exact ⟨_, ⟨hall, rfl⟩, congrArg Except.ok (List.reverse_reverse _)⟩

/-- `o.ok_or(e)`. -/
def okOr (o : Option α) (e : ε) : Except ε α :=
  match o with
  | some a => .ok a
  | none => .error e

@[simp]
theorem okOr_eq_ok {o : Option α} {e : ε} {a : α} : okOr o e = .ok a ↔ o = some a := by
  cases o <;> simp [okOr]

/-- `if !condition { return Err(e) }`. -/
def require (condition : Prop) [Decidable condition] (e : ε) : Except ε Unit :=
  if condition then .ok () else .error e

@[simp]
theorem require_eq_ok {condition : Prop} [Decidable condition] {e : ε} {u : Unit} :
    require condition e = .ok u ↔ condition := by
  by_cases h : condition <;> simp [require, h]

/-- A loop of statements, each seeing the store the previous one left. -/
def foldE (f : σ → α → Except ε σ) : σ → List α → Except ε σ
  | s, [] => .ok s
  | s, a :: as => f s a >>= fun s' ↦ foldE f s' as

theorem foldE_cons_eq_ok {f : σ → α → Except ε σ} {s t : σ} {a : α} {as : List α} :
    foldE f s (a :: as) = .ok t ↔ ∃ s', f s a = .ok s' ∧ foldE f s' as = .ok t :=
  bind_eq_ok

/-- What every iteration preserves, the loop preserves. -/
theorem foldE_invariant {f : σ → α → Except ε σ} {P : σ → Prop} {s t : σ} {as : List α}
    (hstep : ∀ s a s', a ∈ as → P s → f s a = .ok s' → P s') (hs : P s)
    (h : foldE f s as = .ok t) : P t := by
  induction as generalizing s with
  | nil =>
    cases h
    exact hs
  | cons a as ih =>
    obtain ⟨s', hs', hrest⟩ := foldE_cons_eq_ok.mp h
    refine ih (fun s b s' hb ↦ hstep s b s' (List.mem_cons_of_mem a hb)) ?_ hrest
    exact hstep s a s' List.mem_cons_self hs hs'

/-! ### Loops over lists that are put together -/

theorem foldE_append (f : σ → α → Except ε σ) (s : σ) (as bs : List α) :
    foldE f s (as ++ bs) = foldE f s as >>= fun s' ↦ foldE f s' bs := by
  induction as generalizing s with
  | nil => rfl
  | cons a as ih =>
    rw [List.cons_append, foldE, foldE]
    cases f s a with
    | error e => rfl
    | ok s' => exact ih s'

theorem foldE_map (f : σ → β → Except ε σ) (g : α → β) (s : σ) (as : List α) :
    foldE f s (as.map g) = foldE (fun s a ↦ f s (g a)) s as := by
  induction as generalizing s with
  | nil => rfl
  | cons a as ih =>
    rw [List.map_cons, foldE, foldE]
    cases f s (g a) with
    | error e => rfl
    | ok s' => exact ih s'

theorem foldE_flatMap (f : σ → β → Except ε σ) (g : α → List β) (s : σ) (as : List α) :
    foldE f s (as.flatMap g) = foldE (fun s a ↦ foldE f s (g a)) s as := by
  induction as generalizing s with
  | nil => rfl
  | cons a as ih =>
    rw [List.flatMap_cons, foldE_append, foldE]
    cases foldE f s (g a) with
    | error e => rfl
    | ok s' => exact ih s'

/-- A loop that adds one result for every element, as long as there is room. -/
theorem foldE_collect_eq_ok {f : List β → α → Except ε (List β)} {R : α → β → Prop}
    {room : ℕ → Prop} {as : List α} {done out : List β}
    (hf : ∀ a ∈ as, ∀ s s', f s a = .ok s' ↔ room s.length ∧ ∃ b, R a b ∧ s' = s ++ [b]) :
    foldE f done as = .ok out ↔
      ∃ bs, List.Forall₂ R as bs ∧ out = done ++ bs ∧ ∀ n < bs.length, room (done.length + n) := by
  induction as generalizing done with
  | nil => simp [foldE, eq_comm]
  | cons a as ih =>
    rw [foldE_cons_eq_ok]
    have hrest := fun a' ha' ↦ hf a' (List.mem_cons_of_mem a ha')
    simp only [hf a List.mem_cons_self]
    constructor
    · rintro ⟨_, ⟨hroom, b, hb, rfl⟩, h⟩
      obtain ⟨bs, hbs, rfl, hall⟩ := (ih hrest).mp h
      refine ⟨b :: bs, .cons hb hbs, by simp, fun n hn ↦ ?_⟩
      cases n with
      | zero => exact hroom
      | succ n =>
        have hnext := hall n (Nat.lt_of_succ_lt_succ hn)
        rw [List.length_append, List.length_singleton] at hnext
        rwa [Nat.add_comm n 1, ← Nat.add_assoc]
    · rintro ⟨bs, hbs, rfl, hall⟩
      obtain ⟨b, bs, hb, htail, rfl⟩ := List.forall₂_cons_left_iff.mp hbs
      refine ⟨done ++ [b], ⟨hall 0 (Nat.zero_lt_succ _), b, hb, rfl⟩, (ih hrest).mpr
        ⟨bs, htail, by simp, fun n hn ↦ ?_⟩⟩
      have hnext := hall (n + 1) (Nat.succ_lt_succ hn)
      rw [List.length_append, List.length_singleton]
      rwa [Nat.add_comm n 1, ← Nat.add_assoc] at hnext

/-- The store a caller finds after a transaction: rolled back on an error. -/
def transactionally (tx : Except ε (σ × β)) (s : σ) : σ :=
  match tx with
  | .ok (s', _) => s'
  | .error _ => s

@[simp]
theorem transactionally_ok (s s' : σ) (b : β) :
    transactionally (.ok (s', b) : Except ε (σ × β)) s = s' := rfl

@[simp]
theorem transactionally_error (e : ε) (s : σ) :
    transactionally (.error e : Except ε (σ × β)) s = s := rfl

end SkillHive.Foundation
