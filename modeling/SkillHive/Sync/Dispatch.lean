import SkillHive.LocalStore.Acceptance
import SkillHive.Sync.Cycle

/-!
# What one dispatch does

A dispatch ends with an outcome for its mutation or without one: a failing session and a
failing read of the store leave the worker with nothing to apply. When there is an outcome,
the dispatch is the transaction of that outcome and nothing else.
-/

namespace SkillHive

open Foundation LocalStore

namespace Sync

/-- The outcome a dispatch applies, and whether the batch goes on after it. -/
structure Answer where
  outcome : MutationOutcome
  goesOn : Bool

namespace Environment

variable (env : Environment)

/-- What the request for the mutation is answered with; `skill` is the row of its skill. -/
def requestAnswer (deviceId : String) (skill : Option LocalSkill) (m : LocalMutation) :
    Option Answer :=
  if env.fault (.getSkill m.id) ≠ none ∨ env.fault (.deviceId m.id) ≠ none then none
  else
    match env.submitMutation (mutationRequest deviceId m skill) with
    | .ok response => some ⟨response.intoOutcome, true⟩
    | .error error =>
      if error.isSessionError then none else some ⟨failureOutcome m.id error, false⟩

/-- What the dispatch of the mutation is answered with, the upload of its closure included. -/
def answer (deviceId : String) (skill : Option LocalSkill) (m : LocalMutation) : Option Answer :=
  if m.operation = .delete then env.requestAnswer deviceId skill m
  else
    match env.syncSnapshotClosure m with
    | .ok () => env.requestAnswer deviceId skill m
    | .error error => some ⟨uploadFailureOutcome m.id error, false⟩

variable {env} {store store' : LocalStore} {m : LocalMutation}

/-! ## Calls to the store -/

section StoreCalls

variable {α : Type} {site : StoreCall} {tx : LocalStore → Except LocalStoreError (LocalStore × α)}

theorem exec_storeCall_fault {error : LocalStoreError} (h : env.fault site = some error) :
    (env.storeCall site tx).exec store = (.error (.ofLocalStore error), store) := by
  have hcall : (env.call site tx).exec store = (.error error, store) :=
    Program.exec_transaction_error (by simp [h])
  rw [storeCall, Program.exec_bind_ok (Program.exec_attempt _ _), hcall]
  rfl

theorem exec_storeCall_error {error : LocalStoreError} (h : env.fault site = none)
    (htx : tx store = .error error) :
    (env.storeCall site tx).exec store = (.error (.ofLocalStore error), store) := by
  have hcall : (env.call site tx).exec store = (.error error, store) :=
    Program.exec_transaction_error (by simp [h, htx])
  rw [storeCall, Program.exec_bind_ok (Program.exec_attempt _ _), hcall]
  rfl

theorem exec_storeCall_ok {a : α} (h : env.fault site = none) (htx : tx store = .ok (store', a)) :
    (env.storeCall site tx).exec store = (.ok a, store') := by
  have hcall : (env.call site tx).exec store = (.ok a, store') :=
    Program.exec_transaction_ok (by simp [h, htx])
  rw [storeCall, Program.exec_bind_ok (Program.exec_attempt _ _), hcall]
  rfl

/-- A call either fails and leaves the store alone, or is its transaction. -/
theorem exec_storeCall_cases (env : Environment) (site : StoreCall)
    (tx : LocalStore → Except LocalStoreError (LocalStore × α)) (store : LocalStore) :
    (∃ error, (env.storeCall site tx).exec store = (.error error, store)) ∨
      ∃ store' a, env.fault site = none ∧ tx store = .ok (store', a) ∧
        (env.storeCall site tx).exec store = (.ok a, store') := by
  cases hfault : env.fault site with
  | some error => exact Or.inl ⟨_, exec_storeCall_fault hfault⟩
  | none =>
    cases h : tx store with
    | error error => exact Or.inl ⟨_, exec_storeCall_error hfault h⟩
    | ok out => exact Or.inr ⟨out.1, out.2, rfl, rfl, exec_storeCall_ok hfault h⟩

/-- A relation that the transaction keeps frames the call. -/
theorem frames_storeCall {R : LocalStore → LocalStore → Prop} (hrefl : ∀ s, R s s)
    (htx : ∀ s s' a, tx s = .ok (s', a) → R s s') : Program.Frames R (env.storeCall site tx) := by
  intro s
  rcases exec_storeCall_cases env site tx s with ⟨error, h⟩ | ⟨s', a, -, htx', h⟩
  · rw [h]
    exact hrefl s
  · rw [h]
    exact htx s s' a htx'

end StoreCalls

/-! ## One dispatch -/

/-- The outcome is stored for the mutation, and the store becomes `store'`. -/
def Stores (env : Environment) (m : LocalMutation) (outcome : MutationOutcome)
    (store store' : LocalStore) : Prop :=
  env.fault (.applyMutationOutcome m.id) = none ∧ ∃ applied,
    store.applyMutationOutcome (env.clock (.applyMutationOutcome m.id)) outcome =
      .ok (store', applied)

theorem exec_applyOutcome_stores {outcome : MutationOutcome}
    (h : env.Stores m outcome store store') :
    (env.applyOutcome m outcome).exec store = (.ok (), store') := by
  obtain ⟨hfault, applied, happly⟩ := h
  rw [applyOutcome, Program.exec_bind_ok (exec_storeCall_ok hfault happly)]
  rfl

theorem exec_applyOutcome_fails {outcome : MutationOutcome}
    (h : ∀ store', ¬ env.Stores m outcome store store') :
    ∃ error, (env.applyOutcome m outcome).exec store = (.error error, store) := by
  cases hfault : env.fault (.applyMutationOutcome m.id) with
  | some error => exact ⟨_, Program.exec_bind_error (exec_storeCall_fault hfault)⟩
  | none =>
    cases happly : store.applyMutationOutcome (env.clock (.applyMutationOutcome m.id)) outcome with
    | error error => exact ⟨_, Program.exec_bind_error (exec_storeCall_error hfault happly)⟩
    | ok out => exact absurd ⟨hfault, out.2, happly⟩ (h out.1)

/-- The result that the loop over the batch sees, given what the worker learned. -/
structure DispatchResult (env : Environment) (m : LocalMutation) (answer : Option Answer)
    (store : LocalStore) (result : Except SyncCycleError Unit × LocalStore) : Prop where
  stored : ∀ a ∈ answer, ∀ store', env.Stores m a.outcome store store' →
    result.2 = store' ∧ (result.1 = .ok () ↔ a.goesOn = true)
  lost : (∀ a ∈ answer, ∀ store', ¬ env.Stores m a.outcome store store') →
    result.2 = store ∧ result.1 ≠ .ok ()

theorem dispatchResult_none {error : SyncCycleError} :
    DispatchResult env m none store (.error error, store) :=
  ⟨fun _ h ↦ (Option.not_mem_none _ h).elim, fun _ ↦ ⟨rfl, by simp⟩⟩

/-- A dispatch that applies an outcome and then returns or fails. -/
theorem dispatchResult_some (a : Answer) {after : Program LocalStore SyncCycleError Unit}
    {result : Except SyncCycleError Unit} (hafter : ∀ s, after.exec s = (result, s))
    (hresult : result = .ok () ↔ a.goesOn = true) :
    DispatchResult env m (some a) store
      ((env.applyOutcome m a.outcome >>= fun _ ↦ after).exec store) := by
  constructor
  · intro a' ha' store' hstores
    cases ha'
    rw [Program.exec_bind_ok (exec_applyOutcome_stores hstores), hafter]
    exact ⟨rfl, hresult⟩
  · intro hlost
    obtain ⟨error, herror⟩ := exec_applyOutcome_fails (hlost a rfl)
    rw [Program.exec_bind_error herror]
    exact ⟨rfl, by simp⟩

theorem exec_submitClaimed {deviceId : String} (hdevice : store.syncState.deviceId = some deviceId) :
    DispatchResult env m (env.requestAnswer deviceId (store.skill? m.skillId) m) store
      ((env.submitClaimed m).exec store) := by
  unfold requestAnswer submitClaimed
  cases hskill : env.fault (.getSkill m.id) with
  | some error =>
    rw [Program.exec_bind_error (exec_storeCall_fault hskill), if_pos (Or.inl (by simp))]
    exact dispatchResult_none
  | none =>
    rw [Program.exec_bind_ok (exec_storeCall_ok hskill rfl)]
    cases hid : env.fault (.deviceId m.id) with
    | some error =>
      have hfail : (env.deviceIdFor m).exec store = (.error (.ofLocalStore error), store) :=
        Program.exec_bind_error (exec_storeCall_fault hid)
      rw [Program.exec_bind_error hfail, if_pos (Or.inr (by simp))]
      exact dispatchResult_none
    | none =>
      have hread : (env.deviceIdFor m).exec store = (.ok deviceId, store) := by
        rw [deviceIdFor, syncState, Program.exec_bind_ok (exec_storeCall_ok hid rfl), hdevice]
        rfl
      rw [Program.exec_bind_ok hread, if_neg (by simp)]
      cases hreply : env.submitMutation (mutationRequest deviceId m (store.skill? m.skillId)) with
      | ok response =>
        have hresult : DispatchResult env m (some ⟨response.intoOutcome, true⟩) store
            ((env.applyOutcome m response.intoOutcome >>= fun _ ↦ pure ()).exec store) :=
          dispatchResult_some _ (fun s ↦ Program.exec_pure () s) (by simp)
        simpa using hresult
      | error error =>
        cases hsession : error.isSessionError with
        | true =>
          simp only [hsession, if_true]
          exact dispatchResult_none
        | false =>
          simp only [hsession, Bool.false_eq_true, if_false]
          exact dispatchResult_some _ (fun s ↦ Program.exec_throw _ s) (by simp)

/-- A dispatch is the transaction of the outcome it is answered with, if any. -/
theorem exec_dispatchMutation {deviceId : String}
    (hdevice : store.syncState.deviceId = some deviceId) :
    DispatchResult env m (env.answer deviceId (store.skill? m.skillId) m) store
      ((env.dispatchMutation m).exec store) := by
  unfold answer dispatchMutation
  split
  case isTrue => exact exec_submitClaimed hdevice
  case isFalse =>
    cases env.syncSnapshotClosure m with
    | ok => exact exec_submitClaimed hdevice
    | error error => exact dispatchResult_some _ (fun s ↦ Program.exec_throw _ s) (by simp)

/-! ## The answers -/

/-- Every outcome of a dispatch is well formed and names the dispatched mutation. -/
theorem answer_outcome {deviceId : String} {skill : Option LocalSkill} {a : Answer}
    (h : env.answer deviceId skill m = some a) :
    a.outcome.mutationId = m.id ∧ a.outcome.IsWellFormed := by
  have hrequest : env.requestAnswer deviceId skill m = some a →
      a.outcome.mutationId = m.id ∧ a.outcome.IsWellFormed := by
    intro h
    unfold requestAnswer at h
    split at h
    case isTrue => cases h
    case isFalse =>
      split at h
      case h_1 response hreply =>
        cases h
        have hanswers := env.submit_answers _ _ hreply
        exact ⟨hanswers.mutationId, hanswers.intoOutcome_isWellFormed⟩
      case h_2 error hreply =>
        split at h
        case isTrue => cases h
        case isFalse =>
          cases h
          exact ⟨failureOutcome_mutationId m.id error, failureOutcome_isWellFormed m.id error⟩
  unfold answer at h
  split at h
  case isTrue => exact hrequest h
  case isFalse =>
    split at h
    case h_1 => exact hrequest h
    case h_2 error hupload =>
      cases h
      exact ⟨rfl, uploadFailureOutcome_isWellFormed m.id error⟩

end Environment

end Sync

end SkillHive
