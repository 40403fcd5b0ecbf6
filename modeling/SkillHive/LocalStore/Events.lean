import SkillHive.Foundation.History
import SkillHive.LocalStore.Operations

/-!
# The store, change by change

A page of the feed is one transaction, but a row may change several times inside it. The
events are the steps of the store with a page taken apart: for each change its rows and
then its lease, and the cursor at the end. What holds after every event holds after every
step; a run of events may also stop inside a page, so no less is proved of it.
-/

namespace SkillHive

open Foundation

namespace LocalStore

inductive StoreEvent where
  | operation (action : StoreAction)
  | mergeChange (change : ChangeItem)
  | applyLease (utcNow : Int) (change : ChangeItem)
  | recordPullCursor (now : ℕ) (cursor : String)

def eventStep (host : Host) (store : LocalStore) : StoreEvent → Option LocalStore
  | .operation (.applyChangesPage ..) => none
  | .operation action => storeStep host store action
  | .mergeChange change => committed (applyChangeRows host store change)
  | .applyLease utcNow change => committed (applyChangeEntitlement host utcNow store change)
  | .recordPullCursor now cursor => (store.recordPullCursorInTransaction now cursor).toOption

/-- The desktop store on one machine, from a fresh install on, change by change. -/
def events (host : Host) : TransitionSystem LocalStore StoreEvent where
  init := fun store ↦ store = fresh
  step := eventStep host

/-- The two events of one change of a page. -/
def ChangeItem.events (utcNow : Int) (change : ChangeItem) : List StoreEvent :=
  [.mergeChange change, .applyLease utcNow change]

/-- The events that one step of the store consists of. -/
def StoreAction.events : StoreAction → List StoreEvent
  | .applyChangesPage now utcNow page =>
    page.changes.flatMap (ChangeItem.events utcNow) ++ [.recordPullCursor now page.nextCursor]
  | action => [.operation action]

/-- The events of a change merge it. -/
theorem run_change_events (host : Host) (utcNow : Int) (store : LocalStore) (change : ChangeItem) :
    (events host).run store (change.events utcNow) =
      committed (applyChange host utcNow store change) := by
  simp only [ChangeItem.events, TransitionSystem.run, events, eventStep, applyChange]
  cases applyChangeRows host store change with
  | error e => rfl
  | ok merged =>
    simp only [committed, Option.bind_some, bind, Except.bind]
    cases applyChangeEntitlement host utcNow merged.1 change with
    | error e => rfl
    | ok leased => rfl

/-- The events of the changes of a page merge them in order, whatever the counts. -/
theorem run_changes_events (host : Host) (utcNow : Int) (store : LocalStore) (counts : PageApplied)
    (changes : List ChangeItem) :
    (events host).run store (changes.flatMap (ChangeItem.events utcNow)) =
      committed (foldE (applyNextChange host utcNow) (store, counts) changes) := by
  induction changes generalizing store counts with
  | nil => rfl
  | cons change changes ih =>
    rw [List.flatMap_cons, TransitionSystem.run_append, run_change_events]
    simp only [foldE, applyNextChange]
    cases applyChange host utcNow store change with
    | error e => rfl
    | ok merged => exact ih merged.1 (counts.add merged.2)

/-- A step of the store is the run of its events. -/
theorem run_action_events (host : Host) (store : LocalStore) (action : StoreAction) :
    (events host).run store action.events = storeStep host store action := by
  cases action with
  | applyChangesPage now utcNow page =>
    simp only [StoreAction.events, TransitionSystem.run_append, storeStep, applyChangesPage]
    rw [run_changes_events host utcNow store ⟨0, 0, 0, 0⟩]
    cases foldE (applyNextChange host utcNow) (store, ⟨0, 0, 0, 0⟩) page.changes with
    | error e => rfl
    | ok merged =>
      simp only [committed, Option.bind_some, TransitionSystem.run, events, eventStep, bind,
        Except.bind]
      cases merged.1.recordPullCursorInTransaction now page.nextCursor with
      | error e => rfl
      | ok recorded => rfl
  | _ => simp only [StoreAction.events, TransitionSystem.run, events, eventStep, Option.bind_fun_some]

/-- So is a run of the store, and every state of the store is a state of the events. -/
theorem run_flatMap_events (host : Host) (store : LocalStore) (actions : List StoreAction) :
    (events host).run store (actions.flatMap StoreAction.events) =
      (system host).run store actions := by
  induction actions generalizing store with
  | nil => rfl
  | cons action actions ih =>
    rw [List.flatMap_cons, TransitionSystem.run_append, run_action_events]
    simp only [TransitionSystem.run, system]
    cases storeStep host store action with
    | none => rfl
    | some store' => exact ih store'

theorem Reachable.events {host : Host} {store : LocalStore} (h : Reachable host store) :
    (events host).Reachable store := by
  obtain ⟨store₀, actions, hinit, hrun⟩ := h
  exact ⟨store₀, actions.flatMap StoreAction.events, hinit,
    (run_flatMap_events host store₀ actions).trans hrun⟩

end LocalStore

end SkillHive
