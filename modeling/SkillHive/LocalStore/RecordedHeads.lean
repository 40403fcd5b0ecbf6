import SkillHive.LocalStore.EventRows
import SkillHive.LocalStore.Ownership

/-!
# What a conflict is about

A conflict sets the last remote head that the machine has heard of against the last thing
the user did to the skill. Neither is a column of the store, so both are carried along as
history: the head from the events that report one, the intent from the two operations of
the user.
-/

namespace SkillHive

open Foundation

namespace LocalStore

/-- What the user last did to a skill. -/
inductive LocalIntent where
  | save (blobHash name slug : String)
  | delete
  deriving DecidableEq, Repr

structure SkillHistory where
  head : Option RemoteHead
  intent : Option LocalIntent
  deriving DecidableEq, Repr

def StoreEvent.intent? (k : String) : StoreEvent → Option LocalIntent
  | .operation (.commitSkillEdit _ _ edit) =>
    if edit.skillId = k then some (.save edit.blobHash edit.name edit.slug) else none
  | .operation (.queueSkillDelete _ _ skillId _) => if skillId = k then some .delete else none
  | _ => none

/-- Each event overwrites what it tells. -/
def recordHistory (history : String → SkillHistory) (store : LocalStore) (event : StoreEvent)
    (_ : LocalStore) : String → SkillHistory := fun k ↦
  { head := (event.reportedHead? store k).or (history k).head
    intent := (event.intent? k).or (history k).intent }

/-- The desktop store together with the last head and the last intent of every skill. -/
def conflictHistory (host : Host) :
    TransitionSystem (LocalStore × (String → SkillHistory)) StoreEvent :=
  (events host).withHistory (fun _ ↦ ⟨none, none⟩) recordHistory

/-- A fresh install, before any history. -/
def freshHistory : LocalStore × (String → SkillHistory) := (fresh, fun _ ↦ ⟨none, none⟩)

/-- Every conflict has a recorded head, and the row stands at its revision. -/
def HeadsRecorded (x : LocalStore × (String → SkillHistory)) : Prop :=
  ∀ k row, x.1.skill? k = some row → row.syncState = .conflict →
    ∃ head, (x.2 k).head = some head ∧ row.remoteRevision = some head.revision

variable {host : Host} {x y : LocalStore × (String → SkillHistory)}

theorem conflictHistory_step {event : StoreEvent} (h : (conflictHistory host).step x event = some y) :
    eventStep host x.1 event = some y.1 ∧ y.2 = recordHistory x.2 x.1 event y.1 :=
  TransitionSystem.withHistory_step_eq_some.mp h

theorem CommitSkillEdit.savedRow_syncState (edit : CommitSkillEdit) (row : Option LocalSkill) :
    (edit.savedRow row).syncState = .dirty := by
  cases row <;> rfl

theorem MutationOutcome.head?_of_acked {outcome : MutationOutcome} {revision : Int}
    (hstatus : outcome.status = "acked") (hrevision : outcome.revision = some revision)
    (m : LocalMutation) : ∃ head, outcome.head? m = some head ∧ head.revision = revision := by
  rw [head?, if_pos hstatus, hrevision, Option.map_some]
  split
  · exact ⟨_, rfl, rfl⟩
  · exact ⟨_, rfl, rfl⟩

theorem MutationOutcome.head?_of_conflict {outcome : MutationOutcome} {revision : Int}
    (hstatus : outcome.status = "conflict") (hhead : outcome.conflictHeadRevision = some revision)
    (m : LocalMutation) : ∃ head, outcome.head? m = some head ∧ head.revision = revision := by
  rw [head?, if_neg (by rw [hstatus]; decide), if_pos hstatus, hhead]
  exact ⟨_, rfl, rfl⟩

theorem HeadsRecorded.step {event : StoreEvent} (hx : HeadsRecorded x)
    (h : (conflictHistory host).step x event = some y) : HeadsRecorded y := by
  obtain ⟨hstep, hrecord⟩ := conflictHistory_step h
  intro k row' hrow' hlabel
  have hhead : (y.2 k).head = (event.reportedHead? x.1 k).or (x.2 k).head := by rw [hrecord]; rfl
  have hreports : ∀ revision, (∃ head, event.reportedHead? x.1 k = some head ∧
      head.revision = revision) → row'.remoteRevision = some revision →
        ∃ head, (y.2 k).head = some head ∧ row'.remoteRevision = some head.revision := by
    rintro revision ⟨head, hreport, rfl⟩ hrevision
    exact ⟨head, by rw [hhead, hreport, Option.some_or], hrevision⟩
  have hcases := eventStep_row hstep k
  generalize hbefore : x.1.skill? k = before at hcases
  rw [hrow'] at hcases
  cases hcases with
  | same _ hreport =>
    rw [hhead, hreport, Option.none_or]
    exact hx k row' hbefore hlabel
  | relabelled _ hafter => rcases hafter with rfl | rfl <;> cases hlabel
  | hydrated => cases hlabel
  | saved => rw [CommitSkillEdit.savedRow_syncState] at hlabel; cases hlabel
  | queuedDelete => cases hlabel
  | acknowledged hevent hraw _ hskill hstatus hrevision =>
    subst hevent
    refine hreports _ ?_ (LocalSkill.settle_columns _ _).2
    rw [reportedHead?_of_outcome hraw, if_pos hskill]
    exact MutationOutcome.head?_of_acked hstatus hrevision _
  | conflicted hevent hraw _ hskill hstatus hconflict =>
    subst hevent
    refine hreports _ ?_ (by rw [LocalSkill.recordRejection, hconflict]; rfl)
    rw [reportedHead?_of_outcome hraw, if_pos hskill]
    exact MutationOutcome.head?_of_conflict hstatus hconflict _
  | rejected _ _ _ _ hstate =>
    rcases hstate with rfl | rfl <;> cases hlabel
  | keptLocal => cases hlabel
  | keptRemote => cases hlabel
  | inserted => cases hlabel
  | upserted hevent hfound hkey _ hfresh =>
    subst hevent
    refine hreports _ ⟨_, ?_, ChangeItem.head_revision _⟩ rfl
    exact (reportedHead?_of_change hfound k).trans (if_pos ⟨hkey, hfresh⟩)
  | buried hevent hfound hkey _ hfresh =>
    subst hevent
    refine hreports _ ⟨_, ?_, ChangeItem.head_revision _⟩ rfl
    exact (reportedHead?_of_change hfound k).trans (if_pos ⟨hkey, hfresh⟩)

theorem headsRecorded_of_reachable (h : (conflictHistory host).Reachable x) : HeadsRecorded x :=
  TransitionSystem.Reachable.invariant (fun _ hinit _ _ hrow _ ↦ by
    rw [hinit.1] at hrow
    cases hrow) (fun _ _ _ hs hstep ↦ hs.step hstep) h

/-- A run of the store, with its history, ends in a reachable store. -/
theorem reachable_of_conflictHistory {actions : List StoreAction}
    (h : (conflictHistory host).run freshHistory (actions.flatMap StoreAction.events) = some x) :
    Reachable host x.1 ∧ HeadsRecorded x := by
  constructor
  · refine ⟨fresh, actions, rfl, ?_⟩
    have hforget : ((conflictHistory host).run freshHistory
        (actions.flatMap StoreAction.events)).map Prod.fst =
          (events host).run fresh (actions.flatMap StoreAction.events) :=
      TransitionSystem.run_withHistory fresh _ _
    rw [h, Option.map_some] at hforget
    rw [← run_flatMap_events, hforget]
  · exact headsRecorded_of_reachable ⟨freshHistory, _, ⟨rfl, rfl⟩, h⟩

end LocalStore

end SkillHive
