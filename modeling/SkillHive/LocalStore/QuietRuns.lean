import SkillHive.LocalStore.Dispatches
import SkillHive.LocalStore.RecordedHeads

/-!
# Runs that leave a skill to the worker

As long as the user decides nothing about a skill and no claim takes a mutation of it, the
line of its mutations stands still: what is queued stays queued, nothing joins, and only the
mutation that is in flight already may be settled. The row keeps the name that a push would
read, unless a rejection closes the line.
-/

namespace SkillHive

open Foundation

namespace LocalStore

def StoreEvent.claims (store : LocalStore) : StoreEvent → List LocalMutation
  | .operation action => action.claims store
  | _ => []

/-- The event decides nothing about the skill and dispatches nothing of it. -/
def LeavesLine (skillId : String) (store : LocalStore) (event : StoreEvent) : Prop :=
  event.decides skillId = false ∧ ∀ m ∈ event.claims store, m.skillId ≠ skillId

/-- The same of a step. -/
def StepLeavesLine (skillId : String) (store : LocalStore) (action : StoreAction) : Prop :=
  action.decides skillId = false ∧ ∀ m ∈ action.claims store, m.skillId ≠ skillId

section

variable {host : Host} {store store' : LocalStore} {event : StoreEvent} {skillId : String}

/-- A mutation that waits, or is closed, is still there as it was. -/
theorem LeavesLine.forward (h : LeavesLine skillId store event)
    (hstep : eventStep host store event = some store') {m : LocalMutation} (hm : m ∈ store.mutations)
    (hskill : m.skillId = skillId) (hopen : m.state ≠ .acked) (hflight : m.state ≠ .inFlight) :
    m ∈ store'.mutations := by
  have hcases := eventStep_mutation hstep m.id
  have hget : store.mutation? m.id = some m := Table.get?_of_mem hm
  rw [hget] at hcases
  generalize hafter : store'.mutation? m.id = after at hcases
  cases hcases with
  | same => exact Table.mem_of_get? hafter
  | claimed hevent hclaim =>
    subst hevent
    exact absurd hskill (h.2 (m.claim _) hclaim)
  | requeued hflight' => exact absurd hflight' hflight
  | settled _ _ hflight' => exact absurd hflight' hflight
  | superseded hevent =>
    rw [hskill, h.1] at hevent
    cases hevent
  | retired hacked => exact absurd hacked hopen

/-- Every mutation of the skill was there, and is as it was unless it was in flight. -/
theorem LeavesLine.backward (h : LeavesLine skillId store event)
    (hstep : eventStep host store event = some store') {m' : LocalMutation}
    (hm' : m' ∈ store'.mutations) (hskill : m'.skillId = skillId) :
    ∃ m ∈ store.mutations, SameIdentity m m' ∧ (m = m' ∨ m.state = .inFlight) := by
  have hcases := eventStep_mutation hstep m'.id
  have hget : store'.mutation? m'.id = some m' := Table.get?_of_mem hm'
  rw [hget] at hcases
  generalize hbefore : store.mutation? m'.id = before at hcases
  cases hcases with
  | same => exact ⟨m', Table.mem_of_get? hbefore, .refl m', .inl rfl⟩
  | claimed hevent hclaim =>
    subst hevent
    exact absurd hskill (h.2 _ hclaim)
  | requeued hflight hidentity =>
    exact ⟨_, Table.mem_of_get? hbefore, hidentity, .inr hflight⟩
  | settled _ _ hflight hidentity =>
    exact ⟨_, Table.mem_of_get? hbefore, hidentity, .inr hflight⟩
  | superseded hevent _ hidentity =>
    rw [← hidentity.skillId, hskill, h.1] at hevent
    cases hevent
  | enqueued hevent =>
    rw [hskill, h.1] at hevent
    cases hevent

/-! ## The line stands still -/

/-- The line of the skill between the first store and a later one. -/
structure SameLine (skillId : String) (start store : LocalStore) : Prop where
  kept : ∀ m ∈ start.mutations, m.skillId = skillId → m.state ≠ .acked → m.state ≠ .inFlight →
    m ∈ store.mutations
  old : ∀ m ∈ store.mutations, m.skillId = skillId →
    ∃ m₀ ∈ start.mutations, SameIdentity m₀ m ∧ (m₀.state = .acked → m.state = .acked)

theorem SameLine.refl (skillId : String) (store : LocalStore) : SameLine skillId store store :=
  ⟨fun _ hm _ _ _ ↦ hm, fun m hm _ ↦ ⟨m, hm, .refl m, id⟩⟩

theorem SameLine.step {start : LocalStore} (hline : SameLine skillId start store)
    (h : LeavesLine skillId store event) (hstep : eventStep host store event = some store') :
    SameLine skillId start store' where
  kept m hm hskill hopen hflight :=
    h.forward hstep (hline.kept m hm hskill hopen hflight) hskill hopen hflight
  old m' hm' hskill := by
    obtain ⟨m, hm, hidentity, hmoved⟩ := h.backward hstep hm' hskill
    obtain ⟨m₀, hm₀, hidentity₀, hacked⟩ := hline.old m hm (hidentity.skillId.symm.trans hskill)
    refine ⟨m₀, hm₀, hidentity₀.trans hidentity, fun hacked₀ ↦ ?_⟩
    rcases hmoved with rfl | hflight
    · exact hacked hacked₀
    · rw [hacked hacked₀] at hflight
      cases hflight

/-- The line is closed by a rejection, or the row still has its name under a protected
label. -/
def KeepsName (skillId name slug : String) (store : LocalStore) : Prop :=
  (∃ m ∈ store.mutations, m.skillId = skillId ∧ m.state.isRejected = true) ∨
    ∃ row, store.skill? skillId = some row ∧ row.syncState.isProtected = true ∧
      row.name = name ∧ row.slug = slug

theorem LocalSkill.settle_of_unacked (row : LocalSkill) : row.settle true = row := by
  simp [settle]

theorem LocalSkill.mergeUpsert_of_protected (row : LocalSkill) (change : ChangeItem)
    (h : row.syncState.isProtected = true) :
    (row.mergeUpsert change).syncState = .conflict ∧ (row.mergeUpsert change).name = row.name ∧
      (row.mergeUpsert change).slug = row.slug := by
  simp [mergeUpsert, pulledState, h]

theorem KeepsName.step {name slug : String} (hname : KeepsName skillId name slug store)
    (h : LeavesLine skillId store event) (hstep : eventStep host store event = some store')
    (hbefore : store.hasUnacked skillId = true) (hafter : store'.hasUnacked skillId = true) :
    KeepsName skillId name slug store' := by
  rcases hname with ⟨m, hm, hskill, hrejected⟩ | ⟨row, hrow, hprotected, rfl, rfl⟩
  · have hopen : m.state ≠ .acked := fun hacked ↦ by rw [hacked] at hrejected; cases hrejected
    have hflight : m.state ≠ .inFlight := fun hflight ↦ by rw [hflight] at hrejected; cases hrejected
    exact .inl ⟨m, h.forward hstep hm hskill hopen hflight, hskill, hrejected⟩
  have hundecided : event.decides skillId = true → KeepsName skillId row.name row.slug store' :=
    fun hdecides ↦ by
      rw [h.1] at hdecides
      cases hdecides
  have hcases := eventStep_row hstep skillId
  rw [hrow] at hcases
  generalize hput : store'.skill? skillId = after at hcases
  have hkept : ∀ row', after = some row' → row'.syncState.isProtected = true →
      row'.name = row.name → row'.slug = row.slug → KeepsName skillId row.name row.slug store' :=
    fun row' hrow' hlabel hn hs ↦ .inr ⟨row', hput.trans hrow', hlabel, hn, hs⟩
  cases hcases with
  | same => exact hkept row rfl hprotected rfl rfl
  | relabelled hfree =>
    rw [hprotected] at hfree
    cases hfree
  | hydrated _ hmirror =>
    rcases hmirror with hlabel | hlabel <;> rw [hlabel] at hprotected <;> cases hprotected
  | saved hevent hskill => exact hundecided (by rw [hevent]; exact decide_eq_true hskill)
  | queuedDelete hevent => exact hundecided (by rw [hevent]; exact decide_eq_true rfl)
  | acknowledged =>
    rw [hafter, LocalSkill.settle_of_unacked] at hput
    exact .inr ⟨_, hput, hprotected, rfl, rfl⟩
  | conflicted => exact hkept _ rfl rfl rfl rfl
  | rejected _ _ _ _ _ hrejected =>
    obtain ⟨m, hm, hskill, hstate⟩ := hrejected
    exact .inl ⟨m, hm, hskill, decide_eq_true hstate⟩
  | keptLocal hevent => exact hundecided (by rw [hevent]; exact decide_eq_true rfl)
  | keptRemote hevent => exact hundecided (by rw [hevent]; exact decide_eq_true rfl)
  | upserted =>
    obtain ⟨hlabel, hn, hs⟩ := row.mergeUpsert_of_protected _ hprotected
    exact hkept _ rfl (by rw [hlabel]; rfl) hn hs
  | buried => exact hkept _ rfl rfl rfl rfl
  | removed _ _ _ _ _ hacked =>
    rw [hbefore] at hacked
    cases hacked

end

/-! ## Whole runs -/

/-- The line of the skill has not moved since the first store, and the row has kept its
name. -/
structure LineHeld (skillId name slug : String) (start store : LocalStore) : Prop where
  line : SameLine skillId start store
  name : KeepsName skillId name slug store

section

variable {host : Host} {start store store' : LocalStore} {skillId name slug : String}

/-- Something of the skill waits in line. -/
def Waits (skillId : String) (store : LocalStore) : Prop :=
  ∃ m ∈ store.mutations, m.skillId = skillId ∧ m.state.isQueued = true

theorem SameLine.hasUnacked (hline : SameLine skillId start store) (hwaits : Waits skillId start) :
    store.hasUnacked skillId = true := by
  obtain ⟨m, hm, hskill, hqueued⟩ := hwaits
  have hopen : m.state ≠ .acked := fun hacked ↦ by rw [hacked] at hqueued; cases hqueued
  have hflight : m.state ≠ .inFlight := fun hflight ↦ by rw [hflight] at hqueued; cases hqueued
  exact hasUnacked_iff.mpr ⟨m, hline.kept m hm hskill hopen hflight, hskill, hopen⟩

theorem LineHeld.event {event : StoreEvent} (hheld : LineHeld skillId name slug start store)
    (hwaits : Waits skillId start) (h : LeavesLine skillId store event)
    (hstep : eventStep host store event = some store') :
    LineHeld skillId name slug start store' := by
  have hline := hheld.line.step h hstep
  exact ⟨hline, hheld.name.step h hstep (hheld.line.hasUnacked hwaits) (hline.hasUnacked hwaits)⟩

theorem StepLeavesLine.events {action : StoreAction} (h : StepLeavesLine skillId store action) :
    (LocalStore.events host).EachStep (LeavesLine skillId) store action.events := by
  have hquiet : ∀ event : StoreEvent, (∀ operation, event ≠ .operation operation) →
      ∀ s, LeavesLine skillId s event := by
    intro event hevent s
    cases event with
    | operation operation => exact absurd rfl (hevent operation)
    | _ => exact ⟨rfl, fun _ hm ↦ absurd hm List.not_mem_nil⟩
  have hsingle : LeavesLine skillId store (.operation action) := h
  cases action with
  | applyChangesPage now utcNow page =>
    refine TransitionSystem.eachStep_of_forall (fun event hmem ↦ hquiet event ?_) store
    rintro operation rfl
    rcases List.mem_append.mp hmem with hchange | hcursor
    · obtain ⟨change, -, hevent⟩ := List.mem_flatMap.mp hchange
      simp [ChangeItem.events] at hevent
    · simp at hcursor
  | _ => exact fun _ _ ↦ ⟨hsingle, trivial⟩

theorem LineHeld.step {action : StoreAction} (hheld : LineHeld skillId name slug start store)
    (hwaits : Waits skillId start) (h : StepLeavesLine skillId store action)
    (hstep : storeStep host store action = some store') :
    LineHeld skillId name slug start store' := by
  rw [← run_action_events] at hstep
  exact h.events.run (fun _ _ _ hs hquiet hnext ↦ hs.event hwaits hquiet hnext) hheld hstep

/-- A run that leaves the line alone holds it. -/
theorem run_lineHeld {actions : List StoreAction} (hwaits : Waits skillId start)
    (hname : KeepsName skillId name slug start)
    (hquiet : (system host).EachStep (StepLeavesLine skillId) start actions)
    (hrun : (system host).run start actions = some store) :
    LineHeld skillId name slug start store :=
  hquiet.run (fun _ _ _ hs h hstep ↦ hs.step hwaits h hstep) ⟨.refl skillId start, hname⟩ hrun

end

end LocalStore

end SkillHive
