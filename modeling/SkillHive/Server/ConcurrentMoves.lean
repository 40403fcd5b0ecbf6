import SkillHive.Server.GroupTree

/-!
# Moves that overlap

A request that moves a group reads the tree and writes the parent later, in statements that
nothing serializes: the session takes no lock before it reads. Any number of moves may be
between their checks and their writes, and other requests commit in between. A write keeps
the tree exactly when the check would still pass in the state that it writes to.
-/

namespace SkillHive

open Foundation

namespace Server

open GroupService

/-- A move between its check and its write: the parent that was loaded, and the new one. -/
structure PendingMove where
  groupId : RowId
  loadedParentId : Option RowId
  parentId : Option RowId
  deriving DecidableEq, Repr

/-- The statements of a move up to its commit. -/
def checkMove (db : Community) (userId groupId : RowId) (parentGroupId : Option RowId) :
    Except ServerError PendingMove := do
  let (group, role) ← managerContext db userId groupId
  let moved ← moveGroup db userId group role (some parentGroupId)
  .ok { groupId := group.id, loadedParentId := group.parentId, parentId := moved.parentId }

/-- `UPDATE groups SET parent_id`, which is not sent for a parent that did not change. -/
def PendingMove.write (db : Community) (move : PendingMove) : Community :=
  if move.parentId = move.loadedParentId then db
  else
    match db.groups.get? move.groupId with
    | none => db
    | some group => db.saveGroup { group with parentId := move.parentId }

section System

variable (ι : Type) [DecidableEq ι]

/-- The committed rows and the moves under way, by their sessions. -/
structure MoveState where
  db : Community
  pending : ι → Option PendingMove

inductive MoveAction where
  | check (session : ι) (userId groupId : RowId) (parentGroupId : Option RowId)
  | write (session : ι)
  /-- Another request, from its first statement to its commit. -/
  | request (action : GroupAction)

variable {ι}

def MoveState.step (s : MoveState ι) : MoveAction ι → Option (MoveState ι)
  | .check session userId groupId parentGroupId =>
    if s.pending session = none then
      let move := (checkMove s.db userId groupId parentGroupId).toOption
      some { s with pending := Function.update s.pending session move }
    else none
  | .write session =>
    (s.pending session).map fun move ↦
      { db := move.write s.db, pending := Function.update s.pending session none }
  | .request action => some { s with db := action.next s.db }

variable (ι) in
/-- The moves of the sessions on any community that the services lead to. -/
def concurrentMoves : TransitionSystem (MoveState ι) (MoveAction ι) where
  init s := groupService.Reachable s.db ∧ ∀ session, s.pending session = none
  step := MoveState.step

/-- A write that changes the parent of a group meets a tree in which the check would pass. -/
def ChecksAgain (s : MoveState ι) : MoveAction ι → Prop
  | .write session => ∀ move ∈ s.pending session, move.parentId ≠ move.loadedParentId →
      ∀ parentId ∈ move.parentId, FitsUnder s.db move.groupId parentId
  | _ => True

instance (s : MoveState ι) : (action : MoveAction ι) → Decidable (ChecksAgain s action)
  | .check _ _ _ _ => inferInstanceAs (Decidable True)
  | .write session => inferInstanceAs (Decidable (∀ move ∈ s.pending session,
      move.parentId ≠ move.loadedParentId →
        ∀ parentId ∈ move.parentId, FitsUnder s.db move.groupId parentId))
  | .request _ => inferInstanceAs (Decidable True)

end System

/-! ## The rows that a move names -/

section Steps

variable {ι : Type} [DecidableEq ι] {db db' : Community} {move : PendingMove}
  {s s' : MoveState ι} {action : MoveAction ι}

/-- The group of a move and its new parent are stored. -/
structure PendingMove.Stored (db : Community) (move : PendingMove) : Prop where
  group : (db.groups.get? move.groupId).isSome
  parent : ∀ parentId, move.parentId = some parentId → (db.groups.get? parentId).isSome

/-- No request deletes a row of a group. -/
def KeepsGroups (db db' : Community) : Prop :=
  ∀ groupId, (db.groups.get? groupId).isSome → (db'.groups.get? groupId).isSome

theorem KeepsGroups.of_groups (h : db'.groups = db.groups) : KeepsGroups db db' :=
  fun _ hgroup ↦ h ▸ hgroup

theorem KeepsGroups.of_update {group : GroupRow} (hgroups : db'.groups.get? =
      Function.update db.groups.get? group.id (some group)) : KeepsGroups db db' := by
  intro groupId hgroup
  rw [hgroups, Function.update_apply]
  split
  · rfl
  · exact hgroup

theorem keepsGroups_of_effect {action : GroupAction} (heffect : GroupEffect db action db') :
    KeepsGroups db db' := by
  cases heffect with
  | kept hgroups hmembers => exact .of_groups hgroups
  | created group owner hgroups hmembers howner hrole hactive hstatus hplaced =>
    exact .of_update (Table.get?_insert?_eq_update hgroups)
  | changed old group hold howner hgroups hmembers hchange =>
    exact .of_update (groups_update hold hgroups)
  | reassigned old member hold hrole hmember hgroups hmembers => exact .of_groups hgroups
  | activated member hactivates hrole hgroups hmembers => exact .of_groups hgroups
  | transferred old group target hold howner hparent hstatus htarget hgroups hmembers =>
    exact .of_update (groups_update hold hgroups)

theorem keepsGroups_next (db : Community) (action : GroupAction) : KeepsGroups db (action.next db) := by
  unfold GroupAction.next
  cases happly : action.apply db with
  | error e => exact fun _ hgroup ↦ hgroup
  | ok db' => exact keepsGroups_of_effect (GroupAction.apply_effect happly)

/-- A write that is sent gives its group the new parent. -/
theorem groups_write (hstored : move.Stored db) (hne : move.parentId ≠ move.loadedParentId) :
    ∃ group : GroupRow, group.id = move.groupId ∧ group.parentId = move.parentId ∧
      (move.write db).groups.get? = Function.update db.groups.get? group.id (some group) := by
  obtain ⟨old, hold⟩ := Option.isSome_iff_exists.mp hstored.group
  have hkey : old.key = move.groupId := Table.key_of_get? hold
  obtain ⟨group, hgroup⟩ : ∃ group : GroupRow, { old with parentId := move.parentId } = group :=
    ⟨_, rfl⟩
  have hid : group.id = move.groupId := hgroup ▸ hkey
  have hwrite : (move.write db).groups = db.groups.replace group := by
    unfold PendingMove.write
    rw [if_neg hne, hold, ← hgroup]
    rfl
  exact ⟨group, hid, hgroup ▸ rfl, groups_update (hid ▸ hold) hwrite⟩

theorem keepsGroups_write (hstored : move.Stored db) : KeepsGroups db (move.write db) := by
  by_cases heq : move.parentId = move.loadedParentId
  · exact .of_groups (by rw [PendingMove.write, if_pos heq])
  · obtain ⟨group, -, -, hgroups⟩ := groups_write hstored heq
    exact .of_update hgroups

theorem PendingMove.Stored.mono (hstored : move.Stored db) (hkeeps : KeepsGroups db db') :
    move.Stored db' :=
  ⟨hkeeps _ hstored.group, fun parentId hparent ↦ hkeeps _ (hstored.parent parentId hparent)⟩

theorem stored_of_checkMove {userId groupId : RowId} {parentGroupId : Option RowId}
    (h : checkMove db userId groupId parentGroupId = .ok move) : move.Stored db := by
  obtain ⟨⟨group, role⟩, hcontext, h⟩ := bind_eq_ok.mp h
  obtain ⟨moved, hmove, h⟩ := bind_eq_ok.mp h
  obtain ⟨-, -, hmove⟩ := bind_eq_ok.mp hmove
  obtain ⟨rfl, hcheck⟩ := applyParent_eq_ok hmove
  cases h
  obtain ⟨hget, hid, -⟩ := activeGroup?_eq_some (managerContext_eq_ok hcontext)
  refine ⟨?_, fun parentId hparent ↦ (fitsUnder_of_checkParent (hcheck parentId hparent)).2⟩
  have hself : db.groups.get? group.id = some group := hid ▸ hget
  exact Option.isSome_of_eq_some hself

/-- Every move under way names stored groups. -/
def PendingStored (s : MoveState ι) : Prop :=
  ∀ session, ∀ move ∈ s.pending session, move.Stored s.db

theorem PendingStored.step (hpending : PendingStored s) (hstep : s.step action = some s') :
    PendingStored s' := by
  cases action with
  | check session userId groupId parentGroupId =>
    obtain ⟨-, hstep⟩ := Option.ite_none_right_eq_some.mp hstep
    cases hstep
    intro other move hmove
    simp only [Function.update_apply] at hmove
    split at hmove
    case isTrue => exact stored_of_checkMove (toOption_eq_some.mp hmove)
    case isFalse => exact hpending other move hmove
  | write session =>
    obtain ⟨move, hmove, rfl⟩ := Option.map_eq_some_iff.mp hstep
    intro other left hleft
    simp only [Function.update_apply] at hleft
    split at hleft
    case isTrue => cases hleft
    case isFalse =>
      exact (hpending other left hleft).mono (keepsGroups_write (hpending session move hmove))
  | request action =>
    cases hstep
    exact fun other move hmove ↦ (hpending other move hmove).mono (keepsGroups_next s.db action)

/-! ## One step -/

/-- A write keeps the tree exactly when its parent is unchanged or the check would pass again. -/
theorem groupForest_write_iff (hforest : GroupForest db) (hstored : move.Stored db) :
    GroupForest (move.write db) ↔ (move.parentId ≠ move.loadedParentId →
      ∀ parentId ∈ move.parentId, FitsUnder db move.groupId parentId) := by
  by_cases heq : move.parentId = move.loadedParentId
  · rw [PendingMove.write, if_pos heq]
    exact iff_of_true hforest fun hne ↦ absurd heq hne
  · obtain ⟨group, hid, hgroupParent, hgroups⟩ := groups_write hstored heq
    have hcarries : ∀ parentId, move.parentId = some parentId →
        (FitsUnder db move.groupId parentId ↔
          Carries db.parentOf maxGroupDepth group.id parentId) := by
      intro parentId hparent
      rw [hid]
      exact hforest.fitsUnder_iff hstored.group (hstored.parent parentId hparent)
    constructor
    · intro hafter _ parentId hparent
      have hbounded := hafter.bounded
      rw [parentOf_update hgroups, hgroupParent, hparent] at hbounded
      exact (hcarries parentId hparent).mpr ((bounded_update_some_iff hforest.bounded).mp hbounded)
    · intro hchecks
      refine hforest.of_update hgroups fun parentId hparent ↦ ?_
      have hparent := hgroupParent.symm.trans hparent
      exact ⟨(hcarries parentId hparent).mp (hchecks heq parentId hparent),
        hstored.parent parentId hparent⟩

theorem groupForest_step_iff (hpending : PendingStored s) (hforest : GroupForest s.db)
    (hstep : s.step action = some s') : GroupForest s'.db ↔ ChecksAgain s action := by
  cases action with
  | check session userId groupId parentGroupId =>
    obtain ⟨-, hstep⟩ := Option.ite_none_right_eq_some.mp hstep
    cases hstep
    exact iff_of_true hforest trivial
  | write session =>
    obtain ⟨move, hmove, rfl⟩ := Option.map_eq_some_iff.mp hstep
    have hiff := groupForest_write_iff hforest (hpending session move hmove)
    rw [hiff, ChecksAgain, hmove]
    simp only [Option.mem_some_iff, forall_eq']
  | request action =>
    cases hstep
    have hnext : groupService.step s.db action = some (action.next s.db) := rfl
    exact iff_of_true (hforest.step hnext) trivial

end Steps

/-! ## Every run -/

/-- In a run of moves that overlap, from any community that the services lead to, the tree and
its queries are sound in every state exactly when every write meets a tree in which its check
would pass. -/
theorem always_treeSound_iff_checksAgain {ι : Type} [DecidableEq ι] {s : MoveState ι}
    (hinit : (concurrentMoves ι).init s) (actions : List (MoveAction ι)) :
    (concurrentMoves ι).Always (fun s ↦ TreeSound s.db) s actions ↔
      (concurrentMoves ι).EachStep ChecksAgain s actions := by
  obtain ⟨hreachable, hnone⟩ := hinit
  have hforest : GroupForest s.db :=
    hreachable.invariant (fun _ ↦ GroupForest.of_init) fun _ _ _ hforest hstep ↦ hforest.step hstep
  refine TransitionSystem.always_iff_eachStep (I := PendingStored)
    (fun _ _ _ hpending hstep ↦ hpending.step hstep)
    (fun s action s' hpending hsound hstep ↦ ?_) (fun session move hmove ↦ ?_) hforest.treeSound
  · rw [treeSound_iff]
    exact groupForest_step_iff hpending (treeSound_iff.mp hsound) hstep
  · rw [hnone session] at hmove
    cases hmove

namespace Sample

/-- Two groups, neither below the other. -/
def siblingRun : List GroupAction :=
  [.create (groupContext 0 teamId) founderId (openGroup none),
    .create (groupContext 1 childId) founderId (openGroup none)]

def siblings : Community := (groupService.run community siblingRun).getD community

/-- No move is under way. -/
def siblingState : MoveState Bool where
  db := siblings
  pending _ := none

theorem init_siblingState : (concurrentMoves Bool).init siblingState := by
  have hrun : groupService.run community siblingRun = some siblings :=
    TransitionSystem.run_eq_some_getD (by decide +kernel)
  exact ⟨⟨community, siblingRun, init_community, hrun⟩, fun _ ↦ rfl⟩

/-- Each of the groups is moved below the other one, both checks before both writes. -/
def crossedMoves : List (MoveAction Bool) :=
  [.check false founderId teamId (some childId), .check true founderId childId (some teamId),
    .write false, .write true]

end Sample

/-- One move after the other: the second check finds the group below its own subtree. -/
theorem always_treeSound_serialMoves :
    (concurrentMoves Bool).Always (fun s ↦ TreeSound s.db) Sample.siblingState
      [.check false Sample.founderId Sample.teamId (some Sample.childId), .write false,
        .check true Sample.founderId Sample.childId (some Sample.teamId)] :=
  (always_treeSound_iff_checksAgain Sample.init_siblingState _).mpr (by decide +kernel)

/-- Both moves pass their checks, and each group ends below the other. -/
theorem crossedMoves_cycle :
    (concurrentMoves Bool).init Sample.siblingState ∧
      ¬ (concurrentMoves Bool).Always (fun s ↦ TreeSound s.db) Sample.siblingState
        Sample.crossedMoves ∧
      ∃ s, (concurrentMoves Bool).run Sample.siblingState Sample.crossedMoves = some s ∧
        ancestor s.db.parentOf 2 Sample.teamId = some Sample.teamId ∧
        s.db.ancestorIds? (GroupService.rounds s.db) Sample.teamId = none := by
  have hfinal : ((concurrentMoves Bool).run Sample.siblingState Sample.crossedMoves).any
      (fun s ↦ ancestor s.db.parentOf 2 Sample.teamId = some Sample.teamId ∧
        s.db.ancestorIds? (GroupService.rounds s.db) Sample.teamId = none) = true := by
    decide +kernel
  obtain ⟨s, hrun, hchecks⟩ := (Option.any_eq_true _ _).mp hfinal
  obtain ⟨hcycle, hendless⟩ := of_decide_eq_true hchecks
  refine ⟨Sample.init_siblingState, fun halways ↦ ?_, s, hrun, hcycle, hendless⟩
  exact (halways.last hrun).acyclic 2 Sample.teamId Nat.two_pos hcycle

end Server

end SkillHive
