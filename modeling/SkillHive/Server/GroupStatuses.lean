import SkillHive.Server.GroupTree

/-!
# Active groups below active groups

Roles are inherited along chains of active groups. The group service keeps every active
group below an active parent: it hangs groups under active ones only, and it does not dissolve
a group that has active children. The administrator's change of a status asks neither.
-/

namespace SkillHive

open Foundation

namespace Server

open GroupService

/-- The parent of every active group is active. -/
def ActiveBelowActive (db : Community) : Prop :=
  ∀ groupId, ∀ group ∈ db.activeGroup? groupId, ∀ parentId, group.parentId = some parentId →
    (db.activeGroup? parentId).isSome

/-- The group may get the status: to be active it needs an active parent, when it has one, and to
be inactive it may have no active children. -/
def SparesBranch (db : Community) (groupId : RowId) (status : GroupStatus) : Prop :=
  ∀ group ∈ db.groups.get? groupId,
    (status = .active → ∀ parentId ∈ group.parentId, (db.activeGroup? parentId).isSome) ∧
      (status ≠ .active → db.activeChildCount groupId = 0)

instance (db : Community) (groupId : RowId) (status : GroupStatus) :
    Decidable (SparesBranch db groupId status) :=
  inferInstanceAs (Decidable (∀ group ∈ db.groups.get? groupId, (_ → _) ∧ (_ → _)))

/-- The group whose status a request of an administrator sets, and the status. -/
def GroupAction.setsStatus? : GroupAction → Option (RowId × GroupStatus)
  | .setGroupStatus _ groupId status => some (groupId, status)
  | _ => none

/-- An administrator gives a group only a status that it may get. -/
def SparesBranches (db : Community) (action : GroupAction) : Prop :=
  ∀ set ∈ action.setsStatus?, SparesBranch db set.1 set.2

instance (db : Community) (action : GroupAction) : Decidable (SparesBranches db action) :=
  inferInstanceAs (Decidable (∀ set ∈ action.setsStatus?, SparesBranch db set.1 set.2))

section Steps

variable {db db' : Community} {action : GroupAction} {groupId : RowId} {group old : GroupRow}

theorem activeGroup?_update (hgroups : db'.groups.get? =
      Function.update db.groups.get? group.id (some group)) (groupId : RowId) :
    db'.activeGroup? groupId =
      if groupId = group.id then (some group).filter fun group ↦ group.status = .active
      else db.activeGroup? groupId := by
  rw [Community.activeGroup?, hgroups, Function.update_apply]
  split <;> rfl

/-- The active children of a group are counted by the rows that are looked up. -/
theorem activeChildCount_eq_zero : db.activeChildCount groupId = 0 ↔
    ∀ childId, ∀ child ∈ db.activeGroup? childId, child.parentId ≠ some groupId := by
  rw [Community.activeChildCount, List.countP_eq_zero]
  constructor
  · intro h childId child hchild hparent
    obtain ⟨hstored, -, hactive⟩ := activeGroup?_eq_some hchild
    exact h child (Table.mem_of_get? hstored) (decide_eq_true ⟨hparent, hactive⟩)
  · intro h child hchild hcounted
    obtain ⟨hparent, hactive⟩ := of_decide_eq_true hcounted
    refine h child.key child (Option.filter_eq_some_iff.mpr ⟨?_, decide_eq_true hactive⟩) hparent
    exact Table.get?_eq_some_iff.mpr ⟨hchild, rfl⟩

theorem ActiveBelowActive.of_init (h : groupService.init db) : ActiveBelowActive db := by
  intro groupId group hgroup
  have hget := (activeGroup?_eq_some hgroup).1
  rw [h.1] at hget
  cases hget

theorem ActiveBelowActive.of_groups (hactive : ActiveBelowActive db)
    (hgroups : db'.groups = db.groups) : ActiveBelowActive db' := by
  have hsame : db'.activeGroup? = db.activeGroup? := by
    funext groupId
    rw [Community.activeGroup?, hgroups, Community.activeGroup?]
  unfold ActiveBelowActive
  rw [hsame]
  exact hactive

/-- A written group keeps the relation when its parent is active and it is active itself or has
no active child. -/
theorem ActiveBelowActive.of_update (hactive : ActiveBelowActive db) (hgroups : db'.groups.get? =
      Function.update db.groups.get? group.id (some group))
    (habove : group.status = .active → ∀ parentId, group.parentId = some parentId →
      (db.activeGroup? parentId).isSome)
    (hbelow : group.status = .active ∨ db.activeChildCount group.id = 0) :
    ActiveBelowActive db' := by
  have hlookup := activeGroup?_update hgroups
  intro childId child hchild parentId hparent
  rw [hlookup] at hchild ⊢
  by_cases hself : childId = group.id
  · rw [if_pos hself] at hchild
    obtain ⟨hsome, hstatus⟩ := Option.filter_eq_some_iff.mp hchild
    cases hsome
    split
    · rw [hchild, Option.isSome_some]
    · exact habove (of_decide_eq_true hstatus) parentId hparent
  · rw [if_neg hself] at hchild
    split
    case isTrue hid =>
      rcases hbelow with hstatus | hchildless
      · rw [Option.filter_some, if_pos (decide_eq_true hstatus), Option.isSome_some]
      · exact absurd (hid ▸ hparent) (activeChildCount_eq_zero.mp hchildless childId child hchild)
    case isFalse => exact hactive childId child hchild parentId hparent

/-- No active group is below a group that is not active. -/
theorem ActiveBelowActive.childless (hactive : ActiveBelowActive db)
    (hnone : db.activeGroup? groupId = none) : db.activeChildCount groupId = 0 := by
  refine activeChildCount_eq_zero.mpr fun childId child hchild hparent ↦ ?_
  have hparent := hactive childId child hchild groupId hparent
  rw [hnone] at hparent
  cases hparent

/-- A group that keeps its status, and its parent or gets an active one. -/
theorem ActiveBelowActive.of_same_status (hactive : ActiveBelowActive db)
    (hold : db.groups.get? group.id = some old) (hgroups : db'.groups = db.groups.replace group)
    (hstatus : group.status = old.status)
    (hparent : group.parentId = old.parentId ∨
      ∀ parentId, group.parentId = some parentId → (db.activeGroup? parentId).isSome) :
    ActiveBelowActive db' := by
  refine hactive.of_update (groups_update hold hgroups) (fun hgroup parentId hid ↦ ?_) ?_
  · rcases hparent with hsame | hplaced
    · have hlookup : db.activeGroup? group.id = some old :=
        Option.filter_eq_some_iff.mpr ⟨hold, decide_eq_true (hstatus ▸ hgroup)⟩
      exact hactive group.id old hlookup parentId (hsame ▸ hid)
    · exact hplaced parentId hid
  · by_cases hgroup : group.status = .active
    · exact .inl hgroup
    · refine .inr (hactive.childless ?_)
      rw [Community.activeGroup?, hold, Option.filter_some, if_neg]
      exact fun h ↦ hgroup (hstatus.trans (of_decide_eq_true h))

/-- A request of a user keeps active groups below active ones. -/
theorem ActiveBelowActive.of_effect (hactive : ActiveBelowActive db)
    (heffect : GroupEffect db action db') (hnone : action.setsStatus? = none) :
    ActiveBelowActive db' := by
  cases heffect with
  | kept hgroups hmembers => exact hactive.of_groups hgroups
  | created group owner hgroups hmembers howner hrole hnew hstatus hplaced =>
    refine hactive.of_update (Table.get?_insert?_eq_update hgroups) (fun _ parentId hparent ↦ ?_)
      (.inl hstatus)
    exact (hplaced parentId hparent).1
  | changed old group hold howner hgroups hmembers hchange =>
    cases hchange with
    | edited hparent hstatus => exact hactive.of_same_status hold hgroups hstatus (.inl hparent)
    | moved hmoved hstatus hplaced =>
      refine hactive.of_same_status hold hgroups hstatus (.inr fun parentId hparent ↦ ?_)
      obtain ⟨userId, hcheck⟩ := hplaced parentId hparent
      obtain ⟨-, -, hcheck⟩ := bind_eq_ok.mp hcheck
      obtain ⟨parent, hactiveParent, -⟩ := bind_eq_ok.mp hcheck
      rw [okOr_eq_ok.mp hactiveParent, Option.isSome_some]
    | dissolved hparent hstatus hchildless =>
      refine hactive.of_update (groups_update hold hgroups) (fun hgroup ↦ ?_) (.inr hchildless)
      rw [hstatus] at hgroup
      cases hgroup
    | administered now status haction hparent hstatus =>
      rw [haction] at hnone
      cases hnone
  | reassigned old member hold hrole hmember hgroups hmembers => exact hactive.of_groups hgroups
  | activated member hactivates hrole hgroups hmembers => exact hactive.of_groups hgroups
  | transferred old group target hold howner hparent hstatus htarget hgroups hmembers =>
    exact hactive.of_same_status hold hgroups hstatus (.inl hparent)

/-- An administrator's status keeps active groups below active ones exactly when the group may
get it. -/
theorem activeBelowActive_setGroupStatus_iff {now : ℕ} {status : GroupStatus}
    (hforest : GroupForest db) (hactive : ActiveBelowActive db)
    (hset : AdminService.setGroupStatus db now groupId status = .ok db') :
    ActiveBelowActive db' ↔ SparesBranch db groupId status := by
  obtain ⟨old, group, rfl, hold, rfl, -, hparentId, rfl⟩ := setGroupStatus_eq_ok hset
  have hsaved : (db.saveGroup group).groups = db.groups.replace group := rfl
  have hlookup := activeGroup?_update (groups_update hold hsaved)
  -- No group is its own parent.
  have hother : ∀ {childId parentId}, db.parentOf childId = some parentId → childId ≠ parentId := by
    rintro childId _ hparent rfl
    refine hforest.bounded.acyclic Nat.one_pos childId ?_
    rw [ancestor_succ, hparent]
    rfl
  constructor
  · intro hafter old' hold'
    cases hold.symm.trans hold'
    refine ⟨fun hstatus parentId hparent ↦ ?_, fun hstatus ↦ ?_⟩
    · have hself : (db.saveGroup group).activeGroup? group.id = some group := by
        rw [hlookup, if_pos rfl, Option.filter_some, if_pos (decide_eq_true hstatus)]
      have hne := hother (parentOf_eq_some.mpr ⟨old, hold, hparent⟩)
      have habove := hafter group.id group hself parentId (hparentId.trans hparent)
      rw [hlookup, if_neg hne.symm] at habove
      exact habove
    · refine activeChildCount_eq_zero.mpr fun childId child hchild hparent ↦ ?_
      have hne := hother (parentOf_eq_some.mpr ⟨child, (activeGroup?_eq_some hchild).1, hparent⟩)
      have hsame : (db.saveGroup group).activeGroup? childId = some child := by
        rw [hlookup, if_neg hne]
        exact hchild
      have habove := hafter childId child hsame group.id hparent
      rw [hlookup, if_pos rfl, Option.filter_some, if_neg (by simpa using hstatus)] at habove
      cases habove
  · intro hspares
    obtain ⟨habove, hbelow⟩ := hspares old hold
    refine hactive.of_update (groups_update hold rfl) (fun hstatus parentId hparent ↦ ?_) ?_
    · exact habove hstatus parentId (hparentId.symm.trans hparent)
    · by_cases hstatus : group.status = .active
      · exact .inl hstatus
      · exact .inr (hbelow hstatus)

theorem activeBelowActive_step_iff (hforest : GroupForest db) (hactive : ActiveBelowActive db)
    (hstep : groupService.step db action = some db') :
    ActiveBelowActive db' ↔ SparesBranches db action := by
  cases hstep
  unfold SparesBranches GroupAction.next
  cases hset : action.setsStatus? with
  | none =>
    refine iff_of_true ?_ fun set hmem ↦ (Option.not_mem_none set hmem).elim
    cases happly : action.apply db with
    | error e => exact hactive
    | ok db' => exact hactive.of_effect (GroupAction.apply_effect happly) hset
  | some set =>
    unfold GroupAction.setsStatus? at hset
    split at hset
    case h_2 => cases hset
    case h_1 now groupId status =>
      cases hset
      simp only [Option.mem_some_iff, forall_eq']
      change ActiveBelowActive ((AdminService.setGroupStatus db now groupId status).toOption.getD db) ↔
        SparesBranch db groupId status
      cases happly : AdminService.setGroupStatus db now groupId status with
      | ok db' => exact activeBelowActive_setGroupStatus_iff hforest hactive happly
      | error e =>
        refine iff_of_true hactive fun group hgroup ↦ ?_
        rw [AdminService.setGroupStatus, Option.mem_def.mp hgroup] at happly
        cases happly

end Steps

/-! ## Every run -/

/-- From a community without groups on, every active group is below an active one in every
state of a run exactly when the administrators of the run give groups only statuses that they
may get. -/
theorem always_activeBelowActive_iff {db : Community} (hinit : groupService.init db)
    (actions : List GroupAction) :
    groupService.Always ActiveBelowActive db actions ↔
      groupService.EachStep SparesBranches db actions :=
  TransitionSystem.always_iff_eachStep (I := GroupForest)
    (fun _ _ _ hforest hstep ↦ hforest.step hstep)
    (fun _ _ _ hforest hactive hstep ↦ activeBelowActive_step_iff hforest hactive hstep)
    (.of_init hinit) (.of_init hinit)

/-- An administrator deletes the lower group, the upper one after it, and brings both back. -/
theorem always_activeBelowActive_iff_leafFirst :
    groupService.Always ActiveBelowActive Sample.community (Sample.nestedRun ++
      [.setGroupStatus 2 Sample.childId .deleted, .setGroupStatus 3 Sample.teamId .archived,
        .setGroupStatus 4 Sample.teamId .active, .setGroupStatus 5 Sample.childId .active]) :=
  (always_activeBelowActive_iff Sample.init_community _).mpr (by decide +kernel)

/-- An administrator deletes a group that has an active child. -/
theorem setGroupStatus_orphans_child :
    groupService.init Sample.community ∧
      ¬ groupService.Always ActiveBelowActive Sample.community
        (Sample.nestedRun ++ [.setGroupStatus 2 Sample.teamId .deleted]) ∧
      ∃ db, groupService.run Sample.community
          (Sample.nestedRun ++ [.setGroupStatus 2 Sample.teamId .deleted]) = some db ∧
        (db.activeGroup? Sample.childId).map (·.parentId) = some (some Sample.teamId) ∧
        (db.groups.get? Sample.teamId).map (·.status) = some .deleted := by
  have hfinal : (groupService.run Sample.community
      (Sample.nestedRun ++ [.setGroupStatus 2 Sample.teamId .deleted])).any (fun db ↦
        (db.activeGroup? Sample.childId).map (·.parentId) = some (some Sample.teamId) ∧
          (db.groups.get? Sample.teamId).map (·.status) = some .deleted) = true := by
    decide +kernel
  obtain ⟨db, hrun, hchecks⟩ := (Option.any_eq_true _ _).mp hfinal
  obtain ⟨hchild, hparent⟩ := of_decide_eq_true hchecks
  refine ⟨Sample.init_community, fun halways ↦ ?_, db, hrun, hchild, hparent⟩
  obtain ⟨child, hactive, hid⟩ := Option.map_eq_some_iff.mp hchild
  obtain ⟨parent, habove⟩ :=
    Option.isSome_iff_exists.mp (halways.last hrun _ child hactive Sample.teamId hid)
  obtain ⟨hget, -, hstatus⟩ := activeGroup?_eq_some habove
  rw [hget, Option.map_some, hstatus] at hparent
  cases hparent

end Server

end SkillHive
