import Mathlib.Data.List.Dedup
import SkillHive.Server.GroupTree

/-!
# Roles along the tree of groups

Who manages a group manages the active groups below it, as far as all groups in between are
active. The role in a group is read off the chains of its ancestors, and the groups that a user
sees are collected downwards from the groups that the user manages. Both are recursive queries;
on a forest they end and agree with the role that the chain of memberships stands for, and so does
the role that a request looks up for a single group.
-/

namespace SkillHive

open Foundation

namespace Server

open Directory (GroupRole.isManager)

/-- A row of `group_role_chain`. -/
structure ChainRow where
  rootId : RowId
  groupId : RowId
  parentId : Option RowId
  deriving DecidableEq

/-- An active group in the chain of a root. -/
def GroupRow.chainRow (rootId : RowId) (group : GroupRow) : ChainRow :=
  ⟨rootId, group.key, group.parentId⟩

/-- A row of the chain with the role that the user has there. -/
structure RoleRow where
  rootId : RowId
  groupId : RowId
  role : GroupRole
  deriving DecidableEq

/-- `own` and `inherited_manager` -/
structure RoleTally where
  own : RowId → Option GroupRole
  inheritedManager : RowId → Bool

namespace RoleTally

/-- One row of the first loop. -/
def count (tally : RoleTally) (row : RoleRow) : RoleTally :=
  if row.groupId = row.rootId then
    { tally with own := Function.update tally.own row.rootId (some row.role) }
  else if GroupRole.isManager row.role then
    { tally with inheritedManager := Function.update tally.inheritedManager row.rootId true }
  else tally

/-- What the second loop stores for a group; without a value it stores nothing. -/
def role? (tally : RoleTally) (groupId : RowId) : Option GroupRole :=
  let role := tally.own groupId
  if role = some .owner then some .owner
  else if role = some .admin ∨ tally.inheritedManager groupId = true then some .admin
  else if role = some .member then some .member
  else none

end RoleTally

/-- The roles that `effective_roles` tells from the rows of its query, as a dictionary. -/
def effectiveRoles (groupIds : List RowId) (rows : List RoleRow) : RowId → Option GroupRole :=
  let tally := rows.foldl RoleTally.count ⟨fun _ ↦ none, fun _ ↦ false⟩
  groupIds.foldl (fun roles groupId ↦
    match tally.role? groupId with
    | some role => Function.update roles groupId (some role)
    | none => roles) fun _ ↦ none

namespace Community

variable (db : Community)

/-! ## The queries -/

/-- The base of `group_role_chain`. -/
def chainBase (groupIds : List RowId) : List ChainRow :=
  (db.groups.rows.filter fun group ↦ group.key ∈ groupIds ∧ group.status = .active).map fun group ↦
    group.chainRow group.key

/-- The active group joined over `parent_id`. -/
def chainParent (row : ChainRow) : Option ChainRow :=
  (row.parentId.bind db.activeGroup?).map (GroupRow.chainRow row.rootId)

/-- The rows of `effective_roles`: the chain joined with the active memberships of the user. -/
def roleRows? (rounds : ℕ) (groupIds : List RowId) (userId : RowId) : Option (List RoleRow) :=
  (recursiveQuery (fun row ↦ (db.chainParent row).toList) rounds (db.chainBase groupIds)).map
    fun chain ↦ chain.flatMap fun row ↦
      ((db.membership? row.groupId userId).map fun member ↦
        RoleRow.mk row.rootId row.groupId member.role).toList

/-- `membership_rows`: the active memberships of the user in active groups. -/
def membershipRows (userId : RowId) : List (RowId × GroupRole) :=
  (db.members.rows.filter fun member ↦ member.userId = userId ∧ member.status = .active ∧
    (db.activeGroup? member.groupId).isSome).map fun member ↦ (member.groupId, member.role)

/-- The active groups joined over their `parent_id`. -/
def activeChildIds (groupId : RowId) : List RowId :=
  (db.groups.rows.filter fun child ↦ child.parentId = some groupId ∧ child.status = .active).map
    GroupRow.key

/-- `visible_group_ids`, ended within the given number of rounds. -/
def visibleGroupIds? (rounds : ℕ) (userId : RowId) : Option (List RowId) :=
  let rows := db.membershipRows userId
  let directIds := rows.map Prod.fst
  let managerIds := (rows.filter fun row ↦ GroupRole.isManager row.2).map Prod.fst
  if managerIds = [] then some directIds
  else
    (recursiveQuery db.activeChildIds rounds
      ((db.groups.rows.filter fun group ↦ group.key ∈ managerIds ∧ group.status = .active).map
        GroupRow.key)).map fun subtree ↦ (directIds ++ subtree).dedup

/-! ## The role that the memberships stand for -/

/-- The second group is the first one or above it, and all from the one to the other are active. -/
inductive ActiveAbove : RowId → RowId → Prop
  | refl {groupId : RowId} {group : GroupRow} (hgroup : db.activeGroup? groupId = some group) :
      ActiveAbove groupId groupId
  | up {groupId parentId ancestorId : RowId} {group : GroupRow}
      (hgroup : db.activeGroup? groupId = some group) (hparent : group.parentId = some parentId)
      (habove : ActiveAbove parentId ancestorId) : ActiveAbove groupId ancestorId

/-- The user is an active owner or admin of the group. -/
def Manages (userId groupId : RowId) : Prop :=
  ∃ member, db.membership? groupId userId = some member ∧ GroupRole.isManager member.role = true

/-- The user manages a group above this one that is reached through active groups only. -/
def Inherits (userId groupId : RowId) : Prop :=
  ∃ group parentId ancestorId, db.activeGroup? groupId = some group ∧
    group.parentId = some parentId ∧ db.ActiveAbove parentId ancestorId ∧
    db.Manages userId ancestorId

open Classical in
/-- The role of the user in an active group: the own one, lifted to `admin` by an inherited one. -/
noncomputable def referenceRole (userId groupId : RowId) : Option GroupRole :=
  let own := (db.membership? groupId userId).map fun member ↦ member.role
  if (db.activeGroup? groupId).isSome then
    if own = some .owner then some .owner
    else if own = some .admin ∨ db.Inherits userId groupId then some .admin
    else if own = some .member then some .member
    else none
  else none

/-- The rows are the memberships above the groups of the request. -/
def ListsRoles (groupIds : List RowId) (userId : RowId) (rows : List RoleRow) : Prop :=
  ∀ row, row ∈ rows ↔ row.rootId ∈ groupIds ∧ db.ActiveAbove row.rootId row.groupId ∧
    ∃ member, db.membership? row.groupId userId = some member ∧ member.role = row.role

end Community

/-! ## The loops -/

namespace RoleTally

variable {rows : List RoleRow} {groupId : RowId}

theorem inheritedManager_foldl (tally : RoleTally) :
    (rows.foldl count tally).inheritedManager groupId = true ↔
      tally.inheritedManager groupId = true ∨ ∃ row ∈ rows, row.rootId = groupId ∧
        row.groupId ≠ groupId ∧ GroupRole.isManager row.role = true := by
  induction rows generalizing tally with
  | nil => simp
  | cons row rows ih =>
    rw [List.foldl_cons, ih, List.exists_mem_cons_iff, ← or_assoc]
    refine or_congr_left ?_
    unfold count
    split
    case isTrue hown =>
      have hother : ¬ (row.rootId = groupId ∧ row.groupId ≠ groupId ∧ GroupRole.isManager row.role = true) :=
        fun h ↦ h.2.1 (hown.trans h.1)
      simp [hother]
    case isFalse hother =>
      by_cases hroot : row.rootId = groupId
      · subst hroot
        by_cases hmanager : GroupRole.isManager row.role = true <;> simp [hmanager, hother]
      · by_cases hmanager : GroupRole.isManager row.role = true <;>
          simp [hmanager, hroot, Function.update_of_ne (Ne.symm hroot)]

/-- The rows of a group for itself all have its role, so their order does not matter. -/
theorem own_foldl (tally : RoleTally) (role : GroupRole)
    (hrole : ∀ row ∈ rows, row.rootId = groupId → row.groupId = groupId → row.role = role) :
    (rows.foldl count tally).own groupId =
      if ∃ row ∈ rows, row.rootId = groupId ∧ row.groupId = groupId then some role
      else tally.own groupId := by
  induction rows generalizing tally with
  | nil => simp
  | cons row rows ih =>
    rw [List.forall_mem_cons] at hrole
    rw [List.foldl_cons, ih _ hrole.2]
    simp only [List.exists_mem_cons_iff]
    by_cases hlater : ∃ row ∈ rows, row.rootId = groupId ∧ row.groupId = groupId
    · rw [if_pos hlater, if_pos (.inr hlater)]
    · rw [if_neg hlater]
      by_cases hown : row.rootId = groupId ∧ row.groupId = groupId
      · obtain ⟨rfl, hsame⟩ := hown
        rw [if_pos (.inl ⟨rfl, hsame⟩), count, if_pos hsame, hrole.1 rfl hsame]
        exact Function.update_self ..
      · rw [if_neg (not_or.mpr ⟨hown, hlater⟩), count]
        split
        case isTrue hself =>
          have hne : groupId ≠ row.rootId := fun heq ↦ hown ⟨heq.symm, hself.trans heq.symm⟩
          exact Function.update_of_ne hne ..
        case isFalse => split <;> rfl

end RoleTally

theorem effectiveRoles_eq (groupIds : List RowId) (rows : List RoleRow) (groupId : RowId) :
    effectiveRoles groupIds rows groupId =
      if groupId ∈ groupIds then
        (rows.foldl RoleTally.count ⟨fun _ ↦ none, fun _ ↦ false⟩).role? groupId
      else none := by
  have hloop : ∀ (tally : RoleTally) (roles : RowId → Option GroupRole),
      groupIds.foldl (fun roles id ↦
        match tally.role? id with
        | some role => Function.update roles id (some role)
        | none => roles) roles groupId =
      if groupId ∈ groupIds then (tally.role? groupId).or (roles groupId) else roles groupId := by
    intro tally
    induction groupIds with
    | nil => simp
    | cons id groupIds ih =>
      intro roles
      rw [List.foldl_cons, ih]
      by_cases hid : groupId = id
      · subst hid
        cases hrole : tally.role? groupId <;> simp
      · cases hrole : tally.role? id <;> simp [hid]
  rw [effectiveRoles, hloop]
  simp

/-! ## The chains -/

section Chains

variable {db : Community} {groupId ancestorId userId : RowId} {group : GroupRow} {rounds : ℕ}

theorem Community.ActiveAbove.start (h : db.ActiveAbove groupId ancestorId) :
    ∃ group, db.activeGroup? groupId = some group := by
  cases h with
  | refl hgroup => exact ⟨_, hgroup⟩
  | up hgroup _ _ => exact ⟨_, hgroup⟩

theorem Community.ActiveAbove.active (h : db.ActiveAbove groupId ancestorId) :
    (db.activeGroup? ancestorId).isSome := by
  induction h with
  | refl hgroup => rw [hgroup]; rfl
  | up _ _ _ ih => exact ih

theorem parentOf_of_activeGroup? {parentId : RowId} (hgroup : db.activeGroup? groupId = some group)
    (hparent : group.parentId = some parentId) : db.parentOf groupId = some parentId :=
  parentOf_eq_some.mpr ⟨group, (activeGroup?_eq_some hgroup).1, hparent⟩

theorem activeGroup?_of_mem (hstored : group ∈ db.groups) (hactive : group.status = .active) :
    db.activeGroup? group.key = some group :=
  Option.filter_eq_some_iff.mpr ⟨Table.get?_of_mem hstored, decide_eq_true hactive⟩

/-- The rows of a chain are the groups that are reached through active ones. -/
theorem exists_ancestor_chainParent_iff (rootId : RowId) {row : ChainRow}
    (hgroup : db.activeGroup? groupId = some group) :
    (∃ n, ancestor db.chainParent n (group.chainRow rootId) = some row) ↔
      ∃ ancestorId above, db.ActiveAbove groupId ancestorId ∧
        db.activeGroup? ancestorId = some above ∧ row = above.chainRow rootId := by
  constructor
  · rintro ⟨n, hn⟩
    induction n generalizing groupId group with
    | zero =>
      cases hn
      exact ⟨groupId, group, .refl hgroup, hgroup, rfl⟩
    | succ n ih =>
      obtain ⟨next, hnext, hn⟩ := Option.bind_eq_some_iff.mp hn
      obtain ⟨parent, hparent, rfl⟩ := Option.map_eq_some_iff.mp hnext
      obtain ⟨parentId, hid, hactive⟩ := Option.bind_eq_some_iff.mp hparent
      obtain ⟨ancestorId, above, habove, hrow⟩ := ih hactive hn
      exact ⟨ancestorId, above, .up hgroup hid habove, hrow⟩
  · rintro ⟨ancestorId, above, habove, hactive, rfl⟩
    induction habove generalizing group with
    | refl hself =>
      rw [hself] at hgroup hactive
      cases hgroup
      cases hactive
      exact ⟨0, rfl⟩
    | @up groupId parentId ancestorId group' hself hparent hrest ih =>
      rw [hself] at hgroup
      cases hgroup
      obtain ⟨parent, hactive'⟩ := hrest.start
      obtain ⟨n, hn⟩ := ih hactive' hactive
      refine ⟨n + 1, Option.bind_eq_some_iff.mpr ⟨parent.chainRow rootId, ?_, hn⟩⟩
      refine Option.map_eq_some_iff.mpr ⟨parent, ?_, rfl⟩
      exact Option.bind_eq_some_iff.mpr ⟨parentId, hparent, hactive'⟩

/-- A chain is no longer than the parents allow. -/
theorem ancestor_parentOf_of_chainParent {rootId : RowId} {row : ChainRow} {n : ℕ}
    (hgroup : db.activeGroup? groupId = some group)
    (h : ancestor db.chainParent n (group.chainRow rootId) = some row) :
    ∃ id, ancestor db.parentOf n groupId = some id := by
  induction n generalizing groupId group with
  | zero => exact ⟨groupId, rfl⟩
  | succ n ih =>
    obtain ⟨next, hnext, h⟩ := Option.bind_eq_some_iff.mp h
    obtain ⟨parent, hparent, rfl⟩ := Option.map_eq_some_iff.mp hnext
    obtain ⟨parentId, hid, hactive⟩ := Option.bind_eq_some_iff.mp hparent
    obtain ⟨id, hchain⟩ := ih hactive h
    refine ⟨id, ?_⟩
    rw [ancestor_succ, parentOf_of_activeGroup? hgroup hid]
    exact hchain

theorem mem_chainBase {groupIds : List RowId} {row : ChainRow} : row ∈ db.chainBase groupIds ↔
    ∃ groupId group, groupId ∈ groupIds ∧ db.activeGroup? groupId = some group ∧
      row = group.chainRow groupId := by
  rw [Community.chainBase, List.mem_map]
  constructor
  · rintro ⟨group, hmem, rfl⟩
    obtain ⟨hstored, hgroup⟩ := List.mem_filter.mp hmem
    obtain ⟨hin, hactive⟩ := of_decide_eq_true hgroup
    exact ⟨group.key, group, hin, activeGroup?_of_mem hstored hactive, rfl⟩
  · rintro ⟨groupId, group, hin, hgroup, rfl⟩
    obtain ⟨hget, hkey, hactive⟩ := activeGroup?_eq_some hgroup
    subst hkey
    exact ⟨group, List.mem_filter.mpr ⟨Table.mem_of_get? hget, decide_eq_true ⟨hin, hactive⟩⟩, rfl⟩

/-- On a forest the query ends, with a row for every membership above a requested group. -/
theorem exists_roleRows (hbounded : Bounded db.parentOf rounds) (groupIds : List RowId) :
    ∃ rows, db.roleRows? rounds groupIds userId = some rows ∧
      db.ListsRoles groupIds userId rows := by
  have hend : roundRows (fun row ↦ (db.chainParent row).toList) rounds (db.chainBase groupIds) =
      [] := by
    refine List.eq_nil_iff_forall_not_mem.mpr fun row hrow ↦ ?_
    obtain ⟨base, hbase, hancestor⟩ := mem_roundRows_parents.mp hrow
    obtain ⟨groupId, group, -, hgroup, rfl⟩ := mem_chainBase.mp hbase
    obtain ⟨id, hid⟩ := ancestor_parentOf_of_chainParent hgroup hancestor
    rw [hbounded groupId] at hid
    cases hid
  have hquery := recursiveQuery_eq_some hend (Nat.le_refl rounds)
  refine ⟨_, by rw [Community.roleRows?, hquery, Option.map_some], fun row ↦ ?_⟩
  rw [List.mem_flatMap]
  constructor
  · rintro ⟨link, hlink, hrow⟩
    rw [Option.mem_toList, Option.map_eq_some_iff] at hrow
    obtain ⟨member, hmember, rfl⟩ := hrow
    obtain ⟨n, hn⟩ := (mem_of_recursiveQuery hquery).mp hlink
    obtain ⟨base, hbase, hancestor⟩ := mem_roundRows_parents.mp hn
    obtain ⟨groupId, group, hin, hgroup, rfl⟩ := mem_chainBase.mp hbase
    obtain ⟨ancestorId, above, habove, hactive, rfl⟩ :=
      (exists_ancestor_chainParent_iff _ hgroup).mp ⟨n, hancestor⟩
    obtain ⟨-, hkey, -⟩ := activeGroup?_eq_some hactive
    subst hkey
    exact ⟨hin, habove, member, hmember, rfl⟩
  · rintro ⟨hin, habove, member, hmember, hrole⟩
    obtain ⟨group, hgroup⟩ := habove.start
    obtain ⟨above, hactive⟩ := Option.isSome_iff_exists.mp habove.active
    obtain ⟨n, hn⟩ := (exists_ancestor_chainParent_iff row.rootId hgroup).mpr
      ⟨row.groupId, above, habove, hactive, rfl⟩
    have hkey : above.key = row.groupId := (activeGroup?_eq_some hactive).2.1
    refine ⟨above.chainRow row.rootId, (mem_of_recursiveQuery hquery).mpr ⟨n, ?_⟩, ?_⟩
    · exact mem_roundRows_parents.mpr ⟨_, mem_chainBase.mpr ⟨_, group, hin, hgroup, rfl⟩, hn⟩
    · rw [Option.mem_toList, Option.map_eq_some_iff]
      refine ⟨member, ?_, ?_⟩
      · rw [GroupRow.chainRow, hkey, hmember]
      · cases row
        simp only [GroupRow.chainRow, RoleRow.mk.injEq, true_and]
        exact ⟨hkey, hrole⟩

/-! ## What a user sees -/

theorem mem_membershipRows {role : GroupRole} : (groupId, role) ∈ db.membershipRows userId ↔
    (db.activeGroup? groupId).isSome ∧
      ∃ member, db.membership? groupId userId = some member ∧ member.role = role := by
  rw [Community.membershipRows, List.mem_map]
  constructor
  · rintro ⟨member, hmember, hrow⟩
    obtain ⟨hstored, hcolumns⟩ := List.mem_filter.mp hmember
    obtain ⟨rfl, hactive, hgroup⟩ := of_decide_eq_true hcolumns
    cases hrow
    refine ⟨hgroup, member, Option.filter_eq_some_iff.mpr ⟨?_, decide_eq_true hactive⟩, rfl⟩
    have hmem : member ∈ db.members := hstored
    exact Table.get?_of_mem hmem
  · rintro ⟨hgroup, member, hmember, rfl⟩
    obtain ⟨hget, hkey, hactive⟩ := membership?_eq_some hmember
    cases hkey
    refine ⟨member, List.mem_filter.mpr ⟨Table.mem_of_get? hget, ?_⟩, rfl⟩
    exact decide_eq_true ⟨rfl, hactive, hgroup⟩

/-- The parent of an active group. -/
def Community.activeParent (db : Community) (groupId : RowId) : Option RowId :=
  (db.activeGroup? groupId).bind (·.parentId)

theorem mem_activeChildIds (groupId childId : RowId) :
    childId ∈ db.activeChildIds groupId ↔ db.activeParent childId = some groupId := by
  rw [Community.activeChildIds, List.mem_map, Community.activeParent, Option.bind_eq_some_iff]
  constructor
  · rintro ⟨child, hchild, rfl⟩
    obtain ⟨hstored, hcolumns⟩ := List.mem_filter.mp hchild
    obtain ⟨hparent, hactive⟩ := of_decide_eq_true hcolumns
    exact ⟨child, activeGroup?_of_mem hstored hactive, hparent⟩
  · rintro ⟨child, hchild, hparent⟩
    obtain ⟨hget, hkey, hactive⟩ := activeGroup?_eq_some hchild
    refine ⟨child, List.mem_filter.mpr ⟨Table.mem_of_get? hget, ?_⟩, hkey⟩
    exact decide_eq_true ⟨hparent, hactive⟩

theorem activeAbove_iff : db.ActiveAbove groupId ancestorId ↔
    (∃ n, ancestor db.activeParent n groupId = some ancestorId) ∧
      (db.activeGroup? ancestorId).isSome := by
  constructor
  · intro habove
    refine ⟨?_, habove.active⟩
    induction habove with
    | refl => exact ⟨0, rfl⟩
    | up hgroup hparent _ ih =>
      obtain ⟨n, hn⟩ := ih
      refine ⟨n + 1, Option.bind_eq_some_iff.mpr ⟨_, ?_, hn⟩⟩
      exact Option.bind_eq_some_iff.mpr ⟨_, hgroup, hparent⟩
  · rintro ⟨⟨n, hn⟩, hactive⟩
    induction n generalizing groupId with
    | zero =>
      cases hn
      obtain ⟨group, hgroup⟩ := Option.isSome_iff_exists.mp hactive
      exact .refl hgroup
    | succ n ih =>
      obtain ⟨parentId, hparent, hn⟩ := Option.bind_eq_some_iff.mp hn
      obtain ⟨group, hgroup, hid⟩ := Option.bind_eq_some_iff.mp hparent
      exact .up hgroup hid (ih hn)

theorem activeParent_le {parentId : RowId} (h : db.activeParent groupId = some parentId) :
    db.parentOf groupId = some parentId := by
  obtain ⟨group, hgroup, hparent⟩ := Option.bind_eq_some_iff.mp h
  exact parentOf_of_activeGroup? hgroup hparent

/-! ## The roles -/

/-- Without a cycle, the groups that rights are inherited from are the other ones above. -/
theorem inherits_iff (hacyclic : Acyclic db.parentOf) : db.Inherits userId groupId ↔
    ∃ ancestorId, ancestorId ≠ groupId ∧ db.ActiveAbove groupId ancestorId ∧
      db.Manages userId ancestorId := by
  constructor
  · rintro ⟨group, parentId, ancestorId, hgroup, hparent, habove, hmanages⟩
    refine ⟨ancestorId, fun hself ↦ ?_, .up hgroup hparent habove, hmanages⟩
    obtain ⟨⟨n, hn⟩, -⟩ := activeAbove_iff.mp habove
    have hcycle : ancestor db.parentOf (n + 1) groupId = some ancestorId := by
      rw [ancestor_succ, parentOf_of_activeGroup? hgroup hparent]
      exact ancestor_of_le (fun _ _ ↦ activeParent_le) hn
    exact hacyclic (n + 1) groupId n.succ_pos (hself ▸ hcycle)
  · rintro ⟨ancestorId, hother, habove, hmanages⟩
    cases habove with
    | refl => exact absurd rfl hother
    | up hgroup hparent habove => exact ⟨_, _, ancestorId, hgroup, hparent, habove, hmanages⟩

section Tally

variable {groupIds : List RowId} {rows : List RoleRow} (hrows : db.ListsRoles groupIds userId rows)
  (hin : groupId ∈ groupIds)

include hrows hin

theorem own_of_rows (hgroup : (db.activeGroup? groupId).isSome) :
    (rows.foldl RoleTally.count ⟨fun _ ↦ none, fun _ ↦ false⟩).own groupId =
      (db.membership? groupId userId).map fun member ↦ member.role := by
  obtain ⟨group, hgroup⟩ := Option.isSome_iff_exists.mp hgroup
  cases hmember : db.membership? groupId userId with
  | none =>
    have hno : ∀ row ∈ rows, row.rootId = groupId → row.groupId ≠ groupId := by
      rintro row hrow rfl hself
      obtain ⟨-, -, member, hown, -⟩ := (hrows row).mp hrow
      rw [hself, hmember] at hown
      cases hown
    rw [RoleTally.own_foldl _ .member fun row hrow hroot hself ↦
      absurd hself (hno row hrow hroot)]
    exact if_neg fun ⟨row, hrow, hroot, hself⟩ ↦ hno row hrow hroot hself
  | some member =>
    have hrole : ∀ row ∈ rows, row.rootId = groupId → row.groupId = groupId →
        row.role = member.role := by
      rintro row hrow rfl hself
      obtain ⟨-, -, member', hown, hrole⟩ := (hrows row).mp hrow
      rw [hself, hmember] at hown
      cases hown
      exact hrole.symm
    rw [RoleTally.own_foldl _ _ hrole]
    exact if_pos ⟨⟨groupId, groupId, member.role⟩,
      (hrows _).mpr ⟨hin, .refl hgroup, member, hmember, rfl⟩, rfl, rfl⟩

theorem inheritedManager_of_rows (hacyclic : Acyclic db.parentOf) :
    (rows.foldl RoleTally.count ⟨fun _ ↦ none, fun _ ↦ false⟩).inheritedManager groupId = true ↔
      db.Inherits userId groupId := by
  rw [RoleTally.inheritedManager_foldl, inherits_iff hacyclic]
  constructor
  · rintro (hfalse | ⟨row, hrow, rfl, hother, hmanager⟩)
    · cases hfalse
    · obtain ⟨-, habove, member, hmember, hrole⟩ := (hrows row).mp hrow
      exact ⟨row.groupId, hother, habove, member, hmember, hrole ▸ hmanager⟩
  · rintro ⟨ancestorId, hother, habove, member, hmember, hmanager⟩
    refine .inr ⟨⟨groupId, ancestorId, member.role⟩, (hrows _).mpr ?_, rfl, hother, hmanager⟩
    exact ⟨hin, habove, member, hmember, rfl⟩

/-- The rows tell the role that the memberships stand for, in whatever order they come. -/
theorem role?_eq_referenceRole (hacyclic : Acyclic db.parentOf) :
    (rows.foldl RoleTally.count ⟨fun _ ↦ none, fun _ ↦ false⟩).role? groupId =
      db.referenceRole userId groupId := by
  have hinherited := inheritedManager_of_rows hrows hin hacyclic
  by_cases hgroup : (db.activeGroup? groupId).isSome
  · have hown := own_of_rows hrows hin hgroup
    rw [Community.referenceRole, if_pos hgroup, ← hown]
    classical
    exact if_congr Iff.rfl rfl (if_congr (or_congr Iff.rfl hinherited) rfl rfl)
  · -- The base of the chain has no row for a group that is not active.
    have hno : ∀ ancestorId, ¬ db.ActiveAbove groupId ancestorId := by
      intro ancestorId habove
      obtain ⟨group, hactive⟩ := habove.start
      exact hgroup (hactive ▸ rfl)
    have hnone : (rows.foldl RoleTally.count ⟨fun _ ↦ none, fun _ ↦ false⟩).own groupId = none := by
      rw [RoleTally.own_foldl _ .member fun row hrow hroot _ ↦
        absurd ((hrows row).mp hrow).2.1 (hroot ▸ hno row.groupId)]
      exact if_neg fun ⟨row, hrow, hroot, _⟩ ↦
        hno row.groupId (hroot ▸ ((hrows row).mp hrow).2.1)
    have hinherits : ¬ db.Inherits userId groupId := by
      rintro ⟨group, -, -, hactive, -⟩
      exact hgroup (hactive ▸ rfl)
    rw [RoleTally.role?, Community.referenceRole, if_neg hgroup]
    simp only [hnone, hinherited, hinherits]
    rfl

end Tally

/-! ## The role in one group -/

theorem activeGroup?_directory (groupId : RowId) :
    db.directory.activeGroup? groupId = (db.activeGroup? groupId).map GroupRow.toGroup := by
  have hget : db.directory.groups.get? groupId =
      (db.groups.get? groupId).map GroupRow.toGroup := List.find?_map
  rw [Directory.activeGroup?, Community.activeGroup?, hget]
  exact Option.filter_map

theorem membership?_directory (groupId userId : RowId) :
    db.directory.membership? groupId userId =
      (db.membership? groupId userId).map MemberRow.toGroupMember := by
  have hget : db.directory.members.get? (groupId, userId) =
      (db.members.get? (groupId, userId)).map MemberRow.toGroupMember := List.find?_map
  rw [Directory.membership?, Community.membership?, hget]
  exact Option.filter_map

/-- The chain lists the active groups within as many steps as it has fuel. -/
theorem mem_roleChain {fuel : ℕ} : ancestorId ∈ db.directory.roleChain fuel groupId ↔
    (∃ n < fuel, ancestor db.activeParent n groupId = some ancestorId) ∧
      (db.activeGroup? ancestorId).isSome := by
  induction fuel generalizing groupId with
  | zero => simp [Directory.roleChain]
  | succ fuel ih =>
    rw [Directory.roleChain, activeGroup?_directory]
    cases hgroup : db.activeGroup? groupId with
    | none =>
      refine iff_of_false List.not_mem_nil ?_
      rintro ⟨⟨n, -, hn⟩, hactive⟩
      cases n with
      | zero =>
        cases hn
        rw [hgroup] at hactive
        cases hactive
      | succ n =>
        rw [ancestor_succ, Community.activeParent, hgroup] at hn
        cases hn
    | some group =>
      have hparent : db.activeParent groupId = group.parentId := by
        rw [Community.activeParent, hgroup, Option.bind_some]
      rw [Option.map_some, Option.elim_some, List.mem_cons]
      constructor
      · rintro (rfl | hmem)
        · exact ⟨⟨0, fuel.succ_pos, rfl⟩, Option.isSome_of_eq_some hgroup⟩
        · cases hid : group.parentId with
          | none =>
            rw [hid] at hmem
            cases hmem
          | some parentId =>
            rw [hid] at hmem
            obtain ⟨⟨n, hn, hancestor⟩, hactive⟩ := ih.mp hmem
            refine ⟨⟨n + 1, Nat.succ_lt_succ hn, ?_⟩, hactive⟩
            exact Option.bind_eq_some_iff.mpr ⟨parentId, hparent.trans hid, hancestor⟩
      · rintro ⟨⟨n, hn, hancestor⟩, hactive⟩
        cases n with
        | zero =>
          cases hancestor
          exact .inl rfl
        | succ n =>
          obtain ⟨parentId, hid, hancestor⟩ := Option.bind_eq_some_iff.mp hancestor
          rw [← hparent, hid]
          exact .inr (ih.mpr ⟨⟨n, Nat.lt_of_succ_lt_succ hn, hancestor⟩, hactive⟩)

/-- On a forest the number of groups is fuel enough. -/
theorem mem_roleChain_groups (hacyclic : Acyclic db.parentOf) :
    ancestorId ∈ db.directory.roleChain db.directory.groups.rows.length groupId ↔
      db.ActiveAbove groupId ancestorId := by
  rw [mem_roleChain, activeAbove_iff]
  refine and_congr_left fun hactive ↦ ⟨fun ⟨n, _, hn⟩ ↦ ⟨n, hn⟩, fun ⟨n, hn⟩ ↦ ⟨n, ?_, hn⟩⟩
  have hstored : ∀ id, (db.activeGroup? id).isSome → id ∈ db.groups.rows.map GroupRow.key := by
    intro id hid
    obtain ⟨group, hgroup⟩ := Option.isSome_iff_exists.mp hid
    obtain ⟨hget, hkey, -⟩ := activeGroup?_eq_some hgroup
    exact List.mem_map.mpr ⟨group, Table.mem_of_get? hget, hkey⟩
  have hlength : n < (db.groups.rows.map GroupRow.key).length := by
    refine Acyclic.lt_length_of_ancestor ?_ ?_ hn (hstored ancestorId hactive)
    · exact fun n a hn hcycle ↦ hacyclic n a hn (ancestor_of_le (fun _ _ ↦ activeParent_le) hcycle)
    · intro id parentId hparent
      obtain ⟨group, hgroup, -⟩ := Option.bind_eq_some_iff.mp hparent
      exact hstored id (Option.isSome_of_eq_some hgroup)
  rw [List.length_map] at hlength
  exact (List.length_map GroupRow.toGroup).symm ▸ hlength

/-- Asked for one group, `effective_roles` has the role that the memberships stand for. -/
theorem effectiveRole_eq_referenceRole (hacyclic : Acyclic db.parentOf) (userId groupId : RowId) :
    db.directory.effectiveRole groupId userId = db.referenceRole userId groupId := by
  have hrole : ∀ id, (db.directory.membership? id userId).map GroupMember.role =
      (db.membership? id userId).map fun member ↦ member.role := by
    intro id
    rw [membership?_directory, Option.map_map]
    rfl
  have hinherited : (db.directory.roleChain db.directory.groups.rows.length groupId).any
      (fun id ↦ id ≠ groupId ∧ ((db.membership? id userId).map fun member ↦ member.role).any
        GroupRole.isManager) = true ↔ db.Inherits userId groupId := by
    rw [inherits_iff hacyclic, List.any_eq_true]
    refine exists_congr fun id ↦ ?_
    rw [mem_roleChain_groups hacyclic, decide_eq_true_eq, and_left_comm, Community.Manages,
      Option.any_map, Option.any_eq_true]
  have hown : groupId ∈ db.directory.roleChain db.directory.groups.rows.length groupId ↔
      (db.activeGroup? groupId).isSome := by
    rw [mem_roleChain_groups hacyclic]
    refine ⟨Community.ActiveAbove.active, fun hgroup ↦ ?_⟩
    obtain ⟨group, hgroup⟩ := Option.isSome_iff_exists.mp hgroup
    exact .refl hgroup
  rw [Directory.effectiveRole, Community.referenceRole]
  classical
  simp only [hrole, hinherited]
  by_cases hgroup : (db.activeGroup? groupId).isSome
  · rw [if_pos (hown.mpr hgroup), if_pos hgroup]
    cases (db.membership? groupId userId).map fun member ↦ member.role with
    | none => rfl
    | some role => cases role <;> simp
  · -- The chain of a group that is not active is empty.
    have hinherits : ¬ db.Inherits userId groupId := by
      rintro ⟨group, -, -, hactive, -⟩
      exact hgroup (hactive ▸ rfl)
    rw [if_neg (hown.not.mpr hgroup), if_neg hgroup]
    simp [hinherits]

/-- The role in which a request acts is the one that the query and the two loops give. -/
theorem effectiveRoles_eq_directory (hacyclic : Acyclic db.parentOf) (userId groupId : RowId) :
    ∃ rows, db.roleRows? (GroupService.rounds db) [groupId] userId = some rows ∧
      effectiveRoles [groupId] rows groupId = db.directory.effectiveRole groupId userId := by
  obtain ⟨rows, hquery, hrows⟩ := exists_roleRows (bounded_of_acyclic hacyclic) [groupId]
  refine ⟨rows, hquery, ?_⟩
  rw [effectiveRoles_eq, if_pos (List.mem_singleton_self groupId),
    role?_eq_referenceRole hrows (List.mem_singleton_self groupId) hacyclic,
    effectiveRole_eq_referenceRole hacyclic]

/-- The role is there for a member and for whom the group is managed from above. -/
theorem referenceRole_isSome : (db.referenceRole userId groupId).isSome ↔
    (db.activeGroup? groupId).isSome ∧
      ((db.membership? groupId userId).isSome ∨ db.Inherits userId groupId) := by
  by_cases hgroup : (db.activeGroup? groupId).isSome
  · rw [Community.referenceRole, if_pos hgroup]
    by_cases hinherits : db.Inherits userId groupId
    · cases hmember : db.membership? groupId userId with
      | none => simp [hinherits, hgroup]
      | some member => cases hrole : member.role <;> simp [hinherits, hrole, hgroup]
    · cases hmember : db.membership? groupId userId with
      | none => simp [hinherits]
      | some member => cases hrole : member.role <;> simp [hinherits, hrole, hgroup]
  · rw [Community.referenceRole, if_neg hgroup]
    simp [hgroup]

/-- Nobody is an owner but by the own membership. -/
theorem own_of_referenceRole (h : db.referenceRole userId groupId = some .owner) :
    (db.activeGroup? groupId).isSome ∧
      ∃ member, db.membership? groupId userId = some member ∧ member.role = .owner := by
  rw [Community.referenceRole] at h
  split at h
  case isFalse => cases h
  case isTrue hgroup =>
    refine ⟨hgroup, ?_⟩
    split at h
    case isTrue hown => exact Option.map_eq_some_iff.mp hown
    case isFalse => split at h <;> [cases h; split at h <;> cases h]

theorem mem_directIds : groupId ∈ (db.membershipRows userId).map Prod.fst ↔
    (db.activeGroup? groupId).isSome ∧ (db.membership? groupId userId).isSome := by
  rw [List.mem_map]
  constructor
  · rintro ⟨⟨id, role⟩, hrow, rfl⟩
    obtain ⟨hgroup, member, hmember, -⟩ := mem_membershipRows.mp hrow
    exact ⟨hgroup, Option.isSome_of_eq_some hmember⟩
  · rintro ⟨hgroup, hmember⟩
    obtain ⟨member, hmember⟩ := Option.isSome_iff_exists.mp hmember
    exact ⟨_, mem_membershipRows.mpr ⟨hgroup, member, hmember, rfl⟩, rfl⟩

theorem mem_managerIds :
    groupId ∈ ((db.membershipRows userId).filter fun row ↦
      GroupRole.isManager row.2).map Prod.fst ↔
        (db.activeGroup? groupId).isSome ∧ db.Manages userId groupId := by
  rw [List.mem_map]
  constructor
  · rintro ⟨⟨id, role⟩, hrow, rfl⟩
    obtain ⟨hrow, hmanager⟩ := List.mem_filter.mp hrow
    obtain ⟨hgroup, member, hmember, rfl⟩ := mem_membershipRows.mp hrow
    exact ⟨hgroup, member, hmember, hmanager⟩
  · rintro ⟨hgroup, member, hmember, hmanager⟩
    exact ⟨_, List.mem_filter.mpr
      ⟨mem_membershipRows.mpr ⟨hgroup, member, hmember, rfl⟩, hmanager⟩, rfl⟩

/-- A group that is managed from somewhere above is managed itself or inherits it. -/
theorem exists_managedAbove_iff : (∃ id, db.ActiveAbove groupId id ∧ db.Manages userId id) ↔
    (db.activeGroup? groupId).isSome ∧
      (db.Manages userId groupId ∨ db.Inherits userId groupId) := by
  constructor
  · rintro ⟨id, habove, hmanages⟩
    cases habove with
    | refl hgroup => exact ⟨Option.isSome_of_eq_some hgroup, .inl hmanages⟩
    | up hgroup hparent habove =>
      exact ⟨Option.isSome_of_eq_some hgroup, .inr ⟨_, _, id, hgroup, hparent, habove, hmanages⟩⟩
  · rintro ⟨hgroup, hmanages | ⟨group, parentId, id, hgroup, hparent, habove, hmanages⟩⟩
    · obtain ⟨group, hgroup⟩ := Option.isSome_iff_exists.mp hgroup
      exact ⟨groupId, .refl hgroup, hmanages⟩
    · exact ⟨id, .up hgroup hparent habove, hmanages⟩

/-- The query downwards lists the groups below those that the user manages. -/
theorem mem_managedSubtree {rounds : ℕ} {managerIds subtree : List RowId}
    (hmanagers : ∀ id, id ∈ managerIds ↔ (db.activeGroup? id).isSome ∧ db.Manages userId id)
    (hquery : recursiveQuery db.activeChildIds rounds
      ((db.groups.rows.filter fun group ↦ group.key ∈ managerIds ∧ group.status = .active).map
        GroupRow.key) = some subtree) :
    groupId ∈ subtree ↔ ∃ id, db.ActiveAbove groupId id ∧ db.Manages userId id := by
  rw [mem_of_recursiveQuery hquery]
  simp only [mem_roundRows_children mem_activeChildIds, activeAbove_iff]
  constructor
  · rintro ⟨n, id, hid, hn⟩
    obtain ⟨group, hgroup, rfl⟩ := List.mem_map.mp hid
    obtain ⟨hin, hactive⟩ := of_decide_eq_true (List.mem_filter.mp hgroup).2
    obtain ⟨hgroup, hmanages⟩ := (hmanagers group.key).mp hin
    exact ⟨group.key, ⟨⟨n, hn⟩, hgroup⟩, hmanages⟩
  · rintro ⟨id, ⟨⟨n, hn⟩, hgroup⟩, hmanages⟩
    refine ⟨n, id, ?_, hn⟩
    have hin := (hmanagers id).mpr ⟨hgroup, hmanages⟩
    obtain ⟨group, hgroup⟩ := Option.isSome_iff_exists.mp hgroup
    obtain ⟨hget, rfl, hactive⟩ := activeGroup?_eq_some hgroup
    refine List.mem_map.mpr ⟨group, List.mem_filter.mpr ⟨Table.mem_of_get? hget, ?_⟩, rfl⟩
    exact decide_eq_true ⟨hin, hactive⟩

/-- The groups of the query are those that are managed directly or from above. -/
theorem mem_visibleGroupIds {rounds : ℕ} {ids : List RowId}
    (h : db.visibleGroupIds? rounds userId = some ids) :
    groupId ∈ ids ↔ (db.referenceRole userId groupId).isSome := by
  rw [referenceRole_isSome]
  unfold Community.visibleGroupIds? at h
  dsimp only at h
  split at h
  case isTrue hnone =>
    cases h
    rw [mem_directIds]
    refine and_congr_right fun hgroup ↦ (or_iff_left fun hinherited ↦ ?_).symm
    obtain ⟨_, _, id, _, _, habove, hmanages⟩ := hinherited
    have hmem := mem_managerIds.mpr ⟨habove.active, hmanages⟩
    rw [hnone] at hmem
    cases hmem
  case isFalse =>
    obtain ⟨subtree, hquery, rfl⟩ := Option.map_eq_some_iff.mp h
    have hsubtree : groupId ∈ subtree ↔ ∃ id, db.ActiveAbove groupId id ∧ db.Manages userId id :=
      mem_managedSubtree (fun _ ↦ mem_managerIds) hquery
    rw [List.mem_dedup, List.mem_append, mem_directIds, hsubtree, exists_managedAbove_iff,
      ← and_or_left]
    refine and_congr_right fun hgroup ↦ ?_
    rw [← or_assoc]
    refine or_congr_left (or_iff_left_of_imp ?_)
    rintro ⟨member, hmember, -⟩
    exact Option.isSome_of_eq_some hmember

theorem visibleGroupIds?_isSome {rounds : ℕ} (hbounded : Bounded db.parentOf rounds)
    (userId : RowId) : (db.visibleGroupIds? rounds userId).isSome := by
  have hrows := roundRows_children_eq_nil mem_activeChildIds
    (hbounded.of_le fun _ _ ↦ activeParent_le)
  unfold Community.visibleGroupIds?
  dsimp only
  split
  · rfl
  · rw [recursiveQuery_eq_some (hrows _) (Nat.le_refl rounds), Option.map_some, Option.isSome_some]

/-- On a forest the roles of a request are those that the memberships stand for, nobody is an
owner but by the own membership, and a user sees exactly the groups with a role. -/
theorem roles_agree (hacyclic : Acyclic db.parentOf) (userId : RowId) :
    (∀ groupIds, ∃ rows, db.roleRows? (GroupService.rounds db) groupIds userId = some rows ∧
      ∀ rows', List.Perm rows' rows → ∀ groupId, effectiveRoles groupIds rows' groupId =
        if groupId ∈ groupIds then db.referenceRole userId groupId else none) ∧
    (∀ groupId, db.referenceRole userId groupId = some .owner →
      ∃ member, db.membership? groupId userId = some member ∧ member.role = .owner) ∧
    ∃ ids, db.visibleGroupIds? (GroupService.rounds db) userId = some ids ∧
      ∀ groupId, groupId ∈ ids ↔ (db.referenceRole userId groupId).isSome := by
  have hbounded := bounded_of_acyclic hacyclic
  refine ⟨fun groupIds ↦ ?_, fun groupId howner ↦ (own_of_referenceRole howner).2, ?_⟩
  · obtain ⟨rows, hquery, hrows⟩ := exists_roleRows hbounded groupIds
    refine ⟨rows, hquery, fun rows' hperm groupId ↦ ?_⟩
    have hrows' : db.ListsRoles groupIds userId rows' := fun row ↦ hperm.mem_iff.trans (hrows row)
    rw [effectiveRoles_eq]
    split
    case isTrue hin => exact role?_eq_referenceRole hrows' hin hacyclic
    case isFalse => rfl
  · obtain ⟨ids, hids⟩ := Option.isSome_iff_exists.mp (visibleGroupIds?_isSome hbounded userId)
    exact ⟨ids, hids, fun groupId ↦ mem_visibleGroupIds hids⟩

end Chains

namespace Sample

/-- An active group of the founder. -/
def nestedGroup (groupId : RowId) (parentId : Option RowId) : GroupRow where
  id := groupId
  ownerId := founderId
  parentId := parentId
  status := .active
  name := groupId.text
  description := ""
  joinPolicy := .publicJoin
  allowMemberInvite := false
  createdBy := founderId
  deletedAt := none

def founderIn (groupId : RowId) (role : GroupRole) : MemberRow where
  groupId := groupId
  userId := founderId
  role := role
  status := .active
  joinedAt := 0
  invitedBy := none

/-- The owner of a group is a plain member of the group below it. -/
def nestedCommunity : Community :=
  { community with
    groups := ⟨[nestedGroup teamId none, nestedGroup childId (some teamId)], by decide⟩
    members := ⟨[founderIn teamId .owner, founderIn childId .member], by decide⟩ }

/-- A child is one level below its parent. -/
theorem acyclic_nestedCommunity : Acyclic nestedCommunity.parentOf := by
  refine .of_rank (fun groupId ↦ if groupId = childId then 1 else 0) fun groupId parentId h ↦ ?_
  obtain ⟨group, hget, hparent⟩ := parentOf_eq_some.mp h
  obtain ⟨hstored, rfl⟩ := Table.get?_eq_some_iff.mp hget
  have hrow : group = nestedGroup teamId none ∨ group = nestedGroup childId (some teamId) := by
    simpa [nestedCommunity, Table.mem_iff_mem_rows] using hstored
  rcases hrow with rfl | rfl
  · cases hparent
  · cases hparent
    decide

end Sample

theorem roles_agree_nested :
    let db := Sample.nestedCommunity
    let userId := Sample.founderId
    (∀ groupIds, ∃ rows, db.roleRows? (GroupService.rounds db) groupIds userId = some rows ∧
      ∀ rows', List.Perm rows' rows → ∀ groupId, effectiveRoles groupIds rows' groupId =
        if groupId ∈ groupIds then db.referenceRole userId groupId else none) ∧
    (∀ groupId, db.referenceRole userId groupId = some .owner →
      ∃ member, db.membership? groupId userId = some member ∧ member.role = .owner) ∧
    ∃ ids, db.visibleGroupIds? (GroupService.rounds db) userId = some ids ∧
      ∀ groupId, groupId ∈ ids ↔ (db.referenceRole userId groupId).isSome :=
  roles_agree Sample.acyclic_nestedCommunity Sample.founderId

/-- The membership as owner above lifts the plain membership. -/
example : (Sample.nestedCommunity.roleRows? 3 [Sample.childId, Sample.teamId]
    Sample.founderId).map (fun rows ↦
      [Sample.childId, Sample.teamId].map (effectiveRoles [Sample.childId, Sample.teamId] rows)) =
        some [some .admin, some .owner] := by
  decide

end Server

end SkillHive
