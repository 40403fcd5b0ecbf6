import SkillHive.Server.GroupEffects

/-!
# The tree of groups

The parents of all groups, active or not, form a forest of bounded depth. On such a forest
the recursive queries end and answer the chain above a group, the groups below it and their
height, so a move that passes the checks of its request can be carried by its new parent.
-/

namespace SkillHive

open Foundation

namespace Server

open GroupService

/-- The foreign key `groups.parent_id`. -/
def Community.ParentsExist (db : Community) : Prop :=
  ∀ groupId parentId, db.parentOf groupId = some parentId → (db.groups.get? parentId).isSome

/-- The levels of the groups at and below a group, which is on level one. -/
def Community.Level (db : Community) (groupId : RowId) (level : ℕ) : Prop :=
  ∃ n id, ancestor db.parentOf n id = some groupId ∧ level = n + 1

/-! ## The queries on a forest -/

section Queries

variable {db : Community} {limit rounds : ℕ} {groupId : RowId} {group : GroupRow}

theorem parentOf_eq_some {parentId : RowId} : db.parentOf groupId = some parentId ↔
    ∃ group, db.groups.get? groupId = some group ∧ group.parentId = some parentId :=
  Option.bind_eq_some_iff

/-- The chain of rows above a group is the chain of their keys. -/
theorem map_key_ancestor (hparents : db.ParentsExist) (hgroup : db.groups.get? group.key = some group)
    (n : ℕ) :
    (ancestor (fun group ↦ group.parentId.bind db.groups.get?) n group).map GroupRow.key =
      ancestor db.parentOf n group.key := by
  induction n generalizing group with
  | zero => rfl
  | succ n ih =>
    have hparent : db.parentOf group.key = group.parentId := by
      rw [Community.parentOf, hgroup, Option.bind_some]
    rw [ancestor_succ, ancestor_succ, hparent]
    cases hid : group.parentId with
    | none => rfl
    | some parentId =>
      rw [hid] at hparent
      obtain ⟨parent, hstored⟩ := Option.isSome_iff_exists.mp (hparents _ _ hparent)
      have hkey : parent.key = parentId := Table.key_of_get? hstored
      rw [Option.bind_some, Option.bind_some, hstored, Option.bind_some, ← hkey]
      exact ih (hkey ▸ hstored)

/-- The ids that `ancestor_ids` answers are the chain from the group to its root. -/
theorem getElem?_ancestorIds (hparents : db.ParentsExist)
    (hgroup : db.groups.get? groupId = some group) {ids : List RowId}
    (h : db.ancestorIds? rounds groupId = some ids) (n : ℕ) :
    ids[n]? = ancestor db.parentOf n groupId := by
  have hkey : group.key = groupId := Table.key_of_get? hgroup
  subst hkey
  obtain ⟨rows, hrows, rfl⟩ := Option.map_eq_some_iff.mp h
  rw [hgroup] at hrows
  rw [List.getElem?_map, getElem?_recursiveQuery_parents hrows, map_key_ancestor hparents hgroup]

theorem ancestorIds?_isSome (hparents : db.ParentsExist) (hbounded : Bounded db.parentOf limit)
    (hle : limit ≤ rounds) (hgroup : db.groups.get? groupId = some group) :
    (db.ancestorIds? rounds groupId).isSome := by
  have hkey : group.key = groupId := Table.key_of_get? hgroup
  subst hkey
  have hend : ancestor (fun group ↦ group.parentId.bind db.groups.get?) limit group = none := by
    rw [← Option.map_eq_none_iff (f := GroupRow.key), map_key_ancestor hparents hgroup, hbounded]
  rw [Community.ancestorIds?, hgroup, Option.isSome_map]
  exact recursiveQuery_parents_isSome hend hle

theorem mem_childIds (groupId childId : RowId) :
    childId ∈ db.childIds groupId ↔ db.parentOf childId = some groupId := by
  rw [parentOf_eq_some, Community.childIds, List.mem_map]
  constructor
  · rintro ⟨child, hchild, rfl⟩
    obtain ⟨hstored, hparent⟩ := List.mem_filter.mp hchild
    exact ⟨child, Table.get?_eq_some_iff.mpr ⟨hstored, rfl⟩, of_decide_eq_true hparent⟩
  · rintro ⟨child, hget, hparent⟩
    exact ⟨child, List.mem_filter.mpr ⟨Table.mem_of_get? hget, decide_eq_true hparent⟩,
      Table.key_of_get? hget⟩

theorem subtreeBase_eq (hgroup : db.groups.get? groupId = some group) :
    db.subtreeBase groupId = [groupId] := by
  have hkey : group.key = groupId := Table.key_of_get? hgroup
  rw [Community.subtreeBase, hgroup, Option.map_some, hkey, Option.toList_some]

/-- The ids that `descendant_ids` answers are those with the group in their chain. -/
theorem mem_descendantIds (hgroup : db.groups.get? groupId = some group) {ids : List RowId}
    (h : db.descendantIds? rounds groupId = some ids) (id : RowId) :
    id ∈ ids ↔ ∃ n, ancestor db.parentOf n id = some groupId := by
  rw [Community.descendantIds?, subtreeBase_eq hgroup] at h
  rw [mem_of_recursiveQuery h]
  refine exists_congr fun n ↦ ?_
  rw [mem_roundRows_children mem_childIds]
  simp

theorem descendantIds?_isSome (groupId : RowId) (hbounded : Bounded db.parentOf limit) (hle : limit ≤ rounds) :
    (db.descendantIds? rounds groupId).isSome := by
  have hrows := roundRows_children_eq_nil mem_childIds hbounded (db.subtreeBase groupId)
  rw [Community.descendantIds?, recursiveQuery_eq_some hrows hle, Option.isSome_some]

/-- The number that `subtree_depth` answers is the lowest level below the group. -/
theorem isGreatest_subtreeDepth (hgroup : db.groups.get? groupId = some group) {depth : ℕ}
    (h : db.subtreeDepth? rounds groupId = some depth) :
    IsGreatest {level | db.Level groupId level} depth := by
  obtain ⟨rows, hrows, rfl⟩ := Option.map_eq_some_iff.mp h
  rw [subtreeBase_eq hgroup] at hrows
  have hlevels : ∀ level, level ∈ rows.map Prod.snd ↔ db.Level groupId level := by
    intro level
    have hround : ∀ n, roundRows db.childLevels n [(groupId, 1)] =
        (roundRows db.childIds n [groupId]).map (·, 1 + n) :=
      fun n ↦ roundRows_withLevel n 1 [groupId]
    rw [List.mem_map]
    constructor
    · rintro ⟨⟨id, level⟩, hmem, rfl⟩
      obtain ⟨n, hn⟩ := (mem_of_recursiveQuery hrows).mp hmem
      rw [List.map_singleton, hround] at hn
      obtain ⟨id, hid, ⟨⟩⟩ := List.mem_map.mp hn
      obtain ⟨a, ha, hancestor⟩ := (mem_roundRows_children mem_childIds).mp hid
      rw [List.mem_singleton.mp ha] at hancestor
      exact ⟨n, id, hancestor, Nat.add_comm 1 n⟩
    · rintro ⟨n, id, hancestor, rfl⟩
      refine ⟨(id, n + 1), (mem_of_recursiveQuery hrows).mpr ⟨n, ?_⟩, rfl⟩
      rw [List.map_singleton, hround, Nat.add_comm n 1]
      refine List.mem_map_of_mem ((mem_roundRows_children mem_childIds).mpr ?_)
      exact ⟨groupId, List.mem_singleton_self groupId, hancestor⟩
  have hne : rows.map Prod.snd ≠ [] :=
    List.ne_nil_of_mem ((hlevels 1).mpr ⟨0, groupId, rfl, rfl⟩)
  have hgreatest := isGreatest_foldr_max hne
  simp only [hlevels] at hgreatest
  exact hgreatest

theorem subtreeDepth?_isSome (groupId : RowId) (hbounded : Bounded db.parentOf limit) (hle : limit ≤ rounds) :
    (db.subtreeDepth? rounds groupId).isSome := by
  have hrows : roundRows db.childLevels limit ((db.subtreeBase groupId).map (·, 1)) = [] := by
    refine (roundRows_withLevel limit 1 _).trans ?_
    rw [roundRows_children_eq_nil mem_childIds hbounded, List.map_nil]
  rw [Community.subtreeDepth?, recursiveQuery_eq_some hrows hle, Option.map_some, Option.isSome_some]

/-- On a forest the queries of a request end within its rounds. -/
theorem bounded_of_acyclic (hacyclic : Acyclic db.parentOf) :
    Bounded db.parentOf (GroupService.rounds db) := by
  have hnodes : ∀ groupId parentId, db.parentOf groupId = some parentId →
      groupId ∈ db.groups.rows.map GroupRow.key := by
    intro groupId parentId hparent
    obtain ⟨group, hget, -⟩ := parentOf_eq_some.mp hparent
    exact List.mem_map.mpr ⟨group, Table.mem_of_get? hget, Table.key_of_get? hget⟩
  have hlength := hacyclic.bounded hnodes
  rw [List.length_map] at hlength
  exact hlength

theorem bounded_rounds (hbounded : Bounded db.parentOf limit) :
    Bounded db.parentOf (GroupService.rounds db) :=
  bounded_of_acyclic fun _ groupId hn ↦ hbounded.acyclic hn groupId

end Queries

/-! ## The invariant -/

/-- The part of the check of a move that reads the tree. -/
def FitsUnder (db : Community) (groupId parentId : RowId) : Prop :=
  ∃ descendants ∈ db.descendantIds? (rounds db) groupId, parentId ∉ descendants ∧
    ∃ ancestors ∈ db.ancestorIds? (rounds db) parentId,
      ∃ depth ∈ db.subtreeDepth? (rounds db) groupId, ancestors.length + depth ≤ maxGroupDepth

instance (db : Community) (groupId parentId : RowId) : Decidable (FitsUnder db groupId parentId) :=
  inferInstanceAs (Decidable (∃ descendants ∈ db.descendantIds? (rounds db) groupId, _))

/-- What every request keeps of the tree. -/
structure GroupForest (db : Community) : Prop where
  parentsExist : db.ParentsExist
  bounded : Bounded db.parentOf maxGroupDepth

section Steps

variable {db db' : Community} {userId parentId : RowId} {group old : GroupRow}

theorem GroupForest.of_init (h : groupService.init db) : GroupForest db := by
  have hnone : ∀ groupId, db.parentOf groupId = none := by
    intro groupId
    rw [Community.parentOf, h.1]
    rfl
  refine ⟨fun groupId parentId hparent ↦ ?_, fun groupId ↦ ?_⟩
  · rw [hnone] at hparent
    cases hparent
  · rw [maxGroupDepth, ancestor_succ, hnone, Option.bind_none]

/-- Every ancestor of a stored group is stored. -/
theorem isSome_of_ancestor (hparents : db.ParentsExist) {n : ℕ} {groupId id : RowId}
    (hgroup : (db.groups.get? groupId).isSome) (h : ancestor db.parentOf n groupId = some id) :
    (db.groups.get? id).isSome := by
  induction n generalizing groupId with
  | zero =>
    cases h
    exact hgroup
  | succ n ih =>
    obtain ⟨parentId, hparent, h⟩ := Option.bind_eq_some_iff.mp h
    exact ih (hparents _ _ hparent) h

/-- What has an ancestor of a positive number that is not stored is not stored itself. -/
theorem eq_of_ancestor_of_fresh (hparents : db.ParentsExist) {n : ℕ} {groupId id : RowId}
    (hfresh : db.groups.get? id = none) (h : ancestor db.parentOf n groupId = some id) :
    n = 0 ∧ groupId = id := by
  cases n with
  | zero => exact ⟨rfl, Option.some.inj h⟩
  | succ n =>
    obtain ⟨parentId, hparent, h⟩ := Option.bind_eq_some_iff.mp h
    have hstored := isSome_of_ancestor hparents (hparents _ _ hparent) h
    rw [hfresh] at hstored
    cases hstored

/-- A new group is carried by a parent whose chain is short enough. -/
theorem GroupForest.carries_of_fresh (hforest : GroupForest db)
    (hfresh : db.groups.get? group.id = none) (hparent : (db.activeGroup? parentId).isSome)
    {ids : List RowId} (hids : db.ancestorIds? (rounds db) parentId = some ids)
    (hdepth : ids.length + 1 ≤ maxGroupDepth) :
    Carries db.parentOf maxGroupDepth group.id parentId := by
  obtain ⟨parent, hparent⟩ := Option.isSome_iff_exists.mp hparent
  obtain ⟨hstored, -, -⟩ := activeGroup?_eq_some hparent
  refine ⟨fun n hn ↦ ?_, fun n m id hn hm ↦ ?_⟩
  · have hself := isSome_of_ancestor hforest.parentsExist (hstored ▸ rfl) hn
    rw [hfresh] at hself
    cases hself
  · obtain ⟨rfl, -⟩ := eq_of_ancestor_of_fresh hforest.parentsExist hfresh hn
    rw [← getElem?_ancestorIds hforest.parentsExist hstored hids] at hm
    have hlt : m < ids.length := by simpa using hm
    omega

theorem fitsUnder_of_checkParent {groupId : RowId}
    (hcheck : checkParent db userId groupId parentId = .ok ()) :
    FitsUnder db groupId parentId ∧ (db.groups.get? parentId).isSome := by
  obtain ⟨-, -, hcheck⟩ := bind_eq_ok.mp hcheck
  obtain ⟨parent, hparent, hcheck⟩ := bind_eq_ok.mp hcheck
  obtain ⟨descendants, hdescendants, hcheck⟩ := bind_eq_ok.mp hcheck
  obtain ⟨_, hbelow, hcheck⟩ := bind_eq_ok.mp hcheck
  obtain ⟨-, -, hcheck⟩ := bind_eq_ok.mp hcheck
  obtain ⟨ids, hids, hcheck⟩ := bind_eq_ok.mp hcheck
  obtain ⟨depth, hheight, hdepth⟩ := bind_eq_ok.mp hcheck
  obtain ⟨hstored, -, -⟩ := activeGroup?_eq_some (okOr_eq_ok.mp hparent)
  exact ⟨⟨descendants, okOr_eq_ok.mp hdescendants, require_eq_ok.mp hbelow, ids,
    okOr_eq_ok.mp hids, depth, okOr_eq_ok.mp hheight, require_eq_ok.mp hdepth⟩, hstored ▸ rfl⟩

/-- The queries of a move tell whether the parent carries the group. -/
theorem GroupForest.fitsUnder_iff (hforest : GroupForest db) {groupId : RowId}
    (hgroup : (db.groups.get? groupId).isSome) (hparent : (db.groups.get? parentId).isSome) :
    FitsUnder db groupId parentId ↔ Carries db.parentOf maxGroupDepth groupId parentId := by
  obtain ⟨group, hgroup⟩ := Option.isSome_iff_exists.mp hgroup
  obtain ⟨parent, hparent⟩ := Option.isSome_iff_exists.mp hparent
  constructor
  · rintro ⟨descendants, hdescendants, hbelow, ids, hids, depth, hheight, hdepth⟩
    refine ⟨fun n hn ↦ hbelow ((mem_descendantIds hgroup hdescendants parentId).mpr ⟨n, hn⟩), ?_⟩
    intro n m id hn hm
    have hlevel : n + 1 ≤ depth := (isGreatest_subtreeDepth hgroup hheight).2 ⟨n, id, hn, rfl⟩
    rw [← getElem?_ancestorIds hforest.parentsExist hparent hids] at hm
    have hlt : m < ids.length := by simpa using hm
    omega
  · intro hcarries
    have hbounded := bounded_rounds hforest.bounded
    obtain ⟨descendants, hdescendants⟩ := Option.isSome_iff_exists.mp
      (descendantIds?_isSome groupId hbounded (Nat.le_refl _))
    obtain ⟨ids, hids⟩ := Option.isSome_iff_exists.mp
      (ancestorIds?_isSome hforest.parentsExist hbounded (Nat.le_refl _) hparent)
    obtain ⟨depth, hheight⟩ := Option.isSome_iff_exists.mp
      (subtreeDepth?_isSome groupId hbounded (Nat.le_refl _))
    refine ⟨descendants, hdescendants, fun hbelow ↦ ?_, ids, hids, depth, hheight, ?_⟩
    · obtain ⟨n, hn⟩ := (mem_descendantIds hgroup hdescendants parentId).mp hbelow
      exact hcarries.notBelow n hn
    · have hchain := getElem?_ancestorIds hforest.parentsExist hparent hids
      have hpos : 0 < ids.length := by
        by_contra hempty
        have hself := hchain 0
        rw [List.getElem?_eq_none (Nat.le_of_not_lt hempty)] at hself
        cases hself
      obtain ⟨n, id, hn, hlevel⟩ := (isGreatest_subtreeDepth hgroup hheight).1
      have hroot : ancestor db.parentOf (ids.length - 1) parentId ≠ none := by
        rw [← hchain, List.getElem?_eq_getElem (Nat.sub_one_lt (Nat.ne_of_gt hpos))]
        exact Option.some_ne_none _
      have hfits := hcarries.fits n (ids.length - 1) id hn hroot
      omega

/-- A group whose row is written has the parent of the row. -/
theorem parentOf_update (hgroups : db'.groups.get? =
      Function.update db.groups.get? group.id (some group)) :
    db'.parentOf = Function.update db.parentOf group.id group.parentId := by
  funext groupId
  rw [Community.parentOf, hgroups, Function.update_apply, Function.update_apply]
  split <;> rfl

theorem groups_update (hold : db.groups.get? group.id = some old)
    (hgroups : db'.groups = db.groups.replace group) :
    db'.groups.get? = Function.update db.groups.get? group.id (some group) := by
  have hold : db.groups.get? group.key = some old := hold
  rw [hgroups]
  exact Table.get?_replace_eq_update hold

/-- A written group keeps the forest when its parent is none or carries it. -/
theorem GroupForest.of_update (hforest : GroupForest db) (hgroups : db'.groups.get? =
      Function.update db.groups.get? group.id (some group))
    (hplaced : ∀ parentId, group.parentId = some parentId →
      Carries db.parentOf maxGroupDepth group.id parentId ∧ (db.groups.get? parentId).isSome) :
    GroupForest db' := by
  have hparentOf := parentOf_update hgroups
  have hstored : ∀ groupId, (db.groups.get? groupId).isSome → (db'.groups.get? groupId).isSome := by
    intro groupId hgroup
    rw [hgroups, Function.update_apply]
    split
    · rfl
    · exact hgroup
  constructor
  · intro groupId parentId hparent
    rw [hparentOf, Function.update_apply] at hparent
    split at hparent
    · exact hstored _ (hplaced _ hparent).2
    · exact hstored _ (hforest.parentsExist _ _ hparent)
  · rw [hparentOf]
    cases hid : group.parentId with
    | none => exact bounded_update_none hforest.bounded
    | some parentId => exact (bounded_update_some_iff hforest.bounded).mpr (hplaced _ hid).1

/-- A written group that keeps its parent keeps the forest. -/
theorem GroupForest.of_same_parent (hforest : GroupForest db)
    (hold : db.groups.get? group.id = some old) (hparent : group.parentId = old.parentId)
    (hgroups : db'.groups = db.groups.replace group) : GroupForest db' := by
  have hupdate := groups_update hold hgroups
  have hparentOf : db'.parentOf = db.parentOf := by
    have hsame : db.parentOf group.id = group.parentId := by
      rw [Community.parentOf, hold, Option.bind_some, hparent]
    rw [parentOf_update hupdate, ← hsame, Function.update_eq_self]
  constructor
  · intro groupId parentId hid
    rw [hparentOf] at hid
    rw [hupdate, Function.update_apply]
    split
    · rfl
    · exact hforest.parentsExist _ _ hid
  · rw [hparentOf]
    exact hforest.bounded

theorem GroupForest.of_groups (hforest : GroupForest db) (hgroups : db'.groups = db.groups) :
    GroupForest db' := by
  have hparentOf : db'.parentOf = db.parentOf := by
    funext groupId
    rw [Community.parentOf, hgroups, Community.parentOf]
  refine ⟨?_, hparentOf ▸ hforest.bounded⟩
  unfold Community.ParentsExist
  rw [hparentOf, hgroups]
  exact hforest.parentsExist

theorem GroupForest.of_effect {action : GroupAction} (hforest : GroupForest db)
    (heffect : GroupEffect db action db') : GroupForest db' := by
  cases heffect with
  | kept hgroups hmembers => exact hforest.of_groups hgroups
  | created group owner hgroups hmembers howner hrole hactive hstatus hplaced =>
    have hfresh : db.groups.get? group.id = none := Table.get?_eq_none_of_insert? hgroups
    refine hforest.of_update (Table.get?_insert?_eq_update hgroups) fun parentId hparent ↦ ?_
    obtain ⟨hactive, ids, hids, hdepth⟩ := hplaced parentId hparent
    refine ⟨hforest.carries_of_fresh hfresh hactive hids hdepth, ?_⟩
    obtain ⟨parent, hparent⟩ := Option.isSome_iff_exists.mp hactive
    rw [(activeGroup?_eq_some hparent).1, Option.isSome_some]
  | changed old group hold howner hgroups hmembers hchange =>
    cases hchange with
    | edited hparent hstatus => exact hforest.of_same_parent hold hparent hgroups
    | moved hactive hstatus hplaced =>
      refine hforest.of_update (groups_update hold hgroups) fun parentId hparent ↦ ?_
      obtain ⟨userId, hcheck⟩ := hplaced parentId hparent
      obtain ⟨hfits, hstored⟩ := fitsUnder_of_checkParent hcheck
      exact ⟨(hforest.fitsUnder_iff (hold ▸ rfl) hstored).mp hfits, hstored⟩
    | dissolved hparent hstatus hchildless => exact hforest.of_same_parent hold hparent hgroups
    | administered now status haction hparent hstatus =>
      exact hforest.of_same_parent hold hparent hgroups
  | reassigned old member hold hrole hmember hgroups hmembers => exact hforest.of_groups hgroups
  | activated member hactivates hrole hgroups hmembers => exact hforest.of_groups hgroups
  | transferred old group target hold howner hparent hstatus htarget hgroups hmembers =>
    exact hforest.of_same_parent hold hparent hgroups

theorem GroupForest.step {action : GroupAction} (hforest : GroupForest db)
    (hstep : groupService.step db action = some db') : GroupForest db' := by
  cases hstep
  unfold GroupAction.next
  cases happly : action.apply db with
  | error e => exact hforest
  | ok db' => exact hforest.of_effect (GroupAction.apply_effect happly)

end Steps

/-! ## Every run -/

/-- The groups form a forest of bounded depth, and the queries that have as many rounds as
the depth or as a request gives them end and answer what they are named for. -/
structure TreeSound (db : Community) : Prop where
  parentsExist : db.ParentsExist
  acyclic : ∀ n groupId, 0 < n → ancestor db.parentOf n groupId ≠ some groupId
  shallow : ∀ groupId, ancestor db.parentOf maxGroupDepth groupId = none
  ancestors : ∀ rounds, maxGroupDepth ≤ rounds ∨ GroupService.rounds db ≤ rounds →
    ∀ groupId, (db.groups.get? groupId).isSome → ∃ ids,
      db.ancestorIds? rounds groupId = some ids ∧
        ∀ n : ℕ, ids[n]? = ancestor db.parentOf n groupId
  descendants : ∀ rounds, maxGroupDepth ≤ rounds ∨ GroupService.rounds db ≤ rounds →
    ∀ groupId, (db.groups.get? groupId).isSome → ∃ ids,
      db.descendantIds? rounds groupId = some ids ∧
        ∀ id, id ∈ ids ↔ ∃ n, ancestor db.parentOf n id = some groupId
  height : ∀ rounds, maxGroupDepth ≤ rounds ∨ GroupService.rounds db ≤ rounds →
    ∀ groupId, (db.groups.get? groupId).isSome → ∃ depth,
      db.subtreeDepth? rounds groupId = some depth ∧
        IsGreatest {level | db.Level groupId level} depth

theorem GroupForest.treeSound {db : Community} (hforest : GroupForest db) : TreeSound db := by
  have hbounded : ∀ rounds, maxGroupDepth ≤ rounds ∨ GroupService.rounds db ≤ rounds →
      Bounded db.parentOf rounds := by
    rintro rounds (hle | hle)
    · exact hforest.bounded.mono hle
    · exact (bounded_rounds hforest.bounded).mono hle
  constructor
  · exact hforest.parentsExist
  · exact fun n groupId hn ↦ hforest.bounded.acyclic hn groupId
  · exact hforest.bounded
  · intro rounds hrounds groupId hgroup
    obtain ⟨group, hgroup⟩ := Option.isSome_iff_exists.mp hgroup
    obtain ⟨ids, hids⟩ := Option.isSome_iff_exists.mp (ancestorIds?_isSome hforest.parentsExist
      (hbounded rounds hrounds) (Nat.le_refl rounds) hgroup)
    exact ⟨ids, hids, getElem?_ancestorIds hforest.parentsExist hgroup hids⟩
  · intro rounds hrounds groupId hgroup
    obtain ⟨group, hgroup⟩ := Option.isSome_iff_exists.mp hgroup
    obtain ⟨ids, hids⟩ := Option.isSome_iff_exists.mp
      (descendantIds?_isSome groupId (hbounded rounds hrounds) (Nat.le_refl rounds))
    exact ⟨ids, hids, mem_descendantIds hgroup hids⟩
  · intro rounds hrounds groupId hgroup
    obtain ⟨group, hgroup⟩ := Option.isSome_iff_exists.mp hgroup
    obtain ⟨depth, hdepth⟩ := Option.isSome_iff_exists.mp
      (subtreeDepth?_isSome groupId (hbounded rounds hrounds) (Nat.le_refl rounds))
    exact ⟨depth, hdepth, isGreatest_subtreeDepth hgroup hdepth⟩

theorem treeSound_iff {db : Community} : TreeSound db ↔ GroupForest db :=
  ⟨fun hsound ↦ ⟨hsound.parentsExist, hsound.shallow⟩, GroupForest.treeSound⟩

/-- From a community without groups on, the tree and its queries are sound in every state. -/
theorem always_treeSound {db : Community} (hinit : groupService.init db)
    (actions : List GroupAction) : groupService.Always TreeSound db actions :=
  (TransitionSystem.always_of_step (fun _ _ _ hforest hstep ↦ hforest.step hstep) db actions
    (GroupForest.of_init hinit)).mono fun _ ↦ GroupForest.treeSound

/-- The upper group is deleted, and the lower one is to carry it. -/
theorem always_treeSound_nested :
    groupService.Always TreeSound Sample.community (Sample.nestedRun ++
      [.update Sample.founderId Sample.teamId (Sample.move (some Sample.childId)),
        .setGroupStatus 2 Sample.teamId .deleted]) :=
  always_treeSound Sample.init_community _

end Server

end SkillHive
