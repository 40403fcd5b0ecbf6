import SkillHive.Server.GroupService

/-!
# What a request does to groups and memberships

One inversion of every operation: the groups and the memberships that it leaves, and the
checks that it passed. The invariants of ownership and of the tree are proved from it.
-/

namespace SkillHive

open Foundation

namespace Server

open GroupService

/-! ## Lookups -/

section Lookups

variable {db : Community} {userId groupId memberId : RowId} {group : GroupRow}
  {member : MemberRow} {role : GroupRole}

theorem activeGroup?_eq_some (h : db.activeGroup? groupId = some group) :
    db.groups.get? groupId = some group ∧ group.id = groupId ∧ group.status = .active := by
  obtain ⟨hget, hactive⟩ := Option.filter_eq_some_iff.mp h
  have hkey : group.key = groupId := Table.key_of_get? hget
  exact ⟨hget, hkey, of_decide_eq_true hactive⟩

theorem membership?_eq_some (h : db.membership? groupId memberId = some member) :
    db.members.get? (groupId, memberId) = some member ∧ member.key = (groupId, memberId) ∧
      member.status = .active := by
  obtain ⟨hget, hactive⟩ := Option.filter_eq_some_iff.mp h
  exact ⟨hget, Table.key_of_get? hget, of_decide_eq_true hactive⟩

theorem memberContext_eq_ok (h : memberContext db userId groupId = .ok (group, role)) :
    db.activeGroup? groupId = some group ∧ effectiveRoleFor db userId groupId = some role := by
  obtain ⟨group, hgroup, h⟩ := bind_eq_ok.mp h
  obtain ⟨role, hrole, h⟩ := bind_eq_ok.mp h
  cases h
  exact ⟨okOr_eq_ok.mp hgroup, okOr_eq_ok.mp hrole⟩

theorem managerContext_eq_ok (h : managerContext db userId groupId = .ok (group, role)) :
    db.activeGroup? groupId = some group := by
  obtain ⟨⟨group, role⟩, hcontext, h⟩ := bind_eq_ok.mp h
  obtain ⟨-, -, h⟩ := bind_eq_ok.mp h
  cases h
  exact (memberContext_eq_ok hcontext).1

theorem ownerContext_eq_ok (h : ownerContext db userId groupId = .ok (group, role)) :
    db.activeGroup? groupId = some group := by
  obtain ⟨⟨group, role⟩, hcontext, h⟩ := bind_eq_ok.mp h
  obtain ⟨-, -, h⟩ := bind_eq_ok.mp h
  cases h
  exact (memberContext_eq_ok hcontext).1

end Lookups

/-! ## Writes -/

section Writes

variable (db : Community)

@[simp]
theorem saveGroup_members (group : GroupRow) : (db.saveGroup group).members = db.members := rfl

@[simp]
theorem saveMember_groups (member : MemberRow) : (db.saveMember member).groups = db.groups := by
  unfold Community.saveMember
  split <;> rfl

@[simp]
theorem saveMember_invitations (member : MemberRow) :
    (db.saveMember member).invitations = db.invitations := by
  unfold Community.saveMember
  split <;> rfl

/-- A saved membership is the one of its key, and the others stay. -/
theorem saveMember_members (member : MemberRow) :
    (db.saveMember member).members.get? =
      Function.update db.members.get? member.key (some member) := by
  unfold Community.saveMember
  cases hinsert : db.members.insert? member with
  | some members => exact Table.get?_insert?_eq_update hinsert
  | none =>
    cases hold : db.members.get? member.key with
    | some old => exact Table.get?_replace_eq_update hold
    | none =>
      obtain ⟨members, hinserted⟩ := Table.insert?_isSome hold
      rw [hinsert] at hinserted
      cases hinserted

variable {db} {db' : Community}

theorem saveInvitation_eq_ok {invitation : GroupInvitation}
    (h : db.saveInvitation invitation = .ok db') :
    db.InvitationFree invitation ∧ db'.groups = db.groups ∧ db'.members = db.members ∧
      db'.invitations = db.invitations.replace invitation := by
  obtain ⟨_, hfree, h⟩ := bind_eq_ok.mp h
  cases h
  exact ⟨require_eq_ok.mp hfree, rfl, rfl, rfl⟩

theorem saveRequest_eq_ok {request : GroupJoinRequest} (h : db.saveRequest request = .ok db') :
    db.RequestFree request ∧ db'.groups = db.groups ∧ db'.members = db.members ∧
      db'.invitations = db.invitations := by
  obtain ⟨_, hfree, h⟩ := bind_eq_ok.mp h
  cases h
  exact ⟨require_eq_ok.mp hfree, rfl, rfl, rfl⟩

end Writes

/-! ## Activations -/

/-- The membership that a request makes a plain active one: the group and the user. -/
def GroupAction.activates? (db : Community) : GroupAction → Option (RowId × RowId)
  | .respondInvitation ctx userId invitationId true =>
    ((pendingInvitation? db userId invitationId).filter fun invitation ↦
      ¬ invitation.expiresAt < ctx.now ∧ db.InvitationFree
        { invitation with status := .accepted, respondedAt := some ctx.now }).map
      fun invitation ↦ (invitation.groupId, userId)
  | .requestJoin _ userId groupId _ =>
    ((db.activeGroup? groupId).filter fun group ↦
      db.membership? group.id userId = none ∧ group.joinPolicy = .publicJoin).map
      fun group ↦ (group.id, userId)
  | .reviewJoinRequest ctx userId groupId requestId .approved =>
    (managerContext db userId groupId).toOption.bind fun context ↦
      ((pendingRequest? db context.1.id requestId).filter fun request ↦
        db.RequestFree (reviewed ctx userId request .approved)).map
        fun request ↦ (context.1.id, request.userId)
  | _ => none

/-! ## Effects -/

/-- The ways in which the stored row of a group changes. -/
inductive GroupChange (db : Community) (action : GroupAction) (old group : GroupRow) : Prop
  /-- Neither the parent nor the status. -/
  | edited (hparent : group.parentId = old.parentId) (hstatus : group.status = old.status)
  /-- An active group is hung under another one, or becomes a root. -/
  | moved (hactive : old.status = .active) (hstatus : group.status = old.status)
      (hplaced : ∀ parentId, group.parentId = some parentId →
        ∃ userId, checkParent db userId group.id parentId = .ok ())
  /-- A group without active children is dissolved. -/
  | dissolved (hparent : group.parentId = old.parentId) (hstatus : group.status = .deleted)
      (hchildless : db.activeChildCount group.id = 0)
  /-- An administrator sets the status. -/
  | administered (now : ℕ) (status : GroupStatus)
      (haction : action = .setGroupStatus now group.id status)
      (hparent : group.parentId = old.parentId) (hstatus : group.status = status)

/-- What a request did to the groups and the memberships. -/
inductive GroupEffect (db : Community) (action : GroupAction) (db' : Community) : Prop
  | kept (hgroups : db'.groups = db.groups) (hmembers : db'.members = db.members)
  /-- A new group with its owner. -/
  | created (group : GroupRow) (owner : MemberRow)
      (hgroups : db.groups.insert? group = some db'.groups)
      (hmembers : db.members.insert? owner = some db'.members)
      (howner : owner.key = (group.id, group.ownerId)) (hrole : owner.role = .owner)
      (hactive : owner.status = .active) (hstatus : group.status = .active)
      (hplaced : ∀ parentId, group.parentId = some parentId →
        (db.activeGroup? parentId).isSome ∧ ∃ ancestors,
          db.ancestorIds? (rounds db) parentId = some ancestors ∧
            ancestors.length + 1 ≤ maxGroupDepth)
  | changed (old group : GroupRow) (hold : db.groups.get? group.id = some old)
      (howner : group.ownerId = old.ownerId)
      (hgroups : db'.groups = db.groups.replace group) (hmembers : db'.members = db.members)
      (hchange : GroupChange db action old group)
  /-- A member who is not an owner gets another role or leaves. -/
  | reassigned (old member : MemberRow) (hold : db.members.get? member.key = some old)
      (hrole : old.role ≠ .owner) (hmember : ¬ (member.status = .active ∧ member.role = .owner))
      (hgroups : db'.groups = db.groups)
      (hmembers : db'.members.get? = Function.update db.members.get? member.key (some member))
  /-- A user becomes a plain member. -/
  | activated (member : MemberRow) (hactivates : action.activates? db = some member.key)
      (hrole : member.role = .member) (hgroups : db'.groups = db.groups)
      (hmembers : db'.members.get? = Function.update db.members.get? member.key (some member))
  | transferred (old group : GroupRow) (target : MemberRow)
      (hold : db.groups.get? group.id = some old) (howner : group.ownerId = target.userId)
      (hparent : group.parentId = old.parentId) (hstatus : group.status = old.status)
      (htarget : db.membership? group.id target.userId = some target)
      (hgroups : db'.groups = db.groups.replace group)
      (hmembers : db'.members.get? =
        Function.update (demoteOwner db old target.userId).members.get?
          (group.id, target.userId) (some { target with role := .owner }))

section Effects

variable {db db' : Community} {ctx : GroupContext} {userId groupId : RowId}

theorem newParent_eq_ok {parentGroupId parentId : Option RowId}
    (h : newParent db userId parentGroupId = .ok parentId) (id : RowId) (hid : parentId = some id) :
    (db.activeGroup? id).isSome ∧ ∃ ancestors,
      db.ancestorIds? (rounds db) id = some ancestors ∧ ancestors.length + 1 ≤ maxGroupDepth := by
  subst hid
  unfold newParent at h
  split at h
  case h_1 => cases h
  case h_2 named _ =>
    obtain ⟨parent, hparent, h⟩ := bind_eq_ok.mp h
    obtain ⟨-, -, h⟩ := bind_eq_ok.mp h
    obtain ⟨ancestors, hancestors, h⟩ := bind_eq_ok.mp h
    obtain ⟨_, hdepth, h⟩ := bind_eq_ok.mp h
    cases h
    have hparent := okOr_eq_ok.mp hparent
    obtain ⟨-, hkey, -⟩ := activeGroup?_eq_some hparent
    refine ⟨?_, ancestors, okOr_eq_ok.mp hancestors, require_eq_ok.mp hdepth⟩
    rw [hkey, hparent]
    rfl

theorem create_effect {data : GroupCreate} (h : create db ctx userId data = .ok db') :
    GroupEffect db (.create ctx userId data) db' := by
  obtain ⟨parentId, hparent, h⟩ := bind_eq_ok.mp h
  obtain ⟨db₁, hgroup, h⟩ := bind_eq_ok.mp h
  obtain ⟨members, hmember, h⟩ := bind_eq_ok.mp h
  cases h
  obtain ⟨-, -, hgroup⟩ := bind_eq_ok.mp hgroup
  obtain ⟨groups, hinsert, hgroup⟩ := bind_eq_ok.mp hgroup
  cases hgroup
  exact .created _ _ (okOr_eq_ok.mp hinsert) (okOr_eq_ok.mp hmember) rfl rfl rfl rfl
    (newParent_eq_ok hparent)

theorem applyParent_eq_ok {old group : GroupRow} {newParentId : Option RowId}
    (h : applyParent db userId old newParentId = .ok group) :
    group = { old with parentId := newParentId } ∧
      ∀ id, newParentId = some id → checkParent db userId old.id id = .ok () := by
  unfold applyParent at h
  split at h
  case h_1 =>
    cases h
    exact ⟨rfl, fun _ hid ↦ (Option.not_mem_none _ hid).elim⟩
  case h_2 =>
    obtain ⟨_, hcheck, h⟩ := bind_eq_ok.mp h
    cases h
    refine ⟨rfl, fun id hid ↦ ?_⟩
    cases hid
    exact hcheck

theorem moveGroup_eq_ok {old group : GroupRow} {role : GroupRole}
    {parentGroupId : Option (Option RowId)}
    (h : moveGroup db userId old role parentGroupId = .ok group) :
    ∃ parentId, group = { old with parentId := parentId } ∧ (parentId = old.parentId ∨
      ∀ id, parentId = some id → checkParent db userId old.id id = .ok ()) := by
  unfold moveGroup at h
  split at h
  case h_1 =>
    cases h
    exact ⟨old.parentId, rfl, .inl rfl⟩
  case h_2 =>
    obtain ⟨-, -, h⟩ := bind_eq_ok.mp h
    obtain ⟨hgroup, hcheck⟩ := applyParent_eq_ok h
    exact ⟨_, hgroup, .inr hcheck⟩

/-- A saved group with the owner that it had. -/
theorem changed_of_saveGroup {action : GroupAction} {old group : GroupRow}
    (hget : db.groups.get? groupId = some old) (hid : group.id = groupId)
    (howner : group.ownerId = old.ownerId) (hchange : GroupChange db action old group) :
    GroupEffect db action (db.saveGroup group) :=
  .changed old group (hid ▸ hget) howner rfl rfl hchange

/-- A user who is made a member of a group. -/
theorem activated_of_activateMember {action : GroupAction} {db₁ : Community} {memberId : RowId}
    {invitedBy : Option RowId} (hactivates : action.activates? db = some (groupId, memberId))
    (hgroups : db₁.groups = db.groups) (hmembers : db₁.members = db.members) :
    GroupEffect db action (activateMember db₁ ctx groupId memberId invitedBy) := by
  refine .activated
    { groupId := groupId
      userId := memberId
      role := .member
      status := .active
      joinedAt := ctx.now
      invitedBy := invitedBy } hactivates rfl ((saveMember_groups _ _).trans hgroups) ?_
  rw [← hmembers]
  exact saveMember_members db₁ _

theorem update_effect {data : GroupUpdate} (h : update db userId groupId data = .ok db') :
    GroupEffect db (.update userId groupId data) db' := by
  obtain ⟨⟨old, role⟩, hcontext, h⟩ := bind_eq_ok.mp h
  obtain ⟨moved, hmove, h⟩ := bind_eq_ok.mp h
  cases h
  obtain ⟨hget, hkey, hactive⟩ := activeGroup?_eq_some (managerContext_eq_ok hcontext)
  obtain ⟨parentId, rfl, hparent⟩ := moveGroup_eq_ok hmove
  refine changed_of_saveGroup hget hkey rfl ?_
  rcases hparent with rfl | hplaced
  · exact .edited rfl rfl
  · exact .moved hactive rfl fun id hid ↦ ⟨userId, hplaced id hid⟩

theorem dissolve_effect (h : dissolve db ctx userId groupId = .ok db') :
    GroupEffect db (.dissolve ctx userId groupId) db' := by
  obtain ⟨⟨old, role⟩, hcontext, h⟩ := bind_eq_ok.mp h
  obtain ⟨_, hchildless, h⟩ := bind_eq_ok.mp h
  cases h
  obtain ⟨hget, hkey, -⟩ := activeGroup?_eq_some (ownerContext_eq_ok hcontext)
  exact changed_of_saveGroup hget hkey rfl (.dissolved rfl rfl (require_eq_ok.mp hchildless))

theorem invite_effect {identity : String} (h : invite db ctx userId groupId identity = .ok db') :
    GroupEffect db (.invite ctx userId groupId identity) db' := by
  obtain ⟨⟨group, role⟩, -, h⟩ := bind_eq_ok.mp h
  obtain ⟨-, -, h⟩ := bind_eq_ok.mp h
  obtain ⟨invitee, -, h⟩ := bind_eq_ok.mp h
  obtain ⟨-, -, h⟩ := bind_eq_ok.mp h
  obtain ⟨-, -, h⟩ := bind_eq_ok.mp h
  obtain ⟨-, -, h⟩ := bind_eq_ok.mp h
  obtain ⟨invitations, -, h⟩ := bind_eq_ok.mp h
  cases h
  exact .kept rfl rfl

theorem respondInvitation_effect {invitationId : RowId} {accept : Bool}
    {refusal : Option ServerError}
    (h : respondInvitation db ctx userId invitationId accept = .ok (db', refusal)) :
    GroupEffect db (.respondInvitation ctx userId invitationId accept) db' := by
  obtain ⟨invitation, hpending, h⟩ := bind_eq_ok.mp h
  split at h
  case isTrue =>
    obtain ⟨db₁, hsave, h⟩ := bind_eq_ok.mp h
    cases h
    obtain ⟨-, hgroups, hmembers, -⟩ := saveInvitation_eq_ok hsave
    exact .kept hgroups hmembers
  case isFalse hlive =>
    obtain ⟨db₁, hanswer, h⟩ := bind_eq_ok.mp h
    cases h
    obtain ⟨db₂, hsave, hanswer⟩ := bind_eq_ok.mp hanswer
    obtain ⟨hfree, hgroups, hmembers, -⟩ := saveInvitation_eq_ok hsave
    cases accept with
    | false =>
      cases hanswer
      exact .kept hgroups hmembers
    | true =>
      cases hanswer
      refine activated_of_activateMember ?_ hgroups hmembers
      have hopen := And.intro hlive hfree
      simp only [if_true] at hopen
      simp only [GroupAction.activates?, okOr_eq_ok.mp hpending, Option.filter_some,
        decide_eq_true hopen, if_true, Option.map_some]

theorem requestJoin_effect {message : String}
    (h : requestJoin db ctx userId groupId message = .ok db') :
    GroupEffect db (.requestJoin ctx userId groupId message) db' := by
  obtain ⟨group, hgroup, h⟩ := bind_eq_ok.mp h
  obtain ⟨_, hfree, h⟩ := bind_eq_ok.mp h
  split at h
  case isTrue hpublic =>
    cases h
    refine activated_of_activateMember ?_ rfl rfl
    have hopen := And.intro (require_eq_ok.mp hfree) hpublic
    simp only [GroupAction.activates?, okOr_eq_ok.mp hgroup, Option.filter_some,
      decide_eq_true hopen, if_true, Option.map_some]
  case isFalse =>
    obtain ⟨-, -, h⟩ := bind_eq_ok.mp h
    obtain ⟨-, -, h⟩ := bind_eq_ok.mp h
    obtain ⟨-, -, h⟩ := bind_eq_ok.mp h
    obtain ⟨joinRequests, -, h⟩ := bind_eq_ok.mp h
    cases h
    exact .kept rfl rfl

theorem reviewJoinRequest_effect {requestId : RowId} {decision : Decision}
    (h : reviewJoinRequest db ctx userId groupId requestId decision = .ok db') :
    GroupEffect db (.reviewJoinRequest ctx userId groupId requestId decision) db' := by
  obtain ⟨⟨group, role⟩, hcontext, h⟩ := bind_eq_ok.mp h
  obtain ⟨request, hpending, h⟩ := bind_eq_ok.mp h
  obtain ⟨db₁, hsave, h⟩ := bind_eq_ok.mp h
  obtain ⟨hfree, hgroups, hmembers, -⟩ := saveRequest_eq_ok hsave
  cases decision with
  | rejected =>
    cases h
    exact .kept hgroups hmembers
  | approved =>
    cases h
    refine activated_of_activateMember ?_ hgroups hmembers
    simp only [GroupAction.activates?, hcontext, Except.toOption, Option.bind_some,
      okOr_eq_ok.mp hpending, Option.filter_some, decide_eq_true hfree, if_true, Option.map_some]

/-- A saved membership of a member who is no owner. -/
theorem reassigned_of_saveMember {action : GroupAction} {old member : MemberRow} {memberId : RowId}
    (hold : db.membership? groupId memberId = some old) (hkey : member.key = old.key)
    (hrole : old.role ≠ .owner) (hmember : ¬ (member.status = .active ∧ member.role = .owner)) :
    GroupEffect db action (db.saveMember member) := by
  obtain ⟨hget, hold, -⟩ := membership?_eq_some hold
  exact .reassigned old member (by rw [hkey, hold, hget]) hrole hmember (saveMember_groups _ _)
    (saveMember_members db member)

theorem AssignedRole.role_ne_owner (role : AssignedRole) : role.role ≠ .owner := by
  cases role <;> exact GroupRole.noConfusion

theorem setRole_effect {memberId : RowId} {role : AssignedRole}
    (h : setRole db userId groupId memberId role = .ok db') :
    GroupEffect db (.setRole userId groupId memberId role) db' := by
  obtain ⟨⟨group, actorRole⟩, -, h⟩ := bind_eq_ok.mp h
  obtain ⟨target, htarget, h⟩ := bind_eq_ok.mp h
  cases h
  obtain ⟨htarget, hrole⟩ := Option.filter_eq_some_iff.mp (okOr_eq_ok.mp htarget)
  exact reassigned_of_saveMember htarget rfl (of_decide_eq_true hrole)
    fun hmember ↦ role.role_ne_owner hmember.2

theorem removeMember_effect {memberId : RowId} (h : removeMember db userId groupId memberId = .ok db') :
    GroupEffect db (.removeMember userId groupId memberId) db' := by
  obtain ⟨⟨group, actorRole⟩, -, h⟩ := bind_eq_ok.mp h
  obtain ⟨target, htarget, h⟩ := bind_eq_ok.mp h
  obtain ⟨_, hallowed, h⟩ := bind_eq_ok.mp h
  cases h
  exact reassigned_of_saveMember (okOr_eq_ok.mp htarget) rfl
    (fun howner ↦ require_eq_ok.mp hallowed (.inl howner))
    fun hmember ↦ MemberStatus.noConfusion hmember.1

theorem leave_effect (h : leave db userId groupId = .ok db') :
    GroupEffect db (.leave userId groupId) db' := by
  obtain ⟨group, -, h⟩ := bind_eq_ok.mp h
  obtain ⟨membership, hmembership, h⟩ := bind_eq_ok.mp h
  obtain ⟨_, hrole, h⟩ := bind_eq_ok.mp h
  cases h
  exact reassigned_of_saveMember (okOr_eq_ok.mp hmembership) rfl (require_eq_ok.mp hrole)
    fun hmember ↦ MemberStatus.noConfusion hmember.1

theorem demoteOwner_groups (group : GroupRow) (targetId : RowId) :
    (demoteOwner db group targetId).groups = db.groups := by
  unfold demoteOwner
  split
  · rfl
  · split
    · rfl
    · exact saveMember_groups _ _

theorem transferOwnership_effect {newOwnerId : RowId}
    (h : transferOwnership db userId groupId newOwnerId = .ok db') :
    GroupEffect db (.transferOwnership userId groupId newOwnerId) db' := by
  obtain ⟨⟨group, role⟩, hcontext, h⟩ := bind_eq_ok.mp h
  obtain ⟨target, htarget, h⟩ := bind_eq_ok.mp h
  cases h
  obtain ⟨hget, hid, -⟩ := activeGroup?_eq_some (ownerContext_eq_ok hcontext)
  obtain ⟨-, hkey, -⟩ := membership?_eq_some (okOr_eq_ok.mp htarget)
  have huser : target.userId = newOwnerId := congrArg Prod.snd hkey
  have hself : db.groups.get? group.id = some group := hid ▸ hget
  refine .transferred group { group with ownerId := target.userId } target hself rfl rfl rfl
    (huser ▸ okOr_eq_ok.mp htarget) ?_ ?_
  · simp only [Community.saveGroup, saveMember_groups, demoteOwner_groups]
  · have htargetKey : MemberRow.key { target with role := .owner } = (group.id, target.userId) :=
      hkey.trans (Prod.ext rfl huser.symm)
    rw [saveGroup_members, saveMember_members, htargetKey]

theorem setGroupStatus_eq_ok {now : ℕ} {status : GroupStatus}
    (h : AdminService.setGroupStatus db now groupId status = .ok db') :
    ∃ old group : GroupRow, db' = db.saveGroup group ∧ db.groups.get? groupId = some old ∧
      group.id = groupId ∧ group.ownerId = old.ownerId ∧ group.parentId = old.parentId ∧
      group.status = status := by
  obtain ⟨old, hold, h⟩ := bind_eq_ok.mp h
  cases h
  have hget := okOr_eq_ok.mp hold
  have hid : old.key = groupId := Table.key_of_get? hget
  exact ⟨old, _, rfl, hget, hid, rfl, rfl, rfl⟩

theorem setGroupStatus_effect {now : ℕ} {status : GroupStatus}
    (h : AdminService.setGroupStatus db now groupId status = .ok db') :
    GroupEffect db (.setGroupStatus now groupId status) db' := by
  obtain ⟨old, group, rfl, hold, rfl, howner, hparent, hstatus⟩ := setGroupStatus_eq_ok h
  exact changed_of_saveGroup hold rfl howner (.administered now status rfl hparent hstatus)

theorem setGroupRole_effect {role : AssignedRole}
    (h : AdminService.setGroupRole db groupId userId role = .ok db') :
    GroupEffect db (.setGroupRole groupId userId role) db' := by
  obtain ⟨-, -, h⟩ := bind_eq_ok.mp h
  obtain ⟨membership, hmembership, h⟩ := bind_eq_ok.mp h
  obtain ⟨_, hrole, h⟩ := bind_eq_ok.mp h
  cases h
  exact reassigned_of_saveMember (okOr_eq_ok.mp hmembership) rfl (require_eq_ok.mp hrole)
    fun hmember ↦ role.role_ne_owner hmember.2

/-- A request that commits has one of the effects. -/
theorem GroupAction.apply_effect {action : GroupAction} (h : action.apply db = .ok db') :
    GroupEffect db action db' := by
  cases action with
  | create ctx userId data => exact create_effect h
  | update userId groupId data => exact update_effect h
  | dissolve ctx userId groupId => exact dissolve_effect h
  | invite ctx userId groupId identity => exact invite_effect h
  | respondInvitation ctx userId invitationId accept =>
    obtain ⟨refusal, hrespond⟩ := map_fst_eq_ok.mp h
    exact respondInvitation_effect hrespond
  | requestJoin ctx userId groupId message => exact requestJoin_effect h
  | reviewJoinRequest ctx userId groupId requestId decision => exact reviewJoinRequest_effect h
  | setRole userId groupId memberId role => exact setRole_effect h
  | removeMember userId groupId memberId => exact removeMember_effect h
  | transferOwnership userId groupId newOwnerId => exact transferOwnership_effect h
  | leave userId groupId => exact leave_effect h
  | setGroupStatus now groupId status => exact setGroupStatus_effect h
  | setGroupRole groupId userId role => exact setGroupRole_effect h

end Effects

end Server

end SkillHive
