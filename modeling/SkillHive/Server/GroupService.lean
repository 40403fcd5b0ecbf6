import SkillHive.Foundation.Program
import SkillHive.Foundation.TransitionSystem
import SkillHive.Server.GroupRows

/-!
# The group service

Every operation resolves the role of its caller, checks what it asks for and writes a group,
a membership, an invitation or a request in one transaction. An administrator changes the
status of a group and the role of a member past these checks.
-/

namespace SkillHive

open Foundation

namespace Server

def maxGroupDepth : ℕ := 16

/-- A recursive query that does not end answers nothing, and its request commits nothing. -/
def queryRunsOn : ServerError := .library "recursive query"

/-- `GROUP_NOT_FOUND` -/
def groupNotFound : ServerError := appError "GROUP_NOT_FOUND" "Group was not found." 404

/-- `MEMBER_NOT_FOUND` -/
def memberNotFound : ServerError := appError "MEMBER_NOT_FOUND" "Member was not found." 404

/-- `PERMISSION_DENIED` -/
def groupPermissionDenied (message : String) : ServerError := appError "PERMISSION_DENIED" message 403

/-- `GROUP_DEPTH_EXCEEDED` -/
def groupDepthExceeded : ServerError :=
  appError "GROUP_DEPTH_EXCEEDED" s!"Group nesting is limited to {maxGroupDepth} levels." 400

/-! ## Requests -/

structure GroupCreate where
  name : String
  description : String
  parentGroupId : Option RowId
  joinPolicy : JoinPolicy
  allowMemberInvite : Bool

/-- The outer `Option` of the parent tells whether the request sets it. -/
structure GroupUpdate where
  name : Option String
  description : Option String
  parentGroupId : Option (Option RowId)
  joinPolicy : Option JoinPolicy
  allowMemberInvite : Option Bool

/-- `Literal["admin", "member"]` -/
inductive AssignedRole where
  | admin
  | member
  deriving DecidableEq, Repr

def AssignedRole.role : AssignedRole → GroupRole
  | admin => .admin
  | member => .member

/-- `Literal["approved", "rejected"]` -/
inductive Decision where
  | approved
  | rejected
  deriving DecidableEq, Repr

def Decision.status : Decision → RequestStatus
  | approved => .approved
  | rejected => .rejected

/-- What a request draws from its surroundings. -/
structure GroupContext where
  now : ℕ
  /-- The key of a row that the request creates. -/
  newId : RowId
  /-- `str.lower` -/
  lower : String → String

namespace GroupService

open Directory (GroupRole.isManager)

variable (db : Community) (ctx : GroupContext) (userId : RowId)

/-! ## Roles of the caller -/

/-- `_effective_role_for` -/
def effectiveRoleFor (groupId : RowId) : Option GroupRole :=
  if db.directory.isGlobalAdmin userId then some .owner
  else db.directory.effectiveRole groupId userId

/-- `_member_context` -/
def memberContext (groupId : RowId) : Except ServerError (GroupRow × GroupRole) := do
  let group ← okOr (db.activeGroup? groupId) groupNotFound
  let role ← okOr (effectiveRoleFor db userId groupId) groupNotFound
  .ok (group, role)

/-- `_manager_context` -/
def managerContext (groupId : RowId) : Except ServerError (GroupRow × GroupRole) := do
  let (group, role) ← memberContext db userId groupId
  require (GroupRole.isManager role)
    (groupPermissionDenied "Group administrator permission is required.")
  .ok (group, role)

/-- `_owner_context` -/
def ownerContext (groupId : RowId) : Except ServerError (GroupRow × GroupRole) := do
  let (group, role) ← memberContext db userId groupId
  require (role = .owner) (groupPermissionDenied "Group owner permission is required.")
  .ok (group, role)

/-! ## The tree -/

/-- A recursive query on the stored groups; on a tree it needs no more rounds than groups. -/
def rounds : ℕ := db.groups.rows.length + 1

/-- The parent of a new group; an empty text names none. -/
def newParent (parentGroupId : Option RowId) : Except ServerError (Option RowId) :=
  match parentGroupId.filter fun id ↦ id.text ≠ "" with
  | none => .ok none
  | some parentId => do
    let parent ← okOr (db.activeGroup? parentId)
      (appError "GROUP_NOT_FOUND" "Parent group was not found." 404)
    require ((effectiveRoleFor db userId parent.id).any GroupRole.isManager)
      (groupPermissionDenied "Group administrator permission is required.")
    let ancestors ← okOr (db.ancestorIds? (rounds db) parent.id) queryRunsOn
    require (ancestors.length + 1 ≤ maxGroupDepth) groupDepthExceeded
    .ok (some parent.id)

/-- `create` -/
def create (data : GroupCreate) : Except ServerError Community := do
  let parentId ← newParent db userId data.parentGroupId
  let db ← db.insertGroup
    { id := ctx.newId
      ownerId := userId
      parentId := parentId
      status := .active
      name := strip data.name
      description := data.description
      joinPolicy := data.joinPolicy
      allowMemberInvite := data.allowMemberInvite
      createdBy := userId
      deletedAt := none }
  let members ← okOr (db.members.insert?
    { groupId := ctx.newId
      userId := userId
      role := .owner
      status := .active
      joinedAt := ctx.now
      invitedBy := none }) (.integrity "uq_group_member")
  .ok { db with members }

/-- The checks of `_apply_parent` on a parent that is not none. -/
def checkParent (groupId parentId : RowId) : Except ServerError Unit := do
  require (parentId ≠ groupId) (appError "GROUP_CYCLE" "A group cannot be its own parent." 400)
  let _ ← okOr (db.activeGroup? parentId)
    (appError "GROUP_NOT_FOUND" "Parent group was not found." 404)
  let descendants ← okOr (db.descendantIds? (rounds db) groupId) queryRunsOn
  require (parentId ∉ descendants)
    (appError "GROUP_CYCLE" "A group cannot move under its own subtree." 400)
  require ((effectiveRoleFor db userId parentId).any GroupRole.isManager)
    (groupPermissionDenied
      "Group administrator permission is required on the target parent.")
  let ancestors ← okOr (db.ancestorIds? (rounds db) parentId) queryRunsOn
  let depth ← okOr (db.subtreeDepth? (rounds db) groupId) queryRunsOn
  require (ancestors.length + depth ≤ maxGroupDepth) groupDepthExceeded

/-- `_apply_parent` -/
def applyParent (group : GroupRow) (newParentId : Option RowId) : Except ServerError GroupRow :=
  match newParentId with
  | none => .ok { group with parentId := none }
  | some parentId => do
    checkParent db userId group.id parentId
    .ok { group with parentId := some parentId }

/-- The part of `update` that moves the group, which is left to owners. -/
def moveGroup (group : GroupRow) (role : GroupRole) (parentGroupId : Option (Option RowId)) :
    Except ServerError GroupRow :=
  match parentGroupId with
  | none => .ok group
  | some newParentId => do
    require (role = .owner) (groupPermissionDenied "Group owner permission is required.")
    applyParent db userId group newParentId

/-- `update` -/
def update (groupId : RowId) (data : GroupUpdate) : Except ServerError Community := do
  let (group, role) ← managerContext db userId groupId
  let moved ← moveGroup db userId group role data.parentGroupId
  -- The policies are dropped from the request of a manager who is not the owner.
  let joinPolicy := if role = .owner then data.joinPolicy else none
  let allowMemberInvite := if role = .owner then data.allowMemberInvite else none
  .ok (db.saveGroup
    { moved with
      name := data.name.getD moved.name
      description := data.description.getD moved.description
      joinPolicy := joinPolicy.getD moved.joinPolicy
      allowMemberInvite := allowMemberInvite.getD moved.allowMemberInvite })

/-- `dissolve` -/
def dissolve (groupId : RowId) : Except ServerError Community := do
  let (group, _) ← ownerContext db userId groupId
  require (db.activeChildCount group.id = 0)
    (appError "GROUP_HAS_CHILDREN" "Dissolve or move the sub-groups first." 409)
  .ok (db.saveGroup { group with status := .deleted, deletedAt := some ctx.now })

/-! ## Joining -/

/-- `by_username_or_email` -/
def byUsernameOrEmail (identity : String) : Option Account :=
  let normalized := ctx.lower (strip identity)
  db.accounts.rows.find? fun account ↦ account.username = normalized ∨ account.email = normalized

/-- `invite` -/
def invite (groupId : RowId) (identity : String) : Except ServerError Community := do
  let (group, role) ← memberContext db userId groupId
  require (GroupRole.isManager role ∨ group.allowMemberInvite)
    (groupPermissionDenied "You cannot invite members.")
  let invitee ← okOr ((byUsernameOrEmail db ctx identity).filter fun account ↦
      account.status = .active)
    (appError "USER_NOT_FOUND" "An active user was not found." 404)
  require (db.membership? group.id invitee.id = none)
    (appError "ALREADY_MEMBER" "This user is already a member." 409)
  require (∀ other ∈ db.invitations.rows, other.scope ≠ (group.id, invitee.id, .pending))
    (appError "INVITATION_EXISTS" "A pending invitation already exists." 409)
  db.insertInvitation
    { id := ctx.newId
      groupId := group.id
      inviteeId := invitee.id
      invitedBy := userId
      status := .pending
      expiresAt := ctx.now + 7 * 24 * 3600
      respondedAt := none }

/-- `_activate_member` -/
def activateMember (groupId memberId : RowId) (invitedBy : Option RowId) : Community :=
  db.saveMember
    { groupId := groupId
      userId := memberId
      role := .member
      status := .active
      joinedAt := ctx.now
      invitedBy := invitedBy }

/-- The pending invitation that the caller responds to. -/
def pendingInvitation? (invitationId : RowId) : Option GroupInvitation :=
  (db.invitations.get? invitationId).filter fun invitation ↦
    invitation.inviteeId = userId ∧ invitation.status = .pending

/-- The response to an invitation that has not expired. -/
def answerInvitation (invitation : GroupInvitation) (accept : Bool) :
    Except ServerError Community := do
  let db ← db.saveInvitation
    { invitation with
      status := if accept then .accepted else .declined
      respondedAt := some ctx.now }
  if accept then
    .ok (activateMember db ctx invitation.groupId userId (some invitation.invitedBy))
  else .ok db

/-- `respond_invitation`: an expired invitation is marked, committed and refused. -/
def respondInvitation (invitationId : RowId) (accept : Bool) :
    Except ServerError (Community × Option ServerError) := do
  let invitation ← okOr (pendingInvitation? db userId invitationId)
    (appError "INVITATION_NOT_FOUND" "Invitation was not found." 404)
  if invitation.expiresAt < ctx.now then
    let db ← db.saveInvitation { invitation with status := .expired }
    .ok (db, some (appError "INVITATION_EXPIRED" "Invitation has expired." 410))
  else
    let db ← answerInvitation db ctx userId invitation accept
    .ok (db, none)

/-- `request_join` -/
def requestJoin (groupId : RowId) (message : String) : Except ServerError Community := do
  let group ← okOr (db.activeGroup? groupId) groupNotFound
  require (db.membership? group.id userId = none)
    (appError "ALREADY_MEMBER" "You are already a member." 409)
  if group.joinPolicy = .publicJoin then .ok (activateMember db ctx group.id userId none)
  else
    require (group.joinPolicy = .approvalRequired)
      (appError "JOIN_NOT_ALLOWED" "This group does not accept join requests." 403)
    require (∀ other ∈ db.joinRequests.rows, other.scope ≠ (group.id, userId, .pending))
      (appError "JOIN_REQUEST_EXISTS" "A pending request already exists." 409)
    db.insertRequest
      { id := ctx.newId
        groupId := group.id
        userId := userId
        message := message
        status := .pending
        reviewedBy := none
        reviewedAt := none }

/-- The pending request of the group that is reviewed. -/
def pendingRequest? (groupId requestId : RowId) : Option GroupJoinRequest :=
  (db.joinRequests.get? requestId).filter fun request ↦
    request.groupId = groupId ∧ request.status = .pending

/-- The request as a review leaves it. -/
def reviewed (request : GroupJoinRequest) (decision : Decision) : GroupJoinRequest :=
  { request with
    status := decision.status
    reviewedBy := some userId
    reviewedAt := some ctx.now }

/-- `review_join_request` -/
def reviewJoinRequest (groupId requestId : RowId) (decision : Decision) :
    Except ServerError Community := do
  let (group, _) ← managerContext db userId groupId
  let request ← okOr (pendingRequest? db group.id requestId)
    (appError "JOIN_REQUEST_NOT_FOUND" "Join request was not found." 404)
  let db ← db.saveRequest (reviewed ctx userId request decision)
  if decision = .approved then
    .ok (activateMember db ctx group.id request.userId (some userId))
  else .ok db

/-! ## Members -/

/-- `set_role` -/
def setRole (groupId memberId : RowId) (role : AssignedRole) : Except ServerError Community := do
  let (group, _) ← ownerContext db userId groupId
  let target ← okOr ((db.membership? group.id memberId).filter fun target ↦
    target.role ≠ .owner) memberNotFound
  .ok (db.saveMember { target with role := role.role })

/-- `remove_member` -/
def removeMember (groupId memberId : RowId) : Except ServerError Community := do
  let (group, actorRole) ← managerContext db userId groupId
  let target ← okOr (db.membership? group.id memberId) memberNotFound
  require (¬ (target.role = .owner ∨ actorRole = .admin ∧ target.role ≠ .member))
    (groupPermissionDenied "You cannot remove this member.")
  .ok (db.saveMember { target with status := .removed })

/-- The owner of a group, demoted unless he is the one to whom it is transferred. -/
def demoteOwner (group : GroupRow) (targetId : RowId) : Community :=
  match db.membership? group.id group.ownerId with
  | none => db
  | some current =>
    if current.userId = targetId then db else db.saveMember { current with role := .admin }

/-- `transfer_ownership` -/
def transferOwnership (groupId newOwnerId : RowId) : Except ServerError Community := do
  let (group, _) ← ownerContext db userId groupId
  let target ← okOr (db.membership? group.id newOwnerId)
    (appError "MEMBER_NOT_FOUND" "New owner must be an active member." 404)
  let db := (demoteOwner db group target.userId).saveMember { target with role := .owner }
  .ok (db.saveGroup { group with ownerId := target.userId })

/-- `leave` -/
def leave (groupId : RowId) : Except ServerError Community := do
  let group ← okOr (db.activeGroup? groupId) groupNotFound
  let membership ← okOr (db.membership? group.id userId) groupNotFound
  require (membership.role ≠ .owner)
    (appError "OWNER_CANNOT_LEAVE"
      "Transfer ownership or dissolve the group before leaving." 409)
  .ok (db.saveMember { membership with status := .left })

end GroupService

namespace AdminService

variable (db : Community) (now : ℕ)

/-- `set_group_status` -/
def setGroupStatus (groupId : RowId) (status : GroupStatus) : Except ServerError Community := do
  let group ← okOr (db.groups.get? groupId) groupNotFound
  .ok (db.saveGroup
    { group with
      status := status
      deletedAt := if status = .deleted then some now else none })

/-- `set_group_role` -/
def setGroupRole (groupId userId : RowId) (role : AssignedRole) : Except ServerError Community := do
  let notFound := appError "MEMBER_NOT_FOUND" "Group member was not found." 404
  let _ ← okOr (db.groups.get? groupId) notFound
  let membership ← okOr (db.membership? groupId userId) notFound
  require (membership.role ≠ .owner)
    (appError "OWNER_ROLE_PROTECTED" "Owner role cannot be changed here." 409)
  .ok (db.saveMember { membership with role := role.role })

end AdminService

/-! ## The services as a transition system -/

/-- A request of a user, or of an administrator. -/
inductive GroupAction where
  | create (ctx : GroupContext) (userId : RowId) (data : GroupCreate)
  | update (userId groupId : RowId) (data : GroupUpdate)
  | dissolve (ctx : GroupContext) (userId groupId : RowId)
  | invite (ctx : GroupContext) (userId groupId : RowId) (identity : String)
  | respondInvitation (ctx : GroupContext) (userId invitationId : RowId) (accept : Bool)
  | requestJoin (ctx : GroupContext) (userId groupId : RowId) (message : String)
  | reviewJoinRequest (ctx : GroupContext) (userId groupId requestId : RowId)
      (decision : Decision)
  | setRole (userId groupId memberId : RowId) (role : AssignedRole)
  | removeMember (userId groupId memberId : RowId)
  | transferOwnership (userId groupId newOwnerId : RowId)
  | leave (userId groupId : RowId)
  | setGroupStatus (now : ℕ) (groupId : RowId) (status : GroupStatus)
  | setGroupRole (groupId userId : RowId) (role : AssignedRole)

namespace GroupAction

/-- The rows that a request commits; an error before its commit leaves none. -/
def apply (db : Community) : GroupAction → Except ServerError Community
  | create ctx userId data => GroupService.create db ctx userId data
  | update userId groupId data => GroupService.update db userId groupId data
  | dissolve ctx userId groupId => GroupService.dissolve db ctx userId groupId
  | invite ctx userId groupId identity => GroupService.invite db ctx userId groupId identity
  | respondInvitation ctx userId invitationId accept =>
    (GroupService.respondInvitation db ctx userId invitationId accept).map Prod.fst
  | requestJoin ctx userId groupId message => GroupService.requestJoin db ctx userId groupId message
  | reviewJoinRequest ctx userId groupId requestId decision =>
    GroupService.reviewJoinRequest db ctx userId groupId requestId decision
  | setRole userId groupId memberId role => GroupService.setRole db userId groupId memberId role
  | removeMember userId groupId memberId => GroupService.removeMember db userId groupId memberId
  | transferOwnership userId groupId newOwnerId =>
    GroupService.transferOwnership db userId groupId newOwnerId
  | leave userId groupId => GroupService.leave db userId groupId
  | setGroupStatus now groupId status => AdminService.setGroupStatus db now groupId status
  | setGroupRole groupId userId role => AdminService.setGroupRole db groupId userId role

def next (db : Community) (action : GroupAction) : Community :=
  (action.apply db).toOption.getD db

end GroupAction

/-- The services on a community that has no group yet. -/
def groupService : TransitionSystem Community GroupAction where
  init db := db.groups = .empty ∧ db.members = .empty ∧ db.invitations = .empty ∧
    db.joinRequests = .empty
  step db action := some (action.next db)

/-! ## A small community -/

namespace Sample

def founderId : RowId := firstUser

def guestId : RowId := secondUser

def teamId : RowId := firstGroup

/-- An active account whose name is its key. -/
def account (userId : RowId) : Account where
  id := userId
  isGlobalAdmin := false
  username := userId.text
  email := userId.text ++ "@example.org"
  status := .active

/-- Two users and no group. -/
def community : Community where
  accounts := ⟨[account founderId, account guestId], by decide⟩
  groups := .empty
  members := .empty
  invitations := .empty
  joinRequests := .empty

theorem init_community : groupService.init community := ⟨rfl, rfl, rfl, rfl⟩

/-- The names are in lower case. -/
def groupContext (now : ℕ) (newId : RowId) : GroupContext := ⟨now, newId, id⟩

/-- A group that anybody may join. -/
def openGroup (parentGroupId : Option RowId) : GroupCreate where
  name := "Team"
  description := ""
  parentGroupId := parentGroupId
  joinPolicy := .publicJoin
  allowMemberInvite := false

/-- A request that only moves its group. -/
def move (parentGroupId : Option RowId) : GroupUpdate where
  name := none
  description := none
  parentGroupId := some parentGroupId
  joinPolicy := none
  allowMemberInvite := none

def childId : RowId := ⟨"group-2", by decide⟩

/-- A group and one below it. -/
def nestedRun : List GroupAction :=
  [.create (groupContext 0 teamId) founderId (openGroup none),
    .create (groupContext 1 childId) founderId (openGroup (some teamId))]

end Sample

end Server

end SkillHive
