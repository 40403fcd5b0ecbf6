import SkillHive.Foundation.RecursiveQuery
import SkillHive.Server.Directory

/-!
# The rows of groups

Groups with the columns that their services read and write, memberships, invitations and
requests to join, and the queries of the repository. The queries along the tree are
recursive and follow the parents of all groups, whatever their status.
-/

namespace SkillHive

open Foundation

namespace Server

/-! ## Rows -/

inductive AccountStatus where
  | active
  | disabled
  | deleted
  deriving DecidableEq, Repr

/-- The columns of `users` that an invitation reads. -/
structure Account extends User where
  username : String
  email : String
  status : AccountStatus
  deriving DecidableEq, Repr

def Account.key (account : Account) : RowId := account.id

inductive JoinPolicy where
  | inviteOnly
  | approvalRequired
  | inviteLink
  | publicJoin
  deriving DecidableEq, Repr

structure GroupRow extends Group where
  name : String
  description : String
  joinPolicy : JoinPolicy
  allowMemberInvite : Bool
  createdBy : RowId
  deletedAt : Option ℕ
  deriving DecidableEq, Repr

def GroupRow.key (group : GroupRow) : RowId := group.id

structure MemberRow extends GroupMember where
  joinedAt : ℕ
  invitedBy : Option RowId
  deriving DecidableEq, Repr

/-- `uq_group_member` -/
def MemberRow.key (member : MemberRow) : RowId × RowId := member.toGroupMember.key

inductive InvitationStatus where
  | pending
  | accepted
  | declined
  | expired
  deriving DecidableEq, Repr

/-- A row of `group_invitations`. -/
structure GroupInvitation where
  id : RowId
  groupId : RowId
  inviteeId : RowId
  invitedBy : RowId
  status : InvitationStatus
  expiresAt : ℕ
  respondedAt : Option ℕ
  deriving DecidableEq, Repr

/-- `uq_active_invitation` -/
def GroupInvitation.scope (invitation : GroupInvitation) : RowId × RowId × InvitationStatus :=
  (invitation.groupId, invitation.inviteeId, invitation.status)

inductive RequestStatus where
  | pending
  | approved
  | rejected
  deriving DecidableEq, Repr

/-- A row of `group_join_requests`. -/
structure GroupJoinRequest where
  id : RowId
  groupId : RowId
  userId : RowId
  message : String
  status : RequestStatus
  reviewedBy : Option RowId
  reviewedAt : Option ℕ
  deriving DecidableEq, Repr

/-- `uq_active_join_request` -/
def GroupJoinRequest.scope (request : GroupJoinRequest) : RowId × RowId × RequestStatus :=
  (request.groupId, request.userId, request.status)

structure Community where
  accounts : Table Account Account.key
  groups : Table GroupRow GroupRow.key
  members : Table MemberRow MemberRow.key
  invitations : Table GroupInvitation GroupInvitation.id
  joinRequests : Table GroupJoinRequest GroupJoinRequest.id

namespace Community

variable (db : Community)

/-- What roles are resolved from. -/
def directory : Directory where
  users := ⟨db.accounts.rows.map Account.toUser, by
    rw [List.map_map]
    exact db.accounts.nodup_keys⟩
  groups := ⟨db.groups.rows.map GroupRow.toGroup, by
    rw [List.map_map]
    exact db.groups.nodup_keys⟩
  members := ⟨db.members.rows.map MemberRow.toGroupMember, by
    rw [List.map_map]
    exact db.members.nodup_keys⟩
  grants := .empty

/-! ## Lookups -/

/-- `get_active` -/
def activeGroup? (groupId : RowId) : Option GroupRow :=
  (db.groups.get? groupId).filter fun group ↦ group.status = .active

/-- `membership` -/
def membership? (groupId userId : RowId) : Option MemberRow :=
  (db.members.get? (groupId, userId)).filter fun member ↦ member.status = .active

/-- `active_child_count` -/
def activeChildCount (groupId : RowId) : ℕ :=
  db.groups.rows.countP fun group ↦ group.parentId = some groupId ∧ group.status = .active

/-! ## The tree -/

/-- The parent of a group, as its column has it. -/
def parentOf (groupId : RowId) : Option RowId := (db.groups.get? groupId).bind (·.parentId)

/-- The parent group, joined over `parent_id`. -/
def parentRow (group : GroupRow) : List GroupRow := (group.parentId.bind db.groups.get?).toList

/-- The keys of the groups that are joined over their `parent_id`. -/
def childIds (groupId : RowId) : List RowId :=
  (db.groups.rows.filter fun child ↦ child.parentId = some groupId).map GroupRow.key

/-- The keys of the children one level down. -/
def childLevels (row : RowId × ℕ) : List (RowId × ℕ) :=
  (db.childIds row.1).map fun child ↦ (child, row.2 + 1)

/-- `ancestor_ids`, ended within the given number of rounds. -/
def ancestorIds? (rounds : ℕ) (groupId : RowId) : Option (List RowId) :=
  (recursiveQuery db.parentRow rounds (db.groups.get? groupId).toList).map
    (List.map GroupRow.key)

/-- The group itself, when it exists, as the base of a query downwards. -/
def subtreeBase (groupId : RowId) : List RowId := ((db.groups.get? groupId).map GroupRow.key).toList

/-- `descendant_ids`, ended within the given number of rounds. -/
def descendantIds? (rounds : ℕ) (groupId : RowId) : Option (List RowId) :=
  recursiveQuery db.childIds rounds (db.subtreeBase groupId)

/-- `subtree_depth`, ended within the given number of rounds. -/
def subtreeDepth? (rounds : ℕ) (groupId : RowId) : Option ℕ :=
  (recursiveQuery db.childLevels rounds ((db.subtreeBase groupId).map (·, 1))).map
    fun rows ↦ (rows.map Prod.snd).foldr max 0

/-! ## Writes -/

/-- `INSERT INTO groups` with the foreign key of the parent. -/
def insertGroup (group : GroupRow) : Except ServerError Community := do
  require (group.parentId.all fun parentId ↦ (db.groups.get? parentId).isSome)
    (.integrity "groups.parent_id")
  let groups ← okOr (db.groups.insert? group) (.integrity "groups.id")
  .ok { db with groups }

/-- `UPDATE groups` with the new value of a row. -/
def saveGroup (group : GroupRow) : Community := { db with groups := db.groups.replace group }

/-- `INSERT INTO group_members`, or the `UPDATE` of the membership that is there. -/
def saveMember (member : MemberRow) : Community :=
  match db.members.insert? member with
  | some members => { db with members }
  | none => { db with members := db.members.replace member }

/-- The other invitations of the pair have other statuses. -/
def InvitationFree (invitation : GroupInvitation) : Prop :=
  ∀ other ∈ db.invitations.rows, other.id ≠ invitation.id → other.scope ≠ invitation.scope

instance (invitation : GroupInvitation) : Decidable (db.InvitationFree invitation) :=
  inferInstanceAs (Decidable (∀ other ∈ db.invitations.rows, _ → _))

/-- `UPDATE group_invitations` -/
def saveInvitation (invitation : GroupInvitation) : Except ServerError Community := do
  require (db.InvitationFree invitation) (.integrity "uq_active_invitation")
  .ok { db with invitations := db.invitations.replace invitation }

/-- `INSERT INTO group_invitations` -/
def insertInvitation (invitation : GroupInvitation) : Except ServerError Community := do
  require (db.InvitationFree invitation) (.integrity "uq_active_invitation")
  let invitations ← okOr (db.invitations.insert? invitation) (.integrity "group_invitations.id")
  .ok { db with invitations }

/-- The other requests of the pair have other statuses. -/
def RequestFree (request : GroupJoinRequest) : Prop :=
  ∀ other ∈ db.joinRequests.rows, other.id ≠ request.id → other.scope ≠ request.scope

instance (request : GroupJoinRequest) : Decidable (db.RequestFree request) :=
  inferInstanceAs (Decidable (∀ other ∈ db.joinRequests.rows, _ → _))

/-- `UPDATE group_join_requests` -/
def saveRequest (request : GroupJoinRequest) : Except ServerError Community := do
  require (db.RequestFree request) (.integrity "uq_active_join_request")
  .ok { db with joinRequests := db.joinRequests.replace request }

/-- `INSERT INTO group_join_requests` -/
def insertRequest (request : GroupJoinRequest) : Except ServerError Community := do
  require (db.RequestFree request) (.integrity "uq_active_join_request")
  let joinRequests ← okOr (db.joinRequests.insert? request) (.integrity "group_join_requests.id")
  .ok { db with joinRequests }

end Community

end Server

end SkillHive
