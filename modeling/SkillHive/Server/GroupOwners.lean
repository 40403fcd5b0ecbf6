import SkillHive.Server.GroupEffects

/-!
# The owner of a group

A group names its owner in a column and has a membership for him. The two agree as long as
nobody joins a group that he owns: an invitation or a request that is still pending when its
user becomes the owner makes him a plain member once it is accepted.
-/

namespace SkillHive

open Foundation

namespace Server

open GroupService

/-- The user has an active membership with the role of an owner. -/
def Community.IsOwner (db : Community) (groupId userId : RowId) : Prop :=
  ∃ member ∈ db.members.get? (groupId, userId), member.status = .active ∧ member.role = .owner

instance (db : Community) (groupId userId : RowId) : Decidable (db.IsOwner groupId userId) :=
  inferInstanceAs (Decidable (∃ member ∈ db.members.get? (groupId, userId), _))

/-- Every active group has one owner, the one of its column. -/
def HasSoleOwners (db : Community) : Prop :=
  ∀ groupId, ∀ group ∈ db.activeGroup? groupId, ∀ userId,
    db.IsOwner groupId userId ↔ userId = group.ownerId

/-- Every group has, and no owner is without his group. -/
def OwnersAgree (db : Community) : Prop :=
  ∀ groupId userId, db.IsOwner groupId userId ↔
    (db.groups.get? groupId).map (·.ownerId) = some userId

/-- The request makes nobody a plain member of a group that he owns. -/
def SparesOwners (db : Community) (action : GroupAction) : Prop :=
  ∀ key ∈ action.activates? db, ∀ group ∈ db.groups.get? key.1, group.ownerId ≠ key.2

instance (db : Community) (action : GroupAction) : Decidable (SparesOwners db action) :=
  inferInstanceAs (Decidable (∀ key ∈ action.activates? db, ∀ group ∈ db.groups.get? key.1, _))

section Steps

variable {db db' : Community} {action : GroupAction} {groupId userId : RowId}

theorem OwnersAgree.hasSoleOwners (h : OwnersAgree db) : HasSoleOwners db := by
  intro groupId group hgroup userId
  rw [h, (activeGroup?_eq_some hgroup).1, Option.map_some, Option.some.injEq, eq_comm]

theorem OwnersAgree.of_init (h : groupService.init db) : OwnersAgree db := by
  obtain ⟨hgroups, hmembers, -⟩ := h
  intro groupId userId
  unfold Community.IsOwner
  rw [hgroups, hmembers]
  simp

/-! ## Owners after a write -/

theorem isOwner_of_members (hmembers : db'.members = db.members) :
    db'.IsOwner groupId userId ↔ db.IsOwner groupId userId := by
  rw [Community.IsOwner, hmembers, Community.IsOwner]

/-- A written membership decides for its own pair. -/
theorem isOwner_update {key : RowId × RowId} {member : MemberRow}
    (hmembers : db'.members.get? = Function.update db.members.get? key (some member)) :
    db'.IsOwner groupId userId ↔
      if (groupId, userId) = key then member.status = .active ∧ member.role = .owner
      else db.IsOwner groupId userId := by
  rw [Community.IsOwner, hmembers, Function.update_apply]
  split
  · simp
  · rfl

theorem ownerId_replace {group old : GroupRow} (hold : db.groups.get? group.id = some old)
    (hgroups : db'.groups = db.groups.replace group) :
    (db'.groups.get? groupId).map (·.ownerId) =
      if groupId = group.id then some group.ownerId
      else (db.groups.get? groupId).map (·.ownerId) := by
  have hold : db.groups.get? group.key = some old := hold
  rw [hgroups, Table.get?_replace_eq_update hold, Function.update_apply, apply_ite (Option.map _)]
  rfl

/-- The owner steps down for the user who follows him, and nobody else changes. -/
theorem isOwner_demoteOwner {group : GroupRow} {id targetId : RowId} (hagree : OwnersAgree db)
    (hid : group.id = id) (hgroup : db.groups.get? id = some group)
    (hother : (groupId, userId) ≠ (id, targetId)) :
    (demoteOwner db group targetId).IsOwner groupId userId ↔
      groupId ≠ id ∧ db.IsOwner groupId userId := by
  subst hid
  have hsole : ∀ userId, db.IsOwner group.id userId ↔ group.ownerId = userId := by
    intro userId
    rw [hagree, hgroup, Option.map_some, Option.some.injEq]
  obtain ⟨owner, howner, hactive, -⟩ := (hsole group.ownerId).mpr rfl
  have hmembership : db.membership? group.id group.ownerId = some owner :=
    Option.filter_eq_some_iff.mpr ⟨howner, decide_eq_true hactive⟩
  have hkey : owner.key = (group.id, group.ownerId) := Table.key_of_get? howner
  unfold demoteOwner
  rw [hmembership]
  dsimp only
  split
  case isTrue heq =>
    -- The group is transferred to its owner.
    have hid : group.ownerId = targetId := (congrArg Prod.snd hkey).symm.trans heq
    refine ⟨fun h ↦ ⟨?_, h⟩, And.right⟩
    rintro rfl
    exact hother (Prod.ext rfl ((hsole userId).mp h ▸ hid))
  case isFalse =>
    have hdemoted : MemberRow.key { owner with role := .admin } = (group.id, group.ownerId) := hkey
    rw [isOwner_update (saveMember_members db _), hdemoted]
    split
    case isTrue heq =>
      cases heq
      simp
    case isFalse hne =>
      refine ⟨fun h ↦ ⟨?_, h⟩, And.right⟩
      rintro rfl
      exact hne (Prod.ext rfl ((hsole userId).mp h).symm)

/-! ## One request -/

/-- A request that lets nobody join keeps the owners. -/
theorem OwnersAgree.of_effect (hagree : OwnersAgree db) (heffect : GroupEffect db action db')
    (hnone : action.activates? db = none) : OwnersAgree db' := by
  intro groupId userId
  cases heffect with
  | kept hgroups hmembers => rw [isOwner_of_members hmembers, hgroups, hagree]
  | created group owner hgroups hmembers howner hrole hactive hstatus hplaced =>
    have hfresh : db.groups.get? group.id = none := Table.get?_eq_none_of_insert? hgroups
    have hgroupsGet : db'.groups.get? = Function.update db.groups.get? group.id (some group) :=
      Table.get?_insert?_eq_update hgroups
    rw [isOwner_update (Table.get?_insert?_eq_update hmembers), hgroupsGet, Function.update_apply,
      howner]
    by_cases hid : groupId = group.id
    · rw [if_pos hid, Option.map_some, Option.some.injEq]
      by_cases huser : group.ownerId = userId
      · simp [hid, huser, hactive, hrole]
      · rw [if_neg fun heq ↦ huser (congrArg Prod.snd heq).symm, hagree, hid, hfresh]
        simp [huser]
    · rw [if_neg hid, if_neg fun heq ↦ hid (congrArg Prod.fst heq), hagree]
  | changed old group hold howner hgroups hmembers hchange =>
    rw [isOwner_of_members hmembers, ownerId_replace hold hgroups, hagree]
    split
    case isTrue heq => rw [heq, hold, Option.map_some, howner]
    case isFalse => rfl
  | reassigned old member hold hrole hmember hgroups hmembers =>
    rw [isOwner_update hmembers, hgroups, ← hagree]
    split
    case isTrue heq =>
      rw [Community.IsOwner, heq, hold]
      simp [hmember, hrole]
    case isFalse => rfl
  | activated member hactivates hrole hgroups hmembers =>
    rw [hnone] at hactivates
    cases hactivates
  | transferred old group target hold howner hparent hstatus htarget hgroups hmembers =>
    obtain ⟨-, -, hactive⟩ := membership?_eq_some htarget
    have hkey : old.key = group.id := Table.key_of_get? hold
    rw [isOwner_update hmembers, ownerId_replace hold hgroups, howner]
    by_cases hid : groupId = group.id
    · rw [if_pos hid, Option.some.injEq]
      by_cases huser : target.userId = userId
      · simp [hid, huser, hactive]
      · have hother : (groupId, userId) ≠ (group.id, target.userId) :=
          fun heq ↦ huser (congrArg Prod.snd heq).symm
        rw [if_neg hother, isOwner_demoteOwner hagree hkey hold hother]
        simp [hid, huser]
    · have hother : (groupId, userId) ≠ (group.id, target.userId) :=
        fun heq ↦ hid (congrArg Prod.fst heq)
      rw [if_neg hid, if_neg hother, isOwner_demoteOwner hagree hkey hold hother, hagree]
      simp [hid]

/-- A request that lets a user join commits, and writes no more groups and memberships. -/
theorem apply_of_activates {key : RowId × RowId} (h : action.activates? db = some key) :
    ∃ db₁ ctx invitedBy, db₁.groups = db.groups ∧ db₁.members = db.members ∧
      action.apply db = .ok (activateMember db₁ ctx key.1 key.2 invitedBy) := by
  unfold GroupAction.activates? at h
  split at h
  case h_1 ctx userId invitationId =>
    obtain ⟨invitation, hinvitation, rfl⟩ := Option.map_eq_some_iff.mp h
    obtain ⟨hpending, hopen⟩ := Option.filter_eq_some_iff.mp hinvitation
    obtain ⟨hlive, hfree⟩ := of_decide_eq_true hopen
    let accepted : GroupInvitation :=
      { invitation with status := .accepted, respondedAt := some ctx.now }
    have hsave : db.saveInvitation accepted =
        .ok { db with invitations := db.invitations.replace accepted } :=
      bind_eq_ok.mpr ⟨(), require_eq_ok.mpr hfree, rfl⟩
    have hanswer : answerInvitation db ctx userId invitation true = .ok (activateMember
        { db with invitations := db.invitations.replace accepted } ctx invitation.groupId userId
        (some invitation.invitedBy)) := bind_eq_ok.mpr ⟨_, hsave, rfl⟩
    refine ⟨{ db with invitations := db.invitations.replace accepted }, ctx,
      some invitation.invitedBy, rfl, rfl, map_fst_eq_ok.mpr ⟨none, ?_⟩⟩
    refine bind_eq_ok.mpr ⟨invitation, okOr_eq_ok.mpr hpending, ?_⟩
    rw [if_neg hlive]
    exact bind_eq_ok.mpr ⟨_, hanswer, rfl⟩
  case h_2 ctx userId groupId message =>
    obtain ⟨group, hjoinable, rfl⟩ := Option.map_eq_some_iff.mp h
    obtain ⟨hgroup, hopen⟩ := Option.filter_eq_some_iff.mp hjoinable
    obtain ⟨hnew, hpublic⟩ := of_decide_eq_true hopen
    refine ⟨db, ctx, none, rfl, rfl, bind_eq_ok.mpr ⟨group, okOr_eq_ok.mpr hgroup, ?_⟩⟩
    refine bind_eq_ok.mpr ⟨(), require_eq_ok.mpr hnew, ?_⟩
    rw [if_pos hpublic]
  case h_3 ctx userId groupId requestId =>
    obtain ⟨⟨group, role⟩, hcontext, hreviewed⟩ := Option.bind_eq_some_iff.mp h
    obtain ⟨request, hrequest, rfl⟩ := Option.map_eq_some_iff.mp hreviewed
    obtain ⟨hpending, hopen⟩ := Option.filter_eq_some_iff.mp hrequest
    have hfree := of_decide_eq_true hopen
    have hsave : db.saveRequest (reviewed ctx userId request .approved) =
        .ok { db with joinRequests :=
          db.joinRequests.replace (reviewed ctx userId request .approved) } :=
      bind_eq_ok.mpr ⟨(), require_eq_ok.mpr hfree, rfl⟩
    refine ⟨{ db with joinRequests :=
        db.joinRequests.replace (reviewed ctx userId request .approved) }, ctx, some userId, rfl, rfl,
      bind_eq_ok.mpr ⟨(group, role), toOption_eq_some.mp hcontext, ?_⟩⟩
    refine bind_eq_ok.mpr ⟨request, okOr_eq_ok.mpr hpending, ?_⟩
    exact bind_eq_ok.mpr ⟨_, hsave, rfl⟩
  case h_4 => cases h

/-- A user who joins keeps the owners unless he was one. -/
theorem ownersAgree_activateMember_iff {db₁ : Community} {ctx : GroupContext}
    {invitedBy : Option RowId} (hagree : OwnersAgree db) (hgroups : db₁.groups = db.groups)
    (hmembers : db₁.members = db.members) :
    OwnersAgree (activateMember db₁ ctx groupId userId invitedBy) ↔
      ∀ group ∈ db.groups.get? groupId, group.ownerId ≠ userId := by
  have hjoined : ∀ groupId' userId',
      (activateMember db₁ ctx groupId userId invitedBy).IsOwner groupId' userId' ↔
        (groupId', userId') ≠ (groupId, userId) ∧ db.IsOwner groupId' userId' := by
    intro groupId' userId'
    unfold activateMember
    rw [isOwner_update (saveMember_members db₁ _), isOwner_of_members hmembers]
    split
    case isTrue heq => simp [show (groupId', userId') = (groupId, userId) from heq]
    case isFalse hne => exact ⟨fun h ↦ ⟨hne, h⟩, And.right⟩
  have hcolumns : (activateMember db₁ ctx groupId userId invitedBy).groups = db.groups :=
    (saveMember_groups _ _).trans hgroups
  constructor
  · intro hagree' group hgroup howner
    refine ((hjoined groupId userId).mp ((hagree' groupId userId).mpr ?_)).1 rfl
    rw [hcolumns, Option.mem_def.mp hgroup, Option.map_some, howner]
  · intro hspares groupId' userId'
    rw [hjoined, hcolumns, ← hagree]
    refine ⟨And.right, fun howner ↦ ⟨?_, howner⟩⟩
    rintro ⟨⟩
    obtain ⟨group, hgroup, hid⟩ := Option.map_eq_some_iff.mp ((hagree groupId userId).mp howner)
    exact hspares group hgroup hid

/-- A step keeps the owners exactly when it spares them. -/
theorem ownersAgree_step_iff (hagree : OwnersAgree db)
    (hstep : groupService.step db action = some db') : OwnersAgree db' ↔ SparesOwners db action := by
  cases hstep
  unfold SparesOwners GroupAction.next
  cases hactivates : action.activates? db with
  | none =>
    refine iff_of_true ?_ fun key hkey ↦ (Option.not_mem_none key hkey).elim
    cases happly : action.apply db with
    | error e => exact hagree
    | ok db' => exact hagree.of_effect (GroupAction.apply_effect happly) hactivates
  | some key =>
    obtain ⟨db₁, ctx, invitedBy, hgroups, hmembers, happly⟩ := apply_of_activates hactivates
    rw [happly]
    simp only [Except.toOption, Option.getD_some, Option.mem_some_iff, forall_eq']
    exact ownersAgree_activateMember_iff hagree hgroups hmembers

end Steps

/-! ## Every run -/

theorem always_ownersAgree_iff {db : Community} (hinit : groupService.init db)
    (actions : List GroupAction) :
    groupService.Always OwnersAgree db actions ↔ groupService.EachStep SparesOwners db actions :=
  TransitionSystem.always_iff_eachStep (I := fun _ ↦ True) (fun _ _ _ _ _ ↦ trivial)
    (fun _ _ _ _ hagree hstep ↦ ownersAgree_step_iff hagree hstep) trivial (.of_init hinit)

/-- From a community without groups on, every active group has its one owner in every state
of a run that spares the owners; to spare them is exactly what keeps the owners of all groups. -/
theorem always_hasSoleOwners {db : Community} (hinit : groupService.init db)
    (actions : List GroupAction) :
    (groupService.EachStep SparesOwners db actions →
      groupService.Always HasSoleOwners db actions) ∧
    (groupService.Always OwnersAgree db actions ↔
      groupService.EachStep SparesOwners db actions) := by
  have hiff := always_ownersAgree_iff hinit actions
  exact ⟨fun hspares ↦ (hiff.mpr hspares).mono fun _ ↦ OwnersAgree.hasSoleOwners, hiff⟩

namespace Sample

def invitationId : RowId := ⟨"invitation-1", by decide⟩

/-- The guest is invited and never answers; he joins the open group, leaves it and joins again. -/
def openRun : List GroupAction :=
  [.create (groupContext 0 teamId) founderId (openGroup none),
    .invite (groupContext 1 invitationId) founderId teamId guestId.text,
    .requestJoin (groupContext 2 guestId) guestId teamId "",
    .leave guestId teamId,
    .requestJoin (groupContext 3 guestId) guestId teamId ""]

/-- The guest is invited, joins the open group by himself, is made its owner and accepts. -/
def acceptedRun : List GroupAction :=
  [.create (groupContext 0 teamId) founderId (openGroup none),
    .invite (groupContext 1 invitationId) founderId teamId guestId.text,
    .requestJoin (groupContext 2 guestId) guestId teamId "",
    .transferOwnership founderId teamId guestId,
    .respondInvitation (groupContext 3 guestId) guestId invitationId true]

end Sample

theorem always_hasSoleOwners_openRun :
    groupService.Always HasSoleOwners Sample.community Sample.openRun :=
  (always_hasSoleOwners Sample.init_community Sample.openRun).1 (by decide +kernel)

/-- The new owner has become a plain member, and no membership of the group is an owner's. -/
theorem respondInvitation_demotes_owner :
    groupService.init Sample.community ∧
      ¬ groupService.Always HasSoleOwners Sample.community Sample.acceptedRun ∧
      ∃ db, groupService.run Sample.community Sample.acceptedRun = some db ∧
        (db.activeGroup? Sample.teamId).map (·.ownerId) = some Sample.guestId ∧
        (db.members.get? (Sample.teamId, Sample.guestId)).map (·.role) = some .member ∧
        ∀ member ∈ db.members.rows, member.role ≠ .owner := by
  have hfinal : (groupService.run Sample.community Sample.acceptedRun).any (fun db ↦
      (db.activeGroup? Sample.teamId).map (·.ownerId) = some Sample.guestId ∧
        (db.members.get? (Sample.teamId, Sample.guestId)).map (·.role) = some .member ∧
        ∀ member ∈ db.members.rows, member.role ≠ .owner) = true := by
    decide +kernel
  obtain ⟨db, hrun, hchecks⟩ := (Option.any_eq_true _ _).mp hfinal
  obtain ⟨howner, hrole, hnone⟩ := of_decide_eq_true hchecks
  refine ⟨Sample.init_community, fun halways ↦ ?_, db, hrun, howner, hrole, hnone⟩
  obtain ⟨group, hgroup, hid⟩ := Option.map_eq_some_iff.mp howner
  obtain ⟨member, hmember, -, hmemberRole⟩ :=
    (halways.last hrun Sample.teamId group hgroup Sample.guestId).mpr hid.symm
  exact hnone member (Table.mem_of_get? hmember) hmemberRole

end Server

end SkillHive
