import SkillHive.Foundation.Rounds
import SkillHive.Server.GroupEffects

/-!
# Answers to invitations and to requests to join

An invitation that has been answered keeps its row, and so does a reviewed request. The unique
constraint is on the pair together with the status, so the row of an earlier round takes its answer
away from every later one.
-/

namespace SkillHive

open Foundation

namespace Server

open GroupService

/-- The invitations of a user into a group. -/
def invitationRounds : Rounds GroupInvitation (RowId × RowId) InvitationStatus where
  pair invitation := (invitation.groupId, invitation.inviteeId)
  status := GroupInvitation.status
  pending := .pending

/-- The requests of a user to join a group. -/
def requestRounds : Rounds GroupJoinRequest (RowId × RowId) RequestStatus where
  pair request := (request.groupId, request.userId)
  status := GroupJoinRequest.status
  pending := .pending

/-- `uq_active_invitation` and `uq_active_join_request` -/
structure Community.ScopesDistinct (db : Community) : Prop where
  invitations : invitationRounds.Distinct db.invitations
  requests : requestRounds.Distinct db.joinRequests

/-- Whoever is asked can answer: a response to a pending invitation is recorded, whatever it is and
whenever it comes, and so is a review of a pending request. -/
structure AnswersSucceed (db : Community) : Prop where
  responses : ∀ invitation ∈ db.invitations, invitation.status = .pending →
    ∀ ctx accept, ∃ result,
      respondInvitation db ctx invitation.inviteeId invitation.id accept = .ok result
  records : ∀ request ∈ db.joinRequests, request.status = .pending →
    ∀ ctx userId decision, ∃ db', db.saveRequest (reviewed ctx userId request decision) = .ok db'
  reviews : ∀ request ∈ db.joinRequests, request.status = .pending →
    ∀ ctx userId context decision, managerContext db userId request.groupId = .ok context →
      ∃ db', reviewJoinRequest db ctx userId request.groupId request.id decision = .ok db'

/-- The request is accepted and asks a pair that has been asked before. -/
def AsksAgain (db : Community) (action : GroupAction) : Prop :=
  (action.apply db).isOk = true ∧
    match action with
    | .invite ctx _ groupId identity => ∃ invitee ∈ byUsernameOrEmail db ctx identity,
        ∃ old ∈ db.invitations.rows, invitationRounds.pair old = (groupId, invitee.id)
    | .requestJoin _ userId groupId _ =>
      (∀ group ∈ db.activeGroup? groupId, group.joinPolicy ≠ .publicJoin) ∧
        ∃ old ∈ db.joinRequests.rows, requestRounds.pair old = (groupId, userId)
    | _ => False

instance (db : Community) (action : GroupAction) : Decidable (AsksAgain db action) := by
  unfold AsksAgain
  cases action <;> infer_instance

section Answers

variable {db db' : Community}

/-! ## Which answers are possible -/

theorem invitationFree_iff {invitation : GroupInvitation} :
    db.InvitationFree invitation ↔ invitationRounds.Free db.invitations invitation := by
  have hscope (other : GroupInvitation) : other.scope = invitation.scope ↔
      invitationRounds.pair other = invitationRounds.pair invitation ∧
        invitationRounds.status other = invitationRounds.status invitation := by
    simp only [GroupInvitation.scope, invitationRounds, Prod.mk.injEq, and_assoc]
  simp only [Community.InvitationFree, Rounds.Free, Ne, hscope, Table.mem_iff_mem_rows]

theorem requestFree_iff {request : GroupJoinRequest} :
    db.RequestFree request ↔ requestRounds.Free db.joinRequests request := by
  have hscope (other : GroupJoinRequest) : other.scope = request.scope ↔
      requestRounds.pair other = requestRounds.pair request ∧
        requestRounds.status other = requestRounds.status request := by
    simp only [GroupJoinRequest.scope, requestRounds, Prod.mk.injEq, and_assoc]
  simp only [Community.RequestFree, Rounds.Free, Ne, hscope, Table.mem_iff_mem_rows]

theorem saveInvitation_ok_iff {invitation : GroupInvitation} :
    (∃ db', db.saveInvitation invitation = .ok db') ↔
      invitationRounds.Free db.invitations invitation := by
  rw [← invitationFree_iff]
  constructor
  · rintro ⟨db', h⟩
    exact (saveInvitation_eq_ok h).1
  · intro hfree
    exact ⟨_, bind_eq_ok.mpr ⟨(), require_eq_ok.mpr hfree, rfl⟩⟩

theorem saveRequest_ok_iff {request : GroupJoinRequest} :
    (∃ db', db.saveRequest request = .ok db') ↔ requestRounds.Free db.joinRequests request := by
  rw [← requestFree_iff]
  constructor
  · rintro ⟨db', h⟩
    exact (saveRequest_eq_ok h).1
  · intro hfree
    exact ⟨_, bind_eq_ok.mpr ⟨(), require_eq_ok.mpr hfree, rfl⟩⟩

/-- The status that a response records. -/
def responseStatus (ctx : GroupContext) (invitation : GroupInvitation) (accept : Bool) :
    InvitationStatus :=
  if invitation.expiresAt < ctx.now then .expired else if accept then .accepted else .declined

theorem responseStatus_ne_pending (ctx : GroupContext) (invitation : GroupInvitation)
    (accept : Bool) : responseStatus ctx invitation accept ≠ .pending := by
  unfold responseStatus
  split
  · decide
  · cases accept <;> decide

/-- Every answer can come. -/
theorem exists_responseStatus (invitation : GroupInvitation) {outcome : InvitationStatus}
    (h : outcome ≠ .pending) :
    ∃ ctx accept, responseStatus ctx invitation accept = outcome := by
  cases outcome with
  | pending => exact absurd rfl h
  | accepted => exact ⟨⟨0, invitation.id, id⟩, true, rfl⟩
  | declined => exact ⟨⟨0, invitation.id, id⟩, false, rfl⟩
  | expired =>
    refine ⟨⟨invitation.expiresAt + 1, invitation.id, id⟩, true, ?_⟩
    exact if_pos (Nat.lt_succ_self _)

/-- A response succeeds exactly when its status is free. -/
theorem respondInvitation_ok_iff {invitation : GroupInvitation} (hmem : invitation ∈ db.invitations)
    (hpending : invitation.status = .pending) {ctx : GroupContext} {accept : Bool} :
    (∃ result, respondInvitation db ctx invitation.inviteeId invitation.id accept = .ok result) ↔
      invitationRounds.Free db.invitations
        { invitation with status := responseStatus ctx invitation accept } := by
  have hfound : okOr (pendingInvitation? db invitation.inviteeId invitation.id)
      (appError "INVITATION_NOT_FOUND" "Invitation was not found." 404) = .ok invitation := by
    rw [pendingInvitation?, Table.get?_of_mem hmem, Option.filter_some, if_pos]
    · rfl
    · exact decide_eq_true ⟨rfl, hpending⟩
  by_cases hexpired : invitation.expiresAt < ctx.now
  · rw [responseStatus, if_pos hexpired, ← saveInvitation_ok_iff]
    constructor
    · rintro ⟨result, h⟩
      obtain ⟨other, hother, h⟩ := bind_eq_ok.mp h
      cases hfound.symm.trans hother
      rw [if_pos hexpired] at h
      obtain ⟨saved, hsave, -⟩ := bind_eq_ok.mp h
      exact ⟨saved, hsave⟩
    · rintro ⟨saved, hsave⟩
      refine ⟨(saved, some (appError "INVITATION_EXPIRED" "Invitation has expired." 410)),
        bind_eq_ok.mpr ⟨invitation, hfound, ?_⟩⟩
      rw [if_pos hexpired]
      exact bind_eq_ok.mpr ⟨saved, hsave, rfl⟩
  · rw [responseStatus, if_neg hexpired]
    constructor
    · rintro ⟨result, h⟩
      obtain ⟨other, hother, h⟩ := bind_eq_ok.mp h
      cases hfound.symm.trans hother
      rw [if_neg hexpired] at h
      obtain ⟨answered, hanswer, -⟩ := bind_eq_ok.mp h
      obtain ⟨saved, hsave, -⟩ := bind_eq_ok.mp hanswer
      have hfree := saveInvitation_ok_iff.mp ⟨saved, hsave⟩
      exact hfree
    · intro hfree
      obtain ⟨saved, hsave⟩ := saveInvitation_ok_iff.mpr
        (show invitationRounds.Free db.invitations
          { invitation with
            status := if accept then .accepted else .declined
            respondedAt := some ctx.now } from hfree)
      have hanswer : ∃ answered,
          answerInvitation db ctx invitation.inviteeId invitation accept = .ok answered := by
        cases accept <;> exact ⟨_, bind_eq_ok.mpr ⟨saved, hsave, rfl⟩⟩
      obtain ⟨answered, hanswer⟩ := hanswer
      refine ⟨(answered, none), bind_eq_ok.mpr ⟨invitation, hfound, ?_⟩⟩
      rw [if_neg hexpired]
      exact bind_eq_ok.mpr ⟨answered, hanswer, rfl⟩

/-- Every decision is the one of a status. -/
theorem exists_decision {outcome : RequestStatus} (h : outcome ≠ .pending) :
    ∃ decision : Decision, decision.status = outcome := by
  cases outcome with
  | pending => exact absurd rfl h
  | approved => exact ⟨.approved, rfl⟩
  | rejected => exact ⟨.rejected, rfl⟩

theorem Decision.status_ne_pending (decision : Decision) : decision.status ≠ .pending := by
  cases decision <;> decide

/-- A review succeeds when its status can be recorded. -/
theorem reviewJoinRequest_ok {request : GroupJoinRequest} (hmem : request ∈ db.joinRequests)
    (hpending : request.status = .pending) {ctx : GroupContext} {userId : RowId}
    {context : GroupRow × GroupRole} {decision : Decision}
    (hcontext : managerContext db userId request.groupId = .ok context)
    (hsave : ∃ saved, db.saveRequest (reviewed ctx userId request decision) = .ok saved) :
    ∃ db', reviewJoinRequest db ctx userId request.groupId request.id decision = .ok db' := by
  obtain ⟨saved, hsave⟩ := hsave
  have hid : context.1.id = request.groupId :=
    (activeGroup?_eq_some (managerContext_eq_ok hcontext)).2.1
  have hfound : okOr (pendingRequest? db context.1.id request.id)
      (appError "JOIN_REQUEST_NOT_FOUND" "Join request was not found." 404) = .ok request := by
    rw [pendingRequest?, Table.get?_of_mem hmem, Option.filter_some, if_pos]
    · rfl
    · exact decide_eq_true ⟨hid.symm, hpending⟩
  refine ⟨if decision = .approved then
      activateMember saved ctx context.1.id request.userId (some userId) else saved, ?_⟩
  refine bind_eq_ok.mpr ⟨context, hcontext, bind_eq_ok.mpr ⟨request, hfound,
    bind_eq_ok.mpr ⟨saved, hsave, ?_⟩⟩⟩
  cases decision <;> rfl

/-- Answers succeed exactly when no pair with a pending question has been asked before. -/
theorem answersSucceed_iff (h : db.ScopesDistinct) :
    AnswersSucceed db ↔
      invitationRounds.Closable db.invitations ∧ requestRounds.Closable db.joinRequests := by
  constructor
  · intro hanswers
    constructor
    · intro invitation hmem hpending
      apply (Rounds.alone_iff_free h.invitations hmem hpending
        (fun outcome ↦ { invitation with status := outcome })
        (fun _ ↦ rfl) (fun _ ↦ rfl) (fun _ ↦ rfl)).mpr
      intro outcome hclosed
      obtain ⟨ctx, accept, rfl⟩ := exists_responseStatus invitation hclosed
      exact (respondInvitation_ok_iff hmem hpending).mp
        (hanswers.responses invitation hmem hpending ctx accept)
    · intro request hmem hpending
      apply (Rounds.alone_iff_free h.requests hmem hpending
        (fun outcome ↦ { request with status := outcome })
        (fun _ ↦ rfl) (fun _ ↦ rfl) (fun _ ↦ rfl)).mpr
      intro outcome hclosed
      obtain ⟨decision, rfl⟩ := exists_decision hclosed
      have hfree := saveRequest_ok_iff.mp (hanswers.records request hmem hpending
        ⟨0, request.id, id⟩ request.userId decision)
      exact hfree
  · rintro ⟨hinvitations, hrequests⟩
    have hrecords : ∀ request ∈ db.joinRequests, request.status = .pending →
        ∀ ctx userId decision,
          ∃ db', db.saveRequest (reviewed ctx userId request decision) = .ok db' := by
      intro request hmem hpending ctx userId decision
      apply saveRequest_ok_iff.mpr
      exact (Rounds.alone_iff_free h.requests hmem hpending
        (fun outcome ↦ { reviewed ctx userId request decision with status := outcome })
        (fun _ ↦ rfl) (fun _ ↦ rfl) (fun _ ↦ rfl)).mp (hrequests request hmem hpending)
        decision.status decision.status_ne_pending
    refine ⟨fun invitation hmem hpending ctx accept ↦ ?_, hrecords, ?_⟩
    · apply (respondInvitation_ok_iff hmem hpending).mpr
      exact (Rounds.alone_iff_free h.invitations hmem hpending
        (fun outcome ↦ { invitation with status := outcome })
        (fun _ ↦ rfl) (fun _ ↦ rfl) (fun _ ↦ rfl)).mp (hinvitations invitation hmem hpending)
        _ (responseStatus_ne_pending ctx invitation accept)
    · intro request hmem hpending ctx userId context decision hcontext
      exact reviewJoinRequest_ok hmem hpending hcontext
        (hrecords request hmem hpending ctx userId decision)

/-! ## What an accepted request does to the questions -/

theorem saveMember_joinRequests (member : MemberRow) :
    (db.saveMember member).joinRequests = db.joinRequests := by
  unfold Community.saveMember
  split <;> rfl

theorem demoteOwner_questions (db : Community) (group : GroupRow) (targetId : RowId) :
    (demoteOwner db group targetId).invitations = db.invitations ∧
      (demoteOwner db group targetId).joinRequests = db.joinRequests := by
  unfold demoteOwner
  split
  · exact ⟨rfl, rfl⟩
  · split
    · exact ⟨rfl, rfl⟩
    · exact ⟨saveMember_invitations db _, saveMember_joinRequests _⟩

/-- What an accepted request does to the questions. -/
inductive QuestionEffect (db : Community) (action : GroupAction) (db' : Community) : Prop
  /-- The questions stay. -/
  | kept (hinvitations : db'.invitations = db.invitations)
      (hrequests : db'.joinRequests = db.joinRequests) (hasks : ¬ AsksAgain db action)
  /-- Somebody is invited. -/
  | invited (invitation : GroupInvitation) (hpending : invitation.status = .pending)
      (hfree : db.InvitationFree invitation)
      (hinsert : db.invitations.insert? invitation = some db'.invitations)
      (hrequests : db'.joinRequests = db.joinRequests)
      (hasks : AsksAgain db action ↔
        invitationRounds.Asked db.invitations (invitationRounds.pair invitation))
  /-- An invitation is answered, or has expired. -/
  | answered (old invitation : GroupInvitation) (hold : old ∈ db.invitations)
      (hid : old.id = invitation.id)
      (hpair : invitationRounds.pair old = invitationRounds.pair invitation)
      (hclosed : invitation.status ≠ .pending) (hfree : db.InvitationFree invitation)
      (hinvitations : db'.invitations = db.invitations.replace invitation)
      (hrequests : db'.joinRequests = db.joinRequests) (hasks : ¬ AsksAgain db action)
  /-- Somebody asks to join. -/
  | requested (request : GroupJoinRequest) (hpending : request.status = .pending)
      (hfree : db.RequestFree request)
      (hinsert : db.joinRequests.insert? request = some db'.joinRequests)
      (hinvitations : db'.invitations = db.invitations)
      (hasks : AsksAgain db action ↔
        requestRounds.Asked db.joinRequests (requestRounds.pair request))
  /-- A request to join is reviewed. -/
  | reviewed (old request : GroupJoinRequest) (hold : old ∈ db.joinRequests)
      (hid : old.id = request.id)
      (hpair : requestRounds.pair old = requestRounds.pair request)
      (hclosed : request.status ≠ .pending) (hfree : db.RequestFree request)
      (hrequests : db'.joinRequests = db.joinRequests.replace request)
      (hinvitations : db'.invitations = db.invitations) (hasks : ¬ AsksAgain db action)

variable {ctx : GroupContext} {userId groupId : RowId}

theorem saveMember_kept {action : GroupAction} (member : MemberRow)
    (hasks : ¬ AsksAgain db action) : QuestionEffect db action (db.saveMember member) :=
  .kept (saveMember_invitations db member) (saveMember_joinRequests member) hasks

theorem invite_questions {identity : String}
    (h : invite db ctx userId groupId identity = .ok db') :
    QuestionEffect db (.invite ctx userId groupId identity) db' := by
  have hok : ((GroupAction.invite ctx userId groupId identity).apply db).isOk = true := by
    rw [GroupAction.apply, h]
    rfl
  obtain ⟨⟨group, role⟩, hcontext, h⟩ := bind_eq_ok.mp h
  obtain ⟨-, -, h⟩ := bind_eq_ok.mp h
  obtain ⟨invitee, hinvitee, h⟩ := bind_eq_ok.mp h
  obtain ⟨-, -, h⟩ := bind_eq_ok.mp h
  obtain ⟨-, -, h⟩ := bind_eq_ok.mp h
  obtain ⟨_, hfree, h⟩ := bind_eq_ok.mp h
  obtain ⟨invitations, hinsert, h⟩ := bind_eq_ok.mp h
  cases h
  have hfound := (Option.filter_eq_some_iff.mp (okOr_eq_ok.mp hinvitee)).1
  have hid : group.id = groupId := (activeGroup?_eq_some (memberContext_eq_ok hcontext).1).2.1
  refine .invited _ rfl (require_eq_ok.mp hfree) (okOr_eq_ok.mp hinsert) rfl ?_
  rw [AsksAgain, and_iff_right hok]
  constructor
  · rintro ⟨other, hother, old, hold, hpair⟩
    cases hfound.symm.trans hother
    exact ⟨old, hold, hpair.trans (congrArg (·, invitee.id) hid.symm)⟩
  · rintro ⟨old, hold, hpair⟩
    exact ⟨invitee, hfound, old, hold, hpair.trans (congrArg (·, invitee.id) hid)⟩

theorem respondInvitation_questions {invitationId : RowId} {accept : Bool}
    {refusal : Option ServerError}
    (h : respondInvitation db ctx userId invitationId accept = .ok (db', refusal)) :
    QuestionEffect db (.respondInvitation ctx userId invitationId accept) db' := by
  have hasks : ¬ AsksAgain db (.respondInvitation ctx userId invitationId accept) := And.right
  obtain ⟨invitation, hpending, h⟩ := bind_eq_ok.mp h
  have hmem : invitation ∈ db.invitations :=
    Table.mem_of_get? (Option.filter_eq_some_iff.mp (okOr_eq_ok.mp hpending)).1
  split at h
  case isTrue =>
    obtain ⟨db₁, hsave, h⟩ := bind_eq_ok.mp h
    cases h
    obtain ⟨_, hfree, hsave⟩ := bind_eq_ok.mp hsave
    cases hsave
    exact .answered invitation { invitation with status := .expired } hmem rfl rfl
      (by decide : InvitationStatus.expired ≠ .pending) (require_eq_ok.mp hfree) rfl rfl hasks
  case isFalse =>
    obtain ⟨db₁, hanswer, h⟩ := bind_eq_ok.mp h
    cases h
    obtain ⟨db₂, hsave, hanswer⟩ := bind_eq_ok.mp hanswer
    obtain ⟨_, hfree, hsave⟩ := bind_eq_ok.mp hsave
    cases hsave
    cases accept with
    | false =>
      cases hanswer
      exact .answered invitation
        { invitation with status := .declined, respondedAt := some ctx.now } hmem rfl rfl
        (by decide : InvitationStatus.declined ≠ .pending) (require_eq_ok.mp hfree) rfl rfl hasks
    | true =>
      cases hanswer
      exact .answered invitation
        { invitation with status := .accepted, respondedAt := some ctx.now } hmem rfl rfl
        (by decide : InvitationStatus.accepted ≠ .pending) (require_eq_ok.mp hfree)
        (saveMember_invitations _ _) (saveMember_joinRequests _) hasks

theorem requestJoin_questions {message : String}
    (h : requestJoin db ctx userId groupId message = .ok db') :
    QuestionEffect db (.requestJoin ctx userId groupId message) db' := by
  have hok : ((GroupAction.requestJoin ctx userId groupId message).apply db).isOk = true := by
    rw [GroupAction.apply, h]
    rfl
  obtain ⟨group, hgroup, h⟩ := bind_eq_ok.mp h
  obtain ⟨_, hfree, h⟩ := bind_eq_ok.mp h
  have hactive := okOr_eq_ok.mp hgroup
  split at h
  case isTrue hpublic =>
    cases h
    exact saveMember_kept _ fun hasks ↦ hasks.2.1 group hactive hpublic
  case isFalse hclosed =>
    obtain ⟨-, -, h⟩ := bind_eq_ok.mp h
    obtain ⟨-, -, h⟩ := bind_eq_ok.mp h
    obtain ⟨_, hfree, h⟩ := bind_eq_ok.mp h
    obtain ⟨joinRequests, hinsert, h⟩ := bind_eq_ok.mp h
    cases h
    have hid : group.id = groupId := (activeGroup?_eq_some hactive).2.1
    refine .requested _ rfl (require_eq_ok.mp hfree) (okOr_eq_ok.mp hinsert) rfl ?_
    rw [AsksAgain, and_iff_right hok]
    constructor
    · rintro ⟨-, old, hold, hpair⟩
      exact ⟨old, hold, hpair.trans (congrArg (·, userId) hid.symm)⟩
    · rintro ⟨old, hold, hpair⟩
      refine ⟨fun other hother ↦ ?_, old, hold, hpair.trans (congrArg (·, userId) hid)⟩
      cases hactive.symm.trans hother
      exact hclosed

theorem reviewJoinRequest_questions {requestId : RowId} {decision : Decision}
    (h : reviewJoinRequest db ctx userId groupId requestId decision = .ok db') :
    QuestionEffect db (.reviewJoinRequest ctx userId groupId requestId decision) db' := by
  have hasks : ¬ AsksAgain db (.reviewJoinRequest ctx userId groupId requestId decision) :=
    And.right
  obtain ⟨⟨group, role⟩, hcontext, h⟩ := bind_eq_ok.mp h
  obtain ⟨request, hpending, h⟩ := bind_eq_ok.mp h
  obtain ⟨db₁, hsave, h⟩ := bind_eq_ok.mp h
  obtain ⟨_, hfree, hsave⟩ := bind_eq_ok.mp hsave
  cases hsave
  have hmem : request ∈ db.joinRequests :=
    Table.mem_of_get? (Option.filter_eq_some_iff.mp (okOr_eq_ok.mp hpending)).1
  split at h
  · cases h
    exact .reviewed request (reviewed ctx userId request decision) hmem rfl rfl
      decision.status_ne_pending (require_eq_ok.mp hfree)
      (saveMember_joinRequests _) (saveMember_invitations _ _) hasks
  · cases h
    exact .reviewed request (reviewed ctx userId request decision) hmem rfl rfl
      decision.status_ne_pending (require_eq_ok.mp hfree)
      rfl rfl hasks

/-- Every accepted request has one of the effects. -/
theorem GroupAction.apply_questions {action : GroupAction} (h : action.apply db = .ok db') :
    QuestionEffect db action db' := by
  cases action with
  | create ctx userId data =>
    obtain ⟨parentId, -, h⟩ := bind_eq_ok.mp h
    obtain ⟨db₁, hinsert, h⟩ := bind_eq_ok.mp h
    obtain ⟨members, -, h⟩ := bind_eq_ok.mp h
    cases h
    obtain ⟨-, -, hinsert⟩ := bind_eq_ok.mp hinsert
    obtain ⟨groups, -, hinsert⟩ := bind_eq_ok.mp hinsert
    cases hinsert
    exact .kept rfl rfl And.right
  | update userId groupId data =>
    obtain ⟨⟨group, role⟩, -, h⟩ := bind_eq_ok.mp h
    obtain ⟨moved, -, h⟩ := bind_eq_ok.mp h
    cases h
    exact .kept rfl rfl And.right
  | dissolve ctx userId groupId =>
    obtain ⟨⟨group, role⟩, -, h⟩ := bind_eq_ok.mp h
    obtain ⟨-, -, h⟩ := bind_eq_ok.mp h
    cases h
    exact .kept rfl rfl And.right
  | invite ctx userId groupId identity => exact invite_questions h
  | respondInvitation ctx userId invitationId accept =>
    obtain ⟨refusal, hrespond⟩ := map_fst_eq_ok.mp h
    exact respondInvitation_questions hrespond
  | requestJoin ctx userId groupId message => exact requestJoin_questions h
  | reviewJoinRequest ctx userId groupId requestId decision =>
    exact reviewJoinRequest_questions h
  | setRole userId groupId memberId role =>
    obtain ⟨⟨group, actorRole⟩, -, h⟩ := bind_eq_ok.mp h
    obtain ⟨target, -, h⟩ := bind_eq_ok.mp h
    cases h
    exact saveMember_kept _ And.right
  | removeMember userId groupId memberId =>
    obtain ⟨⟨group, actorRole⟩, -, h⟩ := bind_eq_ok.mp h
    obtain ⟨target, -, h⟩ := bind_eq_ok.mp h
    obtain ⟨-, -, h⟩ := bind_eq_ok.mp h
    cases h
    exact saveMember_kept _ And.right
  | transferOwnership userId groupId newOwnerId =>
    obtain ⟨⟨group, role⟩, -, h⟩ := bind_eq_ok.mp h
    obtain ⟨target, -, h⟩ := bind_eq_ok.mp h
    cases h
    obtain ⟨hinvitations, hrequests⟩ := demoteOwner_questions db group target.userId
    exact .kept ((saveMember_invitations _ _).trans hinvitations)
      ((saveMember_joinRequests _).trans hrequests) And.right
  | leave userId groupId =>
    obtain ⟨group, -, h⟩ := bind_eq_ok.mp h
    obtain ⟨membership, -, h⟩ := bind_eq_ok.mp h
    obtain ⟨-, -, h⟩ := bind_eq_ok.mp h
    cases h
    exact saveMember_kept _ And.right
  | setGroupStatus now groupId status =>
    obtain ⟨group, -, h⟩ := bind_eq_ok.mp h
    cases h
    exact .kept rfl rfl And.right
  | setGroupRole groupId userId role =>
    obtain ⟨-, -, h⟩ := bind_eq_ok.mp h
    obtain ⟨membership, -, h⟩ := bind_eq_ok.mp h
    obtain ⟨-, -, h⟩ := bind_eq_ok.mp h
    cases h
    exact saveMember_kept _ And.right

/-! ## One request -/

/-- A step is an accepted request, or leaves the rows as they are. -/
theorem groupService_step_cases {action : GroupAction}
    (h : groupService.step db action = some db') :
    action.apply db = .ok db' ∨ (db' = db ∧ ¬ AsksAgain db action) := by
  cases h
  rw [GroupAction.next]
  cases happly : action.apply db with
  | ok next => exact .inl rfl
  | error e =>
    refine .inr ⟨rfl, ?_⟩
    rintro ⟨hok, -⟩
    rw [happly] at hok
    cases hok

theorem Community.ScopesDistinct.of_effect {action : GroupAction} (h : db.ScopesDistinct)
    (heffect : QuestionEffect db action db') : db'.ScopesDistinct := by
  obtain ⟨hinvitations, hrequests⟩ := h
  cases heffect with
  | kept hinv hreq => exact ⟨hinv ▸ hinvitations, hreq ▸ hrequests⟩
  | invited invitation _ hfree hinsert hreq =>
    exact ⟨hinvitations.insert (invitationFree_iff.mp hfree) hinsert, hreq ▸ hrequests⟩
  | answered old invitation _ _ _ _ hfree hinv hreq =>
    exact ⟨hinv ▸ hinvitations.replace (invitationFree_iff.mp hfree), hreq ▸ hrequests⟩
  | requested request _ hfree hinsert hinv =>
    exact ⟨hinv ▸ hinvitations, hrequests.insert (requestFree_iff.mp hfree) hinsert⟩
  | reviewed old request _ _ _ _ hfree hreq hinv =>
    exact ⟨hinv ▸ hinvitations, hreq ▸ hrequests.replace (requestFree_iff.mp hfree)⟩

/-- One accepted request keeps the answers possible exactly when it does not ask a pair again. -/
theorem closable_effect_iff {action : GroupAction}
    (hinvitations : invitationRounds.Closable db.invitations)
    (hrequests : requestRounds.Closable db.joinRequests)
    (heffect : QuestionEffect db action db') :
    (invitationRounds.Closable db'.invitations ∧ requestRounds.Closable db'.joinRequests) ↔
      ¬ AsksAgain db action := by
  cases heffect with
  | kept hinv hreq hasks =>
    rw [hinv, hreq]
    exact iff_of_true ⟨hinvitations, hrequests⟩ hasks
  | invited invitation hpending _ hinsert hreq hasks =>
    rw [hreq, and_iff_left hrequests, hasks]
    exact Rounds.closable_insert_iff hinvitations hpending hinsert
  | answered old invitation hold hid hpair hclosed _ hinv hreq hasks =>
    rw [hinv, hreq]
    exact iff_of_true ⟨hinvitations.replace hold hid hpair hclosed, hrequests⟩ hasks
  | requested request hpending _ hinsert hinv hasks =>
    rw [hinv, and_iff_right hinvitations, hasks]
    exact Rounds.closable_insert_iff hrequests hpending hinsert
  | reviewed old request hold hid hpair hclosed _ hreq hinv hasks =>
    rw [hinv, hreq]
    exact iff_of_true ⟨hinvitations, hrequests.replace hold hid hpair hclosed⟩ hasks

end Answers

/-! ## Every run -/

/-- Over a run of requests, every answer to a pending question can be recorded in every state
exactly when nobody is asked a second time. -/
theorem always_answersSucceed_iff {db : Community} (hdistinct : db.ScopesDistinct)
    (hstart : AnswersSucceed db) (actions : List GroupAction) :
    groupService.Always AnswersSucceed db actions ↔
      groupService.EachStep (fun db action ↦ ¬ AsksAgain db action) db actions := by
  apply TransitionSystem.always_iff_eachStep (I := Community.ScopesDistinct) _ _ hdistinct hstart
  · intro db action db' hdistinct hstep
    rcases groupService_step_cases hstep with happly | ⟨rfl, -⟩
    · exact hdistinct.of_effect (GroupAction.apply_questions happly)
    · exact hdistinct
  · intro db action db' hdistinct hanswers hstep
    rcases groupService_step_cases hstep with happly | ⟨rfl, hasks⟩
    · have heffect := GroupAction.apply_questions happly
      obtain ⟨hinvitations, hrequests⟩ := (answersSucceed_iff hdistinct).mp hanswers
      rw [answersSucceed_iff (hdistinct.of_effect heffect)]
      exact closable_effect_iff hinvitations hrequests heffect
    · exact iff_of_true hanswers hasks

namespace Sample

def firstInvitationId : RowId := ⟨"first-invitation", by decide⟩

def secondInvitationId : RowId := ⟨"invitation-2", by decide⟩

/-- The guest is invited, accepts and leaves. -/
def oneRound : List GroupAction :=
  [.create (groupContext 0 teamId) founderId (openGroup none),
    .invite (groupContext 1 firstInvitationId) founderId teamId guestId.text,
    .respondInvitation (groupContext 2 guestId) guestId firstInvitationId true,
    .leave guestId teamId]

/-- He is invited once more. -/
def twoRounds : List GroupAction :=
  oneRound ++ [.invite (groupContext 3 secondInvitationId) founderId teamId guestId.text]

theorem scopesDistinct_community : community.ScopesDistinct :=
  ⟨fun _ h ↦ absurd h (Table.not_mem_empty _), fun _ h ↦ absurd h (Table.not_mem_empty _)⟩

theorem answersSucceed_community : AnswersSucceed community :=
  ⟨fun _ h ↦ absurd h (Table.not_mem_empty _), fun _ h ↦ absurd h (Table.not_mem_empty _),
    fun _ h ↦ absurd h (Table.not_mem_empty _)⟩

end Sample

open Sample in
/-- Every answer succeeds until a guest who has left is invited again. -/
theorem always_answersSucceed_rounds :
    groupService.Always AnswersSucceed community oneRound ∧
      ¬ groupService.Always AnswersSucceed community twoRounds := by
  have hiff := always_answersSucceed_iff scopesDistinct_community answersSucceed_community
  constructor
  · rw [hiff]
    decide +kernel
  · rw [hiff]
    decide +kernel

end Server

end SkillHive
