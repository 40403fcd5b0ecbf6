import SkillHive.Server.HeadRevision
import SkillHive.Server.PrivateSteps

/-!
# The skill that an answer names

An answer names the mutation that was submitted. An acknowledgement also names a skill: the
one that the request created, under the key that it drew, or the one that the request is about.
The answer that is kept for a mutation is the first one.
-/

namespace SkillHive

open Foundation

namespace Server

/-- What the payload says about the request that it answers. -/
structure ResponsePayload.Answers (payload : ResponsePayload) (ctx : RequestContext)
    (request : SyncMutationRequest) : Prop where
  mutationId : payload.mutationId = request.mutationId
  created : payload.status = .acked → request.operation = .create →
    payload.result.map SyncMutationResult.remoteSkillId = some ctx.newSkillId
  named : payload.status = .acked → request.operation ≠ .create →
    payload.result.map SyncMutationResult.remoteSkillId = request.remoteSkillId

section Handlers

variable {rt : Runtime} {db db' : Database} {ctx : RequestContext} {userId : RowId}
  {request : SyncMutationRequest} {payload : ResponsePayload} {skill : Skill}

theorem ResponsePayload.Answers.of_refusal {status : MutationStatus} {code message : String}
    {conflict : Option SyncConflictHead} (hstatus : status ≠ .acked) :
    (errorPayload request.mutationId status code message conflict).Answers ctx request :=
  ⟨rfl, fun hacked ↦ absurd hacked hstatus, fun hacked ↦ absurd hacked hstatus⟩

theorem handleCreate_answers (hcreate : request.operation = .create)
    (h : handleCreate rt db ctx userId request = .ok (db', payload)) :
    payload.Answers ctx request := by
  obtain ⟨metadata, -, h⟩ := bind_eq_ok.mp h
  obtain ⟨manifestHash, -, h⟩ := bind_eq_ok.mp h
  split at h
  case isTrue =>
    rw [(recordReceipt_eq_ok h).1]
    exact .of_refusal (by decide)
  case isFalse =>
    obtain ⟨-, -, h⟩ := bind_eq_ok.mp h
    obtain ⟨markdown, -, h⟩ := bind_eq_ok.mp h
    obtain ⟨⟨db₁, created⟩, hskill, h⟩ := bind_eq_ok.mp h
    obtain ⟨-, hid, -, -⟩ := createSkill_step hskill
    rw [(recordReceipt_eq_ok h).1]
    refine ⟨rfl, fun _ _ ↦ ?_, fun _ hne ↦ absurd hcreate hne⟩
    exact congrArg some hid

/-- The skill that a handler looks up is the one that its request names. -/
theorem loadSkillLocked_id {skillId : RowId}
    (h : loadSkillLocked db skillId userId = some skill) : skill.id = skillId :=
  Table.key_of_get? (Option.filter_eq_some_iff.mp h).1

theorem handleUpdate_answers (hupdate : request.operation = .update)
    (h : handleUpdate rt db ctx userId request = .ok (db', payload)) :
    payload.Answers ctx request := by
  obtain ⟨remoteSkillId, hremote, h⟩ := bind_eq_ok.mp h
  obtain ⟨metadata, -, h⟩ := bind_eq_ok.mp h
  obtain ⟨manifestHash, -, h⟩ := bind_eq_ok.mp h
  cases hload : loadSkillLocked db remoteSkillId userId with
  | none =>
    simp only [hload] at h
    rw [(recordReceipt_eq_ok h).1]
    exact .of_refusal (by decide)
  | some skill =>
    simp only [hload] at h
    split_ifs at h
    · rw [(recordReceipt_eq_ok h).1]
      exact .of_refusal (by decide)
    · rw [(recordReceipt_eq_ok h).1]
      exact .of_refusal (by decide)
    · obtain ⟨-, -, h⟩ := bind_eq_ok.mp h
      obtain ⟨markdown, -, h⟩ := bind_eq_ok.mp h
      obtain ⟨⟨db₁, updated⟩, hskill, h⟩ := bind_eq_ok.mp h
      have hid : updated.id = skill.id := by
        rcases updateSkill_step (loadSkillLocked_eq_some hload).1 hskill with
          ⟨-, hsame⟩ | ⟨_, hrewritten, -⟩
        · rw [hsame]
        · exact hrewritten.id
      rw [(recordReceipt_eq_ok h).1]
      refine ⟨rfl, fun _ hcreate ↦ ?_, fun _ _ ↦ ?_⟩
      · cases hupdate.symm.trans hcreate
      · rw [okOr_eq_ok.mp hremote]
        exact congrArg some (hid.trans (loadSkillLocked_id hload))

theorem handleDelete_answers (hdelete : request.operation = .delete)
    (h : handleDelete db ctx userId request = .ok (db', payload)) :
    payload.Answers ctx request := by
  obtain ⟨remoteSkillId, hremote, h⟩ := bind_eq_ok.mp h
  cases hload : loadSkillLocked db remoteSkillId userId with
  | none =>
    simp only [hload] at h
    rw [(recordReceipt_eq_ok h).1]
    exact .of_refusal (by decide)
  | some skill =>
    simp only [hload] at h
    split_ifs at h
    · rw [(recordReceipt_eq_ok h).1]
      exact .of_refusal (by decide)
    · have hid : (softDelete db ctx skill).2.id = skill.id := by
        rcases softDelete_step ctx (loadSkillLocked_eq_some hload).1 with hsame | hrewritten
        · rw [hsame]
        · exact hrewritten.id
      rw [(recordReceipt_eq_ok h).1]
      refine ⟨rfl, fun _ hcreate ↦ ?_, fun _ _ ↦ ?_⟩
      · cases hdelete.symm.trans hcreate
      · rw [okOr_eq_ok.mp hremote]
        exact congrArg some (hid.trans (loadSkillLocked_id hload))

theorem handleMutation_answers (h : handleMutation rt db ctx userId request = .ok (db', payload)) :
    payload.Answers ctx request := by
  unfold handleMutation at h
  cases hoperation : request.operation with
  | create =>
    rw [hoperation] at h
    exact handleCreate_answers hoperation h
  | update =>
    rw [hoperation] at h
    exact handleUpdate_answers hoperation h
  | delete =>
    rw [hoperation] at h
    exact handleDelete_answers hoperation h

end Handlers

/-! ## The answer on record -/

/-- What a submitted mutation leaves of the receipts: one under its own key, if any. -/
structure Answered (db : Database) (ctx : RequestContext) (userId : RowId) (body : MutationBody)
    (reply : Except ServerError SyncMutationResponse) (db' : Database) : Prop where
  others : ∀ key, key ≠ ⟨userId, body.deviceId, body.mutationId⟩ →
    db'.receipts.get? key = db.receipts.get? key
  kept : ∀ key receipt, db.receipts.get? key = some receipt →
    db'.receipts.get? key = some receipt
  added : db.receipts.get? ⟨userId, body.deviceId, body.mutationId⟩ = none →
    ∀ receipt, db'.receipts.get? ⟨userId, body.deviceId, body.mutationId⟩ = some receipt →
      ∃ request, SyncMutationRequest.validate body = some request ∧
        receipt.responsePayload.Answers ctx request
  replied : ∀ response, reply = .ok response →
    ∃ receipt, db'.receipts.get? ⟨userId, body.deviceId, body.mutationId⟩ = some receipt ∧
      receipt.responsePayload.response = response

theorem SyncMutationRequest.key_of_validate {body : MutationBody} {request : SyncMutationRequest}
    (h : SyncMutationRequest.validate body = some request) (userId : RowId) :
    request.key userId = ⟨userId, body.deviceId, body.mutationId⟩ := by
  obtain ⟨_, -, h⟩ := Option.bind_eq_some_iff.mp h
  obtain ⟨_, -, h⟩ := Option.bind_eq_some_iff.mp h
  obtain ⟨_, -, h⟩ := Option.bind_eq_some_iff.mp h
  obtain ⟨_, -, h⟩ := Option.bind_eq_some_iff.mp h
  split at h
  case isTrue =>
    cases h
    rfl
  case isFalse => cases h

/-- A new receipt of a request holds a payload that answers it. -/
theorem exec_submitRequest_added {rt : Runtime} {db : Database} {ctx : RequestContext}
    {userId : RowId} {request : SyncMutationRequest} {receipt : SyncMutationReceipt}
    (hfresh : db.receipts.get? (request.key userId) = none)
    (hstored : ((submitRequest rt ctx userId request).exec db).2.receipts.get?
      (request.key userId) = some receipt) : receipt.responsePayload.Answers ctx request := by
  cases htx : mutationTransaction rt ctx userId request db with
  | error error =>
    rw [submitRequest, Program.exec_bind_error (Program.exec_transaction_error htx), hfresh]
      at hstored
    cases hstored
  | ok result =>
    obtain ⟨db', payload⟩ := result
    rw [submitRequest, Program.exec_bind_ok (Program.exec_transaction_ok htx), Program.exec_lift]
      at hstored
    obtain ⟨db₁, hdevice, happly⟩ := bind_eq_ok.mp htx
    obtain ⟨-, -, hreceipts, -⟩ := validateActiveDevice_eq_ok hdevice
    unfold applySyncMutation at happly
    rw [hreceipts, hfresh] at happly
    obtain ⟨recorded, hget, hpayload⟩ := (handleMutation_handled happly).records.stored
    cases hget.symm.trans hstored
    rw [hpayload]
    exact handleMutation_answers happly

theorem exec_submitMutation_answered (rt : Runtime) (ctx : RequestContext) (userId : RowId)
    (body : MutationBody) (db : Database) :
    Answered db ctx userId body ((submitMutation rt ctx userId body).exec db).1
      ((submitMutation rt ctx userId body).exec db).2 := by
  rcases exec_submitMutation rt ctx userId body db with ⟨-, hexec⟩ | ⟨request, hvalidate, hexec⟩
  · rw [hexec]
    refine ⟨fun _ _ ↦ rfl, fun _ _ ↦ id, fun hnone receipt hget ↦ ?_, fun _ hok ↦ ?_⟩
    · cases hnone.symm.trans hget
    · cases hok
  · rw [hexec]
    have hends := exec_submitRequest rt ctx userId request db
    have hkey := request.key_of_validate hvalidate userId
    constructor
    case others =>
      intro key hne
      exact hends.others (hkey ▸ hne)
    case kept => exact hends.retains.receipts
    case added =>
      rw [← hkey]
      intro hfresh receipt hget
      exact ⟨request, hvalidate, exec_submitRequest_added hfresh hget⟩
    case replied =>
      rw [← hkey]
      intro response hok
      obtain ⟨receipt, hget, hresponse⟩ := hends.stored (.inl ⟨response, hok⟩)
      exact ⟨receipt, hget, hresponse response hok⟩

/-- A request under another key leaves a receipt as it is. -/
theorem Action.next_receipt (rt : Runtime) (db : Database) (action : Action) {key : ReceiptKey}
    (hother : ∀ key' ∈ action.key?, key' ≠ key) :
    (action.next rt db).receipts.get? key = db.receipts.get? key := by
  cases action with
  | submitMutation userId ctx body =>
    rcases exec_submitMutation rt ctx userId body db with ⟨-, hexec⟩ | ⟨request, hvalidate, -⟩
    · rw [Action.next, hexec]
    · have hkey : (Action.submitMutation userId ctx body).key? = some (request.key userId) := by
        rw [Action.key?, hvalidate]
        rfl
      have hne := hother _ hkey
      rw [request.key_of_validate hvalidate] at hne
      exact (exec_submitMutation_answered rt ctx userId body db).others key hne.symm
  | privateWrite userId ctx write => rw [(next_privateWrite userId ctx write).receipts]
  | uploadBlob storage hashValue contentLength payload =>
    rw [(next_uploadBlob storage hashValue contentLength payload).receipts]

end Server

end SkillHive
