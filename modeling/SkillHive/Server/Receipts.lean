import SkillHive.Server.Frames

/-!
# How a submitted mutation can end

The specification of the push endpoint. A handler that returns has recorded a receipt, and
unless it acknowledges it has left skills, versions and the change log alone. The endpoint
adds two endings: an error, which rolls back, and a replay, which returns the payload that
the receipt holds.
-/

namespace SkillHive

open Foundation

namespace Server

/-! ## What every request keeps -/

namespace Database

/-- The device is registered for the user and not revoked. -/
def HasActiveDevice (db : Database) (userId deviceId : RowId) : Prop :=
  ∃ device, db.devices.get? deviceId = some device ∧ device.userId = userId ∧
    device.revokedAt = none

/-- Active devices stay active, and a stored receipt stays as it is. -/
structure Retains (db db' : Database) : Prop where
  devices : ∀ userId deviceId, db.HasActiveDevice userId deviceId →
    db'.HasActiveDevice userId deviceId
  receipts : ∀ key receipt, db.receipts.get? key = some receipt →
    db'.receipts.get? key = some receipt

theorem Retains.refl (db : Database) : db.Retains db := ⟨fun _ _ h ↦ h, fun _ _ h ↦ h⟩

theorem Retains.trans {db db' db'' : Database} (h : db.Retains db') (h' : db'.Retains db'') :
    db.Retains db'' :=
  ⟨fun u d hd ↦ h'.devices u d (h.devices u d hd),
    fun k r hr ↦ h'.receipts k r (h.receipts k r hr)⟩

theorem SameSync.retains {db db' : Database} (h : db.SameSync db') : db.Retains db' := by
  constructor
  · rintro userId deviceId ⟨device, hget, hdevice⟩
    exact ⟨device, h.devices ▸ hget, hdevice⟩
  · exact fun key receipt hget ↦ h.receipts ▸ hget

/-- The transaction stored a receipt with the payload under a key that had none. -/
structure Records (db db' : Database) (key : ReceiptKey) (payload : ResponsePayload) : Prop where
  fresh : db.receipts.get? key = none
  stored : ∃ receipt, db'.receipts.get? key = some receipt ∧ receipt.responsePayload = payload
  others : ∀ k, k ≠ key → db'.receipts.get? k = db.receipts.get? k

end Database

/-! ## Recording -/

theorem recordReceipt_eq_ok {db db' : Database} {userId : RowId} {request : SyncMutationRequest}
    {revision : Option Revision} {resourceId : Option RowId} {payload payload' : ResponsePayload}
    (h : recordReceipt db userId request revision resourceId payload = .ok (db', payload')) :
    payload' = payload ∧ db.Records db' (request.key userId) payload ∧ db.SameDomain db' ∧
      db'.devices = db.devices := by
  obtain ⟨receipts, hinsert, h⟩ := bind_eq_ok.mp h
  cases h
  have hinsert := okOr_eq_ok.mp hinsert
  refine ⟨rfl, ?_, ⟨rfl, rfl, rfl⟩, rfl⟩
  constructor
  · exact Table.get?_eq_none_of_insert? hinsert
  · exact ⟨_, by rw [Table.get?_insert? hinsert, if_pos rfl], rfl⟩
  · intro k hk
    rw [Table.get?_insert? hinsert, if_neg hk]

/-- Recording adds to the receipts and keeps those that are there. -/
theorem Database.Records.retains {db db' : Database} {key : ReceiptKey}
    {payload : ResponsePayload} (h : db.Records db' key payload)
    (hdevices : db'.devices = db.devices) : db.Retains db' := by
  constructor
  · rintro userId deviceId ⟨device, hget, hdevice⟩
    exact ⟨device, hdevices ▸ hget, hdevice⟩
  · intro k receipt hget
    have hne : k ≠ key := by
      rintro rfl
      rw [h.fresh] at hget
      cases hget
    rw [h.others k hne, hget]

theorem Database.Records.of_receipts_eq {db db₁ db' : Database} {key : ReceiptKey}
    {payload : ResponsePayload} (h : db₁.Records db' key payload)
    (hreceipts : db₁.receipts = db.receipts) : db.Records db' key payload where
  fresh := hreceipts ▸ h.fresh
  stored := h.stored
  others := fun k hk ↦ (h.others k hk).trans (by rw [hreceipts])

theorem ackedPayload_isValid (mutationId skillId : RowId) (revision : Revision)
    (manifestHash : Option BlobHash) :
    (ackedPayload mutationId skillId revision manifestHash).IsValid := by
  simp [ackedPayload, ResponsePayload.IsValid]

/-- An error payload is valid when it carries a head exactly for a conflict. -/
theorem errorPayload_isValid {mutationId : RowId} {status : MutationStatus}
    {errorCode message : String} {conflict : Option SyncConflictHead}
    (hcode : errorCode.length ≤ 80) (hstatus : status ≠ .acked)
    (hconflict : status = .conflict ↔ conflict ≠ none) :
    (errorPayload mutationId status errorCode message conflict).IsValid := by
  refine ⟨?_, ?_, ?_, ?_, ?_⟩
  · simpa [errorPayload] using hcode
  · simpa [errorPayload] using length_truncate_le 1000 message
  · exact fun hacked ↦ absurd hacked hstatus
  · exact fun h ↦ ⟨hconflict.mp h, rfl⟩
  · exact fun _ hne ↦ ⟨rfl, by simpa [errorPayload, hconflict] using hne⟩

/-! ## The handlers -/

/-- The skill that the request names is the caller's, and the base of the request is the
revision of its head. -/
def AtHead (db : Database) (userId : RowId) (request : SyncMutationRequest) : Prop :=
  ∃ skillId skill, request.remoteSkillId = some skillId ∧
    loadSkillLocked db skillId userId = some skill ∧
    request.baseRevision = some skill.syncRevision.value

/-- How a handler returns: a valid payload on record, and either an acknowledgement, for
which an update or a delete was based on the head, or no change of the domain. -/
structure Handled (db db' : Database) (userId : RowId) (request : SyncMutationRequest)
    (payload : ResponsePayload) : Prop where
  valid : payload.IsValid
  records : db.Records db' (request.key userId) payload
  retains : db.Retains db'
  effect : (payload.status = .acked ∧ (request.operation ≠ .create → AtHead db userId request)) ∨
    (payload.status ≠ .acked ∧ db.SameDomain db')

section Handlers

variable {rt : Runtime} {db db' : Database} {ctx : RequestContext} {userId : RowId}
  {request : SyncMutationRequest} {payload : ResponsePayload} {skill : Skill}

/-- A recorded refusal changes nothing else. -/
theorem Handled.of_refusal {revision : Option Revision} {resourceId : Option RowId}
    {refusal : ResponsePayload} (hvalid : refusal.IsValid) (hstatus : refusal.status ≠ .acked)
    (h : recordReceipt db userId request revision resourceId refusal = .ok (db', payload)) :
    Handled db db' userId request payload := by
  obtain ⟨rfl, hrecords, hdomain, hdevices⟩ := recordReceipt_eq_ok h
  exact ⟨hvalid, hrecords, hrecords.retains hdevices, .inr ⟨hstatus, hdomain⟩⟩

/-- A recorded acknowledgement, after domain mutations that left the receipts alone. -/
theorem Handled.of_acked {db₁ : Database} {manifestHash : Option BlobHash}
    (hbase : request.operation ≠ .create → AtHead db userId request) (hsame : db.SameSync db₁)
    (h : recordAcked db₁ userId request skill manifestHash = .ok (db', payload)) :
    Handled db db' userId request payload := by
  obtain ⟨rfl, hrecords, -, hdevices⟩ := recordReceipt_eq_ok h
  exact
    { valid := ackedPayload_isValid ..
      records := hrecords.of_receipts_eq hsame.receipts
      retains := hsame.retains.trans (hrecords.retains hdevices)
      effect := .inl ⟨rfl, hbase⟩ }

theorem recordNotFound_handled {skillId : RowId}
    (h : recordNotFound db userId request skillId = .ok (db', payload)) :
    Handled db db' userId request payload := by
  refine .of_refusal ?_ ?_ h
  · apply errorPayload_isValid <;> decide
  · simp [errorPayload]

theorem recordConflict_handled (h : recordConflict db userId request skill = .ok (db', payload)) :
    Handled db db' userId request payload := by
  refine .of_refusal ?_ ?_ h
  · apply errorPayload_isValid
    · decide
    · decide
    · simp
  · simp [errorPayload]

theorem applyCreate_handled {metadata : SyncSkillMetadata} {manifestHash : BlobHash}
    (hcreate : request.operation = .create)
    (h : applyCreate rt db ctx userId request metadata manifestHash = .ok (db', payload)) :
    Handled db db' userId request payload := by
  obtain ⟨-, -, h⟩ := bind_eq_ok.mp h
  obtain ⟨markdown, -, h⟩ := bind_eq_ok.mp h
  obtain ⟨⟨db₁, created⟩, hskill, h⟩ := bind_eq_ok.mp h
  exact .of_acked (absurd hcreate) (createSkill_sameSync hskill) h

theorem handleCreate_handled (hcreate : request.operation = .create)
    (h : handleCreate rt db ctx userId request = .ok (db', payload)) :
    Handled db db' userId request payload := by
  obtain ⟨metadata, -, h⟩ := bind_eq_ok.mp h
  obtain ⟨manifestHash, -, h⟩ := bind_eq_ok.mp h
  split at h
  case isTrue =>
    refine .of_refusal ?_ ?_ h
    · apply errorPayload_isValid <;> decide
    · simp [errorPayload]
  case isFalse => exact applyCreate_handled hcreate h

/-- The base that a request sends, where the shape of its operation requires one. -/
theorem SyncMutationRequest.baseRevision_eq (hoperation : request.operation ≠ .create)
    {revision : ℕ} (h : revision = request.baseRevision.getD 0) :
    request.baseRevision = some revision := by
  have hshape := request.shape
  have hsome : request.baseRevision ≠ none := by
    cases hop : request.operation with
    | create => exact absurd hop hoperation
    | update =>
      rw [hop] at hshape
      exact hshape.2.1
    | delete =>
      rw [hop] at hshape
      exact hshape.2.1
  obtain ⟨base, hbase⟩ := Option.ne_none_iff_exists'.mp hsome
  rw [hbase] at h ⊢
  rw [h, Option.getD_some]

theorem atHead_of_base {skillId : RowId} (hoperation : request.operation ≠ .create)
    (hremote : request.remoteSkillId = some skillId)
    (hload : loadSkillLocked db skillId userId = some skill)
    (hbase : skill.syncRevision.value = request.baseRevision.getD 0) :
    AtHead db userId request :=
  ⟨skillId, skill, hremote, hload, request.baseRevision_eq hoperation hbase⟩

theorem applyUpdate_handled {metadata : SyncSkillMetadata} {manifestHash : BlobHash}
    (hbase : AtHead db userId request)
    (h : applyUpdate rt db ctx userId request skill metadata manifestHash = .ok (db', payload)) :
    Handled db db' userId request payload := by
  obtain ⟨-, -, h⟩ := bind_eq_ok.mp h
  obtain ⟨markdown, -, h⟩ := bind_eq_ok.mp h
  obtain ⟨⟨db₁, updated⟩, hskill, h⟩ := bind_eq_ok.mp h
  exact .of_acked (fun _ ↦ hbase) (updateSkill_sameSync hskill) h

theorem handleUpdate_handled (hupdate : request.operation = .update)
    (h : handleUpdate rt db ctx userId request = .ok (db', payload)) :
    Handled db db' userId request payload := by
  obtain ⟨remoteSkillId, hremote, h⟩ := bind_eq_ok.mp h
  obtain ⟨metadata, -, h⟩ := bind_eq_ok.mp h
  obtain ⟨manifestHash, -, h⟩ := bind_eq_ok.mp h
  cases hload : loadSkillLocked db remoteSkillId userId with
  | none =>
    simp only [hload] at h
    exact recordNotFound_handled h
  | some skill =>
    simp only [hload] at h
    split_ifs at h with hdeleted hbase
    · refine .of_refusal ?_ ?_ h
      · apply errorPayload_isValid <;> decide
      · simp [errorPayload]
    · exact recordConflict_handled h
    · refine applyUpdate_handled ?_ h
      exact atHead_of_base (by simp [hupdate]) (okOr_eq_ok.mp hremote) hload
        (not_not.mp hbase)

theorem handleDelete_handled (hdelete : request.operation = .delete)
    (h : handleDelete db ctx userId request = .ok (db', payload)) :
    Handled db db' userId request payload := by
  obtain ⟨remoteSkillId, hremote, h⟩ := bind_eq_ok.mp h
  cases hload : loadSkillLocked db remoteSkillId userId with
  | none =>
    simp only [hload] at h
    exact recordNotFound_handled h
  | some skill =>
    simp only [hload] at h
    split_ifs at h with hbase
    · exact recordConflict_handled h
    · refine .of_acked (fun _ ↦ ?_) (softDelete_sameSync db ctx skill) h
      exact atHead_of_base (by simp [hdelete]) (okOr_eq_ok.mp hremote) hload
        (not_not.mp hbase)

theorem handleMutation_handled (h : handleMutation rt db ctx userId request = .ok (db', payload)) :
    Handled db db' userId request payload := by
  unfold handleMutation at h
  cases hop : request.operation with
  | create =>
    rw [hop] at h
    exact handleCreate_handled hop h
  | update =>
    rw [hop] at h
    exact handleUpdate_handled hop h
  | delete =>
    rw [hop] at h
    exact handleDelete_handled hop h

end Handlers

/-! ## The endpoint -/

section Endpoint

variable {rt : Runtime} {db db' : Database} {ctx : RequestContext} {userId : RowId}
  {request : SyncMutationRequest} {payload : ResponsePayload}

/-- A device that passes is active, before and after its `last_seen_at` is set. -/
theorem validateActiveDevice_eq_ok {now : ℕ} {deviceId : RowId}
    (h : validateActiveDevice db now userId deviceId = .ok db') :
    db.HasActiveDevice userId deviceId ∧ db.SameDomain db' ∧ db'.receipts = db.receipts ∧
      db.Retains db' := by
  obtain ⟨device, hdevice, h⟩ := bind_eq_ok.mp h
  obtain ⟨_, hactive, h⟩ := bind_eq_ok.mp h
  cases h
  obtain ⟨hget, huser⟩ := Option.filter_eq_some_iff.mp (okOr_eq_ok.mp hdevice)
  have huser : device.userId = userId := by simpa using huser
  have hactive : device.revokedAt = none := require_eq_ok.mp hactive
  refine ⟨⟨device, hget, huser, hactive⟩, ⟨rfl, rfl, rfl⟩, rfl, ?_, fun _ _ hr ↦ hr⟩
  rintro user id ⟨other, hother, hown, hrevoked⟩
  have hid : device.id = deviceId := Table.key_of_get? hget
  by_cases heq : id = deviceId
  · subst heq
    have hsame : other = device := Option.some.inj (hother.symm.trans hget)
    subst hsame
    refine ⟨{ other with lastSeenAt := some now }, ?_, hown, hrevoked⟩
    simp [Table.get?_replace, hid, hget]
  · refine ⟨other, ?_, hown, hrevoked⟩
    simp [Table.get?_replace, hid, heq, hother]

/-- An active device passes. -/
theorem validateActiveDevice_isOk (now : ℕ) {deviceId : RowId}
    (h : db.HasActiveDevice userId deviceId) :
    ∃ db', validateActiveDevice db now userId deviceId = .ok db' := by
  obtain ⟨device, hget, huser, hactive⟩ := h
  refine ⟨_, bind_eq_ok.mpr ⟨device, ?_, bind_eq_ok.mpr ⟨(), ?_, rfl⟩⟩⟩
  · exact okOr_eq_ok.mpr (Option.filter_eq_some_iff.mpr ⟨hget, by simpa using huser⟩)
  · exact require_eq_ok.mpr hactive

theorem AtHead.of_sameDomain {db₁ : Database} (h : AtHead db₁ userId request)
    (hsame : db.SameDomain db₁) : AtHead db userId request := by
  obtain ⟨skillId, skill, hremote, hload, hbase⟩ := h
  refine ⟨skillId, skill, hremote, ?_, hbase⟩
  simpa [loadSkillLocked, Database.skill?, hsame.skills] using hload

/-- How a request that passed its schema ends: rolled back under an error, answered from
its receipt, or handled. -/
inductive Submission (db : Database) (userId : RowId) (request : SyncMutationRequest) :
    Except ServerError SyncMutationResponse → Database → Prop where
  | rolledBack (error : ServerError) : Submission db userId request (.error error) db
  | replayed {receipt : SyncMutationReceipt} {db' : Database}
      (receipt_eq : db.receipts.get? (request.key userId) = some receipt)
      (domain : db.SameDomain db') (retains : db.Retains db')
      (receipts : db'.receipts = db.receipts) :
      Submission db userId request (SyncMutationResponse.validate receipt.responsePayload) db'
  | handled {payload : ResponsePayload} {db' : Database}
      (active : db.HasActiveDevice userId request.deviceId)
      (result : Handled db db' userId request payload) :
      Submission db userId request (.ok payload.response) db'

theorem Handled.of_validated {db₁ : Database} (h : Handled db₁ db' userId request payload)
    (hdomain : db.SameDomain db₁) (hreceipts : db₁.receipts = db.receipts)
    (hretains : db.Retains db₁) : Handled db db' userId request payload where
  valid := h.valid
  records := h.records.of_receipts_eq hreceipts
  retains := hretains.trans h.retains
  effect := h.effect.imp
    (fun hacked ↦ ⟨hacked.1, fun hop ↦ (hacked.2 hop).of_sameDomain hdomain⟩)
    (fun hrefused ↦ ⟨hrefused.1, hdomain.trans hrefused.2⟩)

theorem exec_submitRequest (rt : Runtime) (ctx : RequestContext) (userId : RowId)
    (request : SyncMutationRequest) (db : Database) :
    Submission db userId request ((submitRequest rt ctx userId request).exec db).1
      ((submitRequest rt ctx userId request).exec db).2 := by
  cases htx : mutationTransaction rt ctx userId request db with
  | error error =>
    have hexec := Program.exec_transaction_error htx
    rw [submitRequest, Program.exec_bind_error hexec]
    exact .rolledBack error
  | ok result =>
    obtain ⟨db', payload⟩ := result
    rw [submitRequest, Program.exec_bind_ok (Program.exec_transaction_ok htx), Program.exec_lift]
    obtain ⟨db₁, hdevice, happly⟩ := bind_eq_ok.mp htx
    obtain ⟨hactive, hdomain, hreceipts, hretains⟩ := validateActiveDevice_eq_ok hdevice
    unfold applySyncMutation at happly
    cases hget : db₁.receipts.get? (request.key userId) with
    | some receipt =>
      rw [hget] at happly
      cases happly
      exact .replayed (hreceipts ▸ hget) hdomain hretains hreceipts
    | none =>
      rw [hget] at happly
      have hhandled := handleMutation_handled happly
      have hvalid := SyncMutationResponse.validate_eq_ok.mpr ⟨hhandled.valid, rfl⟩
      rw [hvalid]
      exact .handled hactive (hhandled.of_validated hdomain hreceipts hretains)

/-- A request whose receipt is stored is answered from it, whatever else it asks. -/
theorem exec_submitRequest_replay (rt : Runtime) (ctx : RequestContext)
    {receipt : SyncMutationReceipt} (hactive : db.HasActiveDevice userId request.deviceId)
    (hreceipt : db.receipts.get? (request.key userId) = some receipt) :
    ((submitRequest rt ctx userId request).exec db).1 =
      SyncMutationResponse.validate receipt.responsePayload := by
  obtain ⟨db₁, hdevice⟩ := validateActiveDevice_isOk ctx.now hactive
  obtain ⟨-, -, hreceipts, -⟩ := validateActiveDevice_eq_ok hdevice
  have htx : mutationTransaction rt ctx userId request db = .ok (db₁, receipt.responsePayload) := by
    refine bind_eq_ok.mpr ⟨db₁, hdevice, ?_⟩
    rw [applySyncMutation, hreceipts, hreceipt]
  rw [submitRequest, Program.exec_bind_ok (Program.exec_transaction_ok htx), Program.exec_lift]

end Endpoint

end Server

end SkillHive
