import SkillHive.Server.Traffic

/-!
# Creates that reach a receipt

A device's create looks for a live private skill with the slug before it inserts the row, while
the unique constraint covers every skill of the owner, those in the trash included. A constraint
that fails at the flush rolls the transaction back, and no receipt is left.
-/

namespace SkillHive

open Foundation

namespace Server

/-- A live private skill of the user has the slug. -/
def SlugTaken (db : Database) (userId : RowId) (slug : String) : Prop :=
  ∃ skill ∈ db.skills.rows, skill.ownerUserId = some userId ∧ skill.slug = slug ∧
    skill.skillType = .privateSkill ∧ skill.status ≠ .deleted

/-- No skill of the user has the slug, in the trash or not. -/
def SlugUnused (db : Database) (userId : RowId) (slug : String) : Prop :=
  ∀ skill ∈ db.skills.rows, skill.ownerUserId = some userId → skill.slug ≠ slug

instance (db : Database) (userId : RowId) (slug : String) : Decidable (SlugTaken db userId slug) :=
  inferInstanceAs (Decidable (∃ skill ∈ db.skills.rows, _))

instance (db : Database) (userId : RowId) (slug : String) :
    Decidable (SlugUnused db userId slug) :=
  inferInstanceAs (Decidable (∀ skill ∈ db.skills.rows, _))

/-- The outcomes that settle a create. -/
def ResponsePayload.SettlesCreate (payload : ResponsePayload) : Prop :=
  payload.IsValid ∧ (payload.status = .acked ∨ payload.status = .validationError)

instance (payload : ResponsePayload) : Decidable payload.SettlesCreate :=
  inferInstanceAs (Decidable (_ ∧ _))

/-- A create of an active device whose package is stored, and the keys that it draws. -/
structure CreateAttempt (rt : Runtime) (db : Database) (ctx : RequestContext) (userId : RowId)
    (request : SyncMutationRequest) (metadata : SyncSkillMetadata) (manifestHash : BlobHash) :
    Prop where
  operation : request.operation = .create
  metadata_eq : request.metadata = some metadata
  manifestHash_eq : request.packageManifestHash = some manifestHash
  device : db.HasActiveDevice userId request.deviceId
  closure : verifyPackageClosure rt db ctx.storage manifestHash = .ok ()
  entrypoint : ∃ markdown, legacyEntrypointMarkdown rt db ctx.storage manifestHash = .ok markdown
  newSkill : db.skill? ctx.newSkillId = none
  newVersion : db.version? ctx.newVersionId = none
  unversioned : ∀ version ∈ db.versions.rows, version.skillId ≠ ctx.newSkillId
  earlier : ∀ receipt, db.receipts.get? (request.key userId) = some receipt →
    receipt.responsePayload.SettlesCreate

/-- The answer is that of a stored receipt, which settles the create. -/
def ReceiptBacked (db : Database) (userId : RowId) (request : SyncMutationRequest)
    (reply : Except ServerError SyncMutationResponse) : Prop :=
  ∃ receipt, db.receipts.get? (request.key userId) = some receipt ∧
    receipt.responsePayload.SettlesCreate ∧ reply = .ok receipt.responsePayload.response

section

variable {rt : Runtime} {db db' : Database} {ctx : RequestContext} {userId : RowId}
  {request : SyncMutationRequest} {metadata : SyncSkillMetadata} {manifestHash : BlobHash}
  {payload : ResponsePayload}

/-! ## The insert -/

theorem findSkillBySlug_isSome {slug : String} :
    (findSkillBySlug db userId slug).isSome ↔ SlugTaken db userId slug := by
  simp [findSkillBySlug, SlugTaken]

/-- The row of a create meets the unique constraint of its owner exactly if no skill of his has
the slug. -/
theorem slugFree_owner_iff (ctx : RequestContext) (metadata : SyncSkillMetadata)
    (packageHash : Option BlobHash) :
    SlugFree db.skills Skill.ownerUserId ((syncSkill userId metadata).row ctx userId packageHash) ↔
      SlugUnused db userId metadata.slug := by
  simp [SlugFree, SlugUnused, NewSkill.row, syncSkill]

/-- With fresh keys the insert of the row is refused by that constraint only. -/
theorem insertSkill_isOk_iff (hfresh : db.skill? ctx.newSkillId = none)
    (packageHash : Option BlobHash) :
    (∃ db', insertSkill db ((syncSkill userId metadata).row ctx userId packageHash) = .ok db') ↔
      SlugUnused db userId metadata.slug := by
  constructor
  · rintro ⟨db', h⟩
    obtain ⟨_, hfree, -⟩ := bind_eq_ok.mp h
    exact (slugFree_owner_iff ctx metadata packageHash).mp (require_eq_ok.mp hfree)
  · intro hunused
    obtain ⟨skills, hinsert⟩ := Table.insert?_isSome
      (r := (syncSkill userId metadata).row ctx userId packageHash) hfresh
    have hgroup : SlugFree db.skills Skill.groupId
        ((syncSkill userId metadata).row ctx userId packageHash) :=
      fun _ _ _ hscope ↦ absurd rfl hscope
    refine ⟨{ db with skills }, bind_eq_ok.mpr ⟨(), ?_, bind_eq_ok.mpr ⟨(), ?_, ?_⟩⟩⟩
    · exact require_eq_ok.mpr ((slugFree_owner_iff ctx metadata packageHash).mpr hunused)
    · exact require_eq_ok.mpr hgroup
    · exact bind_eq_ok.mpr ⟨skills, okOr_eq_ok.mpr hinsert, rfl⟩

/-- The first version of a skill under a fresh key goes in. -/
theorem insertVersion_isOk {row : SkillVersion} (hfresh : db.version? row.id = none)
    (hunversioned : ∀ version ∈ db.versions.rows, version.skillId ≠ row.skillId) :
    ∃ db', insertVersion db row = .ok db' := by
  obtain ⟨versions, hinsert⟩ := Table.insert?_isSome (t := db.versions) hfresh
  refine ⟨{ db with versions }, bind_eq_ok.mpr ⟨(), ?_, bind_eq_ok.mpr ⟨(), ?_, ?_⟩⟩⟩
  · exact require_eq_ok.mpr fun version hversion hsame ↦
      absurd hsame (hunversioned version hversion)
  · exact require_eq_ok.mpr fun version hversion hsame ↦
      absurd hsame (hunversioned version hversion)
  · exact bind_eq_ok.mpr ⟨versions, okOr_eq_ok.mpr hinsert, rfl⟩

theorem createSkill_isOk_iff (hskill : db.skill? ctx.newSkillId = none)
    (hversion : db.version? ctx.newVersionId = none)
    (hunversioned : ∀ version ∈ db.versions.rows, version.skillId ≠ ctx.newSkillId)
    (markdown changeLog : String) :
    (∃ result, createSkill rt db ctx userId (syncSkill userId metadata)
        (syncVersion metadata.slug markdown changeLog manifestHash none) = .ok result) ↔
      SlugUnused db userId metadata.slug := by
  constructor
  · rintro ⟨result, h⟩
    obtain ⟨-, -, h⟩ := bind_eq_ok.mp h
    obtain ⟨-, -, h⟩ := bind_eq_ok.mp h
    obtain ⟨db₁, hinsert, -⟩ := bind_eq_ok.mp h
    exact (insertSkill_isOk_iff hskill _).mp ⟨db₁, hinsert⟩
  · intro hunused
    obtain ⟨db₁, hinsert⟩ := (insertSkill_isOk_iff hskill (some manifestHash)).mpr hunused
    have hversions : db₁.versions = db.versions := by
      obtain ⟨-, -, h⟩ := bind_eq_ok.mp hinsert
      obtain ⟨-, -, h⟩ := bind_eq_ok.mp h
      obtain ⟨skills, -, h⟩ := bind_eq_ok.mp h
      cases h
      rfl
    have hrow : ∃ db₂, insertVersion db₁ (versionRow ctx userId ctx.newSkillId "0.1.0" .first
        (defaultManifest metadata.slug) (some manifestHash)
        (syncVersion metadata.slug markdown changeLog manifestHash none)) = .ok db₂ := by
      apply insertVersion_isOk
      · exact (congrArg (fun versions ↦ Table.get? versions ctx.newVersionId) hversions).trans hversion
      · exact hversions ▸ hunversioned
    obtain ⟨db₂, hrow⟩ := hrow
    refine exists_bind_eq_ok.mpr ⟨(), require_eq_ok.mpr nofun, ?_⟩
    refine exists_bind_eq_ok.mpr ⟨(), require_eq_ok.mpr fun _ ↦ rfl, ?_⟩
    refine exists_bind_eq_ok.mpr ⟨db₁, hinsert, ?_⟩
    refine exists_bind_eq_ok.mpr ⟨(db₁, some manifestHash), rfl, ?_⟩
    exact exists_bind_eq_ok.mpr ⟨db₂, hrow, _, rfl⟩

/-! ## The request -/

theorem recordReceipt_isOk (hnone : db.receipts.get? (request.key userId) = none)
    (revision : Option Revision) (resourceId : Option RowId) (payload : ResponsePayload) :
    ∃ result, recordReceipt db userId request revision resourceId payload = .ok result := by
  let receipt : SyncMutationReceipt :=
    ⟨request.key userId, request.operation, resourceId, payload.status, revision, payload⟩
  obtain ⟨receipts, hinsert⟩ := Table.insert?_isSome (r := receipt) hnone
  exact exists_bind_eq_ok.mpr ⟨receipts, okOr_eq_ok.mpr hinsert, _, rfl⟩

theorem applyCreate_isOk_iff
    (h : CreateAttempt rt db ctx userId request metadata manifestHash)
    (hnone : db.receipts.get? (request.key userId) = none) :
    (∃ result, applyCreate rt db ctx userId request metadata manifestHash = .ok result) ↔
      SlugUnused db userId metadata.slug := by
  obtain ⟨markdown, hmarkdown⟩ := h.entrypoint
  have hcreate : (∃ result, createSkill rt db ctx userId (syncSkill userId metadata)
      (syncVersion metadata.slug markdown "Created from desktop sync" manifestHash none) =
        .ok result) ↔ SlugUnused db userId metadata.slug :=
    createSkill_isOk_iff h.newSkill h.newVersion h.unversioned markdown _
  rw [← hcreate]
  constructor
  · intro hok
    obtain ⟨-, -, hok⟩ := exists_bind_eq_ok.mp hok
    obtain ⟨markdown', hmarkdown', hok⟩ := exists_bind_eq_ok.mp hok
    cases hmarkdown.symm.trans hmarkdown'
    obtain ⟨result, hresult, -⟩ := exists_bind_eq_ok.mp hok
    exact ⟨result, hresult⟩
  · rintro ⟨⟨db₁, skill⟩, hskill⟩
    have hreceipts := (createSkill_sameSync hskill).receipts
    refine exists_bind_eq_ok.mpr ⟨(), h.closure, ?_⟩
    refine exists_bind_eq_ok.mpr ⟨markdown, hmarkdown, ?_⟩
    refine exists_bind_eq_ok.mpr ⟨(db₁, skill), hskill, ?_⟩
    exact recordReceipt_isOk (hreceipts ▸ hnone) _ _ _

/-- The handler of a create returns exactly if a live private skill has the slug or none of the
owner's skills has it. -/
theorem handleCreate_isOk_iff (h : CreateAttempt rt db ctx userId request metadata manifestHash)
    (hnone : db.receipts.get? (request.key userId) = none) :
    (∃ result, handleCreate rt db ctx userId request = .ok result) ↔
      SlugTaken db userId metadata.slug ∨ SlugUnused db userId metadata.slug := by
  have heq : handleCreate rt db ctx userId request =
      if (findSkillBySlug db userId metadata.slug).isSome then
        recordReceipt db userId request none none
          (errorPayload request.mutationId .validationError "SKILL_SLUG_TAKEN"
            "A skill with this slug already exists.")
      else applyCreate rt db ctx userId request metadata manifestHash := by
    rw [handleCreate, h.metadata_eq, h.manifestHash_eq]
    rfl
  rw [heq]
  split
  case isTrue htaken =>
    exact iff_of_true (recordReceipt_isOk hnone _ _ _) (.inl (findSkillBySlug_isSome.mp htaken))
  case isFalse hfree =>
    rw [applyCreate_isOk_iff h hnone, or_iff_right (findSkillBySlug_isSome.not.mp hfree)]

/-- A create that its handler ends is acknowledged or refused for good. -/
theorem settlesCreate_of_handleCreate (hcreate : request.operation = .create)
    (h : handleCreate rt db ctx userId request = .ok (db', payload)) : payload.SettlesCreate := by
  refine ⟨(handleCreate_handled hcreate h).valid, ?_⟩
  obtain ⟨metadata, -, h⟩ := bind_eq_ok.mp h
  obtain ⟨manifestHash, -, h⟩ := bind_eq_ok.mp h
  split at h
  case isTrue =>
    obtain ⟨rfl, -⟩ := recordReceipt_eq_ok h
    exact .inr rfl
  case isFalse =>
    obtain ⟨-, -, h⟩ := bind_eq_ok.mp h
    obtain ⟨markdown, -, h⟩ := bind_eq_ok.mp h
    obtain ⟨⟨db₁, created⟩, -, h⟩ := bind_eq_ok.mp h
    obtain ⟨rfl, -⟩ := recordReceipt_eq_ok h
    exact .inl rfl

/-- The check of the device writes to its row only. -/
theorem devices_of_validateActiveDevice {now : ℕ} {deviceId : RowId}
    (h : validateActiveDevice db now userId deviceId = .ok db') :
    ∃ devices, db' = { db with devices } := by
  obtain ⟨device, -, h⟩ := bind_eq_ok.mp h
  obtain ⟨-, -, h⟩ := bind_eq_ok.mp h
  cases h
  exact ⟨_, rfl⟩

/-! ## The endpoint -/

/-- The transaction of a create without a receipt is that of its handler. -/
theorem mutationTransaction_isOk_iff
    (h : CreateAttempt rt db ctx userId request metadata manifestHash)
    (hnone : db.receipts.get? (request.key userId) = none) :
    (∃ result, mutationTransaction rt ctx userId request db = .ok result) ↔
      SlugTaken db userId metadata.slug ∨ SlugUnused db userId metadata.slug := by
  obtain ⟨db₁, hdevice⟩ := validateActiveDevice_isOk ctx.now h.device
  obtain ⟨hactive, -, -, hretains⟩ := validateActiveDevice_eq_ok hdevice
  obtain ⟨devices, hdb₁⟩ := devices_of_validateActiveDevice hdevice
  have hattempt : CreateAttempt rt db₁ ctx userId request metadata manifestHash := by
    subst hdb₁
    exact { h with device := hretains.devices _ _ hactive }
  have hnone₁ : db₁.receipts.get? (request.key userId) = none := hdb₁ ▸ hnone
  have happly : applySyncMutation rt db₁ ctx userId request =
      handleCreate rt db₁ ctx userId request := by
    rw [applySyncMutation, hnone₁, handleMutation, h.operation]
  have htaken : SlugTaken db₁ userId metadata.slug ↔ SlugTaken db userId metadata.slug := by
    rw [SlugTaken, hdb₁, SlugTaken]
  have hunused : SlugUnused db₁ userId metadata.slug ↔ SlugUnused db userId metadata.slug := by
    rw [SlugUnused, hdb₁, SlugUnused]
  rw [← htaken, ← hunused, ← handleCreate_isOk_iff hattempt hnone₁, ← happly]
  constructor
  · intro hok
    obtain ⟨db₂, hdevice', hok⟩ := exists_bind_eq_ok.mp hok
    cases hdevice.symm.trans hdevice'
    exact hok
  · exact fun hok ↦ exists_bind_eq_ok.mpr ⟨db₁, hdevice, hok⟩

/-- A create of an active device whose package is stored is answered from a receipt that settles
it exactly if it has its receipt already, a live private skill of the owner has the slug, or no
skill of the owner has it. -/
theorem exec_create_receiptBacked_iff
    (h : CreateAttempt rt db ctx userId request metadata manifestHash) :
    ReceiptBacked ((submitRequest rt ctx userId request).exec db).2 userId request
        ((submitRequest rt ctx userId request).exec db).1 ↔
      (db.receipts.get? (request.key userId)).isSome ∨ SlugTaken db userId metadata.slug ∨
        SlugUnused db userId metadata.slug := by
  cases hget : db.receipts.get? (request.key userId) with
  | some receipt =>
    refine iff_of_true ⟨receipt, ?_, h.earlier receipt hget, ?_⟩ (.inl rfl)
    · exact (exec_submitRequest rt ctx userId request db).retains.receipts _ _ hget
    · rw [exec_submitRequest_replay rt ctx h.device hget]
      exact SyncMutationResponse.validate_eq_ok.mpr ⟨(h.earlier receipt hget).1, rfl⟩
  | none =>
    rw [or_iff_right (by simp), ← mutationTransaction_isOk_iff h hget]
    constructor
    · rintro ⟨receipt, hstored, -, hreply⟩
      cases htx : mutationTransaction rt ctx userId request db with
      | error error =>
        rw [submitRequest, Program.exec_bind_error (Program.exec_transaction_error htx)] at hreply
        cases hreply
      | ok result => exact ⟨result, rfl⟩
    · rintro ⟨⟨db', payload⟩, htx⟩
      rw [submitRequest, Program.exec_bind_ok (Program.exec_transaction_ok htx), Program.exec_lift]
      obtain ⟨db₁, hdevice, happly⟩ := bind_eq_ok.mp htx
      obtain ⟨devices, hdb₁⟩ := devices_of_validateActiveDevice hdevice
      have hnone₁ : db₁.receipts.get? (request.key userId) = none := hdb₁ ▸ hget
      rw [applySyncMutation, hnone₁, handleMutation, h.operation] at happly
      have hsettles := settlesCreate_of_handleCreate h.operation happly
      obtain ⟨receipt, hreceipt, rfl⟩ := (handleCreate_handled h.operation happly).records.stored
      exact ⟨receipt, hreceipt, hsettles, SyncMutationResponse.validate_eq_ok.mpr ⟨hsettles.1, rfl⟩⟩

end

/-! ### A slug in the trash -/

namespace Sample

def createMetadata : SyncSkillMetadata := demoMetadata

def createdSkill : Skill :=
  (syncSkill user createMetadata).row (context version₁) user (some packageHash)

/-- The skill was created and deleted again. -/
def trashed : Database :=
  (softDelete { database with skills := ⟨[createdSkill], by decide⟩ } (context version₁)
    createdSkill).1

/-- The create of a skill by its device. -/
def createRequest (mutationId : RowId) : SyncMutationRequest where
  deviceId := device
  mutationId := mutationId
  operation := .create
  clientSkillId := "local-2"
  remoteSkillId := none
  baseRevision := none
  packageManifestHash := some packageHash
  metadata := some createMetadata
  clientSkillId_length := by decide
  shape := by decide

/-- A request that draws the keys of another skill. -/
def laterContext : RequestContext := ⟨storage, secondSkill, version₂, 0⟩

def laterRequest : SyncMutationRequest := createRequest ⟨"mutation-3", by decide⟩

theorem hasActiveDevice {db : Database}
    (h : (db.devices.get? device).any (fun row ↦ row.userId = user ∧ row.revokedAt = none) = true) :
    db.HasActiveDevice user device := by
  obtain ⟨row, hrow, hactive⟩ := (Option.any_eq_true _ _).mp h
  exact ⟨row, hrow, of_decide_eq_true hactive⟩

/-- The package is stored wherever the blobs are those of the sample. -/
theorem closure_of_blobs {db : Database} (h : db.blobs = database.blobs) :
    verifyPackageClosure runtime db storage packageHash = .ok () ∧
      legacyEntrypointMarkdown runtime db storage packageHash = .ok "# Demo\n" := by
  have hclosure : (verifyPackageClosure runtime database storage packageHash).toOption = some () ∧
      (legacyEntrypointMarkdown runtime database storage packageHash).toOption = some "# Demo\n" := by
    decide +kernel
  have hblob : db.blob? = database.blob? := by
    funext hash
    rw [Database.blob?, Database.blob?, h]
  have hpresent : blobPresent db storage = blobPresent database storage := by
    funext hash size
    rw [blobPresent, blobPresent, hblob]
  constructor
  · rw [verifyPackageClosure, hpresent, hblob]
    exact toOption_eq_some.mp hclosure.1
  · rw [legacyEntrypointMarkdown, hblob]
    exact toOption_eq_some.mp hclosure.2

theorem createAttempt_database :
    CreateAttempt runtime database (context version₁) user (createRequest ⟨"mutation-1", by decide⟩)
      createMetadata packageHash where
  operation := rfl
  metadata_eq := rfl
  manifestHash_eq := rfl
  device := hasActiveDevice (by decide +kernel)
  closure := (closure_of_blobs rfl).1
  entrypoint := ⟨"# Demo\n", (closure_of_blobs rfl).2⟩
  newSkill := by decide +kernel
  newVersion := by decide +kernel
  unversioned := by decide +kernel
  earlier _ h := by cases h

theorem createAttempt_trashed :
    CreateAttempt runtime trashed laterContext user laterRequest createMetadata packageHash where
  operation := rfl
  metadata_eq := rfl
  manifestHash_eq := rfl
  device := hasActiveDevice (by decide +kernel)
  closure := (closure_of_blobs rfl).1
  entrypoint := ⟨"# Demo\n", (closure_of_blobs rfl).2⟩
  newSkill := by decide +kernel
  newVersion := by decide +kernel
  unversioned := by decide +kernel
  earlier receipt h := by
    have hnone : (trashed.receipts.get? (laterRequest.key user)).isNone = true := by decide +kernel
    rw [h] at hnone
    cases hnone

end Sample

open Sample in
/-- The first create of the slug. -/
theorem exec_create_receiptBacked_database :
    ReceiptBacked
      ((submitRequest runtime (context version₁) user
        (createRequest ⟨"mutation-1", by decide⟩)).exec database).2 user
      (createRequest ⟨"mutation-1", by decide⟩)
      ((submitRequest runtime (context version₁) user
        (createRequest ⟨"mutation-1", by decide⟩)).exec database).1 :=
  (exec_create_receiptBacked_iff createAttempt_database).mpr (.inr (.inr (by decide +kernel)))

open Sample in
/-- The slug is in the trash: the create fails at the constraint and leaves no receipt. -/
theorem exec_create_trashed :
    CreateAttempt runtime trashed laterContext user laterRequest createMetadata packageHash ∧
      ((submitRequest runtime laterContext user laterRequest).exec trashed).1 =
        .error (.integrity "uq_owner_skill_slug") ∧
      ((submitRequest runtime laterContext user laterRequest).exec trashed).2 = trashed ∧
      ¬ ReceiptBacked ((submitRequest runtime laterContext user laterRequest).exec trashed).2 user
        laterRequest ((submitRequest runtime laterContext user laterRequest).exec trashed).1 := by
  have htx : mutationTransaction runtime laterContext user laterRequest trashed =
      .error (.integrity "uq_owner_skill_slug") := by
    have hconstraint :
        (match mutationTransaction runtime laterContext user laterRequest trashed with
          | .error (.integrity constraint) => constraint
          | _ => "") = "uq_owner_skill_slug" := by
      decide +kernel
    split at hconstraint
    case h_1 constraint herror => rw [herror, hconstraint]
    case h_2 => exact absurd hconstraint (by decide)
  have hexec : (submitRequest runtime laterContext user laterRequest).exec trashed =
      (.error (.integrity "uq_owner_skill_slug"), trashed) := by
    rw [submitRequest, Program.exec_bind_error (Program.exec_transaction_error htx)]
  have hreply := congrArg Prod.fst hexec
  refine ⟨createAttempt_trashed, hreply, congrArg Prod.snd hexec, ?_⟩
  rintro ⟨receipt, -, -, hok⟩
  cases hreply.symm.trans hok

end Server

end SkillHive
