import SkillHive.Server.Traffic
import SkillHive.Server.UpdatedRows
import SkillHive.Sync.Push

/-!
# What a pushed update leaves alone

A push carries the name and the slug of the row and leaves the other fields of its metadata
out. The schema of the endpoint puts a default into every field that is left out, and the
handler assigns what the schema made of it. An acknowledged update therefore keeps the
fields that it left out exactly when they held these defaults before.
-/

namespace SkillHive

open Foundation LocalStore

namespace Sync

open Server (Advanced Database MetadataBody MutationBody Operation RequestContext RowId Runtime
  Skill SkillUpdates SyncMutationRequest SyncMutationResponse SyncSkillMetadata SyncUpdated
  exec_submitRequest_acked normalizeTags submitMutation syncUpdates validateField)

/-! ## The request at the endpoint -/

/-- The metadata of a request as the schema reads it: a field that is absent has its
default. -/
def MutationMetadata.received (metadata : MutationMetadata) : MetadataBody where
  name := metadata.name
  slug := metadata.slug
  description := metadata.description.getD ""
  category := metadata.category.getD ""
  tags := metadata.tags.getD []

/-- `Literal["create", "update", "delete"]` -/
def receivedOperation : MutationOperation → Operation
  | .create => .create
  | .update => .update
  | .delete => .delete

/-- The body that the endpoint decodes from a request; `uuid` reads its identifiers. -/
def MutationRequest.received? (uuid : String → Option RowId) (request : MutationRequest) :
    Option MutationBody :=
  if request.protocolVersion = 1 then do
    let deviceId ← uuid request.deviceId
    let mutationId ← uuid request.mutationId
    some
      { deviceId := deviceId
        mutationId := mutationId
        operation := receivedOperation request.operation
        clientSkillId := request.clientSkillId
        remoteSkillId := request.remoteSkillId
        baseRevision := request.baseRevision
        packageManifestHash := request.packageManifestHash
        metadata := request.metadata.map MutationMetadata.received }
  else none

/-- A decoded body has the operation of its request and the metadata that was received. -/
theorem MutationRequest.received?_eq_some {uuid : String → Option RowId}
    {request : MutationRequest} {body : MutationBody} (h : request.received? uuid = some body) :
    body.operation = receivedOperation request.operation ∧
      body.metadata = request.metadata.map MutationMetadata.received := by
  unfold received? at h
  split at h
  case isFalse => cases h
  case isTrue =>
    obtain ⟨deviceId, -, h⟩ := Option.bind_eq_some_iff.mp h
    obtain ⟨mutationId, -, h⟩ := Option.bind_eq_some_iff.mp h
    cases h
    exact ⟨rfl, rfl⟩

/-- A validated request has the operation of its body and its metadata, checked. -/
theorem validate_eq_some {body : MutationBody} {request : SyncMutationRequest}
    (h : SyncMutationRequest.validate body = some request) :
    request.operation = body.operation ∧
      validateField SyncSkillMetadata.validate body.metadata = some request.metadata := by
  obtain ⟨remoteSkillId, -, h⟩ := Option.bind_eq_some_iff.mp h
  obtain ⟨baseRevision, -, h⟩ := Option.bind_eq_some_iff.mp h
  obtain ⟨packageManifestHash, -, h⟩ := Option.bind_eq_some_iff.mp h
  obtain ⟨metadata, hmetadata, h⟩ := Option.bind_eq_some_iff.mp h
  split at h
  case isFalse => cases h
  case isTrue =>
    cases h
    exact ⟨rfl, hmetadata⟩

/-- The fields that a push of the desktop leaves out arrive with their defaults. -/
theorem metadata_of_received {deviceId : String} {m : LocalMutation} {row : Option LocalSkill}
    {uuid : String → Option RowId} {body : MutationBody} {request : SyncMutationRequest}
    {metadata : SyncSkillMetadata}
    (hbody : (mutationRequest deviceId m row).received? uuid = some body)
    (hrequest : SyncMutationRequest.validate body = some request)
    (hmetadata : request.metadata = some metadata) :
    metadata.description = "" ∧ metadata.category = "" ∧ metadata.tags = [] := by
  obtain ⟨-, hreceived⟩ := MutationRequest.received?_eq_some hbody
  obtain ⟨-, hvalidate⟩ := validate_eq_some hrequest
  rw [hmetadata, hreceived] at hvalidate
  cases row with
  | none => cases hvalidate
  | some row =>
    obtain ⟨checked, hchecked, hsome⟩ := Option.map_eq_some_iff.mp hvalidate
    cases hsome
    unfold SyncSkillMetadata.validate at hchecked
    split at hchecked
    case isFalse => cases hchecked
    case isTrue =>
      cases hchecked
      exact ⟨rfl, rfl, rfl⟩

/-! ## The fields that a push leaves out -/

/-- The columns of a skill that the metadata of a push does not carry are those of the row
before it: a field that it left out, and a column that no field of it stands for. -/
structure KeepsAbsent (metadata : MutationMetadata) (before after : Skill) : Prop where
  description : metadata.description = none → after.description = before.description
  category : metadata.category = none → after.category = before.category
  tags : metadata.tags = none → after.tags = before.tags
  scope : after.SameScope before
  status : after.status = before.status
  createdBy : after.createdBy = before.createdBy
  deletedAt : after.deletedAt = before.deletedAt

theorem KeepsAbsent.refl (metadata : MutationMetadata) (skill : Skill) :
    KeepsAbsent metadata skill skill where
  description := fun _ ↦ rfl
  category := fun _ ↦ rfl
  tags := fun _ ↦ rfl
  scope := ⟨rfl, rfl, rfl, rfl, rfl⟩
  status := rfl
  createdBy := rfl
  deletedAt := rfl

/-- Every skill keeps what the metadata of the request does not carry. -/
def SkillsKeepAbsent (request : MutationRequest) (db db' : Database) : Prop :=
  ∀ metadata ∈ request.metadata, ∀ skillId skill, db.skill? skillId = some skill →
    ∃ skill', db'.skill? skillId = some skill' ∧ KeepsAbsent metadata skill skill'

/-- The row has the default of every field that a push leaves out. -/
structure HasDefaults (skill : Skill) : Prop where
  description : skill.description = ""
  category : skill.category = ""
  tags : skill.tags = []

/-- The row of an update of the desktop keeps the fields left out exactly when they had
their defaults. -/
theorem keepsAbsent_of_advanced {metadata : SyncSkillMetadata} {row : LocalSkill}
    {skill skill' : Skill}
    (hdefaults : metadata.description = "" ∧ metadata.category = "" ∧ metadata.tags = [])
    (hadvanced : Advanced ((syncUpdates metadata).apply skill) skill') :
    KeepsAbsent (skillMetadata row) skill skill' ↔ HasDefaults skill := by
  obtain ⟨hdescription, hcategory, htags⟩ := hdefaults
  obtain ⟨version, package, revision, rfl⟩ := hadvanced.row
  constructor
  · intro h
    exact ⟨(h.description rfl).symm.trans hdescription, (h.category rfl).symm.trans hcategory,
      (h.tags rfl).symm.trans htags⟩
  · intro h
    exact
      { description := fun _ ↦ hdescription.trans h.description.symm
        category := fun _ ↦ hcategory.trans h.category.symm
        tags := fun _ ↦ htags.trans h.tags.symm
        scope := ⟨rfl, rfl, rfl, rfl, rfl⟩
        status := rfl
        createdBy := rfl
        deletedAt := rfl }

section Endpoint

variable {rt : Runtime} {db : Database} {ctx : RequestContext} {userId : RowId}
  {deviceId : String} {m : LocalMutation} {row : Option LocalSkill}
  {uuid : String → Option RowId} {body : MutationBody} {request : SyncMutationRequest}

/-- A written update keeps the fields left out of every skill exactly when the row that the
request names had their defaults. -/
theorem skillsKeepAbsent_of_syncUpdated {db' : Database}
    (hbody : (mutationRequest deviceId m row).received? uuid = some body)
    (hrequest : SyncMutationRequest.validate body = some request)
    (h : SyncUpdated db request db') :
    SkillsKeepAbsent (mutationRequest deviceId m row) db db' ↔
      ∀ skill, request.remoteSkillId.bind db.skill? = some skill → HasDefaults skill := by
  obtain ⟨metadata, skill, skill', hmetadata, hremote, hget, hadvanced, hskills⟩ := h.row
  have hdefaults := metadata_of_received hbody hrequest hmetadata
  have hnamed : request.remoteSkillId.bind db.skill? = some skill := by
    rw [hremote, Option.bind_some, hget]
  rw [hnamed]
  obtain ⟨row, rfl⟩ : ∃ live, row = some live := by
    cases row with
    | some live => exact ⟨live, rfl⟩
    | none =>
      obtain ⟨-, hreceived⟩ := MutationRequest.received?_eq_some hbody
      obtain ⟨-, hvalidate⟩ := validate_eq_some hrequest
      rw [hmetadata, hreceived] at hvalidate
      cases hvalidate
  constructor
  · intro hkeeps stored hstored
    cases hstored
    obtain ⟨after, hafter, hkept⟩ := hkeeps (skillMetadata row) rfl skill.id skill hget
    rw [hskills, Function.update_self, Option.some.injEq] at hafter
    subst hafter
    exact (keepsAbsent_of_advanced hdefaults hadvanced).mp hkept
  · rintro hall pushed ⟨⟩ skillId stored hstored
    rw [hskills]
    by_cases hid : skillId = skill.id
    · subst hid
      rw [hget, Option.some.injEq] at hstored
      subst hstored
      exact ⟨skill', Function.update_self .., (keepsAbsent_of_advanced hdefaults hadvanced).mpr
        (hall skill rfl)⟩
    · exact ⟨stored, by rw [Function.update_of_ne hid, hstored], .refl _ _⟩

/-- An acknowledged update of the desktop keeps every field that it left out exactly when it
was answered from its receipt or the row that it names had the defaults of these fields. -/
theorem exec_submitMutation_keepsAbsent_iff {response : SyncMutationResponse}
    (hupdate : m.operation = .update)
    (hbody : (mutationRequest deviceId m row).received? uuid = some body)
    (hrequest : SyncMutationRequest.validate body = some request)
    (hreply : ((submitMutation rt ctx userId body).exec db).1 = .ok response)
    (hacked : response.status = .acked) :
    SkillsKeepAbsent (mutationRequest deviceId m row) db
        ((submitMutation rt ctx userId body).exec db).2 ↔
      (db.receipts.get? (request.key userId)).isSome ∨
        ∀ skill, request.remoteSkillId.bind db.skill? = some skill → HasDefaults skill := by
  have hoperation : request.operation = .update := by
    rw [(validate_eq_some hrequest).1, (MutationRequest.received?_eq_some hbody).1]
    exact congrArg receivedOperation hupdate
  simp only [submitMutation, hrequest] at hreply ⊢
  rcases exec_submitRequest_acked hoperation hreply hacked with
    ⟨hreceipt, hskills⟩ | ⟨hfresh, hupdated⟩
  · refine iff_of_true ?_ (.inl hreceipt)
    intro metadata _ skillId skill hskill
    exact ⟨skill, by rw [hskills, hskill], .refl metadata skill⟩
  · rw [hfresh]
    simpa using skillsKeepAbsent_of_syncUpdated hbody hrequest hupdated

end Endpoint

/-! ## A skill with a description -/

namespace Sample

open Server.Sample (context createBody database packageHash runtime skillId updateBody user
  version₁ version₂)

/-- Another client has created the skill with a description. -/
def described : Database :=
  (Server.Action.submitMutation user (context version₁)
    { createBody with
      metadata := some ⟨"Demo", "demo", "Reads papers", "", []⟩ }).next runtime database

/-- The row of the skill on the desktop. -/
def describedRow : LocalSkill where
  id := "local-1"
  remoteId := some skillId.text
  name := "Demo"
  slug := "demo"
  workspacePath := "skills/demo"
  currentBlobHash := packageHash.text
  remoteBlobHash := none
  remoteRevision := some 1
  syncState := .dirty
  pinned := false

/-- An edit of the package, claimed by the worker. -/
def packageEdit : LocalMutation where
  id := "mutation-2"
  skillId := "local-1"
  localSequence := 1
  operation := .update
  baseRevision := some 1
  payloadHash := packageHash.text
  state := .inFlight
  retryCount := 0
  nextAttemptAt := none
  lastAttemptAt := none
  serverErrorCode := none
  serverErrorDetails := none
  acknowledgedRemoteRevision := none
  acknowledgedRemoteId := some skillId.text
  lastError := none
  createdAt := 0

/-- The request of the edit. -/
def packagePush : MutationRequest := mutationRequest "device-1" packageEdit (some describedRow)

/-- The endpoint's answer to the edit. -/
def push (db : Database) : Except Server.ServerError SyncMutationResponse × Database :=
  (submitMutation runtime (context version₂) user updateBody).exec db

end Sample

/-- On the described skill the edit keeps what it left out only if there was nothing. -/
theorem exec_submitMutation_keepsAbsent_described :
    ∃ request, SyncMutationRequest.validate Server.Sample.updateBody = some request ∧
      (SkillsKeepAbsent Sample.packagePush Sample.described (Sample.push Sample.described).2 ↔
        (Sample.described.receipts.get? (request.key Server.Sample.user)).isSome ∨
          ∀ skill, request.remoteSkillId.bind Sample.described.skill? = some skill →
            HasDefaults skill) := by
  have hbody : Sample.packagePush.received? RowId.ofText? = some Server.Sample.updateBody := rfl
  have hrequest : (SyncMutationRequest.validate Server.Sample.updateBody).isSome = true := by decide
  obtain ⟨request, hrequest⟩ := Option.isSome_iff_exists.mp hrequest
  have hreply : (Sample.push Sample.described).1.toOption.any
      (fun response ↦ response.status = .acked) = true := by
    decide +kernel
  obtain ⟨response, hreply, hacked⟩ := (Option.any_eq_true _ _).mp hreply
  exact ⟨request, hrequest, exec_submitMutation_keepsAbsent_iff rfl hbody hrequest
    (toOption_eq_some.mp hreply) (of_decide_eq_true hacked)⟩

/-- The endpoint acknowledges the edit and erases the description of the skill. -/
theorem describedSkill_erased :
    (Sample.push Sample.described).1.toOption.map SyncMutationResponse.status = some .acked ∧
      ¬ SkillsKeepAbsent Sample.packagePush Sample.described (Sample.push Sample.described).2 := by
  have hend : (Sample.push Sample.described).1.toOption.map SyncMutationResponse.status =
        some .acked ∧
      ((Sample.push Sample.described).2.skill? Server.Sample.skillId).all
        (fun skill ↦ skill.description = "") = true := by
    decide +kernel
  have hbefore : (Sample.described.skill? Server.Sample.skillId).any
      (fun skill ↦ skill.description = "Reads papers") = true := by
    decide +kernel
  obtain ⟨hacked, hafter⟩ := hend
  refine ⟨hacked, fun h ↦ ?_⟩
  obtain ⟨skill, hskill, hdescription⟩ := (Option.any_eq_true _ _).mp hbefore
  obtain ⟨skill', hskill', hkept⟩ := h _ rfl _ skill hskill
  rw [hskill'] at hafter
  have heq : "" = skill.description := (of_decide_eq_true hafter).symm.trans
    (hkept.description rfl)
  rw [of_decide_eq_true hdescription] at heq
  exact absurd heq (by decide)

end Sync

end SkillHive
