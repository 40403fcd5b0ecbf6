import SkillHive.Server.PrivateSteps

/-!
# The row that an update leaves

An update that brings a content assigns the columns that it names and moves the row on to
its new version; every other column stays. An update of a device that was acknowledged was
either answered from its receipt or wrote such a row under the skill that it names.
-/

namespace SkillHive

open Foundation

namespace Server

/-- The row of an updated skill: `assigned` with its pointer and its revision moved on. -/
structure Advanced (assigned skill : Skill) : Prop where
  row : ∃ version package revision, skill =
    { assigned with
      currentVersionId := version
      currentPackageHash := package
      syncRevision := revision }

section Updates

variable {rt : Runtime} {db db' : Database} {ctx : RequestContext} {userId actor : RowId}
  {skill skill' : Skill}

/-- An update that brings a content stores the package of this content in the row. -/
theorem updateContent_eq_ok {args : NewContent}
    (h : updateContent rt db ctx actor skill args false = .ok (db', skill')) :
    ∃ db₁, packageHashForContent rt db ctx skill.slug skill.description args.content
        args.packageManifestHash = .ok (db₁, skill'.currentPackageHash) ∧
      Advanced skill skill' := by
  obtain ⟨-, -, h⟩ := bind_eq_ok.mp h
  obtain ⟨⟨db₁, package⟩, hpackage, h⟩ := bind_eq_ok.mp h
  obtain ⟨db₂, -, h⟩ := bind_eq_ok.mp h
  cases h
  refine ⟨db₁, hpackage, ⟨some ctx.newVersionId, package, skill.syncRevision.next, ?_⟩⟩
  simp [demoteIf]

/-- What an acknowledged update of a device wrote. -/
structure SyncUpdated (db : Database) (request : SyncMutationRequest) (db' : Database) : Prop where
  row : ∃ metadata skill skill', request.metadata = some metadata ∧
    request.remoteSkillId = some skill.id ∧ db.skill? skill.id = some skill ∧
    Advanced ((syncUpdates metadata).apply skill) skill' ∧
    db'.skill? = Function.update db.skill? skill.id (some skill')

theorem SyncUpdated.of_sameDomain {db₁ : Database} {request : SyncMutationRequest}
    (h : SyncUpdated db₁ request db') (hdomain : db.SameDomain db₁) :
    SyncUpdated db request db' := by
  obtain ⟨metadata, skill, skill', hmetadata, hremote, hget, hadvanced, hskills⟩ := h.row
  rw [hdomain.skill?_eq] at hget hskills
  exact ⟨metadata, skill, skill', hmetadata, hremote, hget, hadvanced, hskills⟩

theorem handleUpdate_acked {request : SyncMutationRequest} {payload : ResponsePayload}
    (h : handleUpdate rt db ctx userId request = .ok (db', payload))
    (hacked : payload.status = .acked) : SyncUpdated db request db' := by
  obtain ⟨remoteSkillId, hremote, h⟩ := bind_eq_ok.mp h
  obtain ⟨metadata, hmetadata, h⟩ := bind_eq_ok.mp h
  obtain ⟨manifestHash, -, h⟩ := bind_eq_ok.mp h
  have hrefusal : ∀ {revision resourceId} {refusal : ResponsePayload},
      refusal.status ≠ .acked →
      recordReceipt db userId request revision resourceId refusal ≠ .ok (db', payload) := by
    intro revision resourceId refusal hstatus hrecord
    obtain ⟨rfl, -⟩ := recordReceipt_eq_ok hrecord
    exact hstatus hacked
  cases hload : loadSkillLocked db remoteSkillId userId with
  | none =>
    simp only [hload] at h
    exact absurd h (hrefusal (by simp [errorPayload]))
  | some skill =>
    simp only [hload] at h
    split_ifs at h
    · exact absurd h (hrefusal (by simp [errorPayload]))
    · exact absurd h (hrefusal (by simp [errorPayload]))
    · obtain ⟨-, -, h⟩ := bind_eq_ok.mp h
      obtain ⟨markdown, -, h⟩ := bind_eq_ok.mp h
      obtain ⟨⟨db₁, skill'⟩, hupdate, h⟩ := bind_eq_ok.mp h
      obtain ⟨hget, -⟩ := loadSkillLocked_eq_some hload
      have hid : skill.id = remoteSkillId :=
        Table.key_of_get? (Option.filter_eq_some_iff.mp hload).1
      obtain ⟨-, -, hadvanced⟩ := updateContent_eq_ok hupdate
      have hskills : db₁.skill? = Function.update db.skill? skill.id (some skill') := by
        rcases updateSkill_step hget hupdate with ⟨rfl, rfl⟩ | ⟨package, hrewritten, -⟩
        · exact (Function.update_eq_self_iff.mpr hget.symm).symm
        · rw [hrewritten.written.skills, hrewritten.id]
      obtain ⟨hdomain, -⟩ := recordReceipt_keeps h
      refine ⟨metadata, skill, skill', okOr_eq_ok.mp hmetadata, ?_, hget, hadvanced, ?_⟩
      · rw [hid]
        exact okOr_eq_ok.mp hremote
      · rw [hdomain.skill?_eq, hskills]

/-- An acknowledged update was answered from its receipt and left the skills alone, or it
had no receipt and wrote the row. -/
theorem exec_submitRequest_acked {request : SyncMutationRequest} {response : SyncMutationResponse}
    (hupdate : request.operation = .update)
    (hreply : ((submitRequest rt ctx userId request).exec db).1 = .ok response)
    (hacked : response.status = .acked) :
    ((db.receipts.get? (request.key userId)).isSome ∧
        ((submitRequest rt ctx userId request).exec db).2.skill? = db.skill?) ∨
      (db.receipts.get? (request.key userId) = none ∧
        SyncUpdated db request ((submitRequest rt ctx userId request).exec db).2) := by
  cases htx : mutationTransaction rt ctx userId request db with
  | error error =>
    rw [submitRequest, Program.exec_bind_error (Program.exec_transaction_error htx)] at hreply
    cases hreply
  | ok result =>
    obtain ⟨db', payload⟩ := result
    rw [submitRequest, Program.exec_bind_ok (Program.exec_transaction_ok htx),
      Program.exec_lift] at hreply ⊢
    obtain ⟨db₁, hdevice, happly⟩ := bind_eq_ok.mp htx
    obtain ⟨-, hdomain, hreceipts, -⟩ := validateActiveDevice_eq_ok hdevice
    unfold applySyncMutation at happly
    rw [hreceipts] at happly
    cases hget : db.receipts.get? (request.key userId) with
    | some receipt =>
      rw [hget] at happly
      cases happly
      exact .inl ⟨rfl, hdomain.skill?_eq⟩
    | none =>
      rw [hget] at happly
      simp only [handleMutation, hupdate] at happly
      obtain ⟨-, rfl⟩ := SyncMutationResponse.validate_eq_ok.mp hreply
      exact .inr ⟨rfl, (handleUpdate_acked happly hacked).of_sameDomain hdomain⟩

end Updates

end Server

end SkillHive
