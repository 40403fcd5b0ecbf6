import SkillHive.LocalStore.Dispatches
import SkillHive.Sync.PushedMetadata

/-!
# Which local saves the server's schema takes

A local save is checked when it is committed, its request is built when it is dispatched,
and the endpoint checks the request again. The three rule sets are not the same: the store
takes any text for the name, the slug and the package hash, and any revision that is not
negative. A save ends in a request that the schema takes exactly when it is encodable.
-/

namespace SkillHive

open Foundation

namespace LocalStore

/-! ## The server identity of a mutation -/

/-- No mutation has a server identity of its own before it is acknowledged. -/
def Unassigned (mutations : MutationTable) : Prop :=
  ∀ m ∈ mutations, m.state ≠ .acked → m.acknowledgedRemoteId = none

/-- A move that assigns an identity acknowledges the mutation, for good. -/
def AssignsOnAck (m m' : LocalMutation) : Prop :=
  m'.state ≠ .acked → m.state ≠ .acked ∧ m'.acknowledgedRemoteId = m.acknowledgedRemoteId

theorem AssignsOnAck.refl (m : LocalMutation) : AssignsOnAck m m := fun hopen ↦ ⟨hopen, rfl⟩

theorem LocalMutation.release_assigns (m : LocalMutation) : AssignsOnAck m m.release := by
  unfold release
  split
  case isTrue hflight => exact fun _ ↦ ⟨by simp [hflight], rfl⟩
  case isFalse => exact .refl m

theorem LocalMutation.recover_assigns (m : LocalMutation) : AssignsOnAck m m.recover := by
  unfold recover
  split
  case isTrue hflight => exact fun _ ↦ ⟨by simp [hflight], rfl⟩
  case isFalse => exact .refl m

theorem LocalMutation.supersede_assigns (m : LocalMutation) (skillId : String) :
    AssignsOnAck m (m.supersede skillId) := by
  unfold supersede
  split
  case isTrue => exact fun hopen ↦ absurd rfl hopen
  case isFalse => exact .refl m

namespace Unassigned

variable {mutations mutations' : MutationTable}

theorem move (h : Unassigned mutations)
    (hmove : ∀ m' ∈ mutations', ∃ m ∈ mutations, AssignsOnAck m m') : Unassigned mutations' := by
  intro m' hm' hopen
  obtain ⟨m, hm, hassigns⟩ := hmove m' hm'
  obtain ⟨hopen', hsame⟩ := hassigns hopen
  rw [hsame]
  exact h m hm hopen'

theorem update (h : Unassigned mutations) {f : LocalMutation → LocalMutation}
    {hf : ∀ m, (f m).id = m.id} (hassigns : ∀ m, AssignsOnAck m (f m)) :
    Unassigned (mutations.update f hf) := by
  refine h.move fun m' hm' ↦ ?_
  obtain ⟨m, hm, rfl⟩ := Table.mem_update.mp hm'
  exact ⟨m, hm, hassigns m⟩

theorem supersede (h : Unassigned mutations) (skillId : String) :
    Unassigned (supersedeConflictChain mutations skillId) := by
  unfold supersedeConflictChain
  exact h.update fun m ↦ m.supersede_assigns skillId

theorem modify (h : Unassigned mutations) {mutationId : String}
    {f : LocalMutation → LocalMutation} {hf : ∀ m, (f m).id = m.id}
    (hassigns : ∀ m, mutations.get? mutationId = some m → AssignsOnAck m (f m)) :
    Unassigned (mutations.modify mutationId f hf) := by
  refine h.move fun m' hm' ↦ ?_
  rcases Table.mem_modify.mp hm' with ⟨m, hm, rfl, rfl⟩ | ⟨hm, -⟩
  · exact ⟨m, hm, hassigns m (Table.get?_of_mem hm)⟩
  · exact ⟨m', hm, .refl m'⟩

theorem insert (h : Unassigned mutations) {m : LocalMutation}
    (hm : m.acknowledgedRemoteId = none) (hinsert : insertMutation mutations m = .ok mutations') :
    Unassigned mutations' := by
  intro m' hm' hopen
  rcases (Table.mem_insert? (insertMutation_spec hinsert)).mp hm' with hold | rfl
  · exact h m' hold hopen
  · exact hm

theorem applyStatus {store store' : LocalStore} {now : ℕ} {raw : LocalMutation}
    {outcome : MutationOutcome} (h : Unassigned store.mutations)
    (hraw : store.mutation? outcome.mutationId = some raw) (hopen : raw.state ≠ .acked)
    (hstatus : store.applyStatus now raw outcome = .ok store') : Unassigned store'.mutations := by
  have hreject : ∀ mutationState skillState,
      store.applyDefinitiveError raw outcome mutationState skillState = .ok store' →
        Unassigned store'.mutations := by
    intro mutationState skillState herror
    rw [(applyDefinitiveError_spec herror).1]
    refine h.modify fun m hm _ ↦ ?_
    cases hraw.symm.trans hm
    exact ⟨hopen, rfl⟩
  rcases applyStatus_spec hstatus with ⟨-, revision, -, hack⟩ | ⟨-, herror⟩ | ⟨-, herror⟩ |
    ⟨-, herror⟩ | ⟨-, rfl⟩
  · rw [(applyAcked_spec hack).1]
    exact h.modify fun m _ hunacked ↦ absurd rfl hunacked
  · exact hreject _ _ herror
  · exact hreject _ _ herror
  · exact hreject _ _ herror
  · dsimp only [applyTransportError]
    refine h.modify fun m hm _ ↦ ?_
    cases hraw.symm.trans hm
    exact ⟨hopen, rfl⟩

/-- Only an acknowledgement assigns a server identity to a mutation. -/
theorem storeStep {host : Host} {store store' : LocalStore} {action : StoreAction}
    (h : Unassigned store.mutations) (hstep : storeStep host store action = some store') :
    Unassigned store'.mutations := by
  cases action with
  | commitSkillEdit now mutationId edit =>
    obtain ⟨m, hcommit⟩ := committed_eq_some.mp hstep
    obtain ⟨rfl, -, -, hinsert, -⟩ := commitSkillEdit_spec hcommit
    exact h.insert rfl hinsert
  | queueSkillDelete now mutationId skillId baseRevision =>
    obtain ⟨m, hqueue⟩ := committed_eq_some.mp hstep
    obtain ⟨row, -, rfl, -, hinsert, -⟩ := queueSkillDelete_spec hqueue
    exact h.insert rfl hinsert
  | claimDispatchableMutations now limit =>
    obtain ⟨claimed, hclaim⟩ := committed_eq_some.mp hstep
    obtain ⟨-, hget, hqueued⟩ := claimDispatchableMutations_spec hclaim
    refine h.move fun m' hm' ↦ ?_
    have hput := hget m'.id
    rw [Table.get?_of_mem hm'] at hput
    split at hput
    case isTrue hid =>
      obtain ⟨m, hm, hdispatchable⟩ := hqueued m'.id hid
      obtain ⟨found, hfound, rfl⟩ := Option.map_eq_some_iff.mp hput.symm
      cases hm.symm.trans hfound
      have hstate := (dispatchable_iff.mp hdispatchable).1
      refine ⟨m, Table.mem_of_get? hm, fun _ ↦ ⟨fun hacked ↦ ?_, rfl⟩⟩
      rw [hacked] at hstate
      cases hstate
    case isFalse => exact ⟨m', Table.mem_of_get? hput.symm, .refl m'⟩
  | releaseInFlightMutations mutationIds =>
    cases hstep
    refine h.move fun m' hm' ↦ ?_
    have hget := Table.get?_of_mem hm'
    rcases releaseInFlightMutations_get? store mutationIds m'.id with hsame | hreleased
    · exact ⟨m', Table.mem_of_get? (hsame.symm.trans hget), .refl m'⟩
    · obtain ⟨m, hm, rfl⟩ := Option.map_eq_some_iff.mp (hreleased.symm.trans hget)
      exact ⟨m, Table.mem_of_get? hm, m.release_assigns⟩
  | recoverInFlightMutations =>
    cases hstep
    dsimp only [recoverInFlightMutations]
    exact h.update LocalMutation.recover_assigns
  | applyMutationOutcome now outcome =>
    simp only [LocalStore.storeStep] at hstep
    split at hstep
    case isFalse => cases hstep
    case isTrue =>
      obtain ⟨applied, happly⟩ := committed_eq_some.mp hstep
      obtain ⟨raw, hraw, ⟨-, rfl⟩ | ⟨hopen, hstatus⟩⟩ := applyMutationOutcome_spec happly
      · exact h
      · exact h.applyStatus hraw hopen hstatus
  | applyChangesPage now utcNow page =>
    obtain ⟨applied, happly⟩ := committed_eq_some.mp hstep
    exact applyChangesPage_invariant (P := fun s ↦ Unassigned s.mutations)
      (fun s s' change counts _ hs hchange m hm ↦ hs m ((applyChange_mutations hchange).1 m hm))
      (fun s _ hs ↦ hs) happly h
  | resolveKeepLocal now mutationId skillId confirmed =>
    obtain ⟨applied, hresolve⟩ := committed_eq_some.mp hstep
    obtain ⟨row, remoteRevision, -, -, -, hinsert, -, -⟩ := resolveKeepLocal_spec hresolve
    exact (h.supersede skillId).insert rfl hinsert
  | resolveKeepRemote skillId confirmed =>
    obtain ⟨applied, hresolve⟩ := committed_eq_some.mp hstep
    obtain ⟨row, remotePackage, -, -, -, -, -, hstore⟩ := resolveKeepRemote_spec hresolve
    rw [hstore]
    exact h.supersede skillId
  | expireDueEntitlements utcNow =>
    cases hstep
    rw [expireDueEntitlements, (foldl_expireSkill_spec store _).2.1]
    exact h
  | markSkillHydrated skillId expectedManifestHash workspacePath =>
    obtain ⟨hydrated, hmark⟩ := committed_eq_some.mp hstep
    obtain ⟨row, -, -, -, rfl⟩ := markSkillHydrated_spec hmark
    exact h
  | claimSkillForEviction skillId expectedSnapshotHash =>
    cases hstep
    rcases claimSkillForEviction_spec store skillId expectedSnapshotHash with
      heq | ⟨row, -, -, heq⟩ <;> rw [heq] <;> exact h
  | writeDeployments deployments =>
    cases hstep
    exact h
  | writeSyncState syncState =>
    cases hstep
    exact h

end Unassigned

theorem Reachable.unassigned {host : Host} {store : LocalStore} (h : Reachable host store) :
    Unassigned store.mutations := by
  refine TransitionSystem.Reachable.invariant (P := fun s ↦ Unassigned s.mutations) ?_ ?_ h
  · rintro s rfl
    exact fun m hm ↦ nomatch hm
  · exact fun s a s' hinv hstep ↦ hinv.storeStep hstep

/-! ## Accepted saves -/

/-- The store takes an edit or a delete and queues the mutation. -/
inductive Saves (store : LocalStore) (m : LocalMutation) (store' : LocalStore) : Prop where
  | edit {now : ℕ} {mutationId : String} {edit : CommitSkillEdit}
      (h : store.commitSkillEdit now mutationId edit = .ok (store', m))
  | delete {now : ℕ} {mutationId skillId : String} {baseRevision : Option Int}
      (h : store.queueSkillDelete now mutationId skillId baseRevision = .ok (store', m))

/-- A save is a step of the store. -/
theorem Saves.step {host : Host} {store store' : LocalStore} {m : LocalMutation}
    (h : Saves store m store') : ∃ action, storeStep host store action = some store' := by
  cases h with
  | @edit now mutationId edit h =>
    exact ⟨.commitSkillEdit now mutationId edit, committed_eq_some.mpr ⟨m, h⟩⟩
  | @delete now mutationId skillId baseRevision h =>
    exact ⟨.queueSkillDelete now mutationId skillId baseRevision, committed_eq_some.mpr ⟨m, h⟩⟩

theorem validateNonEmpty_length {field value : String} {u : Unit}
    (h : validateNonEmpty field value = .ok u) : 1 ≤ value.length := by
  have htrim := require_eq_ok.mp h
  by_contra hlength
  have hempty : value = "" := String.length_eq_zero_iff.mp (by omega)
  exact htrim (by rw [hempty]; rfl)

/-- The store checks that the identifier of the skill is not blank. -/
theorem Saves.skillId_length {store store' : LocalStore} {m : LocalMutation}
    (h : Saves store m store') : 1 ≤ m.skillId.length := by
  cases h with
  | edit h =>
    obtain ⟨rfl, -⟩ := commitSkillEdit_spec h
    obtain ⟨_, hvalidate, -⟩ := bind_eq_ok.mp h
    obtain ⟨_, hskillId, -⟩ := bind_eq_ok.mp hvalidate
    exact validateNonEmpty_length hskillId
  | delete h =>
    obtain ⟨row, -, rfl, -⟩ := queueSkillDelete_spec h
    obtain ⟨_, hskillId, -⟩ := bind_eq_ok.mp h
    exact validateNonEmpty_length hskillId

end LocalStore

namespace Sync

open LocalStore
open Server (BlobHash MetadataBody MutationBody Operation OperationShape RowId
  SyncMutationRequest SyncSkillMetadata isCanonicalHash isSlug nonNegative validateField)

/-! ## Encodable mutations -/

/-- The endpoint decodes the request and its schema takes it. -/
def SchemaAccepts (uuid : String → Option RowId) (request : MutationRequest) : Prop :=
  ∃ body, request.received? uuid = some body ∧ (SyncMutationRequest.validate body).isSome = true

/-- What the schema asks of a mutation and of the row that it is dispatched with. -/
structure Encodable (m : LocalMutation) (row : LocalSkill) : Prop where
  clientSkillId : m.skillId.length ≤ 512
  name : 1 ≤ row.name.length ∧ row.name.length ≤ 120
  slug : isSlug row.slug = true
  payload : m.operation ≠ .delete → isCanonicalHash m.payloadHash = true
  first : m.operation = .create → row.remoteId = none ∧ ∀ r ∈ m.baseRevision, r = 0
  later : m.operation ≠ .create →
    (∃ remoteId, row.remoteId = some remoteId ∧ remoteId.length ≤ 36) ∧
      ∃ r, m.baseRevision = some r ∧ 1 ≤ r

theorem Encodable.of_identity {m m' : LocalMutation} {row : LocalSkill} (h : Encodable m row)
    (hidentity : SameIdentity m m') : Encodable m' row := by
  obtain ⟨-, hskillId, -, hoperation, hbase, hpayload⟩ := hidentity
  obtain ⟨hclient, hname, hslug, hcanonical, hfirst, hlater⟩ := h
  rw [← hskillId] at hclient
  rw [← hoperation, ← hpayload] at hcanonical
  rw [← hoperation, ← hbase] at hfirst hlater
  exact ⟨hclient, hname, hslug, hcanonical, hfirst, hlater⟩

theorem validate_isSome_iff {body : MutationBody} :
    (SyncMutationRequest.validate body).isSome = true ↔
      ∃ remoteSkillId baseRevision packageManifestHash metadata,
        validateField RowId.ofText? body.remoteSkillId = some remoteSkillId ∧
        validateField nonNegative body.baseRevision = some baseRevision ∧
        validateField BlobHash.ofText? body.packageManifestHash = some packageManifestHash ∧
        validateField SyncSkillMetadata.validate body.metadata = some metadata ∧
        (1 ≤ body.clientSkillId.length ∧ body.clientSkillId.length ≤ 512) ∧
        OperationShape body.operation remoteSkillId baseRevision packageManifestHash metadata := by
  unfold SyncMutationRequest.validate
  constructor
  · intro h
    obtain ⟨request, h⟩ := Option.isSome_iff_exists.mp h
    obtain ⟨remoteSkillId, hremote, h⟩ := Option.bind_eq_some_iff.mp h
    obtain ⟨baseRevision, hbase, h⟩ := Option.bind_eq_some_iff.mp h
    obtain ⟨packageManifestHash, hhash, h⟩ := Option.bind_eq_some_iff.mp h
    obtain ⟨metadata, hmetadata, h⟩ := Option.bind_eq_some_iff.mp h
    split at h
    case isFalse => cases h
    case isTrue hshape =>
      exact ⟨remoteSkillId, baseRevision, packageManifestHash, metadata, hremote, hbase, hhash,
        hmetadata, hshape⟩
  · rintro ⟨remoteSkillId, baseRevision, packageManifestHash, metadata, hremote, hbase, hhash,
      hmetadata, hshape⟩
    simp only [hremote, hbase, hhash, hmetadata, Option.bind_eq_bind, Option.bind_some]
    rw [dif_pos hshape]
    rfl

section Fields

variable {α β : Type} {check : α → Option β} {value : Option α}

theorem validateField_eq_some_none : validateField check value = some none ↔ value = none := by
  cases value <;> simp [validateField]

theorem validateField_eq_some_some {b : β} :
    validateField check value = some (some b) ↔ ∃ a, value = some a ∧ check a = some b := by
  cases value <;> simp [validateField]

end Fields

theorem nonNegative_eq_some {value : Int} {n : ℕ} : nonNegative value = some n ↔ value = n := by
  unfold nonNegative
  split <;> simp <;> omega

/-- The metadata of a push passes on the name and the slug of the row alone. -/
theorem exists_validate_received {row : LocalSkill} :
    (∃ metadata, SyncSkillMetadata.validate (skillMetadata row).received = some metadata) ↔
      (1 ≤ row.name.length ∧ row.name.length ≤ 120) ∧ isSlug row.slug = true := by
  unfold SyncSkillMetadata.validate
  constructor
  · rintro ⟨metadata, h⟩
    split at h
    case isFalse => cases h
    case isTrue hfields => exact ⟨hfields.1, hfields.2.1⟩
  · rintro ⟨hname, hslug⟩
    have hfields : (skillMetadata row).received.description.length ≤ 5000 ∧
        (skillMetadata row).received.category.length ≤ 80 ∧
        (skillMetadata row).received.tags.length ≤ 20 := by
      simp [skillMetadata, MutationMetadata.received]
    exact ⟨_, dif_pos ⟨hname, hslug, hfields⟩⟩

theorem exists_remoteId {text : String} :
    (∃ id, RowId.ofText? text = some id) ↔ text.length ≤ 36 := by
  unfold RowId.ofText?
  split
  case isTrue h => exact iff_of_true ⟨_, rfl⟩ h
  case isFalse h => exact iff_of_false (by simp) h

theorem exists_packageHash {text : String} :
    (∃ hash, BlobHash.ofText? text = some hash) ↔ isCanonicalHash text = true := by
  unfold BlobHash.ofText?
  split
  case isTrue h => exact iff_of_true ⟨_, rfl⟩ h
  case isFalse h => exact iff_of_false (by simp) h

/-- The body of a push of a mutation that is not acknowledged. -/
def pushedBody (device mutation : RowId) (m : LocalMutation) (row : LocalSkill) : MutationBody where
  deviceId := device
  mutationId := mutation
  operation := receivedOperation m.operation
  clientSkillId := m.skillId
  remoteSkillId := row.remoteId
  baseRevision := m.baseRevision
  packageManifestHash := packageManifestHashOf m
  metadata := some (skillMetadata row).received

/-- A pushed body that the schema takes comes from an encodable mutation. -/
theorem encodable_of_validate {device mutation : RowId} {m : LocalMutation} {row : LocalSkill}
    (h : (SyncMutationRequest.validate (pushedBody device mutation m row)).isSome = true) :
    Encodable m row := by
  obtain ⟨remoteSkillId, baseRevision, packageManifestHash, metadata, hremote, hrevision, hhash,
    hmetadata, hlength, hshape⟩ := validate_isSome_iff.mp h
  obtain ⟨checked, hchecked, -⟩ := Option.map_eq_some_iff.mp hmetadata
  obtain ⟨hname, hslug⟩ := exists_validate_received.mp ⟨checked, hchecked⟩
  have hfirst : baseRevision = none ∨ baseRevision = some 0 → ∀ r ∈ m.baseRevision, r = 0 := by
    rintro (rfl | rfl) r hr
    · have hnone : m.baseRevision = none := validateField_eq_some_none.mp hrevision
      rw [hnone] at hr
      cases hr
    · obtain ⟨value, hvalue, hzero⟩ := validateField_eq_some_some.mp hrevision
      cases hvalue.symm.trans hr
      exact nonNegative_eq_some.mp hzero
  have hlater : remoteSkillId ≠ none → baseRevision ≠ none → (∀ r ∈ baseRevision, 1 ≤ r) →
      (∃ remoteId, row.remoteId = some remoteId ∧ remoteId.length ≤ 36) ∧
        ∃ r, m.baseRevision = some r ∧ 1 ≤ r := by
    intro hremoteSome hrevisionSome hpositive
    obtain ⟨id, rfl⟩ := Option.ne_none_iff_exists'.mp hremoteSome
    obtain ⟨base, rfl⟩ := Option.ne_none_iff_exists'.mp hrevisionSome
    obtain ⟨text, htext, hid⟩ := validateField_eq_some_some.mp hremote
    obtain ⟨value, hvalue, hnatural⟩ := validateField_eq_some_some.mp hrevision
    have hone : 1 ≤ base := hpositive base rfl
    have hcast : value = base := nonNegative_eq_some.mp hnatural
    exact ⟨⟨text, htext, exists_remoteId.mp ⟨id, hid⟩⟩, value, hvalue, by omega⟩
  have hpayload : packageManifestHash ≠ none → isCanonicalHash m.payloadHash = true := by
    intro hsome
    obtain ⟨hash, rfl⟩ := Option.ne_none_iff_exists'.mp hsome
    obtain ⟨text, htext, hread⟩ := validateField_eq_some_some.mp hhash
    have hpushed : packageManifestHashOf m = some text := htext
    unfold packageManifestHashOf at hpushed
    split at hpushed
    case isTrue => cases hpushed
    case isFalse =>
      cases hpushed
      exact exists_packageHash.mp ⟨hash, hread⟩
  cases hoperation : m.operation with
  | create =>
    obtain ⟨hremoteNone, hrevisionZero, hhashSome, -⟩ : OperationShape .create _ _ _ _ := by
      simpa [pushedBody, hoperation, receivedOperation] using hshape
    subst hremoteNone
    exact ⟨hlength.2, hname, hslug, fun _ ↦ hpayload hhashSome,
      fun _ ↦ ⟨validateField_eq_some_none.mp hremote, hfirst hrevisionZero⟩,
      fun hne ↦ absurd hoperation hne⟩
  | update =>
    obtain ⟨hremoteSome, hrevisionSome, hpositive, hhashSome, -⟩ :
        OperationShape .update _ _ _ _ := by
      simpa [pushedBody, hoperation, receivedOperation] using hshape
    exact ⟨hlength.2, hname, hslug, fun _ ↦ hpayload hhashSome,
      fun hcreate ↦ by simp [hoperation] at hcreate,
      fun _ ↦ hlater hremoteSome hrevisionSome hpositive⟩
  | delete =>
    obtain ⟨hremoteSome, hrevisionSome, hpositive, -⟩ : OperationShape .delete _ _ _ _ := by
      simpa [pushedBody, hoperation, receivedOperation] using hshape
    exact ⟨hlength.2, hname, hslug, fun hne ↦ absurd hoperation hne,
      fun hcreate ↦ by simp [hoperation] at hcreate,
      fun _ ↦ hlater hremoteSome hrevisionSome hpositive⟩

/-- The schema takes the body of every encodable mutation. -/
theorem validate_of_encodable {device mutation : RowId} {m : LocalMutation} {row : LocalSkill}
    (hskill : 1 ≤ m.skillId.length) (h : Encodable m row) :
    (SyncMutationRequest.validate (pushedBody device mutation m row)).isSome = true := by
  obtain ⟨metadata, hmetadata⟩ := exists_validate_received.mpr ⟨h.name, h.slug⟩
  have hchecked : validateField SyncSkillMetadata.validate (some (skillMetadata row).received) =
      some (some metadata) := validateField_eq_some_some.mpr ⟨_, rfl, hmetadata⟩
  have hlength : 1 ≤ m.skillId.length ∧ m.skillId.length ≤ 512 := ⟨hskill, h.clientSkillId⟩
  have hpushed : m.operation ≠ .delete → ∃ hash,
      validateField BlobHash.ofText? (packageManifestHashOf m) = some (some hash) := by
    intro hne
    obtain ⟨hash, hhash⟩ := exists_packageHash.mpr (h.payload hne)
    rw [packageManifestHashOf, if_neg hne]
    exact ⟨hash, validateField_eq_some_some.mpr ⟨_, rfl, hhash⟩⟩
  have hbound : m.operation ≠ .create → ∃ id base,
      validateField RowId.ofText? row.remoteId = some (some id) ∧
        validateField nonNegative m.baseRevision = some (some base) ∧ 1 ≤ base := by
    intro hne
    obtain ⟨⟨text, htext, hshort⟩, r, hr, hpositive⟩ := h.later hne
    obtain ⟨id, hid⟩ := exists_remoteId.mpr hshort
    exact ⟨id, r.toNat, validateField_eq_some_some.mpr ⟨text, htext, hid⟩,
      validateField_eq_some_some.mpr ⟨r, hr, nonNegative_eq_some.mpr (by omega)⟩, by omega⟩
  rw [validate_isSome_iff]
  cases hoperation : m.operation with
  | create =>
    obtain ⟨hremote, hzero⟩ := h.first hoperation
    obtain ⟨hash, hhash⟩ := hpushed (by simp [hoperation])
    obtain ⟨base, hbase, hnatural⟩ : ∃ base, (base = none ∨ base = some 0) ∧
        validateField nonNegative m.baseRevision = some base := by
      cases hr : m.baseRevision with
      | none => exact ⟨none, .inl rfl, rfl⟩
      | some r =>
        cases hzero r hr
        exact ⟨some 0, .inr rfl, rfl⟩
    refine ⟨none, base, some hash, some metadata, validateField_eq_some_none.mpr hremote, hnatural,
      hhash, hchecked, hlength, ?_⟩
    simpa [pushedBody, hoperation, receivedOperation, OperationShape] using hbase
  | update =>
    obtain ⟨hash, hhash⟩ := hpushed (by simp [hoperation])
    obtain ⟨id, base, hid, hbase, hpositive⟩ := hbound (by simp [hoperation])
    refine ⟨some id, some base, some hash, some metadata, hid, hbase, hhash, hchecked, hlength, ?_⟩
    simpa [pushedBody, hoperation, receivedOperation, OperationShape] using hpositive
  | delete =>
    obtain ⟨id, base, hid, hbase, hpositive⟩ := hbound (by simp [hoperation])
    refine ⟨some id, some base, none, some metadata, hid, hbase, validateField_eq_some_none.mpr
      (by simp [pushedBody, packageManifestHashOf, hoperation]), hchecked, hlength, ?_⟩
    simpa [pushedBody, hoperation, receivedOperation, OperationShape] using hpositive

theorem validate_pushedBody_iff {device mutation : RowId} {m : LocalMutation} {row : LocalSkill}
    (hskill : 1 ≤ m.skillId.length) :
    (SyncMutationRequest.validate (pushedBody device mutation m row)).isSome = true ↔
      Encodable m row :=
  ⟨encodable_of_validate, validate_of_encodable hskill⟩

/-! ## Every dispatch of a save -/

theorem schemaAccepts_push_iff {uuid : String → Option RowId} {deviceId : String}
    {m : LocalMutation} {row : LocalSkill} (hdevice : (uuid deviceId).isSome = true)
    (hmutation : (uuid m.id).isSome = true) (hassigned : m.acknowledgedRemoteId = none)
    (hskill : 1 ≤ m.skillId.length) :
    SchemaAccepts uuid (mutationRequest deviceId m (some row)) ↔ Encodable m row := by
  obtain ⟨device, hdevice⟩ := Option.isSome_iff_exists.mp hdevice
  obtain ⟨mutation, hmutation⟩ := Option.isSome_iff_exists.mp hmutation
  have hbody : (mutationRequest deviceId m (some row)).received? uuid =
      some (pushedBody device mutation m row) := by
    simp [MutationRequest.received?, mutationRequest, hdevice, hmutation, hassigned, pushedBody]
  rw [← @validate_pushedBody_iff device mutation m row hskill]
  constructor
  · rintro ⟨body, hreceived, hvalid⟩
    cases hbody.symm.trans hreceived
    exact hvalid
  · exact fun hvalid ↦ ⟨_, hbody, hvalid⟩

/-- Whenever the mutation of an accepted save is dispatched, the schema takes the request
exactly when the mutation is encodable with the row of that moment. -/
theorem schemaAccepts_iff_encodable {host : Host} {store store' last : LocalStore}
    {m m' : LocalMutation} {actions : List StoreAction} {uuid : String → Option RowId}
    {deviceId : String} (hreachable : Reachable host store) (hsaved : Saves store m store')
    (hrun : (system host).run store' actions = some last) (hm' : m' ∈ last.mutations)
    (hidentity : SameIdentity m m') (hopen : m'.state ≠ .acked)
    (hdevice : (uuid deviceId).isSome = true) (hmutation : (uuid m.id).isSome = true) :
    ∃ row, last.skill? m.skillId = some row ∧
      (SchemaAccepts uuid (mutationRequest deviceId m' (last.skill? m'.skillId)) ↔
        Encodable m row) := by
  obtain ⟨action, hstep⟩ := @Saves.step host _ _ _ hsaved
  have hlast : Reachable host last := (hreachable.step hstep).run hrun
  obtain ⟨row, hrow, -⟩ := hlast.storeInvariant.owner m' hm'
  have hskill : 1 ≤ m'.skillId.length := hidentity.skillId ▸ hsaved.skillId_length
  refine ⟨row, hidentity.skillId ▸ hrow, ?_⟩
  rw [hrow, schemaAccepts_push_iff hdevice (hidentity.id ▸ hmutation)
    (hlast.unassigned m' hm' hopen) hskill]
  exact ⟨fun h ↦ h.of_identity hidentity.symm, fun h ↦ h.of_identity hidentity⟩

/-! ## An imported archive -/

namespace Sample

/-- An archive is imported under a name from which the form derives the slug. -/
def paperImport : CommitSkillEdit where
  skillId := "11111111-1111-4111-8111-111111111111"
  remoteId := none
  name := "论文"
  slug := "论文"
  workspacePath := { text := "/work/papers", isAbsolute := true, isUtf8 := true }
  blobHash := Server.Sample.packageHash.text
  baseRevision := none
  operation := .create

def paperMutation : LocalMutation :=
  pendingMutation "22222222-2222-4222-8222-222222222222" paperImport.skillId 1 .create none
    paperImport.blobHash 0

/-- The store after the import. -/
def paperStore : LocalStore :=
  ((LocalStore.fresh.commitSkillEdit 0 paperMutation.id paperImport).toOption.map Prod.fst).getD
    LocalStore.fresh

theorem paperImport_saved : Saves LocalStore.fresh paperMutation paperStore :=
  @Saves.edit _ _ _ 0 paperMutation.id paperImport rfl

end Sample

/-- The import is dispatched as it was saved. -/
theorem schemaAccepts_iff_encodable_import :
    ∃ row, Sample.paperStore.skill? Sample.paperMutation.skillId = some row ∧
      (SchemaAccepts RowId.ofText? (mutationRequest "device-1" Sample.paperMutation
        (Sample.paperStore.skill? Sample.paperMutation.skillId)) ↔
          Encodable Sample.paperMutation row) := by
  have hmem : Sample.paperMutation ∈ Sample.paperStore.mutations :=
    Table.mem_of_get? (k := Sample.paperMutation.id) rfl
  have hreachable : Reachable leaselessHost LocalStore.fresh := .of_init rfl
  have hrun : (system leaselessHost).run Sample.paperStore [] = some Sample.paperStore := rfl
  exact schemaAccepts_iff_encodable hreachable Sample.paperImport_saved hrun hmem (.refl _)
    (by decide) rfl rfl

/-- The store takes the import and nothing is ahead of it, but its slug is not one that the
schema takes. -/
theorem paperImport_rejected :
    Saves LocalStore.fresh Sample.paperMutation Sample.paperStore ∧
      PredecessorsAcked Sample.paperStore.mutations Sample.paperMutation ∧
      ¬ SchemaAccepts RowId.ofText? (mutationRequest "device-1" Sample.paperMutation
        (Sample.paperStore.skill? Sample.paperMutation.skillId)) := by
  refine ⟨Sample.paperImport_saved, ?_, fun h ↦ ?_⟩
  · intro earlier hearlier _ hbefore
    have hone : ∀ m ∈ Sample.paperStore.mutations.rows, m.localSequence = 1 := by decide +kernel
    rw [hone earlier (Table.mem_iff_mem_rows.mp hearlier)] at hbefore
    exact absurd hbefore (by decide)
  · have hrow : Sample.paperStore.skill? Sample.paperMutation.skillId =
        some Sample.paperImport.insertedRow := rfl
    rw [hrow, schemaAccepts_push_iff rfl rfl rfl (by decide)] at h
    exact absurd h.slug (by decide)

end Sync

end SkillHive
