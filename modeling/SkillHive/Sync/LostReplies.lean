import SkillHive.LocalStore.LocalWork
import SkillHive.LocalStore.RemoteBindings
import SkillHive.Server.AnsweredSkills
import SkillHive.Sync.EncodableEdits

/-!
# Creates whose reply is lost

One desktop and its server, taking turns as they like. A push carries a claimed mutation to
the endpoint, and the reply arrives or is lost; between the two, and before the mutation is
sent again, the desktop pulls pages and the server answers others. The reply to a mutation
that was sent again is the one on record, and the acknowledgement of a create binds the row
to the skill that the first request created.

The pull knows that skill only by its identity on the server. If it is applied first, the row
that it inserts holds the identity, and the acknowledgement fails on the unique column then
and every time it is replayed. The desktop can apply every acknowledgement on record, in every
state of a run, exactly when no page of the run leaves a skill shown whose acknowledgement is
still to come.
-/

namespace SkillHive

open Foundation LocalStore

namespace Sync

open Server (Answered Database MutationBody MutationStatus ReceiptKey RequestContext RowId Runtime
  ResponsePayload ServerError SyncConflictHead SyncMutationReceipt SyncMutationRequest
  SyncMutationResponse SyncMutationResult exec_submitMutation_answered submitMutation)

/-! ## The reply on the wire -/

/-- The value of a status in the reply. -/
def statusText : MutationStatus → String
  | .acked => "acked"
  | .conflict => "conflict"
  | .permissionDenied => "permission_denied"
  | .validationError => "validation_error"

/-- The reply of the endpoint as the desktop decodes it. -/
def wireResponse (response : SyncMutationResponse) : MutationResponse where
  protocolVersion := 1
  mutationId := response.mutationId.text
  status := statusText response.status
  result := response.result.map fun result ↦
    ⟨result.remoteSkillId.text, result.revision.value, result.packageManifestHash.map (·.text)⟩
  conflict := response.conflict.map fun head ↦
    ⟨head.remoteSkillId.text, head.revision.value, head.packageManifestHash.map (·.text)⟩
  errorCode := response.errorCode
  message := response.message
  retryable := response.retryable

theorem statusText_eq_acked {status : MutationStatus} :
    statusText status = "acked" ↔ status = .acked := by
  cases status <;> simp [statusText]

/-! ## The system -/

namespace LostReplies

/-- The libraries and identities of the two parties: how the endpoint reads identifiers, and
which identities the desktop draws for its own skills. -/
structure Parties where
  rt : Runtime
  host : Host
  user : RowId
  device : RowId
  uuid : String → Option RowId
  isLocal : String → Bool

structure State where
  db : Database
  store : LocalStore

inductive Action where
  /-- A request that does not come from this desktop. -/
  | serve (action : Server.Action)
  /-- A claimed mutation is sent, and the reply arrives or is lost. -/
  | push (mutationId : String) (ctx : RequestContext) (now : ℕ) (arrives : Bool)
  /-- Anything else that the desktop does. -/
  | onDevice (action : StoreAction)

variable (parties : Parties)

/-- The receipt of a mutation of this desktop. -/
def Parties.receipt? (db : Database) (mutationId : String) : Option SyncMutationReceipt :=
  (RowId.ofText? mutationId).bind fun id ↦ db.receipts.get? ⟨parties.user, parties.device, id⟩

/-- The skill that the acknowledgement on record for a mutation names. -/
def Parties.acked? (db : Database) (mutationId : String) : Option RowId :=
  (parties.receipt? db mutationId).bind fun receipt ↦
    if receipt.responsePayload.status = .acked then
      receipt.responsePayload.result.map SyncMutationResult.remoteSkillId
    else none

/-- The key that a request draws for a new skill is new to both parties. -/
def Parties.DrawsNewSkill (s : State) (ctx : RequestContext) : Prop :=
  parties.isLocal ctx.newSkillId.text = false ∧
    (∀ receipt ∈ s.db.receipts.rows, ∀ result ∈ receipt.responsePayload.result,
      result.remoteSkillId ≠ ctx.newSkillId) ∧
    ∀ row ∈ s.store.skills.rows, row.remoteId ≠ some ctx.newSkillId.text

instance (s : State) (ctx : RequestContext) : Decidable (parties.DrawsNewSkill s ctx) :=
  inferInstanceAs (Decidable (_ ∧ _))

/-- The desktop applies a reply that arrives; a transaction that fails leaves it as it was. -/
def Parties.deliver (store : LocalStore) (now : ℕ) (arrives : Bool) :
    Except ServerError SyncMutationResponse → LocalStore
  | .ok response =>
    if arrives then
      (storeStep parties.host store
        (.applyMutationOutcome now (wireResponse response).intoOutcome)).getD store
    else store
  | .error _ => store

/-- `submit_mutation` of a mutation in flight, and `apply_mutation_outcome` on the reply. -/
def Parties.push (s : State) (mutationId : String) (ctx : RequestContext) (now : ℕ)
    (arrives : Bool) : Option State := do
  let m ← s.store.mutation? mutationId
  let body ← (mutationRequest parties.device.text m (s.store.skill? m.skillId)).received?
    parties.uuid
  if m.state = .inFlight ∧ body.deviceId = parties.device ∧ body.mutationId.text = mutationId ∧
      parties.DrawsNewSkill s ctx then
    let result := (submitMutation parties.rt ctx parties.user body).exec s.db
    some ⟨result.2, parties.deliver s.store now arrives result.1⟩
  else none

def Parties.step (s : State) : Action → Option State
  | .serve action =>
    if ∀ key ∈ action.key?, key.userId = parties.user → key.deviceId ≠ parties.device then
      some { s with db := action.next parties.rt s.db }
    else none
  | .push mutationId ctx now arrives => parties.push s mutationId ctx now arrives
  | .onDevice action =>
    if action.SparesBindings parties.isLocal s.store ∧
        ∀ mutationId ∈ action.drawnId?, parties.receipt? s.db mutationId = none then
      (storeStep parties.host s.store action).map fun store ↦ { s with store }
    else none

/-- A desktop from a fresh install on, and a server that has no receipt yet. -/
def Parties.system : TransitionSystem State Action where
  init s := s.store = fresh ∧ ∀ key, s.db.receipts.get? key = none
  step := parties.step

/-- Every acknowledgement on record for work that the desktop has not acknowledged can be
applied, and binds the row of the skill to the skill that it names. -/
def Parties.AnswersApply (s : State) : Prop :=
  ∀ m ∈ s.store.mutations, m.state ≠ .acked → ∀ receipt, parties.receipt? s.db m.id = some receipt →
    receipt.responsePayload.status = .acked → ∀ now, ∃ store applied remoteId,
      s.store.applyMutationOutcome now (wireResponse receipt.responsePayload.response).intoOutcome =
        .ok (store, applied) ∧
      receipt.responsePayload.result.map SyncMutationResult.remoteSkillId = some remoteId ∧
      store.remoteIdOf m.skillId = some remoteId.text

def Action.page? : Action → Option ChangesPage
  | .onDevice (.applyChangesPage _ _ page) => some page
  | _ => none

/-- A page does not leave a skill shown while the acknowledgement that is to bind a row of this
desktop to it is still to come. -/
def Parties.SparesAnswers (s : State) (action : Action) : Prop :=
  ∀ page ∈ action.page?, ∀ m ∈ s.store.mutations.rows, m.state ≠ .acked →
    ∀ remoteId ∈ parties.acked? s.db m.id, s.store.remoteIdOf m.skillId = none →
      shownRevision remoteId.text page.changes = none

instance (s : State) : DecidablePred (parties.SparesAnswers s) := fun action ↦
  inferInstanceAs (Decidable (∀ page ∈ action.page?, ∀ m ∈ s.store.mutations.rows,
    m.state ≠ .acked → ∀ remoteId ∈ parties.acked? s.db m.id,
      s.store.remoteIdOf m.skillId = none → shownRevision remoteId.text page.changes = none))

/-! ## What the two parties agree on -/

variable {parties} {s s' : State} {m m' : LocalMutation} {remoteId remoteId' : RowId}

theorem receipt?_eq_some {db : Database} {mutationId : String} {receipt : SyncMutationReceipt} :
    parties.receipt? db mutationId = some receipt ↔ ∃ id : RowId, id.text = mutationId ∧
      db.receipts.get? ⟨parties.user, parties.device, id⟩ = some receipt := by
  unfold Parties.receipt? RowId.ofText?
  split
  case isTrue hfits =>
    constructor
    · exact fun h ↦ ⟨_, rfl, h⟩
    · rintro ⟨id, rfl, h⟩
      exact h
  case isFalse hfits =>
    refine iff_of_false (by simp) ?_
    rintro ⟨id, rfl, -⟩
    exact hfits id.fits

theorem acked?_eq_some {db : Database} {mutationId : String} :
    parties.acked? db mutationId = some remoteId ↔ ∃ receipt,
      parties.receipt? db mutationId = some receipt ∧ receipt.responsePayload.status = .acked ∧
        receipt.responsePayload.result.map SyncMutationResult.remoteSkillId = some remoteId := by
  unfold Parties.acked?
  rw [Option.bind_eq_some_iff]
  apply exists_congr
  intro receipt
  split
  case isTrue hacked => simp [hacked]
  case isFalse hacked => simp [hacked]

/-- The acknowledgement of a mutation is on record, and the desktop has not applied it: the row
of the skill is still unbound. -/
structure Parties.Awaits (parties : Parties) (s : State) (m : LocalMutation) (remoteId : RowId) :
    Prop where
  mem : m ∈ s.store.mutations
  unacked : m.state ≠ .acked
  acked : parties.acked? s.db m.id = some remoteId
  unbound : s.store.remoteIdOf m.skillId = none

/-- What holds of the parties in every state, whatever pages were applied. -/
structure Parties.Matched (parties : Parties) (s : State) : Prop where
  reachable : LocalStore.Reachable parties.host s.store
  keyed : Keyed parties.isLocal s.store
  replies : ∀ mutationId receipt, parties.receipt? s.db mutationId = some receipt →
    receipt.responsePayload.mutationId.text = mutationId
  sent : ∀ m ∈ s.store.mutations, parties.receipt? s.db m.id ≠ none → m.state ≠ .pending
  named : ∀ m ∈ s.store.mutations, m.state ≠ .acked → ∀ receipt,
    parties.receipt? s.db m.id = some receipt → receipt.responsePayload.status = .acked →
      ∃ remoteId, receipt.responsePayload.result.map SyncMutationResult.remoteSkillId =
          some remoteId ∧ parties.isLocal remoteId.text = false ∧
        (s.store.remoteIdOf m.skillId = none ∨ s.store.remoteIdOf m.skillId = some remoteId.text)
  drawn : ∀ m m' remoteId, parties.Awaits s m remoteId → parties.Awaits s m' remoteId → m = m'

namespace Parties.Matched

theorem outbox (h : parties.Matched s) : StoreInvariant s.store := h.reachable.storeInvariant

/-- Every mutation has its row. -/
theorem owned (h : parties.Matched s) :
    ∀ m ∈ s.store.mutations, s.store.skill? m.skillId ≠ none := by
  intro m hm
  obtain ⟨row, hrow, -⟩ := h.outbox.owner m hm
  simp [hrow]

/-- The outcome that the reply on record for a mutation decodes to. -/
theorem outcome (h : parties.Matched s) {receipt : SyncMutationReceipt}
    (hreceipt : parties.receipt? s.db m.id = some receipt)
    (hacked : receipt.responsePayload.status = .acked)
    (hresult :
      receipt.responsePayload.result.map SyncMutationResult.remoteSkillId = some remoteId) :
    (wireResponse receipt.responsePayload.response).intoOutcome.mutationId = m.id ∧
      (wireResponse receipt.responsePayload.response).intoOutcome.status = "acked" ∧
      (wireResponse receipt.responsePayload.response).intoOutcome.remoteSkillId =
        some remoteId.text ∧
      ∃ revision, 0 ≤ revision ∧
        (wireResponse receipt.responsePayload.response).intoOutcome.revision = some revision := by
  obtain ⟨result, hsome, rfl⟩ := Option.map_eq_some_iff.mp hresult
  have hid := h.replies m.id receipt hreceipt
  refine ⟨hid, statusText_eq_acked.mpr hacked, ?_, (result.revision.value : Int), by omega, ?_⟩
  · simp [wireResponse, MutationResponse.intoOutcome, ResponsePayload.response, hsome]
  · simp [wireResponse, MutationResponse.intoOutcome, ResponsePayload.response, hsome]

/-- Two rows are not bound to one skill. -/
theorem eq_of_bound (h : parties.Matched s) {k k' bound : String}
    (hk : s.store.remoteIdOf k = some bound) (hk' : s.store.remoteIdOf k' = some bound) :
    k = k' := by
  by_contra hne
  obtain ⟨row, hrow, hremote⟩ := Option.bind_eq_some_iff.mp hk
  have hfree := h.outbox.skills.remoteIdUnique row (Table.mem_of_get? hrow)
  rw [hremote, Table.key_of_get? hrow] at hfree
  exact remoteIdFree_iff.mp hfree k' (Ne.symm hne) hk'

/-- The acknowledgements on record can be applied exactly when no row is bound to a skill that
another one is to be bound to. -/
theorem answersApply_iff (h : parties.Matched s) :
    parties.AnswersApply s ↔ ∀ m remoteId, parties.Awaits s m remoteId →
      ∀ k, s.store.remoteIdOf k ≠ some remoteId.text := by
  constructor
  · intro happly m remoteId hawaits k hbound
    obtain ⟨receipt, hreceipt, hacked, hresult⟩ := acked?_eq_some.mp hawaits.acked
    obtain ⟨hid, hstatus, hremote, revision, hnonneg, hrevision⟩ :=
      h.outcome hreceipt hacked hresult
    obtain ⟨store, applied, _, hok, -⟩ :=
      happly m hawaits.mem hawaits.unacked receipt hreceipt hacked 0
    have hraw := hid.symm ▸ Table.get?_of_mem hawaits.mem
    refine (exists_acknowledged_iff h.outbox hraw hawaits.unacked hstatus hrevision hnonneg
      hremote).mp ⟨store, applied, hok⟩ k ?_ hbound
    rintro rfl
    cases hawaits.unbound.symm.trans hbound
  · intro hfree m hm hopen receipt hreceipt hacked now
    obtain ⟨remoteId, hresult, -, hbound⟩ := h.named m hm hopen receipt hreceipt hacked
    obtain ⟨hid, hstatus, hremote, revision, hnonneg, hrevision⟩ :=
      h.outcome hreceipt hacked hresult
    have hraw := hid.symm ▸ Table.get?_of_mem hm
    have hothers : ∀ k ≠ m.skillId, s.store.remoteIdOf k ≠ some remoteId.text := by
      intro k hk hother
      rcases hbound with hunbound | hown
      · exact hfree m remoteId
          ⟨hm, hopen, acked?_eq_some.mpr ⟨receipt, hreceipt, hacked, hresult⟩, hunbound⟩ k hother
      · exact hk (h.eq_of_bound hother hown)
    have hstored : ∃ store applied, s.store.applyMutationOutcome now
        (wireResponse receipt.responsePayload.response).intoOutcome = .ok (store, applied) :=
      (exists_acknowledged_iff h.outbox hraw hopen hstatus hrevision hnonneg hremote).mpr hothers
    obtain ⟨store, applied, hok⟩ := hstored
    refine ⟨store, applied, remoteId, hok, hresult, ?_⟩
    obtain ⟨row, hrow, -⟩ := h.outbox.owner m hm
    obtain ⟨row', hrow', hremote'⟩ :=
      (acknowledged_rows hraw hopen hstatus hrevision hremote hok).2.1 row hrow
    exact (remoteIdOf_of_skill hrow').trans hremote'

end Parties.Matched

/-! ## A request of another client -/

theorem acked?_congr {db db' : Database} {mutationId : String}
    (h : parties.receipt? db' mutationId = parties.receipt? db mutationId) :
    parties.acked? db' mutationId = parties.acked? db mutationId := by
  rw [Parties.acked?, Parties.acked?, h]

/-- The desktop sees of the server no more than its own receipts. -/
theorem awaits_congr {db' : Database}
    (h : ∀ mutationId, parties.receipt? db' mutationId = parties.receipt? s.db mutationId) :
    parties.Awaits { s with db := db' } m remoteId ↔ parties.Awaits s m remoteId := by
  constructor
  · exact fun ⟨hmem, hopen, hacked, hunbound⟩ ↦
      ⟨hmem, hopen, (acked?_congr (h m.id)).symm.trans hacked, hunbound⟩
  · exact fun ⟨hmem, hopen, hacked, hunbound⟩ ↦
      ⟨hmem, hopen, (acked?_congr (h m.id)).trans hacked, hunbound⟩

theorem Parties.Matched.of_receipts (hs : parties.Matched s) {db' : Database}
    (h : ∀ mutationId, parties.receipt? db' mutationId = parties.receipt? s.db mutationId) :
    parties.Matched { s with db := db' } := by
  constructor
  · exact hs.reachable
  · exact hs.keyed
  · intro mutationId receipt hreceipt
    exact hs.replies mutationId receipt ((h mutationId).symm.trans hreceipt)
  · intro m hm hreceipt
    exact hs.sent m hm (h m.id ▸ hreceipt)
  · intro m hm hopen receipt hreceipt
    exact hs.named m hm hopen receipt ((h m.id).symm.trans hreceipt)
  · intro m m' remoteId hm hm'
    exact hs.drawn m m' remoteId ((awaits_congr h).mp hm) ((awaits_congr h).mp hm')

theorem receipt?_serve {action : Server.Action}
    (hother : ∀ key ∈ action.key?, key.userId = parties.user → key.deviceId ≠ parties.device)
    (mutationId : String) :
    parties.receipt? (action.next parties.rt s.db) mutationId =
      parties.receipt? s.db mutationId := by
  unfold Parties.receipt?
  apply Option.bind_congr
  intro id _
  refine action.next_receipt parties.rt s.db fun key hkey ↦ ?_
  rintro rfl
  exact hother _ hkey rfl rfl

/-! ## A push at the server -/

/-- What a push of a mutation leaves of the receipts of this desktop: a new one names the skill
that the row is bound to or, where it is unbound, the skill that the request drew. -/
structure Parties.Recorded (parties : Parties) (s : State) (m : LocalMutation)
    (ctx : RequestContext) (db' : Database) : Prop where
  others : ∀ mutationId ≠ m.id,
    parties.receipt? db' mutationId = parties.receipt? s.db mutationId
  kept : ∀ receipt, parties.receipt? s.db m.id = some receipt →
    parties.receipt? db' m.id = some receipt
  added : parties.receipt? s.db m.id = none → ∀ receipt, parties.receipt? db' m.id = some receipt →
    receipt.responsePayload.mutationId.text = m.id ∧
      (receipt.responsePayload.status = .acked → ∃ remoteId,
        receipt.responsePayload.result.map SyncMutationResult.remoteSkillId = some remoteId ∧
          (remoteId = ctx.newSkillId ∧ s.store.remoteIdOf m.skillId = none ∨
            s.store.remoteIdOf m.skillId = some remoteId.text))

/-- The request of a mutation names the skill that its row is bound to. -/
theorem remoteSkillId_of_received {deviceId : String} {skill : Option LocalSkill}
    {uuid : String → Option RowId} {body : MutationBody}
    (hunassigned : m.acknowledgedRemoteId = none)
    (hbody : (mutationRequest deviceId m skill).received? uuid = some body) :
    body.remoteSkillId = skill.bind LocalSkill.remoteId := by
  unfold MutationRequest.received? at hbody
  split at hbody
  case isFalse => cases hbody
  case isTrue =>
    obtain ⟨_, -, hbody⟩ := Option.bind_eq_some_iff.mp hbody
    obtain ⟨_, -, hbody⟩ := Option.bind_eq_some_iff.mp hbody
    cases hbody
    simp [mutationRequest, hunassigned]

theorem text_of_ofText? {text : String} {id : RowId} (h : RowId.ofText? text = some id) :
    id.text = text := by
  unfold RowId.ofText? at h
  split at h
  case isTrue =>
    cases h
    rfl
  case isFalse => cases h

/-- The schema reads the skill of a request, and a create has none. -/
theorem remoteSkillId_of_validate {body : MutationBody} {request : SyncMutationRequest}
    (h : SyncMutationRequest.validate body = some request) :
    (request.operation = .create → body.remoteSkillId = none) ∧
      (request.operation ≠ .create → ∃ remoteId, request.remoteSkillId = some remoteId ∧
        body.remoteSkillId = some remoteId.text) ∧
      request.mutationId = body.mutationId := by
  obtain ⟨remoteSkillId, hremote, h⟩ := Option.bind_eq_some_iff.mp h
  obtain ⟨baseRevision, -, h⟩ := Option.bind_eq_some_iff.mp h
  obtain ⟨packageManifestHash, -, h⟩ := Option.bind_eq_some_iff.mp h
  obtain ⟨metadata, -, h⟩ := Option.bind_eq_some_iff.mp h
  split at h
  case isFalse => cases h
  case isTrue hshape =>
    cases h
    refine ⟨fun hcreate ↦ ?_, fun hother ↦ ?_, rfl⟩
    · have hnone := hshape.2
      dsimp only at hcreate
      rw [hcreate] at hnone
      exact validateField_eq_some_none.mp (hnone.1 ▸ hremote)
    · have hsome : remoteSkillId ≠ none := by
        have hnamed := hshape.2
        dsimp only at hother
        cases hoperation : body.operation with
        | create => exact absurd hoperation hother
        | update | delete =>
          rw [hoperation] at hnamed
          exact hnamed.1
      obtain ⟨remoteId, rfl⟩ := Option.ne_none_iff_exists'.mp hsome
      obtain ⟨text, htext, hread⟩ := validateField_eq_some_some.mp hremote
      exact ⟨remoteId, rfl, htext.trans (congrArg some (text_of_ofText? hread).symm)⟩

theorem Parties.Matched.recorded (hs : parties.Matched s) {ctx : RequestContext}
    {body : MutationBody}
    (hbody : (mutationRequest parties.device.text m (s.store.skill? m.skillId)).received?
      parties.uuid = some body) (hm : m ∈ s.store.mutations) (hopen : m.state ≠ .acked)
    (hdevice : body.deviceId = parties.device) (hid : body.mutationId.text = m.id) :
    parties.Recorded s m ctx ((submitMutation parties.rt ctx parties.user body).exec s.db).2 := by
  have hanswered := exec_submitMutation_answered parties.rt ctx parties.user body s.db
  have hown : ∀ db receipt, parties.receipt? db m.id = some receipt ↔
      db.receipts.get? ⟨parties.user, body.deviceId, body.mutationId⟩ = some receipt := by
    intro db receipt
    rw [receipt?_eq_some, hdevice]
    constructor
    · rintro ⟨id, htext, hget⟩
      have hsame : id = body.mutationId := RowId.eq_of_text_eq (htext.trans hid.symm)
      exact hsame ▸ hget
    · exact fun hget ↦ ⟨_, hid, hget⟩
  constructor
  case others =>
    intro mutationId hne
    unfold Parties.receipt?
    apply Option.bind_congr
    intro id hread
    refine hanswered.others _ fun hkey ↦ hne ?_
    obtain ⟨-, -, rfl⟩ := ReceiptKey.mk.inj hkey
    exact (text_of_ofText? hread).symm.trans hid
  case kept =>
    intro receipt hreceipt
    exact (hown _ _).mpr (hanswered.kept _ _ ((hown _ _).mp hreceipt))
  case added =>
    intro hnone receipt hreceipt
    have hfresh : s.db.receipts.get? ⟨parties.user, body.deviceId, body.mutationId⟩ = none :=
      Option.eq_none_iff_forall_ne_some.mpr fun old hold ↦
        Option.eq_none_iff_forall_ne_some.mp hnone old ((hown _ _).mpr hold)
    obtain ⟨request, hvalidate, hanswers⟩ := hanswered.added hfresh receipt ((hown _ _).mp hreceipt)
    obtain ⟨hcreate, hother, hmutationId⟩ := remoteSkillId_of_validate hvalidate
    have hremote : body.remoteSkillId = s.store.remoteIdOf m.skillId :=
      remoteSkillId_of_received (hs.reachable.unassigned m hm hopen) hbody
    refine ⟨by rw [hanswers.mutationId, hmutationId, hid], fun hacked ↦ ?_⟩
    by_cases hoperation : request.operation = .create
    · exact ⟨ctx.newSkillId, hanswers.created hacked hoperation,
        .inl ⟨rfl, hremote.symm.trans (hcreate hoperation)⟩⟩
    · obtain ⟨remoteId, hrequest, hsent⟩ := hother hoperation
      exact ⟨remoteId, (hanswers.named hacked hoperation).trans hrequest,
        .inr (hremote.symm.trans hsent)⟩

/-- No row is bound to a skill that an acknowledgement still to come is to bind a row to. -/
def Parties.Unclaimed (parties : Parties) (s : State) : Prop :=
  ∀ m remoteId, parties.Awaits s m remoteId → ∀ k, s.store.remoteIdOf k ≠ some remoteId.text

section Push

variable {ctx : RequestContext} {db' : Database}

/-- An acknowledgement that comes on record with a push is the one of its mutation. -/
theorem Parties.Recorded.awaits (h : parties.Recorded s m ctx db') (hm : m ∈ s.store.mutations)
    (hawaits : parties.Awaits { s with db := db' } m' remoteId) :
    parties.Awaits s m' remoteId ∨ m' = m ∧ remoteId = ctx.newSkillId := by
  obtain ⟨hmem, hopen, hacked, hunbound⟩ := hawaits
  dsimp only at hmem hunbound hacked
  by_cases hid : m'.id = m.id
  · have hsame : m' = m := Table.eq_of_key_eq hmem hm hid
    subst hsame
    obtain ⟨receipt, hreceipt, hstatus, hresult⟩ := acked?_eq_some.mp hacked
    cases hold : parties.receipt? s.db m'.id with
    | some old =>
      cases (h.kept old hold).symm.trans hreceipt
      exact .inl ⟨hmem, hopen, acked?_eq_some.mpr ⟨receipt, hold, hstatus, hresult⟩, hunbound⟩
    | none =>
      obtain ⟨-, hnamed⟩ := h.added hold receipt hreceipt
      obtain ⟨named, hname, ⟨hnew, -⟩ | hbound⟩ := hnamed hstatus
      · cases hresult.symm.trans hname
        exact .inr ⟨rfl, hnew⟩
      · cases hunbound.symm.trans hbound
  · exact .inl ⟨hmem, hopen, (acked?_congr (h.others m'.id hid)).symm.trans hacked, hunbound⟩

/-- A skill on record is not the one that a request draws. -/
theorem Parties.DrawsNewSkill.ne_of_awaits (hdraws : parties.DrawsNewSkill s ctx)
    (hawaits : parties.Awaits s m remoteId) : remoteId ≠ ctx.newSkillId := by
  obtain ⟨receipt, hreceipt, -, hresult⟩ := acked?_eq_some.mp hawaits.acked
  obtain ⟨id, -, hget⟩ := receipt?_eq_some.mp hreceipt
  obtain ⟨result, hsome, rfl⟩ := Option.map_eq_some_iff.mp hresult
  exact hdraws.2.1 receipt (Table.mem_of_get? hget) result hsome

theorem Parties.Matched.ofRecorded (hs : parties.Matched s) (h : parties.Recorded s m ctx db')
    (hm : m ∈ s.store.mutations) (hflight : m.state = .inFlight)
    (hdraws : parties.DrawsNewSkill s ctx) : parties.Matched { s with db := db' } := by
  constructor
  case reachable => exact hs.reachable
  case keyed => exact hs.keyed
  case replies =>
    intro mutationId receipt hreceipt
    dsimp only at hreceipt
    by_cases hid : mutationId = m.id
    · subst hid
      cases hold : parties.receipt? s.db m.id with
      | some old =>
        cases (h.kept old hold).symm.trans hreceipt
        exact hs.replies m.id receipt hold
      | none => exact (h.added hold receipt hreceipt).1
    · exact hs.replies mutationId receipt ((h.others mutationId hid).symm.trans hreceipt)
  case sent =>
    intro m' hm' hreceipt
    dsimp only at hm' hreceipt
    by_cases hid : m'.id = m.id
    · rw [Table.eq_of_key_eq hm' hm hid, hflight]
      simp
    · exact hs.sent m' hm' (h.others m'.id hid ▸ hreceipt)
  case named =>
    intro m' hm' hopen receipt hreceipt hstatus
    dsimp only at hm' hreceipt ⊢
    by_cases hid : m'.id = m.id
    · have hsame : m' = m := Table.eq_of_key_eq hm' hm hid
      subst hsame
      cases hold : parties.receipt? s.db m'.id with
      | some old =>
        cases (h.kept old hold).symm.trans hreceipt
        exact hs.named m' hm' hopen receipt hold hstatus
      | none =>
        obtain ⟨remoteId, hname, ⟨rfl, hunbound⟩ | hbound⟩ :=
          (h.added hold receipt hreceipt).2 hstatus
        · exact ⟨_, hname, hdraws.1, .inl hunbound⟩
        · exact ⟨remoteId, hname, hs.keyed.remote m'.skillId _ hbound, .inr hbound⟩
    · exact hs.named m' hm' hopen receipt ((h.others m'.id hid).symm.trans hreceipt) hstatus
  case drawn =>
    intro m₁ m₂ remoteId h₁ h₂
    rcases h.awaits hm h₁ with hold₁ | ⟨hsame₁, hnew⟩
    · rcases h.awaits hm h₂ with hold₂ | ⟨-, hnew⟩
      · exact hs.drawn m₁ m₂ remoteId hold₁ hold₂
      · exact absurd hnew (hdraws.ne_of_awaits hold₁)
    · rcases h.awaits hm h₂ with hold₂ | ⟨hsame₂, -⟩
      · exact absurd hnew (hdraws.ne_of_awaits hold₂)
      · exact hsame₁.trans hsame₂.symm

theorem Parties.Unclaimed.ofRecorded (hs : parties.Unclaimed s) (h : parties.Recorded s m ctx db')
    (hm : m ∈ s.store.mutations) (hdraws : parties.DrawsNewSkill s ctx) :
    parties.Unclaimed { s with db := db' } := by
  intro m' remoteId hawaits k
  rcases h.awaits hm hawaits with hold | ⟨-, rfl⟩
  · exact hs m' remoteId hold k
  · intro hbound
    obtain ⟨row, hrow, hremote⟩ := Option.bind_eq_some_iff.mp hbound
    exact hdraws.2.2 row (Table.mem_of_get? hrow) hremote

end Push

/-! ## A reply at the desktop -/

section Delivery

variable {store : LocalStore} {now : ℕ} {receipt : SyncMutationReceipt}

theorem reachable_storeStep {host : Host} {before after : LocalStore} {action : StoreAction}
    (h : LocalStore.Reachable host before) (hstep : storeStep host before action = some after) :
    LocalStore.Reachable host after :=
  TransitionSystem.Reachable.step h hstep

/-- The row of the acknowledged mutation is bound now, and the others are as they were. -/
theorem Parties.Matched.acknowledged (hs : parties.Matched s) (hm : m ∈ s.store.mutations)
    (hflight : m.state = .inFlight) (hreceipt : parties.receipt? s.db m.id = some receipt)
    (hacked : receipt.responsePayload.status = .acked)
    (hstep : storeStep parties.host s.store (.applyMutationOutcome now
      (wireResponse receipt.responsePayload.response).intoOutcome) = some store) :
    parties.Matched { s with store } ∧
      (parties.Unclaimed s → parties.Unclaimed { s with store }) := by
  have hopen : m.state ≠ .acked := by simp [hflight]
  obtain ⟨remoteId, hresult, hforeign, hbound⟩ := hs.named m hm hopen receipt hreceipt hacked
  obtain ⟨hid, hstatus, hremote, revision, -, hrevision⟩ := hs.outcome hreceipt hacked hresult
  have hraw := hid.symm ▸ Table.get?_of_mem hm
  obtain ⟨applied, happly⟩ := committed_eq_some.mp (Option.ite_none_right_eq_some.mp hstep).2
  obtain ⟨hothers, hown, hleft⟩ := acknowledged_rows hraw hopen hstatus hrevision hremote happly
  obtain ⟨row, hrow, -⟩ := hs.outbox.owner m hm
  obtain ⟨row', hrow', hremote'⟩ := hown row hrow
  have hnow : store.remoteIdOf m.skillId = some remoteId.text :=
    (remoteIdOf_of_skill hrow').trans hremote'
  have helse : ∀ k ≠ m.skillId, store.remoteIdOf k = s.store.remoteIdOf k := by
    intro k hk
    rw [remoteIdOf, remoteIdOf, hothers k hk]
  have hstarted : ∀ m' ∈ store.mutations, m'.state ≠ .acked →
      parties.receipt? s.db m'.id ≠ none → m' ∈ s.store.mutations ∧ m'.skillId ≠ m.skillId := by
    intro m' hm' hopen' hsome
    obtain ⟨hold, hne⟩ := hleft m' hm' hopen'
    refine ⟨hold, fun hskill ↦ hne ?_⟩
    rw [hs.outbox.outbox.eq_of_started hold hm hskill (hs.sent m' hold hsome) (by simp [hflight])
      hopen' hopen]
  have hawaited : ∀ m' awaited, parties.Awaits { s with store } m' awaited →
      parties.Awaits s m' awaited ∧ m'.skillId ≠ m.skillId := by
    rintro m' awaited ⟨hmem, hopen', hacked', hunbound⟩
    obtain ⟨receipt', hreceipt', -⟩ := acked?_eq_some.mp hacked'
    obtain ⟨hold, hne⟩ := hstarted m' hmem hopen' (Option.ne_none_iff_exists'.mpr ⟨_, hreceipt'⟩)
    exact ⟨⟨hold, hopen', hacked', (helse m'.skillId hne).symm.trans hunbound⟩, hne⟩
  refine ⟨?_, fun hfree m' awaited hawaits k hclash ↦ ?_⟩
  · constructor
    case reachable => exact reachable_storeStep hs.reachable hstep
    case replies => exact hs.replies
    case keyed =>
      constructor
      · intro k row₀ hrow₀ hmirrors
        by_cases hk : k = m.skillId
        · subst hk
          cases hrow'.symm.trans hrow₀
          have hmirror : s.store.remoteIdOf m.skillId = some m.skillId :=
            (remoteIdOf_of_skill hrow).trans (hs.keyed.mirror m.skillId row hrow hmirrors)
          rcases hbound with hunbound | hsame
          · cases hunbound.symm.trans hmirror
          · exact hremote'.trans (hsame.symm.trans hmirror)
        · exact hs.keyed.mirror k row₀ ((hothers k hk).symm.trans hrow₀) hmirrors
      · intro k bound hk'
        by_cases hk : k = m.skillId
        · subst hk
          cases hnow.symm.trans hk'
          exact hforeign
        · exact hs.keyed.remote k bound ((helse k hk).symm.trans hk')
    case sent =>
      intro m' hm' hsome
      by_cases hopen' : m'.state = .acked
      · simp [hopen']
      · exact hs.sent m' (hleft m' hm' hopen').1 hsome
    case named =>
      intro m' hm' hopen' receipt' hreceipt' hacked'
      obtain ⟨hold, hne⟩ := hstarted m' hm' hopen' (Option.ne_none_iff_exists'.mpr ⟨_, hreceipt'⟩)
      have hnamed := hs.named m' hold hopen' receipt' hreceipt' hacked'
      rw [← helse m'.skillId hne] at hnamed
      exact hnamed
    case drawn =>
      intro m₁ m₂ awaited h₁ h₂
      exact hs.drawn m₁ m₂ awaited (hawaited m₁ awaited h₁).1 (hawaited m₂ awaited h₂).1
  · obtain ⟨hold, hne⟩ := hawaited m' awaited hawaits
    by_cases hk : k = m.skillId
    · subst hk
      have hsame : remoteId = awaited :=
        RowId.eq_of_text_eq (Option.some.inj (hnow.symm.trans hclash))
      subst hsame
      rcases hbound with hunbound | hother
      · have hown : parties.Awaits s m remoteId :=
          ⟨hm, hopen, acked?_eq_some.mpr ⟨receipt, hreceipt, hacked, hresult⟩, hunbound⟩
        exact hne (congrArg LocalMutation.skillId (hs.drawn m' m remoteId hold hown))
      · exact hfree m' remoteId hold m.skillId hother
    · exact hfree m' awaited hold k ((helse k hk).symm.trans hclash)

end Delivery

/-! ## A step of the desktop -/

section OnDevice

variable {store : LocalStore} {action : StoreAction}

/-- What a step other than an acknowledgement leaves of the desktop: bindings of skills with
work, and mutations with the identity that they had, next to new ones. -/
structure Parties.Carries (parties : Parties) (s : State) (store : LocalStore) : Prop where
  reachable : LocalStore.Reachable parties.host store
  keyed : Keyed parties.isLocal store
  bound : ∀ m ∈ s.store.mutations, m.state ≠ .acked →
    store.remoteIdOf m.skillId = s.store.remoteIdOf m.skillId
  origin : ∀ m' ∈ store.mutations, (∃ m ∈ s.store.mutations, SameIdentity m m' ∧
      (m'.state ≠ .acked → m.state ≠ .acked) ∧ (m.state ≠ .pending → m'.state ≠ .pending)) ∨
    parties.receipt? s.db m'.id = none

theorem Parties.Matched.carries (hs : parties.Matched s)
    (hspares : action.SparesBindings parties.isLocal s.store)
    (hdraws : ∀ mutationId ∈ action.drawnId?, parties.receipt? s.db mutationId = none)
    (hstep : storeStep parties.host s.store action = some store) : parties.Carries s store := by
  have horigin : ∀ m' ∈ store.mutations, (∃ m ∈ s.store.mutations, SameIdentity m m' ∧
      (m'.state ≠ .acked → m.state ≠ .acked) ∧ (m.state ≠ .pending → m'.state ≠ .pending)) ∨
      parties.receipt? s.db m'.id = none := by
    intro m' hm'
    rcases storeStep_mutation_origin hstep hm' with hold | ⟨hnew, -⟩
    · exact .inl hold
    · exact .inr (hdraws m'.id hnew)
  by_cases hpage : ∃ now utcNow page, action = .applyChangesPage now utcNow page
  · obtain ⟨now, utcNow, page, rfl⟩ := hpage
    obtain ⟨hkeyed, hcarries, -⟩ := hs.keyed.ofPage hs.owned hspares hstep
    refine ⟨reachable_storeStep hs.reachable hstep, hkeyed, fun m hm hopen ↦ ?_, horigin⟩
    obtain ⟨row, hrow, -⟩ := hs.outbox.owner m hm
    obtain ⟨row', hrow', hremote⟩ :=
      hcarries.bound m.skillId row hrow (hasUnacked_iff.mpr ⟨m, hm, rfl, hopen⟩)
    exact (remoteIdOf_of_skill hrow').trans (hremote.trans (remoteIdOf_of_skill hrow).symm)
  · push Not at hpage
    have hevent := eventStep_of_storeStep hpage hstep
    refine ⟨reachable_storeStep hs.reachable hstep, hs.keyed.step (hspares.event hpage) hevent,
      fun m hm hopen ↦ ?_, horigin⟩
    obtain ⟨row, hrow, -⟩ := hs.outbox.owner m hm
    exact hs.keyed.remoteIdOf_event (hspares.event hpage) hevent hrow
      (hasUnacked_iff.mpr ⟨m, hm, rfl, hopen⟩)

/-- An acknowledgement that is still to come after the step was so before it. -/
theorem Parties.Carries.awaits (h : parties.Carries s store)
    (hawaits : parties.Awaits { s with store } m' remoteId) :
    ∃ m, SameIdentity m m' ∧ parties.Awaits s m remoteId := by
  obtain ⟨hmem, hopen', hacked, hunbound⟩ := hawaits
  obtain ⟨receipt, hreceipt, -⟩ := acked?_eq_some.mp hacked
  rcases h.origin m' hmem with ⟨m, hm, hsame, hopen, -⟩ | hnone
  · refine ⟨m, hsame, hm, hopen hopen', hsame.id ▸ hacked, ?_⟩
    rw [← h.bound m hm (hopen hopen'), ← hsame.skillId]
    exact hunbound
  · cases hnone.symm.trans hreceipt

theorem Parties.Matched.carried (hs : parties.Matched s) (h : parties.Carries s store) :
    parties.Matched { s with store } := by
  constructor
  case reachable => exact h.reachable
  case keyed => exact h.keyed
  case replies => exact hs.replies
  case sent =>
    intro m' hm' hsome
    rcases h.origin m' hm' with ⟨m, hm, hsame, -, hstarted⟩ | hnone
    · exact hstarted (hs.sent m hm (hsame.id ▸ hsome))
    · exact absurd hnone hsome
  case named =>
    intro m' hm' hopen' receipt hreceipt hacked
    rcases h.origin m' hm' with ⟨m, hm, hsame, hopen, -⟩ | hnone
    · have hnamed := hs.named m hm (hopen hopen') receipt (hsame.id ▸ hreceipt) hacked
      rw [← h.bound m hm (hopen hopen'), ← hsame.skillId] at hnamed
      exact hnamed
    · cases hnone.symm.trans hreceipt
  case drawn =>
    intro m₁' m₂' remoteId h₁ h₂
    obtain ⟨m₁, hsame₁, hold₁⟩ := h.awaits h₁
    obtain ⟨m₂, hsame₂, hold₂⟩ := h.awaits h₂
    have heq : m₁ = m₂ := hs.drawn m₁ m₂ remoteId hold₁ hold₂
    exact Table.eq_of_key_eq h₁.mem h₂.mem (hsame₁.id.trans ((congrArg _ heq).trans hsame₂.id.symm))

/-- A step that applies no page binds no row to a skill that is on record. -/
theorem Parties.Unclaimed.onDevice (hs : parties.Matched s) (hfree : parties.Unclaimed s)
    (hspares : action.SparesBindings parties.isLocal s.store)
    (hdraws : ∀ mutationId ∈ action.drawnId?, parties.receipt? s.db mutationId = none)
    (hpage : ∀ now utcNow page, action ≠ .applyChangesPage now utcNow page)
    (hstep : storeStep parties.host s.store action = some store) :
    parties.Unclaimed { s with store } := by
  intro m' remoteId hawaits k hbound
  obtain ⟨m, -, hold⟩ := (hs.carries hspares hdraws hstep).awaits hawaits
  have hevent := eventStep_of_storeStep hpage hstep
  rcases hs.keyed.remoteIdOf_origin (hspares.event hpage) hevent hbound with
    hbefore | ⟨-, _, hmerge, -⟩
  · exact hfree m remoteId hold k hbefore
  · cases hmerge

/-- A page binds a row to one of them exactly when it leaves the skill shown. -/
theorem Parties.Unclaimed.page_iff (hs : parties.Matched s) (hfree : parties.Unclaimed s)
    {now : ℕ} {utcNow : Int} {page : ChangesPage}
    (hresources : ∀ change ∈ page.changes, parties.isLocal change.resourceId = false)
    (hstep : storeStep parties.host s.store (.applyChangesPage now utcNow page) = some store) :
    parties.Unclaimed { s with store } ↔
      parties.SparesAnswers s (.onDevice (.applyChangesPage now utcNow page)) := by
  obtain ⟨-, hcarries, hshows⟩ := hs.keyed.ofPage hs.owned hresources hstep
  have hbinds : ∀ m remoteId, parties.Awaits s m remoteId →
      ((∃ k, store.remoteIdOf k = some remoteId.text) ↔
        shownRevision remoteId.text page.changes ≠ none) := by
    intro m remoteId hawaits
    obtain ⟨receipt, hreceipt, hacked, hresult⟩ := acked?_eq_some.mp hawaits.acked
    obtain ⟨_, hname, hforeign, -⟩ := hs.named m hawaits.mem hawaits.unacked receipt hreceipt hacked
    cases hresult.symm.trans hname
    exact hshows remoteId.text hforeign (hfree m remoteId hawaits)
  have hspares : (StoreAction.applyChangesPage now utcNow page).SparesBindings parties.isLocal
      s.store := hresources
  have hdevice := hs.carries hspares (by simp [StoreAction.drawnId?]) hstep
  constructor
  · rintro hfree' _ ⟨⟩ m hm hopen remoteId hacked hunbound
    by_contra hshown
    obtain ⟨k, hbound⟩ := (hbinds m remoteId ⟨hm, hopen, hacked, hunbound⟩).mpr hshown
    have hawaits : parties.Awaits { s with store } m remoteId :=
      ⟨hcarries.kept m hm hopen, hopen, hacked, (hdevice.bound m hm hopen).trans hunbound⟩
    exact hfree' m remoteId hawaits k hbound
  · intro hanswers m' remoteId hawaits k hbound
    obtain ⟨m, -, hold⟩ := hdevice.awaits hawaits
    exact (hbinds m remoteId hold).mp ⟨k, hbound⟩
      (hanswers page rfl m hold.mem hold.unacked remoteId hold.acked hold.unbound)

end OnDevice

/-! ## Every run -/

/-- The reply is the one on record, and a refusal binds nothing. -/
theorem Parties.Matched.deliver (hs : parties.Matched s) (hm : m ∈ s.store.mutations)
    (hflight : m.state = .inFlight) {reply : Except ServerError SyncMutationResponse}
    (hreplied : ∀ response, reply = .ok response → ∃ receipt,
      parties.receipt? s.db m.id = some receipt ∧ receipt.responsePayload.response = response)
    (now : ℕ) (arrives : Bool) :
    parties.Matched { s with store := parties.deliver s.store now arrives reply } ∧
      (parties.Unclaimed s →
        parties.Unclaimed { s with store := parties.deliver s.store now arrives reply }) := by
  cases reply with
  | error error => exact ⟨hs, id⟩
  | ok response =>
    obtain ⟨receipt, hreceipt, rfl⟩ := hreplied response rfl
    cases arrives with
    | false => exact ⟨hs, id⟩
    | true =>
      simp only [Parties.deliver, if_true]
      generalize hstep : storeStep parties.host s.store (.applyMutationOutcome now
        (wireResponse receipt.responsePayload.response).intoOutcome) = next
      cases next with
      | none => exact ⟨hs, id⟩
      | some store =>
        by_cases hacked : receipt.responsePayload.status = .acked
        · exact hs.acknowledged hm hflight hreceipt hacked hstep
        · have hspares : (StoreAction.applyMutationOutcome now
              (wireResponse receipt.responsePayload.response).intoOutcome).SparesBindings
              parties.isLocal s.store := fun hstatus ↦ hacked (statusText_eq_acked.mp hstatus)
          have hdraws : ∀ mutationId ∈ (StoreAction.applyMutationOutcome now
              (wireResponse receipt.responsePayload.response).intoOutcome).drawnId?,
              parties.receipt? s.db mutationId = none := by simp [StoreAction.drawnId?]
          exact ⟨hs.carried (hs.carries hspares hdraws hstep), fun hfree ↦
            hfree.onDevice hs hspares hdraws (fun _ _ _ ↦ by simp) hstep⟩

theorem push_eq_some {mutationId : String} {ctx : RequestContext} {now : ℕ} {arrives : Bool} :
    parties.push s mutationId ctx now arrives = some s' ↔ ∃ m body,
      s.store.mutation? mutationId = some m ∧
      (mutationRequest parties.device.text m (s.store.skill? m.skillId)).received? parties.uuid =
        some body ∧
      (m.state = .inFlight ∧ body.deviceId = parties.device ∧ body.mutationId.text = mutationId ∧
        parties.DrawsNewSkill s ctx) ∧
      s' = ⟨((submitMutation parties.rt ctx parties.user body).exec s.db).2,
        parties.deliver s.store now arrives
          ((submitMutation parties.rt ctx parties.user body).exec s.db).1⟩ := by
  constructor
  · intro h
    obtain ⟨m, hm, h⟩ := Option.bind_eq_some_iff.mp h
    obtain ⟨body, hbody, h⟩ := Option.bind_eq_some_iff.mp h
    obtain ⟨hguard, h⟩ := Option.ite_none_right_eq_some.mp h
    cases h
    exact ⟨m, body, hm, hbody, hguard, rfl⟩
  · rintro ⟨m, body, hm, hbody, hguard, rfl⟩
    exact Option.bind_eq_some_iff.mpr
      ⟨m, hm, Option.bind_eq_some_iff.mpr ⟨body, hbody, if_pos hguard⟩⟩

/-- The reply to a push is the answer on record, and the desktop may apply it. -/
theorem Parties.Matched.push (hs : parties.Matched s) {mutationId : String} {ctx : RequestContext}
    {now : ℕ} {arrives : Bool} (hstep : parties.push s mutationId ctx now arrives = some s') :
    parties.Matched s' ∧ (parties.Unclaimed s → parties.Unclaimed s') := by
  obtain ⟨m, body, hget, hbody, ⟨hflight, hdevice, hid, hdraws⟩, rfl⟩ := push_eq_some.mp hstep
  have hm : m ∈ s.store.mutations := Table.mem_of_get? hget
  have hkey : m.id = mutationId := Table.key_of_get? hget
  have hrecorded : parties.Recorded s m ctx
      ((submitMutation parties.rt ctx parties.user body).exec s.db).2 :=
    hs.recorded hbody hm (by simp [hflight]) hdevice (hid.trans hkey.symm)
  have hreplied : ∀ response,
      ((submitMutation parties.rt ctx parties.user body).exec s.db).1 = .ok response → ∃ receipt,
        parties.receipt? ((submitMutation parties.rt ctx parties.user body).exec s.db).2 m.id =
          some receipt ∧ receipt.responsePayload.response = response := by
    intro response hok
    obtain ⟨receipt, hreceipt, hresponse⟩ :=
      (exec_submitMutation_answered parties.rt ctx parties.user body s.db).replied response hok
    refine ⟨receipt, receipt?_eq_some.mpr ⟨body.mutationId, hid.trans hkey.symm, ?_⟩, hresponse⟩
    exact hdevice ▸ hreceipt
  obtain ⟨hmatched, hfree⟩ :=
    (hs.ofRecorded hrecorded hm hflight hdraws).deliver hm hflight hreplied now arrives
  exact ⟨hmatched, fun h ↦ hfree (h.ofRecorded hrecorded hm hdraws)⟩

/-- One step keeps what the parties agree on, and keeps the acknowledgements on record
applicable exactly when it spares them. -/
theorem Parties.Matched.step (hs : parties.Matched s) {action : Action}
    (hstep : parties.step s action = some s') :
    parties.Matched s' ∧
      (parties.Unclaimed s → (parties.Unclaimed s' ↔ parties.SparesAnswers s action)) := by
  cases action with
  | serve action =>
    obtain ⟨hother, hstep⟩ := Option.ite_none_right_eq_some.mp hstep
    cases hstep
    have hreceipts := receipt?_serve (s := s) hother
    refine ⟨hs.of_receipts hreceipts, fun hfree ↦ iff_of_true ?_ (nofun)⟩
    exact fun m remoteId hawaits ↦ hfree m remoteId ((awaits_congr hreceipts).mp hawaits)
  | push mutationId ctx now arrives =>
    obtain ⟨hmatched, hfree⟩ := hs.push hstep
    exact ⟨hmatched, fun h ↦ iff_of_true (hfree h) (nofun)⟩
  | onDevice action =>
    obtain ⟨⟨hspares, hdraws⟩, hstep⟩ := Option.ite_none_right_eq_some.mp hstep
    obtain ⟨store, hstore, rfl⟩ := Option.map_eq_some_iff.mp hstep
    refine ⟨hs.carried (hs.carries hspares hdraws hstore), fun hfree ↦ ?_⟩
    by_cases hpage : ∃ now utcNow page, action = .applyChangesPage now utcNow page
    · obtain ⟨now, utcNow, page, rfl⟩ := hpage
      exact hfree.page_iff hs hspares hstore
    · push Not at hpage
      refine iff_of_true (hfree.onDevice hs hspares hdraws hpage hstore) ?_
      cases action with
      | applyChangesPage now utcNow page => exact absurd rfl (hpage now utcNow page)
      | _ => nofun

theorem Parties.Matched.of_init (hinit : parties.system.init s) : parties.Matched s := by
  obtain ⟨hfresh, hnone⟩ := hinit
  have hreceipt : ∀ mutationId receipt, parties.receipt? s.db mutationId ≠ some receipt := by
    intro mutationId receipt hreceipt
    obtain ⟨id, -, hget⟩ := receipt?_eq_some.mp hreceipt
    cases (hnone _).symm.trans hget
  have hskill : ∀ k, s.store.skill? k = none := by
    intro k
    rw [hfresh]
    rfl
  constructor
  case reachable => exact hfresh ▸ TransitionSystem.Reachable.of_init rfl
  case keyed =>
    constructor
    · intro k row hrow
      cases (hskill k).symm.trans hrow
    · intro k remoteId hbound
      rw [remoteIdOf, hskill] at hbound
      cases hbound
  case replies => exact fun mutationId receipt h ↦ absurd h (hreceipt mutationId receipt)
  case sent =>
    intro m _ hsome
    obtain ⟨receipt, h⟩ := Option.ne_none_iff_exists'.mp hsome
    exact absurd h (hreceipt m.id receipt)
  case named => exact fun m _ _ receipt h ↦ absurd h (hreceipt m.id receipt)
  case drawn =>
    intro m m' remoteId hawaits
    obtain ⟨receipt, h, -⟩ := acked?_eq_some.mp hawaits.acked
    exact absurd h (hreceipt m.id receipt)

/-- In every run of a desktop and its server the desktop can apply the acknowledgements on record
throughout exactly when no page leaves a skill shown while the acknowledgement of its create is
still to come. -/
theorem always_answersApply_iff (hinit : parties.system.init s) (actions : List Action) :
    parties.system.Always parties.AnswersApply s actions ↔
      parties.system.EachStep parties.SparesAnswers s actions := by
  have hmatched : parties.Matched s := .of_init hinit
  refine TransitionSystem.always_iff_eachStep (I := parties.Matched)
    (fun _ _ _ h hstep ↦ (h.step hstep).1) (fun s action s' h happly hstep ↦ ?_) hmatched ?_
  · rw [(h.step hstep).1.answersApply_iff]
    exact (h.step hstep).2 (h.answersApply_iff.mp happly)
  · intro m _ _ receipt hreceipt
    obtain ⟨id, -, hget⟩ := receipt?_eq_some.mp hreceipt
    cases (hinit.2 _).symm.trans hget

/-! ## A skill that is pulled before its reply is heard -/

namespace Sample

open Server.Sample (context database device packageHash runtime skillId user version₁)

def pair : Parties where
  rt := runtime
  host := leaselessHost
  user := user
  device := device
  uuid := RowId.ofText?
  isLocal text := text = "local-1"

def start : State := ⟨database, fresh⟩

/-- A skill that is created on the desktop. -/
def created : CommitSkillEdit where
  skillId := "local-1"
  remoteId := none
  name := "Demo"
  slug := "demo"
  workspacePath := ⟨"skills/demo", true, true⟩
  blobHash := packageHash.text
  baseRevision := none
  operation := .create

def push (arrives : Bool) : Action := .push "mutation-1" (context version₁) 0 arrives

/-- The create is queued and sent, and its reply is lost. -/
def lostReply : List Action :=
  [.onDevice (.commitSkillEdit 0 "mutation-1" created),
    .onDevice (.claimDispatchableMutations 0 10), push false]

def pull : Action :=
  .onDevice (.applyChangesPage 1 0 (upsertPage skillId.text 1 packageHash.text "v1.AAAAAQ"))

theorem init_start : pair.system.init start := ⟨rfl, fun _ ↦ rfl⟩

end Sample

/-- Sent again before the pull, the create is acknowledged; after it, it no longer can be. -/
theorem always_answersApply_resent :
    Sample.pair.system.Always Sample.pair.AnswersApply Sample.start
        (Sample.lostReply ++ [Sample.push true, Sample.pull]) ∧
      ¬ Sample.pair.system.Always Sample.pair.AnswersApply Sample.start
        (Sample.lostReply ++ [Sample.pull, Sample.push true]) :=
  ⟨(always_answersApply_iff Sample.init_start _).mpr (by decide +kernel),
    fun h ↦ absurd ((always_answersApply_iff Sample.init_start _).mp h) (by decide +kernel)⟩

end LostReplies

end Sync

end SkillHive
