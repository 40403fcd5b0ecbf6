import SkillHive.Foundation.TransitionSystem
import SkillHive.Server.Receipts

/-!
# Traffic on the server

Requests of any users and devices, handled one transaction at a time: submitted mutations,
the browser's writes to private skills and blob uploads, in any order and any number of
times. Receipts are not trimmed and devices are not revoked. Every request carries the
surroundings it meets, so the replies of the storage backend, the clock and the drawn keys
differ from request to request as they like.

The main result is the idempotence of submitted mutations over whole runs: the first request
under an identifier that ends without an error fixes what every later one is answered, and
at most one of them changes a skill, a version or the change log.
-/

namespace SkillHive

open Foundation

namespace Server

inductive Action where
  | submitMutation (userId : RowId) (ctx : RequestContext) (body : MutationBody)
  | privateWrite (userId : RowId) (ctx : RequestContext) (write : PrivateWrite)
  | uploadBlob (storage : BlobStorage) (hashValue : String) (contentLength : Option String)
      (payload : ByteArray)

namespace Action

/-- The key under which an action submits a mutation, once its body has passed the schema. -/
def key? : Action → Option ReceiptKey
  | submitMutation userId _ body =>
    (SyncMutationRequest.validate body).map fun request ↦ request.key userId
  | _ => none

/-- What the device is answered. -/
def reply? (rt : Runtime) (db : Database) :
    Action → Option (Except ServerError SyncMutationResponse)
  | submitMutation userId ctx body => some ((Server.submitMutation rt ctx userId body).exec db).1
  | _ => none

/-- The database after the action. -/
def next (rt : Runtime) (db : Database) : Action → Database
  | submitMutation userId ctx body => ((Server.submitMutation rt ctx userId body).exec db).2
  | privateWrite userId ctx write => (write.apply rt ctx userId db).toOption.getD db
  | uploadBlob storage hashValue contentLength payload =>
    (Server.uploadBlob rt db storage hashValue contentLength payload).toOption.getD db

end Action

/-- The server under traffic, from a database without receipts. -/
def traffic (rt : Runtime) : TransitionSystem Database Action where
  init db := ∀ key, db.receipts.get? key = none
  step db action := some (action.next rt db)

variable {rt : Runtime} {db db' : Database}

@[simp]
theorem traffic_step (db : Database) (action : Action) :
    (traffic rt).step db action = some (action.next rt db) := rfl

/-! ## What every action keeps -/

/-- A write that commits keeps devices and receipts; one that fails keeps everything. -/
theorem sameSync_getD {tx : Except ServerError Database}
    (h : ∀ db', tx = .ok db' → db.SameSync db') : db.SameSync (tx.toOption.getD db) := by
  cases tx with
  | error error => exact .refl db
  | ok db' => exact h db' rfl

theorem Action.next_privateWrite (userId : RowId) (ctx : RequestContext) (write : PrivateWrite) :
    db.SameSync ((Action.privateWrite userId ctx write).next rt db) :=
  sameSync_getD fun _ h ↦ PrivateWrite.apply_sameSync h

theorem Action.next_uploadBlob (storage : BlobStorage) (hashValue : String)
    (contentLength : Option String) (payload : ByteArray) :
    db.SameSync ((Action.uploadBlob storage hashValue contentLength payload).next rt db) :=
  sameSync_getD fun _ h ↦ (uploadBlob_sameButBlobs h).sameSync

/-- A submitted mutation fails its schema or ends as a validated request does. -/
theorem exec_submitMutation (rt : Runtime) (ctx : RequestContext) (userId : RowId)
    (body : MutationBody) (db : Database) :
    (SyncMutationRequest.validate body = none ∧
      (submitMutation rt ctx userId body).exec db = (.error .requestValidation, db)) ∨
    ∃ request, SyncMutationRequest.validate body = some request ∧
      (submitMutation rt ctx userId body).exec db =
        (submitRequest rt ctx userId request).exec db := by
  unfold submitMutation
  cases SyncMutationRequest.validate body with
  | none => exact .inl ⟨rfl, rfl⟩
  | some request => exact .inr ⟨request, rfl, rfl⟩

theorem Submission.retains {userId : RowId} {request : SyncMutationRequest}
    {reply : Except ServerError SyncMutationResponse} (h : Submission db userId request reply db') :
    db.Retains db' := by
  cases h with
  | rolledBack error => exact .refl db
  | replayed receipt_eq domain retains receipts => exact retains
  | handled active result => exact result.retains

theorem Action.next_retains (action : Action) (rt : Runtime) (db : Database) :
    db.Retains (action.next rt db) := by
  cases action with
  | submitMutation userId ctx body =>
    rcases exec_submitMutation rt ctx userId body db with
      ⟨-, hexec⟩ | ⟨request, -, hexec⟩
    · rw [Action.next, hexec]
      exact .refl db
    · rw [Action.next, hexec]
      exact (exec_submitRequest rt ctx userId request db).retains
  | privateWrite userId ctx write => exact (next_privateWrite userId ctx write).retains
  | uploadBlob storage hashValue contentLength payload =>
    exact (next_uploadBlob storage hashValue contentLength payload).retains

theorem retains_of_reaches (h : (traffic rt).Reaches db db') : db.Retains db' := by
  obtain ⟨actions, hrun⟩ := h
  apply TransitionSystem.run_invariant (P := fun t ↦ db.Retains t) ?_ (.refl db) hrun
  intro s action s' hs hstep
  cases hstep
  exact hs.trans (action.next_retains _ s)

/-! ## Stored receipts -/

/-- The payload passes the response schema, and the device of the key is active. -/
def SoundReceipt (db : Database) (key : ReceiptKey) (receipt : SyncMutationReceipt) : Prop :=
  receipt.responsePayload.IsValid ∧ db.HasActiveDevice key.userId key.deviceId

/-- Every stored receipt is sound. -/
def Database.ReceiptsSound (db : Database) : Prop :=
  ∀ key receipt, db.receipts.get? key = some receipt → SoundReceipt db key receipt

/-- A receipt that a request leaves was there before or is sound. -/
theorem Submission.receipt_origin {userId : RowId} {request : SyncMutationRequest}
    {reply : Except ServerError SyncMutationResponse} (h : Submission db userId request reply db')
    {key : ReceiptKey} {receipt : SyncMutationReceipt}
    (hget : db'.receipts.get? key = some receipt) :
    db.receipts.get? key = some receipt ∨ SoundReceipt db' key receipt := by
  cases h with
  | rolledBack error => exact .inl hget
  | replayed receipt_eq domain retains receipts => exact .inl (receipts ▸ hget)
  | handled active result =>
    by_cases hk : key = request.key userId
    · subst hk
      obtain ⟨stored, hstored, hpayload⟩ := result.records.stored
      have hsame : receipt = stored := Option.some.inj (hget.symm.trans hstored)
      refine .inr ⟨?_, result.retains.devices _ _ active⟩
      rw [hsame, hpayload]
      exact result.valid
    · exact .inl (result.records.others key hk ▸ hget)

theorem Action.receipt_origin (action : Action) {key : ReceiptKey}
    {receipt : SyncMutationReceipt}
    (hget : (action.next rt db).receipts.get? key = some receipt) :
    db.receipts.get? key = some receipt ∨ SoundReceipt (action.next rt db) key receipt := by
  cases action with
  | submitMutation userId ctx body =>
    rcases exec_submitMutation rt ctx userId body db with
      ⟨-, hexec⟩ | ⟨request, -, hexec⟩
    · rw [Action.next, hexec] at hget
      exact .inl hget
    · rw [Action.next, hexec] at hget ⊢
      exact (exec_submitRequest rt ctx userId request db).receipt_origin hget
  | privateWrite userId ctx write =>
    exact .inl ((next_privateWrite userId ctx write).receipts ▸ hget)
  | uploadBlob storage hashValue contentLength payload =>
    exact .inl ((next_uploadBlob storage hashValue contentLength payload).receipts ▸ hget)

theorem Action.next_receiptsSound (action : Action) (hdb : db.ReceiptsSound) :
    (action.next rt db).ReceiptsSound := by
  intro key receipt hget
  rcases action.receipt_origin hget with hold | hsound
  · obtain ⟨hvalid, hactive⟩ := hdb key receipt hold
    exact ⟨hvalid, (action.next_retains rt db).devices _ _ hactive⟩
  · exact hsound

theorem receiptsSound_of_reachable (h : (traffic rt).Reachable db) : db.ReceiptsSound := by
  apply TransitionSystem.Reachable.invariant ?_ ?_ h
  · intro s hinit key receipt hget
    rw [hinit key] at hget
    cases hget
  · intro s action s' hs hstep
    cases hstep
    exact action.next_receiptsSound hs

/-! ## Idempotence -/

/-- A request that ends without an error, or changes the domain, leaves its receipt. -/
theorem Submission.stored {userId : RowId} {request : SyncMutationRequest}
    {reply : Except ServerError SyncMutationResponse} (h : Submission db userId request reply db')
    (hends : (∃ response, reply = .ok response) ∨ ¬ db.SameDomain db') :
    ∃ receipt, db'.receipts.get? (request.key userId) = some receipt ∧
      ∀ response, reply = .ok response → receipt.responsePayload.response = response := by
  cases h with
  | rolledBack error =>
    rcases hends with ⟨response, hok⟩ | hchange
    · cases hok
    · exact absurd (.refl db) hchange
  | replayed receipt_eq domain retains receipts =>
    refine ⟨_, receipts ▸ receipt_eq, fun response hok ↦ ?_⟩
    exact (SyncMutationResponse.validate_eq_ok.mp hok).2
  | handled active result =>
    obtain ⟨receipt, hget, hpayload⟩ := result.records.stored
    refine ⟨receipt, hget, fun response hok ↦ ?_⟩
    rw [hpayload]
    exact Except.ok.inj hok

theorem Submission.sameDomain_of_receipt {userId : RowId} {request : SyncMutationRequest}
    {reply : Except ServerError SyncMutationResponse} (h : Submission db userId request reply db')
    {receipt : SyncMutationReceipt}
    (hreceipt : db.receipts.get? (request.key userId) = some receipt) : db.SameDomain db' := by
  cases h with
  | rolledBack error => exact .refl db
  | replayed receipt_eq domain retains receipts => exact domain
  | handled active result =>
    rw [result.records.fresh] at hreceipt
    cases hreceipt

/-- An action that submits under a key is a request under that key. -/
theorem Action.eq_submitRequest (rt : Runtime) {action : Action} {key : ReceiptKey}
    (h : action.key? = some key) :
    ∃ userId ctx request, request.key userId = key ∧
      (∀ db, action.reply? rt db = some ((submitRequest rt ctx userId request).exec db).1) ∧
      ∀ db, action.next rt db = ((submitRequest rt ctx userId request).exec db).2 := by
  cases action with
  | submitMutation userId ctx body =>
    obtain ⟨request, hvalidate, hkey⟩ := Option.map_eq_some_iff.mp h
    refine ⟨userId, ctx, request, hkey, fun db ↦ ?_, fun db ↦ ?_⟩
    · simp only [Action.reply?, Server.submitMutation, hvalidate]
    · simp only [Action.next, Server.submitMutation, hvalidate]
  | privateWrite userId ctx write => cases h
  | uploadBlob storage hashValue contentLength payload => cases h

/-- An action that submits under a key with a stored receipt is answered from it. -/
theorem Action.replays (rt : Runtime) {action : Action} {key : ReceiptKey} {receipt : SyncMutationReceipt}
    (hdb : db.ReceiptsSound) (hkey : action.key? = some key)
    (hreceipt : db.receipts.get? key = some receipt) :
    action.reply? rt db = some (.ok receipt.responsePayload.response) ∧
      (action.next rt db).receipts.get? key = some receipt ∧
      db.SameDomain (action.next rt db) := by
  obtain ⟨userId, ctx, request, rfl, hreply, hnext⟩ := Action.eq_submitRequest rt hkey
  obtain ⟨hvalid, hactive⟩ := hdb _ receipt hreceipt
  have hanswer : ((submitRequest rt ctx userId request).exec db).1 =
      .ok receipt.responsePayload.response := by
    calc ((submitRequest rt ctx userId request).exec db).1
        = SyncMutationResponse.validate receipt.responsePayload :=
          exec_submitRequest_replay rt ctx hactive hreceipt
      _ = .ok receipt.responsePayload.response :=
          SyncMutationResponse.validate_eq_ok.mpr ⟨hvalid, rfl⟩
  refine ⟨?_, (action.next_retains rt db).receipts _ _ hreceipt, ?_⟩
  · rw [hreply, hanswer]
  · rw [hnext]
    exact (exec_submitRequest rt ctx userId request db).sameDomain_of_receipt hreceipt

/-- The later of two actions that submit one mutation is answered from the receipt that the
earlier one left, as the earlier one was, and the two do not both change the domain. -/
structure AnsweredOnce (rt : Runtime) (key : ReceiptKey) (earlier later : Database × Action) :
    Prop where
  stored : ∀ receipt, (earlier.2.next rt earlier.1).receipts.get? key = some receipt →
    later.2.reply? rt later.1 = some (.ok receipt.responsePayload.response) ∧
      (later.2.next rt later.1).receipts.get? key = some receipt ∧
      later.1.SameDomain (later.2.next rt later.1)
  answered : ∀ response, earlier.2.reply? rt earlier.1 = some (.ok response) →
    later.2.reply? rt later.1 = some (.ok response) ∧
      later.1.SameDomain (later.2.next rt later.1)
  effect : ¬ earlier.1.SameDomain (earlier.2.next rt earlier.1) →
    later.1.SameDomain (later.2.next rt later.1)

theorem answeredOnce_of_reaches {action action' : Action} {key : ReceiptKey}
    (hdb : db.ReceiptsSound) (hreaches : (traffic rt).Reaches (action.next rt db) db')
    (hkey : action.key? = some key) (hkey' : action'.key? = some key) :
    AnsweredOnce rt key (db, action) (db', action') := by
  have hretains := retains_of_reaches hreaches
  have hsound : db'.ReceiptsSound := by
    obtain ⟨actions, hrun⟩ := hreaches
    apply TransitionSystem.run_invariant ?_ (action.next_receiptsSound hdb) hrun
    intro s a s' hs hstep
    cases hstep
    exact a.next_receiptsSound hs
  have hreplay : ∀ receipt, (action.next rt db).receipts.get? key = some receipt →
      action'.reply? rt db' = some (.ok receipt.responsePayload.response) ∧
        (action'.next rt db').receipts.get? key = some receipt ∧
        db'.SameDomain (action'.next rt db') :=
    fun receipt hget ↦ Action.replays rt hsound hkey' (hretains.receipts key receipt hget)
  obtain ⟨userId, ctx, request, hrequest, hreply, hnext⟩ :=
    Action.eq_submitRequest rt hkey
  have hends := exec_submitRequest rt ctx userId request db
  rw [← hnext] at hends
  constructor
  · exact hreplay
  · intro response hok
    rw [hreply] at hok
    obtain ⟨receipt, hget, hresponse⟩ := hends.stored (.inl ⟨response, Option.some.inj hok⟩)
    obtain ⟨hanswer, -, hdomain⟩ := hreplay receipt (hrequest ▸ hget)
    rw [hresponse response (Option.some.inj hok)] at hanswer
    exact ⟨hanswer, hdomain⟩
  · intro hchange
    obtain ⟨receipt, hget, -⟩ := hends.stored (.inr hchange)
    exact (hreplay receipt (hrequest ▸ hget)).2.2

/-- In every run of the traffic, any two actions that submit the same mutation of a device
are answered from one receipt, and at most one of them has an effect on the domain. -/
theorem trace_answeredOnce {db : Database} (hdb : (traffic rt).Reachable db)
    (actions : List Action) :
    ((traffic rt).trace db actions).Pairwise fun earlier later ↦
      ∀ key, earlier.2.key? = some key → later.2.key? = some key →
        AnsweredOnce rt key earlier later := by
  apply TransitionSystem.pairwise_trace ?_ ?_ (receiptsSound_of_reachable hdb)
  · intro s action s' hs hstep
    cases hstep
    exact action.next_receiptsSound hs
  · intro s action s' t action' hs hstep hreaches key hkey hkey'
    cases hstep
    exact answeredOnce_of_reaches hs hreaches hkey hkey'

/-! ## A server with one device and one stored package -/

namespace Sample

def user : RowId := firstUser

def demoMetadata : SyncSkillMetadata :=
  ⟨"Demo", "demo", "", "", [], by decide, by decide, by decide, by decide⟩

def device : RowId := ⟨"device-1", by decide⟩

/-- The address of the file `# Demo`. -/
def fileHash : BlobHash :=
  ⟨"sha256:31ca6c61ca3fcc54029a62bd082448b88718b913d24e195794969dd2d123b990", by decide⟩

/-- The address of the manifest that names the file. -/
def packageHash : BlobHash :=
  ⟨"sha256:a177fad95ff22922a0c78d6d75c21168af48a8a8766e974c15dc125c37d89fb4", by decide⟩

def file : ByteArray := ⟨#[35, 32, 68, 101, 109, 111, 10]⟩

def manifestBytes : ByteArray := (canonicalManifest fileHash 7).toUTF8

def manifest : Json :=
  .object [("format_version", .integer 1), ("files", .array [.object [
    ("path", .string "SKILL.md"), ("blobHash", .string fileHash.text), ("sizeBytes", .integer 7)]])]

/-- The library on the file and its manifest. -/
def runtime : Runtime where
  jsonLoads bytes := if bytes = manifestBytes then some manifest else none
  realEqualsOne _ := false
  decodeReplace bytes := if bytes = file then "# Demo\n" else ""
  sha256 bytes := if bytes = file then fileHash else packageHash
  repr text := "'" ++ text ++ "'"

def storage : BlobStorage where
  backendName := "local_filesystem"
  blobExists hash size :=
    .ok ((hash = fileHash.text ∧ size = 7) ∨ (hash = packageHash.text ∧ size = 149))
  openBlob _ hash :=
    if hash = fileHash.text then .ok file
    else if hash = packageHash.text then .ok manifestBytes
    else .error (appError "BLOB_NOT_FOUND" "Blob object was not found in storage." 404
      (some (.object [("hash", .string hash)])))
  putVerified _ _ := .ok ()

/-- The package is stored and nothing else has happened. -/
def database : Database where
  skills := .empty
  versions := .empty
  changes := .empty
  devices := ⟨[⟨device, user, none, none⟩], by decide⟩
  receipts := .empty
  blobs := ⟨[⟨fileHash, 7, "local_filesystem"⟩, ⟨packageHash, 149, "local_filesystem"⟩],
    by decide⟩

def skillId : RowId := ⟨"skill-1", by decide⟩

/-- A request that draws the key of the skill and the given key of a version. -/
def context (versionId : RowId) : RequestContext := ⟨storage, skillId, versionId, 0⟩

def version₁ : RowId := ⟨"version-1", by decide⟩

def version₂ : RowId := ⟨"version-2", by decide⟩

def createBody : MutationBody where
  deviceId := device
  mutationId := ⟨"mutation-1", by decide⟩
  operation := .create
  clientSkillId := "local-1"
  remoteSkillId := none
  baseRevision := none
  packageManifestHash := some packageHash.text
  metadata := some ⟨"Demo", "demo", "", "", []⟩

def updateBody : MutationBody where
  deviceId := device
  mutationId := ⟨"mutation-2", by decide⟩
  operation := .update
  clientSkillId := "local-1"
  remoteSkillId := some skillId.text
  baseRevision := some 1
  packageManifestHash := some packageHash.text
  metadata := some ⟨"Demo", "demo", "", "", []⟩

/-- The device creates a skill. -/
def create : Action := .submitMutation user (context version₁) createBody

theorem init_database (rt : Runtime) : (traffic rt).init database := fun _ ↦ rfl

end Sample

/-- The create is sent twice: the second answer is the first one's, without an effect. -/
theorem trace_answeredOnce_create :
    ((traffic Sample.runtime).trace Sample.database [Sample.create, Sample.create]).Pairwise
      fun earlier later ↦ ∀ key, earlier.2.key? = some key → later.2.key? = some key →
        AnsweredOnce Sample.runtime key earlier later :=
  trace_answeredOnce (.of_init (Sample.init_database _)) [Sample.create, Sample.create]

end Server

end SkillHive
