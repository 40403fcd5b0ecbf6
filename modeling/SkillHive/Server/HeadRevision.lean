import SkillHive.Server.Traffic

/-!
# Acknowledgements are based on the head

An update or a delete is acknowledged by the transaction that finds its base equal to the
revision of the head, and from then on by replays of that transaction's receipt. Whatever
else a submitted mutation is answered, it leaves skills, versions and the change log as they
were.
-/

namespace SkillHive

open Foundation

namespace Server

variable {rt : Runtime} {db : Database}

/-- Without a stored receipt a request fails or is handled. -/
theorem Submission.of_fresh {db' : Database} {userId : RowId} {request : SyncMutationRequest}
    {reply : Except ServerError SyncMutationResponse} (h : Submission db userId request reply db')
    (hfresh : db.receipts.get? (request.key userId) = none) :
    ((∃ error, reply = .error error) ∧ db' = db) ∨
      ∃ payload, reply = .ok payload.response ∧ Handled db db' userId request payload := by
  cases h with
  | rolledBack error => exact .inl ⟨⟨error, rfl⟩, rfl⟩
  | replayed receipt_eq domain retains receipts =>
    rw [hfresh] at receipt_eq
    cases receipt_eq
  | handled active result => exact .inr ⟨_, rfl, result⟩

/-- A result that is not an acknowledgement leaves the domain as it was. -/
theorem Submission.sameDomain_of_not_acked {db' : Database} {userId : RowId}
    {request : SyncMutationRequest} {reply : Except ServerError SyncMutationResponse}
    (h : Submission db userId request reply db')
    (hreply : ∀ response, reply = .ok response → response.status ≠ .acked) :
    db.SameDomain db' := by
  cases h with
  | rolledBack error => exact .refl db
  | replayed receipt_eq domain retains receipts => exact domain
  | handled active result =>
    rcases result.effect with ⟨hacked, -⟩ | ⟨-, hdomain⟩
    · exact absurd hacked (hreply _ rfl)
    · exact hdomain

theorem Submission.others {db' : Database} {userId : RowId} {request : SyncMutationRequest}
    {reply : Except ServerError SyncMutationResponse} (h : Submission db userId request reply db')
    {key : ReceiptKey} (hkey : key ≠ request.key userId) :
    db'.receipts.get? key = db.receipts.get? key := by
  cases h with
  | rolledBack error => rfl
  | replayed receipt_eq domain retains receipts => rw [receipts]
  | handled active result => exact result.records.others key hkey

/-- The action committed the answer to the mutation with the key: no receipt was stored
before, and an acknowledged update or delete was based on the head. -/
def Committed (rt : Runtime) (key : ReceiptKey) (response : SyncMutationResponse)
    (x : Database × Action) : Prop :=
  ∃ userId ctx body request, x.2 = .submitMutation userId ctx body ∧
    SyncMutationRequest.validate body = some request ∧ request.key userId = key ∧
    x.1.receipts.get? key = none ∧ x.2.reply? rt x.1 = some (.ok response) ∧
    (request.operation ≠ .create → response.status = .acked → AtHead x.1 userId request)

/-- A handled request commits its answer. -/
theorem Handled.committed {db' : Database} {userId : RowId} {ctx : RequestContext}
    {body : MutationBody} {request : SyncMutationRequest} {payload : ResponsePayload}
    (h : Handled db db' userId request payload)
    (hvalidate : SyncMutationRequest.validate body = some request)
    (hreply : ((submitRequest rt ctx userId request).exec db).1 = .ok payload.response) :
    Committed rt (request.key userId) payload.response
      (db, .submitMutation userId ctx body) := by
  refine ⟨userId, ctx, body, request, rfl, hvalidate, rfl, h.records.fresh, ?_, ?_⟩
  · simp only [Action.reply?, submitMutation, hvalidate, hreply]
  · intro hoperation hacked
    rcases h.effect with ⟨-, hbase⟩ | ⟨hrefused, -⟩
    · exact hbase hoperation
    · exact absurd hacked hrefused

/-- The action under which a receipt appears commits the answer that it holds. -/
theorem Action.committed {action : Action} {key : ReceiptKey} {receipt : SyncMutationReceipt}
    (hfresh : db.receipts.get? key = none)
    (hstored : (action.next rt db).receipts.get? key = some receipt) :
    Committed rt key receipt.responsePayload.response (db, action) := by
  cases action with
  | privateWrite userId ctx write =>
    rw [(next_privateWrite userId ctx write).receipts, hfresh] at hstored
    cases hstored
  | uploadBlob storage hashValue contentLength payload =>
    rw [(next_uploadBlob storage hashValue contentLength payload).receipts, hfresh] at hstored
    cases hstored
  | submitMutation userId ctx body =>
    rcases exec_submitMutation rt ctx userId body db with
      ⟨-, hexec⟩ | ⟨request, hvalidate, hexec⟩
    · rw [next, hexec, hfresh] at hstored
      cases hstored
    · rw [next, hexec] at hstored
      have hends := exec_submitRequest rt ctx userId request db
      by_cases hkey : key = request.key userId
      · subst hkey
        rcases hends.of_fresh hfresh with ⟨-, hsame⟩ | ⟨payload, hreply, hhandled⟩
        · rw [hsame, hfresh] at hstored
          cases hstored
        · obtain ⟨stored, hget, hpayload⟩ := hhandled.records.stored
          have heq : receipt = stored := Option.some.inj (hstored.symm.trans hget)
          rw [heq, hpayload]
          exact hhandled.committed hvalidate hreply
      · rw [hends.others hkey, hfresh] at hstored
        cases hstored

/-- A stored receipt goes back to an action of the run that committed its answer. -/
theorem exists_committed {t : Database} {actions : List Action} {key : ReceiptKey}
    {receipt : SyncMutationReceipt} (hinit : (traffic rt).init db)
    (hrun : (traffic rt).run db actions = some t) (hget : t.receipts.get? key = some receipt) :
    ∃ x ∈ (traffic rt).trace db actions,
      Committed rt key receipt.responsePayload.response x := by
  rcases TransitionSystem.run_origin (P := fun s ↦ s.receipts.get? key = some receipt) hrun hget
    with hstart | ⟨⟨s, action⟩, hmem, hbefore, s', hstep, hafter⟩
  · rw [hinit key] at hstart
    cases hstart
  · cases hstep
    refine ⟨(s, action), hmem, Action.committed ?_ hafter⟩
    -- A receipt under the key would have stayed, so the key was free.
    by_contra hsome
    obtain ⟨old, hold⟩ := Option.ne_none_iff_exists'.mp hsome
    have hkept := (action.next_retains rt s).receipts key old hold
    exact hbefore (hold.trans (hkept.symm.trans hafter))

/-- What a run guarantees of the mutation submitted after it. -/
structure BasedOnHead (rt : Runtime) (history : List (Database × Action)) (t : Database)
    (userId : RowId) (ctx : RequestContext) (body : MutationBody) : Prop where
  /-- Any other result than an acknowledgement, an error included, changes nothing. -/
  refused : (∀ response,
      (Action.submitMutation userId ctx body).reply? rt t = some (.ok response) →
        response.status ≠ .acked) →
    t.SameDomain ((Action.submitMutation userId ctx body).next rt t)
  /-- An acknowledged update or delete is committed here, at the head, or it repeats the
  answer that an earlier action of the run committed, and then changes nothing. -/
  acked : ∀ request response, SyncMutationRequest.validate body = some request →
    request.operation ≠ .create →
    (Action.submitMutation userId ctx body).reply? rt t = some (.ok response) →
    response.status = .acked →
    AtHead t userId request ∨
      t.SameDomain ((Action.submitMutation userId ctx body).next rt t) ∧
        ∃ x ∈ history, Committed rt (request.key userId) response x

/-- In every run of the traffic, an update or a delete is acknowledged only on the base of
the head at its commit, and every other result leaves the domain as it was. -/
theorem run_basedOnHead {t : Database} {actions : List Action} (hinit : (traffic rt).init db)
    (hrun : (traffic rt).run db actions = some t) (userId : RowId) (ctx : RequestContext)
    (body : MutationBody) :
    BasedOnHead rt ((traffic rt).trace db actions) t userId ctx body := by
  constructor
  · intro hreply
    rcases exec_submitMutation rt ctx userId body t with
      ⟨-, hexec⟩ | ⟨request, -, hexec⟩
    · rw [Action.next, hexec]
      exact .refl t
    · rw [Action.next, hexec]
      apply (exec_submitRequest rt ctx userId request t).sameDomain_of_not_acked
      intro response hok
      exact hreply response (by rw [Action.reply?, hexec, hok])
  · intro request response hvalidate hoperation hreply hacked
    cases hget : t.receipts.get? (request.key userId) with
    | none =>
      have hends := exec_submitRequest rt ctx userId request t
      simp only [Action.reply?, submitMutation, hvalidate, Option.some.injEq] at hreply
      rcases hends.of_fresh hget with ⟨⟨error, herror⟩, -⟩ | ⟨payload, hok, hhandled⟩
      · rw [hreply] at herror
        cases herror
      · rw [hreply, Except.ok.injEq] at hok
        rcases hhandled.effect with ⟨-, hbase⟩ | ⟨hrefused, -⟩
        · exact .inl (hbase hoperation)
        · rw [hok] at hacked
          exact absurd hacked hrefused
    | some receipt =>
      have hsound : t.ReceiptsSound :=
        receiptsSound_of_reachable (TransitionSystem.Reachable.run (.of_init hinit) hrun)
      have hkey : (Action.submitMutation userId ctx body).key? = some (request.key userId) := by
        rw [Action.key?, hvalidate, Option.map_some]
      obtain ⟨hanswer, -, hdomain⟩ := Action.replays rt hsound hkey hget
      rw [hreply, Option.some.injEq, Except.ok.injEq] at hanswer
      rw [hanswer]
      exact .inr ⟨hdomain, exists_committed hinit hrun hget⟩

/-- After the create, the update is based on the head and acknowledged. -/
theorem run_basedOnHead_update :
    BasedOnHead Sample.runtime
      ((traffic Sample.runtime).trace Sample.database [Sample.create])
      (Sample.create.next Sample.runtime Sample.database)
      Sample.user (Sample.context Sample.version₂) Sample.updateBody ∧
    (((submitMutation Sample.runtime (Sample.context Sample.version₂) Sample.user
      Sample.updateBody).exec (Sample.create.next Sample.runtime Sample.database)).1.toOption.map
        SyncMutationResponse.status) = some .acked :=
  ⟨run_basedOnHead (Sample.init_database _) rfl _ _ _, by decide +kernel⟩

end Server

end SkillHive
