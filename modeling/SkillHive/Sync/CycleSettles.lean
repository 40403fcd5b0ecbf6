import SkillHive.LocalStore.InFlight
import SkillHive.LocalStore.LocalWork
import SkillHive.Sync.Dispatch

/-!
# What a cycle leaves in flight

A claimed mutation leaves flight when its outcome is stored or when it is released with the
tail of a stopped batch. Three things keep it in flight until the next start of the process:
a session failure at its own request, for which no outcome is recorded; a failing read or
write of the store at its dispatch; a release of the tail that fails. A cycle leaves nothing
in flight exactly when nothing was before it and its batch meets none of the three.
-/

namespace SkillHive

open Foundation LocalStore

namespace Sync.Environment

variable (env : Environment)

/-! ## The condition -/

/-- The mutations that the cycle claims, in the order of dispatch. -/
def claimedBatch (store : LocalStore) : List LocalMutation :=
  let now := env.clock .claimDispatchableMutations
  (store.readDispatchable now maxMutationsPerCycle).map fun m ↦ m.claim now

/-- Every mutation of the batch up to the one that stops it is answered with an outcome
that the store accepts, and the rest can be released. `boundTo` tells the server identity of
each row, with the acknowledgements so far. -/
def BatchSettles (deviceId : String) (store : LocalStore) :
    (String → Option String) → List LocalMutation → Prop
  | _, [] => True
  | boundTo, m :: tail =>
    ∃ a, env.answer deviceId (store.skill? m.skillId) m = some a ∧
      env.fault (.applyMutationOutcome m.id) = none ∧ a.outcome.Recordable boundTo m.skillId ∧
      if a.goesOn = true then
        BatchSettles deviceId store
          (Function.update boundTo m.skillId (a.outcome.binds (boundTo m.skillId))) tail
      else tail = [] ∨ env.fault .releaseInFlightMutations = none

/-- If the cycle gets as far as its claim, the claimed batch settles. -/
def PushSettles (store : LocalStore) : Prop :=
  ∀ device, (env.session.exec store).1 = .ok device →
    env.fault .claimDispatchableMutations = none →
    env.BatchSettles device.deviceId store store.remoteIdOf (env.claimedBatch store)

/-! ## The quiet parts -/

variable {env}

/-- The first parts of the cycle write nothing but the synchronization row. -/
def WritesSyncState (store store' : LocalStore) : Prop :=
  ∃ syncState, store' = { store with syncState }

theorem WritesSyncState.refl (store : LocalStore) : WritesSyncState store store :=
  ⟨store.syncState, rfl⟩

theorem WritesSyncState.trans (s t u : LocalStore) (h : WritesSyncState s t)
    (h' : WritesSyncState t u) : WritesSyncState s u := by
  obtain ⟨syncState, rfl⟩ := h
  obtain ⟨syncState', rfl⟩ := h'
  exact ⟨syncState', rfl⟩

theorem openSession_frames : Program.Frames WritesSyncState env.openSession := by
  apply Program.Frames.bind WritesSyncState.trans
  · apply Program.Frames.attempt
    apply Program.Frames.transaction WritesSyncState.refl
    intro s s' a h
    split at h
    · cases h
    · obtain ⟨_, -, h⟩ := bind_eq_ok.mp h
      cases h
      exact .refl s
  · intro result
    cases result with
    | error error => exact Program.Frames.throw WritesSyncState.refl _
    | ok =>
      dsimp only
      cases env.ensureAccessToken with
      | error error => exact Program.Frames.throw WritesSyncState.refl _
      | ok => exact Program.Frames.pure WritesSyncState.refl ()

theorem recordAuthenticatedDevice_spec {store store' : LocalStore}
    {serverUrl loginIdentity clientInstanceId deviceId serverUserId : String}
    (h : store.recordAuthenticatedDevice serverUrl loginIdentity clientInstanceId deviceId
      serverUserId = .ok store') :
    WritesSyncState store store' ∧ store'.syncState.deviceId = some deviceId := by
  obtain ⟨_, -, h⟩ := bind_eq_ok.mp h
  obtain ⟨_, -, h⟩ := bind_eq_ok.mp h
  obtain ⟨_, -, h⟩ := bind_eq_ok.mp h
  obtain ⟨_, -, h⟩ := bind_eq_ok.mp h
  obtain ⟨_, -, h⟩ := bind_eq_ok.mp h
  obtain ⟨_, -, h⟩ := bind_eq_ok.mp h
  cases h
  exact ⟨⟨_, rfl⟩, rfl⟩

/-- An adopted device is the one on record. -/
theorem exec_adoptDevice (env : Environment) (device : DeviceRegistration) (store : LocalStore) :
    WritesSyncState store ((env.adoptDevice device).exec store).2 ∧
      ∀ device', ((env.adoptDevice device).exec store).1 = .ok device' →
        ((env.adoptDevice device).exec store).2.syncState.deviceId = some device'.deviceId := by
  unfold adoptDevice
  by_cases hrevoked : device.isRevoked = true
  · rw [if_pos hrevoked]
    exact ⟨.refl store, fun _ h ↦ by cases h⟩
  rw [if_neg hrevoked, syncState]
  rcases exec_storeCall_cases env .syncState (fun store ↦ .ok (store, store.syncState)) store with
    ⟨error, h⟩ | ⟨s, state, -, htx, h⟩
  · rw [Program.exec_bind_error h]
    exact ⟨.refl store, fun _ h ↦ by cases h⟩
  cases htx
  rw [Program.exec_bind_ok h]
  by_cases hscope : ∃ userId ∈ store.syncState.serverUserId, userId ≠ device.userId
  · rw [if_pos hscope]
    exact ⟨.refl store, fun _ h ↦ by cases h⟩
  rw [if_neg hscope]
  by_cases hother : env.isOtherDevice store.syncState device = true
  · rw [if_pos hother]
    rcases exec_storeCall_cases env .recordAuthenticatedDevice (fun s ↦ do
        let s ← s.recordAuthenticatedDevice env.baseUrl
          (store.syncState.serverLoginIdentity.getD "sync-worker") device.clientInstanceId
          device.deviceId device.userId
        .ok (s, ())) store with ⟨error, h⟩ | ⟨s, _, -, htx, h⟩
    · rw [Program.exec_bind_error h]
      exact ⟨.refl store, fun _ h ↦ by cases h⟩
    · obtain ⟨recorded, hrecorded, htx⟩ := bind_eq_ok.mp htx
      cases htx
      obtain ⟨hwrites, hdevice⟩ := recordAuthenticatedDevice_spec hrecorded
      rw [Program.exec_bind_ok h]
      exact ⟨hwrites, fun _ h ↦ by cases h; exact hdevice⟩
  · rw [if_neg hother]
    simp only [isOtherDevice, decide_eq_true_eq, not_or, not_not] at hother
    exact ⟨.refl store, fun _ h ↦ by cases h; exact hother.1⟩

theorem exec_ensureDevice (env : Environment) (store : LocalStore) :
    WritesSyncState store (env.ensureDevice.exec store).2 ∧
      ∀ device, (env.ensureDevice.exec store).1 = .ok device →
        (env.ensureDevice.exec store).2.syncState.deviceId = some device.deviceId := by
  unfold ensureDevice
  rcases exec_storeCall_cases env .ensureClientInstanceId (fun store ↦
    .ok (store.ensureClientInstanceId env.freshInstanceId)) store with
      ⟨error, h⟩ | ⟨s, clientInstanceId, -, htx, h⟩
  · rw [Program.exec_bind_error h]
    exact ⟨.refl store, fun _ h ↦ by cases h⟩
  have hs : WritesSyncState store s := by
    have hstore : s = (store.ensureClientInstanceId env.freshInstanceId).1 :=
      (congrArg Prod.fst (Except.ok.inj htx)).symm
    rw [hstore, ensureClientInstanceId]
    split
    · exact .refl store
    · exact ⟨_, rfl⟩
  rw [Program.exec_bind_ok h]
  cases env.registerDevice (env.registration clientInstanceId) with
  | error error => exact ⟨hs, fun _ h ↦ by cases h⟩
  | ok device =>
    obtain ⟨hwrites, hdevice⟩ := exec_adoptDevice env device s
    exact ⟨.trans _ _ _ hs hwrites, hdevice⟩

/-- What the push finds: the rows of the cycle's start and the device of the session. -/
theorem exec_session (env : Environment) (store : LocalStore) :
    WritesSyncState store (env.session.exec store).2 ∧
      ∀ device, (env.session.exec store).1 = .ok device →
        (env.session.exec store).2.syncState.deviceId = some device.deviceId := by
  have hopen : WritesSyncState store (env.openSession.exec store).2 := openSession_frames store
  unfold session
  match h : env.openSession.exec store with
  | (.error error, s) =>
    rw [Program.exec_bind_error h]
    rw [h] at hopen
    exact ⟨hopen, fun _ h ↦ by cases h⟩
  | (.ok (), s) =>
    rw [Program.exec_bind_ok h]
    rw [h] at hopen
    obtain ⟨hwrites, hdevice⟩ := exec_ensureDevice env s
    exact ⟨.trans _ _ _ hopen hwrites, hdevice⟩

theorem WritesSyncState.quiet {host : Host} {store store' : LocalStore}
    (h : WritesSyncState store store') : Quiet host store store' := by
  obtain ⟨syncState, rfl⟩ := h
  exact .writeSyncState store syncState

theorem pullChanges_frames (remaining : ℕ) (summary : PullSummary) :
    Program.Frames (Quiet env.host) (env.pullChanges remaining summary) := by
  have hcall : ∀ {α : Type} (site : StoreCall)
      (tx : LocalStore → Except LocalStoreError (LocalStore × α)),
      (∀ s s' a, tx s = .ok (s', a) → Quiet env.host s s') →
        Program.Frames (Quiet env.host) (env.pullCall site tx) := by
    intro α site tx htx
    apply Program.Frames.bind (R := Quiet env.host) (fun _ _ _ ↦ Quiet.trans)
    · apply Program.Frames.attempt
      apply Program.Frames.transaction Quiet.refl
      intro s s' a h
      split at h
      · cases h
      · exact htx s s' a h
    · intro result
      cases result with
      | error error => exact Program.Frames.throw Quiet.refl _
      | ok a => exact Program.Frames.pure Quiet.refl a
  induction remaining generalizing summary with
  | zero => exact Program.Frames.pure Quiet.refl summary
  | succ remaining ih =>
    apply Program.Frames.bind (R := Quiet env.host) (fun _ _ _ ↦ Quiet.trans)
    · apply hcall
      intro s s' a h
      cases h
      exact .refl s
    · intro cursor
      cases env.fetchPage summary.pagesApplied cursor with
      | error error => exact Program.Frames.throw Quiet.refl _
      | ok fetched =>
        apply Program.Frames.bind (R := Quiet env.host) (fun _ _ _ ↦ Quiet.trans)
        · apply hcall
          intro s s' applied h
          exact .applyChangesPage h
        · intro applied
          dsimp only
          split
          · exact ih _
          · exact Program.Frames.pure Quiet.refl _

theorem recordPush_frames (result : ℕ × Option SyncCycleError) :
    Program.Frames (Quiet env.host) (env.recordPush result) := by
  unfold recordPush
  split
  · apply Program.Frames.bind (R := Quiet env.host) (fun _ _ _ ↦ Quiet.trans)
    · apply frames_storeCall Quiet.refl
      intro s s' a h
      cases h
      exact .writeSyncState s _
    · exact fun _ ↦ Program.Frames.pure Quiet.refl _
  · exact Program.Frames.pure Quiet.refl _

theorem pull_frames (pushed : ℕ) (failure : Option SyncCycleError) :
    Program.Frames (Quiet env.host) (env.pull pushed failure) := by
  apply Program.Frames.bind (R := Quiet env.host) (fun _ _ _ ↦ Quiet.trans)
  · apply Program.Frames.attempt
    exact pullChanges_frames _ _
  · intro result
    cases result with
    | error error =>
      apply Program.Frames.bind (R := Quiet env.host) (fun _ _ _ ↦ Quiet.trans)
      · apply frames_storeCall Quiet.refl
        intro s s' a h
        obtain ⟨recorded, hrecorded, h⟩ := bind_eq_ok.mp h
        cases h
        obtain ⟨_, -, hrecorded⟩ := bind_eq_ok.mp hrecorded
        cases hrecorded
        exact .writeSyncState s _
      · exact fun _ ↦ Program.Frames.throw Quiet.refl _
    | ok summary =>
      apply Program.Frames.bind (R := Quiet env.host) (fun _ _ _ ↦ Quiet.trans)
      · apply frames_storeCall Quiet.refl
        intro s s' a h
        have hstore : s' = (expireDueEntitlements env.host.toChrono s
            (env.utcNow .expireDueEntitlements)).1 := (congrArg Prod.fst (Except.ok.inj h)).symm
        rw [hstore]
        exact .expireDueEntitlements s _
      · exact fun _ ↦ Program.Frames.pure Quiet.refl _

/-! ## The batch -/

/-- The loop over the batch stands before `tail`: its mutations are in flight, one a skill,
and their skills have the rows that they had at the start of the cycle. -/
structure Dispatching (env : Environment) (deviceId : String) (start : LocalStore)
    (boundTo : String → Option String) (tail : List LocalMutation) (store : LocalStore) : Prop where
  reachable : Reachable env.host store
  device : store.syncState.deviceId = some deviceId
  claimed : ∀ m ∈ tail, store.mutation? m.id = some m ∧ m.state = .inFlight
  nodup : (tail.map LocalMutation.id).Nodup
  distinct : (tail.map LocalMutation.skillId).Nodup
  rows : ∀ m ∈ tail, store.skill? m.skillId = start.skill? m.skillId
  bound : ∀ k, store.remoteIdOf k = boundTo k

variable {deviceId : String} {start store store' : LocalStore}
  {boundTo : String → Option String} {m : LocalMutation} {tail : List LocalMutation}

theorem Dispatching.accepts (h : env.Dispatching deviceId start boundTo (m :: tail) store)
    {a : Answer} (ha : env.answer deviceId (start.skill? m.skillId) m = some a) :
    store.AcceptsOutcome a.outcome := by
  obtain ⟨hm, hflight⟩ := h.claimed m List.mem_cons_self
  obtain ⟨hid, hwellFormed⟩ := answer_outcome ha
  exact ⟨⟨m, hid ▸ hm, hflight⟩, hwellFormed⟩

/-- The store accepts the outcome of the next dispatch exactly when its columns allow it. -/
theorem Dispatching.stores_iff (h : env.Dispatching deviceId start boundTo (m :: tail) store)
    {a : Answer} (ha : env.answer deviceId (start.skill? m.skillId) m = some a) :
    (∃ store', env.Stores m a.outcome store store') ↔
      env.fault (.applyMutationOutcome m.id) = none ∧ a.outcome.Recordable boundTo m.skillId := by
  obtain ⟨hm, hflight⟩ := h.claimed m List.mem_cons_self
  obtain ⟨hid, hwellFormed⟩ := answer_outcome ha
  have hbound : store.remoteIdOf = boundTo := funext h.bound
  have hok := applyMutationOutcome_ok_iff h.reachable.storeInvariant hwellFormed (hid ▸ hm) hflight
    (env.clock (.applyMutationOutcome m.id))
  rw [hbound] at hok
  rw [← hok]
  constructor
  · rintro ⟨store', hfault, applied, happly⟩
    exact ⟨hfault, _, happly⟩
  · rintro ⟨hfault, ⟨store', applied⟩, happly⟩
    exact ⟨store', hfault, applied, happly⟩

/-- After a stored outcome the loop stands before the rest of the batch. -/
theorem Dispatching.next (h : env.Dispatching deviceId start boundTo (m :: tail) store)
    {a : Answer} (ha : env.answer deviceId (start.skill? m.skillId) m = some a)
    (hstores : env.Stores m a.outcome store store') :
    env.Dispatching deviceId start
      (Function.update boundTo m.skillId (a.outcome.binds (boundTo m.skillId))) tail store' ∧
      (system env.host).Reaches store store' ∧ NoNewPending store.mutations store'.mutations ∧
      ∀ k, store'.InFlight k ↔ store.InFlight k ∧ k ≠ m.id := by
  obtain ⟨-, applied, happly⟩ := hstores
  obtain ⟨hm, hflight⟩ := h.claimed m List.mem_cons_self
  obtain ⟨hid, hwellFormed⟩ := answer_outcome ha
  obtain ⟨row, hrow, -⟩ := h.reachable.storeInvariant.owner m (Table.mem_of_get? hm)
  have haccepts := h.accepts ha
  obtain ⟨hinFlight, hothers⟩ := applyMutationOutcome_inFlight_iff haccepts happly
  obtain ⟨hskills, hremote, hsync⟩ := applyMutationOutcome_remoteIdOf (hid ▸ hm) hflight hrow happly
  obtain ⟨hfreshId, hnodup⟩ := List.nodup_cons.mp h.nodup
  obtain ⟨hfreshSkill, hdistinct⟩ := List.nodup_cons.mp h.distinct
  have hreaches : (system env.host).Reaches store store' := by
    apply TransitionSystem.Reaches.single
      (.applyMutationOutcome (env.clock (.applyMutationOutcome m.id)) a.outcome)
    have hstep := committed_eq_some.mpr ⟨applied, happly⟩
    simpa [system, storeStep, haccepts] using hstep
  rw [hid] at hinFlight hothers
  refine ⟨⟨h.reachable.reaches hreaches, hsync ▸ h.device, fun m' hm' ↦ ?_, hnodup, hdistinct,
    fun m' hm' ↦ ?_, fun k ↦ ?_⟩, hreaches,
    (applyMutationOutcome_moves haccepts happly).noNewPending, hinFlight⟩
  · have hne : m'.id ≠ m.id := fun heq ↦ hfreshId (heq ▸ List.mem_map_of_mem hm')
    obtain ⟨hget, hstate⟩ := h.claimed m' (List.mem_cons_of_mem m hm')
    exact ⟨Table.get?_of_mem (hothers m' (Table.mem_of_get? hget) hne), hstate⟩
  · have hne : m'.skillId ≠ m.skillId := fun heq ↦ hfreshSkill (heq ▸ List.mem_map_of_mem hm')
    rw [hskills _ hne]
    exact h.rows m' (List.mem_cons_of_mem m hm')
  · by_cases hk : k = m.skillId
    · subst hk
      rw [Function.update_self, hremote, h.bound]
    · rw [Function.update_of_ne hk, ← h.bound, remoteIdOf, remoteIdOf, hskills k hk]

/-- The release of the tail, whether it succeeds or not. -/
theorem exec_releaseTail (env : Environment) (tail : List LocalMutation) (store : LocalStore) :
    (tail = [] ∨ env.fault .releaseInFlightMutations = none) ∧
        ((env.releaseTail tail).exec store).2 =
          store.releaseInFlightMutations (tail.map LocalMutation.id) ∨
      (tail ≠ [] ∧ env.fault .releaseInFlightMutations ≠ none) ∧
        ((env.releaseTail tail).exec store).2 = store := by
  unfold releaseTail
  by_cases hempty : tail = []
  · rw [if_pos hempty]
    exact Or.inl ⟨Or.inl hempty, by rw [hempty]; rfl⟩
  rw [if_neg hempty]
  cases hfault : env.fault .releaseInFlightMutations with
  | none =>
    rw [exec_storeCall_ok hfault rfl]
    exact Or.inl ⟨Or.inr rfl, rfl⟩
  | some error =>
    rw [exec_storeCall_fault hfault]
    exact Or.inr ⟨⟨hempty, by simp⟩, rfl⟩

/-- What the loop leaves in flight: what was in flight and is not of the batch, and nothing
of the batch exactly when the batch settles. -/
structure BatchResult (env : Environment) (deviceId : String) (start : LocalStore)
    (boundTo : String → Option String) (batch : List LocalMutation) (store store' : LocalStore) :
    Prop where
  reaches : (system env.host).Reaches store store'
  fewer : ∀ k, store'.InFlight k → store.InFlight k
  others : ∀ k, k ∉ batch.map LocalMutation.id → store.InFlight k → store'.InFlight k
  noNewPending : NoNewPending store.mutations store'.mutations
  settles : (∀ m ∈ batch, ¬ store'.InFlight m.id) ↔ env.BatchSettles deviceId start boundTo batch

theorem exec_pushBatch_ok {s : LocalStore} (h : (env.dispatchMutation m).exec store = (.ok (), s)) :
    ((env.pushBatch (m :: tail)).exec store).2 = ((env.pushBatch tail).exec s).2 := by
  rw [pushBatch, Program.exec_bind_ok (Program.exec_attempt _ _), h]
  exact Program.exec_bind_snd (fun _ _ ↦ rfl) s

theorem exec_pushBatch_error {s : LocalStore} {error : SyncCycleError}
    (h : (env.dispatchMutation m).exec store = (.error error, s)) :
    ((env.pushBatch (m :: tail)).exec store).2 = ((env.releaseTail tail).exec s).2 := by
  rw [pushBatch, Program.exec_bind_ok (Program.exec_attempt _ _), h]
  exact Program.exec_bind_snd (fun _ _ ↦ rfl) s

/-- The batch that stops at `m`, whose outcome was stored or not. -/
theorem BatchResult.stopped {s : LocalStore} (hreaches : (system env.host).Reaches store s)
    (hpending : NoNewPending store.mutations s.mutations)
    (hnodup : ((m :: tail).map LocalMutation.id).Nodup)
    (hflight : ∀ m' ∈ m :: tail, store.InFlight m'.id)
    (stored : Prop) (hstored : ∀ k, s.InFlight k ↔ store.InFlight k ∧ ¬ (stored ∧ k = m.id))
    (hsettles : env.BatchSettles deviceId start boundTo (m :: tail) ↔
      stored ∧ (tail = [] ∨ env.fault .releaseInFlightMutations = none)) :
    env.BatchResult deviceId start boundTo (m :: tail) store ((env.releaseTail tail).exec s).2 := by
  obtain ⟨hfresh, -⟩ := List.nodup_cons.mp hnodup
  rcases exec_releaseTail env tail s with ⟨hrelease, hresult⟩ | ⟨hrelease, hresult⟩
  · have hafter := s.release_inFlight_iff (tail.map LocalMutation.id)
    rw [hresult]
    refine ⟨hreaches.trans (.single (.releaseInFlightMutations _) rfl), fun k hk ↦ ?_,
      fun k hk hin ↦ ?_, hpending.trans (s.releaseInFlightMutations_noNewPending _), ?_⟩
    · exact ((hstored k).mp ((hafter k).mp hk).1).1
    · simp only [List.map_cons, List.mem_cons, not_or] at hk
      exact (hafter k).mpr ⟨(hstored k).mpr ⟨hin, fun h ↦ hk.1 h.2⟩, hk.2⟩
    · rw [hsettles, and_iff_left hrelease]
      constructor
      · intro hsettled
        by_contra hnot
        refine hsettled m List.mem_cons_self ((hafter m.id).mpr ⟨(hstored m.id).mpr ⟨?_, ?_⟩, hfresh⟩)
        · exact hflight m List.mem_cons_self
        · exact fun h ↦ hnot h.1
      · intro hsto m' hm' hin
        rcases List.mem_cons.mp hm' with rfl | hm'
        · exact ((hstored m'.id).mp ((hafter m'.id).mp hin).1).2 ⟨hsto, rfl⟩
        · exact ((hafter m'.id).mp hin).2 (List.mem_map_of_mem hm')
  · rw [hresult]
    refine ⟨hreaches, fun k hk ↦ ((hstored k).mp hk).1, fun k hk hin ↦ ?_, hpending, ?_⟩
    · simp only [List.map_cons, List.mem_cons, not_or] at hk
      exact (hstored k).mpr ⟨hin, fun h ↦ hk.1 h.2⟩
    · rw [hsettles]
      refine iff_of_false (fun hsettled ↦ ?_) (fun h ↦ h.2.elim hrelease.1 hrelease.2)
      -- the tail is not empty, and none of it was released
      obtain ⟨m', rest, hcons⟩ := List.exists_cons_of_ne_nil hrelease.1
      have hm' : m' ∈ tail := hcons ▸ List.mem_cons_self
      refine hsettled m' (List.mem_cons_of_mem m hm') ((hstored m'.id).mpr ⟨?_, fun h ↦ ?_⟩)
      · exact hflight m' (List.mem_cons_of_mem m hm')
      · exact hfresh (h.2 ▸ List.mem_map_of_mem hm')

theorem batchSettles_cons {a : Answer}
    (ha : env.answer deviceId (start.skill? m.skillId) m = some a) :
    env.BatchSettles deviceId start boundTo (m :: tail) ↔
      (env.fault (.applyMutationOutcome m.id) = none ∧ a.outcome.Recordable boundTo m.skillId) ∧
        if a.goesOn = true then
          env.BatchSettles deviceId start
            (Function.update boundTo m.skillId (a.outcome.binds (boundTo m.skillId))) tail
        else tail = [] ∨ env.fault .releaseInFlightMutations = none := by
  simp [BatchSettles, ha, and_assoc]

theorem exec_pushBatch (h : env.Dispatching deviceId start boundTo tail store) :
    env.BatchResult deviceId start boundTo tail store ((env.pushBatch tail).exec store).2 := by
  induction tail generalizing boundTo store with
  | nil =>
    exact ⟨.refl store, fun _ hk ↦ hk, fun _ _ hk ↦ hk, .refl _, iff_of_true (by simp) trivial⟩
  | cons m tail ih =>
    have hflight : ∀ m' ∈ m :: tail, store.InFlight m'.id := fun m' hm' ↦ ⟨m', h.claimed m' hm'⟩
    have hdispatch : DispatchResult env m (env.answer deviceId (start.skill? m.skillId) m) store
        ((env.dispatchMutation m).exec store) :=
      h.rows m List.mem_cons_self ▸ exec_dispatchMutation h.device
    match hresult : (env.dispatchMutation m).exec store with
    | (result, s) =>
    rw [hresult] at hdispatch
    by_cases hstores : ∃ a, env.answer deviceId (start.skill? m.skillId) m = some a ∧
        ∃ s', env.Stores m a.outcome store s'
    · obtain ⟨a, ha, s', hs'⟩ := hstores
      obtain ⟨hs, hgoes⟩ := hdispatch.stored a ha s' hs'
      obtain rfl : s = s' := hs
      obtain ⟨hnext, hreaches, hpending, hfewer⟩ := h.next ha hs'
      have hrecorded := (h.stores_iff ha).mp ⟨s, hs'⟩
      by_cases hon : a.goesOn = true
      · obtain rfl : result = .ok () := hgoes.mpr hon
        rw [exec_pushBatch_ok hresult]
        have hrest := ih hnext
        refine ⟨hreaches.trans hrest.reaches, fun k hk ↦ ((hfewer k).mp (hrest.fewer k hk)).1,
          fun k hk hin ↦ ?_, hpending.trans hrest.noNewPending, ?_⟩
        · simp only [List.map_cons, List.mem_cons, not_or] at hk
          exact hrest.others k hk.2 ((hfewer k).mpr ⟨hin, hk.1⟩)
        · rw [batchSettles_cons ha, if_pos hon, and_iff_right hrecorded, ← hrest.settles]
          simp only [List.mem_cons, forall_eq_or_imp]
          refine and_iff_right fun hin ↦ ?_
          exact ((hfewer m.id).mp (hrest.fewer m.id hin)).2 rfl
      · cases result with
        | ok => exact absurd (hgoes.mp rfl) hon
        | error error =>
          rw [exec_pushBatch_error hresult]
          refine .stopped hreaches hpending h.nodup hflight True (by simpa using hfewer) ?_
          rw [batchSettles_cons ha, if_neg hon, and_iff_right hrecorded, true_and]
    · obtain ⟨rfl, hfailed⟩ := hdispatch.lost fun a ha s' hs' ↦ hstores ⟨a, ha, s', hs'⟩
      cases result with
      | ok => exact absurd rfl hfailed
      | error error =>
        rw [exec_pushBatch_error hresult]
        refine .stopped (.refl _) (.refl _) h.nodup hflight False (by simp) ?_
        refine iff_of_false (fun hsettles ↦ ?_) (fun h ↦ h.1)
        obtain ⟨a, ha, hfault, hrecordable, -⟩ := hsettles
        exact hstores ⟨a, ha, (h.stores_iff ha).mpr ⟨hfault, hrecordable⟩⟩

/-! ## The cycle -/

/-- A claim puts the loop before its whole batch. -/
theorem claim_dispatching {s : LocalStore} (hreachable : Reachable env.host store)
    (hdevice : store.syncState.deviceId = some deviceId)
    (hclaim : store.claimDispatchableMutations (env.clock .claimDispatchableMutations)
      maxMutationsPerCycle = .ok (s, env.claimedBatch store)) :
    env.Dispatching deviceId store store.remoteIdOf (env.claimedBatch store) s := by
  obtain ⟨hstore, hget, -⟩ := claimDispatchableMutations_spec hclaim
  have hskills : s.skills = store.skills := by rw [hstore]
  have hids : (env.claimedBatch store).map LocalMutation.id =
      (store.readDispatchable (env.clock .claimDispatchableMutations) maxMutationsPerCycle).map
        LocalMutation.id := by
    simp [claimedBatch, LocalMutation.claim]
  have hnodup := store.readDispatchable_nodup (env.clock .claimDispatchableMutations)
    maxMutationsPerCycle
  refine ⟨?_, ?_, fun m hm ↦ ?_, ?_, ?_, fun m _ ↦ ?_, fun k ↦ ?_⟩
  · exact hreachable.step (a := .claimDispatchableMutations
      (env.clock .claimDispatchableMutations) maxMutationsPerCycle)
      (committed_eq_some.mpr ⟨_, hclaim⟩)
  · rw [hstore]
    exact hdevice
  · have hmem := hget m.id
    rw [if_pos (List.mem_map_of_mem hm)] at hmem
    obtain ⟨c, hc, rfl⟩ := List.mem_map.mp hm
    rw [c.claim_id, Table.get?_of_mem (mem_readDispatchable hc).1] at hmem
    exact ⟨hmem, rfl⟩
  · rw [hids]
    exact hnodup
  · have hskillIds : (env.claimedBatch store).map LocalMutation.skillId =
        (store.readDispatchable (env.clock .claimDispatchableMutations) maxMutationsPerCycle).map
          LocalMutation.skillId := by
      simp [claimedBatch, LocalMutation.claim]
    rw [hskillIds]
    refine hnodup.of_map.map_on fun m hm m' hm' hskill ↦ ?_
    obtain ⟨hmem, hdispatchable⟩ := mem_readDispatchable hm
    obtain ⟨hmem', hdispatchable'⟩ := mem_readDispatchable hm'
    exact eq_of_dispatchable hreachable.outboxInvariant hmem hmem' hskill hdispatchable
      hdispatchable'
  · rw [skill?, hskills, skill?]
  · rw [remoteIdOf, skill?, hskills, remoteIdOf, skill?]

/-- How a cycle ends: without a claim, or with the batch pushed and a quiet rest. -/
theorem exec_runCycle (env : Environment) {store : LocalStore} (h : Reachable env.host store) :
    ((∀ device, (env.session.exec store).1 = .ok device →
        env.fault .claimDispatchableMutations ≠ none) ∧
      WritesSyncState store (env.runCycle.exec store).2) ∨
    ∃ device s s', (env.session.exec store).1 = .ok device ∧
      env.fault .claimDispatchableMutations = none ∧
      env.Dispatching device.deviceId store store.remoteIdOf (env.claimedBatch store) s ∧
      (∀ k, s.InFlight k ↔
        k ∈ (env.claimedBatch store).map LocalMutation.id ∨ store.InFlight k) ∧
      env.BatchResult device.deviceId store store.remoteIdOf (env.claimedBatch store) s s' ∧
      Quiet env.host s' (env.runCycle.exec store).2 := by
  obtain ⟨hwrites, hdevice⟩ := exec_session env store
  match hsession : env.session.exec store with
  | (.error error, s₁) =>
    rw [hsession] at hwrites
    rw [runCycle, Program.exec_bind_error hsession]
    exact Or.inl ⟨fun device hd ↦ (by cases hd), hwrites⟩
  | (.ok device, s₁) =>
    rw [hsession] at hwrites hdevice
    rw [runCycle, Program.exec_bind_ok hsession]
    have hquiet : Quiet env.host store s₁ := hwrites.quiet
    have hreachable : Reachable env.host s₁ := h.reaches hquiet.reaches
    cases hfault : env.fault .claimDispatchableMutations with
    | some error =>
      refine Or.inl ⟨fun _ _ ↦ by simp, ?_⟩
      have hpush : env.push.exec s₁ = (.error (.ofLocalStore error), s₁) :=
        Program.exec_bind_error (exec_storeCall_fault hfault)
      rw [Program.exec_bind_error hpush]
      exact hwrites
    | none =>
      obtain ⟨s, hclaim⟩ := claimDispatchableMutations_ok s₁
        (env.clock .claimDispatchableMutations) maxMutationsPerCycle (by decide)
      have hclaimed : env.Dispatching device.deviceId store store.remoteIdOf
          (env.claimedBatch store) s := by
        have hdispatching := claim_dispatching hreachable (hdevice device rfl) hclaim
        obtain ⟨syncState, rfl⟩ := hwrites
        exact ⟨hdispatching.reachable, hdispatching.device, hdispatching.claimed,
          hdispatching.nodup, hdispatching.distinct, hdispatching.rows, hdispatching.bound⟩
      have hbatch : env.claimedBatch s₁ = env.claimedBatch store := by
        obtain ⟨syncState, rfl⟩ := hwrites
        rfl
      have hinFlight : ∀ k, s.InFlight k ↔
          k ∈ (env.claimedBatch store).map LocalMutation.id ∨ store.InFlight k := by
        intro k
        rw [claim_inFlight_iff hclaim, hquiet.inFlight_iff, ← hbatch]
        rfl
      refine Or.inr ⟨device, s, ((env.pushBatch (env.claimedBatch store)).exec s).2, rfl, rfl,
        hclaimed, hinFlight, exec_pushBatch hclaimed, ?_⟩
      refine Quiet.trans (?_ : Quiet env.host _ (env.push.exec s₁).2) ?_
      · rw [push, Program.exec_bind_ok (exec_storeCall_ok hfault hclaim)]
        rw [← hbatch]
        apply Program.Frames.after (R := Quiet env.host) Quiet.refl recordPush_frames
      · apply Program.Frames.after (R := Quiet env.host) Quiet.refl
        exact fun result ↦ pull_frames result.1 result.2

/-- The cycle is a run of the store's own operations. -/
theorem runCycle_reachable (env : Environment) {store : LocalStore}
    (h : Reachable env.host store) : Reachable env.host (env.runCycle.exec store).2 := by
  rcases exec_runCycle env h with ⟨-, hwrites⟩ | ⟨device, s, s', -, -, hclaimed, -, hbatch, hquiet⟩
  · have hsync : Quiet env.host store (env.runCycle.exec store).2 := hwrites.quiet
    exact h.reaches hsync.reaches
  · exact hclaimed.reachable.reaches (hbatch.reaches.trans hquiet.reaches)

/-- Acknowledged, settled by a definitive error, or claimable from some time on. -/
def IsSettled (store : LocalStore) (m : LocalMutation) : Prop :=
  m.state ∈ [.acked, .conflict, .permissionDenied, .permanentError] ∨
    ∃ t, ∀ now, t ≤ now → store.dispatchable now m = true

/-- The cycle leaves no mutation in flight, and settles all those it had to claim. -/
structure LeavesNoneInFlight (env : Environment) (store : LocalStore) : Prop where
  noneInFlight : ∀ m ∈ (env.runCycle.exec store).2.mutations, m.state ≠ .inFlight
  settled : ∀ m ∈ (env.runCycle.exec store).2.mutations,
    m.id ∈ (env.claimedBatch store).map LocalMutation.id → IsSettled (env.runCycle.exec store).2 m

theorem mem_claimedBatch {k : String} (hk : k ∈ (env.claimedBatch store).map LocalMutation.id) :
    ∃ c ∈ store.mutations, c.id = k ∧
      store.dispatchable (env.clock .claimDispatchableMutations) c = true := by
  simp only [claimedBatch, List.map_map] at hk
  obtain ⟨c, hc, rfl⟩ := List.mem_map.mp hk
  obtain ⟨hmem, hdispatchable⟩ := mem_readDispatchable hc
  exact ⟨c, hmem, rfl, hdispatchable⟩

theorem isSettled_of_predecessorsAcked {m : LocalMutation} (hflight : m.state ≠ .inFlight)
    (hacked : PredecessorsAcked store.mutations m) : IsSettled store m := by
  by_cases hqueued : m.state.isQueued = true
  · refine Or.inr ⟨m.nextAttemptAt.getD 0, fun now hnow ↦ dispatchable_iff.mpr ⟨hqueued, ?_, hacked⟩⟩
    intro t ht
    rw [Option.mem_def.mp ht] at hnow
    exact hnow
  · left
    revert hqueued hflight
    cases m.state <;> decide

/-- Nothing is in flight after the cycle exactly when nothing was before it and the batch
that it claims, if it gets that far, settles. -/
theorem noneInFlight_iff (env : Environment) {store : LocalStore} (h : Reachable env.host store) :
    (∀ m ∈ (env.runCycle.exec store).2.mutations, m.state ≠ .inFlight) ↔
      (∀ m ∈ store.mutations, m.state ≠ .inFlight) ∧ env.PushSettles store := by
  have hnone : ∀ s : LocalStore, (∀ m ∈ s.mutations, m.state ≠ .inFlight) ↔ ∀ k, ¬ s.InFlight k := by
    intro s
    simp only [inFlight_iff]
    constructor
    · rintro hs k ⟨m, hm, -, hstate⟩
      exact hs m hm hstate
    · exact fun hs m hm hstate ↦ hs m.id ⟨m, hm, rfl, hstate⟩
  rw [hnone, hnone]
  rcases exec_runCycle env h with ⟨hunclaimed, hwrites⟩ |
    ⟨device, s, s', hsession, hfault, hclaimed, hinFlight, hbatch, hquiet⟩
  · have hsync : Quiet env.host store (env.runCycle.exec store).2 := hwrites.quiet
    have hpush : env.PushSettles store :=
      fun device hdevice hfault ↦ absurd hfault (hunclaimed device hdevice)
    simp only [hsync.inFlight_iff, hpush, and_true]
  · have hpush : env.PushSettles store ↔ env.BatchSettles device.deviceId store store.remoteIdOf
        (env.claimedBatch store) := by
      constructor
      · exact fun hpush ↦ hpush device hsession hfault
      · intro hsettles device' hdevice' _
        cases hsession.symm.trans hdevice'
        exact hsettles
    rw [hpush, ← hbatch.settles]
    simp only [hquiet.inFlight_iff]
    constructor
    · intro hafter
      refine ⟨fun k hin ↦ ?_, fun m _ ↦ hafter m.id⟩
      by_cases hk : k ∈ (env.claimedBatch store).map LocalMutation.id
      · -- a claimed mutation was queued, so it was not in flight before
        obtain ⟨c, hc, hid, hdispatchable⟩ := mem_claimedBatch hk
        obtain ⟨m, hm, hstate⟩ := hin
        cases (hid ▸ Table.get?_of_mem hc).symm.trans hm
        have hqueued := (dispatchable_iff.mp hdispatchable).1
        rw [hstate] at hqueued
        cases hqueued
      · exact hafter k (hbatch.others k hk ((hinFlight k).mpr (Or.inr hin)))
    · rintro ⟨hbefore, hsettled⟩ k hin
      rcases (hinFlight k).mp (hbatch.fewer k hin) with hk | hk
      · obtain ⟨m, hm, rfl⟩ := List.mem_map.mp hk
        exact hsettled m hm hin
      · exact hbefore k hk

/-- A cycle leaves no mutation in flight exactly when none was before it and its batch
settles. -/
theorem runCycle_leavesNoneInFlight_iff (env : Environment) (store : LocalStore)
    (h : Reachable env.host store) :
    env.LeavesNoneInFlight store ↔
      (∀ m ∈ store.mutations, m.state ≠ .inFlight) ∧ env.PushSettles store := by
  rw [← noneInFlight_iff env h]
  refine ⟨fun hleaves ↦ hleaves.noneInFlight, fun hnone ↦ ⟨hnone, fun m hm hclaimedId ↦ ?_⟩⟩
  apply isSettled_of_predecessorsAcked (hnone m hm)
  have hreachable := runCycle_reachable env h
  rcases exec_runCycle env h with ⟨-, hwrites⟩ | ⟨device, s, s', -, -, hclaimed, -, hbatch, hquiet⟩
  · obtain ⟨c, hc, hid, hdispatchable⟩ := mem_claimedBatch hclaimedId
    obtain ⟨syncState, hafter⟩ := hwrites
    rw [hafter] at hm ⊢
    cases Table.eq_of_key_eq hc hm hid
    exact (dispatchable_iff.mp hdispatchable).2.2
  · refine hreachable.outboxInvariant.started m hm fun hpending ↦ ?_
    obtain ⟨m₀, hm₀, hid, hstill⟩ := hbatch.noNewPending m (hquiet.old m hm)
    obtain ⟨c, hc, hcid⟩ := List.mem_map.mp hclaimedId
    obtain ⟨hget, hflight⟩ := hclaimed.claimed c hc
    cases Table.eq_of_key_eq hm₀ (Table.mem_of_get? hget) (hid.symm.trans hcid.symm)
    rw [hstill hpending] at hflight
    cases hflight

/-! ## A token that expires in the middle of a batch -/

/-- A signed-in desktop and a server that refuses or loses every mutation request. -/
def refusingEnvironment (error : SyncClientError) : Environment where
  host := leaselessHost
  baseUrl := "https://hive.example"
  displayName := "Desk"
  platform := "linux"
  appVersion := "0.2.0"
  freshInstanceId := "inst-1"
  databaseText := fun _ ↦ ""
  fault := fun _ ↦ none
  clock := fun _ ↦ 10
  utcNow := fun _ ↦ 10
  ensureAccessToken := .ok ()
  registerDevice := fun request ↦ .ok
    { deviceId := "dev-1", userId := "user-1", clientInstanceId := request.clientInstanceId
      revokedAt := none }
  syncSnapshotClosure := fun _ ↦ .ok ()
  submitMutation := fun _ ↦ .error error
  fetchPage := fun _ _ ↦ .ok
    { page := { protocolVersion := 1, changes := [], nextCursor := "v1.AAAAAQ", hasMore := false }
      blobsDownloaded := 0 }
  submit_answers := fun _ _ h ↦ by cases h

/-- A signed-in store with one skill created offline. -/
def createdRun : List StoreAction :=
  [.writeSyncState
      { protocolVersion := 1, clientInstanceId := some "inst-1", deviceId := some "dev-1"
        serverUserId := some "user-1", serverUrl := some "https://hive.example"
        serverLoginIdentity := some "ada", serverCursor := none, lastSuccessfulPushAt := none
        lastSuccessfulPullAt := none, lastServerError := none },
    .commitSkillEdit 1 "m-1" { sampleUpdate "local-1" "sha256:local" none with operation := .create }]

def createdStore : LocalStore := ((system leaselessHost).run fresh createdRun).getD fresh

/-- The token expires between the start of the cycle and the request: the cycle goes on to
its end and returns a report, with the mutation in flight. -/
theorem runCycle_strands_expiredToken :
    (system leaselessHost).run fresh createdRun = some createdStore ∧
      (∀ m ∈ createdStore.mutations.rows, m.state ≠ .inFlight) ∧
      ((refusingEnvironment (.authentication "INVALID_ACCESS_TOKEN" 401)).runCycle.exec
        createdStore).1.isOk = true ∧
      ¬ (refusingEnvironment (.authentication "INVALID_ACCESS_TOKEN" 401)).LeavesNoneInFlight
        createdStore := by
  refine ⟨TransitionSystem.run_eq_some_getD (by decide), by decide, by decide, fun hleaves ↦ ?_⟩
  have hflight : ∃ m ∈ ((refusingEnvironment (.authentication "INVALID_ACCESS_TOKEN" 401)).runCycle.exec
      createdStore).2.mutation? "m-1", m.state = .inFlight := by decide
  obtain ⟨m, hm, hstate⟩ := hflight
  exact hleaves.noneInFlight m (Table.mem_of_get? hm) hstate

/-- The same store under a network failure: the batch settles. -/
theorem runCycle_leavesNoneInFlight_iff_networkFailure :
    (refusingEnvironment (.network "timed out")).LeavesNoneInFlight createdStore := by
  have hreachable : Reachable leaselessHost createdStore :=
    ⟨fresh, createdRun, rfl, TransitionSystem.run_eq_some_getD (by decide)⟩
  refine (runCycle_leavesNoneInFlight_iff (refusingEnvironment (.network "timed out")) createdStore
    hreachable).mpr ⟨?_, fun device hdevice _ ↦ ?_⟩
  · have hrows : ∀ m ∈ createdStore.mutations.rows, m.state ≠ .inFlight := by decide
    exact fun m hm ↦ hrows m (Table.mem_iff_mem_rows.mp hm)
  · have hone : ((refusingEnvironment (.network "timed out")).claimedBatch createdStore).length = 1 := by
      decide
    obtain ⟨m, hm⟩ := List.length_eq_one_iff.mp hone
    rw [hm]
    refine ⟨⟨failureOutcome m.id (.network "timed out"), false⟩, ?_, rfl, Or.inr (Or.inr rfl),
      Or.inl rfl⟩
    unfold answer
    split <;> rfl

end Sync.Environment

end SkillHive
