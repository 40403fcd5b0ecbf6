import SkillHive.LocalStore.LapsedLeases

/-!
# Pages that arrive again

A page is one transaction. When a change arrives again, the revision of its row guards the row
and nothing else: its lease is stored whatever the revision, and a row that was removed since
keeps no revision that could guard it.
-/

namespace SkillHive

open Foundation

namespace LocalStore

/-- The row that `apply_entitlement` stores for a lease. -/
def EntitlementPayload.record (chrono : Chrono) (skillId : String) (payload : EntitlementPayload) :
    StoredEntitlement where
  skillId := skillId
  lease := payload.lease
  permissionLevel := payload.permissionLevel
  offlinePolicy := payload.offlinePolicy
  offlineTtlHours := payload.offlineTtlHours
  issuedAt := (payload.issuedAt.bind fun text ↦ (chrono.parseFromRfc3339 text).toOption).map
    chrono.toRfc3339
  expiresAt := (payload.expiresAt.bind fun text ↦ (chrono.parseFromRfc3339 text).toOption).map
    chrono.toRfc3339

/-- The stores have the same skills, leases and deployments. -/
structure SameTables (store store' : LocalStore) : Prop where
  skills : store'.skills = store.skills
  entitlements : store'.entitlements = store.entitlements
  deployments : store'.deployments = store.deployments

/-- The page is stored as a whole, with its cursor, or the store is as before. -/
def AppliesAtomically (host : Host) (utcNow : Int) (store : LocalStore) : Prop :=
  ∀ now page,
    (∃ error, applyChangesPage host store now utcNow page = .error error ∧
      transactionally (applyChangesPage host store now utcNow page) store = store) ∨
    ∃ merged counts,
      foldE (applyNextChange host utcNow) (store, ⟨0, 0, 0, 0⟩) page.changes = .ok (merged, counts) ∧
      transactionally (applyChangesPage host store now utcNow page) store =
        { merged with syncState :=
          { merged.syncState with
            serverCursor := some page.nextCursor
            lastSuccessfulPullAt := some now
            lastServerError := none } }

/-- No page of changes of the feed alters the skills, the leases or the deployments. -/
def StaleSafe (host : Host) (utcNow : Int) (store : LocalStore) (feed : List ChangeItem) : Prop :=
  ∀ now page, (∀ change ∈ page.changes, change ∈ feed) →
    store.SameTables (transactionally (applyChangesPage host store now utcNow page) store)

/-- The change has nothing to do: a tombstone finds no row or one that has reached its
revision, an upsert finds such a row, and a lease that comes with it is on record for that row
and agrees with its label. -/
def Settled (chrono : Chrono) (utcNow : Int) (store : LocalStore) (change : ChangeItem) : Prop :=
  if change.operation = "delete" then
    ∀ row ∈ store.skillByEitherId change.resourceId, row.isStaleFor change = true
  else
    ∃ row, store.skillByEitherId change.resourceId = some row ∧ row.isStaleFor change = true ∧
      ∀ payload ∈ change.lease?,
        store.entitlements.get? row.id = some (payload.record chrono row.id) ∧
        row.reconcileLease (payload.hasLapsed chrono utcNow) = row

/-- The store takes the change: no constraint fails and its lease is well formed. -/
def Takes (host : Host) (utcNow : Int) (store : LocalStore) (change : ChangeItem) : Prop :=
  ∃ out, applyChange host utcNow store change = .ok out

variable {host : Host} {utcNow : Int} {store store' : LocalStore} {change : ChangeItem}

theorem appliesAtomically (host : Host) (utcNow : Int) (store : LocalStore) :
    AppliesAtomically host utcNow store := by
  intro now page
  cases happly : applyChangesPage host store now utcNow page with
  | error error => exact .inl ⟨error, rfl, rfl⟩
  | ok out =>
    obtain ⟨store', applied⟩ := out
    obtain ⟨merged, hmerged, hcursor⟩ := applyChangesPage_spec happly
    exact .inr ⟨merged, applied, hmerged, recordPullCursorInTransaction_spec hcursor⟩

/-! ## What a lease writes -/

theorem applyEntitlement_eq_ok {chrono : Chrono} {skillId : String} {payload : EntitlementPayload}
    (h : applyEntitlement chrono store skillId payload utcNow = .ok store') :
    ∃ entitlements, upsertEntitlement store.entitlements (payload.record chrono skillId) =
        .ok entitlements ∧
      store' = { store with
        entitlements
        skills := store.skills.modify skillId
          (fun row ↦ row.reconcileLease (payload.hasLapsed chrono utcNow))
          fun row ↦ row.reconcileLease_id (payload.hasLapsed chrono utcNow) } := by
  obtain ⟨expiresAt, hexpires, h⟩ := bind_eq_ok.mp h
  obtain ⟨issuedAt, hissued, h⟩ := bind_eq_ok.mp h
  obtain ⟨entitlements, hupsert, h⟩ := bind_eq_ok.mp h
  cases h
  have hlapsed : (expiresAt.any fun limit ↦ limit ≤ utcNow) = payload.hasLapsed chrono utcNow := by
    rw [parseInstant_eq hexpires, EntitlementPayload.hasLapsed]
    cases payload.expiresAt <;> rfl
  refine ⟨entitlements, ?_, by rw [hlapsed]⟩
  rw [EntitlementPayload.record, ← parseInstant_eq hexpires, ← parseInstant_eq hissued]
  exact hupsert

theorem LocalSkill.reconcileLease_remoteRevision (row : LocalSkill) (expired : Bool) :
    (row.reconcileLease expired).remoteRevision = row.remoteRevision := by
  unfold reconcileLease
  split_ifs <;> rfl

/-- A lease keeps every row, at its revision. -/
theorem applyChangeEntitlement_revision {count : ℕ} {k : String} {row : LocalSkill}
    (h : applyChangeEntitlement host utcNow store change = .ok (store', count))
    (hrow : store.skill? k = some row) :
    ∃ row', store'.skill? k = some row' ∧ row'.remoteRevision = row.remoteRevision := by
  rcases applyChangeEntitlement_lease h with ⟨-, rfl⟩ | ⟨payload, found, -, -, -, hskills⟩
  · exact ⟨row, hrow, rfl⟩
  · rw [hskills]
    split
    case isTrue =>
      rw [hrow]
      exact ⟨_, rfl, row.reconcileLease_remoteRevision _⟩
    case isFalse => exact ⟨row, hrow, rfl⟩

/-! ## One change -/

/-- A lease that is on record and agrees with the label writes nothing. -/
theorem applyEntitlement_of_recorded {chrono : Chrono} {skillId : String}
    {payload : EntitlementPayload} {row : LocalSkill}
    (hrow : store.skill? skillId = some row)
    (hrecord : store.entitlements.get? skillId = some (payload.record chrono skillId))
    (hlabel : row.reconcileLease (payload.hasLapsed chrono utcNow) = row)
    (h : applyEntitlement chrono store skillId payload utcNow = .ok store') : store' = store := by
  obtain ⟨entitlements, hupsert, rfl⟩ := applyEntitlement_eq_ok h
  have hentitlements : entitlements = store.entitlements := by
    obtain ⟨_, -, hupsert⟩ := bind_eq_ok.mp hupsert
    obtain ⟨_, -, hupsert⟩ := bind_eq_ok.mp hupsert
    have hkey : (payload.record chrono skillId).skillId = skillId := rfl
    rw [hkey, hrecord] at hupsert
    cases hupsert
    refine Table.modify_eq_self fun r hr ↦ ?_
    cases hrecord.symm.trans hr
    rfl
  have hskills : store.skills.modify skillId
      (fun row ↦ row.reconcileLease (payload.hasLapsed chrono utcNow))
      (fun row ↦ row.reconcileLease_id (payload.hasLapsed chrono utcNow)) = store.skills := by
    refine Table.modify_eq_self fun r hr ↦ ?_
    cases hrow.symm.trans hr
    exact hlabel
  rw [hentitlements, hskills]

theorem applyChange_of_settled {counts : PageApplied}
    (hsettled : Settled host.toChrono utcNow store change)
    (h : applyChange host utcNow store change = .ok (store', counts)) : store' = store := by
  obtain ⟨merged, conflicts, entitlements, hmerged, hleased⟩ := applyChange_spec h
  unfold Settled at hsettled
  rcases applyChangeRows_spec hmerged with ⟨hdelete, htombstone⟩ | ⟨hupsert, hmerge⟩
  · rw [if_pos hdelete] at hsettled
    have hkept : merged = store := by
      rcases applyTombstone_spec htombstone with ⟨-, heq⟩ | ⟨row, hfound, ⟨-, heq⟩ | ⟨hfresh, -⟩ |
        ⟨hfresh, -⟩⟩
      · exact heq
      · exact heq
      · cases hfresh.symm.trans (hsettled row hfound)
      · cases hfresh.symm.trans (hsettled row hfound)
    subst hkept
    rcases applyChangeEntitlement_spec hleased with heq | ⟨-, -, hupsert, -⟩
    · exact heq
    · exact absurd hdelete hupsert
  · rw [if_neg hupsert] at hsettled
    obtain ⟨row, hfound, hstale, hrecorded⟩ := hsettled
    have hkept : merged = store := by
      rcases applyUpsert_spec hmerge with ⟨hunknown, -⟩ | ⟨row', hfound', ⟨-, heq⟩ | ⟨hfresh, -⟩⟩
      · cases hunknown.symm.trans hfound
      · exact heq
      · cases hfound.symm.trans hfound'
        cases hfresh.symm.trans hstale
    subst hkept
    rcases applyChangeEntitlement_cases hleased with ⟨-, heq⟩ |
      ⟨payload, row', hpayload, hfound', happly⟩
    · exact heq
    · cases hfound.symm.trans hfound'
      obtain ⟨hrecord, hlabel⟩ := hrecorded payload hpayload
      exact applyEntitlement_of_recorded (skillByEitherId_spec hfound).1 hrecord hlabel happly

/-- A row at the revision of the change is stale for it. -/
theorem isStaleFor_of_revision {row : LocalSkill}
    (h : row.remoteRevision = some change.resourceRevision) : row.isStaleFor change = true := by
  rw [LocalSkill.isStaleFor, h, Option.any_some]
  exact decide_eq_true le_rfl

/-- A change that alters nothing was settled. -/
theorem settled_of_sameTables {counts : PageApplied} (hsame : store.SameTables store')
    (h : applyChange host utcNow store change = .ok (store', counts)) :
    Settled host.toChrono utcNow store change := by
  obtain ⟨merged, conflicts, entitlements, hmerged, hleased⟩ := applyChange_spec h
  have hkept : ∀ k, store'.skill? k = store.skill? k := fun k ↦ by rw [skill?, hsame.skills, skill?]
  -- A row that the change has brought to its revision is there afterwards, hence before.
  have hreached : ∀ {k : String} {row : LocalSkill}, merged.skill? k = some row →
      row.remoteRevision = some change.resourceRevision →
        ∃ old, store.skill? k = some old ∧ old.isStaleFor change = true := by
    intro k row hrow hrevision
    obtain ⟨row', hrow', heq⟩ := applyChangeEntitlement_revision hleased hrow
    exact ⟨row', (hkept k).symm.trans hrow', isStaleFor_of_revision (heq.trans hrevision)⟩
  unfold Settled
  rcases applyChangeRows_spec hmerged with ⟨hdelete, htombstone⟩ | ⟨hupsert, hmerge⟩
  · rw [if_pos hdelete]
    intro row hfound
    have hget : store.skill? row.id = some row := (skillByEitherId_spec hfound).1
    have hstore : store' = merged := by
      rcases applyChangeEntitlement_spec hleased with heq | ⟨-, -, hupsert, -⟩
      · exact heq
      · exact absurd hdelete hupsert
    rcases applyTombstone_spec htombstone with ⟨hunknown, -⟩ | ⟨row', hfound', ⟨hstale, -⟩ |
      ⟨-, -, hskills, -⟩ | ⟨-, -, rfl⟩⟩
    · cases hunknown.symm.trans hfound
    · cases hfound.symm.trans hfound'
      exact hstale
    · cases hfound.symm.trans hfound'
      have hmark : merged.skill? row.id = some (row.mergeTombstone change) := by
        have hget' : store.skills.get? row.id = some row := hget
        rw [skill?, updateSkill_spec hskills, if_pos rfl, hget']
        rfl
      obtain ⟨old, hold, hstale⟩ := hreached hmark rfl
      cases hget.symm.trans hold
      exact hstale
    · cases hfound.symm.trans hfound'
      have hgone : store'.skill? row.id = none := by
        rw [hstore, skill?, deleteSkill, Table.get?_erase, if_pos rfl]
      cases (hgone.symm.trans (hkept row.id)).trans hget
  · rw [if_neg hupsert]
    rcases applyUpsert_spec hmerge with ⟨hunknown, hskills, -⟩ |
      ⟨row, hfound, ⟨hstale, rfl⟩ | ⟨hfresh, hskills, -⟩⟩
    · have hnone : store.skill? change.resourceId = none := (Option.or_eq_none_iff.mp hunknown).1
      have hinserted : merged.skill? change.resourceId = some (change.remoteOnlyRow host) := by
        have hget : store.skills.get? change.resourceId = none := hnone
        exact (upsertSkill_spec hskills _).trans ((if_pos rfl).trans (by rw [hget]; rfl))
      obtain ⟨old, hold, -⟩ := hreached hinserted rfl
      cases hnone.symm.trans hold
    · refine ⟨row, hfound, hstale, fun payload hpayload ↦ ?_⟩
      have hget : merged.skill? row.id = some row := (skillByEitherId_spec hfound).1
      rcases applyChangeEntitlement_cases hleased with ⟨hnone | hnone, -⟩ |
        ⟨payload', row', hpayload', hfound', happly⟩
      · cases hnone.symm.trans hpayload
      · cases hnone.symm.trans hfound
      · cases hpayload.symm.trans hpayload'
        cases hfound.symm.trans hfound'
        obtain ⟨entitlements, hupserted, rfl⟩ := applyEntitlement_eq_ok happly
        constructor
        · have hrecord := upsertEntitlement_spec hupserted row.id
          have heq : entitlements = merged.entitlements := hsame.entitlements
          exact heq ▸ hrecord.trans (if_pos rfl)
        · have hlabel := hkept row.id
          rw [hget, skill?, Table.get?_modify_self] at hlabel
          have hget' : merged.skills.get? row.id = some row := hget
          rw [hget'] at hlabel
          exact Option.some.inj hlabel
    · have hget : store.skill? row.id = some row := (skillByEitherId_spec hfound).1
      have hmerged' : merged.skill? row.id = some (row.mergeUpsert change) := by
        have hget' : store.skills.get? row.id = some row := hget
        rw [skill?, updateSkill_spec hskills, if_pos rfl, hget']
        rfl
      obtain ⟨old, hold, hstale⟩ := hreached hmerged' rfl
      cases hget.symm.trans hold
      cases hfresh.symm.trans hstale

/-! ## Pages of an old feed -/

/-- A page of settled changes leaves the store, up to the synchronization row. -/
theorem foldE_applyNextChange_of_settled {changes : List ChangeItem} {acc : LocalStore × PageApplied}
    {counts : PageApplied}
    (hsettled : ∀ change ∈ changes, Takes host utcNow store change →
      Settled host.toChrono utcNow store change)
    (h : foldE (applyNextChange host utcNow) (store, counts) changes = .ok acc) : acc.1 = store := by
  induction changes generalizing counts with
  | nil =>
    cases h
    rfl
  | cons change changes ih =>
    obtain ⟨next, hnext, hrest⟩ := foldE_cons_eq_ok.mp h
    obtain ⟨⟨changed, added⟩, hchanged, hnext⟩ := bind_eq_ok.mp hnext
    cases hnext
    have htakes : Takes host utcNow store change := ⟨_, hchanged⟩
    have heq : changed = store :=
      applyChange_of_settled (hsettled change List.mem_cons_self htakes) hchanged
    subst heq
    exact ih (fun other hother ↦ hsettled other (List.mem_cons_of_mem _ hother)) hrest

/-- Pages are applied atomically, and no page of an old feed alters the store exactly when
every change of the feed that the store takes is settled. -/
theorem applyChangesPage_staleSafe_iff (host : Host) (utcNow : Int) (store : LocalStore)
    (feed : List ChangeItem) :
    AppliesAtomically host utcNow store ∧ StaleSafe host utcNow store feed ↔
      ∀ change ∈ feed, Takes host utcNow store change →
        Settled host.toChrono utcNow store change := by
  constructor
  · rintro ⟨-, hsafe⟩ change hchange ⟨⟨store', counts⟩, happly⟩
    -- The change alone is a page.
    have hpage := hsafe 0 ⟨1, [change], "v1", false⟩ fun other hother ↦
      List.mem_singleton.mp hother ▸ hchange
    have hnext : applyNextChange host utcNow (store, ⟨0, 0, 0, 0⟩) change =
        .ok (store', PageApplied.add ⟨0, 0, 0, 0⟩ counts) := bind_eq_ok.mpr ⟨_, happly, rfl⟩
    have hfold : foldE (applyNextChange host utcNow) (store, ⟨0, 0, 0, 0⟩) [change] =
        .ok (store', PageApplied.add ⟨0, 0, 0, 0⟩ counts) :=
      foldE_cons_eq_ok.mpr ⟨_, hnext, rfl⟩
    have hok : ∃ recorded, applyChangesPage host store 0 utcNow ⟨1, [change], "v1", false⟩ =
        .ok (recorded, PageApplied.add ⟨0, 0, 0, 0⟩ counts) ∧ recorded.SameTables store' := by
      have hcursor : store'.recordPullCursorInTransaction 0 "v1" = .ok { store' with syncState :=
          { store'.syncState with
            serverCursor := some "v1", lastSuccessfulPullAt := some 0, lastServerError := none } } :=
        rfl
      exact ⟨_, bind_eq_ok.mpr ⟨_, hfold, bind_eq_ok.mpr ⟨_, hcursor, rfl⟩⟩, ⟨rfl, rfl, rfl⟩⟩
    obtain ⟨recorded, hok, hrecorded⟩ := hok
    rw [hok, transactionally_ok] at hpage
    refine settled_of_sameTables ⟨?_, ?_, ?_⟩ happly
    · exact hrecorded.skills.trans hpage.skills
    · exact hrecorded.entitlements.trans hpage.entitlements
    · exact hrecorded.deployments.trans hpage.deployments
  · intro hsettled
    refine ⟨appliesAtomically host utcNow store, fun now page hchanges ↦ ?_⟩
    cases happly : applyChangesPage host store now utcNow page with
    | error error => exact ⟨rfl, rfl, rfl⟩
    | ok out =>
      obtain ⟨store', applied⟩ := out
      obtain ⟨merged, hmerged, hcursor⟩ := applyChangesPage_spec happly
      have hkept : merged = store := foldE_applyNextChange_of_settled
        (fun change hchange ↦ hsettled change (hchanges change hchange)) hmerged
      rw [transactionally_ok, recordPullCursorInTransaction_spec hcursor, hkept]
      exact ⟨rfl, rfl, rfl⟩

/-! ## Two old pages -/

/-- A page with one upsert of `srv-1`, whose lease ends when given. -/
def lastingPage (revision : Int) (expiresAt cursor : String) : ChangesPage where
  protocolVersion := 1
  changes :=
    [{ sequence := revision, resourceType := "skill", resourceId := "srv-1"
       resourceRevision := revision, operation := "upsert"
       packageManifestHash := some "sha256:first"
       metadata := .object
        [("name", .string "Code Review"), ("slug", .string "code-review"),
          ("entitlement", .object
            [("lease", .string "payload.signature"), ("permission_level", .string "use"),
              ("offline_policy", .string "unlimited"), ("offline_ttl_hours", .null),
              ("issued_at", .string "2026-01-01T00:00:00+00:00"),
              ("expires_at", .string expiresAt)])] }]
  nextCursor := cursor
  hasMore := false

def removalPage (revision : Int) (cursor : String) : ChangesPage where
  protocolVersion := 1
  changes :=
    [{ sequence := revision, resourceType := "skill", resourceId := "srv-1"
       resourceRevision := revision, operation := "delete"
       packageManifestHash := none, metadata := .object [] }]
  nextCursor := cursor
  hasMore := false

/-- The first page of the feed: a lease until the second of January. -/
def firstPage : ChangesPage := lastingPage 1 "2026-01-02T00:00:00+00:00" "v1.AAAAAQ"

/-- A newer page renews the lease until the eighth. -/
def renewedStore : LocalStore :=
  ((system calendarHost).run fresh
    [.applyChangesPage 1 1767225600 firstPage,
      .applyChangesPage 2 1767225600
        (lastingPage 2 "2026-01-08T00:00:00+00:00" "v1.AAAAAg")]).getD fresh

/-- A newer page removes the skill. -/
def removedStore : LocalStore :=
  ((system calendarHost).run fresh
    [.applyChangesPage 1 1767225600 firstPage,
      .applyChangesPage 2 1767225600 (removalPage 2 "v1.AAAAAg")]).getD fresh

theorem not_staleSafe {feed : List ChangeItem} {now : ℕ} {page : ChangesPage}
    {applied : PageApplied} (hpage : ∀ change ∈ page.changes, change ∈ feed)
    (h : applyChangesPage host store now utcNow page = .ok (store', applied))
    (hdiffer : ¬ store.SameTables store') : ¬ StaleSafe host utcNow store feed := by
  intro hsafe
  have hsame := hsafe now page hpage
  rw [h] at hsame
  exact hdiffer hsame

/-- When the first page arrives again, the old lease is back in one store and the removed
skill in the other. -/
theorem firstPage_notStaleSafe :
    Reachable calendarHost renewedStore ∧ Reachable calendarHost removedStore ∧
      (∃ store applied, applyChangesPage calendarHost renewedStore 3 1767225600 firstPage =
          .ok (store, applied) ∧
        (renewedStore.entitlements.get? "srv-1").map StoredEntitlement.expiresAt =
          some (some "2026-01-08T00:00:00+00:00") ∧
        (store.entitlements.get? "srv-1").map StoredEntitlement.expiresAt =
          some (some "2026-01-02T00:00:00+00:00")) ∧
      (∃ store applied, applyChangesPage calendarHost removedStore 3 1767225600 firstPage =
          .ok (store, applied) ∧
        removedStore.skill? "srv-1" = none ∧ (store.skill? "srv-1").isSome = true) ∧
      ¬ StaleSafe calendarHost 1767225600 renewedStore firstPage.changes ∧
      ¬ StaleSafe calendarHost 1767225600 removedStore firstPage.changes := by
  have hrenewed : (applyChangesPage calendarHost renewedStore 3 1767225600 firstPage).toOption.any
      (fun out ↦ decide ((renewedStore.entitlements.get? "srv-1").map StoredEntitlement.expiresAt =
          some (some "2026-01-08T00:00:00+00:00") ∧
        (out.1.entitlements.get? "srv-1").map StoredEntitlement.expiresAt =
          some (some "2026-01-02T00:00:00+00:00"))) = true := by decide
  have hremoved : (applyChangesPage calendarHost removedStore 3 1767225600 firstPage).toOption.any
      (fun out ↦ decide (removedStore.skill? "srv-1" = none ∧
        (out.1.skill? "srv-1").isSome = true)) = true := by decide
  obtain ⟨⟨renewed, applied⟩, hrun, hleases⟩ := (Option.any_eq_true _ _).mp hrenewed
  obtain ⟨⟨removed, applied'⟩, hrun', hrows⟩ := (Option.any_eq_true _ _).mp hremoved
  obtain ⟨hnewer, holder⟩ := of_decide_eq_true hleases
  obtain ⟨habsent, hpresent⟩ := of_decide_eq_true hrows
  have hok := toOption_eq_some.mp hrun
  have hok' := toOption_eq_some.mp hrun'
  refine ⟨⟨fresh, _, rfl, TransitionSystem.run_eq_some_getD (by decide)⟩,
    ⟨fresh, _, rfl, TransitionSystem.run_eq_some_getD (by decide)⟩,
    ⟨renewed, applied, hok, hnewer, holder⟩, ⟨removed, applied', hok', habsent, hpresent⟩, ?_, ?_⟩
  · refine not_staleSafe (fun _ hchange ↦ hchange) hok fun hsame ↦ ?_
    rw [hsame.entitlements, hnewer] at holder
    exact absurd holder (by decide)
  · refine not_staleSafe (fun _ hchange ↦ hchange) hok' fun hsame ↦ ?_
    rw [skill?, hsame.skills] at hpresent
    have hnone : removedStore.skills.get? "srv-1" = none := habsent
    rw [hnone] at hpresent
    cases hpresent

end LocalStore

end SkillHive
