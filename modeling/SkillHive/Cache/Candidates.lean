import SkillHive.Cache.Deletions

/-!
# How far the first stage gets

The first stage works through the candidates in their order until the cache is within its
budget, until a claim fails or until there are none left. What it has done after some of
them is a function of those: which files are released, and how many bytes are left.
-/

namespace SkillHive

open Foundation LocalStore

namespace Cache

namespace CacheRuntime

variable (rt : CacheRuntime)

/-- An eviction among these candidates names the blob, and after them no protected snapshot
that can be read does. -/
def released (start : LocalStore) (pre : List CacheSkillRecord) (hash : String) : Bool :=
  pre.any (fun skill ↦ rt.evicts start skill && decide (hash ∈ rt.closure skill.snapshotHash)) &&
    decide (rt.refCount (rt.evictAll start pre) hash = 0)

/-- The bytes that the report counts after these candidates. -/
def bytesLeft (start : LocalStore) (inventory : BlobInventory) (pre : List CacheSkillRecord) : ℕ :=
  totalBytes (inventory.rows.filter fun entry ↦
    !(rt.released start pre entry.hash && rt.frees .eviction entry.hash))

/-- The first stage gets through these candidates: before each of them the cache is above its
budget, and no claim fails. -/
def Completes (start : LocalStore) (inventory : BlobInventory) (pre : List CacheSkillRecord) :
    Prop :=
  pre <+: rt.listCacheSkills start ∧ ∀ earlier skill, earlier ++ [skill] <+: pre →
    rt.maxBytes < rt.bytesLeft start inventory earlier ∧
      (rt.evicts start skill = true → rt.claimFault skill.skillId = none)

variable {rt} {start : LocalStore} {inventory : BlobInventory} {pre : List CacheSkillRecord}
  {skill : CacheSkillRecord}

theorem released_nil (hash : String) : rt.released start [] hash = false := by
  simp [released]

theorem bytesLeft_nil : rt.bytesLeft start inventory [] = totalBytes inventory.rows := by
  unfold bytesLeft
  simp only [released_nil, Bool.false_and, Bool.not_false, List.filter_true]

theorem released_skip (h : rt.evicts start skill = false) (hash : String) :
    rt.released start (pre ++ [skill]) hash = rt.released start pre hash := by
  unfold released
  rw [evictAll_append_singleton, h]
  simp [h]

/-- A blob of the closure is not released before its eviction. -/
theorem released_before (hpre : pre ++ [skill] <+: rt.listCacheSkills start)
    (h : rt.evicts start skill = true) {hash : String}
    (hhash : hash ∈ rt.closure skill.snapshotHash) : rt.released start pre hash = false := by
  have hcount := refCount_next hpre h hash
  rw [if_pos hhash] at hcount
  simp [released, hcount]

theorem released_evict (hpre : pre ++ [skill] <+: rt.listCacheSkills start)
    (h : rt.evicts start skill = true) (hash : String) :
    rt.released start (pre ++ [skill]) hash = (rt.released start pre hash ||
      decide (hash ∈ rt.closure skill.snapshotHash ∧
        rt.refCount (rt.evictAll start (pre ++ [skill])) hash = 0)) := by
  by_cases hhash : hash ∈ rt.closure skill.snapshotHash
  · rw [released_before hpre h hhash]
    simp [released, h, hhash]
  · have hcount := refCount_next hpre h hash
    rw [if_neg hhash, Nat.add_zero] at hcount
    simp [released, hhash, hcount]

/-- What is released stays released. -/
theorem released_mono {done : List CacheSkillRecord} (hdone : done <+: rt.listCacheSkills start)
    (hpre : pre <+: done) {hash : String} (h : rt.released start pre hash = true) :
    rt.released start done hash = true := by
  obtain ⟨more, rfl⟩ := hpre
  induction more using List.reverseRecOn with
  | nil => simpa using h
  | append_singleton more skill ih =>
    rw [← List.append_assoc] at hdone ⊢
    have hmore := ih ((List.prefix_append _ _).trans hdone)
    cases hevicts : rt.evicts start skill with
    | false => rw [released_skip hevicts, hmore]
    | true => rw [released_evict hdone hevicts, hmore, Bool.true_or]

/-! ## The loop over the candidates -/

variable (rt start inventory pre) in
/-- The state of the pass after these candidates. -/
structure Evicting (pass : CachePass) : Prop where
  leaves : Leaves inventory (fun k ↦ rt.released start pre k && rt.deletes .eviction k)
    (fun k ↦ rt.released start pre k && rt.frees .eviction k) pass
  counts : ∀ k, (pass.counts k).getD 0 = rt.refCount (rt.evictAll start pre) k
  store : pass.store = rt.evictAll start pre
  before : pass.report.beforeBytes = totalBytes inventory.rows

theorem evicting_beginPass : Evicting rt start inventory [] (rt.beginPass start inventory) where
  leaves :=
    { files := fun entry ↦ by simp [released_nil, beginPass]
      bytes := by simp [released_nil, beginPass]
      freed_gone := fun entry _ h ↦ by simp [released_nil] at h }
  counts := referenceCounts_getD (protectedSnapshots start)
  store := rfl
  before := rfl

theorem Evicting.skip {pass : CachePass} (h : Evicting rt start inventory pre pass)
    (hevicts : rt.evicts start skill = false) :
    Evicting rt start inventory (pre ++ [skill]) (pass.skip skill.skillId) where
  leaves := Leaves.congr (h.leaves.of_files_report rfl rfl)
    (fun e _ ↦ by rw [released_skip hevicts]) fun e _ ↦ by rw [released_skip hevicts]
  counts k := by
    rw [evictAll_append_singleton, hevicts]
    exact h.counts k
  store := by
    rw [evictAll_append_singleton, hevicts]
    exact h.store
  before := h.before

theorem Evicting.evict {pass : CachePass} (h : Evicting rt start inventory pre pass)
    (hpre : pre ++ [skill] <+: rt.listCacheSkills start)
    (hevicts : rt.evicts start skill = true) :
    Evicting rt start inventory (pre ++ [skill])
      ((rt.visits (rt.closure skill.snapshotHash)).foldl
        (rt.releaseBlob inventory skill.skillId)
        { pass with
          store := rt.evictAll start (pre ++ [skill])
          report := { pass.report with
            evictedSkills := pass.report.evictedSkills ++ [skill.skillId] } }) := by
  have hvisits := rt.visits_perm (rt.closure skill.snapshotHash)
  have hclaimed : Leaves inventory (fun k ↦ rt.released start pre k && rt.deletes .eviction k)
      (fun k ↦ rt.released start pre k && rt.frees .eviction k)
      { pass with
        store := rt.evictAll start (pre ++ [skill])
        report := { pass.report with
          evictedSkills := pass.report.evictedSkills ++ [skill.skillId] } } :=
    h.leaves.of_files_report rfl rfl
  have hreleases := hclaimed.releaseAll rt skill.skillId
    (rt.refCount (rt.evictAll start (pre ++ [skill])))
    (hvisits.nodup_iff.mpr (nodup_closure skill.snapshotHash))
    (fun hash hhash ↦ by
      have hcount := refCount_next hpre hevicts hash
      rw [if_pos (hvisits.mem_iff.mp hhash), ← h.counts hash] at hcount
      cases hstored : pass.counts hash with
      | none => simp [hstored] at hcount
      | some count => simpa [hstored] using hcount)
    fun hash hhash ↦ by rw [released_before hpre hevicts (hvisits.mem_iff.mp hhash)]; rfl
  refine ⟨hreleases.leaves.congr (fun e _ ↦ ?_) fun e _ ↦ ?_, fun k ↦ ?_, hreleases.store,
    hreleases.before.trans h.before⟩
  · rw [released_evict hpre hevicts, Bool.and_or_distrib_right]
    simp only [hvisits.mem_iff]
  · rw [released_evict hpre hevicts, Bool.and_or_distrib_right]
    simp only [hvisits.mem_iff]
  · rw [hreleases.counts]
    split
    case isTrue => rfl
    case isFalse hout =>
      have hcount := refCount_next hpre hevicts k
      rw [if_neg (fun hin ↦ hout (hvisits.mem_iff.mpr hin)), Nat.add_zero] at hcount
      exact (h.counts k).trans hcount

/-! ## The end of the loop -/

theorem mem_unresolvedSnapshots {snapshots : List String} {snapshotHash : String} :
    snapshotHash ∈ rt.unresolvedSnapshots snapshots ↔
      snapshotHash ∈ snapshots ∧ rt.readable snapshotHash = false := by
  simp [unresolvedSnapshots, (rt.visits_perm _).mem_iff]

/-- The snapshot of a mirror that is there is counted. -/
theorem mem_protectedSnapshots {row : LocalSkill} (hrow : row ∈ start.skills.rows)
    (hstate : row.syncState ≠ .remoteOnly) : row.currentBlobHash ∈ protectedSnapshots start := by
  refine List.mem_append_left _ (List.mem_append_left _ (List.mem_map_of_mem ?_))
  exact List.mem_filter.mpr ⟨hrow, by simpa using hstate⟩

/-- One turn of the loop: a candidate is evicted or skipped. -/
theorem evictCandidates_cons {rest : List CacheSkillRecord} {pass : CachePass}
    (hskill : skill ∈ rt.listCacheSkills start) :
    rt.evictCandidates start inventory (skill :: rest) pass =
      if pass.report.afterBytes ≤ rt.maxBytes then (pass, none)
      else if rt.evicts start skill then
        match rt.claimFault skill.skillId with
        | some error => (pass, some (.localStore error))
        | none =>
          match pass.store.claimSkillForEviction skill.skillId skill.snapshotHash with
          | (_, false) => rt.evictCandidates start inventory rest (pass.skip skill.skillId)
          | (store, true) =>
            rt.evictCandidates start inventory rest
              ((rt.visits (rt.closure skill.snapshotHash)).foldl
                (rt.releaseBlob inventory skill.skillId)
                { pass with
                  store
                  report := { pass.report with
                    evictedSkills := pass.report.evictedSkills ++ [skill.skillId] } })
      else rt.evictCandidates start inventory rest (pass.skip skill.skillId) := by
  obtain ⟨row, hrow, rfl⟩ := List.mem_map.mp ((listCacheSkills_perm start).mem_iff.mp hskill)
  rw [evictCandidates]
  refine ite_congr rfl (fun _ ↦ rfl) fun _ ↦ ?_
  cases hevictable : rt.isEvictable (start.deployments.rows.map SkillDeployment.skillId)
      (rt.cacheRecord row) with
  | false => simp [evicts, hevictable]
  | true =>
    have hsynced : row.syncState = .synced := (of_decide_eq_true hevictable).1
    have hcounted : row.currentBlobHash ∈ protectedSnapshots start :=
      mem_protectedSnapshots hrow (by rw [hsynced]; decide)
    cases hreadable : rt.readable row.currentBlobHash with
    | false =>
      have hunresolved := mem_unresolvedSnapshots.mpr ⟨hcounted, hreadable⟩
      simp [evicts, hevictable, hunresolved, hreadable]
    | true =>
      have hresolved : row.currentBlobHash ∉ rt.unresolvedSnapshots (protectedSnapshots start) :=
        fun h ↦ by simp [(mem_unresolvedSnapshots.mp h).2] at hreadable
      have hfault : rt.manifestFault row.currentBlobHash = none := by
        simpa [readable] using hreadable
      have hclosure : rt.closure? (protectedSnapshots start) row.currentBlobHash =
          some (rt.closure row.currentBlobHash) := by
        simp [closure?, hcounted, snapshotClosure, hfault, Except.toOption]
      cases hpath : rt.pathMayExistAtClaim row.workspacePath with
      | true => simp [evicts, hevictable, hresolved, hclosure, hreadable, hpath]
      | false =>
        cases hfault : rt.claimFault row.id with
        | some error => simp [evicts, hevictable, hresolved, hclosure, hreadable, hpath, hfault]
        | none =>
          rcases hclaim : pass.store.claimSkillForEviction row.id row.currentBlobHash with
            ⟨store, _ | _⟩
          · simp [evicts, hevictable, hresolved, hclosure, hreadable, hpath, hfault, hclaim]
          · simp [evicts, hevictable, hresolved, hclosure, hreadable, hpath, hfault, hclaim]

variable (rt start inventory) in
/-- The first stage ends after these candidates: with an error exactly when the next claim
fails. -/
structure Stops (done : List CacheSkillRecord) (error : Option CacheManagerError) : Prop where
  completes : Completes rt start inventory done
  failed : error.isSome = true → ∃ skill, done ++ [skill] <+: rt.listCacheSkills start ∧
    rt.maxBytes < rt.bytesLeft start inventory done ∧ rt.evicts start skill = true ∧
    rt.claimFault skill.skillId ≠ none
  ended : error = none → done = rt.listCacheSkills start ∨
    rt.bytesLeft start inventory done ≤ rt.maxBytes

theorem Completes.next (h : Completes rt start inventory pre)
    (hpre : pre ++ [skill] <+: rt.listCacheSkills start)
    (habove : rt.maxBytes < rt.bytesLeft start inventory pre)
    (hclaim : rt.evicts start skill = true → rt.claimFault skill.skillId = none) :
    Completes rt start inventory (pre ++ [skill]) := by
  refine ⟨hpre, fun earlier other hother ↦ ?_⟩
  rcases List.prefix_concat_iff.mp hother with heq | hold
  · obtain ⟨rfl, hlast⟩ := List.append_inj' heq rfl
    cases hlast
    exact ⟨habove, hclaim⟩
  · exact h.2 earlier other hold

theorem evictCandidates_spec {rest : List CacheSkillRecord} {pass : CachePass}
    (hrest : pre ++ rest = rt.listCacheSkills start) (hpre : Completes rt start inventory pre)
    (h : Evicting rt start inventory pre pass) :
    ∃ done, Stops rt start inventory done (rt.evictCandidates start inventory rest pass).2 ∧
      Evicting rt start inventory done (rt.evictCandidates start inventory rest pass).1 := by
  -- Induction on the candidates that are left; `Evicting` carries what the others did.
  induction rest generalizing pre pass with
  | nil =>
    exact ⟨pre, ⟨hpre, fun herror ↦ by simp [evictCandidates] at herror,
      fun _ ↦ .inl (by simpa using hrest)⟩, h⟩
  | cons skill rest ih =>
    have hinitial : pre ++ [skill] <+: rt.listCacheSkills start := ⟨rest, by simpa using hrest⟩
    have hrest' : (pre ++ [skill]) ++ rest = rt.listCacheSkills start := by simpa using hrest
    have hbytes : pass.report.afterBytes = rt.bytesLeft start inventory pre := h.leaves.bytes
    rw [evictCandidates_cons (hinitial.subset (by simp)), hbytes]
    by_cases hwithin : rt.bytesLeft start inventory pre ≤ rt.maxBytes
    · rw [if_pos hwithin]
      exact ⟨pre, ⟨hpre, nofun, fun _ ↦ .inr hwithin⟩, h⟩
    rw [if_neg hwithin]
    have habove := Nat.lt_of_not_le hwithin
    cases hevicts : rt.evicts start skill with
    | false =>
      exact ih hrest' (hpre.next hinitial habove fun htrue ↦ by simp [hevicts] at htrue)
        (h.skip hevicts)
    | true =>
      rw [if_pos rfl]
      cases hclaim : rt.claimFault skill.skillId with
      | some error =>
        exact ⟨pre, ⟨hpre, fun _ ↦ ⟨skill, hinitial, habove, hevicts, by simp [hclaim]⟩, nofun⟩, h⟩
      | none =>
        dsimp only
        rw [h.store, (evictAll_next hinitial hevicts).1]
        exact ih hrest' (hpre.next hinitial habove fun _ ↦ hclaim) (h.evict hinitial hevicts)

end CacheRuntime

end Cache

end SkillHive
