import SkillHive.Cache.Enforcement

/-!
# What the counts of a pass stand for

The count of a blob is the number of counted snapshots, with multiplicity, whose manifest
can be read and whose closure has the blob. A claim takes one snapshot off the catalog, and
the release of its closure takes one off the count of each of its blobs.
-/

namespace SkillHive

open Foundation LocalStore

namespace Cache

namespace CacheRuntime

variable (rt : CacheRuntime)

/-- The manifest of the snapshot can be read and its closure has the blob. -/
def names (hash snapshotHash : String) : Bool :=
  rt.readable snapshotHash && decide (hash ∈ rt.closure snapshotHash)

/-- The counted snapshots that name the blob. -/
def refCount (store : LocalStore) (hash : String) : ℕ :=
  (protectedSnapshots store).countP (rt.names hash)

/-- The skill is evicted when its turn comes and its claim does not fail. -/
def evicts (start : LocalStore) (skill : CacheSkillRecord) : Bool :=
  rt.isEvictable (start.deployments.rows.map SkillDeployment.skillId) skill &&
    (rt.readable skill.snapshotHash && !rt.pathMayExistAtClaim skill.workspacePath)

/-- The catalog when the skills to evict among these have been claimed. -/
def evictAll (start : LocalStore) (skills : List CacheSkillRecord) : LocalStore :=
  (skills.filter (rt.evicts start)).foldl
    (fun store skill ↦ (store.claimSkillForEviction skill.skillId skill.snapshotHash).1) start

variable {rt}

theorem nodup_closure (snapshotHash : String) : (rt.closure snapshotHash).Nodup :=
  List.nodup_dedup _

theorem refCount_eq_zero_iff {store : LocalStore} {hash : String} :
    rt.refCount store hash = 0 ↔ ∀ s ∈ protectedSnapshots store, rt.names hash s = false := by
  simp [refCount, List.countP_eq_zero]

/-! ## The first count -/

theorem foldl_addReferences {refs : ℕ} {hashes : List String} (hnodup : hashes.Nodup)
    (counts : String → Option ℕ) (hash : String) :
    ((hashes.foldl (addReferences refs) counts) hash).getD 0 =
      (counts hash).getD 0 + if hash ∈ hashes then refs else 0 := by
  induction hashes generalizing counts with
  | nil => simp
  | cons first hashes ih =>
    obtain ⟨hfirst, hrest⟩ := List.nodup_cons.mp hnodup
    rw [List.foldl_cons, ih hrest]
    by_cases heq : hash = first
    · subst heq
      simp [addReferences, hfirst]
    · simp [addReferences, heq]

theorem foldl_snapshots (weight : String → ℕ) (snapshots : List String)
    (counts : String → Option ℕ) (hash : String) :
    ((snapshots.foldl (fun counts snapshotHash ↦
      match rt.snapshotClosure snapshotHash with
      | .error _ => counts
      | .ok closure => (rt.visits closure).foldl (addReferences (weight snapshotHash)) counts)
      counts) hash).getD 0 =
        (counts hash).getD 0 + ((snapshots.filter (rt.names hash)).map weight).sum := by
  induction snapshots generalizing counts with
  | nil => simp
  | cons snapshotHash snapshots ih =>
    rw [List.foldl_cons, ih]
    cases hfault : rt.manifestFault snapshotHash with
    | some error =>
      have hnames : rt.names hash snapshotHash = false := by simp [names, readable, hfault]
      simp [snapshotClosure, hfault, hnames]
    | none =>
      have hvisits := rt.visits_perm (rt.closure snapshotHash)
      have hnodup := hvisits.nodup_iff.mpr (nodup_closure snapshotHash)
      simp only [snapshotClosure, hfault, foldl_addReferences hnodup, hvisits.mem_iff,
        List.filter_cons, names, readable, Option.isNone_none, Bool.true_and, decide_eq_true_eq]
      split <;> simp [Nat.add_assoc]

theorem referenceCounts_getD (snapshots : List String) (hash : String) :
    ((rt.referenceCounts snapshots) hash).getD 0 = snapshots.countP (rt.names hash) := by
  have hperm := (rt.visits_perm snapshots.dedup).filter (rt.names hash)
  unfold referenceCounts
  refine (foldl_snapshots (fun s ↦ snapshots.count s) _ _ hash).trans ?_
  rw [(hperm.map fun s ↦ snapshots.count s).sum_eq, List.sum_map_count_dedup_filter_eq_countP]
  exact Nat.zero_add _

/-! ## One claim -/

/-- Demoting a row takes its snapshot off the list. -/
theorem protectedSnapshots_demote {store : LocalStore} {row : LocalSkill}
    (hrow : store.skill? row.id = some row) (hstate : row.syncState ≠ .remoteOnly) :
    (protectedSnapshots store).Perm (row.currentBlobHash :: protectedSnapshots { store with
      skills := store.skills.modify row.id fun row ↦ { row with syncState := .remoteOnly } }) := by
  obtain ⟨before, after, hrows, hdemoted⟩ := @Table.exists_rows_modify _ _ _ _ _ row.id row hrow
    (fun row ↦ { row with syncState := .remoteOnly }) (fun _ ↦ rfl)
  unfold protectedSnapshots
  dsimp only
  rw [hrows, hdemoted]
  simp only [List.filter_append, List.filter_cons, List.map_append, List.append_assoc]
  simp only [ne_eq, hstate, not_false_eq_true, decide_true, if_true, List.map_cons,
    not_true_eq_false, decide_false, Bool.false_eq_true, if_false, List.cons_append]
  exact List.perm_middle

/-- The claim of a skill to evict goes through as long as its row and the deployments are
those that the pass began with. -/
theorem claim_of_evicts {start store : LocalStore} {row : LocalSkill}
    (hevicts : rt.evicts start (rt.cacheRecord row) = true) (hrow : store.skill? row.id = some row)
    (hdeployments : store.deployments = start.deployments) :
    store.claimSkillForEviction row.id row.currentBlobHash = ({ store with
      skills := store.skills.modify row.id fun row ↦ { row with syncState := .remoteOnly } },
      true) := by
  obtain ⟨hevictable, -⟩ := Bool.and_eq_true_iff.mp hevicts
  obtain ⟨hsynced, hpinned, hremote, hdeployed, -⟩ := of_decide_eq_true hevictable
  have hclaimable : store.isEvictable row row.currentBlobHash = true := by
    refine decide_eq_true ⟨rfl, hremote, hsynced, hpinned, fun d hd hskill ↦ ?_⟩
    rw [hdeployments] at hd
    exact absurd (List.mem_map.mpr ⟨d, hd, hskill⟩) hdeployed
  unfold claimSkillForEviction
  rw [hrow]
  exact if_pos hclaimable

section Candidates

variable {start : LocalStore} {pre : List CacheSkillRecord} {skill : CacheSkillRecord}

theorem evictAll_append_singleton :
    rt.evictAll start (pre ++ [skill]) =
      if rt.evicts start skill then
        ((rt.evictAll start pre).claimSkillForEviction skill.skillId skill.snapshotHash).1
      else rt.evictAll start pre := by
  unfold evictAll
  rw [List.filter_append, List.foldl_append]
  split
  case isTrue h => rw [List.filter_cons_of_pos h]; rfl
  case isFalse h => rw [List.filter_cons_of_neg h]; rfl

/-- The claims touch the rows of their skills only. -/
theorem evictAll_frame (pre : List CacheSkillRecord) :
    (rt.evictAll start pre).deployments = start.deployments ∧
      ∀ k ∉ pre.map CacheSkillRecord.skillId,
        (rt.evictAll start pre).skill? k = start.skill? k := by
  induction pre using List.reverseRecOn with
  | nil => exact ⟨rfl, fun _ _ ↦ rfl⟩
  | append_singleton pre skill ih =>
    obtain ⟨hdeployments, hrows⟩ := ih
    rw [evictAll_append_singleton]
    simp only [List.map_append, List.mem_append, not_or, List.map_cons, List.map_nil,
      List.mem_singleton]
    split
    case isFalse => exact ⟨hdeployments, fun k hk ↦ hrows k hk.1⟩
    case isTrue =>
      rcases claimSkillForEviction_spec (rt.evictAll start pre) skill.skillId
        skill.snapshotHash with hsame | ⟨row, -, -, hclaimed⟩
      · rw [hsame]
        exact ⟨hdeployments, fun k hk ↦ hrows k hk.1⟩
      · rw [hclaimed]
        refine ⟨hdeployments, fun k hk ↦ ?_⟩
        rw [skill?, Table.get?_modify_of_ne _ _ hk.2]
        exact hrows k hk.1

theorem listCacheSkills_perm (start : LocalStore) :
    (rt.listCacheSkills start).Perm (start.skills.rows.map rt.cacheRecord) :=
  List.perm_insertionSort accessOrder _

theorem nodup_listCacheSkills (start : LocalStore) :
    ((rt.listCacheSkills start).map CacheSkillRecord.skillId).Nodup := by
  rw [((listCacheSkills_perm start).map CacheSkillRecord.skillId).nodup_iff, List.map_map]
  exact start.skills.nodup_keys

/-- The row of a candidate whose turn comes is as the pass found it. -/
theorem evictAll_candidate (hpre : pre ++ [skill] <+: rt.listCacheSkills start) :
    ∃ row, skill = rt.cacheRecord row ∧ (rt.evictAll start pre).skill? row.id = some row := by
  obtain ⟨row, hrow, rfl⟩ : ∃ row ∈ start.skills.rows, rt.cacheRecord row = skill := by
    have hmem : skill ∈ rt.listCacheSkills start := hpre.subset (by simp)
    exact List.mem_map.mp ((listCacheSkills_perm start).mem_iff.mp hmem)
  refine ⟨row, rfl, ?_⟩
  have hnodup : ((pre ++ [rt.cacheRecord row]).map CacheSkillRecord.skillId).Nodup :=
    (nodup_listCacheSkills start).sublist (hpre.sublist.map _)
  have hfresh : row.id ∉ pre.map CacheSkillRecord.skillId := by
    rw [List.map_append, List.nodup_append] at hnodup
    exact fun hold ↦ hnodup.2.2 row.id hold row.id (by simp [cacheRecord]) rfl
  rw [(evictAll_frame pre).2 row.id hfresh]
  exact Table.get?_of_mem hrow

/-- The eviction of the next candidate goes through and takes its snapshot off the list. -/
theorem evictAll_next (hpre : pre ++ [skill] <+: rt.listCacheSkills start)
    (hevicts : rt.evicts start skill = true) :
    (rt.evictAll start pre).claimSkillForEviction skill.skillId skill.snapshotHash =
        (rt.evictAll start (pre ++ [skill]), true) ∧
      (protectedSnapshots (rt.evictAll start pre)).Perm
        (skill.snapshotHash :: protectedSnapshots (rt.evictAll start (pre ++ [skill]))) := by
  obtain ⟨row, rfl, hrow⟩ := evictAll_candidate hpre
  have hclaim := claim_of_evicts hevicts hrow (evictAll_frame pre).1
  have hsynced : row.syncState = .synced :=
    (of_decide_eq_true (Bool.and_eq_true_iff.mp hevicts).1).1
  have hnext : rt.evictAll start (pre ++ [rt.cacheRecord row]) = { rt.evictAll start pre with
      skills := (rt.evictAll start pre).skills.modify row.id fun row ↦
        { row with syncState := .remoteOnly } } := by
    rw [evictAll_append_singleton, if_pos hevicts]
    exact congrArg Prod.fst hclaim
  rw [hnext]
  exact ⟨hclaim, protectedSnapshots_demote hrow (by rw [hsynced]; decide)⟩

/-- The eviction takes one off the count of every blob of the closure. -/
theorem refCount_next (hpre : pre ++ [skill] <+: rt.listCacheSkills start)
    (hevicts : rt.evicts start skill = true) (hash : String) :
    rt.refCount (rt.evictAll start pre) hash =
      rt.refCount (rt.evictAll start (pre ++ [skill])) hash +
        if hash ∈ rt.closure skill.snapshotHash then 1 else 0 := by
  have hreadable : rt.readable skill.snapshotHash = true :=
    (Bool.and_eq_true_iff.mp (Bool.and_eq_true_iff.mp hevicts).2).1
  rw [refCount, (evictAll_next hpre hevicts).2.countP_eq, List.countP_cons, refCount]
  simp [names, hreadable]

end Candidates

end CacheRuntime

end Cache

end SkillHive
