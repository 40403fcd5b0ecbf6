import SkillHive.Cache.Candidates
import SkillHive.Foundation.Lists

/-!
# What a pass owes to protected snapshots

A pass should delete no file of a snapshot that is still protected when it ends, and the
bytes that it reports as left should be those it found less those it deleted. The first
stage decides by the counts alone, and a snapshot that cannot be read is not in them; and
bytes that are gone stay in the report when their directory could not be synced.
-/

namespace SkillHive

open Foundation LocalStore

namespace Cache

/-- The files that a pass has deleted. -/
def CacheOutcome.deleted (outcome : CacheOutcome) (inventory : BlobInventory) :
    List BlobInventoryEntry :=
  inventory.rows.filter fun entry ↦ (outcome.files.get? entry.hash).isNone

namespace CacheRuntime

variable (rt : CacheRuntime)

/-- The contract of the cache, for one pass. -/
structure KeepsContract (inventory : BlobInventory) (outcome : CacheOutcome) : Prop where
  spared : ∀ entry ∈ outcome.deleted inventory, ∀ s ∈ protectedSnapshots outcome.store,
    entry.hash ∉ rt.closure s
  accounted : ∀ report, outcome.result = .ok report →
    report.afterBytes = report.beforeBytes - totalBytes (outcome.deleted inventory)

/-! ## The stages, told from what the pass is given -/

/-- The cache can be listed and its size fits in 64 bits. The reads before that, of the policy, the
skills, the deployments and the mutations, do not fail here. -/
def Starts (inventory : BlobInventory) : Prop :=
  rt.scanFault = none ∧ totalBytes inventory.rows < 2 ^ 64

/-- No claim fails at its turn. -/
def Finishes (start : LocalStore) (inventory : BlobInventory) : Prop :=
  ∀ pre skill, rt.Completes start inventory pre → pre ++ [skill] <+: rt.listCacheSkills start →
    rt.maxBytes < rt.bytesLeft start inventory pre → rt.evicts start skill = true →
      rt.claimFault skill.skillId = none

/-- Removing the file leaves it counted. -/
def losesCount (stage : Stage) (hash : String) : Bool :=
  rt.deletes stage hash && !rt.frees stage hash

/-- The catalog after the first stage, when it gets through all candidates. -/
def evicted (start : LocalStore) : LocalStore := rt.evictAll start (rt.listCacheSkills start)

/-- The first stage releases the file and its removal deletes it. -/
def goneFirst (start : LocalStore) (pre : List CacheSkillRecord) (hash : String) : Bool :=
  rt.released start pre hash && rt.deletes .eviction hash

/-- The sweep has come to the file and nothing refers to it. -/
def swept (start : LocalStore) (seen : List BlobInventoryEntry) (hash : String) : Bool :=
  decide (hash ∈ seen.map BlobInventoryEntry.hash) && decide (rt.refCount (rt.evicted start) hash = 0)

/-- The bytes that the report counts when the sweep has seen these entries. -/
def sweepBytesLeft (start : LocalStore) (inventory : BlobInventory)
    (seen : List BlobInventoryEntry) : ℕ :=
  totalBytes (inventory.rows.filter fun entry ↦
    !(rt.released start (rt.listCacheSkills start) entry.hash && rt.frees .eviction entry.hash ||
      rt.swept start seen entry.hash &&
        (!rt.goneFirst start (rt.listCacheSkills start) entry.hash && rt.frees .sweep entry.hash)))

/-- The second stage comes to the entry after these: the first one got through all candidates,
every protected manifest can be read, and the cache is still above its budget. -/
structure SweepsTo (start : LocalStore) (inventory : BlobInventory)
    (seen : List BlobInventoryEntry) (entry : BlobInventoryEntry) : Prop where
  completes : rt.Completes start inventory (rt.listCacheSkills start)
  readable : ∀ s ∈ protectedSnapshots start, rt.readable s = true
  next : seen ++ [entry] <+: rt.inventoryValues inventory
  above : ∀ earlier, earlier <+: seen → rt.maxBytes < rt.sweepBytesLeft start inventory earlier

/-- No eviction takes the last counted reference from a file of a protected snapshot that
cannot be read, and no file with bytes is deleted without its directory being synced. -/
structure SparesUnresolved (start : LocalStore) (inventory : BlobInventory) : Prop where
  spares : ∀ pre, rt.Completes start inventory pre → ∀ entry ∈ inventory,
    rt.goneFirst start pre entry.hash = true → ∀ s ∈ protectedSnapshots start,
      rt.readable s = false → entry.hash ∉ rt.closure s
  evictions : rt.Finishes start inventory → ∀ pre, rt.Completes start inventory pre →
    ∀ entry ∈ inventory, rt.released start pre entry.hash = true →
      rt.losesCount .eviction entry.hash = true → entry.sizeBytes = 0
  sweep : rt.Finishes start inventory → ∀ seen entry, rt.SweepsTo start inventory seen entry →
    rt.refCount (rt.evicted start) entry.hash = 0 →
      rt.goneFirst start (rt.listCacheSkills start) entry.hash = false →
        rt.losesCount .sweep entry.hash = true → entry.sizeBytes = 0

variable {rt} {start : LocalStore} {inventory : BlobInventory}
  {pre done : List CacheSkillRecord} {error : Option CacheManagerError}

/-! ## The end of the first stage -/

/-- Nothing that the first stage gets through lies beyond its end. -/
theorem Stops.isPrefix (h : Stops rt start inventory done error)
    (hpre : rt.Completes start inventory pre) : pre <+: done := by
  rcases List.prefix_or_prefix_of_prefix hpre.1 h.completes.1 with hshort | hlong
  · exact hshort
  cases error with
  | some error =>
    obtain ⟨skill, hskill, -, hevicts, hfails⟩ := h.failed rfl
    rcases prefix_eq_or_next hlong hpre.1 hskill with rfl | hnext
    · exact hlong
    · exact absurd ((hpre.2 done skill hnext).2 hevicts) hfails
  | none =>
    rcases h.ended rfl with hall | hwithin
    · exact hall ▸ hpre.1
    · obtain ⟨more, rfl⟩ := hlong
      cases more with
      | nil => simp
      | cons skill more =>
        have habove := (hpre.2 done skill ⟨more, by simp⟩).1
        omega

/-- The pass has no error exactly when every claim goes through. -/
theorem Stops.finishes_iff (h : Stops rt start inventory done error) :
    rt.Finishes start inventory ↔ error = none := by
  constructor
  · intro hfinishes
    cases error with
    | none => rfl
    | some error =>
      obtain ⟨skill, hskill, habove, hevicts, hfails⟩ := h.failed rfl
      exact absurd (hfinishes done skill h.completes hskill habove hevicts) hfails
  · rintro rfl pre skill hpre hskill habove hevicts
    rcases prefix_eq_or_next (h.isPrefix hpre) h.completes.1 hskill with rfl | hnext
    · rcases h.ended rfl with hall | hwithin
      · have hlength := hskill.length_le
        rw [← hall, List.length_append, List.length_singleton] at hlength
        omega
      · omega
    · exact (h.completes.2 pre skill hnext).2 hevicts

/-- The first stage gets through all candidates and is still above the budget, or it is not
the sweep's turn. -/
theorem Stops.all_of_above (h : Stops rt start inventory done none)
    (habove : rt.maxBytes < rt.bytesLeft start inventory done) :
    done = rt.listCacheSkills start := by
  rcases h.ended rfl with hall | hwithin
  · exact hall
  · omega

/-- The evictions take no snapshot off the list that cannot be read. -/
theorem mem_protectedSnapshots_evictAll (hpre : pre <+: rt.listCacheSkills start) {s : String}
    (hreadable : rt.readable s = false) :
    s ∈ protectedSnapshots (rt.evictAll start pre) ↔ s ∈ protectedSnapshots start := by
  induction pre using List.reverseRecOn with
  | nil => rfl
  | append_singleton pre skill ih =>
    rw [← ih ((List.prefix_append _ _).trans hpre)]
    cases hevicts : rt.evicts start skill with
    | false => rw [evictAll_append_singleton, hevicts]; rfl
    | true =>
      have hne : s ≠ skill.snapshotHash := by
        rintro rfl
        have hread := (Bool.and_eq_true_iff.mp (Bool.and_eq_true_iff.mp hevicts).2).1
        rw [hreadable] at hread
        cases hread
      rw [(evictAll_next hpre hevicts).2.mem_iff, List.mem_cons, or_iff_right hne]

theorem mem_protectedSnapshots_of_evictAll (hpre : pre <+: rt.listCacheSkills start) {s : String}
    (hs : s ∈ protectedSnapshots (rt.evictAll start pre)) : s ∈ protectedSnapshots start := by
  induction pre using List.reverseRecOn with
  | nil => exact hs
  | append_singleton pre skill ih =>
    refine ih ((List.prefix_append _ _).trans hpre) ?_
    cases hevicts : rt.evicts start skill with
    | false =>
      rw [evictAll_append_singleton, hevicts] at hs
      exact hs
    | true => exact (evictAll_next hpre hevicts).2.mem_iff.mpr (List.mem_cons_of_mem _ hs)

/-- A released file is in no protected closure that can be read. -/
theorem not_mem_closure_of_released {hash s : String} (h : rt.released start pre hash = true)
    (hs : s ∈ protectedSnapshots (rt.evictAll start pre)) (hreadable : rt.readable s = true) :
    hash ∉ rt.closure s := by
  have hzero := of_decide_eq_true (Bool.and_eq_true_iff.mp h).2
  have hnames := refCount_eq_zero_iff.mp hzero s hs
  simpa [names, hreadable] using hnames

/-! ## The sweep -/

/-- The files that are gone, and those counted out, when the sweep has seen the entries. -/
def Swept (rt : CacheRuntime) (start : LocalStore) (inventory : BlobInventory)
    (seen : List BlobInventoryEntry) (pass : CachePass) : Prop :=
  Leaves inventory
    (fun k ↦ rt.goneFirst start (rt.listCacheSkills start) k ||
      rt.swept start seen k && rt.deletes .sweep k)
    (fun k ↦ rt.released start (rt.listCacheSkills start) k && rt.frees .eviction k ||
      rt.swept start seen k &&
        (!rt.goneFirst start (rt.listCacheSkills start) k && rt.frees .sweep k)) pass

variable (rt) in
theorem inventoryValues_perm (inventory : BlobInventory) :
    (rt.inventoryValues inventory).Perm inventory.rows := by
  refine ((rt.visits_perm _).filterMap inventory.get?).trans ?_
  rw [List.filterMap_map]
  have hfound : ∀ entry ∈ inventory.rows,
      (inventory.get? ∘ BlobInventoryEntry.hash) entry = some entry :=
    fun entry hentry ↦ Table.get?_of_mem hentry
  rw [List.filterMap_congr hfound, List.filterMap_some]

variable {seen : List BlobInventoryEntry} {entry : BlobInventoryEntry} {pass : CachePass}

/-- An entry that the sweep comes to is of the inventory and not seen before. -/
theorem inventoryValues_next (h : seen ++ [entry] <+: rt.inventoryValues inventory) :
    entry ∈ inventory ∧ entry.hash ∉ seen.map BlobInventoryEntry.hash := by
  have hperm := inventoryValues_perm rt inventory
  have hnodup : ((seen ++ [entry]).map BlobInventoryEntry.hash).Nodup :=
    ((hperm.map BlobInventoryEntry.hash).nodup_iff.mpr inventory.nodup_keys).sublist
      (h.sublist.map _)
  rw [List.map_append, List.nodup_append] at hnodup
  exact ⟨hperm.mem_iff.mp (h.subset (by simp)),
    fun hold ↦ hnodup.2.2 entry.hash hold entry.hash (by simp) rfl⟩

theorem swept_append_singleton (hash : String) :
    rt.swept start (seen ++ [entry]) hash = (rt.swept start seen hash ||
      decide (hash = entry.hash ∧ rt.refCount (rt.evicted start) hash = 0)) := by
  by_cases hzero : rt.refCount (rt.evicted start) hash = 0 <;> simp [swept, hzero]

theorem Swept.skip (h : Swept rt start inventory seen pass)
    (hreferenced : rt.refCount (rt.evicted start) entry.hash ≠ 0) :
    Swept rt start inventory (seen ++ [entry]) pass := by
  have hsame : ∀ k, rt.swept start (seen ++ [entry]) k = rt.swept start seen k := by
    intro k
    rw [swept_append_singleton]
    by_cases hk : k = entry.hash <;> simp [hk, hreferenced]
  exact Leaves.congr h (fun e _ ↦ by rw [hsame]) fun e _ ↦ by rw [hsame]

theorem Swept.delete (h : Swept rt start inventory seen pass) (note : String → String)
    (hnext : seen ++ [entry] <+: rt.inventoryValues inventory)
    (horphan : rt.refCount (rt.evicted start) entry.hash = 0) :
    Swept rt start inventory (seen ++ [entry]) (rt.deleteBlob .sweep note pass entry) := by
  obtain ⟨hentry, hnew⟩ := inventoryValues_next hnext
  have hunseen : rt.swept start seen entry.hash = false := by simp [swept, hnew]
  refine (Leaves.deleteBlob h hentry .sweep note).congr (fun e _ ↦ ?_) fun e _ ↦ ?_ <;>
    rw [swept_append_singleton] <;> by_cases hk : e.hash = entry.hash
  · simp [hk, horphan, hunseen]
  · simp [hk]
  · simp [hk, horphan, hunseen]
  · simp [hk]

variable (rt start inventory) in
/-- The sweep ends when it has seen these entries. -/
structure SweepStops (seen : List BlobInventoryEntry) : Prop where
  prefix_values : seen <+: rt.inventoryValues inventory
  above : ∀ earlier entry, earlier ++ [entry] <+: seen →
    rt.maxBytes < rt.sweepBytesLeft start inventory earlier
  ended : seen = rt.inventoryValues inventory ∨
    rt.sweepBytesLeft start inventory seen ≤ rt.maxBytes

theorem sweepOrphans_spec {rest : List BlobInventoryEntry}
    (hrest : seen ++ rest = rt.inventoryValues inventory)
    (habove : ∀ earlier entry, earlier ++ [entry] <+: seen →
      rt.maxBytes < rt.sweepBytesLeft start inventory earlier)
    (hcounts : ∀ k, (pass.counts k).getD 0 = rt.refCount (rt.evicted start) k)
    (h : Swept rt start inventory seen pass) :
    ∃ last, SweepStops rt start inventory last ∧
      Swept rt start inventory last (rt.sweepOrphans rest pass) ∧
      (rt.sweepOrphans rest pass).store = pass.store ∧
      (rt.sweepOrphans rest pass).report.beforeBytes = pass.report.beforeBytes := by
  -- Induction on the entries that are left; `Swept` carries what became of the others.
  induction rest generalizing seen pass with
  | nil =>
    have hall : seen = rt.inventoryValues inventory := by simpa using hrest
    exact ⟨seen, ⟨hall ▸ List.prefix_refl _, habove, .inl hall⟩, h, rfl, rfl⟩
  | cons entry rest ih =>
    have hnext : seen ++ [entry] <+: rt.inventoryValues inventory := ⟨rest, by simpa using hrest⟩
    have hrest' : (seen ++ [entry]) ++ rest = rt.inventoryValues inventory := by
      simpa using hrest
    have hbytes : pass.report.afterBytes = rt.sweepBytesLeft start inventory seen := h.bytes
    rw [sweepOrphans, hbytes]
    split
    case isTrue hwithin =>
      exact ⟨seen, ⟨(List.prefix_append _ _).trans hnext, habove, .inr hwithin⟩, h, rfl, rfl⟩
    case isFalse hover =>
      have habove' : ∀ earlier other, earlier ++ [other] <+: seen ++ [entry] →
          rt.maxBytes < rt.sweepBytesLeft start inventory earlier := by
        intro earlier other hother
        rcases List.prefix_concat_iff.mp hother with heq | hold
        · obtain ⟨rfl, -⟩ := List.append_inj' heq rfl
          exact Nat.lt_of_not_le hover
        · exact habove earlier other hold
      split
      case isTrue hreferenced =>
        have hpositive := of_decide_eq_true hreferenced
        rw [hcounts] at hpositive
        exact ih hrest' habove' hcounts (h.skip hpositive.ne')
      case isFalse horphan =>
        have hzero : rt.refCount (rt.evicted start) entry.hash = 0 := by
          simpa [isReferenced, hcounts] using horphan
        obtain ⟨hsame, hstore, hbefore⟩ := deleteBlob_frame rt .sweep (fun error ↦
          s!"orphan blob {entry.hash} could not be deleted: {error}") pass entry
        obtain ⟨last, hlast, hswept, hstore', hbefore'⟩ :=
          ih hrest' habove' (by rw [hsame]; exact hcounts) (h.delete _ hnext hzero)
        exact ⟨last, hlast, hswept, hstore'.trans hstore, hbefore'.trans hbefore⟩

/-! ## The end of the pass -/

variable (rt start inventory) in
theorem sweepBytesLeft_le (seen : List BlobInventoryEntry) :
    rt.sweepBytesLeft start inventory seen ≤
      rt.bytesLeft start inventory (rt.listCacheSkills start) := by
  have hsplit := totalBytes_filter_add (inventory.rows.filter fun entry ↦
      !(rt.released start (rt.listCacheSkills start) entry.hash && rt.frees .eviction entry.hash))
    fun entry ↦ !(rt.swept start seen entry.hash &&
      (!rt.goneFirst start (rt.listCacheSkills start) entry.hash && rt.frees .sweep entry.hash))
  rw [List.filter_filter] at hsplit
  unfold sweepBytesLeft bytesLeft
  simp only [Bool.not_or]
  simp only [Bool.and_comm] at hsplit ⊢
  omega

/-- The files that the pass has deleted are those that are gone. -/
theorem Leaves.deleted {gone freed : String → Bool} (h : Leaves inventory gone freed pass)
    {outcome : CacheOutcome} (hfiles : outcome.files = pass.files) :
    outcome.deleted inventory = inventory.rows.filter fun entry ↦ gone entry.hash := by
  refine List.filter_congr fun entry hentry ↦ ?_
  rw [hfiles, h.get? hentry]
  cases gone entry.hash <;> rfl

/-- How a pass that starts ends. -/
inductive Ends (rt : CacheRuntime) (start : LocalStore) (inventory : BlobInventory) :
    CacheOutcome → Prop where
  | failed {done : List CacheSkillRecord} {error : CacheManagerError} {pass : CachePass}
      (hstops : Stops rt start inventory done (some error))
      (h : Evicting rt start inventory done pass) :
      Ends rt start inventory ⟨.error error, pass.store, pass.files⟩
  | unswept {done : List CacheSkillRecord} {pass : CachePass} {report : CacheEnforcementReport}
      (hstops : Stops rt start inventory done none)
      (h : Evicting rt start inventory done pass)
      (hnone : ∀ seen entry, ¬ rt.SweepsTo start inventory seen entry)
      (hafter : report.afterBytes = pass.report.afterBytes)
      (hbefore : report.beforeBytes = pass.report.beforeBytes) :
      Ends rt start inventory ⟨.ok report, pass.store, pass.files⟩
  | swept {seen : List BlobInventoryEntry} {pass : CachePass} {report : CacheEnforcementReport}
      (hstops : Stops rt start inventory (rt.listCacheSkills start) none)
      (hreadable : ∀ s ∈ protectedSnapshots start, rt.readable s = true)
      (hsweep : SweepStops rt start inventory seen) (h : Swept rt start inventory seen pass)
      (hstore : pass.store = rt.evicted start)
      (hafter : report.afterBytes = pass.report.afterBytes)
      (hbefore : report.beforeBytes = totalBytes inventory.rows) :
      Ends rt start inventory ⟨.ok report, pass.store, pass.files⟩

theorem closingReport_bytes (report : CacheEnforcementReport) :
    (rt.closingReport report).afterBytes = report.afterBytes ∧
      (rt.closingReport report).beforeBytes = report.beforeBytes := by
  unfold closingReport
  split <;> exact ⟨rfl, rfl⟩

theorem unresolvedSnapshots_eq_nil_iff :
    rt.unresolvedSnapshots (protectedSnapshots start) = [] ↔
      ∀ s ∈ protectedSnapshots start, rt.readable s = true := by
  rw [List.eq_nil_iff_forall_not_mem]
  refine forall_congr' fun s ↦ ?_
  rw [mem_unresolvedSnapshots]
  simp

/-- Within its budget the pass has nothing to sweep. -/
theorem Stops.not_sweepsTo (h : Stops rt start inventory done none)
    (hwithin : rt.bytesLeft start inventory done ≤ rt.maxBytes) :
    ¬ rt.SweepsTo start inventory seen entry := by
  intro hsweeps
  have hall : done = rt.listCacheSkills start :=
    h.completes.1.eq_of_length_le (h.isPrefix hsweeps.completes).length_le
  have hle := sweepBytesLeft_le rt start inventory seen
  rw [← hall] at hle
  have habove := hsweeps.above seen (List.prefix_refl seen)
  omega

theorem enforceCacheBudget_ends (hstarts : rt.Starts inventory) :
    Ends rt start inventory (rt.enforceCacheBudget start inventory) := by
  obtain ⟨hscan, hsize⟩ := hstarts
  have hcompletes : rt.Completes start inventory [] := ⟨List.nil_prefix, by simp⟩
  unfold enforceCacheBudget
  simp only [hscan, if_neg (Nat.not_le.mpr hsize)]
  split
  case isTrue hwithin =>
    have hfirst : rt.bytesLeft start inventory [] ≤ rt.maxBytes := bytesLeft_nil.trans_le hwithin
    have hstops : Stops rt start inventory [] none := ⟨hcompletes, nofun, fun _ ↦ .inr hfirst⟩
    exact .unswept hstops evicting_beginPass (fun _ _ ↦ hstops.not_sweepsTo hfirst) rfl rfl
  case isFalse hover =>
    obtain ⟨done, hstops, hevicting⟩ := @evictCandidates_spec rt start inventory []
      (rt.listCacheSkills start) _ rfl hcompletes evicting_beginPass
    split
    case h_1 pass error hresult =>
      rw [hresult] at hstops hevicting
      exact .failed hstops hevicting
    case h_2 pass hresult =>
      rw [hresult] at hstops hevicting
      have hbytes : pass.report.afterBytes = rt.bytesLeft start inventory done :=
        hevicting.leaves.bytes
      dsimp only [sweepStage]
      rw [hbytes]
      split
      case isTrue hsweep =>
        obtain rfl := hstops.all_of_above hsweep.1
        have hbegin : Swept rt start inventory [] pass := by
          refine Leaves.congr hevicting.leaves (fun e _ ↦ ?_) fun e _ ↦ ?_ <;> simp [swept, goneFirst]
        obtain ⟨last, hlast, hswept, hstore, hbefore⟩ := sweepOrphans_spec
          (List.nil_append _) (by simp) hevicting.counts hbegin
        exact .swept hstops (unresolvedSnapshots_eq_nil_iff.mp hsweep.2) hlast hswept
          (hstore.trans hevicting.store) (closingReport_bytes _).1
          ((closingReport_bytes _).2.trans (hbefore.trans hevicting.before))
      case isFalse hnone =>
        refine .unswept hstops hevicting (fun seen entry hsweeps ↦ ?_) (closingReport_bytes _).1
          (closingReport_bytes _).2
        by_cases hwithin : rt.bytesLeft start inventory done ≤ rt.maxBytes
        · exact hstops.not_sweepsTo hwithin hsweeps
        · exact hnone ⟨Nat.lt_of_not_le hwithin,
            unresolvedSnapshots_eq_nil_iff.mpr hsweeps.readable⟩

/-! ## The contract -/

/-- The first stage spares the closures that are left protected exactly when it spares those
that cannot be read. -/
theorem Stops.spares_iff (h : Stops rt start inventory done error) :
    (∀ entry ∈ inventory, rt.goneFirst start done entry.hash = true →
      ∀ s ∈ protectedSnapshots (rt.evictAll start done), entry.hash ∉ rt.closure s) ↔
    ∀ pre, rt.Completes start inventory pre → ∀ entry ∈ inventory,
      rt.goneFirst start pre entry.hash = true → ∀ s ∈ protectedSnapshots start,
        rt.readable s = false → entry.hash ∉ rt.closure s := by
  constructor
  · intro hspared pre hpre entry hentry hgone s hs hunreadable
    obtain ⟨hreleased, hdeletes⟩ := Bool.and_eq_true_iff.mp hgone
    have hlater := released_mono h.completes.1 (h.isPrefix hpre) hreleased
    exact hspared entry hentry (Bool.and_eq_true_iff.mpr ⟨hlater, hdeletes⟩) s
      ((mem_protectedSnapshots_evictAll h.completes.1 hunreadable).mpr hs)
  · intro hspares entry hentry hgone s hs
    cases hreadable : rt.readable s with
    | true => exact not_mem_closure_of_released (Bool.and_eq_true_iff.mp hgone).1 hs hreadable
    | false =>
      exact hspares done h.completes entry hentry hgone s
        (mem_protectedSnapshots_of_evictAll h.completes.1 hs) hreadable

/-- Only the last state of the first stage matters for what it loses count of. -/
theorem Stops.evictions_iff (h : Stops rt start inventory done error) :
    (∀ entry ∈ inventory, rt.released start done entry.hash = true →
      rt.losesCount .eviction entry.hash = true → entry.sizeBytes = 0) ↔
    ∀ pre, rt.Completes start inventory pre → ∀ entry ∈ inventory,
      rt.released start pre entry.hash = true →
        rt.losesCount .eviction entry.hash = true → entry.sizeBytes = 0 := by
  constructor
  · intro hdone pre hpre entry hentry hreleased
    exact hdone entry hentry (released_mono h.completes.1 (h.isPrefix hpre) hreleased)
  · exact fun hall ↦ hall done h.completes

/-- The sweep loses count of the entries that it comes to. -/
theorem SweepStops.sweep_iff (h : SweepStops rt start inventory seen)
    (hstops : Stops rt start inventory (rt.listCacheSkills start) none)
    (hreadable : ∀ s ∈ protectedSnapshots start, rt.readable s = true) :
    (∀ entry ∈ inventory, rt.swept start seen entry.hash = true →
      rt.goneFirst start (rt.listCacheSkills start) entry.hash = false →
        rt.losesCount .sweep entry.hash = true → entry.sizeBytes = 0) ↔
    ∀ earlier entry, rt.SweepsTo start inventory earlier entry →
      rt.refCount (rt.evicted start) entry.hash = 0 →
        rt.goneFirst start (rt.listCacheSkills start) entry.hash = false →
          rt.losesCount .sweep entry.hash = true → entry.sizeBytes = 0 := by
  constructor
  · intro hseen earlier entry hsweeps horphan
    have hentry := (inventoryValues_next hsweeps.next).1
    have hcame : earlier ++ [entry] <+: seen := by
      rcases List.prefix_or_prefix_of_prefix hsweeps.next h.prefix_values with hcame | hbefore
      · exact hcame
      rcases List.prefix_concat_iff.mp hbefore with heq | hbefore
      · rw [heq]
      · rcases h.ended with hall | hwithin
        · exact hall ▸ hsweeps.next
        · have habove := hsweeps.above seen hbefore
          omega
    have hswept : rt.swept start seen entry.hash = true := by
      have hmem : entry ∈ seen := hcame.subset (by simp)
      exact Bool.and_eq_true_iff.mpr
        ⟨decide_eq_true (List.mem_map_of_mem hmem), decide_eq_true horphan⟩
    exact hseen entry hentry hswept
  · intro hall entry hentry hswept
    obtain ⟨hmem, horphan⟩ := Bool.and_eq_true_iff.mp hswept
    obtain ⟨other, hother, hkey⟩ := List.mem_map.mp (of_decide_eq_true hmem)
    obtain ⟨earlier, later, rfl⟩ := List.append_of_mem hother
    have hnext : earlier ++ [other] <+: earlier ++ other :: later := ⟨later, by simp⟩
    have hinventory := (inventoryValues_next (hnext.trans h.prefix_values)).1
    obtain rfl : other = entry := Table.eq_of_key_eq hinventory hentry hkey
    refine hall earlier other ⟨hstops.completes, hreadable, hnext.trans h.prefix_values, ?_⟩
      (of_decide_eq_true horphan)
    intro before hbefore
    obtain ⟨next, hnext'⟩ := exists_next_of_prefix hbefore other
    exact h.above before next (hnext'.trans hnext)

theorem losesCount_iff {stage : Stage} {hash : String} :
    rt.losesCount stage hash = true ↔
      rt.deletes stage hash = true ∧ rt.frees stage hash = false := by
  simp [losesCount]

/-- The files that the first stage deletes are spared by the snapshots that are left. -/
theorem Evicting.spared_iff (h : Evicting rt start inventory done pass) {outcome : CacheOutcome}
    (hfiles : outcome.files = pass.files) (hstore : outcome.store = pass.store) :
    (∀ entry ∈ outcome.deleted inventory, ∀ s ∈ protectedSnapshots outcome.store,
      entry.hash ∉ rt.closure s) ↔
    ∀ entry ∈ inventory, rt.goneFirst start done entry.hash = true →
      ∀ s ∈ protectedSnapshots (rt.evictAll start done), entry.hash ∉ rt.closure s := by
  rw [h.leaves.deleted hfiles, hstore, h.store]
  simp only [List.mem_filter, and_imp]
  rfl

theorem Evicting.accounted_iff (h : Evicting rt start inventory done pass)
    {outcome : CacheOutcome} {report : CacheEnforcementReport}
    (hfiles : outcome.files = pass.files) (hafter : report.afterBytes = pass.report.afterBytes)
    (hbefore : report.beforeBytes = pass.report.beforeBytes) :
    report.afterBytes = report.beforeBytes - totalBytes (outcome.deleted inventory) ↔
      ∀ entry ∈ inventory, rt.released start done entry.hash = true →
        rt.losesCount .eviction entry.hash = true → entry.sizeBytes = 0 := by
  rw [hafter, hbefore, h.before, h.leaves.deleted hfiles, h.leaves.accounted_iff]
  refine forall₂_congr fun entry _ ↦ ?_
  rw [losesCount_iff]
  cases rt.released start done entry.hash <;> simp

theorem Swept.accounted_iff (h : Swept rt start inventory seen pass) {outcome : CacheOutcome}
    {report : CacheEnforcementReport} (hfiles : outcome.files = pass.files)
    (hafter : report.afterBytes = pass.report.afterBytes)
    (hbefore : report.beforeBytes = totalBytes inventory.rows) :
    report.afterBytes = report.beforeBytes - totalBytes (outcome.deleted inventory) ↔
      (∀ entry ∈ inventory,
        rt.released start (rt.listCacheSkills start) entry.hash = true →
          rt.losesCount .eviction entry.hash = true → entry.sizeBytes = 0) ∧
      ∀ entry ∈ inventory, rt.swept start seen entry.hash = true →
        rt.goneFirst start (rt.listCacheSkills start) entry.hash = false →
          rt.losesCount .sweep entry.hash = true → entry.sizeBytes = 0 := by
  rw [hafter, hbefore, Leaves.deleted h hfiles, Leaves.accounted_iff h, ← forall₂_and]
  refine forall₂_congr fun entry _ ↦ ?_
  simp only [losesCount_iff, goneFirst]
  have hdeletes : rt.frees .eviction entry.hash = true → rt.deletes .eviction entry.hash = true :=
    deletes_of_frees
  revert hdeletes
  cases rt.released start (rt.listCacheSkills start) entry.hash <;>
    cases rt.deletes .eviction entry.hash <;> cases rt.frees .eviction entry.hash <;>
    cases rt.swept start seen entry.hash <;> simp

/-- What the sweep deletes is in no protected closure. -/
theorem Swept.spared_iff (h : Swept rt start inventory seen pass) {outcome : CacheOutcome}
    (hfiles : outcome.files = pass.files) (hstore : outcome.store = rt.evicted start)
    (hreadable : ∀ s ∈ protectedSnapshots (rt.evicted start), rt.readable s = true) :
    (∀ entry ∈ outcome.deleted inventory, ∀ s ∈ protectedSnapshots outcome.store,
      entry.hash ∉ rt.closure s) ↔
    ∀ entry ∈ inventory, rt.goneFirst start (rt.listCacheSkills start) entry.hash = true →
      ∀ s ∈ protectedSnapshots (rt.evicted start), entry.hash ∉ rt.closure s := by
  rw [Leaves.deleted h hfiles, hstore]
  simp only [List.mem_filter, and_imp, Bool.or_eq_true]
  constructor
  · exact fun hspared entry hentry hgone ↦ hspared entry hentry (.inl hgone)
  · rintro hfirst entry hentry (hgone | hswept) s hs
    · exact hfirst entry hentry hgone s hs
    · obtain ⟨hseen, -⟩ := Bool.and_eq_true_iff.mp hswept
      have hzero := of_decide_eq_true (Bool.and_eq_true_iff.mp hseen).2
      have hnames := refCount_eq_zero_iff.mp hzero s hs
      simpa [names, hreadable s hs] using hnames

/-- Whatever way the pass ends, it keeps the contract exactly when it spares the snapshots
that it cannot read and syncs what it deletes. -/
theorem Ends.contract_iff {outcome : CacheOutcome} (h : Ends rt start inventory outcome) :
    rt.KeepsContract inventory outcome ↔ rt.SparesUnresolved start inventory := by
  cases h with
  | @failed done error pass hstops hevicting =>
    let outcome : CacheOutcome := ⟨.error error, pass.store, pass.files⟩
    have hspared : (∀ entry ∈ outcome.deleted inventory, ∀ s ∈ protectedSnapshots outcome.store,
        entry.hash ∉ rt.closure s) ↔ _ := (hevicting.spared_iff rfl rfl).trans hstops.spares_iff
    have hunfinished : ¬ rt.Finishes start inventory := fun hfinishes ↦ by
      simpa using hstops.finishes_iff.mp hfinishes
    exact ⟨fun hkeeps ↦ ⟨hspared.mp hkeeps.spared, fun hf ↦ absurd hf hunfinished,
      fun hf ↦ absurd hf hunfinished⟩, fun hspares ↦ ⟨hspared.mpr hspares.spares, nofun⟩⟩
  | @unswept done pass report hstops hevicting hnone hafter hbefore =>
    let outcome : CacheOutcome := ⟨.ok report, pass.store, pass.files⟩
    have hspared : (∀ entry ∈ outcome.deleted inventory, ∀ s ∈ protectedSnapshots outcome.store,
        entry.hash ∉ rt.closure s) ↔ _ := (hevicting.spared_iff rfl rfl).trans hstops.spares_iff
    have haccounted : report.afterBytes =
        report.beforeBytes - totalBytes (outcome.deleted inventory) ↔ _ :=
      (hevicting.accounted_iff rfl hafter hbefore).trans hstops.evictions_iff
    constructor
    · intro hkeeps
      exact ⟨hspared.mp hkeeps.spared, fun _ ↦ haccounted.mp (hkeeps.accounted report rfl),
        fun _ seen entry hsweeps ↦ absurd hsweeps (hnone seen entry)⟩
    · intro hspares
      refine ⟨hspared.mpr hspares.spares, ?_⟩
      rintro _ ⟨⟩
      exact haccounted.mpr (hspares.evictions (hstops.finishes_iff.mpr rfl))
  | @swept seen pass report hstops hreadable hsweep hswept hstore hafter hbefore =>
    let outcome : CacheOutcome := ⟨.ok report, pass.store, pass.files⟩
    have hleft : ∀ s ∈ protectedSnapshots (rt.evicted start), rt.readable s = true :=
      fun s hs ↦ hreadable s (mem_protectedSnapshots_of_evictAll (List.prefix_refl _) hs)
    have hspared : (∀ entry ∈ outcome.deleted inventory, ∀ s ∈ protectedSnapshots outcome.store,
        entry.hash ∉ rt.closure s) ↔ _ :=
      (hswept.spared_iff rfl hstore hleft).trans hstops.spares_iff
    have haccounted : report.afterBytes =
        report.beforeBytes - totalBytes (outcome.deleted inventory) ↔ _ :=
      (hswept.accounted_iff rfl hafter hbefore).trans
        (and_congr hstops.evictions_iff (hsweep.sweep_iff hstops hreadable))
    constructor
    · intro hkeeps
      obtain ⟨hevictions, hsweeps⟩ := haccounted.mp (hkeeps.accounted report rfl)
      exact ⟨hspared.mp hkeeps.spared, fun _ ↦ hevictions, fun _ ↦ hsweeps⟩
    · intro hspares
      have hfinishes := hstops.finishes_iff.mpr rfl
      refine ⟨hspared.mpr hspares.spares, ?_⟩
      rintro _ ⟨⟩
      exact haccounted.mpr ⟨hspares.evictions hfinishes, hspares.sweep hfinishes⟩

/-- A pass that does not start deletes nothing and reports nothing. -/
theorem keepsContract_of_not_starts (h : ¬ rt.Starts inventory) :
    rt.KeepsContract inventory (rt.enforceCacheBudget start inventory) := by
  have hfailed : ∃ error, rt.enforceCacheBudget start inventory =
      ⟨.error error, start, inventory⟩ := by
    unfold enforceCacheBudget
    cases hscan : rt.scanFault with
    | some error => exact ⟨_, rfl⟩
    | none => exact ⟨_, if_pos (Nat.le_of_not_lt fun hsize ↦ h ⟨hscan, hsize⟩)⟩
  obtain ⟨error, heq⟩ := hfailed
  rw [heq]
  refine ⟨fun entry hentry ↦ ?_, nofun⟩
  obtain ⟨hmem, hgone⟩ := List.mem_filter.mp hentry
  rw [Table.get?_of_mem hmem] at hgone
  cases hgone

/-- A pass keeps the contract of the cache exactly when, if it starts, it spares the snapshots
that it cannot read and syncs what it deletes. -/
theorem keepsContract_iff :
    rt.KeepsContract inventory (rt.enforceCacheBudget start inventory) ↔
      (rt.Starts inventory → rt.SparesUnresolved start inventory) := by
  by_cases hstarts : rt.Starts inventory
  · rw [imp_iff_right hstarts]
    exact (enforceCacheBudget_ends hstarts).contract_iff
  · exact iff_of_true (keepsContract_of_not_starts hstarts) fun h ↦ absurd h hstarts

end CacheRuntime

/-! ## A damaged manifest -/

namespace Sample

def digest (c : Char) : String := "sha256:" ++ String.ofList (List.replicate 64 c)

/-- A skill with local edits. -/
def editedSkill : LocalSkill where
  id := "skill-1"
  remoteId := some "remote-1"
  name := "Code Review"
  slug := "code-review"
  workspacePath := "/work/code-review"
  currentBlobHash := digest 'a'
  remoteBlobHash := none
  remoteRevision := some 1
  syncState := .dirty
  pinned := false

/-- A mirror of a skill that shares a file with it, without a workspace. -/
def mirror : LocalSkill :=
  { editedSkill with
    id := "skill-2"
    remoteId := some "remote-2"
    workspacePath := "/work/mirror"
    currentBlobHash := digest 'b'
    syncState := .synced }

def catalog : LocalStore := { LocalStore.fresh with skills := ⟨[editedSkill, mirror], by decide⟩ }

/-- The two manifests and the file that both name. -/
def cachedBlobs : BlobInventory := ⟨[⟨digest 'a', 200⟩, ⟨digest 'b', 200⟩, ⟨digest 'c', 50⟩], by decide⟩

/-- The manifest of the edited skill has been damaged, and the budget is small. -/
def runtime : CacheRuntime where
  maxBytes := 100
  lastAccessedAt := fun _ ↦ "2026-01-01 00:00:00"
  manifestFiles := fun _ ↦ [digest 'c']
  manifestFault := fun s ↦ if s = digest 'a' then some "blob hash mismatch" else none
  scanFault := none
  pathMayExist := fun path ↦ path = "/work/code-review"
  pathMayExistAtClaim := fun path ↦ path = "/work/code-review"
  claimFault := fun _ ↦ none
  removal := fun _ _ ↦ .removed
  visits := id
  visits_perm := fun _ ↦ .refl _

end Sample

/-- The eviction of the mirror deletes the shared file, which the edited skill still needs. -/
theorem sharedBlob_deleted :
    ¬ Sample.runtime.KeepsContract Sample.cachedBlobs
      (Sample.runtime.enforceCacheBudget Sample.catalog Sample.cachedBlobs) := by
  intro h
  have hdeleted : (⟨Sample.digest 'c', 50⟩ : BlobInventoryEntry) ∈
      (Sample.runtime.enforceCacheBudget Sample.catalog Sample.cachedBlobs).deleted
        Sample.cachedBlobs := by
    decide +kernel
  have hprotected : Sample.digest 'a' ∈ protectedSnapshots
      (Sample.runtime.enforceCacheBudget Sample.catalog Sample.cachedBlobs).store := by
    decide +kernel
  exact h.spared _ hdeleted _ hprotected (by decide +kernel)

end Cache

end SkillHive
