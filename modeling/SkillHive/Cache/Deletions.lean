import SkillHive.Cache.ReferenceCounts

/-!
# What a pass has deleted

The files of the cache and the bytes that the report still counts, while the first stage
works through the candidates and while the second one works through the inventory.
-/

namespace SkillHive

open Foundation LocalStore

namespace Cache

theorem totalBytes_filter_and {entries : List BlobInventoryEntry}
    (hnodup : (entries.map BlobInventoryEntry.hash).Nodup) (keep : String → Bool)
    {entry : BlobInventoryEntry} (hentry : entry ∈ entries) (hkeep : keep entry.hash = true) :
    totalBytes (entries.filter fun e ↦ keep e.hash) =
      totalBytes (entries.filter fun e ↦ keep e.hash && decide (e.hash ≠ entry.hash)) +
        entry.sizeBytes := by
  obtain ⟨before, after, rfl⟩ := List.append_of_mem hentry
  rw [List.map_append, List.map_cons, List.nodup_middle, List.nodup_cons,
    ← List.map_append] at hnodup
  have hothers : ∀ others : List BlobInventoryEntry, (∀ e ∈ others, e ∈ before ++ after) →
      (others.filter fun e ↦ keep e.hash && decide (e.hash ≠ entry.hash)) =
        others.filter fun e ↦ keep e.hash := by
    intro others hsubset
    refine List.filter_congr fun e he ↦ ?_
    have hne : e.hash ≠ entry.hash := fun heq ↦
      hnodup.1 (heq ▸ List.mem_map_of_mem (hsubset e he))
    simp [hne]
  simp only [List.filter_append, List.filter_cons, hkeep, Bool.true_and, ne_eq, not_true_eq_false,
    decide_false, Bool.false_eq_true, if_false, if_true, totalBytes, List.map_append,
    List.map_cons, List.sum_append, List.sum_cons]
  rw [hothers before fun e ↦ List.mem_append_left after,
    hothers after fun e he ↦ List.mem_append_right before he]
  omega

theorem totalBytes_filter_add (entries : List BlobInventoryEntry)
    (keep : BlobInventoryEntry → Bool) :
    totalBytes (entries.filter keep) + totalBytes (entries.filter fun e ↦ !keep e) =
      totalBytes entries := by
  have hperm := (List.filter_append_perm keep entries).map BlobInventoryEntry.sizeBytes
  rw [totalBytes, totalBytes, totalBytes, ← List.sum_append, ← List.map_append, hperm.sum_eq]

theorem totalBytes_eq_zero_iff {entries : List BlobInventoryEntry} :
    totalBytes entries = 0 ↔ ∀ entry ∈ entries, entry.sizeBytes = 0 := by
  simp [totalBytes, List.sum_eq_zero_iff_forall_eq_nat]

namespace CacheRuntime

variable (rt : CacheRuntime)

/-- The file is gone after its removal. -/
def deletes (stage : Stage) (hash : String) : Bool :=
  match rt.removal stage hash with
  | .refused _ => false
  | _ => true

/-- The file is gone after its removal, and the report counts it out. -/
def frees (stage : Stage) (hash : String) : Bool := rt.removal stage hash = .removed

/-- The files that are gone from the cache and those that the report has counted out. -/
structure Leaves (inventory : BlobInventory) (gone freed : String → Bool) (pass : CachePass) :
    Prop where
  files : ∀ entry, entry ∈ pass.files ↔ entry ∈ inventory ∧ gone entry.hash = false
  bytes : pass.report.afterBytes =
    totalBytes (inventory.rows.filter fun entry ↦ !freed entry.hash)
  freed_gone : ∀ entry ∈ inventory, freed entry.hash = true → gone entry.hash = true

variable {rt} {inventory : BlobInventory} {gone freed : String → Bool} {pass : CachePass}

theorem deletes_of_frees {stage : Stage} {hash : String} (h : rt.frees stage hash = true) :
    rt.deletes stage hash = true := by
  rw [deletes, of_decide_eq_true h]

theorem Leaves.get? (h : Leaves inventory gone freed pass) {entry : BlobInventoryEntry}
    (hentry : entry ∈ inventory) :
    pass.files.get? entry.hash = if gone entry.hash then none else some entry := by
  split
  case isTrue hgone =>
    refine Table.get?_eq_none_iff.mpr fun other hother heq ↦ ?_
    obtain ⟨-, hthere⟩ := (h.files other).mp hother
    rw [heq, hgone] at hthere
    cases hthere
  case isFalse hthere =>
    exact Table.get?_of_mem ((h.files entry).mpr ⟨hentry, by simpa using hthere⟩)

theorem Leaves.congr {gone' freed' : String → Bool} (h : Leaves inventory gone freed pass)
    (hgone : ∀ entry ∈ inventory, gone' entry.hash = gone entry.hash)
    (hfreed : ∀ entry ∈ inventory, freed' entry.hash = freed entry.hash) :
    Leaves inventory gone' freed' pass := by
  refine ⟨fun entry ↦ ?_, ?_, fun entry hentry hcounted ↦ ?_⟩
  · rw [h.files]
    exact and_congr_right fun hentry ↦ by rw [hgone entry hentry]
  · rw [h.bytes]
    refine congrArg totalBytes (List.filter_congr fun entry hentry ↦ ?_)
    rw [hfreed entry hentry]
  · rw [hgone entry hentry]
    exact h.freed_gone entry hentry (hfreed entry hentry ▸ hcounted)

theorem Leaves.of_files_report {pass' : CachePass} (h : Leaves inventory gone freed pass)
    (hfiles : pass'.files = pass.files)
    (hafter : pass'.report.afterBytes = pass.report.afterBytes) :
    Leaves inventory gone freed pass' :=
  ⟨hfiles ▸ h.files, hafter ▸ h.bytes, h.freed_gone⟩

/-- The file goes, counted out or not. -/
theorem Leaves.erase (h : Leaves inventory gone freed pass) {entry : BlobInventoryEntry}
    (hentry : entry ∈ inventory) (hthere : gone entry.hash = false) (counted : Bool)
    {pass' : CachePass} (hfiles : pass'.files = pass.files.erase entry.hash)
    (hafter : pass'.report.afterBytes =
      if counted then pass.report.afterBytes - entry.sizeBytes else pass.report.afterBytes) :
    Leaves inventory (fun k ↦ gone k || decide (k = entry.hash))
      (fun k ↦ freed k || decide (k = entry.hash) && counted) pass' := by
  have hkept : freed entry.hash = false := by
    by_contra hfreed
    rw [h.freed_gone entry hentry (by simpa using hfreed)] at hthere
    cases hthere
  refine ⟨fun e ↦ ?_, ?_, fun e he hcounted ↦ ?_⟩
  · rw [hfiles, Table.mem_erase, h.files]
    simp [and_assoc]
  · rw [hafter, h.bytes]
    cases counted with
    | false => simp
    | true =>
      have hsplit := totalBytes_filter_and inventory.nodup_keys
        (fun k ↦ !freed k) (Table.mem_iff_mem_rows.mp hentry) (by simp [hkept])
      simp only [if_true, hsplit, Nat.add_sub_cancel, Bool.and_true, Bool.not_or, ne_eq,
        decide_not]
  · simp only [Bool.or_eq_true, Bool.and_eq_true] at hcounted ⊢
    exact hcounted.imp (h.freed_gone e he) And.left

/-- The report has counted out what is gone exactly when every file that is gone and still
counted is empty. -/
theorem Leaves.accounted_iff (h : Leaves inventory gone freed pass) :
    pass.report.afterBytes = totalBytes inventory.rows -
        totalBytes (inventory.rows.filter fun entry ↦ gone entry.hash) ↔
      ∀ entry ∈ inventory, gone entry.hash = true → freed entry.hash = false →
        entry.sizeBytes = 0 := by
  have hall := totalBytes_filter_add inventory.rows fun entry ↦ freed entry.hash
  have hgone := totalBytes_filter_add (inventory.rows.filter fun entry ↦ gone entry.hash)
    fun entry ↦ freed entry.hash
  have hfreed : (inventory.rows.filter fun entry ↦ gone entry.hash).filter
      (fun entry ↦ freed entry.hash) = inventory.rows.filter fun entry ↦ freed entry.hash := by
    rw [List.filter_filter]
    refine List.filter_congr fun entry hentry ↦ ?_
    cases hcounted : freed entry.hash with
    | false => rfl
    | true => rw [h.freed_gone entry hentry hcounted]; rfl
  have hzero : totalBytes ((inventory.rows.filter fun entry ↦ gone entry.hash).filter
      fun entry ↦ !freed entry.hash) = 0 ↔ ∀ entry ∈ inventory, gone entry.hash = true →
        freed entry.hash = false → entry.sizeBytes = 0 := by
    simp only [totalBytes_eq_zero_iff, List.mem_filter, Bool.not_eq_true', and_imp]
    rfl
  have htotal := totalBytes_filter_add inventory.rows fun entry ↦ gone entry.hash
  rw [hfreed] at hgone
  rw [← hzero, h.bytes]
  omega

/-- One deletion adds its file to those that are gone. -/
theorem Leaves.deleteBlob (h : Leaves inventory gone freed pass) {entry : BlobInventoryEntry}
    (hentry : entry ∈ inventory) (stage : Stage) (note : String → String) :
    Leaves inventory (fun k ↦ gone k || decide (k = entry.hash) && rt.deletes stage k)
      (fun k ↦ freed k || decide (k = entry.hash) && (!gone k && rt.frees stage k))
      (rt.deleteBlob stage note pass entry) := by
  unfold CacheRuntime.deleteBlob removeBlobFile
  rw [h.get? hentry]
  cases hthere : gone entry.hash with
  | true =>
    refine Leaves.congr ⟨h.files, h.bytes, h.freed_gone⟩ (fun e _ ↦ ?_) fun e _ ↦ ?_ <;>
      by_cases hk : e.hash = entry.hash <;> simp [hk, hthere]
  | false =>
    cases hremoval : rt.removal stage entry.hash with
    | removed =>
      refine Leaves.congr (h.erase hentry hthere true rfl rfl) (fun e _ ↦ ?_) fun e _ ↦ ?_ <;>
        by_cases hk : e.hash = entry.hash <;> simp [hk, hthere, deletes, frees, hremoval]
    | refused error =>
      refine Leaves.congr ⟨h.files, h.bytes, h.freed_gone⟩ (fun e _ ↦ ?_) fun e _ ↦ ?_ <;>
        by_cases hk : e.hash = entry.hash <;> simp [hk, deletes, frees, hremoval]
    | unsynced error =>
      refine Leaves.congr (h.erase hentry hthere false rfl rfl) (fun e _ ↦ ?_) fun e _ ↦ ?_ <;>
        by_cases hk : e.hash = entry.hash <;> simp [hk, deletes, frees, hremoval]

variable (rt) in
theorem deleteBlob_frame (stage : Stage) (note : String → String) (pass : CachePass)
    (entry : BlobInventoryEntry) :
    (rt.deleteBlob stage note pass entry).counts = pass.counts ∧
      (rt.deleteBlob stage note pass entry).store = pass.store ∧
      (rt.deleteBlob stage note pass entry).report.beforeBytes = pass.report.beforeBytes := by
  unfold CacheRuntime.deleteBlob
  split <;> exact ⟨rfl, rfl, rfl⟩

/-! ## The first stage -/

/-- One hash of a closure, whose count `left + 1` drops to `left`. -/
theorem Leaves.releaseBlob (h : Leaves inventory gone freed pass) (skillId : String)
    {hash : String} {left : ℕ} (hcount : pass.counts hash = some (left + 1))
    (hthere : gone hash = false) :
    Leaves inventory
      (fun k ↦ gone k || decide (k = hash ∧ left = 0) && rt.deletes .eviction k)
      (fun k ↦ freed k || decide (k = hash ∧ left = 0) && rt.frees .eviction k)
      (rt.releaseBlob inventory skillId pass hash) := by
  unfold CacheRuntime.releaseBlob
  simp only [hcount, Nat.add_sub_cancel]
  have hreleased : Leaves inventory gone freed
      { pass with counts := Function.update pass.counts hash (some left) } :=
    h.of_files_report rfl rfl
  split
  case isTrue hleft => exact hreleased.congr (by simp [hleft]) (by simp [hleft])
  case isFalse hlast =>
    have hzero : left = 0 := not_not.mp hlast
    split
    case h_1 hnone =>
      have hother : ∀ entry ∈ inventory, entry.hash ≠ hash := Table.get?_eq_none_iff.mp hnone
      exact hreleased.congr (fun e he ↦ by simp [hother e he]) fun e he ↦ by simp [hother e he]
    case h_2 entry hentry =>
      have hkey : entry.hash = hash := Table.key_of_get? hentry
      refine (hreleased.deleteBlob (Table.mem_of_get? hentry) .eviction _).congr
        (fun e _ ↦ ?_) fun e _ ↦ ?_
      · simp [hkey, hzero]
      · by_cases hk : e.hash = hash <;> simp [hkey, hzero, hk, hthere]

variable (rt inventory) in
theorem releaseBlob_frame (skillId : String) (pass : CachePass) {hash : String} {left : ℕ}
    (hcount : pass.counts hash = some (left + 1)) :
    (rt.releaseBlob inventory skillId pass hash).counts =
        Function.update pass.counts hash (some left) ∧
      (rt.releaseBlob inventory skillId pass hash).store = pass.store ∧
      (rt.releaseBlob inventory skillId pass hash).report.beforeBytes =
        pass.report.beforeBytes := by
  unfold CacheRuntime.releaseBlob
  simp only [hcount, Nat.add_sub_cancel]
  split
  case isTrue => exact ⟨rfl, rfl, rfl⟩
  case isFalse =>
    split
    case h_1 => exact ⟨rfl, rfl, rfl⟩
    case h_2 entry hentry => exact deleteBlob_frame rt .eviction _ _ entry

variable (rt) in
/-- What a pass has done after a whole closure, whose counts drop to `left`. -/
structure Releases (inventory : BlobInventory) (gone freed : String → Bool) (left : String → ℕ)
    (hashes : List String) (pass pass' : CachePass) : Prop where
  leaves : Leaves inventory
    (fun k ↦ gone k || decide (k ∈ hashes ∧ left k = 0) && rt.deletes .eviction k)
    (fun k ↦ freed k || decide (k ∈ hashes ∧ left k = 0) && rt.frees .eviction k) pass'
  counts : ∀ k, pass'.counts k = if k ∈ hashes then some (left k) else pass.counts k
  store : pass'.store = pass.store
  before : pass'.report.beforeBytes = pass.report.beforeBytes

variable (rt) in
theorem Leaves.releaseAll (h : Leaves inventory gone freed pass) (skillId : String)
    (left : String → ℕ) {hashes : List String} (hnodup : hashes.Nodup)
    (hcounts : ∀ hash ∈ hashes, pass.counts hash = some (left hash + 1))
    (hthere : ∀ hash ∈ hashes, gone hash = false) :
    Releases rt inventory gone freed left hashes pass
      (hashes.foldl (rt.releaseBlob inventory skillId) pass) := by
  induction hashes generalizing gone freed pass with
  | nil => exact ⟨h.congr (by simp) (by simp), by simp, rfl, rfl⟩
  | cons first hashes ih =>
    obtain ⟨hfirst, hrest⟩ := List.nodup_cons.mp hnodup
    have hcount := hcounts first List.mem_cons_self
    obtain ⟨hupdated, hstore, hbefore⟩ :=
      releaseBlob_frame rt inventory skillId pass hcount
    have hne : ∀ hash ∈ hashes, hash ≠ first := fun hash hhash heq ↦ hfirst (heq ▸ hhash)
    have hnext := ih (h.releaseBlob skillId hcount (hthere first List.mem_cons_self)) hrest
      (fun hash hhash ↦ by
        rw [hupdated, Function.update_of_ne (hne hash hhash)]
        exact hcounts hash (List.mem_cons_of_mem first hhash))
      (fun hash hhash ↦ by simp [hthere hash (List.mem_cons_of_mem first hhash), hne hash hhash])
    refine ⟨hnext.leaves.congr (fun e _ ↦ ?_) fun e _ ↦ ?_, fun k ↦ ?_, hnext.store.trans hstore,
      hnext.before.trans hbefore⟩
    · by_cases hk : e.hash = first
      · simp [hk, hfirst]
      · simp [hk]
    · by_cases hk : e.hash = first
      · simp [hk, hfirst]
      · simp [hk]
    · rw [List.foldl_cons, hnext.counts, hupdated]
      by_cases hk : k = first
      · simp [hk, hfirst]
      · simp [hk]

end CacheRuntime

end Cache

end SkillHive
