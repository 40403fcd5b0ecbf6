import Mathlib.Data.String.Basic
import SkillHive.Foundation.BatchedSweep
import SkillHive.Server.BlobGc

/-!
# Progress of garbage collection

The sweep takes the first old objects in hash order before it looks at the marks, so marked
objects use up the batch. Passes that are repeated over an unchanged database converge, and what
they collect is what has less than a batch of marked old objects before it.
-/

namespace SkillHive

open Foundation

namespace Server

variable {rt : Runtime} {createdAt : CreatedAt} {args : GcArgs}

/-! ## Repeated passes -/

/-- What a pass reads and writes. -/
structure GcState where
  db : Database
  objects : ObjectTable

namespace GcState

/-- One pass, as the state it leaves. -/
def pass (rt : Runtime) (createdAt : CreatedAt) (args : GcArgs) (s : GcState) : GcState where
  db := (runBlobGc rt s.db createdAt s.objects args).db
  objects := (runBlobGc rt s.db createdAt s.objects args).objects

/-- The objects past the grace period, in hash order. -/
def oldRows (createdAt : CreatedAt) (args : GcArgs) (s : GcState) : List SkillBlobObject :=
  (s.db.blobs.rows.filter fun row ↦ isPastGrace createdAt args row.hash).insertionSort
    fun row row' ↦ row.hash.text ≤ row'.hash.text

/-- A pass marks the object. -/
def isMarked (rt : Runtime) (createdAt : CreatedAt) (args : GcArgs) (s : GcState)
    (row : SkillBlobObject) : Bool :=
  decide (row.hash.text ∈ gcMarked rt s.objects args.unreadable (gcRoots s.db createdAt args))

/-- The old marked objects before the hash. -/
def markedBefore (rt : Runtime) (createdAt : CreatedAt) (args : GcArgs) (s : GcState)
    (hash : BlobHash) : ℕ :=
  s.db.blobs.rows.countP fun row ↦ isPastGrace createdAt args row.hash &&
    (s.isMarked rt createdAt args row && decide (row.hash.text < hash.text))

/-- The old objects that no retained package holds. -/
def garbage (rt : Runtime) (createdAt : CreatedAt) (args : GcArgs) (s : GcState) : ℕ :=
  s.db.blobs.rows.countP fun row ↦ isPastGrace createdAt args row.hash &&
    !s.isMarked rt createdAt args row

/-- Repeated passes come to the object: it is old, no retained package holds it, and less than a
batch of marked old objects comes before it. -/
def Collects (rt : Runtime) (createdAt : CreatedAt) (args : GcArgs) (s : GcState)
    (hash : BlobHash) : Prop :=
  isPastGrace createdAt args hash ∧
    ¬ (packageGraph rt s.objects args.unreadable).Reached (gcRoots s.db createdAt args) hash.text ∧
    s.markedBefore rt createdAt args hash < args.batchSize

/-! ## One pass -/

instance : Std.Total fun row row' : SkillBlobObject ↦ row.hash.text ≤ row'.hash.text :=
  ⟨fun _ _ ↦ String.le_total _ _⟩

instance : IsTrans SkillBlobObject fun row row' ↦ row.hash.text ≤ row'.hash.text :=
  ⟨fun _ _ _ ↦ String.le_trans⟩

theorem mem_oldRows {s : GcState} {row : SkillBlobObject} :
    row ∈ s.oldRows createdAt args ↔
      row ∈ s.db.blobs ∧ isPastGrace createdAt args row.hash := by
  rw [oldRows, List.mem_insertionSort, List.mem_filter, Table.mem_iff_mem_rows]

theorem pairwise_oldRows (s : GcState) :
    (s.oldRows createdAt args).Pairwise fun row row' ↦ row.hash.text < row'.hash.text := by
  have hle : (s.oldRows createdAt args).Pairwise fun row row' ↦
      row.hash.text ≤ row'.hash.text := List.pairwise_insertionSort _ _
  have hne : (s.oldRows createdAt args).Pairwise fun row row' ↦
      row.hash ≠ row'.hash := by
    have hkeys := List.pairwise_map.mp s.db.blobs.nodup_keys
    exact (List.perm_insertionSort _ _).symm.pairwise (hkeys.filter _) Ne.symm
  apply hle.imp₂ _ hne
  intro row row' hle hne
  exact lt_of_le_of_ne hle fun heq ↦ hne (BlobHash.eq_of_text_eq heq)

/-- The rows after a pass. -/
theorem mem_blobs_pass {s : GcState} {row : SkillBlobObject} :
    row ∈ (s.pass rt createdAt args).db.blobs ↔
      row ∈ s.db.blobs ∧ ¬ Swept rt s.db createdAt s.objects args row.hash := by
  have hget (t : BlobTable) : row ∈ t ↔ t.get? row.hash = some row := by
    rw [Table.get?_eq_some_iff, and_iff_left rfl]
  rw [hget, hget]
  by_cases hswept : Swept rt s.db createdAt s.objects args row.hash
  · have hgone : (s.pass rt createdAt args).db.blobs.get? row.hash = none :=
      (runBlobGc_swept hswept).2
    simp [hgone, hswept]
  · have hkept : (s.pass rt createdAt args).db.blobs.get? row.hash =
        s.db.blobs.get? row.hash := (runBlobGc_kept hswept).2
    rw [hkept, and_iff_left hswept]

/-- A pass sweeps one batch of the old objects. -/
theorem oldRows_pass (s : GcState) :
    (s.pass rt createdAt args).oldRows createdAt args =
      sweepBatch (s.isMarked rt createdAt args) args.batchSize (s.oldRows createdAt args) := by
  have hpairwise : (s.oldRows createdAt args).Pairwise fun row row' ↦
      row.hash.text < row'.hash.text := pairwise_oldRows s
  have hnodup : (s.oldRows createdAt args).Nodup := by
    apply hpairwise.imp
    rintro row row' hlt rfl
    exact String.lt_irrefl _ hlt
  have : Std.Irrefl fun row row' : SkillBlobObject ↦ row.hash.text < row'.hash.text :=
    ⟨fun _ ↦ String.lt_irrefl _⟩
  have : Std.Antisymm fun row row' : SkillBlobObject ↦ row.hash.text < row'.hash.text :=
    ⟨fun _ _ hlt hgt ↦ absurd hgt (String.lt_asymm hlt)⟩
  apply List.Pairwise.eq_of_mem_iff (pairwise_oldRows _)
    (hpairwise.sublist (sweepBatch_sublist _ _))
  intro row
  rw [mem_sweepBatch_iff hnodup, mem_oldRows, mem_oldRows, mem_blobs_pass, swept_iff]
  have hcandidate : row.hash ∈ (gcCandidates s.db createdAt args).map SkillBlobObject.hash ∧
        row ∈ s.db.blobs ↔ row ∈ (s.oldRows createdAt args).take args.batchSize := by
    constructor
    · rintro ⟨hmap, hrow⟩
      obtain ⟨row', hrow', heq⟩ := List.mem_map.mp hmap
      have hrow'' := (mem_oldRows.mp (List.mem_of_mem_take hrow')).1
      rwa [← Table.eq_of_key_eq hrow'' hrow heq]
    · intro htake
      exact ⟨List.mem_map_of_mem htake, (mem_oldRows.mp (List.mem_of_mem_take htake)).1⟩
  rw [← hcandidate, isMarked, decide_eq_true_eq]
  tauto

/-- A pass does not change what the next one marks. -/
theorem reached_pass (s : GcState) {text : String} :
    (packageGraph rt (s.pass rt createdAt args).objects args.unreadable).Reached
        (gcRoots (s.pass rt createdAt args).db createdAt args) text ↔
      (packageGraph rt s.objects args.unreadable).Reached (gcRoots s.db createdAt args) text := by
  apply SourcedGraph.Reached.congr
  intro text hreached
  have hopen : openObject? (s.pass rt createdAt args).objects args.unreadable text =
      openObject? s.objects args.unreadable text := by
    rw [openObject?, openObject?]
    cases hhash : BlobHash.ofText? text with
    | none => rfl
    | some hash =>
      have hkept : ¬ Swept rt s.db createdAt s.objects args hash := by
        rintro ⟨-, hunreached⟩
        rw [BlobHash.ofText?_eq_some.mp hhash] at hunreached
        exact hunreached hreached
      have hsame : (s.pass rt createdAt args).objects.get? hash = s.objects.get? hash :=
        (runBlobGc_kept hkept).1
      simp only [Option.bind_some, hsame]
  simp only [packageGraph, manifestClosure, readManifest?, hopen]

/-! ## All passes -/

/-- The state after some passes. -/
def after (rt : Runtime) (createdAt : CreatedAt) (args : GcArgs) (s : GcState) (passes : ℕ) :
    GcState :=
  (pass rt createdAt args)^[passes] s

theorem after_succ (s : GcState) (passes : ℕ) :
    s.after rt createdAt args (passes + 1) =
      (s.after rt createdAt args passes).pass rt createdAt args := by
  rw [after, after, Function.iterate_succ_apply']

theorem reached_after (s : GcState) (passes : ℕ) {text : String} :
    (packageGraph rt (s.after rt createdAt args passes).objects args.unreadable).Reached
        (gcRoots (s.after rt createdAt args passes).db createdAt args) text ↔
      (packageGraph rt s.objects args.unreadable).Reached (gcRoots s.db createdAt args) text := by
  induction passes with
  | zero => rfl
  | succ passes ih => rw [after_succ, reached_pass, ih]

theorem isMarked_after (s : GcState) (passes : ℕ) :
    (s.after rt createdAt args passes).isMarked rt createdAt args =
      s.isMarked rt createdAt args := by
  funext row
  rw [isMarked, isMarked, decide_eq_decide, mem_gcMarked, mem_gcMarked, reached_after]

/-- Repeated passes sweep the old objects in batches. -/
theorem oldRows_after (s : GcState) (passes : ℕ) :
    (s.after rt createdAt args passes).oldRows createdAt args =
      (sweepBatch (s.isMarked rt createdAt args) args.batchSize)^[passes]
        (s.oldRows createdAt args) := by
  induction passes with
  | zero => rfl
  | succ passes ih =>
    rw [after_succ, oldRows_pass, isMarked_after, ih, Function.iterate_succ_apply']

/-- A row and its bytes go together, or stay together. -/
theorem kept_or_gone (rt : Runtime) (createdAt : CreatedAt) (args : GcArgs) (s : GcState)
    (passes : ℕ) (hash : BlobHash) :
    ((s.after rt createdAt args passes).db.blob? hash = s.db.blob? hash ∧
        (s.after rt createdAt args passes).objects.get? hash = s.objects.get? hash) ∨
      ((s.after rt createdAt args passes).db.blob? hash = none ∧
        (s.after rt createdAt args passes).objects.get? hash = none) := by
  induction passes with
  | zero => exact .inl ⟨rfl, rfl⟩
  | succ passes ih =>
    rw [after_succ]
    by_cases hswept : Swept rt (s.after rt createdAt args passes).db createdAt
        (s.after rt createdAt args passes).objects args hash
    · exact .inr (runBlobGc_swept hswept).symm
    · obtain ⟨hobject, hrow⟩ := runBlobGc_kept hswept
      have hrow' : ((s.after rt createdAt args passes).pass rt createdAt args).db.blob? hash =
          (s.after rt createdAt args passes).db.blob? hash := hrow
      have hobject' :
          ((s.after rt createdAt args passes).pass rt createdAt args).objects.get? hash =
            (s.after rt createdAt args passes).objects.get? hash := hobject
      rw [hrow', hobject']
      exact ih

/-- What is inside the grace period is not swept. -/
theorem mem_blobs_after_of_young {s : GcState} {row : SkillBlobObject} (hrow : row ∈ s.db.blobs)
    (hyoung : ¬ isPastGrace createdAt args row.hash) (passes : ℕ) :
    row ∈ (s.after rt createdAt args passes).db.blobs := by
  induction passes with
  | zero => exact hrow
  | succ passes ih =>
    rw [after_succ, mem_blobs_pass]
    refine ⟨ih, ?_⟩
    rintro ⟨hcandidate, -⟩
    obtain ⟨row', hrow', heq⟩ := List.mem_map.mp hcandidate
    have hold : row' ∈ (s.after rt createdAt args passes).oldRows createdAt args :=
      List.mem_of_mem_take hrow'
    exact hyoung (heq ▸ (mem_oldRows.mp hold).2)

theorem countP_oldRows (s : GcState) (p : SkillBlobObject → Bool) :
    (s.oldRows createdAt args).countP p =
      s.db.blobs.rows.countP fun row ↦ isPastGrace createdAt args row.hash && p row := by
  rw [oldRows, (List.perm_insertionSort _ _).countP_eq, List.countP_filter]
  simp only [Bool.and_comm]

theorem unkept_oldRows (s : GcState) :
    unkept (s.isMarked rt createdAt args) (s.oldRows createdAt args) =
      s.garbage rt createdAt args :=
  countP_oldRows s _

/-- An old object is in the settled list exactly when the passes never come to it. -/
theorem mem_settled_oldRows_iff {s : GcState} {row : SkillBlobObject} (hrow : row ∈ s.db.blobs)
    (hold : isPastGrace createdAt args row.hash) :
    row ∈ settled (s.isMarked rt createdAt args) args.batchSize (s.oldRows createdAt args) ↔
      ¬ s.Collects rt createdAt args row.hash := by
  rw [mem_settled_iff (fun _ _ ↦ String.lt_asymm) (pairwise_oldRows s),
    and_iff_right (mem_oldRows.mpr ⟨hrow, hold⟩), Collects, isMarked, decide_eq_true_eq,
    mem_gcMarked, countP_oldRows, markedBefore, and_iff_right hold, not_and_or, not_not, not_lt]

/-- Repeated passes over an unchanged database delete an old object that no retained package
holds, and they do it after at most one pass for every such object, exactly when less than a batch
of marked old objects comes before it. Every other object stays, however many passes are made. -/
theorem repeatedPasses_collect_iff (rt : Runtime) (createdAt : CreatedAt) (args : GcArgs)
    (s : GcState) (row : SkillBlobObject) (hrow : row ∈ s.db.blobs) :
    (s.Collects rt createdAt args row.hash ∧
      ∀ passes, s.garbage rt createdAt args ≤ passes →
        (s.after rt createdAt args passes).db.blob? row.hash = none ∧
          (s.after rt createdAt args passes).objects.get? row.hash = none) ∨
    (¬ s.Collects rt createdAt args row.hash ∧
      ∀ passes, (s.after rt createdAt args passes).db.blob? row.hash = some row ∧
        (s.after rt createdAt args passes).objects.get? row.hash = s.objects.get? row.hash) := by
  have hstored : s.db.blob? row.hash = some row := Table.get?_of_mem hrow
  have hkept {passes : ℕ} (h : row ∈ (s.after rt createdAt args passes).db.blobs) :
      (s.after rt createdAt args passes).db.blob? row.hash = some row ∧
        (s.after rt createdAt args passes).objects.get? row.hash = s.objects.get? row.hash := by
    have hsome : (s.after rt createdAt args passes).db.blob? row.hash = some row :=
      Table.get?_of_mem h
    rcases kept_or_gone rt createdAt args s passes row.hash with
      ⟨-, hobject⟩ | ⟨hnone, -⟩
    · exact ⟨hsome, hobject⟩
    · cases hsome.symm.trans hnone
  by_cases hcollects : s.Collects rt createdAt args row.hash
  · refine .inl ⟨hcollects, fun passes hpasses ↦ ?_⟩
    have hold := hcollects.1
    have hgone : row ∉ (s.after rt createdAt args passes).db.blobs := by
      intro hmem
      have hsettled := mem_oldRows.mpr ⟨hmem, hold⟩
      rw [oldRows_after, iterate_sweepBatch (unkept_oldRows s ▸ hpasses),
        mem_settled_oldRows_iff hrow hold] at hsettled
      exact hsettled hcollects
    rcases kept_or_gone rt createdAt args s passes row.hash with
      ⟨hsame, -⟩ | hnone
    · exact absurd (Table.mem_of_get? (hsame.trans hstored)) hgone
    · exact hnone
  · refine .inr ⟨hcollects, fun passes ↦ hkept ?_⟩
    by_cases hold : isPastGrace createdAt args row.hash
    · have hsettled := (mem_settled_oldRows_iff hrow hold).mpr hcollects
      rw [← settled_iterate args.batchSize passes, ← oldRows_after] at hsettled
      exact (mem_oldRows.mp ((settled_sublist _ _).subset hsettled)).1
    · exact mem_blobs_after_of_young hrow hold passes

end GcState

namespace Sample

/-- A pass of one object at a time, with the file pinned. -/
def pinnedFile : GcArgs where
  now := 100
  orphanGrace := 10
  changeRetention := 1000
  receiptRetention := 1000
  batchSize := 1
  legalRoots := [fileHash.text]
  unreadable _ := false

/-- Uploaded objects of which no skill has been made. -/
def uploaded : GcState := ⟨database, storedPackage⟩

end Sample

open Sample in
/-- The pinned file comes first in every pass, and the manifest, which no retained package holds,
is never looked at. -/
theorem GcState.pinnedFile_hides_manifest :
    ¬ (packageGraph runtime uploaded.objects pinnedFile.unreadable).Reached
        (gcRoots uploaded.db epoch pinnedFile) packageHash.text ∧
      isPastGrace epoch pinnedFile packageHash ∧
      ∀ passes, (uploaded.after runtime epoch pinnedFile passes).db.blob? packageHash =
        some ⟨packageHash, 149, "local_filesystem"⟩ := by
  have hroots : gcRoots uploaded.db epoch pinnedFile = [fileHash.text] := by decide +kernel
  have hleaf : (packageGraph runtime uploaded.objects pinnedFile.unreadable).succ
      fileHash.text = [] := by decide +kernel
  have hunreached : ¬ (packageGraph runtime uploaded.objects pinnedFile.unreadable).Reached
      (gcRoots uploaded.db epoch pinnedFile) packageHash.text := by
    intro hreached
    have honly : packageHash.text = fileHash.text := by
      apply hreached.of_closed (P := fun text ↦ text = fileHash.text)
      · rw [hroots]
        exact fun text ↦ List.mem_singleton.mp
      · rintro root text rfl htext
        rw [hleaf] at htext
        cases htext
    exact absurd honly (by decide)
  have hhidden : ¬ uploaded.Collects runtime epoch pinnedFile packageHash := by
    rintro ⟨-, -, hfew⟩
    have hpinned : 0 < uploaded.markedBefore runtime epoch pinnedFile packageHash := by
      apply List.countP_pos_iff.mpr
      refine ⟨⟨fileHash, 7, "local_filesystem"⟩, List.mem_cons_self, ?_⟩
      have hmarked : uploaded.isMarked runtime epoch pinnedFile
          ⟨fileHash, 7, "local_filesystem"⟩ := by
        apply decide_eq_true
        rw [mem_gcMarked]
        exact .root (hroots ▸ List.mem_singleton_self _)
      rw [hmarked, Bool.true_and]
      decide +kernel
    exact absurd hfew (not_lt.mpr hpinned)
  refine ⟨hunreached, by decide, fun passes ↦ ?_⟩
  have hregistered : (⟨packageHash, 149, "local_filesystem"⟩ : SkillBlobObject) ∈
      uploaded.db.blobs := List.mem_cons_of_mem _ (List.mem_singleton_self _)
  rcases repeatedPasses_collect_iff runtime epoch pinnedFile uploaded _ hregistered with
    ⟨hcollects, -⟩ | ⟨-, hstays⟩
  · exact absurd hcollects hhidden
  · exact (hstays passes).1

end Server

end SkillHive
