import Mathlib.Algebra.BigOperators.Group.Finset.Basic
import SkillHive.Server.Requests
import SkillHive.Snapshot.MaterializedTrees
import SkillHive.Sync.Client

/-!
# Uploading the closure of a snapshot

Before a mutation is submitted, the worker asks the server which objects of the package it does
not hold, and uploads those. The objects are the contents of the files, each once, and the
manifest. The capture bounds the files and the sum of their sizes; the negotiation bounds the
objects, and the sum of their sizes with the manifest among them.
-/

namespace SkillHive

open Foundation Snapshot

namespace Server

/-- `MAX_BLOB_NEGOTIATION_ITEMS` -/
def maxBlobNegotiationItems : ℕ := 1024

/-- Whether `MissingBlobsRequest` takes a body with these hashes and sizes. -/
def acceptsMissingBlobs (protocolVersion : ℕ) (objects : List (String × ℕ)) : Bool :=
  protocolVersion = 1 ∧ 1 ≤ objects.length ∧ objects.length ≤ maxBlobNegotiationItems ∧
    (∀ object ∈ objects, isCanonicalHash object.1 = true ∧ object.2 ≤ maxBlobBytes) ∧
    (objects.map Prod.fst).Nodup ∧ (objects.map Prod.snd).sum ≤ maxPackageBytes

end Server

namespace Sync

/-- `MAX_NEGOTIATION_ITEMS` -/
def maxNegotiationItems : ℕ := 1024

structure BlobDescriptor where
  hash : String
  sizeBytes : ℕ
  deriving DecidableEq, Repr

/-- `from_snapshot_file` -/
def BlobDescriptor.fromSnapshotFile (file : SkillSnapshotFile) : BlobDescriptor :=
  ⟨file.blobHash, file.sizeBytes⟩

/-- `BlobStoreError::to_string` -/
def blobStoreText : BlobStoreError → String
  | .invalidHash hash => s!"invalid SHA-256 blob identifier: {hash}"
  | .notFound hash => s!"blob not found: {hash}"
  | .hashMismatch expected actual =>
    s!"blob integrity check failed: expected {expected}, got {actual}"
  | .corruptedExistingBlob hash => s!"existing content-addressed blob is corrupted: {hash}"

/-- `impl From<BlobStoreError> for NegotiationError` -/
def NegotiationError.ofBlobStoreError : BlobStoreError → NegotiationError
  | .notFound hash => .blobMissing hash
  | other => .blobStore (blobStoreText other)

/-- `descriptors.sort_by(|left, right| left.hash.cmp(&right.hash))` -/
def sortByHash (descriptors : List BlobDescriptor) : List BlobDescriptor :=
  descriptors.mergeSort fun left right ↦ decide (left.hash ≤ right.hash)

/-- `descriptors.dedup_by(|left, right| left.hash == right.hash)` -/
def dedupByHash : List BlobDescriptor → List BlobDescriptor
  | [] => []
  | first :: rest => first :: dedupAfter first rest
where
  /-- What stays of a list after an element that stays. -/
  dedupAfter (previous : BlobDescriptor) : List BlobDescriptor → List BlobDescriptor
    | [] => []
    | next :: rest =>
      if next.hash = previous.hash then dedupAfter previous rest else next :: dedupAfter next rest

variable (libs : Libraries)

/-- `snapshot_closure` -/
def snapshotClosure (blobs : BlobStore) (manifestHash : String) :
    Except NegotiationError (List BlobDescriptor) := do
  let manifest ← (readManifest libs blobs manifestHash).mapError fun _ ↦ .manifestMissing manifestHash
  let descriptors := manifest.files.map BlobDescriptor.fromSnapshotFile
  let manifestBytes ← (blobs.readBytes libs manifestHash).mapError .ofBlobStoreError
  .ok (dedupByHash (sortByHash (descriptors ++ [⟨manifestHash, manifestBytes.size⟩])))

/-- `POST /sync/blobs/missing`, for a server that holds some of the objects. -/
def negotiateMissingBlobs (held : BlobDescriptor → Bool) (objects : List BlobDescriptor) :
    Except SyncClientError (List BlobDescriptor) := do
  require (Server.acceptsMissingBlobs 1 (objects.map fun object ↦ (object.hash, object.sizeBytes)) =
    true) (classifyStatus 422 (some "VALIDATION_ERROR"))
  .ok (objects.filter fun object ↦ !held object)

/-- `PUT /sync/blobs/{hash}`, for a storage that takes every verified object. -/
def uploadBlob (hash : String) (payload : ByteArray) : Except SyncClientError Unit := do
  require (payload.size ≤ Server.maxBlobBytes) (classifyStatus 413 (some "BLOB_TOO_LARGE"))
  require (hash = libs.hashBytes payload) (classifyStatus 400 (some "BLOB_DIGEST_MISMATCH"))

/-- One object in the loop of `sync_snapshot_closure`. -/
def uploadMissing (blobs : BlobStore) (uploaded : ℕ) (blob : BlobDescriptor) :
    Except NegotiationError ℕ := do
  let bytes ← (blobs.readBytes libs blob.hash).mapError .ofBlobStoreError
  (uploadBlob libs blob.hash bytes).mapError .http
  .ok (uploaded + 1)

/-- `sync_snapshot_closure`, with the number of uploaded objects. -/
def syncSnapshotClosure (held : BlobDescriptor → Bool) (blobs : BlobStore) (manifestHash : String) :
    Except NegotiationError ℕ := do
  let closure ← snapshotClosure libs blobs manifestHash
  require (closure.length ≤ maxNegotiationItems) .tooManyObjects
  let missing ← (negotiateMissingBlobs held closure).mapError .http
  foldE (uploadMissing libs blobs) 0 missing

/-! ## The objects of a closure -/

/-- An element that has the hash of its predecessor is dropped, and no other. -/
theorem dedupAfter_spec {previous : BlobDescriptor} {descriptors : List BlobDescriptor}
    (hsorted : (previous :: descriptors).Pairwise fun left right ↦ left.hash ≤ right.hash) :
    ((previous :: dedupByHash.dedupAfter previous descriptors).map BlobDescriptor.hash).Pairwise
      (· < ·) ∧
    (∀ descriptor ∈ dedupByHash.dedupAfter previous descriptors, descriptor ∈ descriptors) ∧
    ∀ descriptor ∈ descriptors, ∃ kept ∈ previous :: dedupByHash.dedupAfter previous descriptors,
      kept.hash = descriptor.hash := by
  induction descriptors generalizing previous with
  | nil => simp [dedupByHash.dedupAfter]
  | cons next rest ih =>
    obtain ⟨hprevious, hrest⟩ := List.pairwise_cons.mp hsorted
    rw [dedupByHash.dedupAfter]
    split
    case isTrue heq =>
      have hskip : (previous :: rest).Pairwise fun left right ↦ left.hash ≤ right.hash :=
        List.pairwise_cons.mpr ⟨fun other hother ↦ hprevious other (List.mem_cons_of_mem _ hother),
          (List.pairwise_cons.mp hrest).2⟩
      obtain ⟨hpair, hsub, hall⟩ := ih hskip
      refine ⟨hpair, fun descriptor h ↦ List.mem_cons_of_mem _ (hsub descriptor h), ?_⟩
      exact List.forall_mem_cons.mpr ⟨⟨previous, List.mem_cons_self, heq.symm⟩, hall⟩
    case isFalse hne =>
      obtain ⟨hpair, hsub, hall⟩ := ih hrest
      refine ⟨?_, ?_, ?_⟩
      · rw [List.map_cons, List.pairwise_cons]
        refine ⟨fun hash hhash ↦ ?_, hpair⟩
        have hlt : previous.hash < next.hash :=
          lt_of_le_of_ne (hprevious next List.mem_cons_self) (Ne.symm hne)
        rcases List.mem_cons.mp hhash with rfl | hhash
        · exact hlt
        · exact lt_trans hlt (List.rel_of_pairwise_cons hpair hhash)
      · intro descriptor h
        rcases List.mem_cons.mp h with rfl | h
        · exact List.mem_cons_self
        · exact List.mem_cons_of_mem _ (hsub descriptor h)
      · refine List.forall_mem_cons.mpr ⟨⟨next, by simp, rfl⟩, fun descriptor h ↦ ?_⟩
        obtain ⟨kept, hkept, heq⟩ := hall descriptor h
        exact ⟨kept, List.mem_cons_of_mem _ hkept, heq⟩

/-- Of sorted descriptors one stays for every hash. -/
theorem dedupByHash_spec {descriptors : List BlobDescriptor}
    (hsorted : descriptors.Pairwise fun left right ↦ left.hash ≤ right.hash) :
    ((dedupByHash descriptors).map BlobDescriptor.hash).Nodup ∧
    (∀ descriptor ∈ dedupByHash descriptors, descriptor ∈ descriptors) ∧
    ∀ descriptor ∈ descriptors, ∃ kept ∈ dedupByHash descriptors, kept.hash = descriptor.hash := by
  cases descriptors with
  | nil => simp [dedupByHash]
  | cons first rest =>
    obtain ⟨hpair, hsub, hall⟩ := dedupAfter_spec hsorted
    refine ⟨hpair.imp ne_of_lt, fun descriptor h ↦ ?_, ?_⟩
    · rcases List.mem_cons.mp h with rfl | h
      · exact List.mem_cons_self
      · exact List.mem_cons_of_mem _ (hsub descriptor h)
    · exact List.forall_mem_cons.mpr ⟨⟨first, List.mem_cons_self, rfl⟩, hall⟩

variable {libs} {contents : List (String × ByteArray)} {blobs : BlobStore} {manifestHash : String}

/-- The objects of a package: the contents of the files and the manifest. -/
def objectsOf (libs : Libraries) (contents : List (String × ByteArray)) : Finset ByteArray :=
  insert (manifestBytes libs contents) (contents.map Prod.snd).toFinset

/-- The package is within the limits of the negotiation. -/
structure FitsNegotiation (libs : Libraries) (contents : List (String × ByteArray)) : Prop where
  count : (objectsOf libs contents).card ≤ 1024
  manifest : (manifestBytes libs contents).size ≤ 64 * 1024 * 1024
  total : ∑ bytes ∈ objectsOf libs contents, bytes.size ≤ 512 * 1024 * 1024

/-- How an object is announced. -/
def describe (libs : Libraries) (bytes : ByteArray) : BlobDescriptor :=
  ⟨libs.hashBytes bytes, bytes.size⟩

theorem snapshotClosure_eq
    (hmanifest : readManifest libs blobs manifestHash = .ok (manifestOf libs contents))
    (hread : blobs.readBytes libs manifestHash = .ok (manifestBytes libs contents)) :
    snapshotClosure libs blobs manifestHash = .ok (dedupByHash (sortByHash
      ((contents.map Prod.snd ++ [manifestBytes libs contents]).map (describe libs)))) := by
  obtain ⟨-, hhash, -⟩ := BlobStore.readBytes_eq_ok.mp hread
  have hdescriptors : (manifestOf libs contents).files.map BlobDescriptor.fromSnapshotFile ++
      [⟨manifestHash, (manifestBytes libs contents).size⟩] =
        (contents.map Prod.snd ++ [manifestBytes libs contents]).map (describe libs) := by
    simp [manifestOf, BlobDescriptor.fromSnapshotFile, describe, hhash, Function.comp_def]
  unfold snapshotClosure
  rw [hmanifest, hread, ← hdescriptors]
  rfl

/-- The closure announces every object once. -/
theorem closure_perm (hdigests : Set.InjOn libs.hashBytes (objectsOf libs contents : Set ByteArray)) :
    (dedupByHash (sortByHash
      ((contents.map Prod.snd ++ [manifestBytes libs contents]).map (describe libs)))).Perm
        ((objectsOf libs contents).toList.map (describe libs)) := by
  have hmem : ∀ bytes, bytes ∈ contents.map Prod.snd ++ [manifestBytes libs contents] ↔
      bytes ∈ objectsOf libs contents := by
    intro bytes
    rw [objectsOf, Finset.mem_insert, List.mem_toFinset, List.mem_append, List.mem_singleton, or_comm]
  generalize contents.map Prod.snd ++ [manifestBytes libs contents] = objects at hmem
  have hinj : ∀ bytes ∈ objects, ∀ bytes' ∈ objects,
      (describe libs bytes).hash = (describe libs bytes').hash → bytes = bytes' :=
    fun bytes hbytes bytes' hbytes' heq ↦
      hdigests ((hmem bytes).mp hbytes) ((hmem bytes').mp hbytes') heq
  have hsort : (sortByHash (objects.map (describe libs))).Perm (objects.map (describe libs)) :=
    List.mergeSort_perm _ _
  obtain ⟨hnodup, hsub, hall⟩ := dedupByHash_spec
    (pairwise_sortBy BlobDescriptor.hash (objects.map (describe libs)))
  refine (List.perm_ext_iff_of_nodup hnodup.of_map ?_).mpr fun descriptor ↦ ?_
  · refine (Finset.nodup_toList _).map_on fun bytes hbytes bytes' hbytes' heq ↦ ?_
    rw [Finset.mem_toList, ← hmem] at hbytes hbytes'
    exact hinj bytes hbytes bytes' hbytes' (congrArg BlobDescriptor.hash heq)
  · simp only [List.mem_map, Finset.mem_toList, ← hmem]
    constructor
    · intro h
      exact List.mem_map.mp (hsort.mem_iff.mp (hsub descriptor h))
    · rintro ⟨bytes, hbytes, rfl⟩
      obtain ⟨kept, hkept, heq⟩ := hall _ (hsort.mem_iff.mpr (List.mem_map_of_mem hbytes))
      obtain ⟨bytes', hbytes', rfl⟩ := List.mem_map.mp (hsort.mem_iff.mp (hsub kept hkept))
      rw [← hinj bytes' hbytes' bytes hbytes heq]
      exact hkept

/-! ## Which packages can be uploaded -/

/-- The two formats of a content address are the same. -/
theorem isCanonicalHash_of_isCanonicalSha256 {hash : String} (h : isCanonicalSha256 hash = true) :
    Server.isCanonicalHash hash = true := by
  unfold isCanonicalSha256 at h
  unfold Server.isCanonicalHash
  rw [decide_eq_true_eq] at h ⊢
  refine ⟨h.1, h.2.1, List.all_eq_true.mpr fun c hc ↦ ?_⟩
  have hdigit := List.all_eq_true.mp h.2.2 c hc
  unfold isLowerHexdigit at hdigit
  unfold Server.isLowerHex
  rw [decide_eq_true_eq] at hdigit ⊢
  obtain ⟨hdigit | hlower | hupper, hnot⟩ := hdigit
  · exact .inl hdigit
  · exact .inr hlower
  · exact absurd ⟨hupper.1, le_trans hupper.2 (by decide)⟩ hnot

/-- Objects that can be read and are small enough are uploaded. -/
theorem exists_foldE_uploadMissing (uploaded : ℕ) {missing : List BlobDescriptor}
    (h : ∀ blob ∈ missing, ∃ bytes, blobs.readBytes libs blob.hash = .ok bytes ∧
      bytes.size ≤ Server.maxBlobBytes) :
    ∃ total, foldE (uploadMissing libs blobs) uploaded missing = .ok total := by
  induction missing generalizing uploaded with
  | nil => exact ⟨uploaded, rfl⟩
  | cons blob missing ih =>
    obtain ⟨⟨bytes, hread, hsize⟩, hrest⟩ := List.forall_mem_cons.mp h
    obtain ⟨-, hhash, -⟩ := BlobStore.readBytes_eq_ok.mp hread
    have hupload : uploadBlob libs blob.hash bytes = .ok () :=
      bind_eq_ok.mpr ⟨(), require_eq_ok.mpr hsize, require_eq_ok.mpr hhash.symm⟩
    obtain ⟨total, hloop⟩ := ih (uploaded + 1) hrest
    refine ⟨total, foldE_cons_eq_ok.mpr ⟨uploaded + 1, ?_, hloop⟩⟩
    exact bind_eq_ok.mpr ⟨bytes, mapError_eq_ok.mpr hread,
      bind_eq_ok.mpr ⟨(), mapError_eq_ok.mpr hupload, rfl⟩⟩

/-- The schema takes the closure exactly if the package is within its limits. -/
theorem acceptsMissingBlobs_iff {closure : List BlobDescriptor}
    (hperm : closure.Perm ((objectsOf libs contents).toList.map (describe libs)))
    (hdigests : Set.InjOn libs.hashBytes (objectsOf libs contents : Set ByteArray))
    (hread : ∀ bytes ∈ objectsOf libs contents,
      blobs.readBytes libs (libs.hashBytes bytes) = .ok bytes)
    (hsizes : ∀ source ∈ contents, source.2.size ≤ Server.maxBlobBytes) :
    Server.acceptsMissingBlobs 1 (closure.map fun object ↦ (object.hash, object.sizeBytes)) = true ↔
      FitsNegotiation libs contents := by
  have hlength : closure.length = (objectsOf libs contents).card := by
    rw [hperm.length_eq, List.length_map, Finset.length_toList]
  have hnonempty : 1 ≤ (objectsOf libs contents).card :=
    Finset.card_pos.mpr (Finset.insert_nonempty _ _)
  have hsum : (closure.map BlobDescriptor.sizeBytes).sum =
      ∑ bytes ∈ objectsOf libs contents, bytes.size := by
    rw [(hperm.map BlobDescriptor.sizeBytes).sum_eq, List.map_map, ← Finset.sum_map_toList]
    rfl
  have hnodup : (closure.map BlobDescriptor.hash).Nodup := by
    rw [(hperm.map BlobDescriptor.hash).nodup_iff, List.map_map]
    refine (Finset.nodup_toList _).map_on fun bytes hbytes bytes' hbytes' heq ↦ ?_
    exact hdigests (Finset.mem_toList.mp hbytes) (Finset.mem_toList.mp hbytes') heq
  have hmem : ∀ object, object ∈ closure ↔ ∃ bytes ∈ objectsOf libs contents,
      describe libs bytes = object := by
    intro object
    rw [hperm.mem_iff, List.mem_map]
    simp only [Finset.mem_toList]
  unfold Server.acceptsMissingBlobs
  rw [decide_eq_true_eq]
  simp only [List.length_map, List.map_map, Function.comp_def, List.forall_mem_map, hlength]
  constructor
  · rintro ⟨-, -, hcount, hall, -, htotal⟩
    refine ⟨hcount, ?_, hsum ▸ htotal⟩
    have hmanifest : describe libs (manifestBytes libs contents) ∈ closure :=
      (hmem _).mpr ⟨_, Finset.mem_insert_self _ _, rfl⟩
    exact (hall _ hmanifest).2
  · rintro ⟨hcount, hmanifest, htotal⟩
    refine ⟨trivial, hnonempty, hcount, fun object hobject ↦ ?_, hnodup, hsum ▸ htotal⟩
    obtain ⟨bytes, hbytes, rfl⟩ := (hmem object).mp hobject
    obtain ⟨hcanonical, -, -⟩ := BlobStore.readBytes_eq_ok.mp (hread bytes hbytes)
    refine ⟨isCanonicalHash_of_isCanonicalSha256 hcanonical, ?_⟩
    rcases Finset.mem_insert.mp hbytes with rfl | hbytes
    · exact hmanifest
    · obtain ⟨source, hsource, rfl⟩ := List.mem_map.mp (List.mem_toFinset.mp hbytes)
      exact hsizes source hsource

/-- A readable package can be uploaded, whatever the server holds of it, exactly if it is within
the limits of the negotiation. -/
theorem exists_syncSnapshotClosure_iff {held : BlobDescriptor → Bool}
    (hmanifest : readManifest libs blobs manifestHash = .ok (manifestOf libs contents))
    (hhash : manifestHash = libs.hashBytes (manifestBytes libs contents))
    (hread : ∀ bytes ∈ objectsOf libs contents,
      blobs.readBytes libs (libs.hashBytes bytes) = .ok bytes) :
    (∃ uploaded, syncSnapshotClosure libs held blobs manifestHash = .ok uploaded) ↔
      FitsNegotiation libs contents := by
  have hbytes : blobs.readBytes libs manifestHash = .ok (manifestBytes libs contents) :=
    hhash ▸ hread _ (Finset.mem_insert_self _ _)
  have hdigests : Set.InjOn libs.hashBytes (objectsOf libs contents : Set ByteArray) := by
    intro bytes hmem bytes' hmem' heq
    have hsame := hread bytes hmem
    rw [heq, hread bytes' hmem'] at hsame
    exact (Except.ok.inj hsame).symm
  have hsizes : ∀ source ∈ contents, source.2.size ≤ Server.maxBlobBytes := fun source hsource ↦
    (isSource_of_valid (readManifest_valid hmanifest).2 hsource).sizeBytes
  have hperm := closure_perm hdigests
  have haccepts := acceptsMissingBlobs_iff hperm hdigests hread hsizes
  unfold syncSnapshotClosure
  rw [snapshotClosure_eq hmanifest hbytes]
  generalize dedupByHash _ = closure at hperm haccepts
  constructor
  · rintro ⟨uploaded, h⟩
    obtain ⟨_, hclosure, h⟩ := bind_eq_ok.mp h
    cases hclosure
    obtain ⟨_, -, h⟩ := bind_eq_ok.mp h
    obtain ⟨missing, hnegotiate, -⟩ := bind_eq_ok.mp h
    obtain ⟨_, haccepted, -⟩ := bind_eq_ok.mp (mapError_eq_ok.mp hnegotiate)
    exact haccepts.mp (require_eq_ok.mp haccepted)
  · intro hfits
    have hlength : closure.length ≤ maxNegotiationItems := by
      rw [hperm.length_eq, List.length_map, Finset.length_toList]
      exact hfits.count
    have hnegotiate : negotiateMissingBlobs held closure =
        .ok (closure.filter fun object ↦ !held object) :=
      bind_eq_ok.mpr ⟨(), require_eq_ok.mpr (haccepts.mpr hfits), rfl⟩
    have hobjects : ∀ object ∈ closure.filter fun object ↦ !held object, ∃ bytes,
        blobs.readBytes libs object.hash = .ok bytes ∧ bytes.size ≤ Server.maxBlobBytes := by
      intro object hobject
      obtain ⟨bytes, hmem, rfl⟩ := List.mem_map.mp
        (hperm.mem_iff.mp (List.mem_of_mem_filter hobject))
      rw [Finset.mem_toList] at hmem
      refine ⟨bytes, hread bytes hmem, ?_⟩
      rcases Finset.mem_insert.mp hmem with rfl | hmem
      · exact hfits.manifest
      · obtain ⟨source, hsource, rfl⟩ := List.mem_map.mp (List.mem_toFinset.mp hmem)
        exact hsizes source hsource
    obtain ⟨total, hloop⟩ := exists_foldE_uploadMissing 0 hobjects
    exact ⟨total, bind_eq_ok.mpr ⟨closure, rfl, bind_eq_ok.mpr ⟨(), require_eq_ok.mpr hlength,
      bind_eq_ok.mpr ⟨_, mapError_eq_ok.mpr hnegotiate, hloop⟩⟩⟩⟩

theorem readManifest_grows {blobs' : BlobStore} {manifest : SkillSnapshotManifest}
    (hgrows : blobs.Grows blobs') (h : readManifest libs blobs manifestHash = .ok manifest) :
    readManifest libs blobs' manifestHash = .ok manifest := by
  obtain ⟨bytes, document, hread, hrest⟩ := readManifestWithPolicy_eq_ok.mp h
  exact readManifestWithPolicy_eq_ok.mpr ⟨bytes, document, hgrows.readBytes hread, hrest⟩

/-- What was captured can be uploaded at any later time, whatever the server holds of it, exactly
if it is within the limits of the negotiation. -/
theorem captured_uploads_iff {tree : DirectoryTree} {blobs' later : BlobStore}
    {ref : SkillSnapshotRef}
    (hcapture : captureWorkspace libs blobs (.directory tree.entries) .default = .ok (blobs', ref))
    (hjson : libs.fromSlice (manifestBytes libs (contentsOf .default tree.entries)) =
      some (manifestOf libs (contentsOf .default tree.entries)).toDocument)
    (hdigests : Set.InjOn libs.hashBytes
      (bytesInPlay libs blobs' (contentsOf .default tree.entries)))
    (hgrows : blobs'.Grows later) (held : BlobDescriptor → Bool) :
    (∃ uploaded, syncSnapshotClosure libs held later ref.manifestHash = .ok uploaded) ↔
      FitsNegotiation libs (contentsOf .default tree.entries) := by
  obtain ⟨-, hvalid, -, hheld, rfl⟩ := captureWorkspace_spec hcapture
  have hmanifest := readManifestWithPolicy_of_held hvalid hheld hjson hdigests
  refine exists_syncSnapshotClosure_iff (readManifest_grows hgrows hmanifest) rfl fun bytes hbytes ↦ ?_
  rcases Finset.mem_insert.mp hbytes with rfl | hbytes
  · exact hgrows.readBytes (readBytes_of_holds hdigests (.inr (.inr rfl)) hheld.manifest)
  · obtain ⟨source, hsource, rfl⟩ := List.mem_map.mp (List.mem_toFinset.mp hbytes)
    exact hgrows.readBytes (readBytes_of_holds hdigests (.inr (.inl ⟨source, hsource, rfl⟩))
      (hheld.content source hsource))

theorem fitsNegotiation_plain : FitsNegotiation plainLibraries (sampleContents plainPaths) := by
  have hne : (sampleText plainPaths).toUTF8 ≠ sampleSkill := sampleText_ne
  have hsize : (sampleText plainPaths).toUTF8.size = 272 := by decide +kernel
  have hobjects : objectsOf plainLibraries (sampleContents plainPaths) =
      {(sampleText plainPaths).toUTF8, sampleSkill} := by
    have hbytes : (sampleContents plainPaths).map Prod.snd = [sampleSkill, sampleSkill] := rfl
    unfold objectsOf
    rw [hbytes, List.toFinset_cons, List.toFinset_cons, Finset.insert_idem]
    rfl
  refine ⟨?_, ?_, ?_⟩
  · rw [hobjects, Finset.card_pair hne]
    decide
  · exact hsize.trans_le (by decide)
  · rw [hobjects, Finset.sum_pair hne, hsize, size_sampleSkill]
    decide

theorem plain_uploads :
    ∃ uploaded, syncSnapshotClosure plainLibraries (fun _ ↦ false) plainStore
      (refOf plainLibraries (sampleContents plainPaths)).manifestHash = .ok uploaded := by
  refine (captured_uploads_iff capture_plainTree fromSlice_plainTree injOn_plainTree
    (BlobStore.Grows.refl _) _).mpr ?_
  rw [contentsOf_plainTree]
  exact fitsNegotiation_plain

/-! ## A directory that fills the limits of a capture -/

/-- A file of 64 MiB with one value in every byte. -/
@[irreducible]
def block (value : UInt8) : ByteArray := ⟨Array.replicate (64 * 1024 * 1024) value⟩

theorem size_block (value : UInt8) : (block value).size = 64 * 1024 * 1024 := by
  unfold block
  exact Array.size_replicate

theorem first_block (value : UInt8) : (block value).data[0]? = some value := by
  unfold block
  rw [Array.getElem?_replicate, if_pos (by decide)]

theorem block_injective : Function.Injective block := by
  intro value value' h
  have hfirst := first_block value
  rw [h, first_block] at hfirst
  exact (Option.some.inj hfirst).symm

def blockFiles : List (String × UInt8) :=
  [("SKILL.md", 0), ("block1", 1), ("block2", 2), ("block3", 3), ("block4", 4), ("block5", 5),
    ("block6", 6), ("block7", 7)]

def blockDigests : List String :=
  ["sha256:3b6a07d0d404fab4e23b6d34bc6696a6a312dd92821332385e5af7c01c421351",
    "sha256:9aeda0ca13e528c577f7436bdf406521ffbce63dde0d7ae17dc0aa0ea709fe89",
    "sha256:57601e835866583c18d6f6a09d23cd7f1dd4fd10794ee12660cbc63c9b3a52a4",
    "sha256:9110bd3e5ffaf8ef6a16c8c18d36abcf8d33747d0f3c4072d775d3d228bdca68",
    "sha256:d5eb93383dde5708e5165ce153e876f14c18021306d71a24387017d3377b3444",
    "sha256:7cb8ed71123ad7c6a6bd8947ab9a926e63d42cd3827bbf9c7aa84fd9f0a5c4e2",
    "sha256:8f33562c0d945d5595a52ebc2243676933a09a7c763a08e53c6914d366b35dbd",
    "sha256:08fc7f5f33ae0938ae102cce12411f3cb1771056331da72a62fddaeedfa633cb"]

def blockManifestDigest : String :=
  "sha256:8c218a563b12a1ba66520d7bce8a45bb9041d1d97fffae331c26b1932358a365"

def blockDigest (value : UInt8) : String := blockDigests.getD value.toNat blockManifestDigest

/-- The manifest of the blocks with these values. -/
def manifestOfBlocks (files : List (String × UInt8)) : SkillSnapshotManifest where
  formatVersion := 1
  files := files.map fun file ↦ ⟨file.1, blockDigest file.2, 64 * 1024 * 1024⟩

def fileText (file : SkillSnapshotFile) : String :=
  "\x7b\"path\":\"" ++ file.path ++ "\",\"blobHash\":\"" ++ file.blobHash ++
    "\",\"sizeBytes\":" ++ toString file.sizeBytes ++ "\x7d"

/-- The manifest as it is stored. -/
def blockText : ByteArray :=
  ("\x7b\"formatVersion\":1,\"files\":[" ++
    ",".intercalate ((manifestOfBlocks blockFiles).files.map fileText) ++ "]\x7d").toUTF8

/-- The digests of the blocks and of their manifest, told apart by the first byte. -/
def blockHash (bytes : ByteArray) : String :=
  match bytes.data[0]? with
  | some value => blockDigest value
  | none => ""

def blockLibraries : Libraries where
  hashBytes := blockHash
  fromSlice bytes := if bytes = blockText then some (manifestOfBlocks blockFiles).toDocument else none
  toVec _ := blockText

def contentsOfBlocks (files : List (String × UInt8)) : List (String × ByteArray) :=
  files.map fun file ↦ (file.1, block file.2)

/-- The blocks and the manifest are stored. -/
def blockStore : BlobStore where
  rows := (blockFiles.map fun file ↦ ⟨blockDigest file.2, block file.2⟩) ++
    [⟨blockManifestDigest, blockText⟩]
  nodup_keys := by decide

def blockTree : DirectoryTree := flatTree (contentsOfBlocks blockFiles) (by decide) (by decide)

theorem hasContents_blockTree : HasContents blockTree.entries (contentsOfBlocks blockFiles) :=
  hasContents_flatTree _ _

theorem first_blockText : blockText.data[0]? = some 123 := by decide +kernel

theorem hashBytes_of_first {bytes : ByteArray} {value : UInt8} (h : bytes.data[0]? = some value) :
    blockLibraries.hashBytes bytes = blockDigest value := by
  simp only [blockLibraries, blockHash, h]

theorem hashBytes_block (value : UInt8) : blockLibraries.hashBytes (block value) = blockDigest value :=
  hashBytes_of_first (first_block value)

theorem hashBytes_blockText : blockLibraries.hashBytes blockText = blockManifestDigest :=
  hashBytes_of_first first_blockText

theorem manifestOf_contentsOfBlocks (files : List (String × UInt8)) :
    manifestOf blockLibraries (contentsOfBlocks files) = manifestOfBlocks files := by
  have hfile : ∀ file : String × UInt8, (⟨file.1, blockLibraries.hashBytes (block file.2),
      (block file.2).size⟩ : SkillSnapshotFile) =
        ⟨file.1, blockDigest file.2, 64 * 1024 * 1024⟩ := by
    intro file
    rw [hashBytes_block, size_block]
  simp only [manifestOf, contentsOfBlocks, manifestOfBlocks, List.map_map, Function.comp_def, hfile,
    snapshotFormatVersion]

theorem get?_blockStore {file : String × UInt8} (hfile : file ∈ blockFiles) :
    blockStore.get? (blockDigest file.2) = some ⟨blockDigest file.2, block file.2⟩ := by
  refine Table.get?_eq_some_iff.mpr ⟨?_, rfl⟩
  exact List.mem_append_left _ (List.mem_map_of_mem hfile)

theorem isCanonicalSha256_blockDigest :
    ∀ file ∈ blockFiles, isCanonicalSha256 (blockDigest file.2) = true := by decide +kernel

theorem readBytes_block {file : String × UInt8} (hfile : file ∈ blockFiles) :
    blockStore.readBytes blockLibraries (blockLibraries.hashBytes (block file.2)) =
      .ok (block file.2) := by
  refine BlobStore.readBytes_eq_ok.mpr ⟨?_, rfl, ?_⟩
  · rw [hashBytes_block]
    exact isCanonicalSha256_blockDigest file hfile
  · rw [hashBytes_block]
    exact get?_blockStore hfile

theorem readBytes_blockText : blockStore.readBytes blockLibraries blockManifestDigest =
    .ok blockText := by
  refine BlobStore.readBytes_eq_ok.mpr ⟨by decide +kernel, hashBytes_blockText, ?_⟩
  refine Table.get?_eq_some_iff.mpr ⟨?_, rfl⟩
  exact List.mem_append_right _ (List.mem_singleton_self _)

theorem manifestOfBlocks_valid : (manifestOfBlocks blockFiles).Valid .default where
  count := by decide
  files file hfile := by
    obtain ⟨entry, hentry, rfl⟩ := List.mem_map.mp hfile
    have hpaths : ∀ entry ∈ blockFiles, ∀ part ∈ segments entry.1, isPortableSegment part = true := by
      decide +kernel
    exact ⟨isPortablePath_iff.mpr (hpaths entry hentry), isCanonicalSha256_blockDigest entry hentry,
      le_refl _⟩
  sorted := by decide +kernel
  entrypoint := ⟨_, List.mem_cons_self, rfl⟩
  total := by decide

theorem manifestBytes_blocks : manifestBytes blockLibraries (contentsOfBlocks blockFiles) = blockText :=
  rfl

theorem areHeld_blocks : AreHeld blockLibraries blockStore (contentsOfBlocks blockFiles) where
  content source hsource := by
    obtain ⟨file, hfile, rfl⟩ := List.mem_map.mp hsource
    exact BlobStore.holds_of_readBytes (readBytes_block hfile)
  manifest := by
    rw [manifestBytes_blocks, hashBytes_blockText]
    exact BlobStore.holds_of_readBytes readBytes_blockText

theorem readManifest_blocks :
    readManifest blockLibraries blockStore blockManifestDigest =
      .ok (manifestOfBlocks blockFiles) := by
  have hjson : blockLibraries.fromSlice blockText =
      some (manifestOfBlocks blockFiles).toDocument := by
    simp only [blockLibraries, if_true]
  refine readManifestWithPolicy_eq_ok.mpr ⟨_, _, readBytes_blockText, hjson,
    SkillSnapshotManifest.ofDocument_toDocument (by decide) fun file hfile ↦ ?_, rfl,
    manifestOfBlocks_valid⟩
  obtain ⟨entry, -, rfl⟩ := List.mem_map.mp hfile
  change 64 * 1024 * 1024 < 2 ^ 64
  decide

/-- The blocks take up all that a package may have, so there is no room for the manifest. -/
theorem not_fitsNegotiation_blocks :
    ¬ FitsNegotiation blockLibraries (contentsOfBlocks blockFiles) := by
  intro hfits
  have hcontents : (contentsOfBlocks blockFiles).map Prod.snd = (blockFiles.map Prod.snd).map block := by
    unfold contentsOfBlocks
    rw [List.map_map, List.map_map]
    rfl
  have hnodup : ((blockFiles.map Prod.snd).map block).Nodup :=
    List.Nodup.map block_injective (by decide)
  have hnew : blockText ∉ ((blockFiles.map Prod.snd).map block).toFinset := by
    intro hmem
    obtain ⟨value, hvalue, heq⟩ := List.mem_map.mp (List.mem_toFinset.mp hmem)
    have hfirst := first_block value
    rw [heq, first_blockText] at hfirst
    rw [← Option.some.inj hfirst] at hvalue
    exact absurd hvalue (by decide)
  have hsizes : (((blockFiles.map Prod.snd).map block).map fun bytes ↦ bytes.size).sum =
      512 * 1024 * 1024 := by
    simp only [List.map_map, Function.comp_def, size_block]
    rfl
  have hblocks : ∑ bytes ∈ ((blockFiles.map Prod.snd).map block).toFinset, bytes.size =
      512 * 1024 * 1024 := (List.sum_toFinset _ hnodup).trans hsizes
  have htotal := hfits.total
  unfold objectsOf at htotal
  rw [manifestBytes_blocks, hcontents, Finset.sum_insert hnew, hblocks] at htotal
  obtain ⟨htext, -⟩ := Array.getElem?_eq_some_iff.mp first_blockText
  have hsize : blockText.size = blockText.data.size := rfl
  omega

/-- The directory is captured, but the closure of its snapshot is refused however often it is
uploaded. -/
theorem blocks_never_upload :
    (∃ ref, captureWorkspace blockLibraries blockStore (.directory blockTree.entries) .default =
      .ok (blockStore, ref) ∧ ref.manifestHash = blockManifestDigest) ∧
    ∀ held, ¬ ∃ uploaded, syncSnapshotClosure blockLibraries held blockStore blockManifestDigest =
      .ok uploaded := by
  constructor
  · have hvalid : (manifestOf blockLibraries (contentsOfBlocks blockFiles)).Valid .default :=
      manifestOf_contentsOfBlocks blockFiles ▸ manifestOfBlocks_valid
    have hcapture := captureWorkspace_of_holds hasContents_blockTree hvalid areHeld_blocks
    have hhash : (refOf blockLibraries (contentsOfBlocks blockFiles)).manifestHash =
        blockManifestDigest := by
      unfold refOf
      dsimp only
      rw [manifestBytes_blocks, hashBytes_blockText]
    exact ⟨_, hcapture, hhash⟩
  · intro held h
    have hmanifest : readManifest blockLibraries blockStore blockManifestDigest =
        .ok (manifestOf blockLibraries (contentsOfBlocks blockFiles)) := by
      rw [manifestOf_contentsOfBlocks]
      exact readManifest_blocks
    refine not_fitsNegotiation_blocks ((exists_syncSnapshotClosure_iff hmanifest
      hashBytes_blockText.symm fun bytes hbytes ↦ ?_).mp h)
    rcases Finset.mem_insert.mp hbytes with rfl | hbytes
    · rw [manifestBytes_blocks, hashBytes_blockText]
      exact readBytes_blockText
    · obtain ⟨source, hsource, rfl⟩ := List.mem_map.mp (List.mem_toFinset.mp hbytes)
      obtain ⟨file, hfile, rfl⟩ := List.mem_map.mp hsource
      exact readBytes_block hfile

end Sync

end SkillHive
