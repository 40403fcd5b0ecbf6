import SkillHive.Server.PackageRetention
import SkillHive.Sync.ManifestCodecs

/-!
# Captured packages on the server

A version gets its package from a request that had the manifest validated, or from a synthesis
that wrote one. A captured manifest has the desktop's name for the version of the format, so it
is never valid on the server, and no version ever gets the package of a captured directory.
-/

namespace SkillHive

open Foundation Snapshot

namespace Sync

open Server Server.PackageRetention

/-! ## Bytes in play -/

/-- The bytes that an action may store. -/
def written (rt : Runtime) : PackageRetention.Action → List ByteArray
  | .upload _ _ payload _ => [payload]
  | .synthesize slug description content _ =>
    (synthesizedObjects rt slug description content).map StoredObject.bytes
  | _ => []

/-- The bytes that are stored, or that an action of the run may store. -/
def bytesOfRun (rt : Runtime) (s : State) (actions : List PackageRetention.Action) :
    Set ByteArray :=
  {bytes | (∃ object ∈ s.objects, object.bytes = bytes) ∨
    ∃ action ∈ actions, bytes ∈ written rt action}

variable {rt : Runtime} {play : Set ByteArray} {s s' : State}

/-- Every object has bytes that are in play, under their own address. -/
def Addressed (rt : Runtime) (play : Set ByteArray) (objects : ObjectTable) : Prop :=
  ∀ (hash : BlobHash) object, objects.get? hash = some object →
    object.bytes ∈ play ∧ rt.sha256 object.bytes = hash

/-- The package is the address of a valid manifest. -/
def Accepted (rt : Runtime) (play : Set ByteArray) (package : BlobHash) : Prop :=
  ∃ bytes ∈ play, rt.sha256 bytes = package ∧
    ∃ files, validateSnapshotManifestBytes rt bytes = .ok files

/-- What is stored is addressed, and what versions and requests refer to is accepted. -/
structure Vetted (rt : Runtime) (play : Set ByteArray) (s : State) : Prop where
  objects : Addressed rt play s.objects
  packages : ∀ package ∈ s.livePackages, Accepted rt play package

theorem get?_putObject_eq_some {objects : ObjectTable} {hash other : BlobHash} {payload : ByteArray}
    {object : StoredObject} (h : (putObject objects hash payload).get? other = some object) :
    objects.get? other = some object ∨ (other = hash ∧ object.bytes = payload) := by
  rw [putObject] at h
  cases hinsert : objects.insert? ⟨hash, payload⟩ with
  | none =>
    rw [hinsert] at h
    exact .inl h
  | some objects' =>
    rw [hinsert, Option.getD_some, Table.get?_insert? hinsert] at h
    split at h
    case isTrue heq =>
      cases h
      exact .inr ⟨heq, rfl⟩
    case isFalse => exact .inl h

theorem Addressed.putObject {objects : ObjectTable} (h : Addressed rt play objects)
    {payload : ByteArray} (hpayload : payload ∈ play) :
    Addressed rt play (putObject objects (rt.sha256 payload) payload) := by
  intro hash object hobject
  rcases get?_putObject_eq_some hobject with hold | ⟨rfl, hbytes⟩
  · exact h hash object hold
  · rw [hbytes]
    exact ⟨hpayload, rfl⟩

/-- A manifest that is read from its address. -/
theorem Addressed.accepted {objects : ObjectTable} (h : Addressed rt play objects)
    {package : BlobHash} {files : List ManifestFile}
    (hstored : storedManifest? rt objects package.text = some files) :
    Accepted rt play package := by
  obtain ⟨bytes, hopen, hvalid⟩ := Option.bind_eq_some_iff.mp hstored
  obtain ⟨hash, hhash, hbytes⟩ := Option.bind_eq_some_iff.mp hopen
  rw [if_neg Bool.false_ne_true, Option.map_eq_some_iff] at hbytes
  obtain ⟨object, hobject, rfl⟩ := hbytes
  obtain rfl : hash = package := BlobHash.eq_of_text_eq (BlobHash.ofText?_eq_some.mp hhash)
  obtain ⟨hplay, hdigest⟩ := h hash object hobject
  refine ⟨object.bytes, hplay, hdigest, files, ?_⟩
  cases hresult : validateSnapshotManifestBytes rt object.bytes with
  | error error =>
    rw [hresult] at hvalid
    cases hvalid
  | ok found =>
    rw [hresult] at hvalid
    cases hvalid
    rfl

namespace Vetted

/-- A step that refers to live or accepted packages. -/
theorem of_live (h : Vetted rt play s) (hobjects : Addressed rt play s'.objects)
    (hlive : ∀ package ∈ s'.livePackages, package ∈ s.livePackages ∨ Accepted rt play package) :
    Vetted rt play s' :=
  ⟨hobjects, fun package hpackage ↦ (hlive package hpackage).elim (h.packages package) id⟩

theorem upload (h : Vetted rt play s) (hashValue : String) (contentLength : Option String)
    {payload : ByteArray} (hpayload : payload ∈ play) (now : ℕ) :
    Vetted rt play (s.upload rt hashValue contentLength payload now) := by
  unfold State.upload
  cases hupload : Server.uploadBlob rt s.db (storageOf rt s.objects) hashValue contentLength
    payload with
  | error error => exact h
  | ok db =>
    refine h.of_live (h.objects.putObject hpayload) fun package hpackage ↦ .inl ?_
    rw [mem_livePackages] at hpackage ⊢
    simp only [(uploadBlob_sameButBlobs hupload).domain.versions] at hpackage
    exact hpackage

theorem check (h : Vetted rt play s) (package : BlobHash) :
    Vetted rt play (s.check rt package) := by
  unfold State.check
  cases hverify : verifyPackageClosure rt s.db (storageOf rt s.objects) package with
  | error error => exact h
  | ok =>
    refine h.of_live h.objects fun other hother ↦ ?_
    rcases mem_livePackages.mp hother with hchecked | hversion
    · rcases List.mem_cons.mp hchecked with rfl | hold
      · obtain ⟨files, hstored⟩ := (held_of_verified hverify).readable
        exact .inr (h.objects.accepted hstored)
      · exact .inl (mem_livePackages.mpr (.inl hold))
    · exact .inl (mem_livePackages.mpr (.inr hversion))

theorem synthesize (h : Vetted rt play s) {slug description : String} {content : Json} {now : ℕ}
    (hplay : ∀ object ∈ synthesizedObjects rt slug description content, object.bytes ∈ play)
    (hstep : s.synthesize rt slug description content now = some s') : Vetted rt play s' := by
  unfold State.synthesize at hstep
  split at hstep
  case h_1 db package hsynthesize =>
    dsimp only at hstep
    split at hstep
    case isTrue hholds =>
      have hobjects : Addressed rt play ((synthesizedObjects rt slug description content).foldl
          (fun objects object ↦ Server.putObject objects object.hash object.bytes)
          s.objects) := by
        obtain ⟨hentrypoint, hrest⟩ := List.forall_mem_cons.mp hplay
        exact (h.objects.putObject hentrypoint).putObject (hrest _ List.mem_cons_self)
      obtain ⟨files, hstored⟩ := (held_of_holds hholds).readable
      have haccepted := hobjects.accepted hstored
      cases hstep
      refine h.of_live hobjects fun other hother ↦ ?_
      rcases mem_livePackages.mp hother with hchecked | hversion
      · rcases List.mem_cons.mp hchecked with rfl | hold
        · exact .inr haccepted
        · exact .inl (mem_livePackages.mpr (.inl hold))
      · simp only [(synthesizeLegacyPackage_sameButBlobs hsynthesize).domain.versions] at hversion
        exact .inl (mem_livePackages.mpr (.inr hversion))
    case isFalse => cases hstep
  all_goals
    cases hstep
    exact h

theorem attach (h : Vetted rt play s) {skillId : RowId} {package : BlobHash}
    (hstep : s.attach skillId package = some s') : Vetted rt play s' := by
  obtain ⟨skill, -, hstep⟩ := Option.bind_eq_some_iff.mp hstep
  obtain ⟨version, -, hstep⟩ := Option.bind_eq_some_iff.mp hstep
  split at hstep
  case isTrue hready =>
    cases hstep
    refine h.of_live h.objects fun other hother ↦ .inl ?_
    rcases mem_livePackages.mp hother with hchecked | ⟨row, hrow, hrowPackage⟩
    · exact mem_livePackages.mpr (.inl hchecked)
    · rcases Table.mem_replace hrow with hold | rfl
      · exact mem_livePackages.mpr (.inr ⟨row, hold, hrowPackage⟩)
      · cases hrowPackage
        exact mem_livePackages.mpr (.inl hready.2)
  case isFalse => cases hstep

/-- Objects go, and a pass goes on. -/
theorem collect (h : Vetted rt play s) (pass : Option GcPass) (hash : BlobHash) :
    Vetted rt play { s with objects := s.objects.erase hash, pass } := by
  refine h.of_live (fun other object hobject ↦ ?_) fun package hpackage ↦ .inl hpackage
  rw [Table.get?_erase] at hobject
  split at hobject
  case isTrue => cases hobject
  case isFalse => exact h.objects other object hobject

theorem step {action : PackageRetention.Action} (h : Vetted rt play s)
    (hplay : ∀ bytes ∈ written rt action, bytes ∈ play)
    (hstep : (service rt).step s action = some s') : Vetted rt play s' := by
  have hsame : ∀ pass checked, (∀ package ∈ checked, package ∈ s.livePackages) →
      Vetted rt play { s with pass, checked } := by
    intro pass checked hchecked
    refine h.of_live h.objects fun package hpackage ↦ .inl ?_
    rcases mem_livePackages.mp hpackage with hmem | hversion
    · exact hchecked package hmem
    · exact mem_livePackages.mpr (.inr hversion)
  have hkept : ∀ package ∈ s.checked, package ∈ s.livePackages :=
    fun package hpackage ↦ mem_livePackages.mpr (.inl hpackage)
  cases action with
  | negotiate descriptors =>
    cases hstep
    exact h
  | upload hashValue contentLength payload now =>
    cases hstep
    exact h.upload hashValue contentLength (hplay payload (List.mem_singleton_self payload)) now
  | check package =>
    cases hstep
    exact h.check package
  | synthesize slug description content now =>
    simp only [service, PackageRetention.step] at hstep
    exact h.synthesize (List.forall_mem_map.mp hplay) hstep
  | readVersion versionId =>
    obtain ⟨package, hpackage, rfl⟩ := Option.map_eq_some_iff.mp hstep
    obtain ⟨row, hrow, hrowPackage⟩ := Option.bind_eq_some_iff.mp hpackage
    refine hsame s.pass (package :: s.checked) fun other hother ↦ ?_
    rcases List.mem_cons.mp hother with rfl | hold
    · exact mem_livePackages.mpr (.inr ⟨row, Table.mem_of_get? hrow, hrowPackage⟩)
    · exact hkept other hold
  | release package =>
    cases hstep
    exact hsame s.pass _ fun other hother ↦ hkept other (List.mem_of_mem_erase hother)
  | commit operation =>
    simp only [service, PackageRetention.step] at hstep
    split at hstep
    case isTrue henabled =>
      cases hstep
      refine h.of_live h.objects fun package hpackage ↦ .inl ?_
      rcases mem_livePackages.mp hpackage with hchecked | ⟨row, hrow, hrowPackage⟩
      · exact mem_livePackages.mpr (.inl hchecked)
      · exact henabled.2 row hrow package hrowPackage
    case isFalse => cases hstep
  | attachPackage skillId package =>
    simp only [service, PackageRetention.step] at hstep
    exact h.attach hstep
  | gcRoots args =>
    simp only [service, PackageRetention.step] at hstep
    split at hstep
    case isTrue =>
      cases hstep
      exact hsame _ s.checked hkept
    case isFalse => cases hstep
  | gcMark =>
    simp only [service, PackageRetention.step] at hstep
    split at hstep
    case h_1 args roots hpass =>
      cases hstep
      exact hsame _ s.checked hkept
    case h_2 => cases hstep
  | gcSelect =>
    simp only [service, PackageRetention.step] at hstep
    split at hstep
    case h_1 args read marks hpass =>
      cases hstep
      exact hsame _ s.checked hkept
    case h_2 => cases hstep
  | gcSweepNext =>
    simp only [service, PackageRetention.step] at hstep
    split at hstep
    case h_1 read marks hash left deleted hpass =>
      cases hstep
      unfold State.sweepNext
      split
      case isTrue => exact hsame _ s.checked hkept
      case isFalse => exact h.collect _ hash
    case h_2 => cases hstep
  | gcCommit =>
    simp only [service, PackageRetention.step] at hstep
    split at hstep
    case h_1 read marks deleted hpass =>
      cases hstep
      exact h.of_live h.objects fun package hpackage ↦ .inl hpackage
    case h_2 => cases hstep
  | gcAbort =>
    cases hstep
    exact hsame none s.checked hkept

end Vetted

/-- Over every run, what versions and requests refer to is the address of a valid manifest. -/
theorem run_vetted (hinit : (service rt).init s)
    (hobjects : ∀ object ∈ s.objects, rt.sha256 object.bytes = object.hash)
    (actions : List PackageRetention.Action) :
    (service rt).Always (Vetted rt (bytesOfRun rt s actions)) s actions := by
  obtain ⟨hversions, hchecked, -⟩ := hinit
  have hplay : (service rt).EachStep
      (fun _ action ↦ ∀ bytes ∈ written rt action, bytes ∈ bytesOfRun rt s actions) s actions :=
    TransitionSystem.eachStep_of_forall
      (fun action haction _ bytes hbytes ↦ .inr ⟨action, haction, hbytes⟩) s
  refine hplay.always (fun t action t' ht hwritten hstep ↦ ht.step hwritten hstep) ⟨?_, ?_⟩
  · intro hash object hobject
    have hmem := Table.mem_of_get? hobject
    refine ⟨.inl ⟨object, hmem, rfl⟩, ?_⟩
    rw [hobjects object hmem]
    exact Table.key_of_get? hobject
  · intro package hpackage
    rw [State.livePackages, hversions, hchecked] at hpackage
    cases hpackage

/-! ## Captured manifests -/

/-- The server finds no version of the format in a manifest of the desktop. -/
theorem capture_not_accepted {bytes : ByteArray} {manifest : SkillSnapshotManifest}
    (hjson : rt.jsonLoads bytes = some manifest.toDocument.value) (files : List ManifestFile) :
    validateSnapshotManifestBytes rt bytes ≠ .ok files := by
  intro h
  obtain ⟨-, _, hreads, -⟩ := (validateSnapshotManifestBytes_eq_ok hjson).mp h
  have hversion := hreads.version
  rw [SkillSnapshotManifest.toDocument, Document.get_value_object] at hversion
  cases hversion

/-- Over every run, no version and no request has the package of a captured directory. -/
theorem run_capturedNeverLive {libs : Libraries} {blobs blobs' : BlobStore}
    {policy : SnapshotPolicy} {tree : DirectoryTree} {ref : SkillSnapshotRef}
    {actions : List PackageRetention.Action}
    (hcapture : captureWorkspace libs blobs (.directory tree.entries) policy = .ok (blobs', ref))
    (hjson : rt.jsonLoads (manifestBytes libs (contentsOf policy tree.entries)) =
      some (manifestOf libs (contentsOf policy tree.entries)).toDocument.value)
    (hinit : (service rt).init s)
    (hobjects : ∀ object ∈ s.objects, rt.sha256 object.bytes = object.hash)
    (hdigests : ∀ bytes ∈ bytesOfRun rt s actions,
      (rt.sha256 bytes).text =
          libs.hashBytes (manifestBytes libs (contentsOf policy tree.entries)) →
        bytes = manifestBytes libs (contentsOf policy tree.entries)) :
    (service rt).Always (fun t ↦ ∀ package ∈ t.livePackages, package.text ≠ ref.manifestHash) s
      actions := by
  obtain ⟨-, -, -, -, rfl⟩ := captureWorkspace_spec hcapture
  refine (run_vetted hinit hobjects actions).mono fun t ht package hpackage hhash ↦ ?_
  obtain ⟨bytes, hplay, rfl, files, hfiles⟩ := ht.packages package hpackage
  obtain rfl := hdigests bytes hplay hhash
  exact capture_not_accepted hjson files hfiles

/-! ## An upload that is no use -/

section Uploaded

def plainRuntime : Runtime :=
  runtimeOf (sampleText plainPaths) (sampleManifest plainPaths).toDocument plainHash

/-- A server without objects. -/
def emptyState : State :=
  ⟨{ Server.Sample.database with blobs := .empty }, .empty, Server.Sample.epoch, [], none⟩

/-- A device uploads the manifest, and its request brings the package. -/
def uploadedRun : List PackageRetention.Action :=
  [.upload plainDigest none (sampleText plainPaths).toUTF8 0, .check plainHash]

theorem manifestHash_sample {paths : List String} {digest : String} :
    (refOf (sampleLibraries paths digest) (sampleContents paths)).manifestHash = digest :=
  hashBytes_sampleText

/-- The manifest is stored in the end, and the request did not go through. -/
theorem run_capturedNeverLive_uploaded :
    ∃ t, (service plainRuntime).run emptyState uploadedRun = some t ∧
      (t.objects.get? plainHash).isSome = true ∧
      ∀ package ∈ t.livePackages, package.text ≠ plainDigest := by
  have hjson : plainRuntime.jsonLoads
      (manifestBytes plainLibraries (contentsOf .default plainTree.entries)) =
        some (manifestOf plainLibraries
          (contentsOf .default plainTree.entries)).toDocument.value := by
    rw [contentsOf_plainTree, manifestOf_sampleContents, manifestBytes_sampleContents]
    exact jsonLoads_runtimeOf _ _ _
  have hdigests : ∀ bytes ∈ bytesOfRun plainRuntime emptyState uploadedRun,
      bytes = (sampleText plainPaths).toUTF8 := by
    rintro bytes (⟨object, hobject, -⟩ | ⟨action, haction, hbytes⟩)
    · exact absurd hobject (Table.not_mem_empty _)
    · rcases List.mem_pair.mp haction with rfl | rfl
      · exact List.mem_singleton.mp hbytes
      · cases hbytes
  have halways : (service plainRuntime).Always _ emptyState uploadedRun :=
    run_capturedNeverLive capture_plainTree hjson ⟨rfl, rfl, rfl⟩
      (fun object hobject ↦ absurd hobject (Table.not_mem_empty _))
      fun bytes hplay _ ↦ hdigests bytes hplay
  rw [manifestHash_sample] at halways
  have hstored : ((service plainRuntime).run emptyState uploadedRun).any
      (fun t ↦ (t.objects.get? plainHash).isSome) = true := by
    decide +kernel
  obtain ⟨t, hrun, hobject⟩ := (Option.any_eq_true _ _).mp hstored
  exact ⟨t, hrun, hobject, halways.last hrun⟩

end Uploaded

end Sync

end SkillHive
