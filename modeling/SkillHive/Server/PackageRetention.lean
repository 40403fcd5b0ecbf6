import SkillHive.Server.BlobGc
import SkillHive.Server.FeedPages
import SkillHive.Server.Revisions

/-!
# Packages while the collection runs

A request checks or stores the package that it brings before it commits a version with it,
and a pass of the collection reads its roots, expands them, picks its candidates and deletes
them one by one, while other requests go on. The bytes of an object go at once and its row
at the end of the pass.

A pass keeps what it marked. A package that becomes live after its marks were made, or whose
manifest it could not read, is unknown to it.
-/

namespace SkillHive

open Foundation

namespace Server

/-! ## A storage backend on a table -/

/-- The local backend on the stored objects. -/
def storageOf (rt : Runtime) (objects : ObjectTable) : BlobStorage where
  backendName := "local_filesystem"
  blobExists text size :=
    match BlobHash.ofText? text with
    | none => .error (appError "BLOB_INVALID_HASH" "Blob hash is not a canonical sha256 identifier."
        400 (some (.object [("hash", .string text)])))
    | some hash => .ok ((objects.get? hash).any fun object ↦
        object.bytes.size = size ∧ rt.sha256 object.bytes = hash)
  openBlob _ text :=
    okOr ((openObject? objects (fun _ ↦ false) text))
      (appError "BLOB_NOT_FOUND" "Blob object was not found in storage." 404
        (some (.object [("hash", .string text)])))
  putVerified hash payload := do
    require (rt.sha256 payload = hash)
      (appError "BLOB_DIGEST_MISMATCH" "Uploaded blob digest does not match its content address."
        400)
    require (∀ object ∈ objects.get? hash, rt.sha256 object.bytes = hash)
      (appError "BLOB_CORRUPTED" "Existing content-addressed blob is corrupted." 500
        (some (.object [("hash", .string hash.text)])))

/-- The objects after a verified put: an object that is there stays as it is. -/
def putObject (objects : ObjectTable) (hash : BlobHash) (payload : ByteArray) : ObjectTable :=
  (objects.insert? ⟨hash, payload⟩).getD objects

/-- `missing_blobs` -/
def missingBlobs (db : Database) (storage : BlobStorage) (descriptors : List (BlobHash × ℕ)) :
    Except ServerError (List (BlobHash × ℕ)) :=
  descriptors.filterM fun (hash, sizeBytes) ↦
    (!·) <$> blobPresent db storage hash.text sizeBytes

/-! ## States -/

namespace PackageRetention

/-- A pass of the collection. -/
inductive GcPass where
  /-- The roots are read. -/
  | rooted (args : GcArgs) (roots : List String)
  /-- The roots are expanded; `read` are the manifests that could be. -/
  | marked (args : GcArgs) (read marks : List String)
  /-- The candidates that are left to look at, and what was deleted. -/
  | sweeping (read marks : List String) (left deleted : List BlobHash)

structure State where
  db : Database
  objects : ObjectTable
  createdAt : CreatedAt
  /-- The packages that running requests have checked, stored or read from a version. -/
  checked : List BlobHash
  pass : Option GcPass

inductive Action where
  | negotiate (descriptors : List (BlobHash × ℕ))
  | upload (hashValue : String) (contentLength : Option String) (payload : ByteArray) (now : ℕ)
  /-- A request verifies the closure of the package that it brings. -/
  | check (package : BlobHash)
  /-- A request stores the package of a legacy content. -/
  | synthesize (slug description : String) (content : Json) (now : ℕ)
  /-- A request reads the package of a version. -/
  | readVersion (versionId : RowId)
  /-- A request ends. -/
  | release (package : BlobHash)
  /-- A request commits an operation of the mutation service. -/
  | commit (operation : SkillOperation)
  /-- A pull commits the package that it gave to a skill. -/
  | attachPackage (skillId : RowId) (package : BlobHash)
  | gcRoots (args : GcArgs)
  | gcMark
  | gcSelect
  | gcSweepNext
  | gcCommit
  | gcAbort

/-! ## Steps -/

variable (rt : Runtime) (s : State)

/-- The creation times after a commit: a row that is new was created now. -/
def State.createdAtAfter (db : Database) (now : ℕ) : CreatedAt :=
  { s.createdAt with
    blob := fun hash ↦
      if s.db.blob? hash = none ∧ db.blob? hash ≠ none then now else s.createdAt.blob hash }

def State.upload (hashValue : String) (contentLength : Option String) (payload : ByteArray)
    (now : ℕ) : State :=
  match uploadBlob rt s.db (storageOf rt s.objects) hashValue contentLength payload with
  | .error _ => s
  | .ok db =>
    { s with
      db
      objects := putObject s.objects (rt.sha256 payload) payload
      createdAt := s.createdAtAfter db now }

def State.check (package : BlobHash) : State :=
  match verifyPackageClosure rt s.db (storageOf rt s.objects) package with
  | .error _ => s
  | .ok () => { s with checked := package :: s.checked }

/-- The entrypoint and the manifest of a legacy content. -/
def synthesizedObjects (slug description : String) (content : Json) : List StoredObject :=
  let entrypoint := (entrypointMarkdown slug description (legacyBody content)).toUTF8
  let manifest := (canonicalManifest (rt.sha256 entrypoint) entrypoint.size).toUTF8
  [⟨rt.sha256 entrypoint, entrypoint⟩, ⟨rt.sha256 manifest, manifest⟩]

/-- The stored manifest names the objects, and they are registered. -/
def holds (db : Database) (objects : ObjectTable) (package : BlobHash) : Bool :=
  (readManifest? rt objects (fun _ ↦ false) package.text).any fun files ↦
    (package.text :: files.map ManifestFile.blobHash).all fun text ↦
      (BlobHash.ofText? text).any fun hash ↦
        (db.blob? hash).isSome && (objects.get? hash).isSome

/-- `synthesize_legacy_package`. What the service wrote is read back as what it wrote. -/
def State.synthesize (slug description : String) (content : Json) (now : ℕ) : Option State :=
  match synthesizeLegacyPackage rt s.db (storageOf rt s.objects) slug description content with
  | .ok (db, some package) =>
    let objects := (synthesizedObjects rt slug description content).foldl
      (fun objects object ↦ putObject objects object.hash object.bytes) s.objects
    if holds rt db objects package then
      some { s with
        db, objects
        createdAt := s.createdAtAfter db now
        checked := package :: s.checked }
    else none
  | .ok (_, none) | .error _ => some s

/-- The packages that versions or running requests refer to. -/
def State.livePackages : List BlobHash :=
  s.checked ++ s.db.versions.rows.filterMap SkillVersion.packageManifestHash

/-- Every version that the operation leaves has a package that is live before it. -/
def State.Prepares (operation : SkillOperation) : Prop :=
  ∀ row ∈ (operation.next rt s.db).versions.rows, ∀ package ∈ row.packageManifestHash,
    package ∈ s.livePackages

instance (operation : SkillOperation) : Decidable (s.Prepares rt operation) :=
  inferInstanceAs (Decidable (∀ row ∈ (operation.next rt s.db).versions.rows,
    ∀ package ∈ row.packageManifestHash, package ∈ s.livePackages))

def State.attach (skillId : RowId) (package : BlobHash) : Option State := do
  let skill ← s.db.skill? skillId
  let version ← skill.currentVersionId.bind s.db.version?
  if skill.currentPackageHash = none ∧ package ∈ s.checked then
    some { s with db := Server.attachPackage s.db skill version package }
  else none

def State.mark (args : GcArgs) (roots : List String) : State :=
  let marks := gcMarked rt s.objects args.unreadable roots
  { s with
    pass := some (.marked args
      (marks.filter fun text ↦ (readManifest? rt s.objects args.unreadable text).isSome) marks) }

/-- One round of the sweep; `storage.delete` is not undone by a rollback. -/
def State.sweepNext (read marks : List String) (hash : BlobHash) (left deleted : List BlobHash) :
    State :=
  if hash.text ∈ marks then { s with pass := some (.sweeping read marks left deleted) }
  else
    { s with
      objects := s.objects.erase hash
      pass := some (.sweeping read marks left (deleted ++ [hash])) }

def State.commitPass (deleted : List BlobHash) : State :=
  { s with
    db := { s.db with blobs := s.db.blobs.filter fun row ↦ row.hash ∉ deleted }
    pass := none }

def step : Action → Option State
  | .negotiate _ => some s
  | .upload hashValue contentLength payload now =>
    some (s.upload rt hashValue contentLength payload now)
  | .check package => some (s.check rt package)
  | .synthesize slug description content now => s.synthesize rt slug description content now
  | .readVersion versionId =>
    ((s.db.version? versionId).bind SkillVersion.packageManifestHash).map fun package ↦
      { s with checked := package :: s.checked }
  | .release package => some { s with checked := s.checked.erase package }
  | .commit operation =>
    if operation.DrawsFresh s.db ∧ s.Prepares rt operation then
      some { s with db := operation.next rt s.db }
    else none
  | .attachPackage skillId package => s.attach skillId package
  | .gcRoots args =>
    if s.pass.isNone then
      some { s with pass := some (.rooted args (Server.gcRoots s.db s.createdAt args)) }
    else none
  | .gcMark =>
    match s.pass with
    | some (.rooted args roots) => some (s.mark rt args roots)
    | _ => none
  | .gcSelect =>
    match s.pass with
    | some (.marked args read marks) =>
      some { s with
        pass := some (.sweeping read marks
          ((gcCandidates s.db s.createdAt args).map SkillBlobObject.hash) []) }
    | _ => none
  | .gcSweepNext =>
    match s.pass with
    | some (.sweeping read marks (hash :: left) deleted) =>
      some (s.sweepNext read marks hash left deleted)
    | _ => none
  | .gcCommit =>
    match s.pass with
    | some (.sweeping _ _ [] deleted) => some (s.commitPass deleted)
    | _ => none
  | .gcAbort => some { s with pass := none }

/-- Requests and passes of the collection over a store without versions. -/
def service : TransitionSystem State Action where
  init s := s.db.versions = .empty ∧ s.checked = [] ∧ s.pass = none
  step := step rt

/-! ## What a version owes -/

/-- The manifest of the package and every object that it names are registered and stored. -/
structure Held (db : Database) (objects : ObjectTable) (package : BlobHash) : Prop where
  readable : ∃ files, storedManifest? rt objects package.text = some files
  objects : ∀ text, InClosure rt objects package.text text → ∃ hash : BlobHash, hash.text = text ∧
    (db.blob? hash).isSome ∧ (objects.get? hash).isSome

/-- Every version's package is held. -/
def Retained : Prop :=
  ∀ row ∈ s.db.versions.rows, ∀ package ∈ row.packageManifestHash, Held rt s.db s.objects package

/-- The objects that a step deletes, or whose rows it deletes. -/
def State.deletes : Action → List BlobHash
  | .gcSweepNext =>
    match s.pass with
    | some (.sweeping _ marks (hash :: _) _) => if hash.text ∈ marks then [] else [hash]
    | _ => []
  | .gcCommit =>
    match s.pass with
    | some (.sweeping _ _ [] deleted) => deleted
    | _ => []
  | _ => []

/-- The manifests that the running pass has read. -/
def State.readManifests : List String :=
  match s.pass with
  | some (.marked _ read _) | some (.sweeping read _ _ _) => read
  | _ => []

instance (objects : ObjectTable) (root text : String) :
    Decidable (InClosure rt objects root text) :=
  decidable_of_iff (text = root ∨ text ∈ manifestClosure rt objects (fun _ ↦ false) root) <| by
    rw [InClosure, manifestClosure, storedManifest?]
    cases readManifest? rt objects (fun _ ↦ false) root <;> simp

/-- The collection deletes nothing of a live package that it has not read. -/
def SparesUnread (action : Action) : Prop :=
  ∀ hash ∈ s.deletes action, ∀ package ∈ s.livePackages, package.text ∉ s.readManifests →
    ¬ InClosure rt s.objects package.text hash.text

instance (action : Action) : Decidable (SparesUnread rt s action) :=
  inferInstanceAs (Decidable (∀ hash ∈ s.deletes action, ∀ package ∈ s.livePackages,
    package.text ∉ s.readManifests → ¬ InClosure rt s.objects package.text hash.text))

/-! ## Closures while objects come and go -/

section Closures

variable {rt : Runtime} {db db' : Database} {objects objects' : ObjectTable} {text : String}
  {package : BlobHash}

/-- A manifest whose object stays is read as before. -/
theorem storedManifest?_of_keeps {files : List ManifestFile}
    (h : storedManifest? rt objects text = some files)
    (hkeeps : ∀ (hash : BlobHash) object, hash.text = text → objects.get? hash = some object →
      objects'.get? hash = some object) : storedManifest? rt objects' text = some files := by
  obtain ⟨bytes, hopen, hvalid⟩ := Option.bind_eq_some_iff.mp h
  obtain ⟨hash, hhash, hbytes⟩ := Option.bind_eq_some_iff.mp hopen
  rw [if_neg Bool.false_ne_true, Option.map_eq_some_iff] at hbytes
  obtain ⟨object, hobject, rfl⟩ := hbytes
  have hkept := hkeeps hash object (BlobHash.ofText?_eq_some.mp hhash) hobject
  refine Option.bind_eq_some_iff.mpr ⟨object.bytes, ?_, hvalid⟩
  refine Option.bind_eq_some_iff.mpr ⟨hash, hhash, ?_⟩
  rw [if_neg Bool.false_ne_true, hkept, Option.map_some]

/-- A closure whose manifest stays is the same as before. -/
theorem inClosure_of_keeps {files : List ManifestFile} {root : String}
    (hstored : storedManifest? rt objects root = some files)
    (hstored' : storedManifest? rt objects' root = some files)
    (h : InClosure rt objects' root text) : InClosure rt objects root text := by
  rcases h with rfl | ⟨files', hfiles', htext⟩
  · exact .inl rfl
  · rw [hstored', Option.some.injEq] at hfiles'
    exact .inr ⟨files, hstored, hfiles' ▸ htext⟩

/-- A held package whose objects and rows stay is held. -/
theorem Held.of_keeps (h : Held rt db objects package)
    (hobjects : ∀ (hash : BlobHash) object, InClosure rt objects package.text hash.text →
      objects.get? hash = some object → objects'.get? hash = some object)
    (hblobs : ∀ (hash : BlobHash) row, InClosure rt objects package.text hash.text →
      db.blob? hash = some row → db'.blob? hash = some row) : Held rt db' objects' package := by
  obtain ⟨files, hstored⟩ := h.readable
  have hstored' : storedManifest? rt objects' package.text = some files :=
    storedManifest?_of_keeps hstored fun hash object htext ↦ hobjects hash object (.inl htext)
  refine ⟨⟨files, hstored'⟩, fun text htext ↦ ?_⟩
  have hbefore := inClosure_of_keeps hstored hstored' htext
  obtain ⟨hash, rfl, hrow, hobject⟩ := h.objects text hbefore
  obtain ⟨row, hrow⟩ := Option.isSome_iff_exists.mp hrow
  obtain ⟨object, hobject⟩ := Option.isSome_iff_exists.mp hobject
  refine ⟨hash, rfl, ?_, ?_⟩
  · rw [hblobs hash row hbefore hrow]
    rfl
  · rw [hobjects hash object hbefore hobject]
    rfl

/-- The pass has marked the closures of the manifests that it read, as they are now. -/
def Knows (rt : Runtime) (objects : ObjectTable) (read marks : List String) : Prop :=
  ∀ text ∈ read, (∃ files, storedManifest? rt objects text = some files) ∧
    ∀ member, InClosure rt objects text member → member ∈ marks

theorem Knows.of_keeps {read marks : List String} (h : Knows rt objects read marks)
    (hkeeps : ∀ (hash : BlobHash) object, hash.text ∈ marks → objects.get? hash = some object →
      objects'.get? hash = some object) : Knows rt objects' read marks := by
  intro text htext
  obtain ⟨⟨files, hstored⟩, hmarks⟩ := h text htext
  have hstored' : storedManifest? rt objects' text = some files :=
    storedManifest?_of_keeps hstored fun hash object heq ↦
      hkeeps hash object (heq ▸ hmarks text (.inl rfl))
  exact ⟨⟨files, hstored'⟩, fun member hmember ↦
    hmarks member (inClosure_of_keeps hstored hstored' hmember)⟩

theorem get?_putObject {hash other : BlobHash} {payload : ByteArray} {object : StoredObject}
    (h : objects.get? other = some object) :
    (putObject objects hash payload).get? other = some object := by
  rw [putObject]
  cases hinsert : objects.insert? ⟨hash, payload⟩ with
  | none => exact h
  | some objects' =>
    have hne : other ≠ hash := by
      rintro rfl
      have hfree : objects.get? other = none := Table.get?_eq_none_of_insert? hinsert
      cases hfree.symm.trans h
    rw [Option.getD_some, Table.get?_insert? hinsert, if_neg hne]
    exact h

theorem validatePackageClosure_eq_ok {present : String → ℕ → Except ServerError Bool}
    {files : List ManifestFile} (h : validatePackageClosure present files = .ok ()) :
    ∀ file ∈ files, present file.blobHash file.sizeBytes = .ok true := by
  induction files with
  | nil => exact fun file hfile ↦ absurd hfile List.not_mem_nil
  | cons first files ih =>
    obtain ⟨_, hfirst, hrest⟩ := foldE_cons_eq_ok.mp h
    obtain ⟨held, hheld, hrequire⟩ := bind_eq_ok.mp hfirst
    rintro file hfile
    rcases List.mem_cons.mp hfile with rfl | hmem
    · rw [hheld, require_eq_ok.mp hrequire]
    · exact ih hrest file hmem

/-- What is present is registered and stored. -/
theorem blobPresent_storageOf {hash : String} {size : ℕ}
    (h : blobPresent db (storageOf rt objects) hash size = .ok true) :
    ∃ held : BlobHash, held.text = hash ∧ (db.blob? held).isSome ∧ (objects.get? held).isSome := by
  unfold blobPresent at h
  cases hhash : BlobHash.ofText? hash with
  | none =>
    rw [hhash] at h
    cases h
  | some held =>
    rw [hhash, Option.bind_some] at h
    cases hrow : db.blob? held with
    | none =>
      rw [hrow] at h
      cases h
    | some row =>
      rw [hrow] at h
      simp only [storageOf, hhash, Except.ok.injEq] at h
      obtain ⟨object, hobject, -⟩ := (Option.any_eq_true _ _).mp h
      exact ⟨held, BlobHash.ofText?_eq_some.mp hhash, hrow ▸ rfl, hobject ▸ rfl⟩

/-- The members of the closure of a stored manifest. -/
theorem held_of_members {files : List ManifestFile}
    (hstored : storedManifest? rt objects package.text = some files)
    (hmembers : ∀ text ∈ package.text :: files.map ManifestFile.blobHash,
      ∃ hash : BlobHash, hash.text = text ∧ (db.blob? hash).isSome ∧ (objects.get? hash).isSome) :
    Held rt db objects package := by
  refine ⟨⟨files, hstored⟩, fun text htext ↦ hmembers text ?_⟩
  rcases htext with rfl | ⟨files', hfiles', hmem⟩
  · exact List.mem_cons_self
  · rw [hstored, Option.some.injEq] at hfiles'
    exact List.mem_cons_of_mem _ (hfiles' ▸ hmem)

/-- A checked package is held. -/
theorem held_of_verified (h : verifyPackageClosure rt db (storageOf rt objects) package = .ok ()) :
    Held rt db objects package := by
  obtain ⟨row, hrow, h⟩ := bind_eq_ok.mp h
  obtain ⟨bytes, hbytes, h⟩ := bind_eq_ok.mp h
  obtain ⟨files, hfiles, hclosure⟩ := bind_eq_ok.mp h
  have hopen : openObject? objects (fun _ ↦ false) package.text = some bytes :=
    okOr_eq_ok.mp hbytes
  have hstored : storedManifest? rt objects package.text = some files := by
    refine Option.bind_eq_some_iff.mpr ⟨bytes, hopen, ?_⟩
    rw [hfiles]
    rfl
  refine held_of_members hstored fun text htext ↦ ?_
  rcases List.mem_cons.mp htext with rfl | hfile
  · obtain ⟨hash, hhash, hobject⟩ := Option.bind_eq_some_iff.mp hopen
    rw [if_neg Bool.false_ne_true, Option.map_eq_some_iff] at hobject
    obtain ⟨object, hobject, -⟩ := hobject
    have heq : hash = package := BlobHash.eq_of_text_eq (BlobHash.ofText?_eq_some.mp hhash)
    subst heq
    have hrow : db.blob? hash = some row := okOr_eq_ok.mp hrow
    exact ⟨hash, rfl, hrow ▸ rfl, hobject ▸ rfl⟩
  · obtain ⟨file, hmem, rfl⟩ := List.mem_map.mp hfile
    exact blobPresent_storageOf (validatePackageClosure_eq_ok hclosure file hmem)

theorem held_of_holds (h : holds rt db objects package = true) : Held rt db objects package := by
  obtain ⟨files, hstored, hall⟩ := (Option.any_eq_true _ _).mp h
  refine held_of_members hstored fun text htext ↦ ?_
  obtain ⟨hash, hhash, hheld⟩ := (Option.any_eq_true _ _).mp (List.all_eq_true.mp hall text htext)
  exact ⟨hash, BlobHash.ofText?_eq_some.mp hhash, Bool.and_eq_true_iff.mp hheld⟩

end Closures

/-! ## The invariant -/

/-- What a pass knows of the closures that it marked. -/
def PassSound (rt : Runtime) (objects : ObjectTable) : Option GcPass → Prop
  | some (.marked _ read marks) => Knows rt objects read marks
  | some (.sweeping read marks _ deleted) =>
    Knows rt objects read marks ∧ ∀ hash ∈ deleted, hash.text ∉ marks
  | some (.rooted ..) | none => True

/-- Every live package is held, and a pass knows what it read. -/
structure Sound (rt : Runtime) (s : State) : Prop where
  held : ∀ package ∈ s.livePackages, Held rt s.db s.objects package
  pass : PassSound rt s.objects s.pass

variable {rt : Runtime} {s s' : State}

theorem PassSound.of_keeps {objects objects' : ObjectTable} {pass : Option GcPass}
    (h : PassSound rt objects pass)
    (hkeeps : ∀ (hash : BlobHash) object, objects.get? hash = some object →
      objects'.get? hash = some object) : PassSound rt objects' pass := by
  have hknows : ∀ {read marks}, Knows rt objects read marks → Knows rt objects' read marks :=
    fun hknows ↦ hknows.of_keeps fun hash object _ ↦ hkeeps hash object
  cases pass with
  | none => trivial
  | some pass =>
    cases pass with
    | rooted args roots => trivial
    | marked args read marks => exact hknows h
    | sweeping read marks left deleted => exact ⟨hknows h.1, h.2⟩

namespace Sound

/-- A step that deletes neither objects nor rows, and refers to live or held packages. -/
theorem of_grows (h : Sound rt s) (hpass : s'.pass = s.pass)
    (hobjects : ∀ (hash : BlobHash) object, s.objects.get? hash = some object →
      s'.objects.get? hash = some object)
    (hblobs : s.db.KeepsBlobs s'.db)
    (hlive : ∀ package ∈ s'.livePackages, package ∈ s.livePackages ∨
      Held rt s'.db s'.objects package) : Sound rt s' := by
  constructor
  · intro package hpackage
    rcases hlive package hpackage with hold | hheld
    · exact (h.held package hold).of_keeps (fun hash object _ ↦ hobjects hash object)
        fun hash row _ ↦ hblobs hash row
    · exact hheld
  · rw [hpass]
    exact h.pass.of_keeps hobjects

end Sound

theorem mem_livePackages {package : BlobHash} :
    package ∈ s.livePackages ↔ package ∈ s.checked ∨
      ∃ row ∈ s.db.versions.rows, row.packageManifestHash = some package := by
  rw [State.livePackages, List.mem_append, List.mem_filterMap]

namespace Sound

theorem upload (h : Sound rt s) (hashValue : String) (contentLength : Option String)
    (payload : ByteArray) (now : ℕ) :
    Sound rt (s.upload rt hashValue contentLength payload now) := by
  unfold State.upload
  cases hupload : uploadBlob rt s.db (storageOf rt s.objects) hashValue contentLength payload with
  | error error => exact h
  | ok db =>
    refine h.of_grows rfl (fun hash object ↦ get?_putObject) (uploadBlob_keepsBlobs hupload) ?_
    intro package hpackage
    left
    rw [mem_livePackages] at hpackage ⊢
    simp only [(uploadBlob_sameButBlobs hupload).domain.versions] at hpackage
    exact hpackage

theorem check (h : Sound rt s) (package : BlobHash) : Sound rt (s.check rt package) := by
  unfold State.check
  cases hverify : verifyPackageClosure rt s.db (storageOf rt s.objects) package with
  | error error => exact h
  | ok =>
    refine h.of_grows rfl (fun _ _ ↦ id) (.of_eq rfl) fun other hother ↦ ?_
    rcases mem_livePackages.mp hother with hchecked | hversion
    · rcases List.mem_cons.mp hchecked with rfl | hold
      · exact .inr (held_of_verified hverify)
      · exact .inl (mem_livePackages.mpr (.inl hold))
    · exact .inl (mem_livePackages.mpr (.inr hversion))

theorem synthesize (h : Sound rt s) {slug description : String} {content : Json} {now : ℕ}
    (hstep : s.synthesize rt slug description content now = some s') : Sound rt s' := by
  unfold State.synthesize at hstep
  split at hstep
  case h_1 db package hsynthesize =>
    dsimp only at hstep
    split at hstep
    case isTrue hholds =>
      cases hstep
      refine h.of_grows rfl ?_ (synthesizeLegacyPackage_keepsBlobs hsynthesize) ?_
      · intro hash object hobject
        exact get?_putObject (get?_putObject hobject)
      · intro other hother
        rcases mem_livePackages.mp hother with hchecked | hversion
        · rcases List.mem_cons.mp hchecked with rfl | hold
          · exact .inr (held_of_holds hholds)
          · exact .inl (mem_livePackages.mpr (.inl hold))
        · simp only [(synthesizeLegacyPackage_sameButBlobs hsynthesize).domain.versions]
            at hversion
          exact .inl (mem_livePackages.mpr (.inr hversion))
    case isFalse => cases hstep
  all_goals
    cases hstep
    exact h

theorem commit (h : Sound rt s) {operation : SkillOperation} (hfresh : operation.DrawsFresh s.db)
    (hprepares : s.Prepares rt operation) :
    Sound rt { s with db := operation.next rt s.db } := by
  refine h.of_grows rfl (fun _ _ ↦ id) (SkillOperation.next_keepsBlobs hfresh) ?_
  intro package hpackage
  left
  rcases mem_livePackages.mp hpackage with hchecked | ⟨row, hrow, hrowPackage⟩
  · exact mem_livePackages.mpr (.inl hchecked)
  · exact hprepares row hrow package hrowPackage

theorem attach (h : Sound rt s) {skillId : RowId} {package : BlobHash}
    (hstep : s.attach skillId package = some s') : Sound rt s' := by
  obtain ⟨skill, -, hstep⟩ := Option.bind_eq_some_iff.mp hstep
  obtain ⟨version, -, hstep⟩ := Option.bind_eq_some_iff.mp hstep
  split at hstep
  case isTrue hready =>
    cases hstep
    refine h.of_grows rfl (fun _ _ ↦ id) (.of_eq rfl) fun other hother ↦ .inl ?_
    rcases mem_livePackages.mp hother with hchecked | ⟨row, hrow, hrowPackage⟩
    · exact mem_livePackages.mpr (.inl hchecked)
    · rcases Table.mem_replace hrow with hold | rfl
      · exact mem_livePackages.mpr (.inr ⟨row, hold, hrowPackage⟩)
      · cases hrowPackage
        exact mem_livePackages.mpr (.inl hready.2)
  case isFalse => cases hstep

/-! ### The collection -/

/-- The marks hold the closure of every manifest that the mark phase read. -/
theorem mark (h : Sound rt s) (args : GcArgs) (roots : List String) :
    Sound rt (s.mark rt args roots) := by
  refine ⟨h.held, fun text htext ↦ ?_⟩
  obtain ⟨hmarked, hread⟩ := List.mem_filter.mp htext
  obtain ⟨files, hread⟩ := Option.isSome_iff_exists.mp hread
  have hstored := storedManifest?_of_read hread
  refine ⟨⟨files, hstored⟩, fun member hmember ↦ ?_⟩
  rcases hmember with rfl | ⟨files', hfiles', hfile⟩
  · exact hmarked
  · have hfiles' : storedManifest? rt s.objects text = some files' := hfiles'
    rw [hstored, Option.some.injEq] at hfiles'
    refine mem_gcMarked.mpr (.step (mem_gcMarked.mp hmarked) ?_)
    change member ∈ manifestClosure rt s.objects args.unreadable text
    rw [manifestClosure, hread, Option.elim_some, hfiles']
    exact hfile

/-- A deletion outside the marks and outside the live packages that the pass did not read. -/
theorem sweepNext (h : Sound rt s) {read marks : List String} {hash : BlobHash}
    {left deleted : List BlobHash} (hpass : s.pass = some (.sweeping read marks (hash :: left) deleted))
    (hspares : hash.text ∉ marks → ∀ package ∈ s.livePackages, package.text ∉ read →
      ¬ InClosure rt s.objects package.text hash.text) :
    Sound rt (s.sweepNext read marks hash left deleted) := by
  have hsound := h.pass
  rw [hpass] at hsound
  obtain ⟨hknows, hdeleted⟩ := hsound
  unfold State.sweepNext
  split
  case isTrue => exact ⟨h.held, hknows, hdeleted⟩
  case isFalse hunmarked =>
    have hkeeps : ∀ (other : BlobHash) object, other ≠ hash →
        s.objects.get? other = some object → (s.objects.erase hash).get? other = some object := by
      intro other object hne hobject
      rw [Table.get?_erase, if_neg hne]
      exact hobject
    constructor
    · intro package hpackage
      refine (h.held package hpackage).of_keeps (fun other object hclosure ↦ hkeeps other object ?_)
        fun _ _ _ ↦ id
      rintro rfl
      by_cases hread : package.text ∈ read
      · exact hunmarked ((hknows _ hread).2 _ hclosure)
      · exact hspares hunmarked package hpackage hread hclosure
    · refine ⟨hknows.of_keeps fun other object hmarked ↦ hkeeps other object ?_, ?_⟩
      · rintro rfl
        exact hunmarked hmarked
      · intro other hother
        rcases List.mem_append.mp hother with hbefore | hnow
        · exact hdeleted other hbefore
        · rw [List.mem_singleton.mp hnow]
          exact hunmarked

/-- The rows of deleted objects go. -/
theorem commitPass (h : Sound rt s) {read marks : List String} {deleted : List BlobHash}
    (hpass : s.pass = some (.sweeping read marks [] deleted))
    (hspares : ∀ hash ∈ deleted, ∀ package ∈ s.livePackages, package.text ∉ read →
      ¬ InClosure rt s.objects package.text hash.text) : Sound rt (s.commitPass deleted) := by
  have hsound := h.pass
  rw [hpass] at hsound
  obtain ⟨hknows, hdeleted⟩ := hsound
  refine ⟨fun package hpackage ↦ ?_, trivial⟩
  refine (h.held package hpackage).of_keeps (fun _ _ _ ↦ id) fun hash row hclosure hrow ↦ ?_
  have hkept : hash ∉ deleted := by
    intro hmem
    by_cases hread : package.text ∈ read
    · exact hdeleted hash hmem ((hknows _ hread).2 _ hclosure)
    · exact hspares hash hmem package hpackage hread hclosure
  have hid : row.hash = hash := Table.key_of_get? hrow
  exact (Table.get?_filter _ _ _).trans (Option.filter_eq_some_iff.mpr
    ⟨hrow, decide_eq_true_iff.mpr (hid ▸ hkept)⟩)

theorem step {action : Action} (h : Sound rt s) (hspares : SparesUnread rt s action)
    (hstep : (service rt).step s action = some s') : Sound rt s' := by
  have hsame : ∀ pass checked, (∀ package ∈ checked, package ∈ s.livePackages) →
      PassSound rt s.objects pass → Sound rt { s with pass, checked } := by
    intro pass checked hchecked hpass
    refine ⟨fun package hpackage ↦ h.held package ?_, hpass⟩
    rcases mem_livePackages.mp hpackage with hmem | hversion
    · exact hchecked package hmem
    · exact mem_livePackages.mpr (.inr hversion)
  have hkept : ∀ package ∈ s.checked, package ∈ s.livePackages :=
    fun package hpackage ↦ mem_livePackages.mpr (.inl hpackage)
  cases action with
  | negotiate descriptors =>
    cases hstep
    exact h
  | upload hashValue contentLength payload now =>
    cases hstep
    exact h.upload hashValue contentLength payload now
  | check package =>
    cases hstep
    exact h.check package
  | synthesize slug description content now =>
    simp only [service, PackageRetention.step] at hstep
    exact h.synthesize hstep
  | readVersion versionId =>
    obtain ⟨package, hpackage, rfl⟩ := Option.map_eq_some_iff.mp hstep
    obtain ⟨row, hrow, hrowPackage⟩ := Option.bind_eq_some_iff.mp hpackage
    refine hsame s.pass (package :: s.checked) (fun other hother ↦ ?_) h.pass
    rcases List.mem_cons.mp hother with rfl | hold
    · exact mem_livePackages.mpr (.inr ⟨row, Table.mem_of_get? hrow, hrowPackage⟩)
    · exact hkept other hold
  | release package =>
    cases hstep
    exact hsame s.pass _ (fun other hother ↦ hkept other (List.mem_of_mem_erase hother)) h.pass
  | commit operation =>
    simp only [service, PackageRetention.step] at hstep
    split at hstep
    case isTrue henabled =>
      cases hstep
      exact h.commit henabled.1 henabled.2
    case isFalse => cases hstep
  | attachPackage skillId package =>
    simp only [service, PackageRetention.step] at hstep
    exact h.attach hstep
  | gcRoots args =>
    simp only [service, PackageRetention.step] at hstep
    split at hstep
    case isTrue =>
      cases hstep
      exact hsame _ s.checked hkept trivial
    case isFalse => cases hstep
  | gcMark =>
    simp only [service, PackageRetention.step] at hstep
    split at hstep
    case h_1 args roots hpass =>
      cases hstep
      exact h.mark args roots
    case h_2 => cases hstep
  | gcSelect =>
    simp only [service, PackageRetention.step] at hstep
    split at hstep
    case h_1 args read marks hpass =>
      cases hstep
      have hsound := h.pass
      rw [hpass] at hsound
      exact hsame _ s.checked hkept ⟨hsound, fun hash hhash ↦ absurd hhash List.not_mem_nil⟩
    case h_2 => cases hstep
  | gcSweepNext =>
    simp only [service, PackageRetention.step] at hstep
    split at hstep
    case h_1 read marks hash left deleted hpass =>
      cases hstep
      refine h.sweepNext hpass fun hunmarked ↦ ?_
      simpa [SparesUnread, State.deletes, State.readManifests, hpass, hunmarked] using hspares
    case h_2 => cases hstep
  | gcCommit =>
    simp only [service, PackageRetention.step] at hstep
    split at hstep
    case h_1 read marks deleted hpass =>
      cases hstep
      refine h.commitPass hpass ?_
      simpa [SparesUnread, State.deletes, State.readManifests, hpass] using hspares
    case h_2 => cases hstep
  | gcAbort =>
    cases hstep
    exact hsame none s.checked hkept trivial

theorem retained (h : Sound rt s) : Retained rt s := by
  intro row hrow package hpackage
  exact h.held package (mem_livePackages.mpr (.inr ⟨row, hrow, hpackage⟩))

end Sound

/-- Over every run whose passes delete nothing of a live package that they have not read, the
package of every version is registered and stored. -/
theorem run_retained (hinit : (service rt).init s) {actions : List Action}
    (hspares : (service rt).EachStep (SparesUnread rt) s actions) :
    (service rt).Always (Retained rt) s actions := by
  obtain ⟨hversions, hchecked, hpass⟩ := hinit
  have hstart : Sound rt s := by
    refine ⟨fun package hpackage ↦ ?_, ?_⟩
    · rw [State.livePackages, hversions, hchecked] at hpackage
      cases hpackage
    · rw [hpass]
      trivial
  have hsound : (service rt).Always (Sound rt) s actions :=
    hspares.always (fun t action t' h hspares hstep ↦ h.step hspares hstep) hstart
  exact hsound.mono fun t ht ↦ ht.retained

/-! ## A commit between the marks and the sweep -/

namespace Sample

open Server.Sample

/-- The package was uploaded long ago, and no version names it. -/
def start : State := ⟨database, storedPackage, epoch, [], none⟩

def create : Action :=
  .commit (.createSkill (context version₁) user
    (syncSkill user demoMetadata)
    (syncVersion "demo" "# Demo" "" packageHash none))

/-- A pass that reads everything. -/
def pass : GcArgs := { blindPass with unreadable := fun _ ↦ false }

/-- The pass after it read its roots, of which there are none, and marked them. -/
def unmarked : State := { start with pass := some (.marked pass [] []) }

theorem init_start (rt : Runtime) : (service rt).init start := ⟨rfl, rfl, rfl⟩

theorem step_gcRoots : (service runtime).step start (.gcRoots pass) =
    some { start with pass := some (.rooted pass []) } := by
  have hroots : Server.gcRoots database epoch pass = [] := by decide +kernel
  simp [service, step, start, hroots]

theorem step_gcMark : (service runtime).step { start with pass := some (.rooted pass []) } .gcMark =
    some unmarked := by
  simp [service, step, State.mark, gcMarked, SourcedGraph.mark, unmarked]

/-- The device found nothing missing and uploads nothing; its request runs after the marks. -/
def sweptRun : List Action :=
  [.negotiate [(fileHash, 7), (packageHash, 149)], .gcRoots pass, .gcMark, .check packageHash,
    create, .release packageHash, .gcSelect, .gcSweepNext, .gcSweepNext, .gcCommit]

/-- The pass is aborted before it deletes anything. -/
def abortedRun : List Action :=
  [.gcRoots pass, .gcMark, .gcSelect, .check packageHash, create, .release packageHash, .gcAbort]

end Sample

open Server.Sample Sample in
/-- The version that was committed under an aborted pass keeps its package. -/
theorem run_retained_aborted :
    ((service runtime).run start abortedRun).map (fun t ↦ t.livePackages) = some [packageHash] ∧
      (service runtime).Always (Retained runtime) start abortedRun := by
  constructor
  · rw [abortedRun, TransitionSystem.run, step_gcRoots, Option.bind_some, TransitionSystem.run,
      step_gcMark, Option.bind_some]
    decide +kernel
  · apply run_retained (init_start _)
    refine .cons step_gcRoots (by decide +kernel) (.cons step_gcMark (by decide +kernel) ?_)
    decide +kernel

open Server.Sample Sample in
/-- The pass deletes the package between the check of the request and the end of the pass: the
committed version has neither objects nor rows. -/
theorem run_swept_lost :
    (service runtime).init start ∧ ∃ t, (service runtime).run start sweptRun = some t ∧
      ¬ Retained runtime t := by
  have hend : ((service runtime).run start sweptRun).map (fun t ↦
      (t.db.versions.rows.map SkillVersion.packageManifestHash, t.objects.rows.length)) =
      some ([some packageHash], 0) := by
    rw [sweptRun, TransitionSystem.run, show (service runtime).step start (.negotiate _) =
      some start from rfl, Option.bind_some, TransitionSystem.run, step_gcRoots, Option.bind_some,
      TransitionSystem.run, step_gcMark, Option.bind_some]
    decide +kernel
  obtain ⟨t, hrun, ht⟩ := Option.map_eq_some_iff.mp hend
  obtain ⟨hversions, hobjects⟩ := Prod.mk.inj ht
  refine ⟨init_start _, t, hrun, fun hretained ↦ ?_⟩
  have hmem : some packageHash ∈ t.db.versions.rows.map SkillVersion.packageManifestHash := by
    rw [hversions]
    exact List.mem_singleton_self _
  obtain ⟨row, hrow, hpackage⟩ := List.mem_map.mp hmem
  obtain ⟨hash, -, -, hstored⟩ :=
    (hretained row hrow packageHash hpackage).objects packageHash.text (.inl rfl)
  obtain ⟨object, hobject⟩ := Option.isSome_iff_exists.mp hstored
  have hlisted : object ∈ t.objects.rows := Table.mem_of_get? hobject
  rw [List.length_eq_zero_iff.mp hobjects] at hlisted
  cases hlisted

end PackageRetention

end Server

end SkillHive
