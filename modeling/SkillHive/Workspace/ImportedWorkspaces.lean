import SkillHive.Workspace.ArchiveRoundTrip
import SkillHive.Workspace.ManagedTrees

/-!
# Imports on the disk and in the store

An import of a snapshot is told twice: on the disk, with the files and the bytes in them, and in the
directory of the workspace store, where a workspace is the list of its files. As long as the store
shows what is on the disk, an import ends the same way in both, and the store shows the disk again.
-/

namespace SkillHive

open Foundation Snapshot

namespace Workspace

/-! ## What the store is told of the disk -/

/-- The number of files that are made before one of them fails. -/
def servedFiles (libs : Libraries) (blobs : BlobStore) :
    SourceDirectory × ℕ → List SkillSnapshotFile → ℕ
  | _, [] => 0
  | made, file :: rest =>
    match materializeFile libs blobs .default made file with
    | .ok made => servedFiles libs blobs made rest + 1
    | .error _ => 0

/-- The libraries and the blobs, as the store meets them. -/
def environmentOf (libs : Libraries) (blobs : BlobStore) :
    WorkspaceStore.Environment SkillSnapshotFile where
  digest skillId := String.ofList ((libs.hashBytes skillId.toUTF8).toList.drop 7)
  entrypoint content :=
    ⟨skillEntrypoint, libs.hashBytes content.toUTF8, content.utf8ByteSize⟩
  isEntrypoint
    | .file file => (segments file.path).head? = some skillEntrypoint
    | .special path => (segments path).head? = some skillEntrypoint
  blobs :=
    { manifest := fun manifestHash ↦
        (readManifestWithPolicy libs blobs manifestHash .default).toOption.map
          SkillSnapshotManifest.files
      served := fun manifestHash ↦
        match readManifestWithPolicy libs blobs manifestHash .default with
        | .ok manifest => servedFiles libs blobs ([], 0) manifest.files
        | .error _ => 0 }

/-- Of the steps of an import, the sync at its end is the one that the system may refuse. -/
def scheduleOf (fault : Option Fault) :
    Schedule WorkspaceStore.StoreStep (Deployment.Point SkillSnapshotFile)
  | .syncMaterialized => fault.map fun _ ↦ .failure .untouched
  | _ => none

/-- The store shows what is on the disk below the root. -/
structure Shows (libs : Libraries) (root : List OsName) (m : Machine)
    (store : WorkspaceStore.Root SkillSnapshotFile) : Prop where
  free : ∀ digest, store (.workspace digest) = none ↔
    Directory.node? m.disk (root ++ [.text digest]) = none
  files : ∀ digest files, store (.workspace digest) = some (.snapshot files) →
    ∃ made, foldE (materializeFile libs m.blobs .default) ([], 0) files = .ok made ∧
      ∀ rest, Directory.node? m.disk (root ++ .text digest :: rest) = Directory.node? made.1 rest

/-- An error of the import, as the store names it. -/
def shownError (entry : WorkspaceStore.Entry) : WorkspaceError → WorkspaceStore.WorkspaceError
  | .io => .io
  | .invalidSkillId => .invalidSkillId
  | .alreadyExists _ => .alreadyExists entry
  | .snapshot _ => .snapshot

/-- The end of the import, as the store tells it. -/
def shownResult (entry : WorkspaceStore.Entry) :
    Except WorkspaceError WorkspaceRef →
      Except (Stop WorkspaceStore.WorkspaceError) WorkspaceStore.Entry
  | .ok _ => .ok entry
  | .error e => .error (.failed (shownError entry e))

/-! ## Imports that agree -/

variable {libs : Libraries} {faults : ℕ → Option Fault} {root : List OsName} {m m' : Machine}
  {store : WorkspaceStore.Root SkillSnapshotFile}

theorem length_le_servedFiles {blobs : BlobStore} {made : SourceDirectory × ℕ}
    {files : List SkillSnapshotFile} :
    files.length ≤ servedFiles libs blobs made files ↔
      ∃ made', foldE (materializeFile libs blobs .default) made files = .ok made' := by
  induction files generalizing made with
  | nil => exact iff_of_true le_rfl ⟨made, rfl⟩
  | cons file rest ih =>
    rw [servedFiles, foldE]
    cases hfile : materializeFile libs blobs .default made file with
    | error e =>
      refine iff_of_false (Nat.not_succ_le_zero _) ?_
      rintro ⟨made', hmade⟩
      cases hmade
    | ok made₁ => exact Nat.succ_le_succ_iff.trans ih

/-- A file that cannot be materialized stops the loop on the disk. -/
theorem writeSnapshotFiles_error {parent : List OsName} {name : OsName} {e : SnapshotError}
    {files : List SkillSnapshotFile} {made : SourceDirectory × ℕ}
    (htree : Directory.tree? m.disk (parent ++ [name]) = some (.dir made.1))
    (hparent : Directory.node? m.disk parent = some .directory)
    (hloop : foldE (materializeFile libs m.blobs .default) made files = .error e) :
    (Program.exec (writeSnapshotFiles libs (parent ++ [name]) .default files made.2) m).1 =
      .error e := by
  induction files generalizing m made with
  | nil => cases hloop
  | cons file rest ih =>
    rw [foldE] at hloop
    rw [writeSnapshotFiles]
    cases hfile : materializeFile libs m.blobs .default made file with
    | ok made₁ =>
      rw [hfile] at hloop
      obtain ⟨disk, hstep, htree₁, hparent₁, -⟩ := exec_writeSnapshotFile htree hparent hfile
      rw [Program.exec_bind_ok hstep]
      exact @ih { m with disk } made₁ htree₁ hparent₁ hloop
    | error e' =>
      rw [hfile] at hloop
      cases hloop
      have hstep : Program.exec (writeSnapshotFile libs (parent ++ [name]) .default file made.2) m =
          (.error e, m) := by
        unfold writeSnapshotFile Program.exec ExceptT.run StateT.run
        simp only [htree]
        rw [show ((made.1, made.2) : SourceDirectory × ℕ) = made from rfl, hfile]
      rw [Program.exec_bind_error hstep]

/-- A snapshot that the store does not have whole cannot be written. -/
theorem exec_writeSnapshot_error {parent : List OsName} {name : OsName} {manifestHash : String}
    (hparent : Directory.node? m.disk parent = some .directory)
    (hfree : Directory.node? m.disk (parent ++ [name]) = none)
    (hmissing : ∀ manifest made, readManifestWithPolicy libs m.blobs manifestHash .default =
        .ok manifest → foldE (materializeFile libs m.blobs .default) ([], 0) manifest.files ≠ .ok made) :
    ∃ e m', Program.exec (writeSnapshot libs (parent ++ [name]) manifestHash .default) m =
      (.error e, m') := by
  unfold writeSnapshot
  rw [Program.exec_bind_ok (Program.exec_read m), Program.exec_require_bind hfree]
  cases hmanifest : readManifestWithPolicy libs m.blobs manifestHash .default with
  | error e => exact ⟨e, m, Program.exec_bind_error rfl⟩
  | ok manifest =>
    obtain ⟨disk, hcreate, hempty, hparent'⟩ := exec_createDir hparent hfree
    rw [Program.exec_lift_bind rfl, Program.exec_bind_ok hcreate]
    cases hloop : foldE (materializeFile libs m.blobs .default) ([], 0) manifest.files with
    | ok made => exact absurd hloop (hmissing manifest made hmanifest)
    | error e =>
      have hwrite := @writeSnapshotFiles_error libs { m with disk } parent name e _ ([], 0) hempty
        hparent' hloop
      rw [Program.exec_bind_ok (Program.exec_attempt _ _), hwrite]
      exact ⟨e, _, rfl⟩

section Store

open WorkspaceStore (Entry StoreStep)

variable {blobs : Deployment.Blobs SkillSnapshotFile} {manifestHash : String} {entry : Entry}
  {schedule : Schedule StoreStep (Deployment.Point SkillSnapshotFile)}
  {files : List SkillSnapshotFile}

theorem readEntry_of_free {step : StoreStep} (hstep : schedule step = none)
    (hfree : store entry = none) :
    WorkspaceStore.readEntry step entry schedule store = (.ok none, store) := by
  rw [← hfree]
  exact Faulty.inspect_of_none hstep

/-- A snapshot that the blob store has whole is all there afterwards. -/
theorem materializeSnapshot_stored (htarget : schedule .readTarget = none)
    (hmaterialize : schedule .materialize = none) (hfree : store entry = none)
    (hmanifest : blobs.manifest manifestHash = some files)
    (hserved : files.length ≤ blobs.served manifestHash) :
    WorkspaceStore.materializeSnapshot blobs manifestHash entry schedule store =
      (.ok (), Function.update store entry (some (.snapshot files))) := by
  have hwrite : WorkspaceStore.writeFiles files (blobs.served manifestHash) entry schedule store =
      (.ok (), Function.update store entry (some (.snapshot files))) := by
    unfold WorkspaceStore.writeFiles
    rw [List.take_of_length_le hserved, if_pos hserved]
    exact Faulty.bind_of_ok (Faulty.perform_of_none hmaterialize)
  unfold WorkspaceStore.materializeSnapshot
  rw [Faulty.bind_of_ok (readEntry_of_free htarget hfree)]
  simp only [hmanifest]
  exact Faulty.bind_of_ok (Faulty.attempt_of_ok hwrite)

/-- The part of a snapshot that was made goes again, because it is one of plain files. -/
theorem removeTree_snapshot {step : StoreStep} (files : List SkillSnapshotFile)
    (hstep : schedule step = none) (hfree : store entry = none) :
    WorkspaceStore.removeTree step entry schedule
      (Function.update store entry (some (.snapshot files))) = (.ok (), store) := by
  have hentry : Function.update store entry (some (.snapshot files)) entry =
      some (Deployment.Node.snapshot files) := Function.update_self ..
  have hsupported : (some (Deployment.Node.snapshot files)).bind
      (WorkspaceStore.unsupportedIn entry) = none := by
    have hspecial : (files.map Deployment.DirEntry.file).findSome? Deployment.DirEntry.special? =
        none := by
      rw [List.findSome?_map]
      exact List.findSome?_eq_none_iff.mpr fun _ _ ↦ rfl
    rw [Option.bind_some, Deployment.Node.snapshot, WorkspaceStore.unsupportedIn, hspecial]
    rfl
  have hrun : (Deployment.removal (fun root : WorkspaceStore.Root SkillSnapshotFile ↦ root entry)
      fun node root ↦ Function.update root entry node).run
        (Function.update store entry (some (.snapshot files))) = store := by
    have hremains : (some (Deployment.Node.snapshot files)).bind Deployment.Node.remains = none :=
      Deployment.Node.remains_eq_none.mpr (Deployment.Node.snapshot_isRemovable files)
    simp only [Deployment.removal]
    rw [hentry, hremains, Function.update_idem, ← hfree, Function.update_eq_self]
  have hperform : Faulty.perform step WorkspaceStore.WorkspaceError.io
      (Deployment.removal (fun root : WorkspaceStore.Root SkillSnapshotFile ↦ root entry)
        fun node root ↦ Function.update root entry node) schedule
      (Function.update store entry (some (.snapshot files))) = (.ok (), store) := by
    rw [Faulty.perform_of_none hstep, hrun]
  unfold WorkspaceStore.removeTree
  refine (Faulty.bind_of_ok (p := Faulty.look) rfl).trans ((Faulty.bind_of_ok hperform).trans ?_)
  simp only [hentry, hsupported]
  rfl

/-- A snapshot that the blob store does not have whole leaves nothing. -/
theorem materializeSnapshot_missing (htarget : schedule .readTarget = none)
    (hmaterialize : schedule .materialize = none) (hdiscard : schedule .discardPart = none)
    (hfree : store entry = none)
    (hmissing : ∀ files, blobs.manifest manifestHash = some files →
      ¬ files.length ≤ blobs.served manifestHash) :
    WorkspaceStore.materializeSnapshot blobs manifestHash entry schedule store =
      (.error (.failed .snapshot), store) := by
  unfold WorkspaceStore.materializeSnapshot
  rw [Faulty.bind_of_ok (readEntry_of_free htarget hfree)]
  cases hmanifest : blobs.manifest manifestHash with
  | none => rfl
  | some files =>
    have hwrite : WorkspaceStore.writeFiles files (blobs.served manifestHash) entry schedule store =
        (.error (.failed .snapshot), Function.update store entry
          (some (.snapshot (files.take (blobs.served manifestHash))))) := by
      unfold WorkspaceStore.writeFiles
      rw [if_neg (hmissing files hmanifest)]
      exact Faulty.bind_of_ok (Faulty.perform_of_none hmaterialize)
    have hremove := removeTree_snapshot (files.take (blobs.served manifestHash)) hdiscard hfree
    exact (Faulty.bind_of_ok (Faulty.attempt_of_failed hwrite)).trans
      (Faulty.bind_of_ok (Faulty.attempt_of_ok hremove))

end Store

/-! ## The store goes on showing the disk -/

/-- Any disk is shown by the store that knows which names are taken. -/
theorem exists_shows (libs : Libraries) (root : List OsName) (m : Machine) :
    ∃ store, Shows libs root m store := by
  refine ⟨fun
    | .workspace digest =>
      if Directory.node? m.disk (root ++ [.text digest]) = none then none else some .special
    | _ => none, fun digest ↦ ?_, fun digest files hfiles ↦ ?_⟩
  · by_cases hfree : Directory.node? m.disk (root ++ [.text digest]) = none
    · exact iff_of_true (if_pos hfree) hfree
    · exact iff_of_false (fun h ↦ Option.some_ne_none _ ((if_neg hfree).symm.trans h)) hfree
  · dsimp only at hfiles
    split at hfiles <;> cases hfiles

/-- A path below one workspace is not below another one. -/
theorem not_below_of_ne {digest digest' : String} (h : digest' ≠ digest) (rest : List OsName) :
    ¬ root ++ [.text digest] <+: root ++ .text digest' :: rest := by
  intro hbelow
  obtain ⟨hname, -⟩ := List.cons_prefix_cons.mp ((List.prefix_append_right_inj root).mp hbelow)
  exact h (OsName.text.inj hname).symm

/-- What changes nothing on the disk and no blob changes nothing that the store shows. -/
theorem Shows.of_same (h : Shows libs root m store) (hblobs : m'.blobs = m.blobs)
    (hnodes : ∀ query, Directory.node? m'.disk query = Directory.node? m.disk query) :
    Shows libs root m' store := by
  refine ⟨fun digest ↦ ?_, fun digest files hfiles ↦ ?_⟩
  · rw [hnodes]
    exact h.free digest
  · obtain ⟨made, hmade, hrest⟩ := h.files digest files hfiles
    rw [hblobs]
    exact ⟨made, hmade, fun rest ↦ (hnodes _).trans (hrest rest)⟩

/-- A new workspace with the files of a snapshot shows as these files. -/
theorem Shows.update {digest : String} {files : List SkillSnapshotFile}
    {made : SourceDirectory × ℕ} (h : Shows libs root m store) (hblobs : m'.blobs = m.blobs)
    (hbelow : OnlyBelow (root ++ [.text digest]) m m')
    (hmade : foldE (materializeFile libs m.blobs .default) ([], 0) files = .ok made)
    (htree : Directory.tree? m'.disk (root ++ [.text digest]) = some (.dir made.1)) :
    Shows libs root m' (Function.update store (.workspace digest) (some (.snapshot files))) := by
  have hother : ∀ digest' ≠ digest, ∀ rest,
      Directory.node? m'.disk (root ++ .text digest' :: rest) =
        Directory.node? m.disk (root ++ .text digest' :: rest) :=
    fun digest' hne rest ↦ hbelow _ (not_below_of_ne hne rest)
  have hstore : ∀ digest' ≠ digest, Function.update store (.workspace digest)
      (some (.snapshot files)) (.workspace digest') = store (.workspace digest') :=
    fun digest' hne ↦ Function.update_of_ne (fun heq ↦ hne (WorkspaceStore.Entry.workspace.inj heq)) ..
  refine ⟨fun digest' ↦ ?_, fun digest' files' hfiles' ↦ ?_⟩
  · by_cases hdigest : digest' = digest
    · rw [hdigest, Function.update_self, Directory.tree?_eq_dir_iff.mp ⟨_, htree⟩]
      exact iff_of_false (Option.some_ne_none _) (Option.some_ne_none _)
    · rw [hstore digest' hdigest, hother digest' hdigest []]
      exact h.free digest'
  · rw [hblobs]
    by_cases hdigest : digest' = digest
    · subst hdigest
      rw [Function.update_self, Option.some.injEq, Deployment.Node.snapshot_inj] at hfiles'
      refine ⟨made, hfiles' ▸ hmade, fun rest ↦ ?_⟩
      rw [← Directory.node?_append_of_tree? htree rest, List.append_assoc]
      rfl
    · rw [hstore digest' hdigest] at hfiles'
      obtain ⟨made', hmade', hrest⟩ := h.files digest' files' hfiles'
      exact ⟨made', hmade', fun rest ↦ (hother digest' hdigest rest).trans (hrest rest)⟩

/-! ## The import in both -/

/-- The blob store has the snapshot whole, for the store as on the disk. -/
theorem served_iff {manifestHash : String} {files : List SkillSnapshotFile} :
    ((environmentOf libs m.blobs).blobs.manifest manifestHash = some files ∧
        files.length ≤ (environmentOf libs m.blobs).blobs.served manifestHash) ↔
      ∃ manifest, readManifestWithPolicy libs m.blobs manifestHash .default = .ok manifest ∧
        manifest.files = files ∧
        ∃ made, foldE (materializeFile libs m.blobs .default) ([], 0) files = .ok made := by
  simp only [environmentOf]
  cases readManifestWithPolicy libs m.blobs manifestHash .default with
  | error e => exact iff_of_false (fun h ↦ Option.some_ne_none _ h.1.symm) fun ⟨_, h, _⟩ ↦ nomatch h
  | ok manifest =>
    constructor
    · rintro ⟨hfiles, hserved⟩
      cases hfiles
      exact ⟨manifest, rfl, rfl, length_le_servedFiles.mp hserved⟩
    · rintro ⟨_, ⟨⟩, rfl, hmade⟩
      exact ⟨rfl, length_le_servedFiles.mpr hmade⟩

/-- An identifier is refused in both. -/
theorem pathForSkill_eq {env : WorkspaceStore.Environment SkillSnapshotFile} (skillId : String) :
    (WorkspaceStore.pathForSkill env skillId :
        WorkspaceStore.StoreAction SkillSnapshotFile WorkspaceStore.Entry) =
      match validateSkillId skillId with
      | .ok _ => pure (.workspace (env.digest skillId))
      | .error _ => Faulty.fail .invalidSkillId := by
  unfold WorkspaceStore.pathForSkill validateSkillId require
  by_cases hvalid : trim skillId = "" ∨ 512 < skillId.utf8ByteSize
  · rw [if_pos hvalid, if_neg fun h ↦ hvalid.elim h.1 (Nat.not_lt.mpr h.2)]
  · rw [if_neg hvalid, if_pos ⟨fun h ↦ hvalid (.inl h), Nat.not_lt.mp fun h ↦ hvalid (.inr h)⟩]

/-- The import in the store ends with the same result, and the store shows the disk. -/
structure EndsAlike (libs : Libraries) (root : List OsName) (entry : WorkspaceStore.Entry)
    (onDisk : Except WorkspaceError WorkspaceRef × Machine)
    (inStore : Except (Stop WorkspaceStore.WorkspaceError) WorkspaceStore.Entry ×
      WorkspaceStore.Root SkillSnapshotFile) : Prop where
  result : inStore.1 = shownResult entry onDisk.1
  shows : Shows libs root onDisk.2 inStore.2

/-- The step at the end of the import: the system may refuse it, and nothing is changed. -/
theorem syncDirectory_endsAlike {entry : WorkspaceStore.Entry} {ref : WorkspaceRef}
    (h : Shows libs root m store) :
    EndsAlike libs root entry (Program.exec (syncDirectory faults >>= fun _ ↦ pure ref) m)
      ((WorkspaceStore.syncDirectory .syncMaterialized >>= fun _ ↦ pure entry :
        WorkspaceStore.StoreAction SkillSnapshotFile WorkspaceStore.Entry)
          (scheduleOf (faults m.calls)) store) := by
  have hcounted : Shows libs root { m with calls := m.calls + 1 } store := h.of_same rfl fun _ ↦ rfl
  cases hfault : faults m.calls with
  | none =>
    have hsync : Program.exec (syncDirectory faults) m =
        (.ok (), { m with calls := m.calls + 1 }) := by
      unfold syncDirectory Program.exec ExceptT.run StateT.run
      simp only [hfault]
    rw [Program.exec_bind_ok hsync]
    exact ⟨rfl, hcounted⟩
  | some fault =>
    have hsync : Program.exec (syncDirectory faults) m =
        (.error .io, { m with calls := m.calls + 1 }) := by
      unfold syncDirectory Program.exec ExceptT.run StateT.run
      simp only [hfault]
    rw [Program.exec_bind_error hsync]
    exact ⟨rfl, hcounted⟩

/-- An import to a path that is free. -/
theorem importFree_endsAlike {digest manifestHash : String} {ref : WorkspaceRef}
    (hroot : Directory.node? m.disk root = some .directory) (h : Shows libs root m store)
    (hfree : store (.workspace digest) = none) :
    EndsAlike libs root (.workspace digest)
      (Program.exec (do
        let _ ← Program.mapError .snapshot
          (writeSnapshot libs (root ++ [.text digest]) manifestHash .default)
        syncDirectory faults
        pure ref) m)
      ((do
        WorkspaceStore.materializeSnapshot (environmentOf libs m.blobs).blobs manifestHash
          (.workspace digest)
        WorkspaceStore.syncDirectory .syncMaterialized
        pure (.workspace digest) :
        WorkspaceStore.StoreAction SkillSnapshotFile WorkspaceStore.Entry)
          (scheduleOf (faults m.calls)) store) := by
  have hdisk := (h.free digest).mp hfree
  have hne : root ++ [OsName.text digest] ≠ [] := by simp
  have htarget : scheduleOf (faults m.calls) .readTarget = none := rfl
  have hmaterialize : scheduleOf (faults m.calls) .materialize = none := rfl
  have hdiscard : scheduleOf (faults m.calls) .discardPart = none := rfl
  by_cases hstored : ∃ files,
      (environmentOf libs m.blobs).blobs.manifest manifestHash = some files ∧
        files.length ≤ (environmentOf libs m.blobs).blobs.served manifestHash
  · obtain ⟨files, hfiles, hserved⟩ := hstored
    obtain ⟨manifest, hmanifest, rfl, made, hmade⟩ := served_iff.mp ⟨hfiles, hserved⟩
    obtain ⟨m', hwrite, htree⟩ := exec_writeSnapshot hroot hdisk hmanifest hmade
    have hsame := @writeSnapshot_sameStore libs .default manifestHash (root ++ [.text digest]) m
    rw [hwrite] at hsame
    obtain ⟨hblobs, hcalls⟩ := hsame
    have hbelow : OnlyBelow (root ++ [.text digest]) m m' :=
      (writeSnapshot_onlyBelow hne).ok rfl hwrite
    have hstore := materializeSnapshot_stored htarget hmaterialize hfree hfiles hserved
    rw [Program.exec_bind_ok (Program.exec_mapError_ok hwrite), Faulty.bind_of_ok hstore, ← hcalls]
    exact syncDirectory_endsAlike (h.update hblobs hbelow hmade htree)
  · obtain ⟨e, m', hwrite⟩ := exec_writeSnapshot_error hroot hdisk fun manifest made hm hmade ↦
      hstored ⟨manifest.files, served_iff.mpr ⟨manifest, hm, rfl, made, hmade⟩⟩
    have hsame := @writeSnapshot_sameStore libs .default manifestHash (root ++ [.text digest]) m
    rw [hwrite] at hsame
    have hnodes : ∀ query, Directory.node? m'.disk query = Directory.node? m.disk query :=
      (writeSnapshot_onlyBelow hne).error rfl hwrite
    have hstore := materializeSnapshot_missing htarget hmaterialize hdiscard hfree
      fun files hfiles hserved ↦ hstored ⟨files, hfiles, hserved⟩
    rw [Program.exec_bind_error (Program.exec_mapError_error hwrite), Faulty.bind_of_error hstore]
    exact ⟨rfl, h.of_same hsame.1 hnodes⟩

/-- An import on the disk and the one in the store end with the same result, and the store goes on
showing the disk. -/
theorem importSnapshot_endsAlike (hroot : Directory.node? m.disk root = some .directory)
    (h : Shows libs root m store) (skillId manifestHash : String) :
    EndsAlike libs root (.workspace ((environmentOf libs m.blobs).digest skillId))
      (Program.exec (importSnapshot libs faults root skillId manifestHash) m)
      (WorkspaceStore.importSnapshot (environmentOf libs m.blobs) skillId manifestHash
        (scheduleOf (faults m.calls)) store) := by
  unfold WorkspaceStore.importSnapshot importSnapshot
  rw [pathForSkill_eq]
  cases hid : validateSkillId skillId with
  | error e =>
    rw [Program.exec_bind_error (Program.exec_lift _ _), validateSkillId_error hid]
    exact ⟨rfl, h⟩
  | ok _ =>
    have hpath : pathForSkill libs root skillId = .ok (root ++ [workspaceName libs skillId]) :=
      bind_eq_ok.mpr ⟨(), hid, rfl⟩
    rw [Program.exec_lift_bind rfl, Program.exec_lift_bind hpath,
      Program.exec_bind_ok (Program.exec_read m), Faulty.bind_of_ok (a := _) rfl]
    generalize hdigest : (environmentOf libs m.blobs).digest skillId = digest
    have hname : workspaceName libs skillId = .text digest := congrArg OsName.text hdigest
    rw [hname]
    have hread : WorkspaceStore.readEntry .readPath (.workspace digest) (scheduleOf (faults m.calls))
        store = (.ok (store (.workspace digest)), store) := rfl
    rw [Faulty.bind_of_ok hread]
    cases hentry : store (.workspace digest) with
    | some node =>
      have htaken : ¬ Directory.node? m.disk (root ++ [.text digest]) = none := fun hnone ↦ by
        rw [(h.free digest).mpr hnone] at hentry
        cases hentry
      rw [require, if_neg htaken, Program.exec_bind_error (Program.exec_lift _ _)]
      exact ⟨rfl, h⟩
    | none =>
      rw [Program.exec_require_bind ((h.free digest).mp hentry)]
      exact importFree_endsAlike hroot h hentry

end Workspace

end SkillHive
