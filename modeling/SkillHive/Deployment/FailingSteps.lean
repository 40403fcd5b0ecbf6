import SkillHive.Deployment.Crashes
import SkillHive.Foundation.Faults

/-!
# Deployments with steps that fail

The steps of a deployment with what it does when one of them fails. Up to the move of the old
target, and again once the new target is found not to be the snapshot, the engine undoes what it
has done. What fails in between is left to the next recovery, with the journal and the old target
or the whole snapshot.
-/

namespace SkillHive

open Foundation

namespace Deployment

namespace Failing

/-- The fallible parts of `persist_journal`. -/
inductive RecordStep where
  | look
  | write
  | sync
  deriving DecidableEq, Repr

/-- The fallible steps of `deploy`, in their order. -/
inductive DeployStep where
  | ensureRoot
  | readTarget
  | record (phase : DeploymentPhase) (step : RecordStep)
  | materialize
  | discardPart
  | verifyStaging
  | syncStaging
  | readStaging
  | removeStaging
  | syncRemovedStaging
  | readJournal
  | removeJournal
  | syncRemovedJournal
  | moveOldAside
  | syncMovedOld
  | moveSnapshotIn
  | syncSnapshot
  | verifyTarget
  | readBackup
  | readActivated
  | removeActivated
  | syncRemovedActivated
  | readRestored
  | readRestoredBackup
  | moveBackupBack
  | syncRestored
  | readOldBackup
  | removeBackup
  | syncRemovedBackup
  deriving DecidableEq, Repr

/-- The steps after which `deploy` returns an error and undoes nothing: without an old target the
move of the snapshot is not one of them. -/
def DeployStep.isLeft (replacing : Bool) : DeployStep → Bool
  | record .oldMoved _ | record .activated _ => true
  | moveSnapshotIn => replacing
  | syncMovedOld | syncSnapshot | readBackup | readActivated | removeActivated | readRestored |
    readRestoredBackup | moveBackupBack | readOldBackup | removeBackup | syncRemovedBackup => true
  | _ => false

variable {ε : Type} [DecidableEq ε]

abbrev Deploy (ε α : Type) : Type := Faulty DeployStep (Disk ε) (Point ε) DeploymentError α

/-! ## Steps on the disk -/

/-- A step that fails with an I/O error and changes nothing. -/
def check (step : DeployStep) : Deploy ε Unit := Faulty.inspect step .io fun _ ↦ ()

/-- `path_entry_exists` -/
def pathEntryExists (step : DeployStep) (place : Place) : Deploy ε Bool :=
  Faulty.inspect step .io fun disk ↦ (disk.get place).isSome

/-- `remove_any` -/
def removeAny (step : DeployStep) (place : Place) : Deploy ε Unit := do
  let disk ← Faulty.look
  Faulty.perform step .io (removal (fun disk ↦ disk.get place) fun node disk ↦ disk.set node place)
  if (disk.get place).all Node.isRemovable then pure () else Faulty.fail .unsupportedFileType

/-- `fs::rename` to a place where nothing is. -/
def rename (step : DeployStep) (source target : Place) : Deploy ε Unit :=
  Faulty.perform step .io (atomic fun disk ↦ (disk.set (disk.get source) target).set none source)

/-- `verify_materialized_snapshot` -/
def verifyMaterializedSnapshot (step : DeployStep) (blobs : Blobs ε) (snapshotHash : String)
    (place : Place) : Deploy ε Unit := do
  let node ← Faulty.inspect step .verification fun disk ↦ disk.get place
  if node.any fun node ↦ (blobs.manifest snapshotHash).map Node.snapshot = some node then pure ()
  else Faulty.fail .verification

/-- The files of the staging directory, up to the first one that is missing. -/
def writeStaging (files : List ε) (served : ℕ) : Deploy ε Unit := do
  Faulty.perform .materialize .snapshot
    { run := fun disk ↦ { disk with staging := some (.snapshot (files.take served)) }
      cut := fun point disk ↦
        (writing (files.take served) point).map fun staging ↦ { disk with staging } }
  if files.length ≤ served then pure () else Faulty.fail .snapshot

/-- `materialize_snapshot` into the staging directory, which is removed when a file is missing -/
def materializeSnapshot (blobs : Blobs ε) (snapshotHash : String) : Deploy ε Unit :=
  match blobs.manifest snapshotHash with
  | none => Faulty.fail .snapshot
  | some files => do
    match ← (writeStaging files (blobs.served snapshotHash)).attempt with
    | .ok () => pure ()
    | .error error =>
      let _ ← (removeAny .discardPart .staging).attempt
      Faulty.fail error

/-- `persist_journal` -/
def persistJournal (journal : DeploymentJournal) : Deploy ε Unit := do
  check (.record journal.phase .look)
  Faulty.perform (.record journal.phase .write) .io
    (recording (fun disk ↦ disk.journal) (fun file disk ↦ { disk with journal := file }) journal)
  check (.record journal.phase .sync)

/-- `remove_journal` -/
def removeJournal : Deploy ε Unit := do
  check .readJournal
  Faulty.perform .removeJournal .io (atomic fun disk ↦ { disk with journal := none })
  check .syncRemovedJournal

/-- `restore_backup` -/
def restoreBackup (journal : DeploymentJournal) : Deploy ε Unit := do
  if ← pathEntryExists .readRestored .destination then
    Faulty.fail (unrecoverable journal "cannot restore backup while destination exists")
  else if ← pathEntryExists .readRestoredBackup .backup then
    rename .moveBackupBack .backup .destination
    check .syncRestored
  else Faulty.fail (unrecoverable journal "backup is missing")

/-- `if path_entry_exists(…)? { remove_any(…)? }` -/
def removeIfPresent (read remove : DeployStep) (place : Place) : Deploy ε Unit := do
  if ← pathEntryExists read place then removeAny remove place

/-- `rollback_active_to_backup` -/
def rollbackActiveToBackup (journal : DeploymentJournal) : Deploy ε Unit := do
  removeIfPresent .readActivated .removeActivated .destination
  restoreBackup journal

/-! ## A deployment -/

/-- The steps up to the phase `Prepared`. -/
def prepareStaging (blobs : Blobs ε) (journal : DeploymentJournal) : Deploy ε Unit := do
  materializeSnapshot blobs journal.snapshotHash
  verifyMaterializedSnapshot .verifyStaging blobs journal.snapshotHash .staging
  check .syncStaging
  persistJournal { journal with phase := .prepared }

/-- The staging directory goes, as far as that is possible. -/
def discardStaging : Deploy ε Unit := do
  match ← (pathEntryExists .readStaging .staging).attempt with
  | .ok true =>
    let _ ← (removeAny .removeStaging .staging).attempt
    let _ ← (check .syncRemovedStaging).attempt
    pure ()
  | _ => pure ()

/-- What is done about a staging directory that could not be prepared. -/
def abandonStaging (error : DeploymentError) : Deploy ε DeploymentResult := do
  discardStaging
  let _ ← removeJournal.attempt
  Faulty.fail error

/-- The old target moves aside. -/
def moveOldAside (journal : DeploymentJournal) : Deploy ε Unit := do
  rename .moveOldAside .destination .backup
  check .syncMovedOld
  persistJournal { journal with phase := .oldMoved }

/-- Without an old target, or without its backup, the new target goes. -/
def removeActivated : Deploy ε Unit := do
  if ← pathEntryExists .readActivated .destination then
    removeAny .removeActivated .destination
    check .syncRemovedActivated

/-- What is done about a target that is not the snapshot. -/
def undoActivation (journal : DeploymentJournal) (error : DeploymentError) :
    Deploy ε DeploymentResult := do
  if journal.replacedExisting then
    if ← pathEntryExists .readBackup .backup then rollbackActiveToBackup journal
    else removeActivated
  else removeActivated
  let _ ← removeJournal.attempt
  Faulty.fail error

/-- The last phase of a deployment. -/
def commitActivation (journal : DeploymentJournal) : Deploy ε Unit := do
  persistJournal { journal with phase := .activated }
  if ← pathEntryExists .readOldBackup .backup then
    removeAny .removeBackup .backup
    check .syncRemovedBackup

/-- The snapshot moves in, and the old target goes once the snapshot is verified. -/
def moveSnapshotIn (blobs : Blobs ε) (journal : DeploymentJournal) : Deploy ε DeploymentResult := do
  rename .moveSnapshotIn .staging .destination
  check .syncSnapshot
  match ← (verifyMaterializedSnapshot .verifyTarget blobs journal.snapshotHash .destination).attempt with
  | .error error => undoActivation journal error
  | .ok () =>
    commitActivation journal
    pure journal.result

/-- The steps after the phase `Prepared`. -/
def activate (blobs : Blobs ε) (journal : DeploymentJournal) : Deploy ε DeploymentResult := do
  if journal.replacedExisting then moveOldAside journal
  moveSnapshotIn blobs journal

/-- `deploy`, for a request that `validate_request` accepts. -/
def deploy (blobs : Blobs ε) (transactionId : String) (request : DeploymentRequest) :
    Deploy ε DeploymentResult := do
  check .ensureRoot
  let replacedExisting ← pathEntryExists .readTarget .destination
  let journal := journalOf transactionId request replacedExisting .intent
  persistJournal journal
  match ← (prepareStaging blobs journal).attempt with
  | .error error => abandonStaging error
  | .ok () => activate blobs journal

/-! ## What the steps leave -/

section Steps

variable {faults : Schedule DeployStep (Point ε)} {disk : Disk ε} {I : Disk ε → Prop}

omit [DecidableEq ε] in
theorem check_preserves (step : DeployStep) : (check step).Preserves I :=
  Faulty.Preserves.inspect step DeploymentError.io fun _ ↦ ()

/-- What the place has no part in is as it was, also when the removal fails, by the schedule or
because it does not support what is there. -/
theorem removeAny_meets {step : DeployStep} {place : Place}
    {E : Stop DeploymentError → Disk ε → Prop} (hI : ∀ disk node, I disk → I (disk.set node place))
    (hdisk : I disk) (hfault : ∀ stop disk', (faults step).isSome → I disk' → E stop disk')
    (hrefused : ∀ stop disk', ¬ (∀ node ∈ disk.get place, node.isRemovable = true) → I disk' →
      E stop disk') :
    (removeAny step place).Meets faults (fun _ ↦ I) E disk := by
  refine Faulty.Meets.look (Faulty.Meets.bind (P := fun _ ↦ I)
    (Faulty.Meets.perform (fun _ ↦ hI disk _ hdisk) fun fault hstep ↦ ?_) fun _ disk' h ↦ ?_)
  · refine hfault _ _ (by rw [hstep]; rfl) ?_
    cases hcut : (removal (fun disk : Disk ε ↦ disk.get place) fun node disk ↦
        disk.set node place).cut fault.point disk with
    | none => exact hdisk
    | some disk' =>
      obtain ⟨node, -, hcut⟩ := Option.bind_eq_some_iff.mp hcut
      obtain ⟨left, -, rfl⟩ := Option.map_eq_some_iff.mp hcut
      exact hI disk (some left) hdisk
  · split
    case isTrue => exact Faulty.Meets.pure h
    case isFalse hall =>
      refine Faulty.Meets.fail (hrefused _ _ (fun hremovable ↦ hall ?_) h)
      cases hplace : disk.get place with
      | none => rfl
      | some node => exact hremovable node hplace

theorem removeAny_preserves (step : DeployStep) {place : Place}
    (hI : ∀ disk node, I disk → I (disk.set node place)) : (removeAny step place).Preserves I :=
  fun _ _ hdisk ↦ removeAny_meets hI hdisk (fun _ _ _ h ↦ h) fun _ _ _ h ↦ h

omit [DecidableEq ε] in
/-- A step of the record fails, and what the journal has no part in is as it was. -/
theorem persistJournal_meets {journal : DeploymentJournal} {E : Stop DeploymentError → Disk ε → Prop}
    (hI : ∀ disk file, I disk → I { disk with journal := some file }) (hdisk : I disk)
    (hfault : ∀ step stop disk', (faults (.record journal.phase step)).isSome → I disk' →
      E stop disk') :
    (persistJournal journal).Meets faults (fun _ disk' ↦ I disk' ∧ disk'.journal.isSome) E disk := by
  have hcheck : ∀ step (disk : Disk ε), I disk → (check (.record journal.phase step)).Meets faults
      (fun _ disk' ↦ disk' = disk) E disk := fun step disk h ↦
    Faulty.Meets.inspect (fun _ ↦ rfl) fun fault hstep ↦
      hfault step _ disk (by rw [hstep]; rfl) h
  refine (hcheck .look disk hdisk).bind fun _ disk' hsame ↦ ?_
  subst hsame
  refine Faulty.Meets.bind (P := fun _ disk' ↦ I disk' ∧ disk'.journal.isSome)
    (Faulty.Meets.perform (fun _ ↦ ⟨hI _ _ hdisk, rfl⟩) fun fault hwrite ↦ ?_) fun _ disk' h ↦ ?_
  · refine hfault .write _ _ (by rw [hwrite]; rfl) ?_
    rcases hpoint : fault.point with _ | _ | _ | point
    · exact hdisk
    · exact hdisk
    · exact hdisk
    · exact hI _ _ hdisk
  · exact (hcheck .sync disk' h.1).mono (fun _ _ hsame ↦ hsame ▸ h) fun _ _ h ↦ h

omit [DecidableEq ε] in
theorem persistJournal_preserves {journal : DeploymentJournal}
    (hI : ∀ disk file, I disk → I { disk with journal := some file }) :
    (persistJournal journal).Preserves I := fun _ _ hdisk ↦
  (persistJournal_meets hI hdisk fun _ _ _ _ h ↦ h).mono (fun _ _ h ↦ h.1) fun _ _ h ↦ h

omit [DecidableEq ε] in
theorem removeJournal_preserves (hI : ∀ disk, I disk → I { disk with journal := none }) :
    removeJournal.Preserves I := by
  refine Faulty.Preserves.bind (check_preserves _) fun _ ↦
    Faulty.Preserves.bind ?_ fun _ ↦ check_preserves _
  refine Faulty.Preserves.perform DeployStep.removeJournal DeploymentError.io hI
    fun point disk disk' h hcut ↦ ?_
  rw [atomic_cut hcut]
  exact h

omit [DecidableEq ε] in
theorem rename_meets {step : DeployStep} {source target : Place} {P : Unit → Disk ε → Prop}
    {E : Stop DeploymentError → Disk ε → Prop}
    (hdone : P () ((disk.set (disk.get source) target).set none source))
    (hfault : ∀ stop, (faults step).isSome → E stop disk) :
    (rename step source target).Meets faults P E disk := by
  refine Faulty.Meets.perform (fun _ ↦ hdone) fun fault hstep ↦ ?_
  have hsame : ((atomic fun disk ↦ (disk.set (disk.get source) target).set none source).cut
      fault.point disk).getD disk = disk := by
    rcases fault.point with _ | _ | _ | _ <;> rfl
  rw [hsame]
  exact hfault _ (by rw [hstep]; rfl)

omit [DecidableEq ε] in
theorem check_meets {step : DeployStep} {P : Unit → Disk ε → Prop}
    {E : Stop DeploymentError → Disk ε → Prop} (hdone : P () disk)
    (hfault : ∀ stop, (faults step).isSome → E stop disk) : (check step).Meets faults P E disk :=
  Faulty.Meets.inspect (fun _ ↦ hdone) fun _ hstep ↦ hfault _ (by rw [hstep]; rfl)

omit [DecidableEq ε] in
theorem pathEntryExists_meets {step : DeployStep} {place : Place} {P : Bool → Disk ε → Prop}
    {E : Stop DeploymentError → Disk ε → Prop} (hdone : P (disk.get place).isSome disk)
    (hfault : ∀ stop, (faults step).isSome → E stop disk) :
    (pathEntryExists step place).Meets faults P E disk :=
  Faulty.Meets.inspect (fun _ ↦ hdone) fun _ hstep ↦ hfault _ (by rw [hstep]; rfl)

theorem exists_of_removing_snapshot {files : List ε} {left : Node ε} {point : Point ε}
    (h : (Node.snapshot files).removing point = some left) :
    ∃ kept, kept.Sublist files ∧ left = .snapshot kept := by
  rcases point with _ | kept | _ | _
  · cases h
    exact ⟨files, List.Sublist.refl files, rfl⟩
  · rw [Node.snapshot, Node.removing] at h
    split at h
    case isTrue hkept =>
      cases h
      obtain ⟨part, hsub, rfl⟩ := List.sublist_map_iff.mp hkept.1
      exact ⟨part, hsub, rfl⟩
    case isFalse => cases h
  · cases h
  · cases h

end Steps

/-! ## What a deployment leaves -/

/-- The places of the disk, and that there is a journal. -/
structure Rests (destination staging backup : Option (Node ε)) (disk : Disk ε) : Prop where
  destination : disk.destination = destination
  staging : disk.staging = staging
  backup : disk.backup = backup

/-- There is something for the recovery to go on: the journal with the old target aside, or with
the snapshot in place; where nothing was, a part of the snapshot may be in place. -/
def LeftToRecovery (tx : Transaction ε) (disk : Disk ε) : Prop :=
  disk.journal.isSome ∧ ((tx.old.isSome ∧ disk.backup = tx.old) ∨
    ∃ files, tx.files? = some files ∧ (disk.destination = some (.snapshot files) ∨
      tx.old = none ∧ ∃ left, left.Sublist files ∧ disk.destination = some (.snapshot left)))

/-- The step fails by the schedule, or it would remove an old target that no removal gets through. -/
def Fails (tx : Transaction ε) (faults : Schedule DeployStep (Point ε)) (step : DeployStep) : Prop :=
  (faults step).isSome ∨ (step = .removeBackup ∧ ¬ tx.Removable)

/-- What is true of the disk when a deployment stops: the old target is in its place, or a step
has failed that is left to the recovery. -/
def Stopped (tx : Transaction ε) (faults : Schedule DeployStep (Point ε))
    (stop : Stop DeploymentError) (disk : Disk ε) : Prop :=
  stop = .crashed ∨ disk.destination = tx.old ∨
    LeftToRecovery tx disk ∧ ∃ step, Fails tx faults step ∧ step.isLeft tx.old.isSome = true

section Deploy

variable {tx : Transaction ε} {faults : Schedule DeployStep (Point ε)} {disk : Disk ε}
  {files : List ε} {stop : Stop DeploymentError}

omit [DecidableEq ε]

theorem stopped_of_old (h : disk.destination = tx.old) : Stopped tx faults stop disk := .inr (.inl h)

theorem stopped_of_backup {step : DeployStep} (hjournal : disk.journal.isSome)
    (hold : tx.old.isSome) (hbackup : disk.backup = tx.old) (hstep : (faults step).isSome)
    (hleft : step.isLeft tx.old.isSome = true) : Stopped tx faults stop disk :=
  .inr (.inr ⟨⟨hjournal, .inl ⟨hold, hbackup⟩⟩, step, .inl hstep, hleft⟩)

theorem stopped_of_snapshot {step : DeployStep} (hjournal : disk.journal.isSome)
    (hfiles : tx.files? = some files) (hdestination : disk.destination = some (.snapshot files))
    (hstep : Fails tx faults step) (hleft : step.isLeft tx.old.isSome = true) :
    Stopped tx faults stop disk :=
  .inr (.inr ⟨⟨hjournal, .inr ⟨files, hfiles, .inl hdestination⟩⟩, step, hstep, hleft⟩)

end Deploy

section Deploy

variable {tx : Transaction ε} {faults : Schedule DeployStep (Point ε)} {disk : Disk ε}
  {files : List ε}

theorem verify_meets {step : DeployStep} {snapshotHash : String} {place : Place}
    {P : Unit → Disk ε → Prop} {E : Stop DeploymentError → Disk ε → Prop}
    (hdone : ∀ files, tx.blobs.manifest snapshotHash = some files →
      disk.get place = some (.snapshot files) → P () disk)
    (hstop : ∀ stop, E stop disk) :
    (verifyMaterializedSnapshot step tx.blobs snapshotHash place).Meets faults P E disk := by
  refine Faulty.Meets.bind (P := fun node disk' ↦ node = disk.get place ∧ disk' = disk)
    (Faulty.Meets.inspect (fun _ ↦ ⟨rfl, rfl⟩) fun _ _ ↦ hstop _) ?_
  rintro node disk' ⟨rfl, rfl⟩
  split
  case isTrue hsame =>
    cases hnode : disk'.get place with
    | none =>
      rw [hnode] at hsame
      cases hsame
    | some node =>
      rw [hnode] at hsame
      obtain ⟨files, hfiles, rfl⟩ := Option.map_eq_some_iff.mp (of_decide_eq_true hsame)
      exact Faulty.Meets.pure (hdone files hfiles hnode)
  case isFalse => exact Faulty.Meets.fail (hstop _)

/-- Up to the phase `Prepared` the old target is where it was. -/
theorem prepareStaging_meets {journal : DeploymentJournal} {backup : Option (Node ε)}
    (hhash : journal.snapshotHash = tx.request.snapshotHash)
    (hdisk : disk.destination = tx.old ∧ disk.backup = backup) :
    (prepareStaging tx.blobs journal).Meets faults
      (fun _ disk' ↦ ∃ files, tx.files? = some files ∧
        Rests tx.old (some (.snapshot files)) backup disk' ∧ disk'.journal.isSome)
      (fun _ disk' ↦ disk'.destination = tx.old ∧ disk'.backup = backup) disk := by
  have hmaterialize : (materializeSnapshot tx.blobs journal.snapshotHash).Preserves
      fun disk ↦ disk.destination = tx.old ∧ disk.backup = backup := by
    have hwrite : ∀ files served, (writeStaging files served).Preserves
        fun disk : Disk ε ↦ disk.destination = tx.old ∧ disk.backup = backup := by
      intro files served
      refine Faulty.Preserves.bind ?_ fun _ ↦ ?_
      · refine Faulty.Preserves.perform DeployStep.materialize DeploymentError.snapshot
          (fun _ h ↦ h) fun point disk disk' h hcut ↦ ?_
        obtain ⟨staging, -, rfl⟩ := Option.map_eq_some_iff.mp hcut
        exact h
      · split
        · exact .pure ()
        · exact .fail _
    unfold materializeSnapshot
    split
    · exact .fail _
    · refine Faulty.Preserves.bind (hwrite _ _).attempt fun result ↦ ?_
      cases result with
      | ok _ => exact .pure ()
      | error error =>
        exact .bind (.attempt (removeAny_preserves _ fun _ _ h ↦ h)) fun _ ↦ .fail error
  refine (hmaterialize faults disk hdisk).bind fun _ disk hdisk ↦ ?_
  refine Faulty.Meets.bind (P := fun _ disk' ↦ ∃ files, tx.files? = some files ∧
      Rests tx.old (some (.snapshot files)) backup disk')
    (verify_meets (fun files hfiles hstaging ↦ ?_) fun _ ↦ hdisk) ?_
  · rw [hhash] at hfiles
    exact ⟨files, hfiles, hdisk.1, hstaging, hdisk.2⟩
  rintro _ disk ⟨files, hfiles, hrests⟩
  refine Faulty.Meets.bind (P := fun _ disk' ↦ Rests tx.old (some (.snapshot files)) backup disk')
    (check_meets hrests fun _ _ ↦ ⟨hrests.destination, hrests.backup⟩) fun _ disk hrests ↦ ?_
  have hpersist : (persistJournal { journal with phase := .prepared }).Meets faults
      (fun _ disk' ↦ Rests tx.old (some (.snapshot files)) backup disk' ∧ disk'.journal.isSome)
      (fun _ disk' ↦ disk'.destination = tx.old ∧ disk'.backup = backup) disk :=
    persistJournal_meets (fun _ _ h ↦ ⟨h.destination, h.staging, h.backup⟩) hrests
      fun _ _ _ _ h ↦ ⟨h.destination, h.backup⟩
  exact hpersist.mono (fun _ _ h ↦ ⟨files, hfiles, h⟩) fun _ _ h ↦ h

/-- What is done about a staging directory has no part in the target. -/
theorem abandonStaging_preserves (error : DeploymentError) :
    (abandonStaging error).Preserves fun disk : Disk ε ↦ disk.destination = tx.old := by
  have hdiscard : discardStaging.Preserves fun disk : Disk ε ↦ disk.destination = tx.old := by
    refine Faulty.Preserves.bind (Faulty.Preserves.attempt (.inspect _ _ _)) fun result ↦ ?_
    split
    · refine .bind (.attempt (removeAny_preserves _ fun _ _ h ↦ h)) fun _ ↦ ?_
      exact .bind (.attempt (check_preserves _)) fun _ ↦ .pure ()
    · exact .pure ()
  refine Faulty.Preserves.bind hdiscard fun _ ↦ .bind (.attempt ?_) fun _ ↦ .fail error
  exact removeJournal_preserves fun _ h ↦ h

/-- The disk after the snapshot has moved in. -/
structure Active (tx : Transaction ε) (files : List ε) (disk : Disk ε) : Prop where
  destination : disk.destination = some (.snapshot files)
  backup : disk.backup = tx.old
  logged : disk.journal.isSome

omit [DecidableEq ε] in
theorem Active.present (hdisk : Active tx files disk) : (disk.get .destination).isSome = true := by
  rw [Disk.get, hdisk.destination]
  rfl

/-- A removal of the new target that fails leaves a part of the snapshot. -/
theorem removeTarget_meets {P : Unit → Disk ε → Prop} {E : Stop DeploymentError → Disk ε → Prop}
    (hdisk : Active tx files disk) (hdone : P () { disk with destination := none })
    (hfault : ∀ stop left, (faults .removeActivated).isSome → left.Sublist files →
      E stop { disk with destination := some (.snapshot left) }) :
    (removeAny .removeActivated .destination).Meets faults P E disk := by
  have hplace : disk.get .destination = some (.snapshot files) := hdisk.destination
  have hnothing : (disk.get .destination).bind Node.remains = none := by
    rw [hplace, Option.bind_some, Node.remains_eq_none]
    exact Node.snapshot_isRemovable files
  refine Faulty.Meets.look (Faulty.Meets.bind
    (P := fun _ disk' ↦ disk' = { disk with destination := none })
    (Faulty.Meets.perform (fun _ ↦ ?_) fun fault hstep ↦ ?_) fun _ disk' hsame ↦ ?_)
  · exact congrArg (fun node ↦ { disk with destination := node }) hnothing
  case refine_3 =>
    rw [hplace, hsame, Option.all_some, if_pos (Node.snapshot_isRemovable files)]
    exact Faulty.Meets.pure hdone
  have hstep : (faults .removeActivated).isSome := by rw [hstep]; rfl
  have hall : E (fault.stop .io) disk := by
    have hfull := hfault (fault.stop .io) files hstep (List.Sublist.refl files)
    rwa [← hdisk.destination] at hfull
  cases hcut : (removal (fun disk : Disk ε ↦ disk.get .destination) fun node disk ↦
      disk.set node .destination).cut fault.point disk with
  | none => exact hall
  | some disk' =>
    obtain ⟨node, hnode, hcut⟩ := Option.bind_eq_some_iff.mp hcut
    obtain ⟨left, hleft, rfl⟩ := Option.map_eq_some_iff.mp hcut
    have hnode : disk.destination = some node := hnode
    rw [hdisk.destination] at hnode
    cases hnode
    obtain ⟨kept, hsub, rfl⟩ := exists_of_removing_snapshot hleft
    exact hfault _ kept hstep hsub

/-- The old target goes back, or is aside with a step that has failed. -/
theorem rollbackActiveToBackup_meets {journal : DeploymentJournal} (hold : tx.old.isSome)
    (hdisk : Active tx files disk) :
    (rollbackActiveToBackup journal).Meets faults (fun _ disk' ↦ disk'.destination = tx.old)
      (Stopped tx faults) disk := by
  have haside : ∀ {disk : Disk ε} {step : DeployStep} {stop}, disk.backup = tx.old →
      disk.journal.isSome → step.isLeft tx.old.isSome = true → (faults step).isSome →
      Stopped tx faults stop disk :=
    fun hbackup hlogged hleft hstep ↦ stopped_of_backup hlogged hold hbackup hstep hleft
  refine Faulty.Meets.bind (P := fun _ disk' ↦ disk'.destination = none ∧ disk'.backup = tx.old ∧
    disk'.journal.isSome) ?_ ?_
  · refine Faulty.Meets.bind (P := fun present disk' ↦ present = true ∧ disk' = disk)
      (pathEntryExists_meets ⟨hdisk.present, rfl⟩ fun _ ↦ haside hdisk.backup hdisk.logged rfl) ?_
    rintro _ disk ⟨rfl, rfl⟩
    exact removeTarget_meets hdisk ⟨rfl, hdisk.backup, hdisk.logged⟩
      fun stop left hstep _ ↦ haside hdisk.backup hdisk.logged rfl hstep
  rintro _ disk ⟨hdestination, hbackup, hlogged⟩
  have habsent : (disk.get .destination).isSome = false := by
    rw [Disk.get, hdestination]
    rfl
  refine Faulty.Meets.bind (P := fun present disk' ↦ present = false ∧ disk' = disk)
    (pathEntryExists_meets ⟨habsent, rfl⟩ fun _ ↦ haside hbackup hlogged rfl) ?_
  rintro _ disk ⟨rfl, rfl⟩
  have hthere : (disk.get .backup).isSome = true := by
    rw [Disk.get, hbackup]
    exact hold
  refine Faulty.Meets.bind (P := fun present disk' ↦ present = true ∧ disk' = disk)
    (pathEntryExists_meets ⟨hthere, rfl⟩ fun _ ↦ haside hbackup hlogged rfl) ?_
  rintro _ disk ⟨rfl, rfl⟩
  refine Faulty.Meets.bind (P := fun _ disk' ↦ disk'.destination = tx.old)
    (rename_meets hbackup fun _ ↦ haside hbackup hlogged rfl) fun _ disk hdestination ↦ ?_
  exact check_meets hdestination fun _ _ ↦ stopped_of_old hdestination

/-- Where nothing was, the new target goes, or a part of it is left with a step that has failed. -/
theorem removeActivated_stopped (hfiles : tx.files? = some files) (hold : tx.old = none)
    (hdisk : Active tx files disk) :
    removeActivated.Meets faults (fun _ disk' ↦ disk'.destination = tx.old) (Stopped tx faults)
      disk := by
  have hpart : ∀ {left : List ε} {step : DeployStep} {stop}, left.Sublist files →
      step.isLeft tx.old.isSome = true → (faults step).isSome →
      Stopped tx faults stop { disk with destination := some (.snapshot left) } :=
    fun hsub hleft hstep ↦ .inr (.inr
      ⟨⟨hdisk.logged, .inr ⟨files, hfiles, .inr ⟨hold, _, hsub, rfl⟩⟩⟩, _, .inl hstep, hleft⟩)
  refine Faulty.Meets.bind (P := fun present disk' ↦ present = true ∧ disk' = disk)
    (pathEntryExists_meets ⟨hdisk.present, rfl⟩ fun _ hstep ↦
      stopped_of_snapshot hdisk.logged hfiles hdisk.destination (.inl hstep) rfl) ?_
  rintro _ disk ⟨rfl, rfl⟩
  refine Faulty.Meets.bind (P := fun _ disk' ↦ disk'.destination = tx.old)
    (removeTarget_meets hdisk hold.symm fun _ _ hstep hsub ↦ hpart hsub rfl hstep) ?_
  intro _ disk hdestination
  exact check_meets hdestination fun _ _ ↦ stopped_of_old hdestination

/-- Once the new target is found not to be the snapshot, the old one goes back. -/
theorem undoActivation_meets {journal : DeploymentJournal} (e : DeploymentError)
    (hreplaced : journal.replacedExisting = tx.old.isSome) (hfiles : tx.files? = some files)
    (hdisk : Active tx files disk) :
    (undoActivation journal e).Meets faults (fun _ _ ↦ True) (Stopped tx faults) disk := by
  have hend : ∀ disk : Disk ε, disk.destination = tx.old →
      (do let _ ← removeJournal.attempt; Faulty.fail e : Deploy ε DeploymentResult).Meets faults
        (fun _ _ ↦ True) (Stopped tx faults) disk := by
    intro disk hdestination
    have hkeeps : (do let _ ← removeJournal.attempt; Faulty.fail e : Deploy ε DeploymentResult).Preserves
        fun disk ↦ disk.destination = tx.old :=
      .bind (.attempt (removeJournal_preserves fun _ h ↦ h)) fun _ ↦ .fail e
    exact (hkeeps faults disk hdestination).mono (fun _ _ _ ↦ trivial)
      fun _ _ h ↦ stopped_of_old h
  unfold undoActivation
  rw [hreplaced]
  cases hold : tx.old with
  | none => exact (removeActivated_stopped hfiles hold hdisk).bind fun _ ↦ hend
  | some old =>
    have hbackup : (disk.get .backup).isSome = true := by
      rw [Disk.get, hdisk.backup, hold]
      rfl
    have hsome : tx.old.isSome := by rw [hold]; rfl
    refine Faulty.Meets.bind (P := fun present disk' ↦ present = true ∧ disk' = disk)
      (pathEntryExists_meets ⟨hbackup, rfl⟩ fun _ hstep ↦
        stopped_of_backup hdisk.logged hsome hdisk.backup hstep rfl) ?_
    rintro _ disk ⟨rfl, rfl⟩
    exact (rollbackActiveToBackup_meets hsome hdisk).bind fun _ ↦ hend

/-- The snapshot is in place whatever becomes of the backup. -/
theorem commitActivation_meets {journal : DeploymentJournal} (hfiles : tx.files? = some files)
    (hdisk : Active tx files disk) :
    (commitActivation journal).Meets faults (fun _ _ ↦ True) (Stopped tx faults) disk := by
  have hwhole : ∀ {disk : Disk ε} {step : DeployStep} {stop},
      disk.destination = some (.snapshot files) ∧ disk.journal.isSome →
      step.isLeft tx.old.isSome = true → Fails tx faults step → Stopped tx faults stop disk :=
    fun hdisk hleft hstep ↦ stopped_of_snapshot hdisk.2 hfiles hdisk.1 hstep hleft
  have hpersist : (persistJournal { journal with phase := .activated }).Meets faults
      (fun _ disk' ↦ Active tx files disk' ∧ disk'.journal.isSome) (Stopped tx faults) disk :=
    persistJournal_meets (fun _ _ h ↦ ⟨h.destination, h.backup, rfl⟩) hdisk
      fun _ _ _ hstep h ↦ hwhole ⟨h.destination, h.logged⟩ rfl (.inl hstep)
  refine hpersist.bind fun _ disk ⟨⟨hdestination, hbackup, hlogged⟩, _⟩ ↦ ?_
  refine Faulty.Meets.bind (P := fun _ disk' ↦ disk' = disk)
    (pathEntryExists_meets rfl fun _ hstep ↦ hwhole ⟨hdestination, hlogged⟩ rfl (.inl hstep)) ?_
  rintro present _ rfl
  cases present with
  | false => exact Faulty.Meets.pure trivial
  | true =>
    refine Faulty.Meets.bind (P := fun _ disk' ↦ disk'.destination = some (.snapshot files) ∧
      disk'.journal.isSome) ?_ fun _ disk hdisk ↦ ?_
    · refine removeAny_meets (fun _ _ h ↦ h) ⟨hdestination, hlogged⟩
        (fun _ _ hstep h ↦ hwhole h rfl (.inl hstep)) fun _ _ hrefused h ↦ hwhole h rfl (.inr ⟨rfl, ?_⟩)
      rw [Transaction.Removable, ← hbackup]
      exact hrefused
    · exact check_meets trivial fun _ hstep ↦ hwhole hdisk rfl (.inl hstep)

/-- The move of the snapshot into the place of an old target that is aside, or of none. -/
theorem moveSnapshotIn_meets {journal : DeploymentJournal}
    (hreplaced : journal.replacedExisting = tx.old.isSome) (hfiles : tx.files? = some files)
    (hdisk : Rests none (some (.snapshot files)) tx.old disk) (hlogged : disk.journal.isSome) :
    (moveSnapshotIn tx.blobs journal).Meets faults (fun _ _ ↦ True) (Stopped tx faults) disk := by
  refine Faulty.Meets.bind (P := fun _ disk' ↦ Active tx files disk') (rename_meets ?_ ?_) ?_
  · exact ⟨hdisk.staging, hdisk.backup, hlogged⟩
  · intro stop hstep
    cases hold : tx.old with
    | none => exact stopped_of_old (hdisk.destination.trans hold.symm)
    | some old =>
      refine stopped_of_backup hlogged (by rw [hold]; rfl) hdisk.backup hstep ?_
      rw [hold]
      rfl
  intro _ disk hdisk
  refine Faulty.Meets.bind (P := fun _ disk' ↦ Active tx files disk')
    (check_meets hdisk fun _ hstep ↦
      stopped_of_snapshot hdisk.logged hfiles hdisk.destination (.inl hstep) rfl) ?_
  intro _ disk hdisk
  refine Faulty.Meets.bind (P := fun _ disk' ↦ Active tx files disk') (.attempt ?_) ?_
  · refine verify_meets (fun _ _ _ ↦ hdisk) fun stop ↦ ?_
    rcases stop with e | _
    · exact hdisk
    · exact .inl rfl
  intro result disk hdisk
  cases result with
  | error e => exact undoActivation_meets e hreplaced hfiles hdisk
  | ok _ => exact (commitActivation_meets hfiles hdisk).bind fun _ _ _ ↦ Faulty.Meets.pure trivial

theorem activate_meets {journal : DeploymentJournal}
    (hreplaced : journal.replacedExisting = tx.old.isSome) (hfiles : tx.files? = some files)
    (hdisk : Rests tx.old (some (.snapshot files)) none disk) (hlogged : disk.journal.isSome) :
    (activate tx.blobs journal).Meets faults (fun _ _ ↦ True) (Stopped tx faults) disk := by
  unfold activate
  rw [hreplaced]
  cases hold : tx.old with
  | none =>
    rw [hold] at hdisk
    exact moveSnapshotIn_meets hreplaced hfiles (hold ▸ hdisk) hlogged
  | some old =>
    have hsome : tx.old.isSome := by rw [hold]; rfl
    have haside : ∀ {disk : Disk ε} {step : DeployStep} {stop},
        Rests none (some (.snapshot files)) tx.old disk ∧ disk.journal.isSome →
        step.isLeft tx.old.isSome = true → (faults step).isSome → Stopped tx faults stop disk :=
      fun hdisk hleft hstep ↦ stopped_of_backup hdisk.2 hsome hdisk.1.backup hstep hleft
    refine Faulty.Meets.bind (P := fun _ disk' ↦
      Rests none (some (.snapshot files)) tx.old disk' ∧ disk'.journal.isSome) ?_ ?_
    · refine Faulty.Meets.bind (P := fun _ disk' ↦
        Rests none (some (.snapshot files)) tx.old disk' ∧ disk'.journal.isSome)
        (rename_meets ⟨⟨rfl, hdisk.staging, hdisk.destination⟩, hlogged⟩
          fun _ _ ↦ stopped_of_old hdisk.destination) fun _ disk hdisk ↦ ?_
      refine Faulty.Meets.bind (P := fun _ disk' ↦
        Rests none (some (.snapshot files)) tx.old disk' ∧ disk'.journal.isSome)
        (check_meets hdisk fun _ ↦ haside hdisk rfl) fun _ disk hdisk ↦ ?_
      have hpersist : (persistJournal { journal with phase := .oldMoved }).Meets faults
          (fun _ disk' ↦ (Rests none (some (.snapshot files)) tx.old disk' ∧ disk'.journal.isSome) ∧
            disk'.journal.isSome) (Stopped tx faults) disk :=
        persistJournal_meets (fun _ _ h ↦ ⟨⟨h.1.destination, h.1.staging, h.1.backup⟩, rfl⟩) hdisk
          fun _ _ _ hstep h ↦ haside h rfl hstep
      exact hpersist.mono (fun _ _ h ↦ h.1) fun _ _ h ↦ h
    · exact fun _ disk hdisk ↦ moveSnapshotIn_meets hreplaced hfiles hdisk.1 hdisk.2

/-- Whatever goes wrong with the steps of a deployment that ends with an error. -/
theorem deploy_meets (tx : Transaction ε) (faults : Schedule DeployStep (Point ε)) :
    (deploy tx.blobs tx.transactionId tx.request).Meets faults (fun _ _ ↦ True) (Stopped tx faults)
      tx.start := by
  have hold : ∀ {disk : Disk ε} {stop}, disk.destination = tx.old ∧ disk.backup = none →
      Stopped tx faults stop disk := fun h ↦ stopped_of_old h.1
  refine Faulty.Meets.bind (P := fun _ disk' ↦ disk' = tx.start)
    (check_meets rfl fun _ _ ↦ stopped_of_old rfl) ?_
  rintro _ _ rfl
  refine Faulty.Meets.bind (P := fun present disk' ↦ present = tx.old.isSome ∧ disk' = tx.start)
    (pathEntryExists_meets ⟨rfl, rfl⟩ fun _ _ ↦ stopped_of_old rfl) ?_
  rintro _ _ ⟨rfl, rfl⟩
  have hintent : (persistJournal (tx.journal .intent)).Meets faults
      (fun _ disk' ↦ (disk'.destination = tx.old ∧ disk'.backup = none) ∧ disk'.journal.isSome)
      (Stopped tx faults) tx.start :=
    persistJournal_meets (fun _ _ h ↦ h) ⟨rfl, rfl⟩ fun _ _ _ _ h ↦ hold h
  refine hintent.bind fun _ disk hdisk ↦ ?_
  refine Faulty.Meets.bind (P := fun result disk' ↦
    match result with
    | .ok _ => ∃ files, tx.files? = some files ∧
        Rests tx.old (some (.snapshot files)) none disk' ∧ disk'.journal.isSome
    | .error _ => disk'.destination = tx.old ∧ disk'.backup = none) (.attempt ?_) ?_
  · refine (prepareStaging_meets rfl hdisk.1).mono (fun _ _ h ↦ h) fun stop disk h ↦ ?_
    rcases stop with e | _
    · exact h
    · exact .inl rfl
  intro result disk hdisk
  cases result with
  | error e =>
    exact (abandonStaging_preserves e faults disk hdisk.1).mono (fun _ _ _ ↦ trivial)
      fun _ _ h ↦ stopped_of_old h
  | ok _ =>
    obtain ⟨files, hfiles, hrests, hlogged⟩ := hdisk
    exact activate_meets rfl hfiles hrests hlogged

/-- After an error the old target is in its place, unless a step has failed that is left to the
recovery. Then there is the journal, and the old target aside or the snapshot in place. -/
theorem deploy_error {e : DeploymentError} (h : deploy tx.blobs tx.transactionId tx.request faults
    tx.start = (.error (.failed e), disk)) :
    ((∀ step, step.isLeft tx.old.isSome = true → ¬ Fails tx faults step) →
        disk.destination = tx.old) ∧
      (disk.destination = tx.old ∨ LeftToRecovery tx disk) := by
  rcases (deploy_meets tx faults).of_error h with hcrash | hold | ⟨hrecovery, step, hstep, hleft⟩
  · cases hcrash
  · exact ⟨fun _ ↦ hold, .inl hold⟩
  · exact ⟨fun hnone ↦ absurd hstep (hnone step hleft), .inr hrecovery⟩

end Deploy

/-! ## Deployments without a failing step -/

section Agrees

variable {blobs : Blobs ε} {journal : DeploymentJournal} {disk : Disk ε}

omit [DecidableEq ε] in
theorem persistJournal_agrees :
    Faulty.Agrees disk (persistJournal journal) (Deployment.persistJournal journal) :=
  .skip _ _ (.andCheck (.perform _ _ rfl) _ _)

omit [DecidableEq ε] in
theorem removeJournal_agrees : Faulty.Agrees disk removeJournal Deployment.removeJournal :=
  .skip _ _ (.andCheck (.perform _ _ rfl) _ _)

theorem verify_agrees {snapshotHash : String} (step : DeployStep) (place : Place) :
    Faulty.Agrees disk (verifyMaterializedSnapshot step blobs snapshotHash place)
      (Deployment.verifyMaterializedSnapshot blobs snapshotHash place) := by
  refine .inspect _ _ ?_
  split
  · exact .pure ()
  · exact .fail _

theorem removeAny_agrees (step : DeployStep) (place : Place) :
    Faulty.Agrees disk (removeAny step place) (Deployment.removeAny place) := by
  refine .look (.bind (.perform _ _ rfl) fun _ _ _ ↦ ?_)
  split
  · exact .pure ()
  · exact .fail _

theorem materializeSnapshot_agrees (snapshotHash : String) :
    Faulty.Agrees disk (materializeSnapshot blobs snapshotHash)
      (Deployment.materializeSnapshot blobs snapshotHash) := by
  unfold materializeSnapshot Deployment.materializeSnapshot
  cases hfiles : blobs.manifest snapshotHash with
  | none => exact .fail _
  | some files =>
    dsimp only
    by_cases hall : files.length ≤ blobs.served snapshotHash
    · rw [if_pos hall, writeStaging, if_pos hall, List.take_of_length_le hall]
      rfl
    · have hrest : ∀ disk : Disk ε, Faulty.Agrees disk
          (do let _ ← (removeAny .discardPart .staging).attempt; Faulty.fail .snapshot : Deploy ε Unit)
          (do let _ ← (Deployment.removeAny .staging).attempt; Procedure.fail .snapshot) :=
        fun _ ↦ .bind (.attempt (removeAny_agrees ..)) fun _ _ _ ↦ .fail _
      rw [if_neg hall, writeStaging, if_neg hall]
      exact hrest _

theorem prepareStaging_agrees :
    Faulty.Agrees disk (prepareStaging blobs journal) (Deployment.prepareStaging blobs journal) :=
  .bind (materializeSnapshot_agrees _) fun _ _ _ ↦ .bind (verify_agrees ..) fun _ _ _ ↦
    .skip _ _ persistJournal_agrees

theorem removeIfPresent_agrees (read remove : DeployStep) (place : Place) :
    Faulty.Agrees disk (removeIfPresent read remove place) (Deployment.removeIfPresent place) := by
  refine .bind (p := pathEntryExists read place) (q := Deployment.pathEntryExists place) rfl
    fun present disk _ ↦ ?_
  cases present with
  | false => exact .pure ()
  | true => exact removeAny_agrees remove place

theorem removeActivated_agrees :
    Faulty.Agrees disk removeActivated (Deployment.removeIfPresent .destination) := by
  refine .bind (p := pathEntryExists .readActivated .destination)
    (q := Deployment.pathEntryExists .destination) rfl fun present disk _ ↦ ?_
  cases present with
  | false => exact .pure ()
  | true => exact .andCheck (removeAny_agrees ..) _ _

theorem rollbackActiveToBackup_agrees :
    Faulty.Agrees disk (rollbackActiveToBackup journal) (Deployment.rollbackActiveToBackup journal) := by
  refine .bind (removeIfPresent_agrees ..) fun _ disk _ ↦ ?_
  obtain ⟨destination, staging, backup, file⟩ := disk
  cases destination <;> cases backup <;> rfl

/-- What is left of the staging directory is the same whether its removal gets through or not. -/
theorem discardStaging_leaves :
    discardStaging (fun _ ↦ none) disk =
      (.ok (), ((Deployment.removeIfPresent .staging).exec disk).2) := by
  obtain ⟨destination, staging, backup, file⟩ := disk
  cases staging with
  | none => rfl
  | some node =>
    have hleft : ∀ (supported : Bool) (disk : Disk ε),
        (do
          let _ ← (if supported then pure () else Faulty.fail .unsupportedFileType : Deploy ε Unit).attempt
          let _ ← (check .syncRemovedStaging).attempt
          pure () : Deploy ε Unit) (fun _ ↦ none) disk =
        (.ok (), ((if supported then pure () else Procedure.fail .unsupportedFileType :
          Deployment.Deploy ε Unit).exec disk).2) := by
      intro supported disk
      cases supported <;> rfl
    exact hleft _ _

omit [DecidableEq ε] in
theorem close_agrees (e : DeploymentError) :
    Faulty.Agrees disk (do let _ ← removeJournal.attempt; Faulty.fail e : Deploy ε DeploymentResult)
      (do let _ ← Deployment.removeJournal.attempt; Procedure.fail e) :=
  .bind (.attempt removeJournal_agrees) fun _ _ _ ↦ .fail e

theorem abandonStaging_agrees (e : DeploymentError) :
    Faulty.Agrees disk (abandonStaging e) (Deployment.abandonStaging e) :=
  .drop discardStaging_leaves (close_agrees e)

theorem undoActivation_agrees (e : DeploymentError) :
    Faulty.Agrees disk (undoActivation journal e) (Deployment.undoActivation journal e) := by
  refine .lookRight ?_
  unfold undoActivation
  cases hreplaced : journal.replacedExisting with
  | false =>
    rw [if_neg (by simp)]
    exact .bind removeActivated_agrees fun _ _ _ ↦ close_agrees e
  | true =>
    refine Faulty.Agrees.skip _ _ ?_
    by_cases hbackup : disk.backup.isSome = true
    · rw [if_pos (show (disk.get .backup).isSome = true from hbackup), if_pos ⟨rfl, hbackup⟩]
      exact .bind rollbackActiveToBackup_agrees fun _ _ _ ↦ close_agrees e
    · rw [if_neg (show ¬ (disk.get .backup).isSome = true from hbackup), if_neg fun h ↦ hbackup h.2]
      exact .bind removeActivated_agrees fun _ _ _ ↦ close_agrees e

theorem commitActivation_agrees :
    Faulty.Agrees disk (commitActivation journal) (Deployment.commitActivation journal) := by
  refine .bind persistJournal_agrees fun _ disk _ ↦ ?_
  refine .bind (p := pathEntryExists .readOldBackup .backup)
    (q := Deployment.pathEntryExists .backup) rfl fun present disk _ ↦ ?_
  cases present with
  | false => exact .pure ()
  | true => exact .andCheck (removeAny_agrees ..) _ _

theorem activate_agrees :
    Faulty.Agrees disk (activate blobs journal) (Deployment.activate blobs journal) := by
  have hin : ∀ disk, Faulty.Agrees disk (moveSnapshotIn blobs journal)
      (Deployment.moveSnapshotIn blobs journal) := by
    intro disk
    refine .bind (.perform _ _ rfl) fun _ disk _ ↦ .skip _ _ ?_
    refine .bind (.attempt (verify_agrees ..)) fun result disk _ ↦ ?_
    cases result with
    | error e => exact undoActivation_agrees e
    | ok _ => exact .bind commitActivation_agrees fun _ _ _ ↦ .pure _
  unfold activate Deployment.activate
  cases journal.replacedExisting with
  | false => exact hin disk
  | true =>
    refine .bind (.bind (.perform _ _ rfl) fun _ _ _ ↦ .skip _ _ persistJournal_agrees) ?_
    exact fun _ disk _ ↦ hin disk

/-- Without a failing step the deployment is the one of the engine. -/
theorem deploy_agrees (transactionId : String) (request : DeploymentRequest) :
    Faulty.Agrees disk (deploy blobs transactionId request)
      (Deployment.deploy blobs transactionId request) := by
  refine .skip _ _ (.inspect _ _ (.bind persistJournal_agrees fun _ disk _ ↦ ?_))
  refine .bind (.attempt prepareStaging_agrees) fun result disk _ ↦ ?_
  cases result with
  | error e => exact abandonStaging_agrees e
  | ok _ => exact activate_agrees

end Agrees

/-! ## A failing move -/

/-- The staged tree cannot be moved in. -/
def blockedMove : Schedule DeployStep (Point ℕ) := fun step ↦
  if step = .moveSnapshotIn then some (.failure .untouched) else none

/-- The disk of an update whose snapshot cannot be moved in. -/
def parted : Disk ℕ where
  destination := none
  staging := some (.snapshot [1, 2])
  backup := some (.snapshot [3])
  journal := some ⟨[.intent, .prepared, .oldMoved].map fun phase ↦
    .record ((sample (some (.snapshot [3]))).journal phase), none⟩

theorem deploy_blockedMove :
    let tx := sample (some (.snapshot [3]))
    deploy tx.blobs tx.transactionId tx.request blockedMove tx.start =
      (.error (.failed .io), parted) := by
  decide +kernel

/-- The error comes with nothing in the place of the old target. -/
theorem deploy_blockedMove_missing :
    let tx := sample (some (.snapshot [3]))
    ∃ e disk, deploy tx.blobs tx.transactionId tx.request blockedMove tx.start =
      (.error (.failed e), disk) ∧ disk.destination ≠ tx.old :=
  ⟨_, _, deploy_blockedMove, by decide⟩

theorem deploy_error_blockedMove :
    let tx := sample (some (.snapshot [3]))
    ((∀ step : DeployStep, step.isLeft tx.old.isSome = true → ¬ Fails tx blockedMove step) →
      parted.destination = tx.old) ∧
      (parted.destination = tx.old ∨ LeftToRecovery tx parted) :=
  deploy_error deploy_blockedMove

end Failing

end Deployment

end SkillHive
