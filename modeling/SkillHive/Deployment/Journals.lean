import SkillHive.Deployment.Crashes
import SkillHive.Deployment.UninstallRuns

/-!
# What a journal says of its target

From its second record on, a deployment changes its target only while its journal has a record of
it. A recovery keeps that record or closes the journal, and it closes it only when it rolls the
deployment back. This is so whatever the recovery finds at the places of the transaction, which
others may have changed since.
-/

namespace SkillHive

open Foundation

namespace Deployment

variable {ε : Type} {target : String} {file : LogFile DeploymentJournal}
  {journal : DeploymentJournal}

/-- The file begins with a record of the target, and has records of no other. -/
def Opened (target : String) (file : LogFile DeploymentJournal) : Prop :=
  ∃ first : DeploymentJournal, first.targetPath = target ∧
    file.Since [first] fun record ↦ record.targetPath = target

/-- The file has at most its first record, which may be unfinished. -/
def Begun (target : String) (file : LogFile DeploymentJournal) : Prop :=
  file.Since [] fun record ↦ record.targetPath = target ∧ record.phase = .intent

/-- There is a journal that says which target it is about. -/
def Logged (target : String) (disk : Disk ε) : Prop :=
  ∃ file, disk.journal = some file ∧ Opened target file

/-- If there is a journal, it is about this target. -/
def Recorded (target : String) (disk : Disk ε) : Prop :=
  ∀ file, disk.journal = some file → Begun target file ∨ Opened target file

theorem Opened.append (h : Opened target file) (htarget : journal.targetPath = target) :
    Opened target (file.append journal) := by
  obtain ⟨first, hfirst, hsince⟩ := h
  exact ⟨first, hfirst, hsince.append htarget⟩

theorem Opened.appendCut (h : Opened target file) (htarget : journal.targetPath = target)
    (point : AppendPoint) : Opened target (file.appendCut journal point) := by
  obtain ⟨first, hfirst, hsince⟩ := h
  exact ⟨first, hfirst, hsince.appendCut htarget point⟩

theorem Opened.since (h : Opened target file) :
    file.Since [] fun record ↦ record.targetPath = target := by
  obtain ⟨first, hfirst, hsince⟩ := h
  exact hsince.weaken (fun record hrecord ↦ List.mem_singleton.mp hrecord ▸ hfirst) fun _ h ↦ h

theorem Logged.recorded {disk : Disk ε} (h : Logged target disk) : Recorded target disk := by
  obtain ⟨file, hfile, hopened⟩ := h
  intro file' hfile'
  rw [hfile, Option.some.injEq] at hfile'
  exact .inr (hfile' ▸ hopened)

theorem recorded_of_none {disk : Disk ε} (h : disk.journal = none) : Recorded target disk := by
  intro file hfile
  rw [h] at hfile
  cases hfile

/-- What is read of a journal that is about a target is about that target, and is the first
record unless a record is finished. -/
theorem Recorded.read {disk : Disk ε} (h : Recorded target disk) (hjournal : disk.journal = some file)
    (hread : readLatestJournal file = .ok journal) :
    journal.targetPath = target ∧
      ((Begun target file ∧ journal.phase = .intent) ∨ Opened target file) := by
  have hlatest := readLatestJournal_eq_ok.mp hread
  rcases h file hjournal with hbegun | hopened
  · rcases LogFile.Since.latest hbegun hlatest with hfirst | ⟨htarget, hphase⟩
    · cases hfirst
    · exact ⟨htarget, .inl ⟨hbegun, hphase⟩⟩
  · rcases hopened.since.latest hlatest with hfirst | htarget
    · cases hfirst
    · exact ⟨htarget, .inr hopened⟩

/-! ## Steps that keep the record -/

section Steps

theorem preserves_of_journal {op : Operation (Disk ε) (Point ε)}
    (hcut : ∀ point disk disk', op.cut point disk = some disk' → disk'.journal = disk.journal)
    (hrun : ∀ disk, (op.run disk).journal = disk.journal) :
    (Procedure.perform op : Deploy ε Unit).Preserves (Logged target) := by
  refine .perform (fun point disk disk' h hstep ↦ ?_) fun disk h ↦ ?_
  · unfold Logged
    rw [hcut point disk disk' hstep]
    exact h
  · unfold Logged
    rw [hrun disk]
    exact h

theorem set_journal (disk : Disk ε) (node : Option (Node ε)) (place : Place) :
    (disk.set node place).journal = disk.journal := by
  cases place <;> rfl

theorem rename_preserves (source place : Place) :
    (rename source place : Deploy ε Unit).Preserves (Logged target) := by
  refine preserves_of_journal (fun _ _ _ h ↦ ?_) fun disk ↦ ?_
  · rw [atomic_cut h]
  · exact (set_journal _ _ _).trans (set_journal _ _ _)

theorem writeStaging_preserves (files : List ε) :
    (writeStaging files : Deploy ε Unit).Preserves (Logged target) := by
  refine preserves_of_journal (fun point disk disk' h ↦ ?_) fun _ ↦ rfl
  obtain ⟨staging, -, rfl⟩ := Option.map_eq_some_iff.mp h
  rfl

theorem persistJournal_preserves (htarget : journal.targetPath = target) :
    (persistJournal journal : Deploy ε Unit).Preserves (Logged target) := by
  rintro disk ⟨file, hfile, hopened⟩
  have hgetD : disk.journal.getD .empty = file := by rw [hfile, Option.getD_some]
  have hdone : Logged target
      { disk with journal := some ((disk.journal.getD .empty).append journal) } :=
    ⟨_, rfl, hgetD ▸ hopened.append htarget⟩
  refine (persistJournal_ends disk journal ⟨file, hfile, hopened⟩ (fun point ↦ ?_) hdone).meets hdone
  exact ⟨_, rfl, hgetD ▸ hopened.appendCut htarget point⟩

theorem restoreBackup_preserves (journal : DeploymentJournal) :
    (restoreBackup journal : Deploy ε Unit).Preserves (Logged target) := by
  refine .bind .look fun disk ↦ ?_
  split
  · exact .fail _
  · split
    · exact .fail _
    · exact rename_preserves _ _

variable [DecidableEq ε]

theorem removeAny_logged (place : Place) :
    (removeAny place : Deploy ε Unit).Preserves (Logged target) := by
  refine removeAny_preserves fun disk node h ↦ ?_
  unfold Logged
  rw [set_journal]
  exact h

theorem removeIfPresent_preserves (place : Place) :
    (removeIfPresent place : Deploy ε Unit).Preserves (Logged target) := by
  refine .bind (.bind .look fun _ ↦ .pure _) fun present ↦ ?_
  split
  · exact removeAny_logged place
  · exact .pure _

theorem verify_preserves (blobs : Blobs ε) (snapshotHash : String) (place : Place) :
    (verifyMaterializedSnapshot blobs snapshotHash place).Preserves (Logged target) := by
  refine .bind .look fun disk ↦ ?_
  split
  · exact .pure _
  · exact .fail _

theorem rollbackActiveToBackup_preserves (journal : DeploymentJournal) :
    (rollbackActiveToBackup journal : Deploy ε Unit).Preserves (Logged target) :=
  .bind (removeIfPresent_preserves _) fun _ ↦ restoreBackup_preserves journal

theorem commitActivation_preserves (htarget : journal.targetPath = target) :
    (commitActivation journal : Deploy ε Unit).Preserves (Logged target) :=
  .bind (persistJournal_preserves htarget) fun _ ↦ removeIfPresent_preserves _

theorem prepareStaging_preserves (blobs : Blobs ε) (htarget : journal.targetPath = target) :
    (prepareStaging blobs journal).Preserves (Logged target) := by
  refine .bind ?_ fun _ ↦ .bind (verify_preserves _ _ _) fun _ ↦ persistJournal_preserves htarget
  unfold materializeSnapshot
  split
  · exact .fail _
  · split
    · exact writeStaging_preserves _
    · refine .bind (writeStaging_preserves _) fun _ ↦ ?_
      exact .bind (removeAny_logged _).attempt fun _ ↦ .fail _

/-! ## Deployments -/

/-- The journal goes at the end, or the record stays. -/
def LoggedOrClosed (target : String) (disk : Disk ε) : Prop :=
  Logged target disk ∨ disk.journal = none

omit [DecidableEq ε] in
theorem LoggedOrClosed.recorded {disk : Disk ε} (h : LoggedOrClosed target disk) :
    Recorded target disk := h.elim Logged.recorded recorded_of_none

omit [DecidableEq ε] in
theorem removeJournal_closes {C : Disk ε → Prop} (hC : ∀ disk, LoggedOrClosed target disk → C disk)
    {disk : Disk ε} (h : Logged target disk) :
    removeJournal.Ends C disk (.ok ()) { disk with journal := none } :=
  removeJournal_ends disk (hC _ (.inl h)) (hC _ (.inr rfl))

theorem undoActivation_meets (e : DeploymentError) {disk : Disk ε} (h : Logged target disk) :
    (undoActivation journal e).Meets (fun _ ↦ LoggedOrClosed target) (LoggedOrClosed target)
      disk := by
  have hclose : ∀ disk : Disk ε, Logged target disk →
      (removeJournal.attempt >>= fun _ ↦ Procedure.fail e : Deploy ε DeploymentResult).Meets
        (fun _ ↦ LoggedOrClosed target) (LoggedOrClosed target) disk := by
    intro disk h
    exact (removeJournal_closes (fun _ h ↦ h) h).attempt.bind ⟨.inr rfl, .inr rfl⟩
  refine Procedure.Meets.look ?_
  dsimp only
  split
  · exact (rollbackActiveToBackup_preserves journal).bind_meets h (fun _ ↦ .inl) (fun _ ↦ hclose)
      fun _ _ ↦ .inl
  · exact (removeIfPresent_preserves _).bind_meets h (fun _ ↦ .inl) (fun _ ↦ hclose) fun _ _ ↦ .inl

theorem activate_meets (blobs : Blobs ε) (htarget : journal.targetPath = target) {disk : Disk ε}
    (h : Logged target disk) :
    (activate blobs journal).Meets (fun _ ↦ LoggedOrClosed target) (LoggedOrClosed target)
      disk := by
  have haside : (moveOldAside journal : Deploy ε Unit).Preserves (Logged target) :=
    .bind (rename_preserves _ _) fun _ ↦ persistJournal_preserves htarget
  have hin : ∀ disk : Disk ε, Logged target disk → (moveSnapshotIn blobs journal).Meets
      (fun _ ↦ LoggedOrClosed target) (LoggedOrClosed target) disk := by
    intro disk h
    refine (rename_preserves _ _).bind_meets h (fun _ ↦ .inl) (fun _ disk h ↦ ?_) fun _ _ ↦ .inl
    refine (verify_preserves _ _ _).attempt.bind_meets h (fun _ ↦ .inl) ?_ fun _ _ ↦ .inl
    intro result disk h
    cases result with
    | error e => exact undoActivation_meets e h
    | ok =>
      refine (commitActivation_preserves htarget).bind_meets h (fun _ ↦ .inl) ?_ fun _ _ ↦ .inl
      exact fun _ _ h ↦ ⟨.inl h, .inl h⟩
  unfold activate
  split
  · exact haside.bind_meets h (fun _ ↦ .inl) (fun _ ↦ hin) fun _ _ ↦ .inl
  · exact hin disk h

/-- Wherever a deployment is cut off, its journal is about its target. -/
theorem deploy_recorded (tx : Transaction ε) :
    tx.deploy.Meets (fun _ ↦ Recorded tx.request.targetPath) (Recorded tx.request.targetPath)
      tx.start := by
  have hempty : LogFile.empty.Since [] fun record : DeploymentJournal ↦
      record.targetPath = tx.request.targetPath ∧ record.phase = .intent := ⟨⟨[], rfl, nofun⟩, nofun⟩
  have hlogged : Logged tx.request.targetPath ⟨tx.old, none, none, some tx.opened⟩ :=
    ⟨_, rfl, tx.journal .intent, rfl, ⟨[], rfl, nofun⟩, nofun⟩
  have hintent : (persistJournal (tx.journal .intent)).Ends (Recorded tx.request.targetPath) tx.start
      (.ok ()) ⟨tx.old, none, none, some tx.opened⟩ := by
    refine persistJournal_ends tx.start (tx.journal .intent) (recorded_of_none rfl) (fun point ↦ ?_)
      hlogged.recorded
    rintro file ⟨⟩
    exact .inl (hempty.appendCut ⟨rfl, rfl⟩ point)
  refine hintent.bind ?_
  have htarget : (tx.journal .intent).targetPath = tx.request.targetPath := rfl
  refine (prepareStaging_preserves tx.blobs htarget).attempt.bind_meets hlogged
    (fun _ ↦ Logged.recorded) ?_ fun _ _ ↦ Logged.recorded
  intro result disk h
  cases result with
  | error e =>
    refine (removeIfPresent_preserves _).attempt.bind_meets h (fun _ ↦ Logged.recorded) ?_
      fun _ _ ↦ Logged.recorded
    intro _ disk h
    refine (removeJournal_closes (fun _ ↦ LoggedOrClosed.recorded) h).attempt.bind ?_
    exact ⟨recorded_of_none rfl, recorded_of_none rfl⟩
  | ok =>
    refine Steps.Meets.mono (activate_meets tx.blobs rfl h) ?_ fun _ ↦ LoggedOrClosed.recorded
    exact fun _ _ ↦ LoggedOrClosed.recorded

/-! ## Recoveries -/

/-- The record stays, or the deployment is rolled back. -/
def Handled (target : String) (result : Except DeploymentError RecoveryOutcome) (disk : Disk ε) :
    Prop := Logged target disk ∨ (disk.journal = none ∧ result = .ok .rolledBack)

section Recovery

variable {blobs : Blobs ε} {disk : Disk ε}

omit [DecidableEq ε] in
theorem handled_of_preserves {recovery : Deploy ε RecoveryOutcome}
    (h : recovery.Preserves (Logged target)) (hdisk : Logged target disk) :
    recovery.Meets (Handled target) (LoggedOrClosed target) disk :=
  Steps.Meets.mono (h disk hdisk) (fun _ _ ↦ .inl) fun _ ↦ .inl

omit [DecidableEq ε] in
/-- The last two steps of every rollback. -/
theorem rollback_meets {undo : Deploy ε Unit} (hundo : undo.Preserves (Logged target))
    (hdisk : Logged target disk) :
    (undo >>= fun _ ↦ removeJournal >>= fun _ ↦ pure .rolledBack).Meets (Handled target)
      (LoggedOrClosed target) disk := by
  refine hundo.bind_meets hdisk (fun _ ↦ .inl) (fun _ disk h ↦ ?_) fun _ _ ↦ .inl
  exact (removeJournal_closes (fun _ h ↦ h) h).bind ⟨.inr ⟨rfl, rfl⟩, .inr rfl⟩

theorem discardStaging_handled (hdisk : Logged target disk) :
    discardStaging.Meets (Handled target) (LoggedOrClosed target) disk :=
  rollback_meets (removeIfPresent_preserves _) hdisk

omit [DecidableEq ε] in
theorem takeBackupBack_handled (hdisk : Logged target disk) :
    (takeBackupBack journal).Meets (Handled target) (LoggedOrClosed target) disk :=
  rollback_meets (restoreBackup_preserves journal) hdisk

theorem activateVerifiedStaging_handled (htarget : journal.targetPath = target)
    (hdisk : Logged target disk) :
    (activateVerifiedStaging blobs journal).Meets (Handled target) (LoggedOrClosed target) disk := by
  refine (verify_preserves _ _ _).attempt.bind_meets hdisk (fun _ ↦ .inl) ?_ fun _ _ ↦ .inl
  intro result disk h
  cases result with
  | error e =>
    refine Procedure.Meets.look ?_
    split
    · refine (removeIfPresent_preserves _).bind_meets h (fun _ ↦ .inl) (fun _ disk h ↦ ?_) fun _ _ ↦ .inl
      exact rollback_meets (restoreBackup_preserves journal) h
    · exact handled_of_preserves (.fail e) h
  | ok =>
    refine handled_of_preserves ?_ h
    refine .bind (rename_preserves _ _) fun _ ↦ .bind (verify_preserves _ _ _) fun _ ↦ ?_
    exact .bind (commitActivation_preserves htarget) fun _ ↦ .pure _

theorem verifyActiveOrRestoreBackup_handled (htarget : journal.targetPath = target)
    (hdisk : Logged target disk) :
    (verifyActiveOrRestoreBackup blobs journal).Meets (Handled target) (LoggedOrClosed target)
      disk := by
  refine (verify_preserves _ _ _).attempt.bind_meets hdisk (fun _ ↦ .inl) ?_ fun _ _ ↦ .inl
  intro result disk h
  cases result with
  | error e =>
    refine Procedure.Meets.look ?_
    split
    · exact rollback_meets (rollbackActiveToBackup_preserves journal) h
    · exact handled_of_preserves (.fail e) h
  | ok =>
    refine handled_of_preserves ?_ h
    refine .bind (removeIfPresent_preserves _) fun _ ↦ ?_
    exact .bind (commitActivation_preserves htarget) fun _ ↦ .pure _

theorem verifyActiveWithoutBackup_handled (htarget : journal.targetPath = target)
    (hdisk : Logged target disk) :
    (verifyActiveWithoutBackup blobs journal).Meets (Handled target) (LoggedOrClosed target)
      disk := by
  refine (verify_preserves _ _ _).attempt.bind_meets hdisk (fun _ ↦ .inl) ?_ fun _ _ ↦ .inl
  intro result disk h
  cases result with
  | error e => exact rollback_meets (removeIfPresent_preserves _) h
  | ok => exact handled_of_preserves (.bind (persistJournal_preserves htarget) fun _ ↦ .pure _) h

theorem recoverPhase_handled (htarget : journal.targetPath = target) (hdisk : Logged target disk)
    (destination staging backup : Bool) :
    (recoverPhase blobs journal destination staging backup).Meets (Handled target)
      (LoggedOrClosed target) disk := by
  have hfail : ∀ e, (Procedure.fail e : Deploy ε RecoveryOutcome).Meets (Handled target)
      (LoggedOrClosed target) disk := fun e ↦ handled_of_preserves (.fail e) hdisk
  have hdiscard := discardStaging_handled hdisk
  have hback : (takeBackupBack journal).Meets (Handled target) (LoggedOrClosed target) disk :=
    takeBackupBack_handled hdisk
  have hactivate : (activateVerifiedStaging blobs journal).Meets (Handled target)
      (LoggedOrClosed target) disk := activateVerifiedStaging_handled htarget hdisk
  have hactive : (verifyActiveOrRestoreBackup blobs journal).Meets (Handled target)
      (LoggedOrClosed target) disk := verifyActiveOrRestoreBackup_handled htarget hdisk
  have hfresh : (verifyActiveWithoutBackup blobs journal).Meets (Handled target)
      (LoggedOrClosed target) disk := verifyActiveWithoutBackup_handled htarget hdisk
  unfold recoverPhase recoverReplacement recoverInstall recoverOldMoved
  cases journal.phase <;> cases destination <;> cases staging <;> cases backup <;>
    cases journal.replacedExisting <;> simp only [Bool.false_eq_true, if_true, if_false] <;>
    first
      | exact hfail _
      | exact hdiscard
      | exact hback
      | exact hactivate
      | exact hactive
      | exact hfresh

/-- The journal and the target are as they were. -/
def Untouched (disk disk' : Disk ε) : Prop :=
  disk'.journal = disk.journal ∧ disk'.destination = disk.destination

/-- Of a deployment that has only begun there is at most a staging directory to discard. -/
theorem recoverPhase_begun (hphase : journal.phase = .intent) (destination staging backup : Bool) :
    (recoverPhase blobs journal destination staging backup).Meets
      (fun result disk' ↦ (disk'.journal = none ∧ result = .ok .rolledBack) ∨
        (Untouched disk disk' ∧ ∀ r, result ≠ .ok (.committed r)))
      (fun disk' ↦ disk'.journal = none ∨ Untouched disk disk') disk := by
  unfold recoverPhase
  rw [hphase]
  dsimp only
  split
  · exact ⟨.inr ⟨⟨rfl, rfl⟩, nofun⟩, .inr ⟨rfl, rfl⟩⟩
  · refine removeIfPresent_meets disk .staging (.inr ⟨rfl, rfl⟩) (fun left ↦ .inr ⟨rfl, rfl⟩)
      (.inr ⟨rfl, rfl⟩) (fun left e ↦ .inr ⟨⟨rfl, rfl⟩, nofun⟩) ?_
    refine (removeJournal_ends _ (.inr ⟨rfl, rfl⟩) (.inl rfl)).bind ?_
    exact ⟨.inl ⟨rfl, rfl⟩, .inl rfl⟩

/-- A recovery keeps a record of the target, closes the journal and rolls back, or touches
neither the journal nor the target. -/
theorem recoverOne_meets (hjournal : disk.journal = some file)
    (hread : readLatestJournal file = .ok journal) (hrecorded : Recorded target disk) :
    (recoverOne blobs file).Meets
      (fun result disk' ↦ Handled target result disk' ∨
        (Untouched disk disk' ∧ ∀ r, result ≠ .ok (.committed r)))
      (fun disk' ↦ LoggedOrClosed target disk' ∨ Untouched disk disk') disk := by
  refine recoverOne_of_read hread ?_
  obtain ⟨htarget, ⟨-, hphase⟩ | hopened⟩ := hrecorded.read hjournal hread
  · refine Steps.Meets.mono (recoverPhase_begun hphase _ _ _) ?_ ?_
    · exact fun result disk' h ↦ h.imp .inr id
    · exact fun disk' h ↦ h.imp .inr id
  · refine Steps.Meets.mono (recoverPhase_handled htarget ⟨file, hjournal, hopened⟩ _ _ _) ?_ ?_
    · exact fun result disk' ↦ .inl
    · exact fun disk' ↦ .inl

end Recovery

end Steps

end Deployment

/-! ## Uninstalls -/

namespace Uninstall

open Deployment

variable {ε : Type}

/-- If there is a journal, it is about this target. -/
def Recorded (target : String) (machine : Machine ε) : Prop :=
  ∀ file, machine.journal = some file →
    file.Since [] fun record ↦ record.targetPath = target

/-- What an uninstall may leave: its journal is about the target, and the target is gone or as it
was, with its row. -/
theorem Uninstallation.Shape.leaves {un : Uninstallation ε} {machine : Machine ε}
    (h : un.Shape machine) :
    Recorded un.request.targetPath machine ∧
      (machine.target = none ∨ (machine.target = un.target ∧ machine.installed = true)) := by
  have hnone : machine.journal = none → Recorded un.request.targetPath machine := by
    intro hjournal file hfile
    rw [hjournal] at hfile
    cases hfile
  have hsome : ∀ file, machine.journal = some file →
      (file.Since [] fun record ↦ record.targetPath = un.request.targetPath) →
        Recorded un.request.targetPath machine := by
    intro file hjournal hsince file' hfile'
    rw [hjournal, Option.some.injEq] at hfile'
    exact hfile' ▸ hsince
  have hmoved : ∀ file : LogFile UninstallJournal,
      (file.Since [un.journal .intent] fun record ↦ record = un.journal .moved) →
        file.Since [] fun record ↦ record.targetPath = un.request.targetPath := by
    refine fun file hfile ↦ hfile.weaken ?_ ?_
    · exact fun record hrecord ↦ List.mem_singleton.mp hrecord ▸ rfl
    · rintro _ rfl
      rfl
  cases h with
  | idle hjournal _ hrow =>
    exact ⟨hnone hjournal, hrow.elim (fun h ↦ .inr ⟨h.2, h.1⟩) fun h ↦ .inl h.2⟩
  | waiting file hjournal hfile _ htarget _ hinstalled =>
    refine ⟨hsome file hjournal (hfile.mono ?_), .inr ⟨htarget, hinstalled⟩⟩
    rintro _ ⟨phase, rfl⟩
    rfl
  | quarantined file hjournal hfile _ htarget =>
    exact ⟨hsome file hjournal (hmoved file hfile), .inl htarget⟩
  | removed hjournal htarget =>
    exact ⟨hsome _ hjournal (hmoved _ (movedFile_since un)), .inl htarget⟩

/-- What a reconciliation may do: the row stays, the journal stays or goes, and the target changes
only where there was none. -/
structure Reconciling (machine machine' : Machine ε) : Prop where
  installed : machine'.installed = machine.installed
  journal : machine'.journal = machine.journal ∨ machine'.journal = none
  target : machine'.target = machine.target ∨ machine.target = none

variable [DecidableEq ε] {machine : Machine ε} {file : LogFile UninstallJournal}

omit [DecidableEq ε] in
theorem Reconciling.refl (machine : Machine ε) : Reconciling machine machine :=
  ⟨rfl, .inl rfl, .inl rfl⟩

omit [DecidableEq ε] in
theorem readJournal_preserves (I : Machine ε → Prop) :
    (readJournal : Engine ε UninstallJournal).Preserves I := by
  refine .bind .look fun machine ↦ ?_
  split
  · exact .fail _
  · exact .lift _

omit [DecidableEq ε] in
theorem removeJournal_preserves :
    (removeJournal : Engine ε Unit).Preserves (Reconciling machine) :=
  fun machine' h ↦ (removeJournal_ends machine' h ⟨h.installed, .inr rfl, h.target⟩).meets
    ⟨h.installed, .inr rfl, h.target⟩

omit [DecidableEq ε] in
theorem rollback_preserves (transactionId : String) :
    (rollback transactionId : Engine ε Unit).Preserves (Reconciling machine) := by
  refine fun _ h ↦ (readJournal_preserves _).bind_meets h (fun _ h ↦ h) ?_ fun _ _ h ↦ h
  refine fun _ machine' h ↦ Procedure.Meets.look ?_
  split
  next htarget hquarantine =>
    have hfree : machine.target = none := by
      rw [Option.isSome_eq_false_iff, Option.isNone_iff_eq_none] at htarget
      exact h.target.elim (fun hsame ↦ hsame ▸ htarget) id
    have hback : Reconciling machine
        { machine' with target := machine'.quarantine, quarantine := none } :=
      ⟨h.installed, h.journal, .inr hfree⟩
    exact (moveBack_ends machine' h hback).bind (removeJournal_preserves _ hback)
  next => exact removeJournal_preserves _ h
  next => exact Procedure.Preserves.fail _ _ h
  next => exact Procedure.Preserves.fail _ _ h

theorem finalize_preserves (transactionId : String) :
    (finalize transactionId : Engine ε Unit).Preserves (Reconciling machine) := by
  refine .bind (readJournal_preserves _) fun journal ↦ .bind .look fun _ ↦ ?_
  split
  · exact .fail _
  · split
    · exact .fail _
    · split
      · exact .fail _
      · split
        · refine .bind (removeQuarantine_preserves _ fun machine' quarantine h ↦ ?_)
            fun _ ↦ removeJournal_preserves
          exact ⟨h.installed, h.journal, h.target⟩
        · exact removeJournal_preserves

omit [DecidableEq ε] in
theorem recoverPending_preserves :
    (recoverPending : Engine ε UninstallRecoveryReport).Preserves (Reconciling machine) := by
  refine .bind .look fun machine' ↦ ?_
  split
  · exact .pure _
  · refine .bind (.attempt ?_) fun _ ↦ .pure _
    refine .bind (.lift _) fun journal ↦ .bind .look fun machine' ↦ ?_
    unfold classify
    split
    · exact .bind removeJournal_preserves fun _ ↦ .pure _
    · exact .pure _
    · exact .pure _
    · exact .fail _

theorem reconcilePending_preserves (report : UninstallStartupReport) (pending : UninstallResult) :
    (reconcilePending report pending : Engine ε UninstallStartupReport).Preserves
      (Reconciling machine) := by
  unfold reconcilePending
  split
  · exact .pure _
  · refine .bind .look fun machine' ↦ ?_
    split
    · refine .bind (rollback_preserves _).attempt fun result ↦ ?_
      cases result <;> exact .pure _
    · refine .bind (finalize_preserves _).attempt fun result ↦ ?_
      cases result <;> exact .pure _

/-- A reconciliation keeps the row, and puts something in the target only where nothing is. -/
theorem reconcile_meets (machine : Machine ε) :
    reconcileUninstallRecovery.Meets (fun _ ↦ Reconciling machine) (Reconciling machine) machine := by
  have hall : (reconcileUninstallRecovery : Engine ε UninstallStartupReport).Preserves
      (Reconciling machine) := by
    refine .bind recoverPending_preserves fun discovered ↦ ?_
    generalize ({ discovered := _, rolledBack := _, finalized := _, cleanedIntents := _, failed := _ } :
      UninstallStartupReport) = report
    induction discovered.pending generalizing report with
    | nil => exact .pure _
    | cons pending rest ih => exact .bind (reconcilePending_preserves report pending) ih
  exact hall machine (.refl machine)

end Uninstall

end SkillHive
