import SkillHive.Deployment.Desktop
import SkillHive.Deployment.Milestones

/-!
# What a recovery decides

A recovery closes its journal only when it rolls back, and then the target is empty, as it was, or
what was aside. Which of these it is can be told from the journal and the places before. So can
whether the recovery changes a target that is there.
-/

namespace SkillHive

open Foundation

namespace Deployment

variable {ε : Type} [DecidableEq ε] {blobs : Blobs ε} {journal : DeploymentJournal}
  {disk disk' : Disk ε} {target : String} {file : LogFile DeploymentJournal}

/-! ## Decisions -/

/-- At most a staging directory is dropped. -/
def Discards (journal : DeploymentJournal) (disk : Disk ε) : Prop :=
  disk.backup = none ∧ (journal.phase = .intent ∨
    (journal.phase = .prepared ∧ disk.staging.isSome ∧
      disk.destination.isSome = journal.replacedExisting))

instance (journal : DeploymentJournal) (disk : Disk ε) : Decidable (Discards journal disk) :=
  inferInstanceAs (Decidable (_ ∧ _))

/-- The phases in which the old target may be aside. -/
def DeploymentJournal.MovesAside (journal : DeploymentJournal) : Prop :=
  (journal.phase = .prepared ∧ journal.replacedExisting = true) ∨ journal.phase = .oldMoved ∨
    journal.phase = .activated

instance (journal : DeploymentJournal) : Decidable journal.MovesAside :=
  inferInstanceAs (Decidable (_ ∨ _))

/-- What is aside takes the place of whatever the target has. -/
def Restores (blobs : Blobs ε) (journal : DeploymentJournal) (disk : Disk ε) : Prop :=
  disk.backup.isSome ∧ journal.MovesAside ∧
    if disk.destination.isSome then
      disk.staging = none ∧ blobs.verifies journal.snapshotHash disk.destination = false
    else journal.phase = .activated ∨ blobs.verifies journal.snapshotHash disk.staging = false

instance (blobs : Blobs ε) (journal : DeploymentJournal) (disk : Disk ε) :
    Decidable (Restores blobs journal disk) := inferInstanceAs (Decidable (_ ∧ _))

/-- The target goes, and nothing takes its place. -/
def Removes (blobs : Blobs ε) (journal : DeploymentJournal) (disk : Disk ε) : Prop :=
  (journal.phase = .prepared ∧ journal.replacedExisting = false) ∧ disk.destination.isSome ∧
    disk.staging = none ∧ disk.backup = none ∧
    blobs.verifies journal.snapshotHash disk.destination = false

instance (blobs : Blobs ε) (journal : DeploymentJournal) (disk : Disk ε) :
    Decidable (Removes blobs journal disk) := inferInstanceAs (Decidable (_ ∧ _))

/-- The recovery changes a target that is there. -/
def Undoes (blobs : Blobs ε) (journal : DeploymentJournal) (disk : Disk ε) : Prop :=
  disk.destination.isSome ∧ (Restores blobs journal disk ∨ Removes blobs journal disk)

instance (blobs : Blobs ε) (journal : DeploymentJournal) (disk : Disk ε) :
    Decidable (Undoes blobs journal disk) := inferInstanceAs (Decidable (_ ∧ _))

/-- What a recovery may leave of the disk, at its end or where it is cut off. -/
structure Recovering (blobs : Blobs ε) (journal : DeploymentJournal) (disk disk' : Disk ε) : Prop where
  target : disk'.destination = disk.destination ∨ disk.destination = none ∨
    Undoes blobs journal disk
  closed : disk'.journal = none → disk'.destination = none ∨
    (Discards journal disk ∧ disk'.destination = disk.destination) ∨
      (Restores blobs journal disk ∧ disk'.destination = disk.backup)

/-- While the journal is there, only the target matters. -/
theorem Recovering.of_open (hopen : disk'.journal.isSome)
    (htarget : disk'.destination = disk.destination ∨ disk.destination = none ∨
      Undoes blobs journal disk) : Recovering blobs journal disk disk' := by
  refine ⟨htarget, fun hclosed ↦ ?_⟩
  rw [hclosed] at hopen
  cases hopen

omit [DecidableEq ε] in
theorem Logged.isSome (h : Logged target disk) : disk.journal.isSome := by
  obtain ⟨file, hfile, -⟩ := h
  rw [hfile]
  rfl

theorem Recovering.of_logged (hlogged : Logged target disk')
    (htarget : disk'.destination = disk.destination ∨ disk.destination = none ∨
      Undoes blobs journal disk) : Recovering blobs journal disk disk' :=
  .of_open hlogged.isSome htarget

/-! ## The rules -/

section Rules

theorem discardStaging_recovering (hopen : disk.journal.isSome) (h : Discards journal disk) :
    discardStaging.Meets (fun _ ↦ Recovering blobs journal disk) (Recovering blobs journal disk)
      disk := by
  have hstaging : ∀ staging, Recovering blobs journal disk { disk with staging } :=
    fun staging ↦ .of_open hopen (.inl rfl)
  have hclosed : Recovering blobs journal disk { disk with staging := none, journal := none } :=
    ⟨.inl rfl, fun _ ↦ .inr (.inl ⟨h, rfl⟩)⟩
  refine removeIfPresent_meets disk .staging (hstaging _) (fun left ↦ hstaging _) (hstaging _)
    (fun left _ ↦ hstaging _) ?_
  exact (removeJournal_ends _ (hstaging _) hclosed).bind ⟨hclosed, hclosed⟩

omit [DecidableEq ε] in
theorem restoreBackup_ends {C : Disk ε → Prop} (hfree : disk.destination = none)
    (hbackup : disk.backup.isSome) (hhere : C disk)
    (hmoved : C { disk with destination := disk.backup, backup := none }) :
    (restoreBackup journal).Ends C disk (.ok ())
      { disk with destination := disk.backup, backup := none } := by
  have hsome : ¬ disk.backup = none := Option.isSome_iff_ne_none.mp hbackup
  refine Procedure.Meets.look ?_
  rw [if_neg (by rw [hfree]; exact Bool.false_ne_true), if_neg hsome]
  exact rename_ends disk .backup .destination hhere hmoved

/-- The backup goes back to a target that is empty by now, and the journal goes. -/
theorem restore_recovering (hlogged : Logged target disk') (hfree : disk'.destination = none)
    (hbackup : disk'.backup = disk.backup) (hchanges : disk.destination = none ∨ Undoes blobs journal disk)
    (h : Restores blobs journal disk) :
    (takeBackupBack journal).Meets (fun _ ↦ Recovering blobs journal disk)
      (Recovering blobs journal disk) disk' := by
  have hmoved : Recovering blobs journal disk { disk' with destination := disk'.backup, backup := none } :=
    .of_logged hlogged (.inr hchanges)
  have hclosed : Recovering blobs journal disk
      { disk' with destination := disk'.backup, backup := none, journal := none } :=
    ⟨.inr hchanges, fun _ ↦ .inr (.inr ⟨h, hbackup⟩)⟩
  have hhere : Recovering blobs journal disk disk' := .of_logged hlogged (.inr hchanges)
  refine (restoreBackup_ends hfree (hbackup ▸ h.1) hhere hmoved).bind ?_
  exact (removeJournal_ends _ hmoved hclosed).bind ⟨hclosed, hclosed⟩

theorem verify_ends_ok {snapshotHash : String} {C : Disk ε → Prop} {place : Place}
    (h : blobs.verifies snapshotHash (disk.get place) = true) (hhere : C disk) :
    (verifyMaterializedSnapshot blobs snapshotHash place).Ends C disk (.ok ()) disk := by
  unfold Blobs.verifies at h
  refine Procedure.Meets.look ?_
  rw [if_pos h]
  exact Procedure.Ends.pure hhere

theorem verify_ends_error {snapshotHash : String} {C : Disk ε → Prop} {place : Place}
    (h : blobs.verifies snapshotHash (disk.get place) = false) (hhere : C disk) :
    (verifyMaterializedSnapshot blobs snapshotHash place).Ends C disk (.error .verification) disk := by
  unfold Blobs.verifies at h
  refine Procedure.Meets.look ?_
  rw [if_neg (Bool.eq_false_iff.mp h)]
  exact Procedure.Ends.fail hhere

/-- What keeps the record and may only change an empty target. -/
theorem recovering_of_preserves {procedure : Deploy ε RecoveryOutcome}
    (hpreserves : procedure.Preserves (Logged target)) (hlogged : Logged target disk)
    (hfree : disk.destination = none) :
    procedure.Meets (fun _ ↦ Recovering blobs journal disk) (Recovering blobs journal disk) disk :=
  Steps.Meets.mono (hpreserves disk hlogged) (fun _ _ h ↦ .of_logged h (.inr (.inl hfree)))
    fun _ h ↦ .of_logged h (.inr (.inl hfree))

/-- What keeps the record and the target. -/
theorem recovering_of_keeps {procedure : Deploy ε RecoveryOutcome}
    (hpreserves : procedure.Preserves fun disk' ↦
      Logged target disk' ∧ disk'.destination = disk.destination) (hlogged : Logged target disk) :
    procedure.Meets (fun _ ↦ Recovering blobs journal disk) (Recovering blobs journal disk) disk :=
  Steps.Meets.mono (hpreserves disk ⟨hlogged, rfl⟩) (fun _ _ h ↦ .of_logged h.1 (.inl h.2))
    fun _ h ↦ .of_logged h.1 (.inl h.2)

omit [DecidableEq ε] in
theorem persistActivated_recovering (htarget : journal.targetPath = target) :
    (persistJournal { journal with phase := .activated } : Deploy ε Unit).Preserves fun disk' ↦
      Logged target disk' ∧ disk'.destination = disk.destination :=
  have hactivated : DeploymentJournal.targetPath { journal with phase := .activated } = target := htarget
  (persistJournal_preserves hactivated).and (persistJournal_keeps _ _)

theorem fail_recovering (e : DeploymentError) (hopen : disk.journal.isSome) :
    (Procedure.fail e : Deploy ε RecoveryOutcome).Meets (fun _ ↦ Recovering blobs journal disk)
      (Recovering blobs journal disk) disk :=
  ⟨.of_open hopen (.inl rfl), .of_open hopen (.inl rfl)⟩

theorem activateVerifiedStaging_recovering (hlogged : Logged target disk)
    (htarget : journal.targetPath = target) (hfree : disk.destination = none)
    (hbackup : disk.backup.isSome) (hphase : journal.MovesAside) :
    (activateVerifiedStaging blobs journal).Meets (fun _ ↦ Recovering blobs journal disk)
      (Recovering blobs journal disk) disk := by
  have hhere : Recovering blobs journal disk disk := .of_logged hlogged (.inl rfl)
  cases hverified : blobs.verifies journal.snapshotHash disk.staging with
  | true =>
    refine (verify_ends_ok hverified hhere).attempt.bind ?_
    refine recovering_of_preserves ?_ hlogged hfree
    refine .bind (rename_preserves _ _) fun _ ↦ .bind (verify_preserves _ _ _) fun _ ↦ ?_
    exact .bind (commitActivation_preserves htarget) fun _ ↦ .pure _
  | false =>
    have hrestores : Restores blobs journal disk := by
      refine ⟨hbackup, hphase, ?_⟩
      rw [if_neg (by rw [hfree]; exact Bool.false_ne_true)]
      exact .inr hverified
    have hopen : ∀ staging, Recovering blobs journal disk { disk with staging } :=
      fun staging ↦ .of_logged hlogged (.inl rfl)
    refine (verify_ends_error hverified hhere).attempt.bind (Procedure.Meets.look ?_)
    rw [if_pos hbackup]
    refine removeIfPresent_meets disk .staging hhere (fun left ↦ hopen _) (hopen _) (fun left _ ↦ hopen _) ?_
    exact restore_recovering hlogged hfree rfl (.inl hfree) hrestores

theorem verifyActiveOrRestoreBackup_recovering (hlogged : Logged target disk)
    (htarget : journal.targetPath = target) (hthere : disk.destination.isSome)
    (hstaging : disk.staging = none) (hphase : journal.MovesAside) :
    (verifyActiveOrRestoreBackup blobs journal).Meets (fun _ ↦ Recovering blobs journal disk)
      (Recovering blobs journal disk) disk := by
  have hhere : Recovering blobs journal disk disk := .of_logged hlogged (.inl rfl)
  cases hverified : blobs.verifies journal.snapshotHash disk.destination with
  | true =>
    refine (verify_ends_ok hverified hhere).attempt.bind (recovering_of_keeps ?_ hlogged)
    have hremove : ∀ {place : Place}, place ≠ .destination →
        (removeIfPresent place : Deploy ε Unit).Preserves fun disk' ↦
          Logged target disk' ∧ disk'.destination = disk.destination :=
      fun hplace ↦ (removeIfPresent_preserves _).and (removeIfPresent_keeps hplace _)
    refine .bind (hremove (by decide)) fun _ ↦ ?_
    exact .bind (.bind (persistActivated_recovering htarget) fun _ ↦ hremove (by decide)) fun _ ↦ .pure _
  | false =>
    refine (verify_ends_error hverified hhere).attempt.bind (Procedure.Meets.look ?_)
    by_cases hbackup : disk.backup.isSome = true
    · rw [if_pos hbackup]
      have hrestores : Restores blobs journal disk := by
        refine ⟨hbackup, hphase, ?_⟩
        rw [if_pos hthere]
        exact ⟨hstaging, hverified⟩
      have hundoes : Undoes blobs journal disk := ⟨hthere, .inl hrestores⟩
      have hopen : ∀ destination backup, Recovering blobs journal disk { disk with destination, backup } :=
        fun destination backup ↦ .of_logged hlogged (.inr (.inr hundoes))
      have hcleared : ({ disk with destination := none } : Disk ε).backup.isSome := hbackup
      have hclosed : Recovering blobs journal disk
          { disk with destination := disk.backup, backup := none, journal := none } :=
        ⟨.inr (.inr hundoes), fun _ ↦ .inr (.inr ⟨hrestores, rfl⟩)⟩
      have hrolled : (rollbackActiveToBackup journal : Deploy ε Unit).Meets
          (fun result disk' ↦ Recovering blobs journal disk disk' ∧
            (result = .ok () → disk' = { disk with destination := disk.backup, backup := none }))
          (Recovering blobs journal disk) disk := by
        refine removeIfPresent_meets disk .destination hhere (fun left ↦ hopen _ _) (hopen _ _)
          (fun left _ ↦ ⟨hopen _ _, nofun⟩) ?_
        exact (restoreBackup_ends rfl hcleared (hopen none disk.backup) (hopen disk.backup none)).meets
          ⟨hopen _ _, fun _ ↦ rfl⟩
      refine Procedure.Meets.bind hrolled ?_ fun _ _ h ↦ h.1
      rintro _ disk' ⟨-, hdone⟩ -
      rw [hdone rfl]
      exact (removeJournal_ends _ (hopen _ _) hclosed).bind ⟨hclosed, hclosed⟩
    · rw [if_neg hbackup]
      exact fail_recovering _ hlogged.isSome

theorem verifyActiveWithoutBackup_recovering (hlogged : Logged target disk)
    (htarget : journal.targetPath = target) (hthere : disk.destination.isSome)
    (hstaging : disk.staging = none) (hbackup : disk.backup = none)
    (hphase : journal.phase = .prepared ∧ journal.replacedExisting = false) :
    (verifyActiveWithoutBackup blobs journal).Meets (fun _ ↦ Recovering blobs journal disk)
      (Recovering blobs journal disk) disk := by
  have hhere : Recovering blobs journal disk disk := .of_logged hlogged (.inl rfl)
  cases hverified : blobs.verifies journal.snapshotHash disk.destination with
  | true =>
    refine (verify_ends_ok hverified hhere).attempt.bind (recovering_of_keeps ?_ hlogged)
    exact .bind (persistActivated_recovering htarget) fun _ ↦ .pure _
  | false =>
    have hundoes : Undoes blobs journal disk := ⟨hthere, .inr ⟨hphase, hthere, hstaging, hbackup, hverified⟩⟩
    have hopen : ∀ destination, Recovering blobs journal disk { disk with destination } :=
      fun destination ↦ .of_logged hlogged (.inr (.inr hundoes))
    have hclosed : Recovering blobs journal disk { disk with destination := none, journal := none } :=
      ⟨.inr (.inr hundoes), fun _ ↦ .inl rfl⟩
    refine (verify_ends_error hverified hhere).attempt.bind ?_
    refine removeIfPresent_meets disk .destination hhere (fun left ↦ hopen _) (hopen _)
      (fun left _ ↦ hopen _) ?_
    exact (removeJournal_ends _ (hopen _) hclosed).bind ⟨hclosed, hclosed⟩

theorem takeBackupBack_recovering (hlogged : Logged target disk) (hfree : disk.destination = none)
    (hbackup : disk.backup.isSome) (hphase : journal.MovesAside)
    (h : journal.phase = .activated ∨ disk.staging = none) :
    (takeBackupBack journal).Meets (fun _ ↦ Recovering blobs journal disk)
      (Recovering blobs journal disk) disk := by
  refine restore_recovering hlogged hfree rfl (.inl hfree) ⟨hbackup, hphase, ?_⟩
  rw [if_neg (by rw [hfree]; exact Bool.false_ne_true)]
  refine h.imp id fun hstaging ↦ ?_
  rw [hstaging]
  rfl

theorem recoverIntent_recovering (hopen : disk.journal.isSome) (hphase : journal.phase = .intent) :
    (recoverPhase blobs journal disk.destination.isSome disk.staging.isSome disk.backup.isSome).Meets
      (fun _ ↦ Recovering blobs journal disk) (Recovering blobs journal disk) disk := by
  unfold recoverPhase
  rw [hphase]
  dsimp only
  split
  case isTrue => exact fail_recovering _ hopen
  case isFalse hbackup =>
    exact discardStaging_recovering hopen ⟨Option.not_isSome_iff_eq_none.mp hbackup, .inl hphase⟩

/-- Every rule leaves what the decisions say. -/
theorem recoverPhase_recovering (hlogged : Logged target disk) (htarget : journal.targetPath = target) :
    (recoverPhase blobs journal disk.destination.isSome disk.staging.isSome disk.backup.isSome).Meets
      (fun _ ↦ Recovering blobs journal disk) (Recovering blobs journal disk) disk := by
  have hfail : ∀ e, (Procedure.fail e : Deploy ε RecoveryOutcome).Meets
      (fun _ ↦ Recovering blobs journal disk) (Recovering blobs journal disk) disk :=
    fun e ↦ fail_recovering e hlogged.isSome
  have hnone : ∀ {node : Option (Node ε)}, node.isSome = false → node = none :=
    fun h ↦ Option.not_isSome_iff_eq_none.mp (Bool.eq_false_iff.mp h)
  by_cases hintent : journal.phase = .intent
  · exact recoverIntent_recovering hlogged.isSome hintent
  unfold recoverPhase
  cases hphase : journal.phase with
  | intent => exact absurd hphase hintent
  | prepared =>
    dsimp only
    cases hreplaced : journal.replacedExisting with
    | true =>
      rw [if_pos rfl]
      have haside : journal.MovesAside := .inl ⟨hphase, hreplaced⟩
      cases hthere : disk.destination.isSome <;> cases hstaging : disk.staging.isSome <;>
        cases hbackup : disk.backup.isSome
      · exact hfail _
      · exact takeBackupBack_recovering hlogged (hnone hthere) hbackup haside (.inr (hnone hstaging))
      · exact hfail _
      · exact activateVerifiedStaging_recovering hlogged htarget (hnone hthere) hbackup haside
      · exact hfail _
      · exact verifyActiveOrRestoreBackup_recovering hlogged htarget hthere (hnone hstaging) haside
      · exact discardStaging_recovering hlogged.isSome
          ⟨hnone hbackup, .inr ⟨hphase, hstaging, hthere.trans hreplaced.symm⟩⟩
      · exact hfail _
    | false =>
      rw [if_neg Bool.false_ne_true]
      cases hthere : disk.destination.isSome <;> cases hstaging : disk.staging.isSome <;>
        cases hbackup : disk.backup.isSome
      · exact hfail _
      · exact hfail _
      · exact discardStaging_recovering hlogged.isSome
          ⟨hnone hbackup, .inr ⟨hphase, hstaging, hthere.trans hreplaced.symm⟩⟩
      · exact hfail _
      · exact verifyActiveWithoutBackup_recovering hlogged htarget hthere (hnone hstaging)
          (hnone hbackup) ⟨hphase, hreplaced⟩
      · exact hfail _
      · exact hfail _
      · exact hfail _
  | oldMoved =>
    have haside : journal.MovesAside := .inr (.inl hphase)
    cases hthere : disk.destination.isSome <;> cases hstaging : disk.staging.isSome <;>
      cases hbackup : disk.backup.isSome
    · exact hfail _
    · exact takeBackupBack_recovering hlogged (hnone hthere) hbackup haside (.inr (hnone hstaging))
    · exact hfail _
    · exact activateVerifiedStaging_recovering hlogged htarget (hnone hthere) hbackup haside
    · exact hfail _
    · exact verifyActiveOrRestoreBackup_recovering hlogged htarget hthere (hnone hstaging) haside
    · exact hfail _
    · exact hfail _
  | activated =>
    have haside : journal.MovesAside := .inr (.inr hphase)
    cases hthere : disk.destination.isSome with
    | true =>
      cases hstaging : disk.staging.isSome with
      | true => exact hfail _
      | false =>
        exact verifyActiveOrRestoreBackup_recovering hlogged htarget hthere (hnone hstaging) haside
    | false =>
      cases hbackup : disk.backup.isSome with
      | true => exact takeBackupBack_recovering hlogged (hnone hthere) hbackup haside (.inl hphase)
      | false => exact hfail _

/-- A recovery leaves what the decisions say. -/
theorem recoverOne_recovering (hjournal : disk.journal = some file)
    (hread : readLatestJournal file = .ok journal) (hrecorded : Recorded target disk) :
    (recoverOne blobs file).Meets (fun _ ↦ Recovering blobs journal disk)
      (Recovering blobs journal disk) disk := by
  refine recoverOne_of_read hread ?_
  obtain ⟨htarget, ⟨-, hphase⟩ | hopened⟩ := hrecorded.read hjournal hread
  · exact recoverIntent_recovering (by rw [hjournal]; rfl) hphase
  · exact recoverPhase_recovering ⟨file, hjournal, hopened⟩ htarget

end Rules

end Deployment

/-! ## Reconciliations of an uninstall -/

namespace Uninstall

open Deployment

variable {ε : Type} {machine machine' : Machine ε} {file : LogFile UninstallJournal}
  {journal : UninstallJournal}

/-- Only the journal goes. -/
def Cleans (journal : UninstallJournal) (machine : Machine ε) : Prop :=
  machine.target.isSome ∧ machine.quarantine = none ∧ journal.phase = .intent

instance (journal : UninstallJournal) (machine : Machine ε) : Decidable (Cleans journal machine) :=
  inferInstanceAs (Decidable (_ ∧ _))

/-- What is in quarantine goes back. -/
def MovesBack (machine : Machine ε) : Prop :=
  machine.target = none ∧ machine.quarantine.isSome ∧ machine.installed = true

instance (machine : Machine ε) : Decidable (MovesBack machine) :=
  inferInstanceAs (Decidable (_ ∧ _))

/-- What a reconciliation that has closed the journal leaves at the target. -/
def Closing (journal : UninstallJournal) (machine machine' : Machine ε) : Prop :=
  machine'.journal = none → machine'.target = none ∨
    (Cleans journal machine ∧ machine'.target = machine.target) ∨
      (MovesBack machine ∧ machine'.target = machine.quarantine)

theorem closing_of_open (h : machine'.journal = some file) : Closing journal machine machine' := by
  intro hclosed
  rw [h] at hclosed
  cases hclosed

variable [DecidableEq ε]

omit [DecidableEq ε] in
/-- The row is there: the quarantine goes back if there is one. -/
theorem rollback_closing (hjournal : machine.journal = some file)
    (hread : readLatestJournal file = .ok journal) (hfree : machine.target = none)
    (hinstalled : machine.installed = true) (transactionId : String) :
    (rollback transactionId).Meets (fun _ ↦ Closing journal machine) (Closing journal machine)
      machine := by
  have hopen : Closing journal machine machine := closing_of_open hjournal
  refine (readJournal_ends machine hopen hjournal hread).bind (Procedure.Meets.look ?_)
  rw [hfree]
  cases hquarantine : machine.quarantine.isSome with
  | true =>
    have hback : MovesBack machine := ⟨hfree, hquarantine, hinstalled⟩
    have hmoved : Closing journal machine
        { machine with target := machine.quarantine, quarantine := none } := closing_of_open hjournal
    have hclosed : Closing journal machine
        { machine with target := machine.quarantine, quarantine := none, journal := none } :=
      fun _ ↦ .inr (.inr ⟨hback, rfl⟩)
    refine (moveBack_ends machine hopen hmoved).bind ?_
    exact (removeJournal_ends _ hmoved hclosed).meets hclosed
  | false => exact ⟨hopen, hopen⟩

/-- The row is gone: the quarantine goes too. -/
theorem finalize_closing (hjournal : machine.journal = some file)
    (hread : readLatestJournal file = .ok journal) (hfree : machine.target = none) :
    (finalize journal.transactionId).Meets (fun _ ↦ Closing journal machine)
      (Closing journal machine) machine := by
  have hopen : ∀ quarantine, Closing journal machine { machine with quarantine } :=
    fun quarantine ↦ closing_of_open hjournal
  have hclosed : ∀ quarantine, Closing journal machine { machine with quarantine, journal := none } :=
    fun quarantine _ ↦ .inl hfree
  refine (readJournal_ends machine (hopen _) hjournal hread).bind (Procedure.Meets.look ?_)
  rw [if_neg (not_not_intro rfl), hfree, if_neg (fun h ↦ Bool.false_ne_true h.1),
    if_neg (show ¬ (none : Option (Node ε)).isSome = true from Bool.false_ne_true)]
  split
  · by_cases hrefuses : machine.Refuses
    · obtain ⟨left, e, -, hends⟩ := removeQuarantine_refused machine journal.quarantinedPath hrefuses
        fun left ↦ hopen (some left)
      exact (Procedure.Ends.bind_error hends).meets (hopen (some left))
    · refine (removeQuarantine_ends machine journal.quarantinedPath hrefuses (fun left ↦ hopen _)
        (hopen none)).bind ?_
      exact (removeJournal_ends _ (hopen none) (hclosed none)).meets (hclosed none)
  · exact (removeJournal_ends machine (hopen _) (hclosed _)).meets (hclosed _)

/-- The target is gone: the catalog decides. -/
theorem reconcile_gone (hjournal : machine.journal = some file)
    (hread : readLatestJournal file = .ok journal) (hfree : machine.target = none)
    (hpending : machine.quarantine.isSome ∨ journal.phase = .moved) :
    reconcileUninstallRecovery.Meets (fun _ ↦ Closing journal machine) (Closing journal machine)
      machine := by
  have hopen : Closing journal machine machine := closing_of_open hjournal
  have hfound : (recoverJournal file).Ends (Closing journal machine) machine
      (.ok (some journal.result)) machine := by
    refine recoverJournal_ends hread ?_
    rw [hfree]
    cases hquarantine : machine.quarantine.isSome with
    | true => exact .pure hopen
    | false =>
      rw [hpending.resolve_left (by rw [hquarantine]; exact Bool.false_ne_true)]
      exact .pure hopen
  refine reconcile_pending (recoverPending_ends machine hjournal hfound hopen)
    (Procedure.Meets.look ?_)
  split
  case isTrue hinstalled =>
    refine Procedure.Meets.bind (Q := fun _ ↦ Closing journal machine)
      (.attempt (rollback_closing hjournal hread hfree hinstalled _)) ?_ fun _ _ h ↦ h
    rintro (_ | _) _ h - <;> exact ⟨h, h⟩
  case isFalse =>
    refine Procedure.Meets.bind (Q := fun _ ↦ Closing journal machine)
      (.attempt (finalize_closing hjournal hread hfree)) ?_ fun _ _ h ↦ h
    rintro (_ | _) _ h - <;> exact ⟨h, h⟩

/-- A reconciliation that closes the journal leaves what the decisions say. -/
theorem reconcile_closing (hjournal : machine.journal = some file)
    (hread : readLatestJournal file = .ok journal) :
    reconcileUninstallRecovery.Meets (fun _ ↦ Closing journal machine) (Closing journal machine)
      machine := by
  have hopen : Closing journal machine machine := closing_of_open hjournal
  have hnone : ∀ {node : Option (Node ε)}, node.isSome = false → node = none :=
    fun h ↦ Option.not_isSome_iff_eq_none.mp (Bool.eq_false_iff.mp h)
  have hreported : ∀ e, (classify journal machine.target.isSome machine.quarantine.isSome
      journal.phase).Ends (Closing journal machine) machine (.error e) machine →
        reconcileUninstallRecovery.Meets (fun _ ↦ Closing journal machine)
          (Closing journal machine) machine := fun e h ↦
    (reconcile_ends (recoverPending_ends machine hjournal (recoverJournal_ends hread h) hopen)
      hopen).meets hopen
  cases hthere : machine.target.isSome with
  | false =>
    cases hquarantine : machine.quarantine.isSome with
    | true => exact reconcile_gone hjournal hread (hnone hthere) (.inl hquarantine)
    | false =>
      cases hphase : journal.phase with
      | moved => exact reconcile_gone hjournal hread (hnone hthere) (.inr hphase)
      | intent =>
        refine hreported (.ambiguousFilesystemState journal.transactionId) ?_
        rw [hthere, hquarantine, hphase]
        exact .fail hopen
  | true =>
    by_cases hcleans : machine.quarantine.isSome = false ∧ journal.phase = .intent
    · have hclosed : Closing journal machine { machine with journal := none } :=
        fun _ ↦ .inr (.inl ⟨⟨hthere, hnone hcleans.1, hcleans.2⟩, rfl⟩)
      have hfound : (recoverJournal file).Ends (Closing journal machine) machine (.ok none)
          { machine with journal := none } := by
        refine recoverJournal_ends hread ?_
        rw [hthere, hcleans.1, hcleans.2]
        exact (removeJournal_ends machine hopen hclosed).bind (Procedure.Ends.pure hclosed)
      exact (reconcile_ends (recoverPending_ends machine hjournal hfound hclosed) hclosed).meets hclosed
    · refine hreported (.ambiguousFilesystemState journal.transactionId) ?_
      rw [hthere]
      cases hquarantine : machine.quarantine.isSome with
      | true => exact .fail hopen
      | false =>
        cases hphase : journal.phase with
        | moved => exact .fail hopen
        | intent => exact absurd ⟨hquarantine, hphase⟩ hcleans

end Uninstall

end SkillHive
