import SkillHive.Deployment.Recovery

/-!
# Crashes of a deployment and of its recoveries

A run starts with a crash inside a deployment, or after it, and goes on with crashes inside one
recovery after the other. In every state of such a run the old target or the whole snapshot is
there. The next recovery that is left to end settles the transaction and reports no failure, if
and only if the last crash has left a journal that can be read and places that it has a rule for,
and what is aside can be removed.
-/

namespace SkillHive

open Foundation

namespace Deployment

variable {ε : Type} [DecidableEq ε]

namespace Transaction

variable (tx : Transaction ε)

def start : Disk ε := ⟨tx.old, none, none, none⟩

def deploy : Deploy ε DeploymentResult := Deployment.deploy tx.blobs tx.transactionId tx.request

/-- The journal after its first record. -/
def opened : LogFile DeploymentJournal := LogFile.empty.append (tx.journal .intent)

def preparedFile : LogFile DeploymentJournal := tx.opened.append (tx.journal .prepared)

def activatedFile : LogFile DeploymentJournal :=
  (if tx.old.isSome then tx.preparedFile.append (tx.journal .oldMoved) else tx.preparedFile).append
    (tx.journal .activated)

/-- The blob store has every file of the snapshot. -/
def Served : Prop :=
  ∃ files, tx.files? = some files ∧ files.length ≤ tx.blobs.served tx.request.snapshotHash

instance : Decidable tx.Served :=
  decidable_of_iff
    ((tx.files?.any fun files ↦ files.length ≤ tx.blobs.served tx.request.snapshotHash) = true) (by
      simp [Served, Option.any_eq_true])

/-- A removal of the old target gets through. -/
def Removable : Prop := ∀ node ∈ tx.old, node.isRemovable = true

instance : Decidable tx.Removable := inferInstanceAs (Decidable (∀ node ∈ tx.old, _))

end Transaction

section Deploy

variable {tx : Transaction ε} {files : List ε}

/-! ## The steps of a deployment -/

omit [DecidableEq ε] in
theorem writeStaging_ends {C : Disk ε → Prop} (disk : Disk ε) (files : List ε)
    (hC : ∀ staging : Option (Node ε), (∀ node ∈ staging, node.isRemovable = true) →
      C { disk with staging }) :
    (writeStaging files).Ends C disk (.ok ()) { disk with staging := some (.snapshot files) } := by
  refine Procedure.Ends.perform (fun point disk' h ↦ ?_) (hC _ ?_)
  · obtain ⟨staging, hwriting, rfl⟩ := Option.map_eq_some_iff.mp h
    exact hC staging (writing_isRemovable hwriting)
  · rintro _ ⟨⟩
    exact Node.snapshot_isRemovable files

omit [DecidableEq ε] in
theorem opened_since : tx.opened.Since [] (tx.Wrote [.intent, .prepared]) :=
  LogFile.Since.append ⟨⟨[], rfl, nofun⟩, nofun⟩ ⟨.intent, by simp, rfl⟩

omit [DecidableEq ε] in
theorem preparedFile_since (tx : Transaction ε) (allowed : DeploymentJournal → Prop) :
    tx.preparedFile.Since [tx.journal .intent, tx.journal .prepared] allowed :=
  ⟨⟨[], rfl, nofun⟩, nofun⟩

omit [DecidableEq ε] in
theorem movedFile_since (tx : Transaction ε) :
    (tx.preparedFile.append (tx.journal .oldMoved)).Since [tx.journal .intent, tx.journal .prepared]
      (tx.Wrote [.oldMoved, .activated]) :=
  (preparedFile_since tx _).append ⟨.oldMoved, by simp, rfl⟩

omit [DecidableEq ε] in
/-- The snapshot is beside the old target, and the journal says so. -/
theorem shape_prepared (tx : Transaction ε) (files : List ε) :
    tx.Shape ⟨tx.old, some (.snapshot files), none, some tx.preparedFile⟩ := by
  refine .waiting _ rfl (opened_since.append ⟨.prepared, by simp, rfl⟩) rfl ?_ rfl
  rintro _ ⟨⟩
  exact Node.snapshot_isRemovable files

omit [DecidableEq ε] in
/-- The old target is where it was, and the journal says that the transaction has begun. -/
theorem shape_opened (staging : Option (Node ε)) (hstaging : ∀ node ∈ staging, node.isRemovable = true) :
    tx.Shape ⟨tx.old, staging, none, some tx.opened⟩ := .waiting _ rfl opened_since rfl hstaging rfl

omit [DecidableEq ε] in
theorem persistIntent_ends :
    (persistJournal (tx.journal .intent)).Ends tx.Shape tx.start (.ok ())
      ⟨tx.old, none, none, some tx.opened⟩ := by
  have hempty : LogFile.empty.Since [] (tx.Wrote [.intent, .prepared]) := ⟨⟨[], rfl, nofun⟩, nofun⟩
  refine persistJournal_ends tx.start (tx.journal .intent) ?_ (fun point ↦ ?_) (shape_opened none nofun)
  · exact .idle rfl rfl rfl rfl
  · exact .waiting _ rfl (hempty.appendCut ⟨.intent, by simp, rfl⟩ point) rfl nofun rfl

/-- The snapshot is written and verified. -/
theorem prepareStaging_ends (hfiles : tx.files? = some files)
    (hserved : files.length ≤ tx.blobs.served tx.request.snapshotHash) :
    (prepareStaging tx.blobs (tx.journal .intent)).Ends tx.Shape
      ⟨tx.old, none, none, some tx.opened⟩ (.ok ())
      ⟨tx.old, some (.snapshot files), none, some tx.preparedFile⟩ := by
  have hmanifest : tx.blobs.manifest (tx.journal .intent).snapshotHash = some files := hfiles
  have hall : files.length ≤ tx.blobs.served (tx.journal .intent).snapshotHash := hserved
  unfold prepareStaging materializeSnapshot
  rw [hmanifest]
  dsimp only
  rw [if_pos hall]
  have hwritten : ∀ node ∈ some (Node.snapshot files), node.isRemovable = true := by
    rintro _ ⟨⟩
    exact Node.snapshot_isRemovable files
  refine (writeStaging_ends _ files shape_opened).bind ?_
  refine (verify_ends _ .staging (shape_opened _ hwritten) hmanifest rfl).bind ?_
  have hwrote : tx.Wrote [.intent, .prepared] (tx.journal .prepared) := ⟨.prepared, by simp, rfl⟩
  refine persistJournal_ends _ (tx.journal .prepared) (shape_opened _ hwritten) (fun point ↦ ?_) ?_
  · exact .waiting _ rfl (opened_since.appendCut hwrote point) rfl hwritten rfl
  · exact .waiting _ rfl (opened_since.append hwrote) rfl hwritten rfl

/-- A file is missing, and the staging directory is gone again. -/
theorem prepareStaging_error (hunserved : ¬ tx.Served) :
    (prepareStaging tx.blobs (tx.journal .intent)).Ends tx.Shape
      ⟨tx.old, none, none, some tx.opened⟩ (.error .snapshot)
      ⟨tx.old, none, none, some tx.opened⟩ := by
  unfold prepareStaging materializeSnapshot
  cases hmanifest : tx.blobs.manifest (tx.journal .intent).snapshotHash with
  | none => exact .bind_error (.fail (shape_opened none nofun))
  | some files =>
    have hmissing : ¬ files.length ≤ tx.blobs.served (tx.journal .intent).snapshotHash :=
      fun hserved ↦ hunserved ⟨files, hmanifest, hserved⟩
    dsimp only
    rw [if_neg hmissing]
    refine Procedure.Ends.bind_error ((writeStaging_ends _ _ shape_opened).bind ?_)
    refine (removeAny_ends _ .staging ?_ (fun left hleft _ ↦ shape_opened _ ?_)
      (shape_opened none nofun)).attempt.bind ?_
    · rintro _ ⟨⟩
      exact Node.snapshot_isRemovable _
    · rintro _ ⟨⟩
      exact hleft
    · exact Procedure.Ends.fail (shape_opened none nofun)

theorem abandonStaging_ends (e : DeploymentError) :
    (abandonStaging e).Ends tx.Shape ⟨tx.old, none, none, some tx.opened⟩ (.error e) tx.start := by
  have hidle : tx.Shape tx.start := .idle rfl rfl rfl rfl
  refine (removeIfPresent_ends_absent _ .staging (shape_opened none nofun) rfl).attempt.bind ?_
  refine (removeJournal_ends _ (shape_opened none nofun) hidle).attempt.bind ?_
  exact Procedure.Ends.fail hidle

/-- The old target moves aside and the snapshot in, and what follows is left to do. -/
theorem activate_replacing {Q : Except DeploymentError DeploymentResult → Disk ε → Prop}
    (hfiles : tx.files? = some files) (hold : tx.old.isSome)
    (hcommit : (commitActivation (tx.journal .intent) >>=
        fun _ ↦ pure (tx.journal .intent).result).Meets Q tx.Shape
      ⟨some (.snapshot files), none, tx.old, some (tx.preparedFile.append (tx.journal .oldMoved))⟩) :
    (activate tx.blobs (tx.journal .intent)).Meets Q tx.Shape
      ⟨tx.old, some (.snapshot files), none, some tx.preparedFile⟩ := by
  have hparted : ∀ file : LogFile DeploymentJournal,
      file.Since [tx.journal .intent, tx.journal .prepared] (tx.Wrote [.oldMoved]) →
        tx.Shape ⟨none, some (.snapshot files), tx.old, some file⟩ :=
    fun file hfile ↦ .parted file files rfl hfile hfiles hold rfl rfl rfl
  have hwrote : tx.Wrote [.oldMoved] (tx.journal .oldMoved) := ⟨.oldMoved, by simp, rfl⟩
  have hmoved := (preparedFile_since tx (tx.Wrote [.oldMoved])).append hwrote
  have haside : (moveOldAside (tx.journal .intent)).Ends tx.Shape
      ⟨tx.old, some (.snapshot files), none, some tx.preparedFile⟩ (.ok ())
      ⟨none, some (.snapshot files), tx.old, some (tx.preparedFile.append (tx.journal .oldMoved))⟩ := by
    refine Procedure.Ends.bind (rename_ends _ .destination .backup ?_ (hparted _ ?_)) ?_
    · exact shape_prepared tx files
    · exact preparedFile_since tx _
    · refine persistJournal_ends _ (tx.journal .oldMoved) (hparted _ (preparedFile_since tx _))
        (fun point ↦ hparted _ ?_) (hparted _ hmoved)
      exact (preparedFile_since tx _).appendCut hwrote point
  unfold activate
  rw [if_pos (show (tx.journal .intent).replacedExisting = true from hold)]
  refine haside.bind ?_
  have hin : tx.Shape ⟨some (.snapshot files), none, tx.old,
      some (tx.preparedFile.append (tx.journal .oldMoved))⟩ :=
    .replaced _ files rfl (movedFile_since tx) hfiles hold rfl rfl
  refine (rename_ends _ .staging .destination (hparted _ hmoved) hin).bind ?_
  exact (verify_ends _ .destination hin hfiles rfl).attempt.bind hcommit

/-- The old target goes in the end. -/
theorem activate_removing (hfiles : tx.files? = some files) (hold : tx.old.isSome)
    (hremovable : tx.Removable) :
    (activate tx.blobs (tx.journal .intent)).Ends tx.Shape
      ⟨tx.old, some (.snapshot files), none, some tx.preparedFile⟩ (.ok (tx.journal .intent).result)
      ⟨some (.snapshot files), none, none, some tx.activatedFile⟩ := by
  have hfree : ¬ Obstructed ⟨some (.snapshot files), none, tx.old,
      some (tx.preparedFile.append (tx.journal .oldMoved))⟩ := by
    rintro ⟨node, hnode, hrefused⟩
    rw [hremovable node hnode] at hrefused
    cases hrefused
  refine activate_replacing hfiles hold ?_
  refine (commitActivation_ends ⟨some (.snapshot files), none, tx.old, _⟩ .intent rfl
    (movedFile_since tx) hfiles hold rfl rfl hfree).bind ?_
  rw [Transaction.activatedFile, if_pos hold]
  refine Procedure.Ends.pure ?_
  exact .replaced _ files rfl ((movedFile_since tx).append ⟨.activated, by simp, rfl⟩) hfiles hold
    rfl rfl

/-- A part of the old target stays aside. -/
theorem activate_refused (hfiles : tx.files? = some files) (hold : tx.old.isSome)
    (hrefused : ¬ tx.Removable) :
    ∃ left : Node ε, (activate tx.blobs (tx.journal .intent)).Ends tx.Shape
      ⟨tx.old, some (.snapshot files), none, some tx.preparedFile⟩ (.error .unsupportedFileType)
      ⟨some (.snapshot files), none, some left, some tx.activatedFile⟩ := by
  have hobstructed : Obstructed ⟨some (.snapshot files), none, tx.old,
      some (tx.preparedFile.append (tx.journal .oldMoved))⟩ := by
    simpa [Transaction.Removable, Obstructed] using hrefused
  obtain ⟨left, -, hends⟩ := commitActivation_refused ⟨some (.snapshot files), none, tx.old, _⟩
    .intent rfl (movedFile_since tx) hfiles hold rfl rfl hobstructed
  refine ⟨left, activate_replacing hfiles hold ?_⟩
  rw [Transaction.activatedFile, if_pos hold]
  exact Procedure.Ends.bind_error hends

theorem activate_installing (hfiles : tx.files? = some files) (hold : tx.old = none) :
    (activate tx.blobs (tx.journal .intent)).Ends tx.Shape
      ⟨tx.old, some (.snapshot files), none, some tx.preparedFile⟩ (.ok (tx.journal .intent).result)
      ⟨some (.snapshot files), none, none, some tx.activatedFile⟩ := by
  have hnew : ¬ tx.old.isSome = true := by simp [hold]
  have hin : tx.Shape ⟨some (.snapshot files), none, none, some tx.preparedFile⟩ :=
    .installed _ files rfl (preparedFile_since tx _) hfiles hold rfl rfl rfl
  unfold activate
  rw [if_neg (show ¬ (tx.journal .intent).replacedExisting = true from hnew)]
  refine (rename_ends _ .staging .destination (shape_prepared tx files) hin).bind ?_
  refine (verify_ends _ .destination hin hfiles rfl).attempt.bind ?_
  obtain ⟨hcommit, hshape⟩ := commitActivation_installed
    ⟨some (.snapshot files), none, none, some tx.preparedFile⟩ .intent rfl
    (preparedFile_since tx _) hfiles hold rfl rfl rfl
  refine hcommit.bind ?_
  rw [Transaction.activatedFile, if_neg hnew]
  exact Procedure.Ends.pure hshape

/-- A deployment whose files are all there puts the snapshot in place of the old target. -/
theorem deploy_served (hserved : tx.Served) (hremovable : tx.Removable) :
    ∃ files, tx.files? = some files ∧
      tx.deploy.Ends tx.Shape tx.start (.ok (tx.journal .intent).result)
        ⟨some (.snapshot files), none, none, some tx.activatedFile⟩ := by
  obtain ⟨files, hfiles, hall⟩ := hserved
  refine ⟨files, hfiles, persistIntent_ends.bind ?_⟩
  refine (prepareStaging_ends hfiles hall).attempt.bind ?_
  cases hold : tx.old with
  | some old => exact hold ▸ activate_removing hfiles (by rw [hold]; rfl) hremovable
  | none => exact hold ▸ activate_installing hfiles hold

/-- It does so as well when it cannot remove the old target, and fails. -/
theorem deploy_refused (hserved : tx.Served) (hrefused : ¬ tx.Removable) :
    ∃ files left, tx.files? = some files ∧
      tx.deploy.Ends tx.Shape tx.start (.error .unsupportedFileType)
        ⟨some (.snapshot files), none, some left, some tx.activatedFile⟩ := by
  obtain ⟨files, hfiles, hall⟩ := hserved
  have hold : tx.old.isSome := by
    rw [Option.isSome_iff_ne_none]
    intro hnone
    refine hrefused fun node hnode ↦ ?_
    cases hnone.symm.trans hnode
  obtain ⟨left, hends⟩ := activate_refused hfiles hold hrefused
  exact ⟨files, left, hfiles,
    persistIntent_ends.bind ((prepareStaging_ends hfiles hall).attempt.bind hends)⟩

/-- Any other one fails and leaves the disk as it was. -/
theorem deploy_unserved (hunserved : ¬ tx.Served) :
    tx.deploy.Ends tx.Shape tx.start (.error .snapshot) tx.start :=
  persistIntent_ends.bind
    ((prepareStaging_error hunserved).attempt.bind (abandonStaging_ends .snapshot))

/-- Wherever a deployment is cut off, the disk has one of the shapes. -/
theorem deploy_meets (tx : Transaction ε) :
    tx.deploy.Meets (fun _ _ ↦ True) tx.Shape tx.start := by
  by_cases hserved : tx.Served
  · by_cases hremovable : tx.Removable
    · obtain ⟨files, -, hends⟩ := deploy_served hserved hremovable
      exact hends.meets trivial
    · obtain ⟨files, left, -, hends⟩ := deploy_refused hserved hremovable
      exact hends.meets trivial
  · exact (deploy_unserved hserved).meets trivial

end Deploy

/-! ## Runs of crashes -/

namespace Transaction

variable (tx : Transaction ε)

/-- The disk of a transaction that has crashed. A step is one more recovery and its crash. -/
def restarts : TransitionSystem (Disk ε) (ℕ × Point ε) where
  init disk := ∃ steps point, tx.deploy.cutOff tx.start steps point = some disk
  step disk crash := (recoverIncomplete tx.blobs).cutOff disk crash.1 crash.2

/-- What the next recovery does when it is left to end. -/
def Recovers (disk : Disk ε) : Prop :=
  Recovered tx ((recoverIncomplete tx.blobs).exec disk).1 ((recoverIncomplete tx.blobs).exec disk).2

/-- The old target, in its place or aside, or the whole snapshot. No part of one is active. -/
def Kept (disk : Disk ε) : Prop :=
  disk.destination = tx.old ∨ (disk.destination = none ∧ disk.backup = tx.old) ∨
    ∃ files, tx.files? = some files ∧ disk.destination = some (.snapshot files)

end Transaction

section Runs

variable {tx : Transaction ε} {disk : Disk ε}

omit [DecidableEq ε] in
theorem Transaction.Shape.kept (hshape : tx.Shape disk) : tx.Kept disk := by
  cases hshape with
  | idle _ hdestination => exact .inl hdestination
  | waiting _ _ _ hdestination => exact .inl hdestination
  | parted _ _ _ _ _ _ hdestination _ hbackup => exact .inr (.inl ⟨hdestination, hbackup⟩)
  | replaced _ files _ _ hfiles _ hdestination => exact .inr (.inr ⟨files, hfiles, hdestination⟩)
  | installed _ files _ _ hfiles _ hdestination => exact .inr (.inr ⟨files, hfiles, hdestination⟩)

theorem recoverIncomplete_eq {blobs : Blobs ε} {file : LogFile DeploymentJournal}
    (hjournal : disk.journal = some file) :
    recoverIncomplete blobs disk =
      ((recoverOne blobs file).attempt >>= fun outcome ↦ pure (reportOf outcome)) disk := by
  obtain ⟨destination, staging, backup, journal⟩ := disk
  cases hjournal
  rfl

/-- With no journal there is nothing to recover. -/
theorem recoverIncomplete_idle (hshape : tx.Shape disk) (hjournal : disk.journal = none) :
    (recoverIncomplete tx.blobs).Meets (Recovered tx) tx.Shape disk := by
  have hsettled : tx.Settled disk := by
    cases hshape with
    | idle _ hdestination hstaging hbackup => exact ⟨.inl hdestination, hstaging, hbackup⟩
    | waiting _ h => rw [hjournal] at h; cases h
    | parted _ _ h => rw [hjournal] at h; cases h
    | replaced _ _ h => rw [hjournal] at h; cases h
    | installed _ _ h => rw [hjournal] at h; cases h
  obtain ⟨destination, staging, backup, journal⟩ := disk
  cases hjournal
  exact ⟨⟨hsettled, _, rfl, rfl⟩, hshape⟩

/-- A lost transaction stays as it is, and its journal is reported. -/
theorem recoverIncomplete_lost (hshape : tx.Shape disk) (hlost : LostTrack disk) :
    ∃ e, (recoverIncomplete tx.blobs).Ends tx.Shape disk (.ok ⟨0, 0, [], [e]⟩) disk := by
  obtain ⟨file, hjournal, -⟩ := id hlost
  rcases recoverOne_spec hshape hjournal with ⟨-, e, hends⟩ | ⟨hkept, -⟩
  · exact ⟨e, .of_eq (recoverIncomplete_eq hjournal) 
      (hends.attempt.bind (Procedure.Ends.pure hshape))⟩
  · exact absurd hlost hkept

/-- With a journal, the outcome of its recovery is what there is to report. -/
theorem recoverIncomplete_of_one {Q : RecoveryReport → Disk ε → Prop} {file : LogFile DeploymentJournal}
    (hjournal : disk.journal = some file)
    (h : (recoverOne tx.blobs file).Meets (fun result ↦ Q (reportOf result)) tx.Shape disk) :
    (recoverIncomplete tx.blobs).Meets (fun result disk ↦ ∃ report, result = .ok report ∧ Q report disk)
      tx.Shape disk := by
  unfold Procedure.Meets
  rw [recoverIncomplete_eq hjournal]
  refine Procedure.Meets.bind (Q := fun result disk ↦ ∃ outcome, result = .ok outcome ∧
    Q (reportOf outcome) disk) (.attempt ?_) ?_ ?_
  · exact Steps.Meets.mono h (fun result _ h ↦ ⟨result, rfl, h⟩) fun _ h ↦ h
  · rintro outcome disk' ⟨_, ⟨⟩, h⟩ hshape'
    exact ⟨⟨_, rfl, h⟩, hshape'⟩
  · rintro e disk' ⟨outcome, ⟨⟩, -⟩

/-- Any other one is settled if the backup can be removed. -/
theorem recoverIncomplete_kept (hshape : tx.Shape disk) (hkept : ¬ LostTrack disk)
    (hfree : ¬ Obstructed disk) :
    (recoverIncomplete tx.blobs).Meets (Recovered tx) tx.Shape disk := by
  cases hjournal : disk.journal with
  | none => exact recoverIncomplete_idle hshape hjournal
  | some file =>
    rcases recoverOne_spec hshape hjournal with ⟨hlost, -⟩ | ⟨-, hmeets⟩
    · exact absurd hlost hkept
    · have hone : (recoverOne tx.blobs file).Meets (fun result disk ↦
          tx.Settled disk ∧ (reportOf result).failed = []) tx.Shape disk := by
        refine Steps.Meets.mono hmeets ?_ fun _ h ↦ h
        rintro result disk' hanswers
        obtain ⟨⟨outcome, rfl⟩, hsettled⟩ := hanswers.settles hfree
        refine ⟨hsettled, ?_⟩
        cases outcome <;> rfl
      refine Steps.Meets.mono (recoverIncomplete_of_one
        (Q := fun report disk ↦ tx.Settled disk ∧ report.failed = []) hjournal hone) ?_ fun _ h ↦ h
      rintro result disk' ⟨report, rfl, hsettled, hfailed⟩
      exact ⟨hsettled, report, rfl, hfailed⟩

/-- While the backup cannot be removed, every recovery reports a failure. -/
theorem recoverIncomplete_obstructed (hshape : tx.Shape disk) (hobstructed : Obstructed disk) :
    (recoverIncomplete tx.blobs).Meets
      (fun result _ ↦ ∃ report, result = .ok report ∧ report.failed ≠ []) tx.Shape disk := by
  have hsome : disk.journal.isSome := by
    obtain ⟨node, hnode, -⟩ := hobstructed
    cases hshape with
    | idle _ _ _ hbackup => cases hbackup.symm.trans hnode
    | waiting file hjournal => rw [hjournal]; rfl
    | parted file files hjournal => rw [hjournal]; rfl
    | replaced file files hjournal => rw [hjournal]; rfl
    | installed file files hjournal => rw [hjournal]; rfl
  obtain ⟨file, hjournal⟩ := Option.isSome_iff_exists.mp hsome
  refine recoverIncomplete_of_one (Q := fun report _ ↦ report.failed ≠ []) hjournal ?_
  rcases recoverOne_spec hshape hjournal with ⟨-, e, hends⟩ | ⟨-, hmeets⟩
  · exact hends.meets (List.cons_ne_nil _ _)
  · refine Steps.Meets.mono hmeets (fun result _ hanswers ↦ ?_) fun _ h ↦ h
    obtain ⟨e, rfl⟩ := hanswers.refuses hobstructed
    exact List.cons_ne_nil _ _

theorem recoverIncomplete_shape (hshape : tx.Shape disk) {steps : ℕ} {point : Point ε} {disk' : Disk ε}
    (hcut : (recoverIncomplete tx.blobs).cutOff disk steps point = some disk') : tx.Shape disk' := by
  by_cases hlost : LostTrack disk
  · obtain ⟨e, hends⟩ := recoverIncomplete_lost hshape hlost
    exact Procedure.Meets.cutOff hends hcut
  · by_cases hobstructed : Obstructed disk
    · exact (recoverIncomplete_obstructed hshape hobstructed).cutOff hcut
    · exact (recoverIncomplete_kept hshape hlost hobstructed).cutOff hcut

theorem Transaction.restarts_shape (h : tx.restarts.Reachable disk) : tx.Shape disk := by
  refine h.invariant ?_ ?_
  · rintro disk ⟨steps, point, hcut⟩
    exact (deploy_meets tx).cutOff hcut
  · exact fun disk crash disk' hshape hstep ↦ recoverIncomplete_shape hshape hstep

theorem Transaction.recovers_iff (hshape : tx.Shape disk) :
    tx.Recovers disk ↔ ¬ LostTrack disk ∧ ¬ Obstructed disk := by
  constructor
  · rintro ⟨-, report, hresult, hfailed⟩
    constructor
    · intro hlost
      obtain ⟨e, hends⟩ := recoverIncomplete_lost hshape hlost
      rw [hends.exec] at hresult
      cases hresult
      cases hfailed
    · intro hobstructed
      obtain ⟨report', hreport, hfailed'⟩ := (recoverIncomplete_obstructed hshape hobstructed).exec
      cases hreport.symm.trans hresult
      exact hfailed' hfailed
  · exact fun ⟨hkept, hfree⟩ ↦ (recoverIncomplete_kept hshape hkept hfree).exec

/-- After any number of crashes, the first of them in the deployment and the others in its
recoveries, the old target or the whole snapshot is there, and the next recovery settles the
transaction exactly if no track of it is lost and what is aside can be removed. -/
theorem restarts_settle_iff (h : tx.restarts.Reachable disk) :
    tx.Kept disk ∧ (tx.Recovers disk ↔ ¬ LostTrack disk ∧ ¬ Obstructed disk) :=
  ⟨(Transaction.restarts_shape h).kept, Transaction.recovers_iff (Transaction.restarts_shape h)⟩

end Runs

/-! ## Two runs -/

/-- A skill of two files for an agent, over what there is at its place. -/
def sample (old : Option (Node ℕ)) : Transaction ℕ where
  blobs := { manifest := fun _ ↦ some [1, 2], served := fun _ ↦ 2 }
  transactionId := "transaction"
  request :=
    { skillId := "skill", agentProfileId := "agent", snapshotHash := "hash", targetPath := "target" }
  old := old

/-- The disk of an update that has crashed while it removed the old target, and of which the
recovery has crashed there as well. -/
def halfRemoved : Disk ℕ where
  destination := some (.snapshot [1, 2])
  staging := none
  backup := some (.snapshot [4])
  journal := some
    ⟨[.intent, .prepared, .oldMoved, .activated, .activated].map fun phase ↦
      .record ((sample (some (.snapshot [3, 4, 5]))).journal phase), none⟩

/-- The disk of an install that has crashed before the activation, and of which the recovery has
crashed after it removed the staging directory. -/
def discarded : Disk ℕ where
  destination := none
  staging := none
  backup := none
  journal := some ⟨[.intent, .prepared].map fun phase ↦ .record ((sample none).journal phase), none⟩

theorem halfRemoved_recovers : (sample (some (.snapshot [3, 4, 5]))).restarts.Reachable halfRemoved ∧
    (sample (some (.snapshot [3, 4, 5]))).Recovers halfRemoved := by
  have hreachable : (sample (some (.snapshot [3, 4, 5]))).restarts.Reachable halfRemoved := by
    refine ⟨_, [(1, .removed [.file 4])], ⟨7, .removed [.file 4, .file 5], rfl⟩, ?_⟩
    decide +kernel
  refine ⟨hreachable, (restarts_settle_iff hreachable).2.mpr ⟨?_, ?_⟩⟩
  · rintro ⟨file, ⟨⟩, hlost⟩
    obtain ⟨hphase, -⟩ := hlost _ rfl
    cases hphase <;> contradiction
  · rintro ⟨node, ⟨⟩, ⟨⟩⟩

/-- The recovery discards a staging directory in two steps. After the first one there is no rule
for what is left: nothing at any place, and a journal that says the snapshot is prepared. -/
theorem discarded_notRecovered : (sample none).restarts.Reachable discarded ∧
    ¬ (sample none).Recovers discarded := by
  refine ⟨⟨_, [(1, .untouched)], ⟨3, .untouched, rfl⟩, ?_⟩, ?_⟩
  · decide +kernel
  · rintro ⟨-, report, hresult, hfailed⟩
    have hreport : ((recoverIncomplete (sample none).blobs).exec discarded).1 =
        .ok ⟨0, 0, [], [noRule ((sample none).journal .prepared) false false false]⟩ := rfl
    rw [hreport] at hresult
    cases hresult
    cases hfailed

end Deployment

end SkillHive
