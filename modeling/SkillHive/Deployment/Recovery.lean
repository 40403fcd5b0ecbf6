import SkillHive.Deployment.Engine
import SkillHive.Foundation.TransitionSystem

/-!
# Deployments that crash

A deployment may be cut off anywhere, and so may every recovery after it. The disk then has
one of a few shapes, which the journal and the three places tell apart. A recovery that is left
to end puts the old target back or keeps the snapshot, unless the last crash left a journal
that it cannot read, places that it has no rule for, or an old target that it cannot remove.
-/

namespace SkillHive

open Foundation

namespace Deployment

variable {ε : Type} [DecidableEq ε]

/-! ## One step -/

section Steps

variable {C : Disk ε → Prop} (disk : Disk ε) {blobs : Blobs ε} {files : List ε}
  {snapshotHash : String}

theorem performRemoval_ends (place : Place) {left : Option (Node ε)}
    (hcut : ∀ left, (∃ node ∈ disk.get place, left.isRemovable = node.isRemovable) →
      C (disk.set (some left) place))
    (hremains : (disk.get place).bind Node.remains = left) (hleft : C (disk.set left place)) :
    (Procedure.perform (removal (fun disk ↦ disk.get place) fun node disk ↦ disk.set node place) :
      Deploy ε Unit).Ends C disk (.ok ()) (disk.set left place) := by
  subst hremains
  exact removal_ends disk hcut hleft

/-- What a removal gets through goes. -/
theorem removeAny_ends (place : Place) (hremovable : ∀ node ∈ disk.get place, node.isRemovable = true)
    (hcut : ∀ left : Node ε, left.isRemovable = true → (disk.get place).isSome →
      C (disk.set (some left) place))
    (hgone : C (disk.set none place)) :
    (removeAny place).Ends C disk (.ok ()) (disk.set none place) := by
  have hnothing : (disk.get place).bind Node.remains = none :=
    Option.bind_eq_none_iff.mpr fun node hnode ↦ Node.remains_eq_none.mpr (hremovable node hnode)
  refine Procedure.Meets.look
    (Procedure.Ends.bind (performRemoval_ends disk place ?_ hnothing hgone) ?_)
  · rintro left ⟨node, hnode, hsame⟩
    exact hcut left (hsame.trans (hremovable node hnode)) (by rw [hnode]; rfl)
  · rw [if_pos (by cases hplace : disk.get place <;> simp_all)]
    exact Procedure.Ends.pure hgone

/-- What a removal does not get through stays in part. -/
theorem removeAny_refused (place : Place) {node : Node ε} (hnode : disk.get place = some node)
    (hrefused : node.isRemovable = false)
    (hcut : ∀ left : Node ε, left.isRemovable = false → C (disk.set (some left) place)) :
    ∃ left : Node ε, left.isRemovable = false ∧
      (removeAny place).Ends C disk (.error .unsupportedFileType) (disk.set (some left) place) := by
  obtain ⟨left, hleft⟩ := Option.ne_none_iff_exists'.mp
    (mt Node.remains_eq_none.mp (Bool.eq_false_iff.mp hrefused))
  have hsome : (disk.get place).bind Node.remains = some left := by rw [hnode, Option.bind_some, hleft]
  have hstops := Node.isRemovable_of_remains hleft
  refine ⟨left, hstops, Procedure.Meets.look
    (Procedure.Ends.bind (performRemoval_ends disk place ?_ hsome (hcut left hstops)) ?_)⟩
  · rintro kept ⟨node', hnode', hsame⟩
    cases hnode.symm.trans hnode'
    exact hcut kept (hsame.trans hrefused)
  · rw [hnode, if_neg (by simp [hrefused])]
    exact Procedure.Ends.fail (hcut left hstops)

theorem removeAny_preserves {I : Disk ε → Prop} {place : Place}
    (hI : ∀ disk node, I disk → I (disk.set node place)) : (removeAny place).Preserves I := by
  refine .bind .look fun disk ↦ .bind (.perform ?_ fun disk ↦ hI disk _) fun _ ↦ ?_
  · intro point disk disk' h hcut
    obtain ⟨node, -, hcut⟩ := Option.bind_eq_some_iff.mp hcut
    obtain ⟨left, -, rfl⟩ := Option.map_eq_some_iff.mp hcut
    exact hI disk _ h
  · split
    · exact .pure _
    · exact .fail _

theorem removeIfPresent_of_isSome {place : Place} (h : (disk.get place).isSome = true) :
    (removeIfPresent place : Deploy ε Unit) disk = removeAny place disk := by
  have hbranch : (removeIfPresent place : Deploy ε Unit) disk =
      (if (disk.get place).isSome = true then removeAny place else pure () : Deploy ε Unit) disk := rfl
  rw [hbranch, if_pos h]

theorem removeIfPresent_ends_absent (place : Place) (hhere : C disk)
    (habsent : disk.get place = none) : (removeIfPresent place).Ends C disk (.ok ()) disk := by
  have hbranch : (removeIfPresent place : Deploy ε Unit) disk =
      (if (disk.get place).isSome = true then removeAny place else pure () : Deploy ε Unit) disk := rfl
  rw [if_neg (by rw [habsent]; exact Bool.false_ne_true)] at hbranch
  exact .of_eq hbranch (.pure hhere)

theorem removeIfPresent_ends (place : Place) (hhere : C disk)
    (hremovable : ∀ node ∈ disk.get place, node.isRemovable = true)
    (hcut : ∀ left : Node ε, left.isRemovable = true → (disk.get place).isSome →
      C (disk.set (some left) place))
    (hgone : C (disk.set none place)) :
    (removeIfPresent place).Ends C disk (.ok ()) (disk.set none place) := by
  by_cases hget : (disk.get place).isSome = true
  · exact .of_eq (removeIfPresent_of_isSome disk hget) (removeAny_ends disk place hremovable hcut hgone)
  · have habsent : disk.get place = none := Option.not_isSome_iff_eq_none.mp hget
    have hsame : disk.set none place = disk := by
      cases place <;> (cases disk; cases habsent; rfl)
    rw [hsame]
    exact removeIfPresent_ends_absent disk place hhere habsent

/-- Whatever is at the place, it goes, or stays in part and stops the procedure. -/
theorem removeIfPresent_meets {α : Type} {Q : Except DeploymentError α → Disk ε → Prop}
    {next : Unit → Deploy ε α} (place : Place) (hhere : C disk)
    (hcut : ∀ left : Node ε, C (disk.set (some left) place)) (hgone : C (disk.set none place))
    (hrefused : ∀ (left : Node ε) e, Q (.error e) (disk.set (some left) place))
    (hnext : (next ()).Meets Q C (disk.set none place)) :
    (removeIfPresent place >>= next).Meets Q C disk := by
  by_cases hremovable : ∀ node ∈ disk.get place, node.isRemovable = true
  · exact (removeIfPresent_ends disk place hhere hremovable (fun left _ _ ↦ hcut left) hgone).bind hnext
  · simp only [Option.mem_def, not_forall] at hremovable
    obtain ⟨node, hnode, hstops⟩ := hremovable
    obtain ⟨left, -, hends⟩ := removeAny_refused disk place hnode (Bool.eq_false_iff.mpr hstops)
      fun left _ ↦ hcut left
    have hpresent : (disk.get place).isSome = true := by rw [hnode]; rfl
    have hends := Procedure.Ends.of_eq (removeIfPresent_of_isSome disk hpresent) hends
    exact (Procedure.Ends.bind_error hends).meets (hrefused left _)

omit [DecidableEq ε] in
theorem rename_ends (source target : Place) (hhere : C disk)
    (hmoved : C ((disk.set (disk.get source) target).set none source)) :
    (rename source target).Ends C disk (.ok ())
      ((disk.set (disk.get source) target).set none source) :=
  Procedure.Ends.perform (fun _ _ h ↦ atomic_cut h ▸ hhere) hmoved

omit [DecidableEq ε] in
theorem removeJournal_ends (hhere : C disk) (hgone : C { disk with journal := none }) :
    removeJournal.Ends C disk (.ok ()) { disk with journal := none } :=
  Procedure.Ends.perform (fun _ _ h ↦ atomic_cut h ▸ hhere) hgone

omit [DecidableEq ε] in
theorem persistJournal_ends (journal : DeploymentJournal) (hhere : C disk)
    (hcut : ∀ point, C { disk with
      journal := some ((disk.journal.getD .empty).appendCut journal point) })
    (hdone : C { disk with journal := some ((disk.journal.getD .empty).append journal) }) :
    (persistJournal journal).Ends C disk (.ok ())
      { disk with journal := some ((disk.journal.getD .empty).append journal) } :=
  recording_ends disk journal hhere hcut hdone

/-- A place that holds the snapshot is verified. -/
theorem verify_ends (place : Place) (hhere : C disk) (hmanifest : blobs.manifest snapshotHash = some files)
    (hplace : disk.get place = some (.snapshot files)) :
    (verifyMaterializedSnapshot blobs snapshotHash place).Ends C disk (.ok ()) disk := by
  have hholds : (disk.get place).any
      (fun node ↦ (blobs.manifest snapshotHash).map Node.snapshot = some node) = true := by
    simp [hplace, hmanifest]
  have hbranch : verifyMaterializedSnapshot blobs snapshotHash place disk =
      (pure () : Deploy ε Unit) disk := congrFun (if_pos hholds) disk
  exact .of_eq hbranch (.pure hhere)

end Steps

/-! ## The shapes of the disk -/

/-- A deployment: the snapshots that there are, what is asked for, and the old target. -/
structure Transaction (ε : Type) where
  blobs : Blobs ε
  transactionId : String
  request : DeploymentRequest
  old : Option (Node ε)

namespace Transaction

variable (tx : Transaction ε)

def journal (phase : DeploymentPhase) : DeploymentJournal :=
  journalOf tx.transactionId tx.request tx.old.isSome phase

def files? : Option (List ε) := tx.blobs.manifest tx.request.snapshotHash

/-- A record of the transaction in one of the phases. -/
def Wrote (phases : List DeploymentPhase) (record : DeploymentJournal) : Prop :=
  ∃ phase ∈ phases, record = tx.journal phase

/-- What a crash may leave. -/
inductive Shape (disk : Disk ε) : Prop
  /-- There is no transaction any more, or not yet. -/
  | idle (hjournal : disk.journal = none) (hdestination : disk.destination = tx.old)
      (hstaging : disk.staging = none) (hbackup : disk.backup = none)
  /-- The old target is where it was. -/
  | waiting (file : LogFile DeploymentJournal) (hjournal : disk.journal = some file)
      (hfile : file.Since [] (tx.Wrote [.intent, .prepared]))
      (hdestination : disk.destination = tx.old)
      (hstaging : ∀ node ∈ disk.staging, node.isRemovable = true) (hbackup : disk.backup = none)
  /-- The old target is aside, and the snapshot is not in yet. -/
  | parted (file : LogFile DeploymentJournal) (files : List ε) (hjournal : disk.journal = some file)
      (hfile : file.Since [tx.journal .intent, tx.journal .prepared] (tx.Wrote [.oldMoved]))
      (hfiles : tx.files? = some files) (hold : tx.old.isSome)
      (hdestination : disk.destination = none) (hstaging : disk.staging = some (.snapshot files))
      (hbackup : disk.backup = tx.old)
  /-- The snapshot is in, and the old target goes. -/
  | replaced (file : LogFile DeploymentJournal) (files : List ε)
      (hjournal : disk.journal = some file)
      (hfile : file.Since [tx.journal .intent, tx.journal .prepared]
        (tx.Wrote [.oldMoved, .activated]))
      (hfiles : tx.files? = some files) (hold : tx.old.isSome)
      (hdestination : disk.destination = some (.snapshot files)) (hstaging : disk.staging = none)
  /-- The snapshot is in where nothing was. -/
  | installed (file : LogFile DeploymentJournal) (files : List ε)
      (hjournal : disk.journal = some file)
      (hfile : file.Since [tx.journal .intent, tx.journal .prepared] (tx.Wrote [.activated]))
      (hfiles : tx.files? = some files) (hold : tx.old = none)
      (hdestination : disk.destination = some (.snapshot files)) (hstaging : disk.staging = none)
      (hbackup : disk.backup = none)

end Transaction

/-- The journal says that the snapshot is prepared, and neither the staging directory nor the
backup is left. -/
def LostTrackAt (disk : Disk ε) (journal : DeploymentJournal) : Prop :=
  (journal.phase = .prepared ∨ journal.phase = .oldMoved) ∧ disk.staging = none ∧
    disk.backup = none ∧ (journal.replacedExisting ∨ disk.destination = none)

/-- There is a journal, and it cannot be read or has lost track. -/
def LostTrack (disk : Disk ε) : Prop :=
  ∃ file ∈ disk.journal, ∀ journal, readLatestJournal file = .ok journal → LostTrackAt disk journal

/-- What is aside is or holds something that no removal supports. -/
def Obstructed (disk : Disk ε) : Prop := ∃ node ∈ disk.backup, node.isRemovable = false

/-- The old target or the whole snapshot, and nothing beside it. -/
structure Transaction.Settled (tx : Transaction ε) (disk : Disk ε) : Prop where
  destination : disk.destination = tx.old ∨
    ∃ files, tx.files? = some files ∧ disk.destination = some (.snapshot files)
  staging : disk.staging = none
  backup : disk.backup = none

/-- A recovery that settles the transaction and reports no journal as failed. -/
structure Recovered (tx : Transaction ε) (result : Except DeploymentError RecoveryReport)
    (disk : Disk ε) : Prop extends tx.Settled disk where
  report : ∃ report, result = .ok report ∧ report.failed = []

/-! ## What the recovery does to each shape -/

section Shapes

variable {tx : Transaction ε} {disk : Disk ε} {file : LogFile DeploymentJournal} {files : List ε}
  {phase : DeploymentPhase}

/-- One outcome, on a disk that is settled. -/
def Transaction.Settles (tx : Transaction ε) (result : Except DeploymentError RecoveryOutcome)
    (disk : Disk ε) : Prop := (∃ outcome, result = .ok outcome) ∧ tx.Settled disk

/-- One outcome, on a disk that is settled, or an error if the backup cannot be removed. -/
structure Transaction.Answers (tx : Transaction ε) (before : Disk ε)
    (result : Except DeploymentError RecoveryOutcome) (disk : Disk ε) : Prop where
  settles : ¬ Obstructed before → tx.Settles result disk
  refuses : Obstructed before → ∃ e, result = .error e

omit [DecidableEq ε] in
theorem Transaction.Settles.answers {before : Disk ε}
    {result : Except DeploymentError RecoveryOutcome} (h : tx.Settles result disk)
    (hbackup : before.backup = none) : tx.Answers before result disk := by
  refine ⟨fun _ ↦ h, ?_⟩
  rintro ⟨node, hnode, -⟩
  cases hbackup.symm.trans hnode

theorem discardStaging_meets (hjournal : disk.journal = some file)
    (hfile : file.Since [] (tx.Wrote [.intent, .prepared])) (hdestination : disk.destination = tx.old)
    (hstaging : ∀ node ∈ disk.staging, node.isRemovable = true) (hbackup : disk.backup = none) :
    discardStaging.Meets tx.Settles tx.Shape disk := by
  have hgone : tx.Shape (disk.set none .staging) := .waiting file hjournal hfile hdestination nofun hbackup
  refine Procedure.Ends.bind (removeIfPresent_ends disk .staging ?_ hstaging (fun left hleft _ ↦ ?_)
    hgone) ?_
  · exact .waiting file hjournal hfile hdestination hstaging hbackup
  · refine .waiting file hjournal hfile hdestination ?_ hbackup
    rintro _ ⟨⟩
    exact hleft
  · have hidle : tx.Shape { disk.set none .staging with journal := none } :=
      .idle rfl hdestination rfl hbackup
    refine Procedure.Ends.bind (removeJournal_ends _ hgone hidle) ?_
    exact ⟨⟨⟨_, rfl⟩, .inl hdestination, rfl, hbackup⟩, hidle⟩

omit [DecidableEq ε] in
/-- The snapshot is in, and the journal says so. -/
theorem persistReplaced_ends (disk : Disk ε) (hjournal : disk.journal = some file)
    (hfile : file.Since [tx.journal .intent, tx.journal .prepared] (tx.Wrote [.oldMoved, .activated]))
    (hfiles : tx.files? = some files) (hold : tx.old.isSome)
    (hdestination : disk.destination = some (.snapshot files)) (hstaging : disk.staging = none) :
    (persistJournal (tx.journal .activated)).Ends tx.Shape disk (.ok ())
        { disk with journal := some (file.append (tx.journal .activated)) } ∧
      ∀ backup, tx.Shape
        { disk with journal := some (file.append (tx.journal .activated)), backup := backup } := by
  have hwrote : tx.Wrote [.oldMoved, .activated] (tx.journal .activated) :=
    ⟨.activated, by simp, rfl⟩
  have happended := hfile.append hwrote
  have hgetD : disk.journal.getD .empty = file := by rw [hjournal, Option.getD_some]
  have hpersist := persistJournal_ends (C := tx.Shape) disk (tx.journal .activated)
    (.replaced file files hjournal hfile hfiles hold hdestination hstaging)
    (fun point ↦ .replaced _ files rfl (hgetD ▸ hfile.appendCut hwrote point) hfiles hold
      hdestination hstaging)
    (.replaced _ files rfl (hgetD ▸ happended) hfiles hold hdestination hstaging)
  rw [hgetD] at hpersist
  exact ⟨hpersist, fun backup ↦ .replaced _ files rfl happended hfiles hold hdestination hstaging⟩

/-- The journal says that the snapshot is in, and the old target goes. -/
theorem commitActivation_ends (disk : Disk ε) (phase : DeploymentPhase)
    (hjournal : disk.journal = some file)
    (hfile : file.Since [tx.journal .intent, tx.journal .prepared] (tx.Wrote [.oldMoved, .activated]))
    (hfiles : tx.files? = some files) (hold : tx.old.isSome)
    (hdestination : disk.destination = some (.snapshot files)) (hstaging : disk.staging = none)
    (hfree : ¬ Obstructed disk) :
    (commitActivation (tx.journal phase)).Ends tx.Shape disk (.ok ())
      { disk with journal := some (file.append (tx.journal .activated)), backup := none } := by
  obtain ⟨hpersist, hshape⟩ :=
    persistReplaced_ends disk hjournal hfile hfiles hold hdestination hstaging
  refine Procedure.Ends.bind hpersist (removeIfPresent_ends
    { disk with journal := some (file.append (tx.journal .activated)) } .backup (hshape _)
    (fun node hnode ↦ ?_) (fun left _ _ ↦ hshape _) (hshape _))
  by_contra hrefused
  exact hfree ⟨node, hnode, Bool.eq_false_iff.mpr hrefused⟩

/-- What the old target has stays in part, and the journal says that the snapshot is in. -/
theorem commitActivation_refused (disk : Disk ε) (phase : DeploymentPhase)
    (hjournal : disk.journal = some file)
    (hfile : file.Since [tx.journal .intent, tx.journal .prepared] (tx.Wrote [.oldMoved, .activated]))
    (hfiles : tx.files? = some files) (hold : tx.old.isSome)
    (hdestination : disk.destination = some (.snapshot files)) (hstaging : disk.staging = none)
    (hobstructed : Obstructed disk) :
    ∃ left : Node ε, left.isRemovable = false ∧
      (commitActivation (tx.journal phase)).Ends tx.Shape disk (.error .unsupportedFileType)
        { disk with journal := some (file.append (tx.journal .activated)), backup := some left } := by
  obtain ⟨hpersist, hshape⟩ :=
    persistReplaced_ends disk hjournal hfile hfiles hold hdestination hstaging
  obtain ⟨node, hnode, hrefused⟩ := hobstructed
  set written : Disk ε := { disk with journal := some (file.append (tx.journal .activated)) }
  have hpresent : (written.get .backup).isSome = true := Option.isSome_iff_exists.mpr ⟨node, hnode⟩
  obtain ⟨left, hstops, hends⟩ := removeAny_refused (C := tx.Shape) written .backup hnode hrefused
    fun left _ ↦ hshape (some left)
  exact ⟨left, hstops, Procedure.Ends.bind hpersist
    (Procedure.Ends.of_eq (removeIfPresent_of_isSome written hpresent) hends)⟩

/-- Once the snapshot is in, the recovery ends as the backup lets it. -/
theorem commit_answers {before : Disk ε} {reached : DeploymentResult} (disk : Disk ε)
    (phase : DeploymentPhase) (hjournal : disk.journal = some file)
    (hfile : file.Since [tx.journal .intent, tx.journal .prepared] (tx.Wrote [.oldMoved, .activated]))
    (hfiles : tx.files? = some files) (hold : tx.old.isSome)
    (hdestination : disk.destination = some (.snapshot files)) (hstaging : disk.staging = none)
    (hbefore : before.backup = disk.backup) :
    (commitActivation (tx.journal phase) >>= fun _ ↦ pure (.committed reached)).Meets
      (tx.Answers before) tx.Shape disk := by
  have hsame : Obstructed before ↔ Obstructed disk := by
    unfold Obstructed
    rw [hbefore]
  by_cases hobstructed : Obstructed disk
  · obtain ⟨left, -, hends⟩ := commitActivation_refused disk phase hjournal hfile hfiles hold
      hdestination hstaging hobstructed
    refine (Procedure.Ends.bind_error hends).meets ⟨fun hfree ↦ ?_, fun _ ↦ ⟨_, rfl⟩⟩
    exact absurd (hsame.mpr hobstructed) hfree
  · refine (commitActivation_ends disk phase hjournal hfile hfiles hold hdestination hstaging
      hobstructed).bind ?_
    have hsettles : tx.Settles (.ok (.committed reached))
        { disk with journal := some (file.append (tx.journal .activated)), backup := none } :=
      ⟨⟨_, rfl⟩, .inr ⟨files, hfiles, hdestination⟩, hstaging, rfl⟩
    refine ⟨⟨fun _ ↦ hsettles, fun h ↦ absurd (hsame.mp h) hobstructed⟩, ?_⟩
    exact .replaced _ files rfl (hfile.append ⟨.activated, by simp, rfl⟩) hfiles hold hdestination
      hstaging

theorem activateVerifiedStaging_meets (hjournal : disk.journal = some file)
    (hfile : file.Since [tx.journal .intent, tx.journal .prepared] (tx.Wrote [.oldMoved]))
    (hfiles : tx.files? = some files) (hold : tx.old.isSome) (hdestination : disk.destination = none)
    (hstaging : disk.staging = some (.snapshot files)) (hbackup : disk.backup = tx.old) :
    (activateVerifiedStaging tx.blobs (tx.journal phase)).Meets (tx.Answers disk) tx.Shape disk := by
  have hparted : tx.Shape disk :=
    .parted file files hjournal hfile hfiles hold hdestination hstaging hbackup
  have hwrote : file.Since [tx.journal .intent, tx.journal .prepared]
      (tx.Wrote [.oldMoved, .activated]) := by
    refine hfile.mono ?_
    rintro _ ⟨phase, hphase, rfl⟩
    exact ⟨phase, List.mem_cons.mpr (.inl (List.mem_singleton.mp hphase)), rfl⟩
  have hmoved : tx.Shape ((disk.set (disk.get .staging) .destination).set none .staging) :=
    .replaced file files hjournal hwrote hfiles hold hstaging rfl
  refine (verify_ends disk .staging hparted hfiles hstaging).attempt.bind ?_
  refine (rename_ends disk .staging .destination hparted hmoved).bind ?_
  refine (verify_ends _ .destination hmoved hfiles hstaging).bind ?_
  exact commit_answers ((disk.set (disk.get .staging) .destination).set none .staging) phase hjournal
    hwrote hfiles hold hstaging rfl rfl

theorem verifyActiveOrRestoreBackup_meets (hjournal : disk.journal = some file)
    (hfile : file.Since [tx.journal .intent, tx.journal .prepared] (tx.Wrote [.oldMoved, .activated]))
    (hfiles : tx.files? = some files) (hold : tx.old.isSome)
    (hdestination : disk.destination = some (.snapshot files)) (hstaging : disk.staging = none) :
    (verifyActiveOrRestoreBackup tx.blobs (tx.journal phase)).Meets (tx.Answers disk) tx.Shape
      disk := by
  have hreplaced : tx.Shape disk :=
    .replaced file files hjournal hfile hfiles hold hdestination hstaging
  refine (verify_ends disk .destination hreplaced hfiles hdestination).attempt.bind ?_
  refine (removeIfPresent_ends_absent disk .staging hreplaced hstaging).bind ?_
  exact commit_answers disk phase hjournal hfile hfiles hold hdestination hstaging rfl

omit [DecidableEq ε] in
/-- The journal of a fresh install says that the snapshot is in. -/
theorem persistActivated_ends (hjournal : disk.journal = some file)
    (hfile : file.Since [tx.journal .intent, tx.journal .prepared] (tx.Wrote [.activated]))
    (hfiles : tx.files? = some files) (hold : tx.old = none)
    (hdestination : disk.destination = some (.snapshot files)) (hstaging : disk.staging = none)
    (hbackup : disk.backup = none) :
    (persistJournal (tx.journal .activated)).Ends tx.Shape disk (.ok ())
        { disk with journal := some (file.append (tx.journal .activated)) } ∧
      tx.Shape { disk with journal := some (file.append (tx.journal .activated)) } := by
  have hwrote : tx.Wrote [.activated] (tx.journal .activated) := ⟨.activated, by simp, rfl⟩
  have hgetD : disk.journal.getD .empty = file := by rw [hjournal, Option.getD_some]
  have hshape : ∀ file' : LogFile DeploymentJournal,
      file'.Since [tx.journal .intent, tx.journal .prepared] (tx.Wrote [.activated]) →
        tx.Shape { disk with journal := some file' } :=
    fun file' hfile' ↦ .installed file' files rfl hfile' hfiles hold hdestination hstaging hbackup
  have hpersist := persistJournal_ends (C := tx.Shape) disk (tx.journal .activated)
    (.installed file files hjournal hfile hfiles hold hdestination hstaging hbackup)
    (fun point ↦ hshape _ (hgetD ▸ hfile.appendCut hwrote point))
    (hshape _ (hgetD ▸ hfile.append hwrote))
  rw [hgetD] at hpersist
  exact ⟨hpersist, hshape _ (hfile.append hwrote)⟩

theorem verifyActiveWithoutBackup_meets (hjournal : disk.journal = some file)
    (hfile : file.Since [tx.journal .intent, tx.journal .prepared] (tx.Wrote [.activated]))
    (hfiles : tx.files? = some files) (hold : tx.old = none)
    (hdestination : disk.destination = some (.snapshot files)) (hstaging : disk.staging = none)
    (hbackup : disk.backup = none) :
    (verifyActiveWithoutBackup tx.blobs (tx.journal phase)).Meets tx.Settles tx.Shape disk := by
  have hinstalled : tx.Shape disk :=
    .installed file files hjournal hfile hfiles hold hdestination hstaging hbackup
  obtain ⟨hpersist, hshape⟩ :=
    persistActivated_ends hjournal hfile hfiles hold hdestination hstaging hbackup
  refine (verify_ends disk .destination hinstalled hfiles hdestination).attempt.bind ?_
  refine Procedure.Ends.bind hpersist ?_
  exact ⟨⟨⟨_, rfl⟩, .inr ⟨files, hfiles, hdestination⟩, hstaging, hbackup⟩, hshape⟩

theorem commitActivation_installed (disk : Disk ε) (phase : DeploymentPhase)
    (hjournal : disk.journal = some file)
    (hfile : file.Since [tx.journal .intent, tx.journal .prepared] (tx.Wrote [.activated]))
    (hfiles : tx.files? = some files) (hold : tx.old = none)
    (hdestination : disk.destination = some (.snapshot files)) (hstaging : disk.staging = none)
    (hbackup : disk.backup = none) :
    (commitActivation (tx.journal phase)).Ends tx.Shape disk (.ok ())
        { disk with journal := some (file.append (tx.journal .activated)) } ∧
      tx.Shape { disk with journal := some (file.append (tx.journal .activated)) } := by
  obtain ⟨hpersist, hshape⟩ :=
    persistActivated_ends hjournal hfile hfiles hold hdestination hstaging hbackup
  exact ⟨Procedure.Ends.bind hpersist (removeIfPresent_ends_absent _ .backup hshape hbackup), hshape⟩

theorem verifyActiveOrRestoreBackup_installed (hjournal : disk.journal = some file)
    (hfile : file.Since [tx.journal .intent, tx.journal .prepared] (tx.Wrote [.activated]))
    (hfiles : tx.files? = some files) (hold : tx.old = none)
    (hdestination : disk.destination = some (.snapshot files)) (hstaging : disk.staging = none)
    (hbackup : disk.backup = none) :
    (verifyActiveOrRestoreBackup tx.blobs (tx.journal phase)).Meets tx.Settles tx.Shape disk := by
  have hinstalled : tx.Shape disk :=
    .installed file files hjournal hfile hfiles hold hdestination hstaging hbackup
  obtain ⟨hcommit, hshape⟩ :=
    commitActivation_installed disk phase hjournal hfile hfiles hold hdestination hstaging hbackup
  refine (verify_ends disk .destination hinstalled hfiles hdestination).attempt.bind ?_
  refine (removeIfPresent_ends_absent disk .staging hinstalled hstaging).bind ?_
  refine Procedure.Ends.bind hcommit ?_
  exact ⟨⟨⟨_, rfl⟩, .inr ⟨files, hfiles, hdestination⟩, hstaging, hbackup⟩, hshape⟩

/-! ## The recovery of any shape -/

theorem readLatestJournal_eq_ok {journal : DeploymentJournal} :
    readLatestJournal file = .ok journal ↔ file.latest = .ok journal := by
  unfold readLatestJournal
  split <;> simp_all

omit [DecidableEq ε] in
/-- What can be read of a journal of the two first records: the last of them, or a later one. -/
theorem phase_of_read {phases : List DeploymentPhase} {journal : DeploymentJournal}
    (hfile : file.Since [tx.journal .intent, tx.journal .prepared] (tx.Wrote phases))
    (hread : readLatestJournal file = .ok journal) :
    ∃ phase ∈ DeploymentPhase.prepared :: phases, journal = tx.journal phase := by
  rcases hfile.latest (readLatestJournal_eq_ok.mp hread) with hfirst | ⟨phase, hphase, rfl⟩
  · cases hfirst
    exact ⟨.prepared, List.mem_cons_self, rfl⟩
  · exact ⟨phase, List.mem_cons_of_mem _ hphase, rfl⟩

theorem recoverOne_of_read {Q : Except DeploymentError RecoveryOutcome → Disk ε → Prop}
    {C : Disk ε → Prop} {blobs : Blobs ε} {journal : DeploymentJournal}
    (hread : readLatestJournal file = .ok journal)
    (h : (recoverPhase blobs journal disk.destination.isSome disk.staging.isSome
      disk.backup.isSome).Meets Q C disk) : (recoverOne blobs file).Meets Q C disk := by
  unfold recoverOne
  rw [hread]
  exact h

theorem recoverPhase_replacement (hold : tx.old.isSome) (destination staging backup : Bool) :
    recoverPhase tx.blobs (tx.journal .prepared) destination staging backup =
      recoverReplacement tx.blobs (tx.journal .prepared) destination staging backup := if_pos hold

theorem recoverPhase_install (hold : tx.old = none) (destination staging backup : Bool) :
    recoverPhase tx.blobs (tx.journal .prepared) destination staging backup =
      recoverInstall tx.blobs (tx.journal .prepared) destination staging backup := by
  have hnew : ¬ (tx.journal .prepared).replacedExisting = true := by
    simp [Transaction.journal, journalOf, hold]
  exact if_neg hnew

/-- What the recovery makes of a journal that it has read. -/
def Transaction.Handles (tx : Transaction ε) (disk : Disk ε) (journal : DeploymentJournal) : Prop :=
  let recovery := recoverPhase tx.blobs journal disk.destination.isSome disk.staging.isSome
    disk.backup.isSome
  (LostTrackAt disk journal ∧ ∃ e, recovery.Ends tx.Shape disk (.error e) disk) ∨
    ¬ LostTrackAt disk journal ∧ recovery.Meets (tx.Answers disk) tx.Shape disk

/-- While the old target is in its place, the staging directory is what there is to discard. -/
theorem handles_waiting (hjournal : disk.journal = some file)
    (hfile : file.Since [] (tx.Wrote [.intent, .prepared])) (hdestination : disk.destination = tx.old)
    (hstaging : ∀ node ∈ disk.staging, node.isRemovable = true) (hbackup : disk.backup = none)
    (hphase : phase ∈ [DeploymentPhase.intent, .prepared]) : tx.Handles disk (tx.journal phase) := by
  have hdiscard : discardStaging.Meets (tx.Answers disk) tx.Shape disk :=
    Steps.Meets.mono (discardStaging_meets hjournal hfile hdestination hstaging hbackup)
      (fun _ _ h ↦ h.answers hbackup) fun _ h ↦ h
  have hwaiting : tx.Shape disk := .waiting file hjournal hfile hdestination hstaging hbackup
  unfold Transaction.Handles LostTrackAt
  rw [hdestination, hbackup]
  simp only [List.mem_cons, List.not_mem_nil, or_false] at hphase
  rcases hphase with rfl | rfl
  · exact .inr ⟨fun hlost ↦ hlost.1.elim nofun nofun, hdiscard⟩
  · cases hold : tx.old with
    | some old =>
      rw [recoverPhase_replacement (by rw [hold]; rfl)]
      cases disk.staging with
      | some staging => exact .inr ⟨fun hlost ↦ (nomatch hlost.2.1), hdiscard⟩
      | none =>
        have hreplaced : (tx.journal .prepared).replacedExisting = true := by
          simp [Transaction.journal, journalOf, hold]
        exact .inl ⟨⟨.inl rfl, rfl, rfl, .inl hreplaced⟩, _, .fail hwaiting⟩
    | none =>
      rw [recoverPhase_install hold]
      cases disk.staging with
      | some staging => exact .inr ⟨fun hlost ↦ (nomatch hlost.2.1), hdiscard⟩
      | none => exact .inl ⟨⟨.inl rfl, rfl, rfl, .inr rfl⟩, _, .fail hwaiting⟩

/-- Once the old target is aside, the snapshot goes in. -/
theorem handles_parted (hjournal : disk.journal = some file)
    (hfile : file.Since [tx.journal .intent, tx.journal .prepared] (tx.Wrote [.oldMoved]))
    (hfiles : tx.files? = some files) (hold : tx.old.isSome) (hdestination : disk.destination = none)
    (hstaging : disk.staging = some (.snapshot files)) (hbackup : disk.backup = tx.old)
    (hphase : phase ∈ [DeploymentPhase.prepared, .oldMoved]) :
    tx.Handles disk (tx.journal phase) := by
  have hactivate : (activateVerifiedStaging tx.blobs (tx.journal phase)).Meets (tx.Answers disk)
      tx.Shape disk :=
    activateVerifiedStaging_meets hjournal hfile hfiles hold hdestination hstaging hbackup
  unfold Transaction.Handles LostTrackAt
  rw [hdestination, hstaging, hbackup, hold]
  refine .inr ⟨fun hlost ↦ (nomatch hlost.2.1), ?_⟩
  simp only [List.mem_cons, List.not_mem_nil, or_false] at hphase
  rcases hphase with rfl | rfl
  · rw [recoverPhase_replacement hold]
    exact hactivate
  · exact hactivate

/-- Once the snapshot is in, the journal says so or the backup does. -/
theorem handles_replaced (hjournal : disk.journal = some file)
    (hfile : file.Since [tx.journal .intent, tx.journal .prepared] (tx.Wrote [.oldMoved, .activated]))
    (hfiles : tx.files? = some files) (hold : tx.old.isSome)
    (hdestination : disk.destination = some (.snapshot files)) (hstaging : disk.staging = none)
    (hphase : phase ∈ [DeploymentPhase.prepared, .oldMoved, .activated]) :
    tx.Handles disk (tx.journal phase) := by
  have hreplaced : tx.Shape disk :=
    .replaced file files hjournal hfile hfiles hold hdestination hstaging
  have hverify : (verifyActiveOrRestoreBackup tx.blobs (tx.journal phase)).Meets (tx.Answers disk)
      tx.Shape disk := verifyActiveOrRestoreBackup_meets hjournal hfile hfiles hold hdestination hstaging
  unfold Transaction.Handles LostTrackAt
  rw [hdestination, hstaging]
  simp only [List.mem_cons, List.not_mem_nil, or_false] at hphase
  rcases hphase with rfl | rfl | rfl
  · rw [recoverPhase_replacement hold]
    cases disk.backup with
    | some backup => exact .inr ⟨fun hlost ↦ (nomatch hlost.2.2.1), hverify⟩
    | none => exact .inl ⟨⟨.inl rfl, rfl, rfl, .inl hold⟩, _, .fail hreplaced⟩
  · cases disk.backup with
    | some backup => exact .inr ⟨fun hlost ↦ (nomatch hlost.2.2.1), hverify⟩
    | none => exact .inl ⟨⟨.inr rfl, rfl, rfl, .inl hold⟩, _, .fail hreplaced⟩
  · exact .inr ⟨fun hlost ↦ hlost.1.elim nofun nofun, hverify⟩

theorem handles_installed (hjournal : disk.journal = some file)
    (hfile : file.Since [tx.journal .intent, tx.journal .prepared] (tx.Wrote [.activated]))
    (hfiles : tx.files? = some files) (hold : tx.old = none)
    (hdestination : disk.destination = some (.snapshot files)) (hstaging : disk.staging = none)
    (hbackup : disk.backup = none) (hphase : phase ∈ [DeploymentPhase.prepared, .activated]) :
    tx.Handles disk (tx.journal phase) := by
  unfold Transaction.Handles LostTrackAt
  have hanswers : ∀ {recovery : Deploy ε RecoveryOutcome}, recovery.Meets tx.Settles tx.Shape disk →
      recovery.Meets (tx.Answers disk) tx.Shape disk :=
    fun h ↦ Steps.Meets.mono h (fun _ _ h ↦ h.answers hbackup) fun _ h ↦ h
  rw [hdestination, hstaging, hbackup]
  simp only [List.mem_cons, List.not_mem_nil, or_false] at hphase
  right
  rcases hphase with rfl | rfl
  · rw [recoverPhase_install hold]
    refine ⟨fun hlost ↦ hlost.2.2.2.elim (fun hreplaced ↦ ?_) nofun, hanswers ?_⟩
    · simp [Transaction.journal, journalOf, hold] at hreplaced
    · exact verifyActiveWithoutBackup_meets hjournal hfile hfiles hold hdestination hstaging hbackup
  · refine ⟨fun hlost ↦ hlost.1.elim nofun nofun, hanswers ?_⟩
    exact verifyActiveOrRestoreBackup_installed hjournal hfile hfiles hold hdestination hstaging
      hbackup

/-- The journal that a crash leaves is of the transaction, and the recovery handles it. -/
theorem Transaction.Shape.handles {journal : DeploymentJournal} (hshape : tx.Shape disk)
    (hjournal : disk.journal = some file) (hread : readLatestJournal file = .ok journal) :
    tx.Handles disk journal := by
  cases hshape with
  | idle hnone => rw [hjournal] at hnone; cases hnone
  | waiting file' hjournal' hfile hdestination hstaging hbackup =>
    cases hjournal.symm.trans hjournal'
    rcases hfile.latest (readLatestJournal_eq_ok.mp hread) with hfirst | ⟨phase, hphase, rfl⟩
    · cases hfirst
    · exact handles_waiting hjournal hfile hdestination hstaging hbackup hphase
  | parted file' files hjournal' hfile hfiles hold hdestination hstaging hbackup =>
    cases hjournal.symm.trans hjournal'
    obtain ⟨phase, hphase, rfl⟩ := phase_of_read hfile hread
    exact handles_parted hjournal hfile hfiles hold hdestination hstaging hbackup hphase
  | replaced file' files hjournal' hfile hfiles hold hdestination hstaging =>
    cases hjournal.symm.trans hjournal'
    obtain ⟨phase, hphase, rfl⟩ := phase_of_read hfile hread
    exact handles_replaced hjournal hfile hfiles hold hdestination hstaging hphase
  | installed file' files hjournal' hfile hfiles hold hdestination hstaging hbackup =>
    cases hjournal.symm.trans hjournal'
    obtain ⟨phase, hphase, rfl⟩ := phase_of_read hfile hread
    exact handles_installed hjournal hfile hfiles hold hdestination hstaging hbackup hphase

/-- A lost transaction is reported and left alone; any other one is settled, if the backup can be
removed. -/
theorem recoverOne_spec (hshape : tx.Shape disk) (hjournal : disk.journal = some file) :
    (LostTrack disk ∧ ∃ e, (recoverOne tx.blobs file).Ends tx.Shape disk (.error e) disk) ∨
      ¬ LostTrack disk ∧ (recoverOne tx.blobs file).Meets (tx.Answers disk) tx.Shape disk := by
  cases hread : readLatestJournal file with
  | error e =>
    refine .inl ⟨⟨file, hjournal, fun journal h ↦ ?_⟩, e, ?_⟩
    · rw [hread] at h
      cases h
    · unfold recoverOne
      rw [hread]
      exact ⟨⟨rfl, rfl⟩, hshape⟩
  | ok journal =>
    have hlost : LostTrack disk ↔ LostTrackAt disk journal := by
      simp only [LostTrack, hjournal, Option.mem_some_iff, exists_eq_left', hread, Except.ok.injEq,
        forall_eq']
    rw [hlost]
    rcases hshape.handles hjournal hread with ⟨hlost, e, hends⟩ | ⟨hkept, hmeets⟩
    · exact .inl ⟨hlost, e, recoverOne_of_read hread hends⟩
    · exact .inr ⟨hkept, recoverOne_of_read hread hmeets⟩

end Shapes

end Deployment

end SkillHive
