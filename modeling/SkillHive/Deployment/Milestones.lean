import SkillHive.Deployment.Journals

/-!
# How far a command gets

A deployment that is cut off before its fourth operation, or of which a file is missing, leaves
its target alone. An uninstall leaves it alone up to the second operation. From the fourth one on,
either the row of the catalog is gone as well, or the target is back.
-/

namespace SkillHive

open Foundation

namespace Deployment

variable {ε : Type} [DecidableEq ε] {tx : Transaction ε} {n : ℕ} {point : Point ε} {disk : Disk ε}

/-! ## Deployments -/

omit [DecidableEq ε] in
theorem persistJournal_keeps (journal : DeploymentJournal) (node : Option (Node ε)) :
    (persistJournal journal : Deploy ε Unit).Preserves fun disk ↦ disk.destination = node :=
  fun disk h ↦ (persistJournal_ends disk journal h (fun _ ↦ h) h).meets h

omit [DecidableEq ε] in
theorem writeStaging_keeps (files : List ε) (node : Option (Node ε)) :
    (writeStaging files).Preserves fun disk ↦ disk.destination = node :=
  fun disk h ↦ (writeStaging_ends disk files fun _ _ ↦ h).meets h

omit [DecidableEq ε] in
theorem set_destination (disk : Disk ε) (node : Option (Node ε)) {place : Place}
    (hplace : place ≠ .destination) : (disk.set node place).destination = disk.destination := by
  cases place with
  | destination => exact absurd rfl hplace
  | staging => rfl
  | backup => rfl

theorem removeAny_keeps {place : Place} (hplace : place ≠ .destination) (node : Option (Node ε)) :
    (removeAny place).Preserves fun disk : Disk ε ↦ disk.destination = node :=
  removeAny_preserves fun disk _ h ↦ (set_destination disk _ hplace).trans h

theorem removeIfPresent_keeps {place : Place} (hplace : place ≠ .destination)
    (node : Option (Node ε)) :
    (removeIfPresent place).Preserves fun disk : Disk ε ↦ disk.destination = node := by
  refine .bind (.bind .look fun disk ↦ .pure _) fun present ↦ ?_
  split
  · exact removeAny_keeps hplace node
  · exact .pure _

theorem abandonStaging_keeps (e : DeploymentError) (node : Option (Node ε)) :
    (abandonStaging e).Preserves fun disk : Disk ε ↦ disk.destination = node := by
  have hclose : (removeJournal : Deploy ε Unit).Preserves fun disk ↦ disk.destination = node :=
    fun disk h ↦ (removeJournal_ends disk h h).meets h
  exact .bind (removeIfPresent_keeps (by decide) node).attempt fun _ ↦ .bind hclose.attempt fun _ ↦ .fail e

theorem verify_keeps (blobs : Blobs ε) (snapshotHash : String) (place : Place)
    (node : Option (Node ε)) :
    (verifyMaterializedSnapshot blobs snapshotHash place).Preserves fun disk : Disk ε ↦
      disk.destination = node := by
  refine .bind .look fun disk ↦ ?_
  split
  · exact .pure _
  · exact .fail _

theorem prepareStaging_keeps (blobs : Blobs ε) (journal : DeploymentJournal)
    (node : Option (Node ε)) :
    (prepareStaging blobs journal).Preserves fun disk ↦ disk.destination = node := by
  refine .bind ?_ fun _ ↦ .bind (verify_keeps _ _ _ _) fun _ ↦ persistJournal_keeps _ _
  unfold materializeSnapshot
  split
  · exact .fail _
  · split
    · exact writeStaging_keeps _ _
    · exact .bind (writeStaging_keeps _ _) fun _ ↦
        .bind (removeAny_keeps (by decide) node).attempt fun _ ↦ .fail _

/-- The target, if the deployment has not got as far as moving it. -/
def Transaction.KeepsOld (tx : Transaction ε) (n : ℕ) (disk : Disk ε) : Prop :=
  (tx.Served → n ≤ 3) → disk.destination = tx.old

theorem activate_countsFrom (blobs : Blobs ε) (journal : DeploymentJournal)
    (h : disk.destination = tx.old) (hserved : tx.Served) :
    (activate blobs journal disk).CountsFrom tx.KeepsOld 3 disk := by
  have hrest : ∀ (steps : Steps (Disk ε) (Point ε) (Except DeploymentError DeploymentResult)) disk,
      steps.CountsFrom tx.KeepsOld 4 disk := by
    refine fun steps disk ↦ (Steps.meets_trivial steps disk).countsFrom fun n _ hn _ hearly ↦ ?_
    exact absurd (hearly hserved) (by omega)
  have hmove : ∀ (run : Disk ε → Disk ε) (point : Point ε) disk',
      (atomic run).cut point disk = some disk' → tx.KeepsOld 3 disk' := by
    intro run point disk' hcut _
    rw [atomic_cut hcut, h]
  unfold activate
  split
  · exact ⟨hmove _, hrest _ _⟩
  · exact ⟨hmove _, hrest _ _⟩

/-- A deployment after its staging directory is prepared, or could not be. -/
def Transaction.resume (tx : Transaction ε) : Except DeploymentError Unit → Deploy ε DeploymentResult
  | .error error => abandonStaging error
  | .ok () => activate tx.blobs (tx.journal .intent)

/-- A deployment after its first record. -/
def Transaction.proceed (tx : Transaction ε) : Deploy ε DeploymentResult :=
  (prepareStaging tx.blobs (tx.journal .intent)).attempt >>= tx.resume

/-- The disk of a deployment after its first record. -/
def Transaction.begun (tx : Transaction ε) : Disk ε := ⟨tx.old, none, none, some tx.opened⟩

/-- Two operations prepare the staging directory. -/
theorem proceed_served (hserved : tx.Served) :
    (tx.proceed tx.begun).CountsFrom tx.KeepsOld 1 tx.begun := by
  obtain ⟨files, hfiles, hall⟩ := id hserved
  have hmanifest : tx.blobs.manifest (tx.journal .intent).snapshotHash = some files := hfiles
  have hprepared : prepareStaging tx.blobs (tx.journal .intent) =
      writeStaging files >>= fun _ ↦
        verifyMaterializedSnapshot tx.blobs (tx.journal .intent).snapshotHash .staging >>= fun _ ↦
          persistJournal (tx.journal .prepared) := by
    unfold prepareStaging materializeSnapshot
    rw [hmanifest]
    dsimp only
    rw [if_pos (show files.length ≤ tx.blobs.served (tx.journal .intent).snapshotHash from hall)]
    rfl
  set staged : Disk ε := { tx.begun with staging := some (.snapshot files) }
  have hverified : verifyMaterializedSnapshot tx.blobs (tx.journal .intent).snapshotHash .staging
      staged = .done (.ok ()) := by
    refine congrFun (if_pos ?_) _
    simp [hmanifest, Disk.get, staged]
  have hrecord : ((verifyMaterializedSnapshot tx.blobs (tx.journal .intent).snapshotHash .staging >>=
      fun _ ↦ persistJournal (tx.journal .prepared)).attempt >>= tx.resume) staged =
        ((persistJournal (tx.journal .prepared)).attempt >>= tx.resume) staged :=
    congrArg (fun steps : Steps (Disk ε) (Point ε) (Except DeploymentError Unit) ↦
      (Procedure.attempt.keep (steps.andThen (fun _ ↦ persistJournal (tx.journal .prepared))
        staged)).andThen tx.resume staged) hverified
  have hstaged : (((verifyMaterializedSnapshot tx.blobs (tx.journal .intent).snapshotHash .staging >>=
      fun _ ↦ persistJournal (tx.journal .prepared)).attempt >>= tx.resume) staged).CountsFrom
        tx.KeepsOld 2 staged := by
    rw [hrecord]
    refine ⟨fun point disk hcut _ ↦ ?_, activate_countsFrom _ _ rfl hserved⟩
    obtain ⟨file, -, rfl⟩ := Option.map_eq_some_iff.mp hcut
    rfl
  unfold Transaction.proceed
  rw [hprepared]
  refine ⟨fun point disk hcut _ ↦ ?_, hstaged⟩
  obtain ⟨staging, -, rfl⟩ := Option.map_eq_some_iff.mp hcut
  rfl

/-- A file is missing. -/
theorem proceed_unserved (hunserved : ¬ tx.Served) :
    (tx.proceed tx.begun).CountsFrom tx.KeepsOld 1 tx.begun := by
  have hbegun : tx.begun.destination = tx.old := rfl
  have hprepare : (prepareStaging tx.blobs (tx.journal .intent)).Meets
      (fun result disk ↦ result = .error .snapshot ∧ disk.destination = tx.old)
      (fun disk ↦ disk.destination = tx.old) tx.begun := by
    refine Steps.Meets.mono (Steps.Meets.and (prepareStaging_error hunserved)
      (prepareStaging_keeps tx.blobs (tx.journal .intent) tx.old tx.begun hbegun)) ?_ ?_
    · exact fun result disk h ↦ ⟨h.1.1, h.2⟩
    · exact fun disk h ↦ h.2
  have hkept : tx.proceed.Meets (fun _ _ ↦ True) (fun disk ↦ disk.destination = tx.old) tx.begun := by
    refine Procedure.Meets.bind (Q := fun result disk ↦
      result = .ok (.error .snapshot) ∧ disk.destination = tx.old) (.attempt ?_) ?_ ?_
    · exact Steps.Meets.mono hprepare (fun result disk h ↦ ⟨congrArg _ h.1, h.2⟩) fun _ h ↦ h
    · rintro _ disk ⟨⟨⟩, h⟩ -
      exact Steps.Meets.mono (abandonStaging_keeps .snapshot tx.old disk h) (fun _ _ _ ↦ trivial)
        fun _ h ↦ h
    · exact fun _ _ _ ↦ trivial
  exact Steps.Meets.countsFrom hkept fun _ _ _ h _ ↦ h

/-- A deployment changes its target only if every file of the snapshot is there, and only after
three operations. -/
theorem deploy_countsFrom (tx : Transaction ε) :
    (tx.deploy tx.start).CountsFrom tx.KeepsOld 0 tx.start := by
  refine ⟨fun point disk' hcut _ ↦ ?_, ?_⟩
  · obtain ⟨file, -, rfl⟩ := Option.map_eq_some_iff.mp hcut
    rfl
  · by_cases hserved : tx.Served
    · exact proceed_served hserved
    · exact proceed_unserved hserved

/-- The target is as it was if a file is missing or the deployment does less than four operations. -/
theorem deploy_keepsOld {cut : Option (ℕ × Point ε)}
    {result : Option (Except DeploymentError DeploymentResult)}
    (hrun : tx.deploy.runUntil cut tx.start = some (result, disk))
    (h : ¬ (tx.Served ∧ Procedure.reaches 4 cut = true)) : disk.destination = tx.old := by
  obtain ⟨n, hkept, hcount⟩ := Procedure.runUntil_counts (deploy_countsFrom tx) hrun 0
  refine hkept fun hserved ↦ ?_
  cases cut with
  | none => exact absurd ⟨hserved, rfl⟩ h
  | some stop =>
    cases hcount
    by_contra hlate
    exact h ⟨hserved, decide_eq_true (by omega)⟩

end Deployment

/-! ## Uninstalls -/

namespace Uninstall

open Deployment

variable {ε : Type} [DecidableEq ε]

/-- What an uninstall of a target that is there has done to the target and the catalog. -/
structure Uninstallation.Milestones (un : Uninstallation ε) (n : ℕ) (machine : Machine ε) : Prop where
  early : n ≤ 1 → machine.target = un.target ∧ machine.installed = true
  committed : un.commits = true → 4 ≤ n → machine.installed = false
  restored : un.commits = false → 4 ≤ n → machine.target = un.target ∧ machine.installed = true

omit [DecidableEq ε] in
theorem Uninstallation.milestones_of_lt (un : Uninstallation ε) {n : ℕ} (hlow : 2 ≤ n) (hhigh : n ≤ 3)
    (machine : Machine ε) : un.Milestones n machine where
  early h := absurd h (by omega)
  committed _ h := absurd h (by omega)
  restored _ h := absurd h (by omega)

/-- What is left to do after the catalog has removed its row does not bring it back. -/
theorem finish_meets (transactionId : String) (f : Bool → UninstallSkillFromAgentResult)
    (machine : Machine ε) :
    (finalizeCommand (some transactionId) >>= fun pending ↦ pure (f pending)).Meets
      (fun _ ↦ Reconciling machine) (Reconciling machine) machine := by
  have hfinalize : (finalizeCommand (some transactionId)).Preserves (Reconciling machine) := by
    refine .bind (finalize_preserves transactionId).attempt fun result ↦ ?_
    cases result <;> exact .pure _
  exact (hfinalize.bind fun pending ↦ .pure (f pending)) machine (.refl machine)

/-- Of an uninstall that finds its target, the first operation writes a record, the second one
moves the target and the third one records that. The fourth one removes the row, or takes the
target back. -/
theorem uninstall_countsFrom (un : Uninstallation ε) (hold : un.target.isSome) :
    (uninstallSkillFromAgent un.commits un.transactionId un.request un.start).CountsFrom
      un.Milestones 0 un.start := by
  obtain ⟨transactionId, request, target, commits⟩ := un
  obtain ⟨old, rfl⟩ := Option.isSome_iff_exists.mp hold
  have hbegun : ∀ n ≤ 1, ∀ journal : Option (LogFile UninstallJournal),
      (⟨transactionId, request, some old, commits⟩ : Uninstallation ε).Milestones n
        ⟨some old, none, journal, true⟩ :=
    fun n hn journal ↦ ⟨fun _ ↦ ⟨rfl, rfl⟩, fun _ h ↦ absurd h (by omega), fun _ h ↦ absurd h (by omega)⟩
  have hmoved : ∀ n, 2 ≤ n → n ≤ 3 → ∀ machine : Machine ε,
      (⟨transactionId, request, some old, commits⟩ : Uninstallation ε).Milestones n machine :=
    fun n ↦ Uninstallation.milestones_of_lt _
  refine ⟨fun point machine hcut ↦ ?_, fun point machine hcut ↦ ?_, fun point machine hcut ↦ ?_, ?_⟩
  · obtain ⟨file, -, rfl⟩ := Option.map_eq_some_iff.mp hcut
    exact hbegun 0 (by omega) file
  · rw [atomic_cut hcut]
    exact hbegun 1 (Nat.le_refl _) _
  · exact hmoved 2 (by omega) (by omega) machine
  cases commits with
  | false =>
    refine ⟨fun point machine hcut ↦ hmoved 3 (by omega) (by omega) machine, fun point machine hcut ↦ ?_, ?_⟩
    · rw [atomic_cut hcut]
      exact ⟨fun h ↦ absurd h (by omega), nofun, fun _ _ ↦ ⟨rfl, rfl⟩⟩
    · exact fun n hn ↦ ⟨fun h ↦ absurd h (by omega), nofun, fun _ _ ↦ ⟨rfl, rfl⟩⟩
  | true =>
    refine ⟨fun point machine hcut ↦ hmoved 3 (by omega) (by omega) machine, ?_⟩
    refine Steps.Meets.countsFrom (finish_meets transactionId _ _) fun n machine hn h ↦ ?_
    exact ⟨fun h ↦ absurd h (by omega), fun _ _ ↦ h.installed, nofun⟩

/-- The uninstall gets as far as moving its target, and does not get as far as taking it back. -/
def takesTarget (commits : Bool) (cut : Option (ℕ × Point ε)) : Bool :=
  Procedure.reaches 2 cut && (commits || cut.any fun stop ↦ stop.1 ≤ 3)

variable {un : Uninstallation ε} {cut : Option (ℕ × Point ε)} {machine : Machine ε}
  {result : Option (Except CommandError UninstallSkillFromAgentResult)}

theorem uninstall_keeps (hold : un.target.isSome)
    (hrun : (uninstallSkillFromAgent un.commits un.transactionId un.request).runUntil cut un.start =
      some (result, machine)) (h : takesTarget un.commits cut = false) :
    machine.target = un.target ∧ machine.installed = true := by
  obtain ⟨n, hmilestones, hcount⟩ :=
    Procedure.runUntil_counts (uninstall_countsFrom un hold) hrun 4
  cases cut with
  | none =>
    have hfails : un.commits = false := by simpa [takesTarget, Procedure.reaches] using h
    exact hmilestones.restored hfails hcount
  | some stop =>
    cases hcount
    by_cases hearly : stop.1 ≤ 1
    · exact hmilestones.early hearly
    · have hback : 2 ≤ stop.1 → un.commits = false ∧ 3 < stop.1 := by
        simpa [takesTarget, Procedure.reaches] using h
      obtain ⟨hfails, hlate⟩ := hback (by omega)
      exact hmilestones.restored hfails hlate

/-- An uninstall that moves its target and gets to its fourth operation has removed the row. -/
theorem uninstall_removes (hold : un.target.isSome)
    (hrun : (uninstallSkillFromAgent un.commits un.transactionId un.request).runUntil cut un.start =
      some (result, machine)) (h : takesTarget un.commits cut = true)
    (hlate : Procedure.reaches 4 cut = true) : machine.installed = false := by
  obtain ⟨n, hmilestones, hcount⟩ :=
    Procedure.runUntil_counts (uninstall_countsFrom un hold) hrun 4
  cases cut with
  | none =>
    have hcommits : un.commits = true := by simpa [takesTarget, Procedure.reaches] using h
    exact hmilestones.committed hcommits hcount
  | some stop =>
    cases hcount
    have hfour : 4 ≤ stop.1 := by simpa [Procedure.reaches] using hlate
    have hcommits : un.commits = true := by
      obtain ⟨-, hcommits | hearly⟩ : 2 ≤ stop.1 ∧ (un.commits = true ∨ stop.1 ≤ 3) := by
        simpa [takesTarget, Procedure.reaches] using h
      · exact hcommits
      · exact absurd hearly (by omega)
    exact hmilestones.committed hcommits hfour

end Uninstall

end SkillHive
