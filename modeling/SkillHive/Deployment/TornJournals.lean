import SkillHive.Deployment.Crashes
import SkillHive.Deployment.UninstallRuns
import SkillHive.Foundation.LogBytes

/-!
# Journals after crashes

A journal is the bytes that the calls of `persist_journal` have left in its file. A line that a
crash left unfinished stays there: the next record is appended to it, and the two are no record.
So what a later call wrote may never be read, and a journal whose first record was cut off is
reported by every recovery.
-/

namespace SkillHive

open Foundation

namespace Deployment

/-- What an engine does with a journal: the record that it reads, and whether its recovery can
fail for good. -/
structure Reader (ρ : Type) where
  reads : LogFile ρ → ρ → Prop
  fails : LogFile ρ → Prop

/-- What is read is the last record whose call returned or a later complete one, and a journal
without a complete record does no lasting harm. -/
structure CrashConsistent {ρ : Type} (format : Format ρ) (reader : Reader ρ)
    (persists : List (Format.Persist ρ)) : Prop where
  reads : ∀ since, LogFile.SinceReturned (persists.map format.writeOf) since →
    ∃ w ∈ since, w.complete = true ∧
      reader.reads (format.logFile (format.fileBytes persists)) w.record
  recovers : (∀ w ∈ persists.map format.writeOf, w.complete = false) → persists ≠ [] →
    ¬ reader.fails (format.logFile (format.fileBytes persists))

theorem crashConsistent_iff {ρ : Type} {format : Format ρ} {reader : Reader ρ}
    {persists : List (Format.Persist ρ)} (hformat : format.Legible (persists.map (·.record)))
    (hreads : ∀ file r, reader.reads file r ↔ file.latest = .ok r)
    (hfails : ∀ file e, file.latest = .error e → reader.fails file) :
    CrashConsistent format reader persists ↔
      LogFile.Recoverable (persists.map format.writeOf) := by
  have hunhidden := LogFile.readsLatest_iff (persists.map format.writeOf)
  unfold LogFile.ReadsLatest at hunhidden
  rw [← Format.logFile_fileBytes hformat] at hunhidden
  simp only [← hreads] at hunhidden
  constructor
  · intro h
    refine ⟨hunhidden.mp h.reads, ?_⟩
    by_contra hnot
    obtain ⟨hwrites, hnone⟩ := not_or.mp hnot
    have hcomplete : ∀ w ∈ persists.map format.writeOf, w.complete = false :=
      fun w hw ↦ Bool.eq_false_iff.mpr fun htrue ↦ hnone ⟨w, hw, htrue⟩
    obtain ⟨e, hlatest⟩ := LogFile.latest_of_none_complete hcomplete
    rw [← Format.logFile_fileBytes hformat] at hlatest
    exact h.recovers hcomplete (fun hnil ↦ hwrites (by rw [hnil]; rfl)) (hfails _ e hlatest)
  · intro h
    refine ⟨hunhidden.mpr h.unhidden, fun hcomplete hpersists ↦ ?_⟩
    rcases h.begun with hnil | ⟨w, hw, htrue⟩
    · exact absurd (List.map_eq_nil_iff.mp hnil) hpersists
    · rw [hcomplete w hw] at htrue
      cases htrue

section Engine

variable {ε : Type} [DecidableEq ε]

/-- The recovery reports a failure and leaves all as it is, so it will report it again. -/
def FailsForGood (blobs : Blobs ε) (disk : Disk ε) : Prop :=
  ∃ report, (recoverIncomplete blobs).exec disk = (.ok report, disk) ∧ report.failed ≠ []

variable (ε) in
def deploymentReader : Reader DeploymentJournal where
  reads file journal := readLatestJournal file = .ok journal
  fails file := ∃ (blobs : Blobs ε) (disk : Disk ε),
    disk.journal = some file ∧ FailsForGood blobs disk

theorem failsForGood_of_error {blobs : Blobs ε} {disk : Disk ε} {file : LogFile DeploymentJournal}
    {e : LogError} (hjournal : disk.journal = some file) (hlatest : file.latest = .error e) :
    FailsForGood blobs disk := by
  have hread : ∃ error, readLatestJournal file = .error error := by
    unfold readLatestJournal
    rw [hlatest]
    cases e with
    | noRecord => exact ⟨_, rfl⟩
    | serialization => exact ⟨_, rfl⟩
    | decoding => exact ⟨_, rfl⟩
  obtain ⟨error, herror⟩ := hread
  refine ⟨⟨0, 0, [], [error]⟩, ?_, List.cons_ne_nil _ _⟩
  unfold Procedure.exec
  rw [recoverIncomplete_eq hjournal, recoverOne, herror]
  rfl

omit [DecidableEq ε] in
/-- The engine's `persist_journal` is one write, which returns or is cut off. -/
theorem persistJournal_write (disk : Disk ε) (journal : DeploymentJournal) :
    ((persistJournal journal).exec disk).2.journal =
        some (Write.apply (disk.journal.getD .empty) ⟨journal, .returned⟩) ∧
      ∀ point, ((persistJournal journal).cutOff disk 0 (.append point)).map (·.journal) =
        some (some (Write.apply (disk.journal.getD .empty) ⟨journal, .cut point⟩)) :=
  ⟨rfl, fun _ ↦ rfl⟩

end Engine

end Deployment

namespace Uninstall

open Deployment

variable {ε : Type}

def FailsForGood (machine : Machine ε) : Prop :=
  ∃ report, recoverPending.exec machine = (.ok report, machine) ∧ report.failed ≠ []

variable (ε) in
def uninstallReader : Reader UninstallJournal where
  reads file journal := readLatestJournal file = .ok journal
  fails file := ∃ machine : Machine ε, machine.journal = some file ∧ FailsForGood machine

theorem failsForGood_of_error {machine : Machine ε} {file : LogFile UninstallJournal} {e : LogError}
    (hjournal : machine.journal = some file) (hlatest : file.latest = .error e) :
    FailsForGood machine := by
  have hread : ∃ error, readLatestJournal file = .error error := by
    unfold readLatestJournal
    rw [hlatest]
    cases e with
    | noRecord => exact ⟨_, rfl⟩
    | serialization => exact ⟨_, rfl⟩
    | decoding => exact ⟨_, rfl⟩
  obtain ⟨error, herror⟩ := hread
  refine ⟨⟨[], 0, [error]⟩, ?_, List.cons_ne_nil _ _⟩
  have hrecover : (recoverPending : Engine ε UninstallRecoveryReport) machine =
      ((recoverJournal file).attempt >>= fun outcome ↦ pure (pendingOf outcome)) machine := by
    obtain ⟨target, quarantine, journal, installed⟩ := machine
    cases hjournal
    rfl
  unfold Procedure.exec
  rw [hrecover, recoverJournal, herror]
  rfl

theorem persistJournal_write (machine : Machine ε) (journal : UninstallJournal) :
    ((persistJournal journal).exec machine).2.journal =
        some (Write.apply (machine.journal.getD .empty) ⟨journal, .returned⟩) ∧
      ∀ point, ((persistJournal journal).cutOff machine 0 (.append point)).map (·.journal) =
        some (some (Write.apply (machine.journal.getD .empty) ⟨journal, .cut point⟩)) :=
  ⟨rfl, fun _ ↦ rfl⟩

end Uninstall

namespace Deployment

theorem deployments_consistent_iff {ε : Type} [DecidableEq ε] {format : Format DeploymentJournal}
    {persists : List (Format.Persist DeploymentJournal)}
    (hformat : format.Legible (persists.map (·.record))) :
    CrashConsistent format (deploymentReader ε) persists ↔
      LogFile.Recoverable (persists.map format.writeOf) := by
  refine crashConsistent_iff hformat (fun _ _ ↦ readLatestJournal_eq_ok) fun file e h ↦ ?_
  exact ⟨⟨fun _ ↦ none, fun _ ↦ 0⟩, ⟨none, none, none, some file⟩, rfl, failsForGood_of_error rfl h⟩

theorem uninstalls_consistent_iff {ε : Type} {format : Format Uninstall.UninstallJournal}
    {persists : List (Format.Persist Uninstall.UninstallJournal)}
    (hformat : format.Legible (persists.map (·.record))) :
    CrashConsistent format (Uninstall.uninstallReader ε) persists ↔
      LogFile.Recoverable (persists.map format.writeOf) := by
  refine crashConsistent_iff hformat (fun _ _ ↦ Uninstall.readLatestJournal_eq_ok) fun file e h ↦ ?_
  exact ⟨⟨none, none, some file, false⟩, rfl, Uninstall.failsForGood_of_error rfl h⟩

/-- Both journals are consistent after exactly the same writes. -/
theorem journals_consistent_iff {ε : Type} [DecidableEq ε]
    {deployments : Format DeploymentJournal} {uninstalls : Format Uninstall.UninstallJournal}
    {persists : List (Format.Persist DeploymentJournal)}
    {persists' : List (Format.Persist Uninstall.UninstallJournal)}
    (hdeployments : deployments.Legible (persists.map (·.record)))
    (huninstalls : uninstalls.Legible (persists'.map (·.record))) :
    (CrashConsistent deployments (deploymentReader ε) persists ↔
        LogFile.Recoverable (persists.map deployments.writeOf)) ∧
      (CrashConsistent uninstalls (Uninstall.uninstallReader ε) persists' ↔
        LogFile.Recoverable (persists'.map uninstalls.writeOf)) :=
  ⟨deployments_consistent_iff hdeployments, uninstalls_consistent_iff huninstalls⟩

/-! ## A torn record and an empty journal -/

section Sample

/-- The journal of a replacement in one of its phases. -/
def sampleJournal (phase : DeploymentPhase) : DeploymentJournal where
  transactionId := "t"
  skillId := "s"
  agentProfileId := "a"
  snapshotHash := "h"
  targetPath := "/r/d"
  replacedExisting := true
  phase := phase

/-- `rename_all = "snake_case"` -/
def phaseText : DeploymentPhase → String
  | .intent => "intent"
  | .prepared => "prepared"
  | .oldMoved => "old_moved"
  | .activated => "activated"

/-- A member of an object, whose value is a text without escapes. -/
def member (name : String) (value : List Char) : List Char :=
  '"' :: (name.toList ++ ['"', ':', '"'] ++ value ++ ['"'])

theorem member_phase_injective {phase phase' : DeploymentPhase}
    (h : member "phase" (phaseText phase).toList = member "phase" (phaseText phase').toList) :
    phase = phase' := by
  revert h
  cases phase <;> cases phase' <;> decide +kernel

/-- The object of a journal whose texts need no escapes, in the skill root `/r`. -/
def sampleText (journal : DeploymentJournal) : String :=
  Format.objectText
    [member "transaction_id" journal.transactionId.toList,
      member "skill_id" journal.skillId.toList,
      member "agent_profile_id" journal.agentProfileId.toList,
      member "snapshot_hash" journal.snapshotHash.toList,
      member "skill_root" ['/', 'r'],
      member "destination" journal.targetPath.toList,
      member "staging" ("/r/.skillhive-stage-".toList ++ journal.transactionId.toList),
      member "backup" ("/r/.skillhive-backup-".toList ++ journal.transactionId.toList),
      "\"replaced_existing\":".toList ++ (if journal.replacedExisting then "true" else "false").toList]
    (member "phase" (phaseText journal.phase).toList)

def sampleRecords : List DeploymentJournal :=
  [.intent, .prepared, .oldMoved, .activated].map sampleJournal

def sampleFormat : Format DeploymentJournal := Format.ofRecords sampleText sampleRecords

theorem sampleFormat_legible : sampleFormat.Legible sampleRecords := by
  refine Format.legible_ofRecords (fun r hr ↦ Format.flatObject_objectText ?_) fun r hr r' hr' heq ↦ ?_
  · revert r
    decide +kernel
  · obtain ⟨phase, -, rfl⟩ := List.mem_map.mp hr
    obtain ⟨phase', -, rfl⟩ := List.mem_map.mp hr'
    have hphase : member "phase" (phaseText phase).toList =
        member "phase" (phaseText phase').toList := Format.objectText_inj.mp heq
    rw [member_phase_injective hphase]

/-- The third record is cut off after its first byte, and the recovery activates what is staged. -/
def samplePersists : List (Format.Persist DeploymentJournal) :=
  [⟨sampleJournal .intent, none⟩, ⟨sampleJournal .prepared, none⟩,
    ⟨sampleJournal .oldMoved, some 1⟩, ⟨sampleJournal .activated, none⟩]

def removalJournal : Uninstall.UninstallJournal where
  transactionId := "t"
  skillId := "s"
  agentProfileId := "a"
  skillRoot := "/r"
  targetPath := "/r/d"
  quarantinedPath := "/r/.skillhive-remove-t"
  phase := .intent

def removalText (journal : Uninstall.UninstallJournal) : String :=
  Format.objectText
    [member "transaction_id" journal.transactionId.toList,
      member "skill_id" journal.skillId.toList,
      member "agent_profile_id" journal.agentProfileId.toList,
      member "skill_root" journal.skillRoot.toList,
      member "target_path" journal.targetPath.toList,
      member "quarantined_path" journal.quarantinedPath.toList]
    (member "phase" (match journal.phase with | .intent => "intent" | .moved => "moved").toList)

def removalFormat : Format Uninstall.UninstallJournal :=
  Format.ofRecords removalText [removalJournal]

theorem removalFormat_legible : removalFormat.Legible [removalJournal] := by
  refine Format.legible_ofRecords (fun r hr ↦ Format.flatObject_objectText ?_) fun r hr r' hr' _ ↦ ?_
  · revert r
    decide +kernel
  · rw [List.mem_singleton.mp hr, List.mem_singleton.mp hr']

/-- The first call is cut off when its file is there, with nothing in it. -/
def removalPersists : List (Format.Persist Uninstall.UninstallJournal) := [⟨removalJournal, some 0⟩]

theorem sampleWrites : ∃ decodes, samplePersists.map sampleFormat.writeOf =
    [⟨sampleJournal .intent, .returned⟩, ⟨sampleJournal .prepared, .returned⟩,
      ⟨sampleJournal .oldMoved, .cut (.torn decodes)⟩,
      ⟨sampleJournal .activated, .returned⟩] := by
  have htorn : ∃ decodes,
      sampleFormat.endingOf (sampleJournal .oldMoved) 1 = .cut (.torn decodes) := by
    have hlength : 1 < (Utf8.encode (sampleFormat.toVec (sampleJournal .oldMoved))).length :=
      Format.one_lt_length_objectText _ _
    exact ⟨_, by rw [Format.endingOf, if_neg Nat.one_ne_zero, if_pos hlength]⟩
  obtain ⟨decodes, htorn⟩ := htorn
  refine ⟨decodes, ?_⟩
  simp only [samplePersists, List.map_cons, List.map_nil, Format.writeOf, Option.elim_none,
    Option.elim_some, htorn]

/-- The phase that the engine has reached is not read back, and an empty journal is reported for
good. -/
theorem tornJournals_inconsistent :
    ¬ CrashConsistent sampleFormat (deploymentReader Unit) samplePersists ∧
      ¬ CrashConsistent removalFormat (Uninstall.uninstallReader Unit) removalPersists := by
  constructor
  · intro h
    obtain ⟨decodes, hwrites⟩ := sampleWrites
    have hunhidden := ((deployments_consistent_iff sampleFormat_legible).mp h).unhidden
    rw [hwrites] at hunhidden
    obtain ⟨-, hnone | ⟨w, hw, -, hlast⟩⟩ := hunhidden [⟨sampleJournal .activated, .returned⟩]
      ⟨[_, _, _], _, [], rfl, rfl, rfl, by simp⟩
    · have hreturned := hnone ⟨sampleJournal .activated, .returned⟩ (by cases decodes <;> decide)
      cases hreturned
    · cases List.mem_singleton.mp hw
      revert hlast
      cases decodes <;> decide
  · intro h
    have hbegun := ((uninstalls_consistent_iff removalFormat_legible).mp h).begun
    rcases hbegun with hnil | ⟨w, hw, hcomplete⟩
    · cases hnil
    · cases List.mem_singleton.mp hw
      cases hcomplete

theorem journals_consistent_sample :
    (CrashConsistent sampleFormat (deploymentReader Unit) samplePersists ↔
        LogFile.Recoverable (samplePersists.map sampleFormat.writeOf)) ∧
      (CrashConsistent removalFormat (Uninstall.uninstallReader Unit) removalPersists ↔
        LogFile.Recoverable (removalPersists.map removalFormat.writeOf)) :=
  journals_consistent_iff sampleFormat_legible removalFormat_legible

end Sample

end Deployment

end SkillHive
