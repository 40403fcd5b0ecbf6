import SkillHive.Foundation.Interruptible
import SkillHive.Foundation.TransitionSystem
import SkillHive.LocalStore.Migrations

/-!
# Upgrades that are cut off

An open of the local store migrates it: before the first script of an existing database it
copies the database beside it, then it runs the pending scripts, each in a transaction with its
stamp. The program may be killed at any point.

Whatever the opens of a run got through, the upgrade ends in one and the same database, and
nothing of the old one is lost. But `VACUUM INTO` refuses a file that has content, and the error
stops the open: once a copy is there, or a piece of one, a database that is still behind is never
opened again.
-/

namespace SkillHive.Migrations

open Foundation LocalStore

/-! ## Opening the store -/

/-- The file `….sqlite3.pre-migration`. -/
inductive BackupFile where
  | absent
  | empty
  /-- Some bytes of a copy that was cut off. -/
  | torn
  | written (database : Database)

def BackupFile.hasContent : BackupFile → Bool
  | .absent => false
  | .empty => false
  | .torn => true
  | .written _ => true

/-- The files of the store. -/
structure Medium where
  database : Database
  backup : BackupFile

/-- How far a copy had come when it was cut off. -/
inductive BackupPoint where
  | untouched
  | empty
  | torn
  deriving DecidableEq, Repr

/-- `VACUUM INTO ?1` -/
def vacuumInto : Operation Medium BackupPoint where
  run medium := { medium with backup := .written medium.database }
  cut point medium :=
    match point with
    | .untouched => some medium
    | .empty => some { medium with backup := .empty }
    | .torn => some { medium with backup := .torn }

/-- The commit of a migration; a transaction that is cut off leaves nothing. -/
def commit (database : Database) : Operation Medium BackupPoint where
  run medium := { medium with database }
  cut _ medium := some medium

/-- `backup_database` -/
def backupDatabase (backupPath : PathBuf) : Procedure Medium BackupPoint MigrationError Unit := do
  Procedure.lift (require (backupPath.isUtf8 = true) (.nonUtf8Path backupPath.text))
  let medium ← Procedure.look
  Procedure.lift (require (medium.backup.hasContent = false) .outputFileExists)
  Procedure.perform vacuumInto

/-- The loop over the pending migrations. -/
def runPending : List (Script MigrationError Tables) →
    Procedure Medium BackupPoint MigrationError Unit
  | [] => pure ()
  | script :: rest => do
    let medium ← Procedure.look
    let database ← Procedure.lift (medium.database.apply script)
    Procedure.perform (commit database)
    runPending rest

/-- `is_fresh_database`: no table beside `schema_migrations` -/
def isFreshDatabase (database : Database) : Bool :=
  match database.tables with
  | .none => true
  | _ => false

def migrate (backupPath : PathBuf) : Procedure Medium BackupPoint MigrationError Unit := do
  let medium ← Procedure.look
  let currentVersion := medium.database.version
  Procedure.lift (require (currentVersion ≤ latestSchemaVersion)
    (.unsupportedSchema currentVersion latestSchemaVersion))
  let pending := medium.database.pending migrations
  (if !pending.isEmpty && !isFreshDatabase medium.database then
    backupDatabase backupPath else pure ())
  runPending pending

/-- Where an open is cut off, if it is. -/
abbrev OpenCut := Option (ℕ × BackupPoint)

/-- The desktop is started again and again. -/
def desktop (backupPath : PathBuf) : TransitionSystem Medium OpenCut where
  init _ := True
  step medium cut := ((migrate backupPath).runUntil cut medium).map Prod.snd

/-! ## The steps of an open -/

variable {backupPath : PathBuf} {medium medium' : Medium}

/-- An existing database that is behind is copied first. -/
def MustBackUp (database : Database) : Prop :=
  database.version < latestSchemaVersion ∧ isFreshDatabase database = false

theorem backUp_iff (h : DatabaseSound medium.database) :
    (!(medium.database.pending migrations).isEmpty && !isFreshDatabase medium.database) = true ↔
      MustBackUp medium.database := by
  have hle := h.version_le
  have hpending : medium.database.pending migrations = [] ↔
      latestSchemaVersion ≤ medium.database.version := by
    rw [h.pending]
    exact List.drop_eq_nil_iff
  rw [Bool.and_eq_true, Bool.not_eq_true', Bool.not_eq_true', MustBackUp, List.isEmpty_eq_false_iff,
    Ne, hpending, not_le]

theorem migrate_eq (h : DatabaseSound medium.database) :
    migrate backupPath medium =
      ((if !(medium.database.pending migrations).isEmpty && !isFreshDatabase medium.database then
        backupDatabase backupPath else pure ()) medium).andThen
          (fun _ ↦ runPending (medium.database.pending migrations)) medium := by
  have hversion : require (medium.database.version ≤ latestSchemaVersion)
      (MigrationError.unsupportedSchema medium.database.version latestSchemaVersion) = .ok () :=
    require_eq_ok.mpr h.version_le
  simp only [migrate, bind, Procedure.look, Procedure.lift, hversion, Steps.andThen]

theorem migrate_of_not_mustBackUp (h : DatabaseSound medium.database)
    (hnot : ¬ MustBackUp medium.database) :
    migrate backupPath medium = runPending (medium.database.pending migrations) medium := by
  rw [migrate_eq h, if_neg (mt (backUp_iff h).mp hnot)]
  rfl

/-- The copy can be made. -/
def CanBackUp (backupPath : PathBuf) (medium : Medium) : Prop :=
  backupPath.isUtf8 = true ∧ medium.backup.hasContent = false

theorem migrate_of_canBackUp (h : DatabaseSound medium.database)
    (hmust : MustBackUp medium.database) (hcan : CanBackUp backupPath medium) :
    migrate backupPath medium = .act vacuumInto
      (runPending (medium.database.pending migrations)) := by
  have hutf8 : require (backupPath.isUtf8 = true)
      (MigrationError.nonUtf8Path backupPath.text) = .ok () := require_eq_ok.mpr hcan.1
  have hfree : require (medium.backup.hasContent = false)
      MigrationError.outputFileExists = .ok () := require_eq_ok.mpr hcan.2
  rw [migrate_eq h, if_pos ((backUp_iff h).mpr hmust)]
  simp only [backupDatabase, bind, Procedure.lift, Procedure.look, Procedure.perform, hutf8, hfree,
    Steps.andThen]

/-- An open that cannot copy the database does nothing. -/
theorem migrate_of_not_canBackUp (h : DatabaseSound medium.database)
    (hmust : MustBackUp medium.database) (hcan : ¬ CanBackUp backupPath medium) :
    ∃ error, migrate backupPath medium = .done (.error error) := by
  rw [migrate_eq h, if_pos ((backUp_iff h).mpr hmust)]
  by_cases hutf8 : backupPath.isUtf8 = true
  · have hfree : ¬ medium.backup.hasContent = false := fun hfree ↦ hcan ⟨hutf8, hfree⟩
    refine ⟨.outputFileExists, ?_⟩
    simp only [backupDatabase, bind, Procedure.lift, Procedure.look, require, if_pos hutf8,
      if_neg hfree, Steps.andThen]
  · refine ⟨.nonUtf8Path backupPath.text, ?_⟩
    simp only [backupDatabase, bind, Procedure.lift, require, if_neg hutf8, Steps.andThen]

/-! ## The pending scripts -/

/-- The database after a number of further scripts. -/
structure Advanced (db : Database) (steps : ℕ) (db' : Database) : Prop where
  sound : DatabaseSound db'
  upgrade : db'.upgrade migrations = db.upgrade migrations
  version : db'.version = min latestSchemaVersion (db.version + steps)

theorem Advanced.refl {db : Database} (h : DatabaseSound db) : Advanced db 0 db :=
  ⟨h, rfl, (min_eq_right h.version_le).symm⟩

theorem runPending_countsFrom (h : DatabaseSound medium.database) (k : ℕ) :
    (runPending (medium.database.pending migrations) medium).CountsFrom
      (fun n left ↦ Advanced medium.database (n - k) left.database ∧ left.backup = medium.backup)
      k medium := by
  generalize hsteps : latestSchemaVersion - medium.database.version = steps
  have hle := h.version_le
  induction steps generalizing medium k with
  | zero =>
    have hversion : medium.database.version = latestSchemaVersion := by omega
    have hpending : medium.database.pending migrations = [] := by
      rw [h.pending, hversion]
      rfl
    rw [hpending]
    intro n _
    refine ⟨⟨h, rfl, ?_⟩, rfl⟩
    omega
  | succ steps ih =>
    obtain ⟨script, db', hpending, hnext⟩ := h.next (by omega)
    have hversion := hnext.version
    have hrest := Stamped.pending_apply pairwise_migrations hpending hnext.ran
    have hact : runPending (medium.database.pending migrations) medium =
        .act (commit db') (runPending (db'.pending migrations)) := by
      rw [hpending, hrest]
      simp only [runPending, bind, Procedure.look, Procedure.lift, Procedure.perform, hnext.ran,
        Steps.andThen]
    rw [hact]
    refine ⟨?_, ?_⟩
    · rintro point left ⟨⟩
      rw [Nat.sub_self]
      exact ⟨.refl h, rfl⟩
    · have hlater := @ih { medium with database := db' } hnext.sound (k + 1)
        (by change _ - db'.version = _; omega) hnext.sound.version_le
      refine hlater.mono ?_
      rintro n left hn ⟨⟨hsound, hupgrade, hversion'⟩, hbackup⟩
      refine ⟨⟨hsound, ?_, ?_⟩, hbackup⟩
      · exact hupgrade.trans (Stamped.upgrade_apply pairwise_migrations hpending hnext.ran)
      · change left.database.version = min _ (db'.version + _) at hversion'
        omega

/-- The loop ends where the upgrade does. -/
theorem exec_runPending {scripts : List (Script MigrationError Tables)} {latest : Database}
    (h : foldE (fun db script ↦ db.apply script) medium.database scripts = .ok latest) :
    (runPending scripts).exec medium = (.ok (), { medium with database := latest }) := by
  induction scripts generalizing medium with
  | nil =>
    cases h
    rfl
  | cons script rest ih =>
    obtain ⟨db', happly, hrest⟩ := foldE_cons_eq_ok.mp h
    have hact : runPending (script :: rest) medium = .act (commit db') (runPending rest) := by
      simp only [runPending, bind, Procedure.look, Procedure.lift, Procedure.perform, happly,
        Steps.andThen]
    rw [Procedure.exec, hact]
    exact @ih { medium with database := db' } hrest

/-! ## Whole opens -/

/-- The copy that the open must make cannot be made. -/
def Locked (backupPath : PathBuf) (medium : Medium) : Prop :=
  MustBackUp medium.database ∧ ¬ CanBackUp backupPath medium

theorem step_of_done {cut : OpenCut} {result : Except MigrationError Unit}
    (hdone : migrate backupPath medium = .done result)
    (hstep : (desktop backupPath).step medium cut = some medium') : medium' = medium := by
  cases cut <;>
    simp only [desktop, Procedure.runUntil, Procedure.exec, Procedure.cutOff, hdone, Steps.exec,
      Steps.cutOff, Option.map_some, Option.some.injEq] at hstep <;>
    exact hstep.symm

theorem step_of_locked {cut : OpenCut} (h : DatabaseSound medium.database)
    (hlocked : Locked backupPath medium) (hstep : (desktop backupPath).step medium cut = some medium') :
    medium' = medium := by
  obtain ⟨error, hdone⟩ := migrate_of_not_canBackUp h hlocked.1 hlocked.2
  exact step_of_done hdone hstep

theorem exec_of_locked (h : DatabaseSound medium.database) (hlocked : Locked backupPath medium) :
    ∃ error, (migrate backupPath).exec medium = (.error error, medium) := by
  obtain ⟨error, hdone⟩ := migrate_of_not_canBackUp h hlocked.1 hlocked.2
  refine ⟨error, ?_⟩
  rw [Procedure.exec, hdone]
  rfl

theorem exec_of_not_locked {latest : Database} (h : DatabaseSound medium.database)
    (hlatest : medium.database.upgrade migrations = .ok latest)
    (hopen : ¬ Locked backupPath medium) :
    ∃ backup, (migrate backupPath).exec medium = (.ok (), ⟨latest, backup⟩) := by
  by_cases hmust : MustBackUp medium.database
  · have hcan : CanBackUp backupPath medium := by_contra fun hcan ↦ hopen ⟨hmust, hcan⟩
    refine ⟨.written medium.database, ?_⟩
    rw [Procedure.exec, migrate_of_canBackUp h hmust hcan]
    exact @exec_runPending (vacuumInto.run medium) _ _ hlatest
  · refine ⟨medium.backup, ?_⟩
    rw [Procedure.exec, migrate_of_not_mustBackUp h hmust]
    exact exec_runPending hlatest

/-- An open that nothing stops leaves the latest version. -/
theorem exec_of_canBackUp (h : DatabaseSound medium.database)
    (hcan : CanBackUp backupPath medium) :
    ∃ final, (migrate backupPath).exec medium = (.ok (), final) ∧
      DatabaseSound final.database ∧ final.database.version = latestSchemaVersion := by
  obtain ⟨latest, hlatest⟩ := h.latest
  obtain ⟨backup, hexec⟩ := exec_of_not_locked h hlatest.ran fun hlocked ↦ hlocked.2 hcan
  exact ⟨⟨latest, backup⟩, hexec, hlatest.sound, hlatest.version⟩

/-- Wherever an open is cut off, the upgrade leads where it led before. -/
theorem step_advanced {cut : OpenCut} (h : DatabaseSound medium.database)
    (hstep : (desktop backupPath).step medium cut = some medium') :
    DatabaseSound medium'.database ∧
      medium'.database.upgrade migrations = medium.database.upgrade migrations := by
  obtain ⟨⟨result, left⟩, hrun, rfl⟩ := Option.map_eq_some_iff.mp hstep
  have hcounts : (migrate backupPath medium).CountsFrom
      (fun _ left ↦ DatabaseSound left.database ∧
        left.database.upgrade migrations = medium.database.upgrade migrations) 0 medium := by
    by_cases hmust : MustBackUp medium.database
    · by_cases hcan : CanBackUp backupPath medium
      · rw [migrate_of_canBackUp h hmust hcan]
        constructor
        · rintro (_ | _ | _) left ⟨⟩ <;> exact ⟨h, rfl⟩
        · apply (@runPending_countsFrom (vacuumInto.run medium) h 1).mono
          exact fun _ _ _ hleft ↦ ⟨hleft.1.sound, hleft.1.upgrade⟩
      · obtain ⟨error, hdone⟩ := migrate_of_not_canBackUp h hmust hcan
        rw [hdone]
        exact fun _ _ ↦ ⟨h, rfl⟩
    · rw [migrate_of_not_mustBackUp h hmust]
      apply (runPending_countsFrom h 0).mono
      exact fun _ _ _ hleft ↦ ⟨hleft.1.sound, hleft.1.upgrade⟩
  obtain ⟨_, hleft, -⟩ := Procedure.runUntil_counts hcounts hrun 0
  exact hleft

/-- However often opens of a database are cut off, nothing of it is lost: every open that
succeeds leaves the one database that the pending scripts make, which has the tables from before
beside what the scripts added, and from a version without sequence numbers it has those of the
moments of creation. -/
theorem run_keepsDatabase {cuts : List OpenCut} (h : DatabaseSound medium.database)
    (hrun : (desktop backupPath).run medium cuts = some medium') :
    ∃ latest, LatestDatabase medium.database latest ∧
      (medium.database.version < 3 → latest.tables.Numbered) ∧
      medium'.database.upgrade migrations = .ok latest ∧
      ∀ final, (migrate backupPath).exec medium' = (.ok (), final) → final.database = latest := by
  obtain ⟨latest, hlatest⟩ := h.latest
  obtain ⟨hsound', hupgrade⟩ : DatabaseSound medium'.database ∧
      medium'.database.upgrade migrations = medium.database.upgrade migrations := by
    apply TransitionSystem.run_invariant (P := fun m ↦ DatabaseSound m.database ∧
      m.database.upgrade migrations = medium.database.upgrade migrations) _ ⟨h, rfl⟩ hrun
    intro s cut s' hs hstep
    obtain ⟨hsound, hupgrade⟩ := step_advanced hs.1 hstep
    exact ⟨hsound, hupgrade.trans hs.2⟩
  have hran := hupgrade.trans hlatest.ran
  refine ⟨latest, hlatest, fun hversion ↦ hlatest.numbered ?_, hran, fun final hfinal ↦ ?_⟩
  · exact Tables.numbered_of_lt (h.version ▸ hversion)
  · by_cases hlocked : Locked backupPath medium'
    · obtain ⟨error, hexec⟩ := exec_of_locked hsound' hlocked
      rw [hexec] at hfinal
      cases hfinal
    · obtain ⟨backup, hexec⟩ := exec_of_not_locked hsound' hran hlocked
      rw [hexec] at hfinal
      cases hfinal
      rfl

/-! ## Opens that never succeed -/

/-- An upgrade of so many scripts can be resumed after the opens: none of them was cut off while
the copy had content and a script was missing. -/
def resumable (pending : ℕ) : List OpenCut → Bool
  | [] => true
  | none :: _ => true
  | some (0, point) :: cuts => point ≠ .torn && resumable pending cuts
  | some (scripts + 1, _) :: _ => pending ≤ scripts

theorem isFreshDatabase_eq_false_iff {db : Database} (h : DatabaseSound db) :
    isFreshDatabase db = false ↔ 0 < db.version := by
  rw [h.version, isFreshDatabase]
  cases db.tables <;> simp [Tables.schemaVersion]

theorem run_of_fixed {cuts : List OpenCut}
    (hfixed : ∀ cut m, (desktop backupPath).step medium cut = some m → m = medium)
    (hrun : (desktop backupPath).run medium cuts = some medium') : medium' = medium := by
  induction cuts with
  | nil => exact (Option.some.inj hrun).symm
  | cons cut cuts ih =>
    obtain ⟨m, hstep, hrest⟩ := TransitionSystem.run_cons_eq_some.mp hrun
    rw [hfixed cut m hstep] at hrest
    exact ih hrest

/-- The latest version is opened as it is. -/
theorem step_of_latest {cut : OpenCut} (h : DatabaseSound medium.database)
    (hversion : medium.database.version = latestSchemaVersion)
    (hstep : (desktop backupPath).step medium cut = some medium') : medium' = medium := by
  have hnot : ¬ MustBackUp medium.database := fun hmust ↦ hmust.1.ne hversion
  have hpending : medium.database.pending migrations = [] := by
    rw [h.pending, hversion]
    rfl
  have hdone : migrate backupPath medium = .done (.ok ()) := by
    rw [migrate_of_not_mustBackUp h hnot, hpending]
    rfl
  exact step_of_done hdone hstep

/-- An open after a run of no further effect. -/
theorem exec_after_fixed {cuts : List OpenCut} (h : DatabaseSound medium.database)
    (hfixed : ∀ cut m, (desktop backupPath).step medium cut = some m → m = medium)
    (hrun : (desktop backupPath).run medium cuts = some medium') :
    ((migrate backupPath).exec medium').1 = .ok () ↔ ¬ Locked backupPath medium := by
  rw [run_of_fixed hfixed hrun]
  constructor
  · intro hok hlocked
    obtain ⟨error, hexec⟩ := exec_of_locked h hlocked
    rw [hexec] at hok
    cases hok
  · intro hopen
    obtain ⟨latest, hlatest⟩ := h.latest
    obtain ⟨backup, hexec⟩ := exec_of_not_locked h hlatest.ran hopen
    rw [hexec]

theorem exec_after_latest {cuts : List OpenCut} (h : DatabaseSound medium.database)
    (hversion : medium.database.version = latestSchemaVersion)
    (hrun : (desktop backupPath).run medium cuts = some medium') :
    ((migrate backupPath).exec medium').1 = .ok () :=
  (exec_after_fixed h (fun _ _ ↦ step_of_latest h hversion) hrun).mpr fun hlocked ↦
    hlocked.1.1.ne hversion

theorem exec_after_locked {cuts : List OpenCut} (h : DatabaseSound medium.database)
    (hlocked : Locked backupPath medium)
    (hrun : (desktop backupPath).run medium cuts = some medium') :
    ((migrate backupPath).exec medium').1 ≠ .ok () := fun hok ↦
  (exec_after_fixed h (fun _ _ ↦ step_of_locked h hlocked) hrun).mp hok hlocked

/-- Where an open is cut off that copies the database. -/
theorem step_of_canBackUp {scripts : ℕ} {point : BackupPoint} (h : DatabaseSound medium.database)
    (hmust : MustBackUp medium.database) (hcan : CanBackUp backupPath medium)
    (hstep : (desktop backupPath).step medium (some (scripts + 1, point)) = some medium') :
    Advanced medium.database scripts medium'.database ∧ medium'.backup.hasContent = true := by
  obtain ⟨⟨result, left⟩, hrun, rfl⟩ := Option.map_eq_some_iff.mp hstep
  obtain ⟨left, hcut, ⟨⟩⟩ := Option.map_eq_some_iff.mp hrun
  rw [Procedure.cutOff, migrate_of_canBackUp h hmust hcan] at hcut
  have hcounts := (@runPending_countsFrom (vacuumInto.run medium) h 0).cutOff hcut
  rw [Nat.zero_add, Nat.sub_zero] at hcounts
  exact ⟨hcounts.1, hcounts.2 ▸ rfl⟩

theorem step_of_copyCut {point : BackupPoint} (h : DatabaseSound medium.database)
    (hmust : MustBackUp medium.database) (hcan : CanBackUp backupPath medium)
    (hstep : (desktop backupPath).step medium (some (0, point)) = some medium') :
    medium'.database = medium.database ∧
      (medium'.backup.hasContent = true ↔ point = .torn) := by
  obtain ⟨⟨result, left⟩, hrun, rfl⟩ := Option.map_eq_some_iff.mp hstep
  obtain ⟨left, hcut, ⟨⟩⟩ := Option.map_eq_some_iff.mp hrun
  rw [Procedure.cutOff, migrate_of_canBackUp h hmust hcan] at hcut
  cases point <;> cases hcut
  · simp [hcan.2]
  · simp [BackupFile.hasContent]
  · simp [BackupFile.hasContent]

/-- When an existing database is behind, the next open after a run succeeds exactly where the
path is UTF-8 text, no copy was there at first, and no open before it was cut off while the copy
had content and a script was missing. -/
theorem exec_ok_iff_resumable {cuts : List OpenCut} (h : DatabaseSound medium.database)
    (hmust : MustBackUp medium.database)
    (hrun : (desktop backupPath).run medium cuts = some medium') :
    ((migrate backupPath).exec medium').1 = .ok () ↔ CanBackUp backupPath medium ∧
      resumable (latestSchemaVersion - medium.database.version) cuts = true := by
  by_cases hcan : CanBackUp backupPath medium
  swap
  · exact iff_of_false (exec_after_locked h ⟨hmust, hcan⟩ hrun) fun hand ↦ hcan hand.1
  rw [and_iff_right hcan]
  induction cuts generalizing medium with
  | nil =>
    cases hrun
    obtain ⟨final, hexec, -⟩ := exec_of_canBackUp h hcan
    refine iff_of_true ?_ rfl
    rw [hexec]
  | cons cut cuts ih =>
    obtain ⟨left, hstep, hrest⟩ := TransitionSystem.run_cons_eq_some.mp hrun
    rcases cut with _ | ⟨_ | scripts, point⟩
    · -- the open runs to its end
      obtain ⟨final, hexec, hsound, hversion⟩ := exec_of_canBackUp h hcan
      have hleft : ((migrate backupPath).exec medium).2 = left := Option.some.inj hstep
      rw [hexec] at hleft
      cases hleft
      exact iff_of_true (exec_after_latest hsound hversion hrest) rfl
    · -- it is cut off while it copies
      obtain ⟨hdatabase, hcontent⟩ := step_of_copyCut h hmust hcan hstep
      have hsound : DatabaseSound left.database := hdatabase ▸ h
      have hbehind : MustBackUp left.database := hdatabase ▸ hmust
      rw [resumable, Bool.and_eq_true, decide_eq_true_eq]
      by_cases htorn : point = .torn
      · have hlocked : Locked backupPath left :=
          ⟨hbehind, fun hcan' ↦ Bool.false_ne_true (hcan'.2.symm.trans (hcontent.mpr htorn))⟩
        exact iff_of_false (exec_after_locked hsound hlocked hrest) fun hand ↦ hand.1 htorn
      · have hcan' : CanBackUp backupPath left :=
          ⟨hcan.1, Bool.eq_false_iff.mpr fun hfull ↦ htorn (hcontent.mp hfull)⟩
        rw [and_iff_right htorn, ← hdatabase]
        exact ih hsound hbehind hrest hcan'
    · -- it is cut off after the copy and a number of scripts
      obtain ⟨⟨hsound, -, hversion⟩, hcontent⟩ := step_of_canBackUp h hmust hcan hstep
      rw [resumable, decide_eq_true_eq]
      by_cases hall : latestSchemaVersion - medium.database.version ≤ scripts
      · refine iff_of_true (exec_after_latest hsound ?_ hrest) hall
        omega
      · have hpositive := (isFreshDatabase_eq_false_iff h).mp hmust.2
        have hbehind : MustBackUp left.database := by
          refine ⟨?_, (isFreshDatabase_eq_false_iff hsound).mpr ?_⟩ <;> omega
        have hlocked : Locked backupPath left :=
          ⟨hbehind, fun hcan' ↦ Bool.false_ne_true (hcan'.2.symm.trans hcontent)⟩
        exact iff_of_false (exec_after_locked hsound hlocked hrest) hall

namespace Sample

def skill : SkillV1 where
  id := "skill"
  remoteId := some "server-skill"
  name := "Notes"
  slug := "notes"
  workspacePath := "/skills/notes"
  currentBlobHash := "sha256:notes"
  remoteRevision := some 3
  syncState := .dirty
  pinned := false
  createdAt := "2024-05-01 10:00:00"
  updatedAt := "2024-05-01 10:00:02"

def edit : MutationV1 where
  id := "edit"
  skillId := "skill"
  operation := .update
  baseRevision := some 3
  payloadHash := "sha256:notes"
  state := .pending
  retryCount := 0
  lastError := none
  createdAt := "2024-05-01 10:00:02"
  updatedAt := "2024-05-01 10:00:02"

def tables : TablesV1 where
  skills := ⟨[skill], List.nodup_singleton _⟩
  mutations := ⟨[edit], List.nodup_singleton _⟩
  agentProfiles := .empty
  deployments := .empty

/-- The store of the first version, with an edit that was not sent. -/
def oldStore : Medium := ⟨⟨[1], .v1 tables⟩, .absent⟩

theorem oldStore_sound : DatabaseSound oldStore.database := by
  refine ⟨rfl, ?_⟩
  constructor <;> simp [Core.skillsV1, Core.mutationsV1, tables, edit, skill]

def copyPath : PathBuf := ⟨"/skills/store.sqlite3.pre-migration", true, true⟩

/-- One open that is cut off after the copy and the script of version 2. -/
def cuts : List OpenCut := [some (2, .untouched)]

end Sample

theorem run_keepsDatabase_oldStore : ∃ medium,
    (desktop Sample.copyPath).run Sample.oldStore Sample.cuts = some medium ∧
      ∃ latest, LatestDatabase Sample.oldStore.database latest ∧
        medium.database.upgrade migrations = .ok latest := by
  have hrun : (desktop Sample.copyPath).run Sample.oldStore Sample.cuts = some _ := rfl
  obtain ⟨latest, hlatest, -, hupgrade, -⟩ := run_keepsDatabase Sample.oldStore_sound hrun
  exact ⟨_, hrun, latest, hlatest, hupgrade⟩

theorem exec_ok_iff_resumable_oldStore : ∃ medium,
    (desktop Sample.copyPath).run Sample.oldStore Sample.cuts = some medium ∧
      ((migrate Sample.copyPath).exec medium).1 ≠ .ok () := by
  have hrun : (desktop Sample.copyPath).run Sample.oldStore Sample.cuts = some _ := rfl
  have hmust : MustBackUp Sample.oldStore.database := ⟨by decide, rfl⟩
  refine ⟨_, hrun, fun hok ↦ ?_⟩
  have hresumable := (exec_ok_iff_resumable Sample.oldStore_sound hmust hrun).mp hok
  exact absurd hresumable.2 (by decide)

end SkillHive.Migrations
