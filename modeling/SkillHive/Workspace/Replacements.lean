import SkillHive.Workspace.ManagedTrees

/-!
# Replaced workspaces

A replacement leaves the old tree or the whole new one in its place, unless it is stopped between
its two moves and the move back does not come about either. What is aside then is not touched by
any later call.
-/

namespace SkillHive

open Foundation Deployment

namespace WorkspaceStore

variable {ε : Type} [DecidableEq ε] {env : Environment ε}

/-! ## What a call does not touch -/

/-- The entry has no part in what the predicate says. -/
def Free (I : Root ε → Prop) (entry : Entry) : Prop :=
  ∀ root node, I root → I (Function.update root entry node)

section Free

variable {I : Root ε → Prop} {entry path stage backup : Entry}

omit [DecidableEq ε] in
theorem free_of_ne {other : Entry} {node : Option (Node ε)} (h : other ≠ entry) :
    Free (fun root ↦ root other = node) entry := by
  intro root node' hroot
  rw [Function.update_of_ne h]
  exact hroot

omit [DecidableEq ε] in
theorem syncDirectory_preserves (step : StoreStep) : (syncDirectory step).Preserves I :=
  Faulty.Preserves.inspect step WorkspaceError.io fun _ ↦ ()

omit [DecidableEq ε] in
theorem readEntry_preserves (step : StoreStep) (entry : Entry) : (readEntry step entry).Preserves I :=
  Faulty.Preserves.inspect step WorkspaceError.io fun root : Root ε ↦ root entry

omit [DecidableEq ε] in
theorem moved_source {source target : Entry} (root : Root ε) :
    moved source target root source = none := Function.update_self ..

omit [DecidableEq ε] in
theorem moved_target {source target : Entry} (h : target ≠ source) (root : Root ε) :
    moved source target root target = root source :=
  (Function.update_of_ne h ..).trans (Function.update_self ..)

omit [DecidableEq ε] in
theorem moved_other {source target other : Entry} (hsource : other ≠ source)
    (htarget : other ≠ target) (root : Root ε) : moved source target root other = root other :=
  (Function.update_of_ne hsource ..).trans (Function.update_of_ne htarget ..)

omit [DecidableEq ε] in
/-- A rename is done, or has gone wrong and changed nothing. -/
theorem rename_meets {faults : Schedule StoreStep (Point ε)} {step : StoreStep}
    {source target : Entry} {root : Root ε} {P : Unit → Root ε → Prop}
    {E : Stop WorkspaceError → Root ε → Prop}
    (hdone : faults step = none → P () (moved source target root))
    (hfault : ∀ fault, faults step = some fault → E (fault.stop .io) root) :
    (rename step source target).Meets faults P E root := by
  refine Faulty.Meets.perform hdone fun fault hstep ↦ ?_
  have hsame : ((atomic (moved source target)).cut fault.point root).getD root = root := by
    rcases fault.point with _ | _ | _ | _ <;> rfl
  rw [hsame]
  exact hfault fault hstep

omit [DecidableEq ε] in
theorem rename_preserves (step : StoreStep) {source target : Entry} (hsource : Free I source)
    (htarget : Free I target) : (rename step source target).Preserves I := by
  refine Faulty.Preserves.perform step WorkspaceError.io
    (fun root h ↦ hsource _ _ (htarget _ _ h)) fun point root root' h hcut ↦ ?_
  rw [atomic_cut hcut]
  exact h

theorem removeTree_preserves (step : StoreStep) (hentry : Free I entry) :
    (removeTree step entry).Preserves I := by
  refine .bind .look fun root ↦ .bind ?_ fun _ ↦ ?_
  · refine Faulty.Preserves.perform step WorkspaceError.io (fun root h ↦ hentry root _ h)
      fun point root root' h hcut ↦ ?_
    obtain ⟨node, -, hcut⟩ := Option.bind_eq_some_iff.mp hcut
    obtain ⟨left, -, rfl⟩ := Option.map_eq_some_iff.mp hcut
    exact hentry root (some left) h
  · split
    · exact .pure ()
    · exact .fail _

omit [DecidableEq ε] in
theorem writeFiles_preserves (hentry : Free I entry) (files : List ε) (served : ℕ) :
    (writeFiles files served entry).Preserves I := by
  refine Faulty.Preserves.bind ?_ fun _ ↦ ?_
  · refine Faulty.Preserves.perform StoreStep.materialize WorkspaceError.snapshot
      (fun root h ↦ hentry root _ h) fun point root root' h hcut ↦ ?_
    obtain ⟨node, -, rfl⟩ := Option.map_eq_some_iff.mp hcut
    exact hentry root node h
  · split
    · exact .pure ()
    · exact .fail _

theorem materializeSnapshot_preserves {blobs : Blobs ε} {snapshotHash : String}
    (hentry : Free I entry) : (materializeSnapshot blobs snapshotHash entry).Preserves I := by
  refine Faulty.Preserves.bind (readEntry_preserves _ _) fun present ↦ ?_
  cases present with
  | some node => exact .fail _
  | none =>
    dsimp only
    split
    · exact .fail _
    · refine Faulty.Preserves.bind (writeFiles_preserves hentry _ _).attempt fun result ↦ ?_
      cases result with
      | ok _ => exact .pure ()
      | error error => exact .bind (removeTree_preserves _ hentry).attempt fun _ ↦ .fail error

omit [DecidableEq ε] in
/-- What is done at the path of a skill, if the skill has one. -/
theorem atPath_preserves {α : Type} {skillId : String} {p : StoreAction ε α}
    {f : Entry → StoreAction ε α} (hp : p = pathForSkill env skillId >>= f)
    (hf : (f (.workspace (env.digest skillId))).Preserves I) : p.Preserves I := by
  rw [hp, pathForSkill]
  split
  · exact .fail WorkspaceError.invalidSkillId
  · exact hf

omit [DecidableEq ε] in
theorem requireNoFiles_preserves (entries : List (DirEntry ε)) :
    (requireNoFiles path entries).Preserves I := by
  refine Faulty.Preserves.bind (syncDirectory_preserves _) fun _ ↦ ?_
  split
  · exact .pure ()
  · exact .fail _

omit [DecidableEq ε] in
theorem prepareDirectory_preserves (hpath : Free I path) :
    (prepareDirectory env path).Preserves I := by
  refine Faulty.Preserves.bind (readEntry_preserves _ _) fun present ↦ ?_
  rcases present with _ | file | entries | _
  · refine Faulty.Preserves.bind ?_ fun _ ↦ syncDirectory_preserves _
    refine Faulty.Preserves.perform StoreStep.createDirectory WorkspaceError.io
      (fun root h ↦ hpath root _ h) fun point root root' h hcut ↦ ?_
    rw [atomic_cut hcut]
    exact h
  · exact .fail _
  · refine Faulty.Preserves.bind (syncDirectory_preserves _).attempt fun result ↦ ?_
    cases result with
    | error _ => exact requireNoFiles_preserves entries
    | ok _ =>
      dsimp only
      split
      · exact .fail _
      · exact requireNoFiles_preserves entries
  · exact .fail _

theorem writeNewFileDurable_preserves (hpath : Free I path) (file : ε) :
    (writeNewFileDurable path file).Preserves I := by
  refine Faulty.Preserves.bind (Faulty.Preserves.bind ?_ fun _ ↦
    syncDirectory_preserves _).attempt fun result ↦ ?_
  · refine Faulty.Preserves.perform StoreStep.writeEntrypoint WorkspaceError.io
      (fun root h ↦ hpath root _ h) fun point root root' h hcut ↦ ?_
    rcases point with _ | _ | ⟨_ | _, torn⟩ | _
    · cases hcut
      exact h
    · cases hcut
    · cases hcut
      exact hpath root _ h
    · cases hcut
    · cases hcut
  · cases result with
    | ok _ => exact .pure ()
    | error error =>
      refine Faulty.Preserves.bind (Faulty.Preserves.attempt ?_) fun _ ↦ .fail error
      refine Faulty.Preserves.perform StoreStep.discardEntrypoint WorkspaceError.io
        (fun root h ↦ ?_) fun point root root' h hcut ↦ ?_
      · change I (if root path = some (.snapshot [file]) then root
          else Function.update root path (some (.dir [])))
        split
        · exact h
        · exact hpath root _ h
      · rw [atomic_cut hcut]
        exact h

theorem create_preserves {skillId initialSkillMd : String}
    (hpath : Free I (.workspace (env.digest skillId))) :
    (create env skillId initialSkillMd).Preserves I := by
  refine atPath_preserves rfl ?_
  split
  · exact .fail _
  · refine .bind (prepareDirectory_preserves hpath) fun _ ↦ ?_
    refine .bind (writeNewFileDurable_preserves hpath _) fun _ ↦ ?_
    exact .bind (syncDirectory_preserves _) fun _ ↦ .pure _

theorem importSnapshot_preserves {skillId snapshotHash : String}
    (hpath : Free I (.workspace (env.digest skillId))) :
    (importSnapshot env skillId snapshotHash).Preserves I := by
  refine atPath_preserves rfl ?_
  refine Faulty.Preserves.bind (readEntry_preserves _ _) fun present ↦ ?_
  cases present with
  | some node => exact .fail _
  | none =>
    refine .bind (materializeSnapshot_preserves hpath) fun _ ↦ ?_
    exact .bind (syncDirectory_preserves _) fun _ ↦ .pure _

omit [DecidableEq ε] in
theorem moveOldAside_preserves (hpath : Free I path) (hbackup : Free I backup) :
    (moveOldAside path backup).Preserves I := by
  refine Faulty.Preserves.bind (readEntry_preserves _ _) fun present ↦ ?_
  rcases present with _ | file | entries | _
  · exact .pure _
  · exact .fail _
  · exact .bind (rename_preserves _ hpath hbackup) fun _ ↦ .pure _
  · exact .fail _

omit [DecidableEq ε] in
theorem moveNewIn_preserves (hstage : Free I stage) (hpath : Free I path) (hbackup : Free I backup)
    (hadOld : Bool) : (moveNewIn stage path backup hadOld).Preserves I := by
  refine Faulty.Preserves.bind (rename_preserves _ hstage hpath).attempt fun result ↦ ?_
  cases result with
  | ok _ => exact .pure ()
  | error error =>
    cases hadOld with
    | false => exact .fail error
    | true => exact .bind (rename_preserves _ hbackup hpath).attempt fun _ ↦ .fail error

theorem replaceSnapshot_preserves {skillId snapshotHash stageId backupId : String}
    (hpath : Free I (.workspace (env.digest skillId))) (hstage : Free I (.stage stageId))
    (hbackup : Free I (.backup backupId)) :
    (replaceSnapshot env skillId snapshotHash stageId backupId).Preserves I := by
  refine atPath_preserves rfl ?_
  refine Faulty.Preserves.bind (.attempt ?_) fun result ↦ ?_
  · refine .bind (materializeSnapshot_preserves hstage) fun _ ↦ ?_
    refine .bind (syncDirectory_preserves _) fun _ ↦ ?_
    refine .bind (moveOldAside_preserves hpath hbackup) fun hadOld ↦ ?_
    refine .bind (moveNewIn_preserves hstage hpath hbackup hadOld) fun _ ↦ ?_
    refine .bind (syncDirectory_preserves _) fun _ ↦ ?_
    cases hadOld with
    | false => exact .pure _
    | true => exact .bind (removeTree_preserves _ hbackup).attempt fun _ ↦ .pure _
  · cases result with
    | ok path => exact .pure path
    | error error => exact .bind (removeTree_preserves _ hstage).attempt fun _ ↦ .fail error

omit [DecidableEq ε] in
theorem get_preserves (skillId : String) : (get env skillId).Preserves I := by
  refine atPath_preserves rfl ?_
  refine Faulty.Preserves.bind (readEntry_preserves _ _) fun present ↦ ?_
  rcases present with _ | file | entries | _
  · exact .pure _
  · exact .fail _
  · exact .pure _
  · exact .fail _

theorem remove_preserves {skillId : String} (hpath : Free I (.workspace (env.digest skillId))) :
    (remove env skillId).Preserves I := by
  refine atPath_preserves rfl ?_
  refine Faulty.Preserves.bind (readEntry_preserves _ _) fun present ↦ ?_
  rcases present with _ | file | entries | _
  · exact .pure _
  · exact .fail _
  · refine .bind (removeTree_preserves _ hpath) fun _ ↦ ?_
    exact .bind (syncDirectory_preserves _) fun _ ↦ .pure _
  · exact .fail _

end Free

/-! ## What a replacement leaves -/

/-- A call of `replace_snapshot`. -/
structure Replacement where
  skillId : String
  snapshotHash : String
  stageId : String
  backupId : String
  deriving DecidableEq, Repr

namespace Replacement

def call (r : Replacement) : StoreCall :=
  .replaceSnapshot r.skillId r.snapshotHash r.stageId r.backupId

def path (r : Replacement) (env : Environment ε) : Entry := .workspace (env.digest r.skillId)

/-- The old tree or the whole snapshot is in its place, or nothing where nothing was. -/
def Intact (r : Replacement) (env : Environment ε) (root root' : Root ε) : Prop :=
  root' (r.path env) = root (r.path env) ∨
    ∃ files, env.blobs.manifest r.snapshotHash = some files ∧ root' (r.path env) = some (.snapshot files)

/-- The old tree is moved aside, and then the process stops, or neither the new tree can be moved
in nor the old one back. -/
structure Parts (r : Replacement) (env : Environment ε) (root : Root ε)
    (faults : Schedule StoreStep (Point ε)) : Prop where
  valid : ¬ (trim r.skillId = "" ∨ 512 < r.skillId.utf8ByteSize)
  old : ∃ entries, root (r.path env) = some (.dir entries)
  served : ∃ files, env.blobs.manifest r.snapshotHash = some files ∧
    files.length ≤ env.blobs.served r.snapshotHash
  prepared : ∀ step, step ∈ [StoreStep.readTarget, .materialize, .syncMaterialized, .readPath,
    .moveAside] → faults step = none
  blocked : ∃ fault, faults .moveIn = some fault ∧
    ∀ point, fault = .failure point → faults .moveBack ≠ none

/-- What a replacement leaves, by whether it stops between its moves. -/
def Leaves (r : Replacement) (env : Environment ε) (root : Root ε)
    (faults : Schedule StoreStep (Point ε)) (root' : Root ε) : Prop :=
  (r.Parts env root faults ∧ root' (r.path env) = none ∧
    root' (.backup r.backupId) = root (r.path env)) ∨
  (¬ r.Parts env root faults ∧ r.Intact env root root')

section Leaves

variable {r : Replacement} {root root' : Root ε} {faults : Schedule StoreStep (Point ε)}

omit [DecidableEq ε] in
theorem path_ne_stage : r.path env ≠ .stage r.stageId := by
  intro h
  cases h

omit [DecidableEq ε] in
theorem backup_ne_stage : Entry.backup r.backupId ≠ .stage r.stageId := by
  intro h
  cases h

omit [DecidableEq ε] in
theorem backup_ne_path : Entry.backup r.backupId ≠ r.path env := by
  intro h
  cases h

omit [DecidableEq ε] in
theorem leaves_free_stage : Free (r.Leaves env root faults) (.stage r.stageId) := by
  intro root' node h
  unfold Leaves Intact
  rw [Function.update_of_ne path_ne_stage, Function.update_of_ne backup_ne_stage]
  exact h

omit [DecidableEq ε] in
/-- A step before the second move has gone wrong. -/
theorem leaves_of_fault {step : StoreStep} {fault : Fault (Point ε)}
    (hfault : faults step = some fault)
    (hstep : step ∈ [StoreStep.readTarget, .materialize, .syncMaterialized, .readPath, .moveAside])
    (hpath : root' (r.path env) = root (r.path env)) : r.Leaves env root faults root' := by
  refine .inr ⟨fun hparts ↦ ?_, .inl hpath⟩
  rw [hparts.prepared step hstep] at hfault
  cases hfault

/-- The directory once the snapshot is staged. -/
structure Staged (r : Replacement) (env : Environment ε) (root : Root ε)
    (faults : Schedule StoreStep (Point ε)) (files : List ε) (root' : Root ε) : Prop where
  manifest : env.blobs.manifest r.snapshotHash = some files
  served : files.length ≤ env.blobs.served r.snapshotHash
  path : root' (r.path env) = root (r.path env)
  stage : root' (.stage r.stageId) = some (.snapshot files)
  target : faults .readTarget = none
  materialize : faults .materialize = none

theorem materializeSnapshot_meets (hstage : root (.stage r.stageId) = none) :
    (materializeSnapshot env.blobs r.snapshotHash (.stage r.stageId)).Meets faults
      (fun _ root' ↦ ∃ files, r.Staged env root faults files root')
      (fun _ ↦ r.Leaves env root faults) root := by
  have hunserved : (∀ files, env.blobs.manifest r.snapshotHash = some files →
      ¬ files.length ≤ env.blobs.served r.snapshotHash) → ∀ root' : Root ε,
      root' (r.path env) = root (r.path env) → r.Leaves env root faults root' := by
    intro hmissing root' hpath
    refine .inr ⟨fun hparts ↦ ?_, .inl hpath⟩
    obtain ⟨files, hfiles, hserved⟩ := hparts.served
    exact hmissing files hfiles hserved
  refine Faulty.Meets.bind (P := fun present root' ↦ (present = none ∧ root' = root) ∧
      faults .readTarget = none) (Faulty.Meets.inspect (fun htarget ↦ ⟨⟨hstage, rfl⟩, htarget⟩) ?_) ?_
  · exact fun fault hfault ↦ leaves_of_fault hfault (by decide) rfl
  rintro _ root ⟨⟨rfl, rfl⟩, htarget⟩
  dsimp only
  cases hfiles : env.blobs.manifest r.snapshotHash with
  | none =>
    refine Faulty.Meets.fail (hunserved (fun files h ↦ ?_) _ rfl)
    rw [hfiles] at h
    cases h
  | some files =>
    have hdiscard : ∀ (e : WorkspaceError) (root' : Root ε), r.Leaves env root faults root' →
        (do
          let _ ← (removeTree .discardPart (.stage r.stageId)).attempt
          Faulty.fail e : StoreAction ε Unit).Meets faults
          (fun _ root' ↦ ∃ files, r.Staged env root faults files root')
          (fun _ ↦ r.Leaves env root faults) root' := by
      intro e root' h
      refine Faulty.Meets.bind (P := fun _ ↦ r.Leaves env root faults) ?_
        fun _ _ h ↦ Faulty.Meets.fail h
      exact (removeTree_preserves _ leaves_free_stage).attempt faults root' h
    refine Faulty.Meets.bind (P := fun result root' ↦
      match result with
      | .ok _ => ∃ files, r.Staged env root faults files root'
      | .error _ => r.Leaves env root faults root') (.attempt ?_) ?_
    · have hwritten : ∀ node : Option (Node ε), Function.update root (.stage r.stageId) node
          (r.path env) = root (r.path env) := fun node ↦ Function.update_of_ne path_ne_stage ..
      refine Faulty.Meets.bind (P := fun _ root' ↦ faults .materialize = none ∧
        root' = Function.update root (.stage r.stageId)
          (some (.snapshot (files.take (env.blobs.served r.snapshotHash)))))
        (Faulty.Meets.perform (fun hmaterialize ↦ ⟨hmaterialize, rfl⟩) fun fault hfault ↦ ?_) ?_
      · have hleaves : ∀ root' : Root ε, root' (r.path env) = root (r.path env) →
            r.Leaves env root faults root' := fun root' ↦ leaves_of_fault hfault (by decide)
        have hcut : r.Leaves env root faults
            (((writing (files.take (env.blobs.served r.snapshotHash)) fault.point).map fun node ↦
              Function.update root (.stage r.stageId) node).getD root) := by
          cases writing (files.take (env.blobs.served r.snapshotHash)) fault.point with
          | none => exact hleaves root rfl
          | some node => exact hleaves _ (hwritten node)
        cases fault <;> exact hcut
      · rintro _ _ ⟨hmaterialize, rfl⟩
        by_cases hserved : files.length ≤ env.blobs.served r.snapshotHash
        · rw [if_pos hserved, List.take_of_length_le hserved]
          exact Faulty.Meets.pure ⟨files, hfiles, hserved, hwritten _, Function.update_self ..,
            htarget, hmaterialize⟩
        · rw [if_neg hserved]
          refine Faulty.Meets.fail (hunserved (fun files' h ↦ ?_) _ (hwritten _))
          rw [hfiles] at h
          cases h
          exact hserved
    · intro result root' h
      cases result with
      | ok _ => exact Faulty.Meets.pure h
      | error e => exact hdiscard e root' h

/-- The directory between the two moves. -/
structure Apart (r : Replacement) (env : Environment ε) (root : Root ε)
    (faults : Schedule StoreStep (Point ε)) (files : List ε) (hadOld : Bool) (root' : Root ε) :
    Prop where
  manifest : env.blobs.manifest r.snapshotHash = some files
  served : files.length ≤ env.blobs.served r.snapshotHash
  stage : root' (.stage r.stageId) = some (.snapshot files)
  path : root' (r.path env) = none
  fresh : hadOld = false → root (r.path env) = none
  old : hadOld = true → ∃ old, root (r.path env) = some (.dir old)
  backup : hadOld = true → root' (.backup r.backupId) = root (r.path env)
  prepared : hadOld = true → ∀ step, step ∈ [StoreStep.readTarget, .materialize, .syncMaterialized,
    .readPath, .moveAside] → faults step = none

omit [DecidableEq ε] in
theorem moveOldAside_meets {files : List ε} (hstaged : r.Staged env root faults files root')
    (hsync : faults .syncMaterialized = none) :
    (moveOldAside (r.path env) (.backup r.backupId)).Meets faults
      (fun hadOld root' ↦ r.Apart env root faults files hadOld root')
      (fun _ ↦ r.Leaves env root faults) root' := by
  refine Faulty.Meets.bind (P := fun present root'' ↦ (present = root (r.path env) ∧
    root'' = root') ∧ faults .readPath = none)
    (Faulty.Meets.inspect (fun hread ↦ ⟨⟨hstaged.path, rfl⟩, hread⟩) fun fault hfault ↦ ?_) ?_
  · exact leaves_of_fault hfault (by decide) hstaged.path
  rintro present root' ⟨⟨hpresent, rfl⟩, hread⟩
  have hrefused : (∀ old, root (r.path env) ≠ some (.dir old)) →
      r.Leaves env root faults root' := by
    refine fun hnone ↦ .inr ⟨fun hparts ↦ ?_, .inl hstaged.path⟩
    obtain ⟨old, hold⟩ := hparts.old
    exact hnone old hold
  rcases present with _ | file | old | _
  · exact Faulty.Meets.pure ⟨hstaged.manifest, hstaged.served, hstaged.stage,
      hstaged.path.trans hpresent.symm, fun _ ↦ hpresent.symm, nofun, nofun, nofun⟩
  · exact Faulty.Meets.fail (hrefused fun old hold ↦ by cases hpresent.trans hold)
  · refine Faulty.Meets.bind (P := fun _ root' ↦ r.Apart env root faults files true root') ?_
      fun _ _ h ↦ Faulty.Meets.pure h
    refine rename_meets (fun hmove ↦ ?_) fun fault hfault ↦
      leaves_of_fault hfault (by decide) hstaged.path
    refine ⟨hstaged.manifest, hstaged.served, ?_, moved_source _, nofun,
      fun _ ↦ ⟨old, hpresent.symm⟩, fun _ ↦ ?_, fun _ ↦ ?_⟩
    · exact (moved_other path_ne_stage.symm backup_ne_stage.symm _).trans hstaged.stage
    · exact (moved_target backup_ne_path _).trans hstaged.path
    · simp [hstaged.target, hstaged.materialize, hsync, hread, hmove]
  · exact Faulty.Meets.fail (hrefused fun old hold ↦ by cases hpresent.trans hold)

/-- The new tree is in its place. -/
structure Active (r : Replacement) (env : Environment ε) (faults : Schedule StoreStep (Point ε))
    (root' : Root ε) : Prop where
  path : ∃ files, env.blobs.manifest r.snapshotHash = some files ∧
    root' (r.path env) = some (.snapshot files)
  moveIn : faults .moveIn = none

omit [DecidableEq ε] in
theorem Active.leaves (h : r.Active env faults root') : r.Leaves env root faults root' := by
  refine .inr ⟨fun hparts ↦ ?_, .inr h.path⟩
  obtain ⟨fault, hfault, -⟩ := hparts.blocked
  rw [h.moveIn] at hfault
  cases hfault

omit [DecidableEq ε] in
theorem moveNewIn_meets {files : List ε} {hadOld : Bool}
    (hvalid : ¬ (trim r.skillId = "" ∨ 512 < r.skillId.utf8ByteSize))
    (hapart : r.Apart env root faults files hadOld root') :
    (moveNewIn (.stage r.stageId) (r.path env) (.backup r.backupId) hadOld).Meets faults
      (fun _ root' ↦ r.Active env faults root') (fun _ ↦ r.Leaves env root faults) root' := by
  -- Nothing was there, or the old tree is aside and the second move does not come about.
  have hblocked : ∀ fault, faults .moveIn = some fault →
      (∀ point, fault = .failure point → hadOld = true → faults .moveBack ≠ none) →
      r.Leaves env root faults root' := by
    intro fault hfault hback
    cases hadOld with
    | false =>
      refine .inr ⟨fun hparts ↦ ?_, .inl (hapart.path.trans (hapart.fresh rfl).symm)⟩
      obtain ⟨old, hold⟩ := hparts.old
      rw [hapart.fresh rfl] at hold
      cases hold
    | true =>
      refine .inl ⟨⟨hvalid, hapart.old rfl, ⟨files, hapart.manifest, hapart.served⟩,
        hapart.prepared rfl, fault, hfault, fun point h ↦ hback point h rfl⟩, hapart.path,
        hapart.backup rfl⟩
  refine Faulty.Meets.bind (P := fun result root'' ↦
    match result with
    | .ok _ => r.Active env faults root''
    | .error _ => root'' = root' ∧ ∃ point, faults .moveIn = some (.failure point)) (.attempt ?_) ?_
  · refine rename_meets (fun hmove ↦ ⟨⟨files, hapart.manifest, ?_⟩, hmove⟩) fun fault hfault ↦ ?_
    · exact (moved_target path_ne_stage _).trans hapart.stage
    · cases fault with
      | failure point => exact ⟨rfl, point, hfault⟩
      | crash point => exact hblocked _ hfault nofun
  intro result root'' h
  cases result with
  | ok _ => exact Faulty.Meets.pure h
  | error e =>
    obtain ⟨rfl, point, hfault⟩ := h
    cases hadOld with
    | false => exact Faulty.Meets.fail (hblocked _ hfault nofun)
    | true =>
      refine Faulty.Meets.bind (P := fun _ ↦ r.Leaves env root faults) (.attempt ?_)
        fun _ _ h ↦ Faulty.Meets.fail h
      refine rename_meets (fun hback ↦ ?_) fun fault hback ↦ ?_
      · refine .inr ⟨fun hparts ↦ ?_, .inl ((moved_target backup_ne_path.symm _).trans
          (hapart.backup rfl))⟩
        obtain ⟨fault, hfault', hnone⟩ := hparts.blocked
        rw [hfault] at hfault'
        cases hfault'
        exact hnone point rfl hback
      · have hleaves := hblocked _ hfault fun _ _ _ h ↦ by rw [hback] at h; cases h
        cases fault <;> exact hleaves

theorem activateSnapshot_meets (hvalid : ¬ (trim r.skillId = "" ∨ 512 < r.skillId.utf8ByteSize))
    (hstage : root (.stage r.stageId) = none) :
    (activateSnapshot env r.snapshotHash (.stage r.stageId) (r.path env)
      (.backup r.backupId)).Meets faults (fun _ ↦ r.Leaves env root faults)
      (fun _ ↦ r.Leaves env root faults) root := by
  refine (materializeSnapshot_meets hstage).bind fun _ root₁ ⟨files, hstaged⟩ ↦ ?_
  refine Faulty.Meets.bind (P := fun _ root₂ ↦ root₂ = root₁ ∧ faults .syncMaterialized = none)
    (Faulty.Meets.inspect (fun hsync ↦ ⟨rfl, hsync⟩) fun fault hfault ↦
      leaves_of_fault hfault (by decide) hstaged.path) ?_
  rintro _ _ ⟨rfl, hsync⟩
  refine (moveOldAside_meets hstaged hsync).bind fun hadOld root₂ hapart ↦ ?_
  refine (moveNewIn_meets hvalid hapart).bind fun _ root₃ hactive ↦ ?_
  refine Faulty.Meets.bind (P := fun _ root₄ ↦ r.Active env faults root₄)
    (Faulty.Meets.inspect (fun _ ↦ hactive) fun _ _ ↦ hactive.leaves) fun _ root₄ hactive ↦ ?_
  cases hadOld with
  | false => exact Faulty.Meets.pure hactive.leaves
  | true =>
    have hremove : (removeTree .removeBackup (.backup r.backupId)).Preserves
        (r.Active env faults) := by
      refine removeTree_preserves _ fun root node h ↦ ⟨?_, h.moveIn⟩
      rw [Function.update_of_ne backup_ne_path.symm]
      exact h.path
    refine Faulty.Meets.bind (P := fun _ ↦ r.Leaves env root faults) ?_
      fun _ _ h ↦ Faulty.Meets.pure h
    exact (hremove.attempt faults root₄ hactive).mono (fun _ _ h ↦ h.leaves) fun _ _ h ↦ h.leaves

/-- Whatever goes wrong, a replacement leaves what its schedule says. -/
theorem leaves_call (r : Replacement) (env : Environment ε) (faults : Schedule StoreStep (Point ε))
    (hstage : root (.stage r.stageId) = none) :
    r.Leaves env root faults (r.call.leaves env faults root) := by
  rw [call, StoreCall.leaves]
  refine Faulty.Meets.final (I := r.Leaves env root faults) ?_
  unfold replaceSnapshot pathForSkill
  by_cases hinvalid : trim r.skillId = "" ∨ 512 < r.skillId.utf8ByteSize
  · rw [if_pos hinvalid]
    exact Faulty.Meets.bind (P := fun _ _ ↦ False)
      (Faulty.Meets.fail (.inr ⟨fun hparts ↦ hparts.valid hinvalid, .inl rfl⟩)) nofun
  · rw [if_neg hinvalid]
    refine Faulty.Meets.bind (P := fun path root' ↦ path = r.path env ∧ root' = root)
      (Faulty.Meets.pure ⟨rfl, rfl⟩) ?_
    rintro _ root ⟨rfl, rfl⟩
    refine Faulty.Meets.bind (P := fun _ ↦ r.Leaves env root faults) (.attempt ?_) ?_
    · refine (activateSnapshot_meets hinvalid hstage).mono (fun _ _ h ↦ h) fun stop _ h ↦ ?_
      cases stop <;> exact h
    · intro result root' h
      cases result with
      | ok path => exact Faulty.Meets.pure h
      | error e =>
        refine Faulty.Meets.bind (P := fun _ ↦ r.Leaves env root faults) ?_
          fun _ _ h ↦ Faulty.Meets.fail h
        exact (removeTree_preserves _ leaves_free_stage).attempt faults root' h

theorem intact_iff (hstage : root (.stage r.stageId) = none) :
    r.Intact env root (r.call.leaves env faults root) ↔ ¬ r.Parts env root faults := by
  constructor
  · intro hintact hparts
    rcases leaves_call r env faults hstage with ⟨-, hnone, -⟩ | ⟨hwhole, -⟩
    · obtain ⟨old, hold⟩ := hparts.old
      rcases hintact with hsame | ⟨files, -, hnew⟩
      · rw [hnone, hold] at hsame
        cases hsame
      · rw [hnone] at hnew
        cases hnew
    · exact hwhole hparts
  · intro hwhole
    rcases leaves_call r env faults hstage with ⟨hparts, -⟩ | ⟨-, hintact⟩
    · exact absurd hparts hwhole
    · exact hintact

end Leaves

end Replacement

/-! ## Later calls -/

namespace StoreCall

def skillId : StoreCall → String
  | create skillId _ | importSnapshot skillId _ | replaceSnapshot skillId _ _ _ | get skillId |
    remove skillId => skillId

/-- The call is about the workspace at this path. -/
def IsAt (env : Environment ε) (path : Entry) (call : StoreCall) : Prop :=
  .workspace (env.digest call.skillId) = path

/-- The call removes the workspace at this path. -/
def Removes (env : Environment ε) (path : Entry) (call : StoreCall) : Prop :=
  call = .remove call.skillId ∧ call.IsAt env path

def snapshotHash? : StoreCall → Option String
  | importSnapshot _ snapshotHash | replaceSnapshot _ snapshotHash _ _ => some snapshotHash
  | _ => none

/-- The call has put the whole snapshot that it is about in place. -/
def Places (env : Environment ε) (path : Entry) (call : StoreCall) (root : Root ε) : Prop :=
  call.IsAt env path ∧ ∃ snapshotHash files, call.snapshotHash? = some snapshotHash ∧
    env.blobs.manifest snapshotHash = some files ∧ root path = some (.snapshot files)

end StoreCall

/-- The tree is in its place or aside. -/
def Held (path : Entry) (tree : Node ε) (root : Root ε) : Prop :=
  root path = some tree ∨ ∃ uuid, root (.backup uuid) = some tree

section Later

variable {root root' : Root ε} {call : StoreCall} {faults : Schedule StoreStep (Point ε)}
  {path : Entry} {old : List (DirEntry ε)}

/-- A call leaves what it has no part in. -/
theorem leaves_of_free {I : Root ε → Prop} (hroot : I root)
    (hpath : Free I (.workspace (env.digest call.skillId))) (hstage : ∀ uuid, Free I (.stage uuid))
    (hbackup : ∀ r : Replacement, call = r.call → Free I (.backup r.backupId)) :
    I (call.leaves env faults root) := by
  cases call with
  | create skillId initialSkillMd =>
    rw [StoreCall.leaves]
    exact (create_preserves hpath faults root hroot).final
  | importSnapshot skillId snapshotHash =>
    rw [StoreCall.leaves]
    exact (importSnapshot_preserves hpath faults root hroot).final
  | replaceSnapshot skillId snapshotHash stageId backupId =>
    have hfree := hbackup ⟨skillId, snapshotHash, stageId, backupId⟩ rfl
    rw [StoreCall.leaves]
    exact (replaceSnapshot_preserves hpath (hstage stageId) hfree faults root hroot).final
  | get skillId =>
    rw [StoreCall.leaves]
    exact (get_preserves skillId faults root hroot).final
  | remove skillId =>
    rw [StoreCall.leaves]
    exact (remove_preserves hpath faults root hroot).final

omit [DecidableEq ε] in
/-- A directory with a file is not made a new workspace. -/
theorem prepareDirectory_fails (hroot : root path = some (.dir old)) (hold : old ≠ []) :
    (prepareDirectory env path).Meets faults (fun _ _ ↦ False)
      (fun _ root' ↦ root' path = some (.dir old)) root := by
  refine Faulty.Meets.bind (P := fun present root' ↦ present = some (.dir old) ∧
    root' path = some (.dir old)) (Faulty.Meets.inspect (fun _ ↦ ⟨hroot, hroot⟩) fun _ _ ↦ hroot) ?_
  rintro _ root' ⟨rfl, hroot'⟩
  have hfiles : (requireNoFiles path old).Meets faults (fun _ _ ↦ False)
      (fun _ root' ↦ root' path = some (.dir old)) root' := by
    refine Faulty.Meets.bind (P := fun _ root' ↦ root' path = some (.dir old))
      (Faulty.Meets.inspect (fun _ ↦ hroot') fun _ _ ↦ hroot') fun _ root' hroot' ↦ ?_
    rw [if_neg hold]
    exact Faulty.Meets.fail hroot'
  refine Faulty.Meets.bind (P := fun _ root'' ↦ root'' = root') (.attempt ?_) ?_
  · refine Faulty.Meets.inspect (fun _ ↦ rfl) fun fault _ ↦ ?_
    cases fault with
    | failure point => rfl
    | crash point => exact hroot'
  rintro result _ rfl
  cases result with
  | error _ => exact hfiles
  | ok _ =>
    dsimp only
    split
    · exact Faulty.Meets.fail hroot'
    · exact hfiles

theorem create_keeps {skillId initialSkillMd : String} (hold : old ≠ [])
    (hroot : root (.workspace (env.digest skillId)) = some (.dir old)) :
    (create env skillId initialSkillMd faults root).2 (.workspace (env.digest skillId)) =
      some (.dir old) := by
  refine Faulty.Meets.final
    (I := fun root : Root ε ↦ root (.workspace (env.digest skillId)) = some (.dir old)) ?_
  unfold create pathForSkill
  split
  · exact Faulty.Meets.bind (P := fun _ _ ↦ False) (Faulty.Meets.fail hroot) nofun
  · refine Faulty.Meets.bind (P := fun path root' ↦ path = .workspace (env.digest skillId) ∧
      root' = root) (Faulty.Meets.pure ⟨rfl, rfl⟩) ?_
    rintro _ root ⟨rfl, rfl⟩
    split
    · exact Faulty.Meets.fail hroot
    · exact (prepareDirectory_fails hroot hold).bind nofun

theorem importSnapshot_keeps {skillId snapshotHash : String} {tree : Node ε}
    (hroot : root (.workspace (env.digest skillId)) = some tree) :
    (importSnapshot env skillId snapshotHash faults root).2 (.workspace (env.digest skillId)) =
      some tree := by
  refine Faulty.Meets.final
    (I := fun root : Root ε ↦ root (.workspace (env.digest skillId)) = some tree) ?_
  unfold importSnapshot pathForSkill
  split
  · exact Faulty.Meets.bind (P := fun _ _ ↦ False) (Faulty.Meets.fail hroot) nofun
  · refine Faulty.Meets.bind (P := fun path root' ↦ path = .workspace (env.digest skillId) ∧
      root' = root) (Faulty.Meets.pure ⟨rfl, rfl⟩) ?_
    rintro _ root ⟨rfl, rfl⟩
    refine Faulty.Meets.bind (P := fun present root' ↦ present = some tree ∧
      root' (.workspace (env.digest skillId)) = some tree)
      (Faulty.Meets.inspect (fun _ ↦ ⟨hroot, hroot⟩) fun _ _ ↦ hroot) ?_
    rintro _ root' ⟨rfl, hroot'⟩
    exact Faulty.Meets.fail hroot'

/-- A tree aside is aside after any call, and a tree in its place is there or aside, unless the
call removes it or puts its snapshot there. -/
theorem Held.step {name : String} (faults : Schedule StoreStep (Point ε)) (hold : old ≠ [])
    (hheld : Held (.workspace name) (.dir old) root)
    (hfresh : call.IsFresh root) (hremoves : ¬ call.Removes env (.workspace name)) :
    Held (.workspace name) (.dir old) (call.leaves env faults root) ∨
      call.Places env (.workspace name) (call.leaves env faults root) := by
  rcases hheld with hpath | ⟨uuid, haside⟩
  · by_cases hat : call.IsAt env (.workspace name)
    · cases hat
      cases call with
      | create skillId initialSkillMd =>
        rw [StoreCall.leaves]
        exact .inl (.inl (create_keeps hold hpath))
      | importSnapshot skillId snapshotHash =>
        rw [StoreCall.leaves]
        exact .inl (.inl (importSnapshot_keeps hpath))
      | replaceSnapshot skillId snapshotHash stageId backupId =>
        let r : Replacement := ⟨skillId, snapshotHash, stageId, backupId⟩
        rcases Replacement.leaves_call r env faults hfresh.1 with ⟨-, -, haside⟩ | ⟨-, hsame | hnew⟩
        · exact .inl (.inr ⟨backupId, haside.trans hpath⟩)
        · exact .inl (.inl (hsame.trans hpath))
        · obtain ⟨files, hfiles, hplaced⟩ := hnew
          exact .inr ⟨rfl, snapshotHash, files, rfl, hfiles, hplaced⟩
      | get skillId =>
        have hkeeps : (get env skillId).Preserves fun root ↦
          root (.workspace (env.digest skillId)) = some (.dir old) := get_preserves skillId
        rw [StoreCall.leaves]
        exact .inl (.inl (hkeeps faults root hpath).final)
      | remove skillId => exact absurd ⟨rfl, rfl⟩ hremoves
    · refine .inl (.inl (leaves_of_free hpath (free_of_ne (Ne.symm hat))
        (fun _ ↦ free_of_ne nofun) fun _ _ ↦ free_of_ne nofun))
  · refine .inl (.inr ⟨uuid, leaves_of_free haside (free_of_ne nofun)
      (fun _ ↦ free_of_ne nofun) ?_⟩)
    rintro r rfl
    refine free_of_ne fun heq ↦ ?_
    rw [heq, hfresh.2] at haside
    cases haside

/-- In a run that does not remove the workspace, the tree is in its place or aside until a call
has put a whole snapshot in place. -/
theorem Held.run {name : String} (hold : old ≠ []) {calls : List (StoreCall × Schedule StoreStep (Point ε))}
    (hheld : Held (.workspace name) (.dir old) root)
    (hremoves : ∀ call ∈ calls, ¬ call.1.Removes env (.workspace name))
    (hrun : (storeCalls env).run root calls = some root') :
    Held (.workspace name) (.dir old) root' ∨ ∃ x ∈ (storeCalls env).trace root calls,
      ∃ after, (storeCalls env).step x.1 x.2 = some after ∧
        x.2.1.Places env (.workspace name) after := by
  induction calls generalizing root with
  | nil =>
    cases hrun
    exact .inl hheld
  | cons call calls ih =>
    obtain ⟨after, hstep, hrun⟩ := TransitionSystem.run_cons_eq_some.mp hrun
    have htrace : (storeCalls env).trace root (call :: calls) =
        (root, call) :: (storeCalls env).trace after calls := by
      rw [TransitionSystem.trace, hstep]
      rfl
    rw [List.forall_mem_cons] at hremoves
    rw [htrace]
    have hfresh : call.1.IsFresh root ∧ call.1.leaves env call.2 root = after := by
      unfold storeCalls at hstep
      dsimp only at hstep
      split at hstep
      case isTrue hfresh => exact ⟨hfresh, Option.some.inj hstep⟩
      case isFalse => cases hstep
    rcases hheld.step call.2 hold hfresh.1 hremoves.1 with hheld | hplaces
    · rw [hfresh.2] at hheld
      rcases ih hheld hremoves.2 hrun with hheld | ⟨x, hx, hplaces⟩
      · exact .inl hheld
      · exact .inr ⟨x, List.mem_cons_of_mem _ hx, hplaces⟩
    · rw [hfresh.2] at hplaces
      exact .inr ⟨_, List.mem_cons_self, after, hstep, hplaces⟩

/-- A run that starts with the replacement and does not remove the workspace keeps its tree, in
its place or aside, until a call has put a whole snapshot in place. -/
def Replacement.KeptLater (r : Replacement) (env : Environment ε) (root : Root ε)
    (faults : Schedule StoreStep (Point ε)) : Prop :=
  ∀ old, old ≠ [] → root (r.path env) = some (.dir old) → ∀ later final,
    (∀ call ∈ later, ¬ call.1.Removes env (r.path env)) →
      (storeCalls env).run root ((r.call, faults) :: later) = some final →
        Held (r.path env) (.dir old) final ∨
          ∃ x ∈ (storeCalls env).trace root ((r.call, faults) :: later), ∃ after,
            (storeCalls env).step x.1 x.2 = some after ∧ x.2.1.Places env (r.path env) after

/-- A replacement leaves the old tree or the whole new one in its place, and no later call loses
the old one, unless the replacement stops between its two moves. -/
theorem replaceSnapshot_intact_iff (r : Replacement) (env : Environment ε)
    (faults : Schedule StoreStep (Point ε)) (hfresh : r.call.IsFresh root) :
    (r.Intact env root (r.call.leaves env faults root) ∧ r.KeptLater env root faults) ↔
      ¬ r.Parts env root faults := by
  rw [← r.intact_iff hfresh.1, and_iff_left_iff_imp]
  rintro - old hold hroot later final hremoves hrun
  refine Held.run hold (.inl hroot) ?_ hrun
  rw [List.forall_mem_cons]
  refine ⟨?_, hremoves⟩
  rintro ⟨hcall, -⟩
  cases hcall

end Later

/-! ## A crash between the moves -/

/-- A blob store with one snapshot of two files. -/
def sampleEnvironment : Environment ℕ where
  digest := id
  entrypoint _ := 1
  isEntrypoint entry := entry = .file 1
  blobs := { manifest := fun _ ↦ some [1, 2], served := fun _ ↦ 2 }

def sampleReplacement : Replacement := ⟨"skill", "hash", "stage", "backup"⟩

/-- A workspace with one file. -/
def sampleRoot : Root ℕ := fun entry ↦ if entry = .workspace "skill" then some (.snapshot [1]) else none

/-- The process is killed before the second move. -/
def killed : Schedule StoreStep (Point ℕ) := fun step ↦
  if step = .moveIn then some (.crash .untouched) else none

theorem replaceSnapshot_intact_iff_killed :
    (sampleReplacement.Intact sampleEnvironment sampleRoot
      (sampleReplacement.call.leaves sampleEnvironment killed sampleRoot) ∧
        sampleReplacement.KeptLater sampleEnvironment sampleRoot killed) ↔
      ¬ sampleReplacement.Parts sampleEnvironment sampleRoot killed :=
  replaceSnapshot_intact_iff sampleReplacement sampleEnvironment killed ⟨rfl, rfl⟩

/-- The workspace was there, and is missing. -/
theorem killed_missing :
    sampleRoot (.workspace "skill") = some (.snapshot [1]) ∧
      sampleReplacement.call.leaves sampleEnvironment killed sampleRoot (.workspace "skill") = none ∧
      ¬ (sampleReplacement.Intact sampleEnvironment sampleRoot
        (sampleReplacement.call.leaves sampleEnvironment killed sampleRoot) ∧
          sampleReplacement.KeptLater sampleEnvironment sampleRoot killed) := by
  have hparts : sampleReplacement.Parts sampleEnvironment sampleRoot killed := by
    refine ⟨?_, ⟨[.file 1], rfl⟩, ⟨[1, 2], rfl, le_rfl⟩, by decide, .crash .untouched, rfl, nofun⟩
    rintro (hblank | hlong)
    · exact trim_ne_empty (by decide) (by decide : isWhiteSpace 's' = false) hblank
    · exact absurd hlong (by decide)
  have hmissing : sampleReplacement.call.leaves sampleEnvironment killed sampleRoot
      (.workspace "skill") = none := by
    have hstage : sampleRoot (.stage sampleReplacement.stageId) = none := rfl
    rcases Replacement.leaves_call sampleReplacement sampleEnvironment killed hstage with
      ⟨-, hnone, -⟩ | ⟨hwhole, -⟩
    · exact hnone
    · exact absurd hparts hwhole
  have hpath : sampleReplacement.path sampleEnvironment = .workspace "skill" := rfl
  refine ⟨rfl, hmissing, fun ⟨hintact, _⟩ ↦ ?_⟩
  unfold Replacement.Intact at hintact
  rw [hpath, hmissing] at hintact
  rcases hintact with hsame | ⟨files, -, hnew⟩
  · cases hsame
  · cases hnew

end WorkspaceStore

end SkillHive
