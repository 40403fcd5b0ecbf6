import Mathlib.Data.Fintype.Basic
import SkillHive.Server.LogTrim

/-!
# Change rows that commit out of order

A row of the change log has its sequence number from its insert on, and becomes visible to others
when its transaction commits. Transactions overlap, so a larger number may commit first. A reader
asks for the rows above his cursor and moves it to the last row that he got.

The database draws numbers at the insert, never twice, and shows no row of an open transaction.
-/

namespace SkillHive

open Foundation

namespace Server

namespace CommitOrder

/-- What has become of a row that was inserted. -/
inductive RowStatus (ι : Type) where
  | committed
  | written (writer : ι)
  | rolledBack
  deriving DecidableEq, Repr

/-- A page that the reader got: what was stored, the rows that it covers and the items served. -/
structure Pull where
  ctx : FeedContext
  db : Database
  rows : List SyncChangeLog
  items : List SyncChangeItem

/-- The tables with every row that was inserted into the log, what became of these, and the
reader. -/
structure State (ι : Type) where
  tables : Database
  status : ℕ → RowStatus ι
  cursor : Option String
  pulls : List Pull

inductive Action (ι : Type) where
  /-- `session.add(SyncChangeLog(…))` and its flush in an open transaction. -/
  | insert (writer : ι) (row : SyncChangeLog)
  /-- The commit of a transaction; `tables` is what else it makes of the database. -/
  | commit (writer : ι) (tables : Database)
  | rollback (writer : ι)
  | pull (ctx : FeedContext) (limit : ℕ)

variable {ι : Type} [DecidableEq ι]

/-- What is committed. -/
def State.db (s : State ι) : Database :=
  { s.tables with
    changes := s.tables.changes.filter fun row ↦ s.status row.sequence = .committed }

def State.insert (s : State ι) (writer : ι) (row : SyncChangeLog) : State ι :=
  { s with
    tables := { s.tables with changes := appendChange s.tables.changes row }
    status := Function.update s.status (nextSequence s.tables.changes) (.written writer) }

/-- The rows of the writer's transaction with another status. -/
def State.endWith (s : State ι) (writer : ι) (status : RowStatus ι) : ℕ → RowStatus ι :=
  fun sequence ↦ if s.status sequence = .written writer then status else s.status sequence

def State.commit (s : State ι) (writer : ι) (tables : Database) : State ι :=
  { s with
    tables := { tables with changes := s.tables.changes }
    status := s.endWith writer .committed }

def State.rollback (s : State ι) (writer : ι) : State ι :=
  { s with status := s.endWith writer .rolledBack }

/-- The rows that a pull covers. -/
def State.page (s : State ι) (limit : ℕ) : List SyncChangeLog :=
  (decodeSyncCursor s.cursor).toOption.elim [] fun sequence ↦
    (rowsAfter s.db.changes sequence).take (boundedLimit limit)

def State.pull (rt : Runtime) (s : State ι) (userId : RowId) (ctx : FeedContext) (limit : ℕ) :
    Option (State ι) :=
  (listChanges rt ctx s.db userId s.cursor limit).toOption.map fun (db, response) ↦
    { s with
      tables := { db with changes := s.tables.changes }
      cursor := some response.nextCursor
      pulls := ⟨ctx, s.db, s.page limit, response.changes⟩ :: s.pulls }

def step (rt : Runtime) (userId : RowId) (s : State ι) : Action ι → Option (State ι)
  | .insert writer row => some (s.insert writer row)
  | .commit writer tables => some (s.commit writer tables)
  | .rollback writer => some (s.rollback writer)
  | .pull ctx limit => s.pull rt userId ctx limit

variable (ι) in
/-- Writers and one reader, from an empty log on. -/
def feed (rt : Runtime) (userId : RowId) : TransitionSystem (State ι) (Action ι) where
  init s := s.tables.changes = .empty ∧ s.cursor = none ∧ s.pulls = []
  step := step rt userId

/-- A pull covered the row, and served it if the reader might see it then. -/
def State.Told (s : State ι) (userId : RowId) (row : SyncChangeLog) : Prop :=
  ∃ pull ∈ s.pulls, row ∈ pull.rows ∧
    (rowVisible pull.ctx.directory pull.db userId row = true →
      ∃ item ∈ pull.items, Serves pull.ctx pull.db userId item row)

/-- The reader was told every committed row that his cursor has passed. -/
def State.Complete (s : State ι) (userId : RowId) : Prop :=
  ∀ sequence, decodeSyncCursor s.cursor = .ok sequence →
    ∀ row ∈ s.db.changes, row.sequence ≤ sequence → s.Told userId row

/-- The action ends a transaction. -/
def Action.IsEnd : Action ι → Prop
  | .commit _ _ | .rollback _ => True
  | .insert _ _ | .pull _ _ => False

/-- The reader is told everything, however the open transactions end. -/
def State.Settles (rt : Runtime) (s : State ι) (userId : RowId) : Prop :=
  ∀ ends : List (Action ι), (∀ action ∈ ends, action.IsEnd) →
    (feed ι rt userId).Always (fun t ↦ t.Complete userId) s ends

/-- No open transaction has drawn a number below that of a row on the page. -/
def PastWriters (s : State ι) : Action ι → Prop
  | .pull _ limit => ∀ row ∈ s.tables.changes.rows, ∀ writer,
    s.status row.sequence = .written writer →
      ∀ other ∈ s.page limit, other.sequence < row.sequence
  | .insert _ _ | .commit _ _ | .rollback _ => True

instance [Fintype ι] (s : State ι) : (action : Action ι) → Decidable (PastWriters s action)
  | .pull _ limit => inferInstanceAs (Decidable (∀ row ∈ s.tables.changes.rows, ∀ writer,
      s.status row.sequence = .written writer → ∀ other ∈ s.page limit, other.sequence < row.sequence))
  | .insert _ _ | .commit _ _ | .rollback _ => .isTrue trivial

variable {rt : Runtime} {userId : RowId} {s s' : State ι} {action : Action ι}

theorem mem_db_changes {row : SyncChangeLog} :
    row ∈ s.db.changes ↔ row ∈ s.tables.changes ∧ s.status row.sequence = .committed := by
  rw [State.db, Table.mem_filter, decide_eq_true_iff]

theorem page_eq {sequence : ℕ} (h : decodeSyncCursor s.cursor = .ok sequence) (limit : ℕ) :
    s.page limit = (rowsAfter s.db.changes sequence).take (boundedLimit limit) := by
  rw [State.page, h]
  rfl

/-! ## The reader's position -/

/-- The cursor is a position in the log, and what the reader got was committed. -/
structure Positioned (s : State ι) : Prop where
  cursor : ∃ sequence, decodeSyncCursor s.cursor = .ok sequence ∧
    sequence < nextSequence s.tables.changes
  pulls : ∀ pull ∈ s.pulls, ∀ row ∈ pull.rows, row ∈ s.db.changes

/-- The open transactions have their numbers from above the cursor. -/
def State.Ahead (s : State ι) : Prop :=
  ∀ sequence, decodeSyncCursor s.cursor = .ok sequence → ∀ row ∈ s.tables.changes,
    ∀ writer, s.status row.sequence = .written writer → sequence < row.sequence

/-- What a pull does. -/
theorem pull_spec {ctx : FeedContext} {limit sequence : ℕ}
    (h : s.pull rt userId ctx limit = some s') (hdecode : decodeSyncCursor s.cursor = .ok sequence) :
    s'.tables.changes = s.tables.changes ∧ s'.status = s.status ∧
      decodeSyncCursor s'.cursor = .ok (pageEnd s.db.changes sequence (boundedLimit limit)) ∧
      ∃ items, s'.pulls = ⟨ctx, s.db, s.page limit, items⟩ :: s.pulls ∧
        List.Forall₂ (Serves ctx s.db userId) items
          ((s.page limit).filter (rowVisible ctx.directory s.db userId)) := by
  obtain ⟨⟨db, response⟩, hlist, h⟩ := Option.map_eq_some_iff.mp h
  cases h
  obtain ⟨_, hdecode', hserved⟩ := listChanges_spec (toOption_eq_some.mp hlist)
  cases hdecode.symm.trans hdecode'
  refine ⟨rfl, rfl, decodeSyncCursor_encode hserved.nextCursor, response.changes, rfl, ?_⟩
  rw [page_eq hdecode]
  exact hserved.served

theorem db_changes_eq (hchanges : s'.tables.changes = s.tables.changes) (hstatus : s'.status = s.status) :
    s'.db.changes = s.db.changes := by
  simp only [State.db, hchanges, hstatus]

omit [DecidableEq ι] in
theorem State.Told.mono {row : SyncChangeLog} (h : s.Told userId row)
    (hpulls : ∀ pull ∈ s.pulls, pull ∈ s'.pulls) : s'.Told userId row := by
  obtain ⟨pull, hpull, htold⟩ := h
  exact ⟨pull, hpulls pull hpull, htold⟩

/-! ## Positions -/

/-- A status that is not the writer's stays, and the writer's becomes the new one. -/
theorem endWith_eq_iff {writer : ι} {status other : RowStatus ι} {sequence : ℕ}
    (hother : other ≠ status) :
    s.endWith writer status sequence = other ↔
      s.status sequence = other ∧ s.status sequence ≠ .written writer := by
  unfold State.endWith
  split
  case isTrue h => exact iff_of_false hother.symm fun hboth ↦ hboth.2 h
  case isFalse h => exact ⟨fun hsame ↦ ⟨hsame, h⟩, And.left⟩

omit [DecidableEq ι] in
theorem insert_status {writer : ι} {row old : SyncChangeLog} (hold : old ∈ s.tables.changes) :
    (s.insert writer row).status old.sequence = s.status old.sequence :=
  Function.update_of_ne (sequence_lt_nextSequence hold).ne _ _

namespace Positioned

theorem insert (h : Positioned s) (writer : ι) (row : SyncChangeLog) :
    Positioned (s.insert writer row) := by
  constructor
  · obtain ⟨sequence, hdecode, hlt⟩ := h.cursor
    exact ⟨sequence, hdecode, hlt.trans (nextSequence_lt_appendChange _ _)⟩
  · intro pull hpull other hother
    obtain ⟨hmem, hcommitted⟩ := mem_db_changes.mp (h.pulls pull hpull other hother)
    exact mem_db_changes.mpr ⟨mem_appendChange.mpr (.inl hmem), (insert_status hmem).trans hcommitted⟩

/-- The end of a transaction takes no row from the committed ones. -/
theorem endWith (h : Positioned s) {writer : ι} {status : RowStatus ι}
    (hchanges : s'.tables.changes = s.tables.changes) (hstatus : s'.status = s.endWith writer status)
    (hcursor : s'.cursor = s.cursor) (hpulls : s'.pulls = s.pulls) : Positioned s' := by
  constructor
  · rw [hcursor, hchanges]
    exact h.cursor
  · rw [hpulls]
    intro pull hpull other hother
    obtain ⟨hmem, hcommitted⟩ := mem_db_changes.mp (h.pulls pull hpull other hother)
    refine mem_db_changes.mpr ⟨hchanges ▸ hmem, ?_⟩
    rw [hstatus, State.endWith, hcommitted, if_neg (by simp)]

theorem pull (h : Positioned s) {ctx : FeedContext} {limit : ℕ}
    (hpull : s.pull rt userId ctx limit = some s') : Positioned s' := by
  obtain ⟨sequence, hdecode, hlt⟩ := h.cursor
  obtain ⟨hchanges, hstatus, hcursor, items, hpulls, -⟩ := pull_spec hpull hdecode
  have hpage : ∀ row ∈ s.page limit, row ∈ s.db.changes := by
    rw [page_eq hdecode]
    exact fun row hrow ↦ (mem_rowsAfter.mp (List.mem_of_mem_take hrow)).1
  constructor
  · refine ⟨_, hcursor, lastKey_lt (hchanges ▸ hlt) fun row hrow ↦ ?_⟩
    rw [← page_eq hdecode] at hrow
    exact hchanges ▸ sequence_lt_nextSequence (mem_db_changes.mp (hpage row hrow)).1
  · rw [hpulls, db_changes_eq hchanges hstatus]
    intro other hother row hrow
    rcases List.mem_cons.mp hother with rfl | hold
    · exact hpage row hrow
    · exact h.pulls other hold row hrow

theorem step (h : Positioned s) (hstep : (feed ι rt userId).step s action = some s') :
    Positioned s' := by
  cases action with
  | insert writer row =>
    cases hstep
    exact h.insert writer row
  | commit writer tables =>
    cases hstep
    exact h.endWith rfl rfl rfl rfl
  | rollback writer =>
    cases hstep
    exact h.endWith rfl rfl rfl rfl
  | pull ctx limit => exact h.pull hstep

end Positioned

/-! ## Open transactions -/

/-- The reader was told what his cursor has passed, and the open transactions lie ahead of it. -/
structure Safe (s : State ι) (userId : RowId) : Prop where
  complete : s.Complete userId
  ahead : s.Ahead

namespace Safe

theorem insert (h : Safe s userId) (hpositioned : Positioned s) (writer : ι) (row : SyncChangeLog) :
    Safe (s.insert writer row) userId := by
  constructor
  · intro sequence hdecode other hother hle
    obtain ⟨hmem, hcommitted⟩ := mem_db_changes.mp hother
    rcases mem_appendChange.mp hmem with hold | rfl
    · refine h.complete sequence hdecode other (mem_db_changes.mpr ⟨hold, ?_⟩) hle
      exact (insert_status hold).symm.trans hcommitted
    · have hwritten : (s.insert writer row).status (nextSequence s.tables.changes) =
          .written writer := Function.update_self _ _ _
      cases hcommitted.symm.trans hwritten
  · intro sequence hdecode other hmem writer' hwritten
    rcases mem_appendChange.mp hmem with hold | rfl
    · exact h.ahead sequence hdecode other hold writer' ((insert_status hold).symm.trans hwritten)
    · obtain ⟨_, hdecode', hlt⟩ := hpositioned.cursor
      cases hdecode.symm.trans hdecode'
      exact hlt

/-- Rows of a transaction that ends lie ahead of the cursor. -/
theorem endWith (h : Safe s userId) {writer : ι} {status : RowStatus ι}
    (hopen : ∀ other : ι, status ≠ .written other)
    (hchanges : s'.tables.changes = s.tables.changes) (hstatus : s'.status = s.endWith writer status)
    (hcursor : s'.cursor = s.cursor) (hpulls : s'.pulls = s.pulls) : Safe s' userId := by
  constructor
  · intro sequence hdecode row hrow hle
    rw [hcursor] at hdecode
    obtain ⟨hmem, hcommitted⟩ := mem_db_changes.mp hrow
    rw [hchanges] at hmem
    rw [hstatus, State.endWith] at hcommitted
    split at hcommitted
    case isTrue hwritten =>
      exact absurd hle (Nat.not_le.mpr (h.ahead sequence hdecode row hmem writer hwritten))
    case isFalse =>
      refine (h.complete sequence hdecode row (mem_db_changes.mpr ⟨hmem, hcommitted⟩) hle).mono ?_
      exact fun pull hpull ↦ hpulls ▸ hpull
  · intro sequence hdecode row hrow other hwritten
    rw [hcursor] at hdecode
    rw [hchanges] at hrow
    rw [hstatus, endWith_eq_iff (hopen other).symm] at hwritten
    exact h.ahead sequence hdecode row hrow other hwritten.1

theorem end_step (h : Safe s userId) (hend : action.IsEnd)
    (hstep : (feed ι rt userId).step s action = some s') : Safe s' userId := by
  cases action with
  | commit writer tables =>
    cases hstep
    exact h.endWith (by simp) rfl rfl rfl rfl
  | rollback writer =>
    cases hstep
    exact h.endWith (by simp) rfl rfl rfl rfl
  | insert writer row => exact hend.elim
  | pull ctx limit => exact hend.elim

theorem pull (h : Safe s userId) (hpositioned : Positioned s) {ctx : FeedContext} {limit : ℕ}
    (hpast : PastWriters s (.pull ctx limit)) (hpull : s.pull rt userId ctx limit = some s') :
    Safe s' userId := by
  obtain ⟨sequence, hdecode, -⟩ := hpositioned.cursor
  obtain ⟨hchanges, hstatus, hcursor, items, hpulls, hitems⟩ := pull_spec hpull hdecode
  constructor
  · intro passed hdecode' row hrow hle
    cases hcursor.symm.trans hdecode'
    rw [db_changes_eq hchanges hstatus] at hrow
    rcases Nat.lt_or_ge sequence row.sequence with hafter | hbefore
    · have hpage : row ∈ s.page limit := by
        rw [page_eq hdecode]
        exact mem_page_iff.mpr ⟨hrow, hafter, hle⟩
      refine ⟨_, hpulls ▸ List.mem_cons_self, hpage, fun hvisible ↦ ?_⟩
      exact exists_of_mem_left hitems.flip (List.mem_filter.mpr ⟨hpage, hvisible⟩)
    · refine (h.complete sequence hdecode row hrow hbefore).mono fun pull hold ↦ ?_
      exact hpulls ▸ List.mem_cons_of_mem _ hold
  · intro passed hdecode' row hrow writer hwritten
    cases hcursor.symm.trans hdecode'
    rw [hchanges] at hrow
    rw [hstatus] at hwritten
    refine lastKey_lt (h.ahead sequence hdecode row hrow writer hwritten) ?_
    rw [← page_eq hdecode]
    exact hpast row hrow writer hwritten

end Safe

/-- The reader is told everything, whatever becomes of the open transactions, exactly if he was
told what his cursor has passed and they lie ahead of it. -/
theorem settles_iff_safe (hpositioned : Positioned s) : s.Settles rt userId ↔ Safe s userId := by
  constructor
  · intro h
    refine ⟨h [] (by simp), fun sequence hdecode row hrow writer hwritten ↦ ?_⟩
    by_contra hpassed
    have hcommit : (feed ι rt userId).step s (.commit writer s.tables) =
        some (s.commit writer s.tables) := rfl
    have hcomplete := ((h [.commit writer s.tables] (by simp [Action.IsEnd])).2 _ hcommit).head
    have hnow : row ∈ (s.commit writer s.tables).db.changes :=
      mem_db_changes.mpr ⟨hrow, if_pos hwritten⟩
    obtain ⟨pull, hpull, hcovered, -⟩ := hcomplete sequence hdecode row hnow (Nat.not_lt.mp hpassed)
    have hbefore := mem_db_changes.mp (hpositioned.pulls pull hpull row hcovered)
    cases hwritten.symm.trans hbefore.2
  · intro h ends hends
    refine TransitionSystem.Always.mono (fun t ht ↦ ht.complete) (P := fun t ↦ Safe t userId) ?_
    refine TransitionSystem.EachStep.always (C := fun _ action ↦ action.IsEnd)
      (fun t action t' ht hend hstep ↦ ht.end_step hend hstep) ?_ h
    exact TransitionSystem.eachStep_of_forall (fun action haction _ ↦ hends action haction) s

/-! ## Every run -/

theorem settles_step_iff (hpositioned : Positioned s) (hsettles : s.Settles rt userId)
    (hstep : (feed ι rt userId).step s action = some s') :
    s'.Settles rt userId ↔ PastWriters s action := by
  have hsafe := (settles_iff_safe hpositioned).mp hsettles
  rw [settles_iff_safe (hpositioned.step hstep)]
  cases action with
  | insert writer row =>
    cases hstep
    exact iff_of_true (hsafe.insert hpositioned writer row) trivial
  | commit writer tables =>
    have hend : (Action.commit writer tables).IsEnd := trivial
    exact iff_of_true (hsafe.end_step hend hstep) trivial
  | rollback writer =>
    have hend : (Action.rollback writer).IsEnd := trivial
    exact iff_of_true (hsafe.end_step hend hstep) trivial
  | pull ctx limit =>
    refine ⟨fun hafter row hrow writer hwritten other hother ↦ ?_,
      fun hpast ↦ hsafe.pull hpositioned hpast hstep⟩
    obtain ⟨sequence, hdecode, -⟩ := hpositioned.cursor
    obtain ⟨hchanges, hstatus, hcursor, -⟩ := pull_spec hstep hdecode
    have hahead := hafter.ahead _ hcursor row (hchanges ▸ hrow) writer (hstatus ▸ hwritten)
    rw [page_eq hdecode] at hother
    exact (mem_page_iff.mp hother).2.2.trans_lt hahead

/-- Over every run, in every state and however the open transactions end, the reader was told
every committed row that his cursor has passed, exactly if every page lies below the numbers that
the open transactions have drawn. -/
theorem always_settles_iff_pastWriters (hinit : (feed ι rt userId).init s)
    (actions : List (Action ι)) :
    (feed ι rt userId).Always (fun t ↦ t.Settles rt userId) s actions ↔
      (feed ι rt userId).EachStep PastWriters s actions := by
  obtain ⟨hchanges, hcursor, hpulls⟩ := hinit
  have hpositioned : Positioned s := by
    refine ⟨⟨0, by rw [hcursor]; rfl, Nat.succ_pos _⟩, ?_⟩
    rw [hpulls]
    exact fun pull hpull ↦ absurd hpull List.not_mem_nil
  refine TransitionSystem.always_iff_eachStep (I := Positioned)
    (fun _ _ _ h hstep ↦ h.step hstep)
    (fun _ _ _ h hsettles hstep ↦ settles_step_iff h hsettles hstep) hpositioned ?_
  have hempty : ∀ row, row ∉ s.tables.changes := by simp [hchanges]
  refine (settles_iff_safe hpositioned).mpr ⟨fun _ _ row hrow ↦ ?_, fun _ _ row hrow ↦ ?_⟩
  · exact absurd (mem_db_changes.mp hrow).1 (hempty row)
  · exact absurd hrow (hempty row)

/-! ### A row that is skipped -/

namespace Sample

open Server.Sample

/-- Two writers. -/
def start : State Bool where
  tables := database
  status _ := .committed
  cursor := none
  pulls := []

/-- The change row of a skill. -/
def change : SyncChangeLog :=
  ((syncSkill user demoMetadata).row (context version₁) user none).changeRow .upsert

/-- The database with the skill. -/
def stored : Database :=
  { database with
    skills := ⟨[(syncSkill user demoMetadata).row (context version₁) user (some packageHash)],
      by decide⟩ }

def pulled : Action Bool := .pull TrimmedFeed.Sample.reader 200

/-- The transactions commit in the order of their numbers. -/
def orderedRun : List (Action Bool) :=
  [.insert false change, .insert true change, .commit false stored, pulled, .commit true stored,
    pulled]

/-- The second transaction commits first, and the reader pulls before the other one commits. -/
def crossedRun : List (Action Bool) :=
  [.insert false change, .insert true change, .commit true stored, pulled, .commit false stored,
    pulled]

theorem init_start (rt : Runtime) : (feed Bool rt user).init start := ⟨rfl, rfl, rfl⟩

end Sample

open Server.Sample Sample in
theorem always_settles_ordered :
    (feed Bool runtime user).Always (fun t ↦ t.Settles runtime user) start orderedRun :=
  (always_settles_iff_pastWriters (init_start _) _).mpr (by decide +kernel)

open Server.Sample Sample in
/-- The first row commits below the cursor. The user may see it, and no pull has served it. -/
theorem crossed_skips :
    (feed Bool runtime user).init start ∧
      ∃ t, (feed Bool runtime user).run start crossedRun = some t ∧
        (∃ row ∈ t.db.changes, row.sequence = 1 ∧
          rowVisible TrimmedFeed.Sample.reader.directory t.db user row = true) ∧
        (t.pulls.flatMap fun pull ↦ pull.items.map SyncChangeItem.sequence) = [2] ∧
        ¬ t.Complete user := by
  have hlooks : ((feed Bool runtime user).run start crossedRun).map (fun t ↦
      ((decodeSyncCursor t.cursor).toOption,
        t.pulls.flatMap fun pull ↦ pull.items.map SyncChangeItem.sequence,
        t.pulls.flatMap fun pull ↦ pull.rows.map SyncChangeLog.sequence,
        decide (∃ row ∈ t.db.changes.rows, row.sequence = 1 ∧
          rowVisible TrimmedFeed.Sample.reader.directory t.db user row = true))) =
      some (some 2, [2], [2], true) := by
    decide +kernel
  obtain ⟨t, hrun, ht⟩ := Option.map_eq_some_iff.mp hlooks
  simp only [Prod.mk.injEq, decide_eq_true_iff] at ht
  obtain ⟨hcursor, hitems, hrows, row, hrow, hsequence, hvisible⟩ := ht
  refine ⟨init_start _, t, hrun, ⟨row, hrow, hsequence, hvisible⟩, hitems, fun hcomplete ↦ ?_⟩
  obtain ⟨pull, hpull, hcovered, -⟩ :=
    hcomplete 2 (toOption_eq_some.mp hcursor) row hrow (by omega)
  have hmem : row.sequence ∈ t.pulls.flatMap fun pull ↦ pull.rows.map SyncChangeLog.sequence :=
    List.mem_flatMap.mpr ⟨pull, hpull, List.mem_map_of_mem hcovered⟩
  rw [hrows, hsequence] at hmem
  exact absurd hmem (by decide)

end CommitOrder

end Server

end SkillHive
