import SkillHive.Server.BlobGc
import SkillHive.Server.CallerSteps
import SkillHive.Server.FeedPages

/-!
# Trimming the change log

The trim deletes change rows and receipts by their age. The feed reads what is left: a cursor
before the oldest row is refused, and the start of the feed is always served.

The newest row of a skill stands for all its rows, since whoever sees one of them sees that
one. So the feed stays complete as long as the trim leaves every skill its newest row, and no
number of a trimmed row is drawn again. The trim looks at neither: the row of a skill that no
one touched for the retention period goes, and the log draws the number after the largest one
that is left.
-/

namespace SkillHive

open Foundation

namespace Server

/-! ## The trim -/

structure TrimArgs where
  now : ℕ
  changeRetention : ℕ
  receiptRetention : ℕ
  batchSize : ℕ

structure TrimReport where
  changeLogDeleted : ℕ
  receiptsDeleted : ℕ
  oldestRetainedSequence : Option ℕ
  deriving DecidableEq, Repr

/-- The expired change rows of one batch, the oldest sequences first. -/
def expiredSequences (db : Database) (createdAt : CreatedAt) (args : TrimArgs) : List ℕ :=
  (((db.changes.rows.filter fun row ↦
      createdAt.change row.sequence + args.changeRetention < args.now).insertionSort
    fun row row' ↦ row.sequence ≤ row'.sequence).take args.batchSize).map SyncChangeLog.sequence

/-- The expired receipts of one batch, the oldest first. -/
def expiredReceiptKeys (db : Database) (createdAt : CreatedAt) (args : TrimArgs) :
    List ReceiptKey :=
  (((db.receipts.rows.filter fun row ↦
      createdAt.receipt row.key + args.receiptRetention < args.now).insertionSort
    fun row row' ↦ createdAt.receipt row.key ≤ createdAt.receipt row'.key).take
      args.batchSize).map SyncMutationReceipt.key

/-- `trim_expired_rows` -/
def trimExpiredRows (db : Database) (createdAt : CreatedAt) (args : TrimArgs) :
    Database × TrimReport :=
  let sequences := expiredSequences db createdAt args
  let keys := expiredReceiptKeys db createdAt args
  let changes := db.changes.filter fun row ↦ row.sequence ∉ sequences
  ({ db with changes, receipts := db.receipts.filter fun row ↦ row.key ∉ keys },
    ⟨sequences.length, keys.length, oldestRetainedSequence changes⟩)

/-! ## The newest row of a skill -/

/-- The newest of the committed rows about a skill, which tells whether it lies in the trash. -/
structure IsNewest (committed : List SyncChangeLog) (skill : Skill) (row : SyncChangeLog) :
    Prop where
  resourceId : row.resourceId = skill.id
  operation : row.operation = skill.feedOperation
  newest : ∀ other ∈ committed, other.resourceId = skill.id → other.sequence ≤ row.sequence

variable {rt : Runtime} {db db' : Database}

/-- The newest row stays the newest when a row about another skill is committed. -/
theorem IsNewest.append {committed : List SyncChangeLog} {skill : Skill}
    {row added : SyncChangeLog} (h : IsNewest committed skill row)
    (hne : added.resourceId ≠ skill.id) : IsNewest (committed ++ [added]) skill row := by
  refine ⟨h.resourceId, h.operation, fun other hother hid ↦ ?_⟩
  rcases List.mem_append.mp hother with hold | hadded
  · exact h.newest other hold hid
  · exact absurd (List.mem_singleton.mp hadded ▸ hid) hne

/-- A row above all that were committed is the newest of its skill. -/
theorem isNewest_added {committed : List SyncChangeLog} {skill : Skill} {sequence : ℕ}
    (habove : ∀ row ∈ committed, row.sequence < sequence) :
    IsNewest (committed ++ [{ skill.changeRow skill.feedOperation with sequence }]) skill
      { skill.changeRow skill.feedOperation with sequence } := by
  refine ⟨rfl, rfl, fun other hother _ ↦ ?_⟩
  rcases List.mem_append.mp hother with hold | hadded
  · exact (habove other hold).le
  · rw [List.mem_singleton.mp hadded]

/-- The newest row, of the skill with a package. -/
theorem IsNewest.withPackage {committed : List SyncChangeLog} {skill : Skill}
    {row : SyncChangeLog} (h : IsNewest committed skill row) (package : Option BlobHash) :
    IsNewest committed (skill.withPackage package) row :=
  ⟨h.resourceId, h.operation, h.newest⟩

/-! ## Runs -/

namespace TrimmedFeed

/-- The stored database, when its rows were written, and every change row that was ever
committed, in the order of the commits. -/
structure State where
  db : Database
  createdAt : CreatedAt
  committed : List SyncChangeLog

inductive Action where
  /-- A committed operation of the mutation service, which may append to the log. -/
  | operation (operation : SkillOperation) (now : ℕ)
  | trim (args : TrimArgs)
  | pull (ctx : FeedContext) (userId : RowId) (cursor : Option String) (limit : ℕ)

/-- The skill was named by a change row. -/
def State.Knows (s : State) (skillId : RowId) : Prop :=
  ∃ row ∈ s.committed, row.resourceId = skillId

instance (s : State) : DecidablePred s.Knows := fun skillId ↦
  inferInstanceAs (Decidable (∃ row ∈ s.committed, row.resourceId = skillId))

/-- The rows that a transaction appended to the stored log. -/
def appendedRows (db db' : Database) : List SyncChangeLog :=
  db'.changes.rows.filter fun row ↦ nextSequence db.changes ≤ row.sequence

def State.operation (rt : Runtime) (s : State) (operation : SkillOperation) (now : ℕ) :
    State where
  db := operation.next rt s.db
  createdAt :=
    { s.createdAt with
      change := Function.update s.createdAt.change (nextSequence s.db.changes) now }
  committed := s.committed ++ appendedRows s.db (operation.next rt s.db)

def State.trim (s : State) (args : TrimArgs) : State :=
  { s with db := (trimExpiredRows s.db s.createdAt args).1 }

/-- A pull, which may give packages to skills. -/
def State.pull (rt : Runtime) (s : State) (ctx : FeedContext) (userId : RowId)
    (cursor : Option String) (limit : ℕ) : State :=
  match listChanges rt ctx s.db userId cursor limit with
  | .error _ => s
  | .ok (db, _) => { s with db }

def step (rt : Runtime) (s : State) : Action → Option State
  | .operation operation now =>
    if operation.DrawsUnknown s.Knows ∧ operation.FromCaller s.db then
      some (s.operation rt operation now)
    else none
  | .trim args => some (s.trim args)
  | .pull ctx userId cursor limit => some (s.pull rt ctx userId cursor limit)

/-- The log, its writers, its trim and its readers, from an empty store on. -/
def feed (rt : Runtime) : TransitionSystem State Action where
  init s := s.db.skills = .empty ∧ s.db.changes = .empty ∧ s.committed = []
  step := step rt

/-! ### What a pull owes -/

/-- Someone may see the skill: it is not a global one that is not published. -/
def IsServed (skill : Skill) : Prop :=
  skill.skillType = .globalSkill → skill.status = .published

instance : DecidablePred IsServed := fun skill ↦
  inferInstanceAs (Decidable (skill.skillType = .globalSkill → skill.status = .published))

/-- The trim leaves every skill that someone may see its newest row, and an operation draws no
number that a row had before. -/
def KeepsFeed (rt : Runtime) (s : State) : Action → Prop
  | .trim args => ∀ skill ∈ s.db.skills.rows, IsServed skill →
    ∃ row ∈ s.db.changes.rows, row.resourceId = skill.id ∧
      row.sequence ∉ expiredSequences s.db s.createdAt args ∧
      ∀ other ∈ s.db.changes.rows, other.resourceId = skill.id → other.sequence ≤ row.sequence
  | .operation operation _ => ∀ row ∈ appendedRows s.db (operation.next rt s.db),
    ∀ other ∈ s.committed, other.sequence ≠ row.sequence
  | .pull .. => True

instance (rt : Runtime) : ∀ s action, Decidable (KeepsFeed rt s action)
  | s, .trim args => inferInstanceAs (Decidable (∀ skill ∈ s.db.skills.rows, IsServed skill →
      ∃ row ∈ s.db.changes.rows, row.resourceId = skill.id ∧
        row.sequence ∉ expiredSequences s.db s.createdAt args ∧
        ∀ other ∈ s.db.changes.rows, other.resourceId = skill.id →
          other.sequence ≤ row.sequence))
  | s, .operation operation _ =>
    inferInstanceAs (Decidable (∀ row ∈ appendedRows s.db (operation.next rt s.db),
      ∀ other ∈ s.committed, other.sequence ≠ row.sequence))
  | _, .pull .. => .isTrue trivial

variable {s s' : State}

/-! ### The rows of a transaction -/

theorem appendedRows_of_eq (h : db'.changes = db.changes) : appendedRows db db' = [] := by
  rw [appendedRows, h, List.filter_eq_nil_iff]
  intro row hrow hle
  have hlt : row.sequence < nextSequence db.changes := sequence_lt_nextSequence hrow
  exact absurd (decide_eq_true_iff.mp hle) hlt.not_ge

theorem appendedRows_of_append {row : SyncChangeLog}
    (h : db'.changes = appendChange db.changes row) :
    appendedRows db db' = [{ row with sequence := nextSequence db.changes }] := by
  have hold : db.changes.rows.filter (fun row ↦ nextSequence db.changes ≤ row.sequence) = [] :=
    appendedRows_of_eq rfl
  rw [appendedRows, h, appendChange, Table.rows_append, List.filter_append, hold]
  simp

/-! ### The invariant -/

/-- The log tells of every served skill by its newest committed row, and the committed rows have
the numbers from one on. -/
structure Retains (s : State) : Prop where
  isScoped : ∀ id skill, s.db.skill? id = some skill → skill.IsScoped
  tombstones : ∀ row ∈ s.committed, row.operation = .delete →
    ∀ skill, s.db.skill? row.resourceId = some skill → skill.skillType ≠ .globalSkill
  newest : ∀ id skill, s.db.skill? id = some skill → IsServed skill →
    ∃ row ∈ s.db.changes, IsNewest s.committed skill row
  stored : ∀ row ∈ s.db.changes, row ∈ s.committed
  numbered : s.committed.map SyncChangeLog.sequence = List.range' 1 s.committed.length

namespace Retains

theorem sequence_le (h : Retains s) {row : SyncChangeLog} (hrow : row ∈ s.committed) :
    row.sequence ≤ s.committed.length := by
  have hmem : row.sequence ∈ s.committed.map SyncChangeLog.sequence := List.mem_map_of_mem hrow
  rw [h.numbered, List.mem_range'_1] at hmem
  omega

/-- A number that no row had before is the one after all of them. -/
theorem nextSequence_eq (h : Retains s)
    (hnew : ∀ other ∈ s.committed, other.sequence ≠ nextSequence s.db.changes) :
    nextSequence s.db.changes = s.committed.length + 1 := by
  have hle : nextSequence s.db.changes ≤ s.committed.length + 1 := by
    apply nextSequence_le (Nat.le_add_left 1 _)
    exact fun row hrow ↦ Nat.lt_succ_of_le (h.sequence_le (h.stored row hrow))
  refine hle.antisymm (Nat.not_lt.mp fun hlt ↦ ?_)
  have hdrawn : nextSequence s.db.changes ∈ s.committed.map SyncChangeLog.sequence := by
    rw [h.numbered, List.mem_range'_1]
    exact ⟨one_le_nextSequence _, by omega⟩
  obtain ⟨other, hother, heq⟩ := List.mem_map.mp hdrawn
  exact hnew other hother heq

theorem ordered (h : Retains s) :
    s.committed.Pairwise fun row later ↦ row.sequence < later.sequence := by
  rw [← List.pairwise_map, h.numbered]
  exact List.pairwise_lt_range' 1

/-- The invariant after a row above all committed ones was appended. -/
theorem numbered_append (h : Retains s) {row : SyncChangeLog}
    (hrow : row.sequence = s.committed.length + 1) :
    (s.committed ++ [row]).map SyncChangeLog.sequence =
      List.range' 1 (s.committed ++ [row]).length := by
  rw [List.map_append, h.numbered, List.length_append, List.length_singleton,
    List.range'_concat, List.map_singleton, hrow]
  congr 2
  omega

theorem scopedStep (h : Retains s) {db' : Database} {createdAt : CreatedAt}
    (hstep : ScopedStep s.Knows s.db db')
    (hnew : ∀ row ∈ appendedRows s.db db', ∀ other ∈ s.committed,
      other.sequence ≠ row.sequence) :
    Retains ⟨db', createdAt, s.committed ++ appendedRows s.db db'⟩ := by
  cases hstep with
  | unchanged hsame =>
    subst hsame
    rw [appendedRows_of_eq rfl, List.append_nil]
    exact ⟨h.isScoped, h.tombstones, h.newest, h.stored, h.numbered⟩
  | written skill hwritten hscoped hcreated =>
    rw [appendedRows_of_append hwritten.changes] at hnew ⊢
    have hnext := h.nextSequence_eq (hnew _ (List.mem_singleton_self _))
    constructor
    · intro id stored hstored
      rcases hwritten.skill_cases hstored with ⟨-, rfl⟩ | ⟨-, hold⟩
      · exact hscoped
      · exact h.isScoped id stored hold
    · intro row hrow hdelete stored hstored
      rcases List.mem_append.mp hrow with hbefore | hadded
      · rcases hwritten.skill_cases hstored with ⟨hid, rfl⟩ | ⟨-, hold⟩
        · cases hstore : s.db.skill? stored.id with
          | none => exact absurd ⟨row, hbefore, hid⟩ (hcreated hstore)
          | some old =>
            rw [(hwritten.scope old hstore).skillType]
            exact h.tombstones row hbefore hdelete old (hid ▸ hstore)
        · exact h.tombstones row hbefore hdelete stored hold
      · cases List.mem_singleton.mp hadded
        rcases hwritten.skill_cases hstored with ⟨-, rfl⟩ | ⟨hne, -⟩
        · intro hglobal
          have hlive := Skill.feedOperation_of_live (hscoped.shared hglobal).2
          cases hlive.symm.trans hdelete
        · exact absurd rfl hne
    · intro id stored hstored hserved
      simp only [hwritten.changes]
      rcases hwritten.skill_cases hstored with ⟨-, rfl⟩ | ⟨hne, hold⟩
      · refine ⟨_, mem_appendChange.mpr (.inr rfl), isNewest_added fun row hrow ↦ ?_⟩
        exact hnext.symm ▸ Nat.lt_succ_of_le (h.sequence_le hrow)
      · have hid : stored.id = id := Table.key_of_get? hold
        obtain ⟨row, hkept, hrow⟩ := h.newest id stored hold hserved
        exact ⟨row, mem_appendChange.mpr (.inl hkept), hrow.append (hid ▸ Ne.symm hne)⟩
    · intro row hrow
      simp only [hwritten.changes] at hrow
      rcases mem_appendChange.mp hrow with hold | rfl
      · exact List.mem_append_left _ (h.stored row hold)
      · exact List.mem_append_right _ (List.mem_singleton_self _)
    · exact h.numbered_append hnext
  | purged skill hpurged =>
    rw [appendedRows_of_append hpurged.changes] at hnew ⊢
    have hnext := h.nextSequence_eq (hnew _ (List.mem_singleton_self _))
    constructor
    · intro id stored hstored
      exact h.isScoped id stored (hpurged.skill_of_stored hstored).2
    · intro row hrow hdelete stored hstored
      obtain ⟨hne, hold⟩ := hpurged.skill_of_stored hstored
      rcases List.mem_append.mp hrow with hbefore | hadded
      · exact h.tombstones row hbefore hdelete stored hold
      · exact absurd (congrArg SyncChangeLog.resourceId (List.mem_singleton.mp hadded)) hne
    · intro id stored hstored hserved
      obtain ⟨hne, hold⟩ := hpurged.skill_of_stored hstored
      have hid : stored.id = id := Table.key_of_get? hold
      simp only [hpurged.changes]
      obtain ⟨row, hkept, hrow⟩ := h.newest id stored hold hserved
      exact ⟨row, mem_appendChange.mpr (.inl hkept), hrow.append (hid ▸ Ne.symm hne)⟩
    · intro row hrow
      simp only [hpurged.changes] at hrow
      rcases mem_appendChange.mp hrow with hold | rfl
      · exact List.mem_append_left _ (h.stored row hold)
      · exact List.mem_append_right _ (List.mem_singleton_self _)
    · exact h.numbered_append hnext

theorem trim (h : Retains s) {args : TrimArgs} (hkeeps : KeepsFeed rt s (.trim args)) :
    Retains (s.trim args) := by
  have hmem : ∀ {row}, row ∈ (s.trim args).db.changes ↔
      row ∈ s.db.changes ∧ row.sequence ∉ expiredSequences s.db s.createdAt args := by
    intro row
    rw [State.trim, trimExpiredRows, Table.mem_filter, decide_eq_true_iff]
  refine ⟨h.isScoped, h.tombstones, fun id skill hskill hserved ↦ ?_,
    fun row hrow ↦ h.stored row (hmem.mp hrow).1, h.numbered⟩
  have hid : skill.id = id := Table.key_of_get? hskill
  obtain ⟨row, hkept, hrow⟩ := h.newest id skill hskill hserved
  obtain ⟨left, hleft, hleftId, hspared, hlast⟩ :=
    hkeeps skill (Table.mem_of_get? hskill) hserved
  -- The newest row that is stored is the newest one that was committed.
  have hle : row.sequence ≤ left.sequence := hlast row hkept hrow.resourceId
  have hge : left.sequence ≤ row.sequence := hrow.newest left (h.stored left hleft) hleftId
  have hsame : left.sequence = row.sequence := le_antisymm hge hle
  exact ⟨row, hmem.mpr ⟨hkept, hsame ▸ hspared⟩, hrow⟩

theorem pull (h : Retains s) (ctx : FeedContext) (userId : RowId) (cursor : Option String)
    (limit : ℕ) : Retains (s.pull rt ctx userId cursor limit) := by
  unfold State.pull
  cases hlist : listChanges rt ctx s.db userId cursor limit with
  | error error => exact h
  | ok result =>
    obtain ⟨db', response⟩ := result
    obtain ⟨sequence, -, hserved⟩ := listChanges_spec hlist
    have hpackaged : LegacyPackaged s.db db' := hserved.packaged
    constructor
    · intro id stored hstored
      obtain ⟨old, package, hold, rfl⟩ := hpackaged.skill_of_stored hstored
      have hscoped := h.isScoped id old hold
      exact ⟨hscoped.owned, hscoped.grouped, hscoped.shared⟩
    · intro row hrow hdelete stored hstored
      obtain ⟨old, package, hold, rfl⟩ := hpackaged.skill_of_stored hstored
      exact h.tombstones row hrow hdelete old hold
    · intro id skill hskill hskillServed
      obtain ⟨old, package, hold, rfl⟩ := hpackaged.skill_of_stored hskill
      obtain ⟨row, hkept, hrow⟩ := h.newest id old hold hskillServed
      exact ⟨row, hpackaged.changes ▸ hkept, hrow.withPackage package⟩
    · intro row hrow
      exact h.stored row (hpackaged.changes ▸ hrow)
    · exact h.numbered

theorem step {action : Action} (h : Retains s) (hkeeps : KeepsFeed rt s action)
    (hstep : (feed rt).step s action = some s') : Retains s' := by
  cases action with
  | operation operation now =>
    obtain ⟨henabled, hstep⟩ := Option.ite_none_right_eq_some.mp hstep
    cases hstep
    exact h.scopedStep (SkillOperation.next_scopedStep h.isScoped henabled.1 henabled.2) hkeeps
  | trim args =>
    cases hstep
    exact h.trim hkeeps
  | pull ctx userId cursor limit =>
    cases hstep
    exact h.pull ctx userId cursor limit

end Retains

namespace Sample

open Server.Sample

def start : State := ⟨database, epoch, []⟩

/-- The device's create. -/
def created : Action :=
  .operation (.createSkill (context version₁) user
    (syncSkill user demoMetadata)
    (syncVersion "demo" "# Demo" "" packageHash none)) 0

/-- A trim at which all rows are expired. -/
def trimmed (batchSize : ℕ) : Action := .trim ⟨100, 10, 10, batchSize⟩

/-- A skill is created, and the log is trimmed after the retention period. -/
def idleRun : List Action := [created, trimmed 1000]

theorem init_start (rt : Runtime) : (feed rt).init start := ⟨rfl, rfl, rfl⟩

def reader : FeedContext :=
  ⟨storage, ⟨.empty, .empty, .empty, .empty⟩, ⟨fun _ ↦ "", fun _ ↦ ""⟩, 0⟩

end Sample

end TrimmedFeed

end Server

end SkillHive
