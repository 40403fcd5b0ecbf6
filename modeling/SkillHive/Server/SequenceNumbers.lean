import SkillHive.Server.LogTrim

/-!
# Sequence numbers of the stored log

A row of the log takes the number after the largest one in the log, which is what an integer
primary key without a counter of its own does. Clients hold cursors that nothing in the database
tells of. Here the trimmed rows are gone, so a trim that takes the newest row takes the only
trace of its number.
-/

namespace SkillHive

open Foundation

namespace Server

namespace SequenceNumbers

/-! ## Runs -/

/-- What becomes of numbers: one is drawn for a row, or given to a client as its cursor. -/
inductive Event where
  | drawn (sequence : ℕ)
  | handedOut (sequence : ℕ)
  deriving DecidableEq, Repr

/-- A number is drawn once, and above every cursor that was handed out before. -/
def Event.Respects : Event → Event → Prop
  | .drawn earlier, .drawn sequence => earlier ≠ sequence
  | .handedOut cursor, .drawn sequence => cursor < sequence
  | _, .handedOut _ => True

instance : DecidableRel Event.Respects
  | .drawn _, .drawn _ => inferInstanceAs (Decidable (_ ≠ _))
  | .handedOut _, .drawn _ => inferInstanceAs (Decidable (_ < _))
  | .drawn _, .handedOut _ => .isTrue trivial
  | .handedOut _, .handedOut _ => .isTrue trivial

/-- The database, the `created_at` of its rows, and what became of numbers, the last first. -/
structure State where
  db : Database
  createdAt : CreatedAt
  events : List Event

inductive Action where
  /-- A transaction that appends a row; `tables` is what else it makes of the database. -/
  | append (tables : Database) (row : SyncChangeLog) (now : ℕ)
  | trim (args : TrimArgs)
  | pull (ctx : FeedContext) (userId : RowId) (cursor : Option String) (limit : ℕ)

def State.append (s : State) (tables : Database) (row : SyncChangeLog) (now : ℕ) : State where
  db := { tables with changes := appendChange s.db.changes row }
  createdAt :=
    { s.createdAt with
      change := Function.update s.createdAt.change (nextSequence s.db.changes) now }
  events := .drawn (nextSequence s.db.changes) :: s.events

def State.trim (s : State) (args : TrimArgs) : State :=
  { s with db := (trimExpiredRows s.db s.createdAt args).1 }

/-- The client has the cursor from the server, or starts without one. -/
def State.Holds (s : State) (cursor : Option String) : Prop :=
  ∀ sequence ∈ (decodeSyncCursor cursor).toOption,
    sequence = 0 ∨ Event.handedOut sequence ∈ s.events

instance (s : State) (cursor : Option String) : Decidable (s.Holds cursor) :=
  inferInstanceAs (Decidable (∀ sequence ∈ (decodeSyncCursor cursor).toOption, _))

def State.pull (rt : Runtime) (s : State) (ctx : FeedContext) (userId : RowId)
    (cursor : Option String) (limit : ℕ) : State :=
  match listChanges rt ctx s.db userId cursor limit with
  | .error _ => s
  | .ok (db, response) =>
    let handed := (decodeSyncCursor (some response.nextCursor)).toOption.map .handedOut
    { s with db, events := handed.toList ++ s.events }

def step (rt : Runtime) (s : State) : Action → Option State
  | .append tables row now => some (s.append tables row now)
  | .trim args => some (s.trim args)
  | .pull ctx userId cursor limit =>
    if s.Holds cursor then some (s.pull rt ctx userId cursor limit) else none

/-- The stored log, its writers, its trim and its readers, from an empty log on. -/
def log (rt : Runtime) : TransitionSystem State Action where
  init s := s.db.changes = .empty ∧ s.events = []
  step := step rt

/-- What was drawn so far, and the number that comes next, respects what was before it. -/
def State.Sound (s : State) : Prop :=
  (Event.drawn (nextSequence s.db.changes) :: s.events).Pairwise fun later earlier ↦
    earlier.Respects later

instance (s : State) : Decidable s.Sound := inferInstanceAs (Decidable (List.Pairwise _ _))

/-- The trim leaves the newest row of the log. -/
def KeepsNewest (s : State) : Action → Prop
  | .trim args => ∀ row ∈ s.db.changes.rows, row.sequence + 1 = nextSequence s.db.changes →
    row.sequence ∉ expiredSequences s.db s.createdAt args
  | .append .. | .pull .. => True

instance : ∀ s action, Decidable (KeepsNewest s action)
  | s, .trim args => inferInstanceAs (Decidable (∀ row ∈ s.db.changes.rows,
      row.sequence + 1 = nextSequence s.db.changes →
        row.sequence ∉ expiredSequences s.db s.createdAt args))
  | _, .append .. | _, .pull .. => .isTrue trivial

variable {rt : Runtime} {s s' : State}

/-! ## Numbers that were drawn -/

/-- Every row has a number that was drawn, with all those below it, and so has every cursor. -/
structure Drawn (s : State) : Prop where
  rows : ∀ row ∈ s.db.changes, Event.drawn row.sequence ∈ s.events
  positive : ∀ sequence, Event.drawn sequence ∈ s.events → 1 ≤ sequence
  below : ∀ sequence, Event.drawn sequence ∈ s.events → ∀ n, 1 ≤ n → n ≤ sequence →
    Event.drawn n ∈ s.events
  cursors : ∀ cursor, Event.handedOut cursor ∈ s.events →
    cursor = 0 ∨ Event.drawn cursor ∈ s.events

/-- The numbers up to the one below the next were drawn. -/
theorem Drawn.of_lt_next (h : Drawn s) {n : ℕ} (hone : 1 ≤ n)
    (hlt : n < nextSequence s.db.changes) : Event.drawn n ∈ s.events := by
  obtain ⟨row, hrow, hnext⟩ := exists_newest (hone.trans_lt hlt).ne'
  exact h.below row.sequence (h.rows row hrow) n hone (by omega)

namespace State.Sound

/-- The next number lies above all that were drawn. -/
theorem drawn_lt (hdrawn : Drawn s) (h : s.Sound) {n : ℕ} (hn : Event.drawn n ∈ s.events) :
    n < nextSequence s.db.changes := by
  by_contra hle
  have hnext := hdrawn.below n hn _ (one_le_nextSequence _) (Nat.not_lt.mp hle)
  exact (List.pairwise_cons.mp h).1 _ hnext rfl

theorem handedOut_lt (h : s.Sound) {cursor : ℕ} (hcursor : Event.handedOut cursor ∈ s.events) :
    cursor < nextSequence s.db.changes :=
  (List.pairwise_cons.mp h).1 _ hcursor

end State.Sound

/-! ## One step -/

theorem Drawn.append (h : Drawn s) (tables : Database) (row : SyncChangeLog) (now : ℕ) :
    Drawn (s.append tables row now) := by
  constructor
  · intro other hother
    rcases mem_appendChange.mp hother with hold | rfl
    · exact List.mem_cons_of_mem _ (h.rows other hold)
    · exact List.mem_cons_self
  · intro sequence hsequence
    rcases List.mem_cons.mp hsequence with hnew | hold
    · cases hnew
      exact one_le_nextSequence _
    · exact h.positive sequence hold
  · intro sequence hsequence n hone hle
    rcases List.mem_cons.mp hsequence with hnew | hold
    · cases hnew
      rcases hle.lt_or_eq with hlt | rfl
      · exact List.mem_cons_of_mem _ (h.of_lt_next hone hlt)
      · exact List.mem_cons_self
    · exact List.mem_cons_of_mem _ (h.below sequence hold n hone hle)
  · intro cursor hcursor
    have hcursor := (List.mem_cons.mp hcursor).resolve_left Event.noConfusion
    exact (h.cursors cursor hcursor).imp_right (List.mem_cons_of_mem _)

theorem Drawn.trim (h : Drawn s) (args : TrimArgs) : Drawn (s.trim args) :=
  ⟨fun row hrow ↦ h.rows row (Table.mem_filter.mp hrow).1, h.positive, h.below, h.cursors⟩

/-- A pull changes no row of the log, and hands out the position that its page ends at. -/
theorem pull_cases (s : State) (ctx : FeedContext) (userId : RowId) (cursor : Option String)
    (limit : ℕ) :
    s.pull rt ctx userId cursor limit = s ∨
      ∃ sequence, decodeSyncCursor cursor = .ok sequence ∧
        (s.pull rt ctx userId cursor limit).db.changes = s.db.changes ∧
        (s.pull rt ctx userId cursor limit).events =
          .handedOut (pageEnd s.db.changes sequence (boundedLimit limit)) :: s.events := by
  unfold State.pull
  cases hlist : listChanges rt ctx s.db userId cursor limit with
  | error error => exact .inl rfl
  | ok result =>
    obtain ⟨db, response⟩ := result
    obtain ⟨sequence, hdecode, hserved⟩ := listChanges_spec hlist
    refine .inr ⟨sequence, hdecode, hserved.packaged.changes, ?_⟩
    dsimp only
    rw [decodeSyncCursor_encode hserved.nextCursor]
    rfl

/-- Where a page ends is where it started, or the number of a row. -/
theorem pageEnd_cases (changes : ChangeTable) (sequence limit : ℕ) :
    pageEnd changes sequence limit = sequence ∨
      ∃ row ∈ changes, pageEnd changes sequence limit = row.sequence := by
  unfold pageEnd lastKey
  cases hlast : ((rowsAfter changes sequence).take limit).getLast? with
  | none => exact .inl rfl
  | some row =>
    have hpage := List.mem_of_mem_take (List.mem_of_getLast? hlast)
    exact .inr ⟨row, (mem_rowsAfter.mp hpage).1, rfl⟩

theorem State.Holds.decoded {cursor : Option String} {sequence : ℕ} (h : s.Holds cursor)
    (hdecode : decodeSyncCursor cursor = .ok sequence) :
    sequence = 0 ∨ Event.handedOut sequence ∈ s.events :=
  h sequence (by rw [hdecode]; rfl)

theorem Drawn.pull (h : Drawn s) {ctx : FeedContext} {userId : RowId} {cursor : Option String}
    {limit : ℕ} (hholds : s.Holds cursor) : Drawn (s.pull rt ctx userId cursor limit) := by
  rcases @pull_cases rt s ctx userId cursor limit with
    hsame | ⟨sequence, hdecode, hchanges, hevents⟩
  · rw [hsame]
    exact h
  constructor
  · rw [hchanges, hevents]
    exact fun row hrow ↦ List.mem_cons_of_mem _ (h.rows row hrow)
  · rw [hevents]
    intro n hn
    exact h.positive n ((List.mem_cons.mp hn).resolve_left Event.noConfusion)
  · rw [hevents]
    intro n hn m hone hle
    have hn := (List.mem_cons.mp hn).resolve_left Event.noConfusion
    exact List.mem_cons_of_mem _ (h.below n hn m hone hle)
  · rw [hevents]
    intro other hother
    rcases List.mem_cons.mp hother with hnew | hold
    · cases hnew
      rcases pageEnd_cases s.db.changes sequence (boundedLimit limit) with hend | ⟨row, hrow, hend⟩
      · rw [hend]
        rcases hholds.decoded hdecode with hzero | hheld
        · exact .inl hzero
        · exact (h.cursors sequence hheld).imp_right (List.mem_cons_of_mem _)
      · rw [hend]
        exact .inr (List.mem_cons_of_mem _ (h.rows row hrow))
    · exact (h.cursors other hold).imp_right (List.mem_cons_of_mem _)

theorem Drawn.step (h : Drawn s) {action : Action} (hstep : (log rt).step s action = some s') :
    Drawn s' := by
  cases action with
  | append tables row now =>
    cases hstep
    exact h.append tables row now
  | trim args =>
    cases hstep
    exact h.trim args
  | pull ctx userId cursor limit =>
    obtain ⟨hholds, hstep⟩ := Option.ite_none_right_eq_some.mp hstep
    cases hstep
    exact h.pull hholds

theorem State.Sound.append (hdrawn : Drawn s) (h : s.Sound) (tables : Database)
    (row : SyncChangeLog) (now : ℕ) : (s.append tables row now).Sound := by
  refine List.pairwise_cons.mpr ⟨fun event hevent ↦ ?_, h⟩
  simp only [State.append, nextSequence_appendChange]
  rcases List.mem_cons.mp hevent with rfl | hold
  · exact (Nat.lt_succ_self _).ne
  · cases event with
    | drawn n => exact ((h.drawn_lt hdrawn hold).trans (Nat.lt_succ_self _)).ne
    | handedOut cursor => exact (h.handedOut_lt hold).trans (Nat.lt_succ_self _)

/-- A trim keeps the next number exactly when it leaves the newest row. -/
theorem Drawn.nextSequence_trim_iff (h : Drawn s) (args : TrimArgs) :
    nextSequence (s.trim args).db.changes = nextSequence s.db.changes ↔
      KeepsNewest s (.trim args) := by
  have hmem : ∀ {row}, row ∈ (s.trim args).db.changes ↔
      row ∈ s.db.changes ∧ row.sequence ∉ expiredSequences s.db s.createdAt args := by
    intro row
    rw [State.trim, trimExpiredRows, Table.mem_filter, decide_eq_true_iff]
  constructor
  · intro hsame row hrow hnewest hexpired
    have hpositive := h.positive _ (h.rows row hrow)
    have hne : nextSequence (s.trim args).db.changes ≠ 1 := by omega
    obtain ⟨other, hother, hnext⟩ := exists_newest hne
    have hkey : other.sequence = row.sequence := by omega
    exact (hmem.mp hother).2 (hkey ▸ hexpired)
  · intro hkeeps
    apply le_antisymm
    · exact nextSequence_le (one_le_nextSequence _) fun row hrow ↦
        sequence_lt_nextSequence (hmem.mp hrow).1
    · by_cases hone : nextSequence s.db.changes = 1
      · exact hone ▸ one_le_nextSequence _
      · obtain ⟨row, hrow, hnewest⟩ := exists_newest hone
        exact hnewest ▸ sequence_lt_nextSequence (hmem.mpr ⟨hrow, hkeeps row hrow hnewest⟩)

theorem sound_trim_iff (hdrawn : Drawn s) (h : s.Sound) (args : TrimArgs) :
    (s.trim args).Sound ↔ KeepsNewest s (.trim args) := by
  rw [← hdrawn.nextSequence_trim_iff args]
  constructor
  · intro hafter
    have hle : nextSequence (s.trim args).db.changes ≤ nextSequence s.db.changes :=
      nextSequence_le (one_le_nextSequence _) fun row hrow ↦
        sequence_lt_nextSequence (Table.mem_filter.mp hrow).1
    -- A smaller number was drawn before.
    refine hle.antisymm (Nat.not_lt.mp fun hlt ↦ ?_)
    have hold := hdrawn.of_lt_next (one_le_nextSequence _) hlt
    exact (List.pairwise_cons.mp hafter).1 _ hold rfl
  · intro hsame
    unfold State.Sound
    rw [hsame]
    exact h

theorem State.Sound.pull (h : s.Sound) {ctx : FeedContext} {userId : RowId}
    {cursor : Option String} {limit : ℕ} (hholds : s.Holds cursor) :
    (s.pull rt ctx userId cursor limit).Sound := by
  rcases @pull_cases rt s ctx userId cursor limit with
    hsame | ⟨sequence, hdecode, hchanges, hevents⟩
  · rw [hsame]
    exact h
  have hlt : sequence < nextSequence s.db.changes := by
    rcases hholds.decoded hdecode with rfl | hheld
    · exact one_le_nextSequence _
    · exact h.handedOut_lt hheld
  obtain ⟨hnext, hevent⟩ := List.pairwise_cons.mp h
  unfold State.Sound
  rw [hchanges, hevents]
  refine List.pairwise_cons.mpr ⟨fun event hmem ↦ ?_, List.pairwise_cons.mpr ⟨?_, hevent⟩⟩
  · rcases List.mem_cons.mp hmem with rfl | hold
    · exact pageEnd_lt_nextSequence _ hlt
    · exact hnext event hold
  · intro event _
    cases event <;> trivial

theorem sound_step_iff (hdrawn : Drawn s) (h : s.Sound) {action : Action}
    (hstep : (log rt).step s action = some s') : s'.Sound ↔ KeepsNewest s action := by
  cases action with
  | append tables row now =>
    cases hstep
    exact iff_of_true (h.append hdrawn tables row now) trivial
  | trim args =>
    cases hstep
    exact sound_trim_iff hdrawn h args
  | pull ctx userId cursor limit =>
    obtain ⟨hholds, hstep⟩ := Option.ite_none_right_eq_some.mp hstep
    cases hstep
    exact iff_of_true (h.pull hholds) trivial

/-! ## Every run -/

/-- Over every run, the numbers that the log draws are new, and above the cursors that clients
hold, exactly if every trim leaves the newest row. -/
theorem always_sound_iff_keepsNewest (hinit : (log rt).init s) (actions : List Action) :
    (log rt).Always State.Sound s actions ↔ (log rt).EachStep KeepsNewest s actions := by
  obtain ⟨hchanges, hevents⟩ := hinit
  refine TransitionSystem.always_iff_eachStep (I := Drawn)
    (fun _ _ _ hdrawn hstep ↦ hdrawn.step hstep)
    (fun _ _ _ hdrawn hsound hstep ↦ sound_step_iff hdrawn hsound hstep) ?_ ?_
  · constructor <;> simp [hchanges, hevents]
  · simp [State.Sound, hevents]

/-! ### A log that is trimmed away -/

namespace Sample

open Server.Sample

def start : State where
  db := database
  createdAt := epoch
  events := []

/-- The change row of a skill. -/
def written (now : ℕ) : Action :=
  .append database
    ((syncSkill user demoMetadata).row
      (context version₁) user none |>.changeRow .upsert) now

/-- The trim at this time, after a retention of ten. -/
def trimmed (now : ℕ) : Action := .trim ⟨now, 10, 10, 1000⟩

def pulled : Action := .pull TrimmedFeed.Sample.reader user none 200

/-- The first of two rows is trimmed. -/
def busyRun : List Action := [written 0, written 20, pulled, trimmed 15, written 30]

/-- The log is pulled, nobody writes for the retention period, and the trim empties it. -/
def idleRun : List Action := [written 0, pulled, trimmed 15]

theorem init_start (rt : Runtime) : (log rt).init start := ⟨rfl, rfl⟩

end Sample

open Server.Sample Sample in
theorem always_sound_busy : (log runtime).Always State.Sound start busyRun :=
  (always_sound_iff_keepsNewest (init_start _) _).mpr (by decide +kernel)

open Server.Sample Sample in
/-- The next row has the number of the first one, and the client's cursor is not below it. -/
theorem idle_reissues :
    (log runtime).init start ∧
      ∃ t, (log runtime).run start (idleRun ++ [written 30]) = some t ∧
        t.events = [.drawn 1, .handedOut 1, .drawn 1] ∧
        ¬ (log runtime).Always State.Sound start (idleRun ++ [written 30]) := by
  have hevents : ((log runtime).run start (idleRun ++ [written 30])).map (fun t ↦ t.events) =
      some [.drawn 1, .handedOut 1, .drawn 1] := by
    decide +kernel
  obtain ⟨t, hrun, ht⟩ := Option.map_eq_some_iff.mp hevents
  refine ⟨init_start _, t, hrun, ht, fun halways ↦ ?_⟩
  have hsound := (List.pairwise_cons.mp (halways.last hrun)).2
  rw [ht] at hsound
  exact (List.pairwise_cons.mp hsound).1 (.drawn 1) (by decide) rfl

end SequenceNumbers

end Server

end SkillHive
