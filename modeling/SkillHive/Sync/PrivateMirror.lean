import SkillHive.Foundation.TransitionSystem
import SkillHive.Sync.PrivatePages

/-!
# A mirror of a user's private skills

A server that only serves private skills, and a client of one user that starts empty and
applies the pages that it pulls. The client may pull from the start of the feed or from any
cursor that it was issued.

A skill is held at its head once its newest row is covered, and a skill in the trash is not
held beyond its tombstone. A purge breaks this: its tombstone is about a skill that is gone,
and no caller sees that row.
-/

namespace SkillHive

open Foundation LocalStore

namespace Sync

open Server (Database FeedContext LegacyPackaged PageServed PrivateStep RequestContext RowId
  Runtime Skill expiredTrashIds listChanges listChanges_spec nextSequence pageEnd
  purgeExpired purgeExpiredTrash)

namespace PrivateFeed

/-- The server, the mirror, the cursors issued to it, and whether it has drained the feed. -/
structure State where
  db : Database
  store : LocalStore
  issued : List String
  drained : Bool

inductive Action where
  /-- A request of any user that is about private skills. -/
  | write (action : Server.Action)
  /-- The scheduled collection of the trash. -/
  | collectTrash (retentionDays now : ℕ)
  /-- A pull, and `apply_changes_page` on what it returns. -/
  | pull (ctx : FeedContext) (cursor : Option String) (limit : ℕ) (host : Host) (now : ℕ)
      (utcNow : Int)

/-- A pull; the feed is drained when the applied page is the last one. -/
def State.pull (rt : Runtime) (user : RowId) (s : State) (ctx : FeedContext)
    (cursor : Option String) (limit : ℕ) (host : Host) (now : ℕ) (utcNow : Int) : State :=
  match listChanges rt ctx s.db user cursor limit with
  | .error _ => s
  | .ok (db, response) =>
    match applyChangesPage host s.store now utcNow (wirePage response) with
    | .error _ => { s with db, issued := response.nextCursor :: s.issued, drained := false }
    | .ok (store, _) => ⟨db, store, response.nextCursor :: s.issued, !response.hasMore⟩

def step (rt : Runtime) (user : RowId) (s : State) : Action → Option State
  | .write action =>
    if action.DrawsFresh s.db ∧ action.PassesSchema then
      some { s with db := action.next rt s.db, drained := false }
    else none
  | .collectTrash retentionDays now =>
    some { s with db := purgeExpiredTrash s.db retentionDays now, drained := false }
  | .pull ctx cursor limit host now utcNow =>
    if ∀ text ∈ cursor, text ∈ s.issued then
      some (s.pull rt user ctx cursor limit host now utcNow)
    else none

/-- The feed of a user, from an empty server and an empty mirror. -/
def feed (rt : Runtime) (user : RowId) : TransitionSystem State Action where
  init s := s.db.skills = .empty ∧ s.store.skills = .empty ∧ s.store.mutations = .empty ∧
    s.issued = [] ∧ s.drained = false
  step := step rt user

/-! ## What a drained mirror holds -/

/-- The mirror holds exactly the user's skills that are not deleted, each at its head. -/
structure HoldsHeads (db : Database) (user : RowId) (store : LocalStore) : Prop where
  held : ∀ key row, store.skill? key = some row → ∃ skill, db.skill? skill.id = some skill ∧
    skill.id.text = key ∧ skill.ownerUserId = some user ∧ skill.status ≠ .deleted ∧
    row.remoteRevision = some (skill.syncRevision.value : Int) ∧ row.name = skill.name ∧
    row.slug = skill.slug
  complete : ∀ id skill, db.skill? id = some skill → skill.ownerUserId = some user →
    skill.status ≠ .deleted → ∃ row, store.skill? id.text = some row

/-- The step purges no skill that the mirror holds, and it does not skip the tombstone of one. -/
def SparesMirror (s : State) : Action → Prop
  | .write action => ∀ id ∈ action.purges? s.db, s.store.skill? id.text = none
  | .collectTrash retentionDays now =>
    ∀ id ∈ expiredTrashIds s.db retentionDays now, s.store.skill? id.text = none
  | .pull _ cursor _ _ _ _ => ∀ sequence ∈ (Server.decodeSyncCursor cursor).toOption,
    ∀ skill ∈ s.db.skills.rows, skill.status = .deleted →
      s.store.skill? skill.id.text ≠ none →
        ∃ row ∈ s.db.changes.rows, row.resourceId = skill.id ∧ sequence < row.sequence

instance : ∀ s action, Decidable (SparesMirror s action)
  | s, .write action =>
    inferInstanceAs (Decidable (∀ id ∈ action.purges? s.db, s.store.skill? id.text = none))
  | s, .collectTrash retentionDays now => inferInstanceAs (Decidable
      (∀ id ∈ expiredTrashIds s.db retentionDays now, s.store.skill? id.text = none))
  | s, .pull _ cursor _ _ _ _ => inferInstanceAs (Decidable
      (∀ sequence ∈ (Server.decodeSyncCursor cursor).toOption,
        ∀ skill ∈ s.db.skills.rows, skill.status = .deleted →
          s.store.skill? skill.id.text ≠ none →
            ∃ row ∈ s.db.changes.rows, row.resourceId = skill.id ∧ sequence < row.sequence))

/-- What the mirror holds, after the rows up to `covered` were pulled, and the last page
ended at `position`. -/
structure Mirrors (user : RowId) (db : Database) (store : LocalStore) (covered position : ℕ) :
    Prop where
  sound : db.FeedSound
  pulledOnly : store.PulledOnly
  mirrorsOnly : MirrorsOnly db user store.skill?
  live : ∀ id skill, db.skill? id = some skill → skill.ownerUserId = some user →
    skill.status ≠ .deleted →
    (∀ row ∈ db.changes, row.resourceId = id → row.sequence ≤ covered) →
    AtHead skill (store.skill? id.text)
  trashed : ∀ id skill, db.skill? id = some skill → skill.status = .deleted →
    store.skill? id.text ≠ none →
    ∃ row ∈ db.changes, row.resourceId = id ∧ position < row.sequence
  covered_lt : covered < nextSequence db.changes
  position_le : position ≤ covered

namespace Mirrors

variable {rt : Runtime} {user : RowId} {db db' : Database} {store : LocalStore}
  {covered position : ℕ}

theorem of_init (hskills : db.skills = .empty) (hmirror : store.skills = .empty)
    (hidle : store.mutations = .empty) : Mirrors user db store 0 0 := by
  have hskill : ∀ id, db.skill? id = none := by simp [Database.skill?, hskills]
  have hrow : ∀ key, store.skill? key = none := by simp [LocalStore.skill?, hmirror]
  constructor
  · exact .of_init hskills
  · constructor
    · exact hidle
    · intro key row hheld
      cases (hrow key).symm.trans hheld
    · intro key row hheld
      cases (hrow key).symm.trans hheld
  · intro key row hheld
    cases (hrow key).symm.trans hheld
  · intro id skill hstored
    cases (hskill id).symm.trans hstored
  · intro id skill hstored
    cases (hskill id).symm.trans hstored
  · exact Nat.succ_pos _
  · exact Nat.le_refl 0

/-- At the end of the log the mirror is complete. -/
theorem holdsHeads (h : Mirrors user db store covered position)
    (hend : ∀ row ∈ db.changes, row.sequence ≤ position) : HoldsHeads db user store := by
  have hlive : ∀ id skill, db.skill? id = some skill → skill.ownerUserId = some user →
      skill.status ≠ .deleted → AtHead skill (store.skill? id.text) := by
    intro id skill hskill howner hstatus
    exact h.live id skill hskill howner hstatus fun row hrow _ ↦
      (hend row hrow).trans h.position_le
  constructor
  · intro key row hheld
    obtain ⟨skill, hskill, rfl, howner, hrowOf⟩ := h.mirrorsOnly key row hheld
    have hstatus : skill.status ≠ .deleted := by
      intro htrashed
      have hsome : store.skill? skill.id.text ≠ none := by simp [hheld]
      obtain ⟨change, hchange, -, hlt⟩ := h.trashed _ skill hskill htrashed hsome
      exact absurd (hend change hchange) (Nat.not_le.mpr hlt)
    obtain ⟨row', hrow', hhead⟩ := hlive _ skill hskill howner hstatus
    rw [hheld, Option.some.injEq] at hrow'
    subst hrow'
    exact ⟨skill, hskill, rfl, howner, hstatus, hhead, (hrowOf.head hhead).2⟩
  · intro id skill hskill howner hstatus
    obtain ⟨row, hrow, -⟩ := hlive id skill hskill howner hstatus
    exact ⟨row, hrow⟩

/-! ### Server steps -/

/-- A skill that a step leaves as it was, while the log grows by rows about others. -/
theorem of_sameDomain (h : Mirrors user db store covered position) (hsame : db.SameDomain db') :
    Mirrors user db' store covered position := by
  have hskill := hsame.skill?_eq
  have hchanges := hsame.changes
  constructor
  · exact h.sound.of_sameDomain hsame
  · exact h.pulledOnly
  · rw [MirrorsOnly, hskill]
    exact h.mirrorsOnly
  · rw [hskill, hchanges]
    exact h.live
  · rw [hskill, hchanges]
    exact h.trashed
  · rw [hchanges]
    exact h.covered_lt
  · exact h.position_le

/-- A written skill has a new newest row, which lies after everything that was covered. -/
theorem of_written (h : Mirrors user db store covered position) {skill : Skill}
    (hwritten : Server.Written db skill skill.feedOperation db') (hprivate : skill.IsOwnedPrivate)
    (hnew : db.skill? skill.id = none → ¬ db.Known skill.id) :
    Mirrors user db' store covered position := by
  have hcovered := h.covered_lt
  have hposition := h.position_le
  have hrow : { skill.changeRow skill.feedOperation with sequence := nextSequence db.changes } ∈
      db'.changes := by
    rw [hwritten.changes]
    exact Server.mem_appendChange.mpr (.inr rfl)
  have hold : ∀ row ∈ db.changes, row ∈ db'.changes := by
    intro row hmem
    rw [hwritten.changes]
    exact Server.mem_appendChange.mpr (.inl hmem)
  constructor
  · exact h.sound.of_written hwritten hprivate hnew
  · exact h.pulledOnly
  · intro key row hheld
    obtain ⟨stored, hstored, rfl, howner, hrowOf⟩ := h.mirrorsOnly key row hheld
    by_cases hid : stored.id = skill.id
    · -- The row lags behind the new head.
      rw [hid] at hstored
      have hscope := hwritten.scope stored hstored
      have hrevision := hwritten.revision
      rw [Server.Database.revisionOf_of_get hstored] at hrevision
      obtain ⟨revision, hremote, hle⟩ := hrowOf.behind
      refine ⟨skill, ?_, congrArg RowId.text hid.symm, hscope.ownerUserId.trans howner,
        ⟨revision, hremote, by omega⟩, fun hhead ↦ ?_, hrowOf.unprotected⟩
      · rw [hwritten.skills, Function.update_self]
      · have hremote : row.remoteRevision = some revision := hremote
        rw [hremote, Option.some.injEq] at hhead
        omega
    · refine ⟨stored, ?_, rfl, howner, hrowOf⟩
      rw [hwritten.skills, Function.update_of_ne hid]
      exact hstored
  · intro id stored hstored howner hstatus hrows
    rcases hwritten.skill_cases hstored with ⟨rfl, rfl⟩ | ⟨hne, hbefore⟩
    · have hnewest : nextSequence db.changes ≤ covered := hrows _ hrow rfl
      omega
    · exact h.live id stored hbefore howner hstatus fun row hmem ↦ hrows row (hold row hmem)
  · intro id stored hstored hstatus hheld
    rcases hwritten.skill_cases hstored with ⟨rfl, rfl⟩ | ⟨hne, hbefore⟩
    · exact ⟨_, hrow, rfl, lt_of_le_of_lt hposition hcovered⟩
    · obtain ⟨row, hmem, hid, hlt⟩ := h.trashed id stored hbefore hstatus hheld
      exact ⟨row, hold row hmem, hid, hlt⟩
  · rw [hwritten.changes]
    exact hcovered.trans (Server.nextSequence_lt_appendChange _ _)
  · exact hposition

/-- A purged skill that the mirror does not hold is none of its business. -/
theorem of_purged (h : Mirrors user db store covered position) {skill : Skill}
    (hpurged : Server.Purged db skill db') (hfree : store.skill? skill.id.text = none) :
    Mirrors user db' store covered position := by
  have hold : ∀ row ∈ db.changes, row ∈ db'.changes := by
    intro row hmem
    rw [hpurged.changes]
    exact Server.mem_appendChange.mpr (.inl hmem)
  constructor
  · exact h.sound.of_purged hpurged
  · exact h.pulledOnly
  · intro key row hheld
    obtain ⟨stored, hstored, rfl, howner, hrowOf⟩ := h.mirrorsOnly key row hheld
    have hid : stored.id ≠ skill.id := by
      intro hid
      rw [hid, hfree] at hheld
      cases hheld
    exact ⟨stored, (hpurged.skill_of_ne hid).trans hstored, rfl, howner, hrowOf⟩
  · intro id stored hstored howner hstatus hrows
    exact h.live id stored (hpurged.skill_of_stored hstored).2 howner hstatus fun row hmem ↦
      hrows row (hold row hmem)
  · intro id stored hstored hstatus hheld
    obtain ⟨row, hmem, hid, hlt⟩ := h.trashed id stored (hpurged.skill_of_stored hstored).2 hstatus hheld
    exact ⟨row, hold row hmem, hid, hlt⟩
  · rw [hpurged.changes]
    exact h.covered_lt.trans (Server.nextSequence_lt_appendChange _ _)
  · exact h.position_le

theorem privateStep (h : Mirrors user db store covered position) {purges : Option RowId}
    (hstep : PrivateStep purges db db')
    (hfree : ∀ id, purges = some id → store.skill? id.text = none) :
    Mirrors user db' store covered position := by
  cases hstep with
  | unchanged hsame => exact h.of_sameDomain hsame
  | written skill hwritten hprivate hnew => exact h.of_written hwritten hprivate hnew
  | purged skill hpurged hpurges => exact h.of_purged hpurged (hfree _ hpurges)

/-- A mirror that holds no expired trash survives its collection. -/
theorem purgeExpiredTrash (h : Mirrors user db store covered position) (retentionDays now : ℕ)
    (hfree : ∀ id ∈ expiredTrashIds db retentionDays now, store.skill? id.text = none) :
    Mirrors user (purgeExpiredTrash db retentionDays now) store covered position := by
  refine List.foldlRecOn (motive := fun db ↦ Mirrors user db store covered position) _
    purgeExpired h fun s hs id hid ↦ ?_
  refine hs.privateStep (Server.purgeExpired_privateStep s id) ?_
  rintro _ ⟨⟩
  exact hfree id hid

/-! ### Pulls -/

theorem of_legacyPackaged (h : Mirrors user db store covered position)
    (hpackaged : LegacyPackaged db db') : Mirrors user db' store covered position := by
  obtain ⟨packages, hskills⟩ := hpackaged.skills
  constructor
  · exact h.sound.of_legacyPackaged hpackaged
  · exact h.pulledOnly
  · intro key row hheld
    obtain ⟨stored, hstored, rfl, howner, hrowOf⟩ := h.mirrorsOnly key row hheld
    refine ⟨stored.withPackage (packages stored.id), ?_, rfl, howner,
      ⟨hrowOf.behind, hrowOf.head, hrowOf.unprotected⟩⟩
    exact (hskills stored.id).trans (congrArg (Option.map _) hstored)
  · intro id stored hstored howner hstatus hrows
    obtain ⟨old, package, hold, rfl⟩ := hpackaged.skill_of_stored hstored
    rw [hpackaged.changes] at hrows
    exact h.live id old hold howner hstatus hrows
  · intro id stored hstored hstatus hheld
    obtain ⟨old, package, hold, rfl⟩ := hpackaged.skill_of_stored hstored
    rw [hpackaged.changes]
    exact h.trashed id old hold hstatus hheld
  · rw [hpackaged.changes]
    exact h.covered_lt
  · exact h.position_le

/-- A page moves the mirror on, when it starts at a covered row and skips no tombstone. -/
theorem pulled (h : Mirrors user db store covered position) {store' : LocalStore}
    {sequence limit : ℕ}
    (hpage : PageMirrored db user sequence (pageEnd db.changes sequence limit) store store')
    (hsequence : sequence ≤ covered)
    (hspares : ∀ skill ∈ db.skills.rows, skill.status = .deleted →
      store.skill? skill.id.text ≠ none →
        ∃ row ∈ db.changes.rows, row.resourceId = skill.id ∧ sequence < row.sequence) :
    Mirrors user db store' (max covered (pageEnd db.changes sequence limit))
      (pageEnd db.changes sequence limit) := by
  constructor
  · exact h.sound
  · exact hpage.pulledOnly
  · exact hpage.mirrorsOnly
  · intro id skill hskill howner hstatus hrows
    by_cases hbefore : ∀ row ∈ db.changes, row.resourceId = id → row.sequence ≤ covered
    · exact hpage.keeps id skill hskill (h.live id skill hskill howner hstatus hbefore)
    · -- A row was not covered before, so the newest one is on the page.
      push Not at hbefore
      obtain ⟨row, hrow, hid, hlt⟩ := hbefore
      have hafter : ∃ row ∈ db.changes, row.resourceId = id ∧ sequence < row.sequence :=
        ⟨row, hrow, hid, hsequence.trans_lt hlt⟩
      have hend : covered < pageEnd db.changes sequence limit :=
        (lt_max_iff.mp (hlt.trans_le (hrows row hrow hid))).resolve_left (lt_irrefl covered)
      have hsettled := hpage.settles id skill hskill howner hafter fun row' hrow' hid' ↦
        max_eq_right hend.le ▸ hrows row' hrow' hid'
      rwa [Settled, if_neg hstatus] at hsettled
  · intro id skill hskill hstatus hheld
    by_contra hcovered
    push Not at hcovered
    by_cases hafter : ∃ row ∈ db.changes, row.resourceId = id ∧ sequence < row.sequence
    · obtain ⟨row, hrow⟩ := Option.ne_none_iff_exists'.mp hheld
      obtain ⟨stored, hstored, htext, howner, -⟩ := hpage.mirrorsOnly _ row hrow
      rw [RowId.eq_of_text_eq htext, hskill, Option.some.injEq] at hstored
      subst hstored
      have hsettled := hpage.settles id skill hskill howner hafter hcovered
      rw [Settled, if_pos hstatus] at hsettled
      exact hheld hsettled
    · have hbefore : ∀ row ∈ db.changes, row.resourceId = id → row.sequence ≤ sequence := by
        intro row hrow hid
        exact Nat.not_lt.mp fun hlt ↦ hafter ⟨row, hrow, hid, hlt⟩
      rw [hpage.untouched id hbefore] at hheld
      have hid : skill.id = id := Table.key_of_get? hskill
      subst hid
      exact hafter (hspares skill (Table.mem_of_get? hskill) hstatus hheld)
  · exact max_lt h.covered_lt
      (Server.pageEnd_lt_nextSequence limit (hsequence.trans_lt h.covered_lt))
  · exact le_max_right _ _

end Mirrors

/-! ## Runs -/

/-- The invariant: the mirror is right up to a covered row, from which no issued cursor and no
drained feed is ahead. -/
def Tracks (user : RowId) (s : State) : Prop :=
  ∃ covered position, Mirrors user s.db s.store covered position ∧
    (∀ text ∈ s.issued, ∃ sequence ≤ covered,
      Server.decodeSyncCursor (some text) = .ok sequence) ∧
    (s.drained = true → ∀ row ∈ s.db.changes, row.sequence ≤ position)

section Runs

variable {rt : Runtime} {user : RowId} {s s' : State}

theorem Tracks.holdsHeads (h : Tracks user s) (hdrained : s.drained = true) :
    HoldsHeads s.db user s.store := by
  obtain ⟨covered, position, hmirrors, -, hend⟩ := h
  exact hmirrors.holdsHeads (hend hdrained)

theorem Tracks.pull (h : Tracks user s) {ctx : FeedContext} {cursor : Option String} {limit now : ℕ}
    {host : Host} {utcNow : Int} (hissued : ∀ text ∈ cursor, text ∈ s.issued)
    (hspares : SparesMirror s (.pull ctx cursor limit host now utcNow)) :
    Tracks user (s.pull rt user ctx cursor limit host now utcNow) := by
  obtain ⟨covered, position, hmirrors, hcursors, hend⟩ := h
  unfold State.pull
  cases hlist : listChanges rt ctx s.db user cursor limit with
  | error error => exact ⟨covered, position, hmirrors, hcursors, hend⟩
  | ok result =>
    obtain ⟨db', response⟩ := result
    obtain ⟨sequence, hdecode, hserved⟩ := listChanges_spec hlist
    have hmem : sequence ∈ (Server.decodeSyncCursor cursor).toOption := by rw [hdecode]; rfl
    have hsequence : sequence ≤ covered := by
      cases cursor with
      | none =>
        cases hdecode
        exact Nat.zero_le covered
      | some text =>
        obtain ⟨sequence', hle, hdecode'⟩ := hcursors text (hissued text rfl)
        rw [hdecode', Except.ok.injEq] at hdecode
        exact hdecode ▸ hle
    obtain ⟨store', applied, happly, hpage⟩ := pageMirrored hmirrors.sound hserved
      hmirrors.pulledOnly hmirrors.mirrorsOnly host now utcNow
    simp only [happly]
    refine ⟨_, _, (hmirrors.pulled hpage hsequence (hspares sequence hmem)).of_legacyPackaged
      hserved.packaged, ?_, ?_⟩
    · intro text htext
      rcases List.mem_cons.mp htext with rfl | hold
      · exact ⟨_, le_max_right _ _, Server.decodeSyncCursor_encode hserved.nextCursor⟩
      · obtain ⟨sequence', hle, hdecode'⟩ := hcursors text hold
        exact ⟨sequence', hle.trans (le_max_left _ _), hdecode'⟩
    · intro hdrained row hrow
      rw [hserved.packaged.changes] at hrow
      exact hserved.le_pageEnd_of_last (by simpa using hdrained) hrow

theorem Tracks.step {action : Action} (h : Tracks user s) (hspares : SparesMirror s action)
    (hstep : (feed rt user).step s action = some s') : Tracks user s' := by
  cases action with
  | write action =>
    obtain ⟨covered, position, hmirrors, hcursors, -⟩ := h
    simp only [feed, PrivateFeed.step] at hstep
    split at hstep
    case isTrue henabled =>
      cases hstep
      exact ⟨covered, position, hmirrors.privateStep
        (Server.Action.next_privateStep henabled.1 henabled.2) hspares, hcursors, nofun⟩
    case isFalse => cases hstep
  | collectTrash retentionDays now =>
    obtain ⟨covered, position, hmirrors, hcursors, -⟩ := h
    cases hstep
    exact ⟨covered, position, hmirrors.purgeExpiredTrash retentionDays now hspares, hcursors,
      nofun⟩
  | pull ctx cursor limit host now utcNow =>
    simp only [feed, PrivateFeed.step] at hstep
    split at hstep
    case isTrue hissued =>
      cases hstep
      exact h.pull hissued hspares
    case isFalse => cases hstep

/-- Over every run that purges no held skill and skips no tombstone of one, a mirror that has
drained the feed holds exactly its user's skills that are not deleted, at their heads. -/
theorem run_holdsHeads (hinit : (feed rt user).init s) {actions : List Action}
    (hspares : (feed rt user).EachStep SparesMirror s actions) :
    (feed rt user).Always (fun t ↦ t.drained = true → HoldsHeads t.db user t.store) s actions := by
  obtain ⟨hskills, hmirror, hidle, hissued, hdrained⟩ := hinit
  have hstart : Tracks user s := by
    refine ⟨0, 0, .of_init hskills hmirror hidle, ?_, ?_⟩
    · rw [hissued]
      exact fun text htext ↦ absurd htext List.not_mem_nil
    · rw [hdrained]
      exact nofun
  have htracks : (feed rt user).Always (Tracks user) s actions :=
    hspares.always (fun s action s' h hspares hstep ↦ h.step hspares hstep) hstart
  exact htracks.mono fun t ht ↦ ht.holdsHeads

end Runs

/-! ## A purge that the mirror does not hear of -/

namespace Sample

open Server.Sample (user runtime database storage skillId context version₂ create)

def start : State := ⟨database, fresh, [], false⟩

/-- Nobody is in a group, and no lease is ever signed. -/
def feedContext : FeedContext :=
  ⟨storage, ⟨.empty, .empty, .empty, .empty⟩, ⟨fun _ ↦ "", fun _ ↦ ""⟩, 0⟩

def host : Host := ⟨⟨fun _ ↦ .error "premature end of input", fun _ ↦ ""⟩, "/tmp"⟩

def pull (cursor : Option String) : Action := .pull feedContext cursor 200 host 0 0

/-- A request of the user, who draws keys that were not used yet. -/
def request (write : Server.PrivateWrite) : Action :=
  .write (.privateWrite user
    { context version₂ with newSkillId := Server.Sample.secondSkill } write)

/-- A skill is created, pulled, deleted and purged before the next pull. -/
def missedPurge : List Action :=
  [.write create, pull none, request (.delete skillId), request (.purge skillId),
    pull (some "v1.AAAAAAAAAAE")]

/-- The same, with a pull between the deletion and the purge. -/
def seenPurge : List Action :=
  [.write create, pull none, request (.delete skillId), pull (some "v1.AAAAAAAAAAE"),
    request (.purge skillId), pull (some "v1.AAAAAAAAAAI")]

theorem init_start : (feed runtime user).init start := ⟨rfl, rfl, rfl, rfl, rfl⟩

end Sample

open Server.Sample SkillHive.Sync.PrivateFeed.Sample in
/-- The mirror that saw the deletion drains the feed twice, and is empty then. -/
theorem run_holdsHeads_seenPurge :
    ((feed runtime user).run start seenPurge).map
      (fun t ↦ (t.drained, t.store.skills.rows.length)) = some (true, 0) ∧
    (feed runtime user).Always (fun t ↦ t.drained = true → HoldsHeads t.db user t.store) start
      seenPurge :=
  ⟨by decide +kernel, run_holdsHeads init_start (by decide +kernel)⟩

open Server.Sample SkillHive.Sync.PrivateFeed.Sample in
/-- The mirror that missed the deletion holds the skill although it has drained the feed and
the skill is gone. -/
theorem run_missedPurge_staysHeld :
    (feed runtime user).init start ∧ ∃ t, (feed runtime user).run start missedPurge = some t ∧
      t.drained = true ∧ ¬ HoldsHeads t.db user t.store := by
  have hend : ((feed runtime user).run start missedPurge).map (fun t ↦
      (t.drained, (t.db.skill? skillId).isSome, (t.store.skill? skillId.text).isSome)) =
      some (true, false, true) := by
    decide +kernel
  obtain ⟨t, hrun, ht⟩ := Option.map_eq_some_iff.mp hend
  obtain ⟨hdrained, hgone, hheld⟩ : t.drained = true ∧ (t.db.skill? skillId).isSome = false ∧
      (t.store.skill? skillId.text).isSome = true := by
    simpa using ht
  refine ⟨init_start, t, hrun, hdrained, fun hheads ↦ ?_⟩
  obtain ⟨row, hrow⟩ := Option.isSome_iff_exists.mp hheld
  obtain ⟨skill, hskill, htext, -⟩ := hheads.held _ row hrow
  rw [RowId.eq_of_text_eq htext] at hskill
  rw [hskill] at hgone
  cases hgone

end PrivateFeed

end Sync

end SkillHive
