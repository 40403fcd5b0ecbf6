import Mathlib.Logic.Function.Iterate
import SkillHive.Deployment.Uninstall
import SkillHive.Foundation.TransitionSystem

/-!
# Crashes of an uninstall and of its reconciliations

A run starts with a crash inside an uninstall, or after it, and goes on with crashes inside one
reconciliation after the other. The reconciliations that are left to end then reach a state
without journal or quarantine in which the catalog agrees with the target, if and only if the
last crash has not left the machine stranded, or obstructed by something that they cannot remove.
-/

namespace SkillHive

open Foundation Deployment

namespace Uninstall

variable {ε : Type}

/-! ## The shapes of the machine -/

/-- An uninstall: what is asked for, what there is at the target, and whether the transaction of
the catalog commits. -/
structure Uninstallation (ε : Type) where
  transactionId : String
  request : UninstallRequest
  target : Option (Node ε)
  commits : Bool

namespace Uninstallation

variable (un : Uninstallation ε)

def journal (phase : UninstallPhase) : UninstallJournal :=
  journalOf un.transactionId un.request phase

/-- The journal after its first record. -/
def opened : LogFile UninstallJournal := LogFile.empty.append (un.journal .intent)

def movedFile : LogFile UninstallJournal := un.opened.append (un.journal .moved)

def start : Machine ε := ⟨un.target, none, none, true⟩

/-- What a crash may leave. -/
inductive Shape (machine : Machine ε) : Prop
  /-- There is no transaction, or none any more. -/
  | idle (hjournal : machine.journal = none) (hquarantine : machine.quarantine = none)
      (hrow : (machine.installed = true ∧ machine.target = un.target) ∨
        (machine.installed = false ∧ machine.target = none))
  /-- The target is where it was: not moved yet, or moved back. -/
  | waiting (file : LogFile UninstallJournal) (hjournal : machine.journal = some file)
      (hfile : file.Since [] fun record ↦ ∃ phase, record = un.journal phase)
      (hold : un.target.isSome) (htarget : machine.target = un.target)
      (hquarantine : machine.quarantine = none) (hinstalled : machine.installed = true)
  /-- The target is in quarantine, and the catalog has its row. -/
  | quarantined (file : LogFile UninstallJournal) (hjournal : machine.journal = some file)
      (hfile : file.Since [un.journal .intent] fun record ↦ record = un.journal .moved)
      (hold : un.target.isSome) (htarget : machine.target = none)
      (hquarantine : machine.quarantine = un.target) (hinstalled : machine.installed = true)
  /-- The row is gone, and the quarantine goes. -/
  | removed (hjournal : machine.journal = some un.movedFile) (htarget : machine.target = none)
      (hinstalled : machine.installed = false)

end Uninstallation

/-- The journal says that the target was moved, and the target is there and no quarantine. -/
def StrandedAt (machine : Machine ε) (journal : UninstallJournal) : Prop :=
  journal.phase = .moved ∧ machine.target.isSome ∧ machine.quarantine = none

/-- There is a journal, and it cannot be read or is stranded; or there is none, and the catalog
has a row without a target. -/
def Stranded (machine : Machine ε) : Prop :=
  match machine.journal with
  | none => machine.installed = true ∧ machine.target = none
  | some file => ∀ journal, readLatestJournal file = .ok journal → StrandedAt machine journal

/-- What is in quarantine is or holds something that no removal supports. -/
def Machine.Refuses (machine : Machine ε) : Prop := ∃ node ∈ machine.quarantine, node.isRemovable = false

/-- The row is gone, and what is in quarantine cannot be removed. -/
def Obstructed (machine : Machine ε) : Prop := machine.installed = false ∧ machine.Refuses

/-- No journal, no quarantine, and the row of the catalog exactly if there is a target. -/
structure Reconciled (machine : Machine ε) : Prop where
  journal : machine.journal = none
  quarantine : machine.quarantine = none
  row : machine.installed = machine.target.isSome

section Steps

variable {C : Machine ε → Prop} (machine : Machine ε) {file : LogFile UninstallJournal}
  {journal : UninstallJournal}

/-! ## One step -/

theorem removeJournal_ends (hhere : C machine) (hgone : C { machine with journal := none }) :
    removeJournal.Ends C machine (.ok ()) { machine with journal := none } :=
  Procedure.Ends.perform (fun _ _ h ↦ atomic_cut h ▸ hhere) hgone

theorem moveToQuarantine_ends (hhere : C machine)
    (hmoved : C { machine with target := none, quarantine := machine.target }) :
    moveToQuarantine.Ends C machine (.ok ())
      { machine with target := none, quarantine := machine.target } :=
  Procedure.Ends.perform (fun _ _ h ↦ atomic_cut h ▸ hhere) hmoved

theorem moveBack_ends (hhere : C machine)
    (hmoved : C { machine with target := machine.quarantine, quarantine := none }) :
    moveBack.Ends C machine (.ok ())
      { machine with target := machine.quarantine, quarantine := none } :=
  Procedure.Ends.perform (fun _ _ h ↦ atomic_cut h ▸ hhere) hmoved

theorem performRemoval_ends [DecidableEq ε] {left : Option (Node ε)}
    (hcut : ∀ left, C { machine with quarantine := some left })
    (hremains : machine.quarantine.bind Node.remains = left)
    (hleft : C { machine with quarantine := left }) :
    (Procedure.perform (removal (fun machine ↦ machine.quarantine) fun node machine ↦
      { machine with quarantine := node }) : Engine ε Unit).Ends C machine (.ok ())
        { machine with quarantine := left } := by
  subst hremains
  exact removal_ends machine (fun left _ ↦ hcut left) hleft

theorem removeQuarantine_ends [DecidableEq ε] (path : String) (hfree : ¬ machine.Refuses)
    (hcut : ∀ left, C { machine with quarantine := some left })
    (hgone : C { machine with quarantine := none }) :
    (removeQuarantine path).Ends C machine (.ok ()) { machine with quarantine := none } := by
  have hremovable : ∀ node ∈ machine.quarantine, node.isRemovable = true := by
    intro node hnode
    by_contra hrefused
    exact hfree ⟨node, hnode, Bool.eq_false_iff.mpr hrefused⟩
  have hnothing : machine.quarantine.bind Node.remains = none :=
    Option.bind_eq_none_iff.mpr fun node hnode ↦ Node.remains_eq_none.mpr (hremovable node hnode)
  have hsupported : machine.quarantine.bind (unsupportedAt path) = none :=
    Option.bind_eq_none_iff.mpr fun node hnode ↦ (unsupportedAt_eq_none path).mpr (hremovable node hnode)
  refine Procedure.Meets.look (Procedure.Ends.bind (performRemoval_ends machine hcut hnothing hgone) ?_)
  rw [hsupported]
  exact Procedure.Ends.pure hgone

/-- What a removal does not get through stays in part. -/
theorem removeQuarantine_refused [DecidableEq ε] (path : String) (hrefuses : machine.Refuses)
    (hcut : ∀ left, C { machine with quarantine := some left }) :
    ∃ (left : Node ε) (e : UninstallError), left.isRemovable = false ∧
      (removeQuarantine path).Ends C machine (.error e) { machine with quarantine := some left } := by
  obtain ⟨node, hnode, hrefused⟩ := hrefuses
  have hstops : ¬ node.isRemovable = true := Bool.eq_false_iff.mp hrefused
  obtain ⟨left, hleft⟩ := Option.ne_none_iff_exists'.mp (mt Node.remains_eq_none.mp hstops)
  obtain ⟨e, he⟩ := Option.ne_none_iff_exists'.mp (mt (unsupportedAt_eq_none path).mp hstops)
  have hsome : machine.quarantine.bind Node.remains = some left := by
    rw [Option.mem_def.mp hnode, Option.bind_some, hleft]
  have herror : machine.quarantine.bind (unsupportedAt path) = some e := by
    rw [Option.mem_def.mp hnode, Option.bind_some, he]
  refine ⟨left, e, Node.isRemovable_of_remains hleft,
    Procedure.Meets.look (Procedure.Ends.bind (performRemoval_ends machine hcut hsome (hcut left)) ?_)⟩
  rw [herror]
  exact Procedure.Ends.fail (hcut left)

theorem removeQuarantine_preserves [DecidableEq ε] {I : Machine ε → Prop} (path : String)
    (hI : ∀ machine quarantine, I machine → I { machine with quarantine }) :
    (removeQuarantine path).Preserves I := by
  refine .bind .look fun machine ↦ .bind (.perform ?_ fun machine ↦ hI machine _) fun _ ↦ ?_
  · intro point machine machine' h hcut
    obtain ⟨node, -, hcut⟩ := Option.bind_eq_some_iff.mp hcut
    obtain ⟨left, -, rfl⟩ := Option.map_eq_some_iff.mp hcut
    exact hI machine _ h
  · split
    · exact .pure _
    · exact .fail _

theorem persistJournal_ends (journal : UninstallJournal) (hhere : C machine)
    (hcut : ∀ point, C { machine with
      journal := some ((machine.journal.getD .empty).appendCut journal point) })
    (hdone : C { machine with journal := some ((machine.journal.getD .empty).append journal) }) :
    (persistJournal journal).Ends C machine (.ok ())
      { machine with journal := some ((machine.journal.getD .empty).append journal) } :=
  recording_ends machine journal hhere hcut hdone

theorem readLatestJournal_eq_ok :
    readLatestJournal file = .ok journal ↔ file.latest = .ok journal := by
  unfold readLatestJournal
  split <;> simp_all

theorem readJournal_ends (hhere : C machine) (hjournal : machine.journal = some file)
    (hread : readLatestJournal file = .ok journal) :
    readJournal.Ends C machine (.ok journal) machine := by
  have hlift : (readJournal : Engine ε UninstallJournal) machine =
      Procedure.lift (readLatestJournal file) machine := by
    obtain ⟨target, quarantine, journal, installed⟩ := machine
    cases hjournal
    rfl
  refine .of_eq hlift ?_
  rw [hread]
  exact .pure hhere

theorem recoverPending_ends {result : Except UninstallError (Option UninstallResult)}
    {final : Machine ε} (hjournal : machine.journal = some file)
    (h : (recoverJournal file).Ends C machine result final) (hC : C final) :
    recoverPending.Ends C machine (.ok (pendingOf result)) final := by
  have hsome : (recoverPending : Engine ε UninstallRecoveryReport) machine =
      ((recoverJournal file).attempt >>= fun outcome ↦ pure (pendingOf outcome)) machine := by
    obtain ⟨target, quarantine, journal, installed⟩ := machine
    cases hjournal
    rfl
  exact .of_eq hsome (h.attempt.bind (Procedure.Ends.pure hC))

end Steps

section Reconciliation

variable [DecidableEq ε] {un : Uninstallation ε} {machine : Machine ε}
  {file : LogFile UninstallJournal} {journal : UninstallJournal}

/-! ## What the reconciliation does to each shape -/

/-- With nothing pending, the reconciliation is what it found about the journals. -/
theorem reconcile_ends {C : Machine ε → Prop} {final : Machine ε} {cleaned : ℕ}
    {failed : List UninstallError}
    (h : recoverPending.Ends C machine (.ok ⟨[], cleaned, failed⟩) final) (hC : C final) :
    reconcileUninstallRecovery.Ends C machine
      (.ok ⟨0, 0, 0, cleaned, failed.map .journal⟩) final :=
  h.bind (Procedure.Ends.pure hC)

theorem reconcile_pending {C P : Machine ε → Prop} {item : UninstallResult}
    (h : recoverPending.Ends C machine (.ok ⟨[item], 0, []⟩) machine)
    (hitem : (reconcilePending ⟨1, 0, 0, 0, []⟩ item).Meets (fun _ ↦ P) C machine) :
    reconcileUninstallRecovery.Meets (fun _ ↦ P) C machine :=
  h.bind (Procedure.Meets.bind hitem (fun _ _ hP hC ↦ ⟨hP, hC⟩) fun _ _ hP ↦ hP)

/-- With no journal there is nothing to reconcile. -/
theorem reconcile_idle (hshape : un.Shape machine) (hjournal : machine.journal = none) :
    reconcileUninstallRecovery.Ends un.Shape machine (.ok ⟨0, 0, 0, 0, []⟩) machine := by
  obtain ⟨target, quarantine, journal, installed⟩ := machine
  cases hjournal
  exact ⟨⟨rfl, rfl⟩, hshape⟩

/-- A journal that cannot be read or that no rule fits is reported and left. -/
theorem reconcile_reported {e : UninstallError} (hshape : un.Shape machine)
    (hjournal : machine.journal = some file)
    (h : (recoverJournal file).Ends un.Shape machine (.error e) machine) :
    reconcileUninstallRecovery.Ends un.Shape machine (.ok ⟨0, 0, 0, 0, [.journal e]⟩) machine :=
  reconcile_ends (recoverPending_ends machine hjournal h hshape) hshape

omit [DecidableEq ε] in
theorem recoverJournal_ends {C : Machine ε → Prop}
    {result : Except UninstallError (Option UninstallResult)} {final : Machine ε}
    (hread : readLatestJournal file = .ok journal)
    (h : (classify journal machine.target.isSome machine.quarantine.isSome journal.phase).Ends
      C machine result final) : (recoverJournal file).Ends C machine result final := by
  unfold recoverJournal
  rw [hread]
  exact h

omit [DecidableEq ε] in
/-- The target goes back from the quarantine, and the journal away. -/
theorem rollback_ends {old : Node ε} {id : String} (htarget : un.target = some old)
    (hfile : file.Since [un.journal .intent] fun record ↦ record = un.journal .moved)
    (hread : readLatestJournal file = .ok journal) :
    (rollback id).Ends un.Shape ⟨none, some old, some file, true⟩ (.ok ())
      ⟨some old, none, none, true⟩ := by
  have hold : un.target.isSome := by rw [htarget]; rfl
  have hquarantined : un.Shape ⟨none, some old, some file, true⟩ :=
    .quarantined file rfl hfile hold rfl htarget.symm rfl
  have hwaiting : un.Shape ⟨some old, none, some file, true⟩ := by
    refine .waiting file rfl (hfile.weaken ?_ ?_) hold htarget.symm rfl rfl
    · exact fun record hrecord ↦ ⟨.intent, List.mem_singleton.mp hrecord⟩
    · exact fun record hrecord ↦ ⟨.moved, hrecord⟩
  have hidle : un.Shape ⟨some old, none, none, true⟩ :=
    .idle rfl rfl (.inl ⟨rfl, htarget.symm⟩)
  refine (readJournal_ends _ hquarantined rfl hread).bind ?_
  refine (moveBack_ends ⟨none, some old, some file, true⟩ hquarantined hwaiting).bind ?_
  exact removeJournal_ends _ hwaiting hidle

/-- What is left of the quarantine goes, and the journal after it. -/
theorem finalize_ends (quarantine : Option (Node ε))
    (hfree : ¬ (⟨none, quarantine, some un.movedFile, false⟩ : Machine ε).Refuses) :
    (finalize un.transactionId).Ends un.Shape ⟨none, quarantine, some un.movedFile, false⟩ (.ok ())
      ⟨none, none, none, false⟩ := by
  have hremoved : ∀ quarantine, un.Shape ⟨none, quarantine, some un.movedFile, false⟩ :=
    fun quarantine ↦ .removed rfl rfl rfl
  have hidle : un.Shape ⟨none, none, none, false⟩ := .idle rfl rfl (.inr ⟨rfl, rfl⟩)
  have hread : readLatestJournal un.movedFile = .ok (un.journal .moved) := rfl
  refine (readJournal_ends _ (hremoved quarantine) rfl hread).bind (Procedure.Meets.look ?_)
  rw [if_neg (by simp [Uninstallation.journal, journalOf])]
  cases quarantine with
  | none => exact removeJournal_ends _ (hremoved none) hidle
  | some node =>
    have hgone := removeQuarantine_ends ⟨none, some node, some un.movedFile, false⟩
      (un.journal .moved).quarantinedPath hfree (fun left ↦ hremoved (some left)) (hremoved none)
    exact Procedure.Ends.bind hgone (removeJournal_ends _ (hremoved none) hidle)

/-- A part of the quarantine stays, and the journal with it. -/
theorem finalize_refused (quarantine : Option (Node ε))
    (hrefuses : (⟨none, quarantine, some un.movedFile, false⟩ : Machine ε).Refuses) :
    ∃ (left : Node ε) (e : UninstallError), left.isRemovable = false ∧
      (finalize un.transactionId).Ends un.Shape ⟨none, quarantine, some un.movedFile, false⟩
        (.error e) ⟨none, some left, some un.movedFile, false⟩ := by
  have hremoved : ∀ quarantine, un.Shape ⟨none, quarantine, some un.movedFile, false⟩ :=
    fun quarantine ↦ .removed rfl rfl rfl
  have hread : readLatestJournal un.movedFile = .ok (un.journal .moved) := rfl
  obtain ⟨left, e, hstops, hends⟩ := removeQuarantine_refused
    ⟨none, quarantine, some un.movedFile, false⟩ (un.journal .moved).quarantinedPath hrefuses
    fun left ↦ hremoved (some left)
  refine ⟨left, e, hstops, ?_⟩
  refine (readJournal_ends _ (hremoved quarantine) rfl hread).bind (Procedure.Meets.look ?_)
  rw [if_neg (by simp [Uninstallation.journal, journalOf])]
  obtain ⟨node, hnode, -⟩ := hrefuses
  cases hnode
  exact Procedure.Ends.bind_error hends

/-- However the removal of the quarantine ends, the machine has one of the shapes. -/
theorem finalize_shape (quarantine : Option (Node ε)) :
    (finalize un.transactionId).Meets (fun _ _ ↦ True) un.Shape
      ⟨none, quarantine, some un.movedFile, false⟩ := by
  by_cases hrefuses : (⟨none, quarantine, some un.movedFile, false⟩ : Machine ε).Refuses
  · obtain ⟨left, e, -, hends⟩ := finalize_refused quarantine hrefuses
    exact hends.meets trivial
  · exact (finalize_ends quarantine hrefuses).meets trivial

omit [DecidableEq ε] in
theorem recoverJournal_error {e : UninstallError} (hshape : un.Shape machine)
    (hread : readLatestJournal file = .error e) :
    (recoverJournal file).Ends un.Shape machine (.error e) machine := by
  unfold recoverJournal
  rw [hread]
  exact ⟨⟨rfl, rfl⟩, hshape⟩

/-- The row is there: the target goes back. -/
theorem reconcile_quarantined {old : Node ε} (htarget : un.target = some old)
    (hfile : file.Since [un.journal .intent] fun record ↦ record = un.journal .moved)
    (hread : readLatestJournal file = .ok journal) :
    reconcileUninstallRecovery.Meets (fun _ ↦ Reconciled) un.Shape
      ⟨none, some old, some file, true⟩ := by
  have hshape : un.Shape ⟨none, some old, some file, true⟩ :=
    .quarantined file rfl hfile (by rw [htarget]; rfl) rfl htarget.symm rfl
  have hidle : un.Shape ⟨some old, none, none, true⟩ := .idle rfl rfl (.inl ⟨rfl, htarget.symm⟩)
  have hfound : (recoverJournal file).Ends un.Shape ⟨none, some old, some file, true⟩
      (.ok (some journal.result)) ⟨none, some old, some file, true⟩ :=
    recoverJournal_ends hread (.pure hshape)
  refine reconcile_pending (recoverPending_ends _ rfl hfound hshape) (Procedure.Meets.look ?_)
  refine (rollback_ends htarget hfile hread).attempt.bind ?_
  exact ⟨⟨rfl, rfl, rfl⟩, hidle⟩

/-- The row is gone: the reconciliation does what is left of the uninstall. -/
theorem reconcile_finalize {P : Machine ε → Prop} (quarantine : Option (Node ε))
    (hfinalize : ((finalize un.transactionId).attempt : Engine ε _).Meets (fun _ ↦ P) un.Shape
      ⟨none, quarantine, some un.movedFile, false⟩) :
    reconcileUninstallRecovery.Meets (fun _ ↦ P) un.Shape
      ⟨none, quarantine, some un.movedFile, false⟩ := by
  have hshape : un.Shape ⟨none, quarantine, some un.movedFile, false⟩ := .removed rfl rfl rfl
  have hread : readLatestJournal un.movedFile = .ok (un.journal .moved) := rfl
  have hfound : (recoverJournal un.movedFile).Ends un.Shape
      ⟨none, quarantine, some un.movedFile, false⟩ (.ok (some (un.journal .moved).result))
      ⟨none, quarantine, some un.movedFile, false⟩ := by
    refine recoverJournal_ends hread ?_
    cases quarantine <;> exact Procedure.Ends.pure hshape
  refine reconcile_pending (recoverPending_ends _ rfl hfound hshape) (Procedure.Meets.look ?_)
  refine Procedure.Meets.bind hfinalize ?_ fun _ _ h ↦ h
  rintro (_ | _) _ hP hC <;> exact ⟨hP, hC⟩

/-- The quarantine goes too. -/
theorem reconcile_removed (quarantine : Option (Node ε))
    (hfree : ¬ (⟨none, quarantine, some un.movedFile, false⟩ : Machine ε).Refuses) :
    reconcileUninstallRecovery.Meets (fun _ ↦ Reconciled) un.Shape
      ⟨none, quarantine, some un.movedFile, false⟩ :=
  reconcile_finalize quarantine ((finalize_ends quarantine hfree).attempt.meets ⟨rfl, rfl, rfl⟩)

/-- The quarantine stays in part, and stops the next reconciliation as well. -/
theorem reconcile_obstructed (quarantine : Option (Node ε))
    (hrefuses : (⟨none, quarantine, some un.movedFile, false⟩ : Machine ε).Refuses) :
    reconcileUninstallRecovery.Meets (fun _ ↦ Obstructed) un.Shape
      ⟨none, quarantine, some un.movedFile, false⟩ := by
  obtain ⟨left, e, hstops, hends⟩ := finalize_refused quarantine hrefuses
  exact reconcile_finalize quarantine (hends.attempt.meets ⟨rfl, left, rfl, hstops⟩)

/-- The target was not moved yet: only the journal goes. -/
theorem reconcile_intent {old : Node ε} (htarget : un.target = some old)
    (hfile : file.Since [] fun record ↦ ∃ phase, record = un.journal phase)
    (hread : readLatestJournal file = .ok (un.journal .intent)) :
    reconcileUninstallRecovery.Meets (fun _ ↦ Reconciled) un.Shape
      ⟨some old, none, some file, true⟩ := by
  have hshape : un.Shape ⟨some old, none, some file, true⟩ :=
    .waiting file rfl hfile (by rw [htarget]; rfl) htarget.symm rfl rfl
  have hidle : un.Shape ⟨some old, none, none, true⟩ := .idle rfl rfl (.inl ⟨rfl, htarget.symm⟩)
  have hfound : (recoverJournal file).Ends un.Shape ⟨some old, none, some file, true⟩ (.ok none)
      ⟨some old, none, none, true⟩ := by
    refine recoverJournal_ends hread ?_
    exact (removeJournal_ends ⟨some old, none, some file, true⟩ hshape hidle).bind
      (Procedure.Ends.pure hidle)
  exact (reconcile_ends (recoverPending_ends _ rfl hfound hidle) hidle).meets ⟨rfl, rfl, rfl⟩

/-- A stranded machine stays as it is, an obstructed one stays obstructed, and any other one is
reconciled. -/
theorem reconcile_spec (hshape : un.Shape machine) :
    (Stranded machine ∧
        ∃ report, reconcileUninstallRecovery.Ends un.Shape machine (.ok report) machine) ∨
      (Obstructed machine ∧ reconcileUninstallRecovery.Meets (fun _ ↦ Obstructed) un.Shape machine) ∨
      ((¬ Stranded machine ∧ ¬ Obstructed machine) ∧
        reconcileUninstallRecovery.Meets (fun _ ↦ Reconciled) un.Shape machine) := by
  obtain ⟨target, quarantine, journal, installed⟩ := machine
  have hshape' := hshape
  cases hshape with
  | idle hjournal hquarantine hrow =>
    cases hjournal; cases hquarantine
    have hends := reconcile_idle hshape' rfl
    by_cases hstranded : Stranded ⟨target, none, none, installed⟩
    · exact .inl ⟨hstranded, _, hends⟩
    · refine .inr (.inr ⟨⟨hstranded, ?_⟩, hends.meets ⟨rfl, rfl, ?_⟩⟩)
      · rintro ⟨-, node, ⟨⟩, -⟩
      rcases hrow with ⟨rfl, -⟩ | ⟨rfl, rfl⟩
      · cases target with
        | none => exact absurd ⟨rfl, rfl⟩ hstranded
        | some node => rfl
      · rfl
  | waiting file hjournal hfile hold htarget hquarantine hinstalled =>
    obtain ⟨old, hold⟩ := Option.isSome_iff_exists.mp hold
    rw [hold] at htarget
    cases hjournal; cases htarget; cases hquarantine; cases hinstalled
    cases hread : readLatestJournal file with
    | error e =>
      refine .inl ⟨fun journal h ↦ ?_, _, reconcile_reported hshape' rfl (recoverJournal_error hshape' hread)⟩
      rw [hread] at h
      cases h
    | ok journal =>
      obtain ⟨⟨⟩⟩ | ⟨phase, rfl⟩ := hfile.latest (readLatestJournal_eq_ok.mp hread)
      cases phase with
      | intent =>
        refine .inr (.inr ⟨⟨fun hstranded ↦ ?_, nofun⟩, reconcile_intent hold hfile hread⟩)
        cases (hstranded _ hread).1
      | moved =>
        refine .inl ⟨fun journal h ↦ ?_, _, reconcile_reported hshape' rfl
          (recoverJournal_ends hread (.fail hshape'))⟩
        rw [hread] at h
        cases h
        exact ⟨rfl, rfl, rfl⟩
  | quarantined file hjournal hfile hold htarget hquarantine hinstalled =>
    obtain ⟨old, hold⟩ := Option.isSome_iff_exists.mp hold
    rw [hold] at hquarantine
    cases hjournal; cases htarget; cases hquarantine; cases hinstalled
    cases hread : readLatestJournal file with
    | error e =>
      refine .inl ⟨fun journal h ↦ ?_, _, reconcile_reported hshape' rfl (recoverJournal_error hshape' hread)⟩
      rw [hread] at h
      cases h
    | ok journal =>
      refine .inr (.inr ⟨⟨fun hstranded ↦ ?_, nofun⟩, reconcile_quarantined hold hfile hread⟩)
      cases (hstranded _ hread).2.1
  | removed hjournal htarget hinstalled =>
    cases hjournal; cases htarget; cases hinstalled
    by_cases hrefuses : (⟨none, quarantine, some un.movedFile, false⟩ : Machine ε).Refuses
    · exact .inr (.inl ⟨⟨rfl, hrefuses⟩, reconcile_obstructed quarantine hrefuses⟩)
    · refine .inr (.inr ⟨⟨fun hstranded ↦ ?_, fun h ↦ hrefuses h.2⟩,
        reconcile_removed quarantine hrefuses⟩)
      cases (hstranded _ rfl).2.1

theorem reconcile_shape (hshape : un.Shape machine) :
    reconcileUninstallRecovery.Meets (fun _ _ ↦ True) un.Shape machine := by
  rcases reconcile_spec hshape with ⟨-, report, hends⟩ | ⟨-, hmeets⟩ | ⟨-, hmeets⟩
  · exact hends.meets trivial
  · exact Steps.Meets.mono hmeets (fun _ _ _ ↦ trivial) fun _ h ↦ h
  · exact Steps.Meets.mono hmeets (fun _ _ _ ↦ trivial) fun _ h ↦ h

end Reconciliation

section Command

variable {un : Uninstallation ε}

/-! ## The steps of an uninstall -/

theorem opened_since (un : Uninstallation ε) :
    un.opened.Since [un.journal .intent] fun record ↦ record = un.journal .moved :=
  ⟨⟨[], rfl, nofun⟩, nofun⟩

theorem movedFile_since (un : Uninstallation ε) :
    un.movedFile.Since [un.journal .intent] fun record ↦ record = un.journal .moved :=
  (opened_since un).append rfl

/-- The target goes into quarantine between the two records of the journal. -/
theorem begin_ends {old : Node ε} (htarget : un.target = some old) :
    (begin un.transactionId un.request).Ends un.Shape un.start
      (.ok (un.journal .moved).result) ⟨none, some old, some un.movedFile, true⟩ := by
  have hold : un.target.isSome := by rw [htarget]; rfl
  have hempty : LogFile.empty.Since [] fun record ↦ ∃ phase, record = un.journal phase :=
    ⟨⟨[], rfl, nofun⟩, nofun⟩
  have hwrote : ∃ phase, un.journal .intent = un.journal phase := ⟨.intent, rfl⟩
  have hwaiting : ∀ file : LogFile UninstallJournal,
      (file.Since [] fun record ↦ ∃ phase, record = un.journal phase) →
        un.Shape ⟨some old, none, some file, true⟩ :=
    fun file hfile ↦ .waiting file rfl hfile hold htarget.symm rfl rfl
  have hquarantined : ∀ file : LogFile UninstallJournal,
      (file.Since [un.journal .intent] fun record ↦ record = un.journal .moved) →
        un.Shape ⟨none, some old, some file, true⟩ :=
    fun file hfile ↦ .quarantined file rfl hfile hold rfl htarget.symm rfl
  have hstart : un.start = ⟨some old, none, none, true⟩ := by rw [Uninstallation.start, htarget]
  rw [hstart]
  have hintent : (persistJournal (un.journal .intent)).Ends un.Shape ⟨some old, none, none, true⟩
      (.ok ()) ⟨some old, none, some un.opened, true⟩ := by
    refine persistJournal_ends ⟨some old, none, none, true⟩ _ ?_ (fun point ↦ ?_) ?_
    · exact .idle rfl rfl (.inl ⟨rfl, htarget.symm⟩)
    · exact hwaiting _ (hempty.appendCut hwrote point)
    · exact hwaiting _ (hempty.append hwrote)
  have hmoved : (persistJournal (un.journal .moved)).Ends un.Shape
      ⟨none, some old, some un.opened, true⟩ (.ok ()) ⟨none, some old, some un.movedFile, true⟩ := by
    refine persistJournal_ends ⟨none, some old, some un.opened, true⟩ _
      (hquarantined _ (opened_since un)) (fun point ↦ ?_) ?_
    · exact hquarantined _ ((opened_since un).appendCut rfl point)
    · exact hquarantined _ (movedFile_since un)
  refine hintent.bind ?_
  refine (moveToQuarantine_ends ⟨some old, none, some un.opened, true⟩ ?_ ?_).bind ?_
  · exact hwaiting _ (hempty.append hwrote)
  · exact hquarantined _ (opened_since un)
  refine hmoved.bind ?_
  exact Procedure.Ends.pure (hquarantined _ (movedFile_since un))

theorem removeDeploymentCatalog_ends {C : Machine ε → Prop} (machine : Machine ε) (hhere : C machine)
    (hremoved : C { machine with installed := false }) :
    (removeDeploymentCatalog true).Ends C machine (.ok ()) { machine with installed := false } :=
  Procedure.Ends.perform (fun _ _ h ↦ atomic_cut h ▸ hhere) hremoved

variable [DecidableEq ε]

/-- The catalog keeps its row and the reconciliation follows, or the row goes and what is left of
the uninstall follows. -/
theorem removeInstallation_meets {machine : Machine ε} (commits : Bool) (request : UninstallRequest)
    (filesystem : UninstallResult) (hhere : un.Shape machine)
    (hremoved : un.Shape { machine with installed := false })
    (hfinalize : (finalizeCommand filesystem.transactionId).Meets (fun _ _ ↦ True) un.Shape
      { machine with installed := false }) :
    (removeInstallation commits request filesystem).Meets (fun _ _ ↦ True) un.Shape machine := by
  cases commits with
  | false =>
    have hfails : (removeDeploymentCatalog false).Ends un.Shape machine (.error ()) machine :=
      .fail hhere
    refine hfails.attempt.bind ?_
    refine Procedure.Meets.bind (Q := fun _ _ ↦ True) (.attempt (reconcile_shape hhere)) ?_ ?_
    · exact fun _ _ _ hshape ↦ ⟨trivial, hshape⟩
    · exact fun _ _ _ ↦ trivial
  | true =>
    refine (removeDeploymentCatalog_ends machine hhere hremoved).attempt.bind ?_
    refine Procedure.Meets.bind hfinalize ?_ ?_
    · exact fun _ _ _ hshape ↦ ⟨trivial, hshape⟩
    · exact fun _ _ _ ↦ trivial

/-- Wherever an uninstall is cut off, the machine has one of the shapes. -/
theorem uninstall_meets (un : Uninstallation ε) :
    (uninstallSkillFromAgent un.commits un.transactionId un.request).Meets (fun _ _ ↦ True)
      un.Shape un.start := by
  have hstart : un.Shape un.start := .idle rfl rfl (.inl ⟨rfl, rfl⟩)
  refine Procedure.Meets.look ?_
  cases htarget : un.target with
  | none =>
    have hbegin : (begin un.transactionId un.request).Ends un.Shape un.start
        (.ok
          { transactionId := none
            skillId := un.request.skillId
            agentProfileId := un.request.agentProfileId
            targetPath := un.request.targetPath
            quarantinedPath := none
            targetExisted := false }) un.start := by
      refine Procedure.Meets.look ?_
      rw [if_pos (by rw [Uninstallation.start, htarget]; rfl)]
      exact Procedure.Ends.pure hstart
    have hremoved : un.Shape { un.start with installed := false } :=
      .idle rfl rfl (.inr ⟨rfl, htarget⟩)
    refine hbegin.attempt.bind ?_
    exact removeInstallation_meets un.commits un.request _ hstart hremoved ⟨trivial, hremoved⟩
  | some old =>
    have hquarantined : un.Shape ⟨none, some old, some un.movedFile, true⟩ :=
      .quarantined un.movedFile rfl (movedFile_since un) (by rw [htarget]; rfl) rfl htarget.symm rfl
    refine (begin_ends htarget).attempt.bind ?_
    refine removeInstallation_meets un.commits un.request _ hquarantined (.removed rfl rfl rfl) ?_
    refine Procedure.Meets.bind (Q := fun _ _ ↦ True) (.attempt (finalize_shape (some old))) ?_
      fun _ _ _ ↦ trivial
    rintro (_ | _) _ - hshape <;> exact ⟨trivial, hshape⟩

end Command

/-! ## Runs of crashes -/

section Runs

variable [DecidableEq ε]

/-- The machine of an uninstall that has crashed. A step is one more reconciliation and its
crash. -/
def Uninstallation.restarts (un : Uninstallation ε) :
    TransitionSystem (Machine ε) (ℕ × Point ε) where
  init machine := ∃ steps point,
    (uninstallSkillFromAgent un.commits un.transactionId un.request).cutOff un.start steps point =
      some machine
  step machine crash := reconcileUninstallRecovery.cutOff machine crash.1 crash.2

/-- The machine after a reconciliation that is left to end. -/
def afterReconciliation (machine : Machine ε) : Machine ε :=
  (reconcileUninstallRecovery.exec machine).2

/-- From some number of reconciliations on, the machine is reconciled, and they report nothing. -/
def Settles (machine : Machine ε) : Prop :=
  ∃ rounds, ∀ n, rounds ≤ n → Reconciled (afterReconciliation^[n] machine) ∧
    (reconcileUninstallRecovery.exec (afterReconciliation^[n] machine)).1 = .ok ⟨0, 0, 0, 0, []⟩

variable {un : Uninstallation ε} {machine : Machine ε}

theorem Uninstallation.restarts_shape (h : un.restarts.Reachable machine) : un.Shape machine := by
  refine h.invariant ?_ ?_
  · rintro machine ⟨steps, point, hcut⟩
    exact (uninstall_meets un).cutOff hcut
  · exact fun machine crash machine' hshape hstep ↦ (reconcile_shape hshape).cutOff hstep

/-- A machine without journal stays as it is. -/
theorem exec_of_journal (hjournal : machine.journal = none) :
    reconcileUninstallRecovery.exec machine = (.ok ⟨0, 0, 0, 0, []⟩, machine) := by
  obtain ⟨target, quarantine, journal, installed⟩ := machine
  cases hjournal
  rfl

omit [DecidableEq ε] in
theorem Reconciled.not_stranded (h : Reconciled machine) : ¬ Stranded machine := by
  obtain ⟨target, quarantine, journal, installed⟩ := machine
  obtain ⟨hjournal, -, hrow⟩ := h
  cases hjournal
  rintro ⟨rfl, rfl⟩
  cases hrow

theorem Reconciled.settles (h : Reconciled (afterReconciliation machine)) : Settles machine := by
  have hfixed : afterReconciliation (afterReconciliation machine) = afterReconciliation machine := by
    rw [afterReconciliation, exec_of_journal h.journal]
  refine ⟨1, fun n hn ↦ ?_⟩
  obtain ⟨n, rfl⟩ := Nat.exists_eq_add_of_le' hn
  have hiterate : afterReconciliation^[n + 1] machine = afterReconciliation machine :=
    Function.iterate_fixed hfixed n
  rw [hiterate]
  exact ⟨h, congrArg Prod.fst (exec_of_journal h.journal)⟩

theorem Stranded.not_settles (h : Stranded machine)
    (hfixed : afterReconciliation machine = machine) : ¬ Settles machine := by
  rintro ⟨rounds, hsettles⟩
  obtain ⟨hreconciled, -⟩ := hsettles rounds (Nat.le_refl rounds)
  rw [Function.iterate_fixed hfixed] at hreconciled
  exact hreconciled.not_stranded h

omit [DecidableEq ε] in
theorem Obstructed.not_reconciled (h : Obstructed machine) : ¬ Reconciled machine := by
  intro hreconciled
  obtain ⟨-, node, hnode, -⟩ := h
  cases hreconciled.quarantine.symm.trans hnode

/-- What cannot be removed is there after every reconciliation. -/
theorem Obstructed.iterate (hshape : un.Shape machine) (h : Obstructed machine) (n : ℕ) :
    un.Shape (afterReconciliation^[n] machine) ∧ Obstructed (afterReconciliation^[n] machine) := by
  induction n with
  | zero => exact ⟨hshape, h⟩
  | succ n ih =>
    rw [Function.iterate_succ_apply']
    obtain ⟨hshape, hobstructed⟩ := ih
    have hkept : reconcileUninstallRecovery.Meets (fun _ ↦ Obstructed) un.Shape
        (afterReconciliation^[n] machine) := by
      rcases reconcile_spec hshape with ⟨-, report, hends⟩ | ⟨-, hmeets⟩ | ⟨⟨-, hfree⟩, -⟩
      · exact hends.meets hobstructed
      · exact hmeets
      · exact absurd hobstructed hfree
    obtain ⟨hobstructed, hshape⟩ := Steps.Meets.exec hkept
    exact ⟨hshape, hobstructed⟩

theorem Obstructed.not_settles (hshape : un.Shape machine) (h : Obstructed machine) :
    ¬ Settles machine := by
  rintro ⟨rounds, hsettles⟩
  exact (h.iterate hshape rounds).2.not_reconciled (hsettles rounds (Nat.le_refl rounds)).1

/-- After any number of crashes, the first of them in the uninstall and the others in its
reconciliations, repeated reconciliation ends the transaction exactly if the machine is neither
stranded nor obstructed. -/
theorem settles_iff (h : un.restarts.Reachable machine) :
    Settles machine ↔ ¬ Stranded machine ∧ ¬ Obstructed machine := by
  have hshape := Uninstallation.restarts_shape h
  rcases reconcile_spec hshape with ⟨hstranded, report, hends⟩ | ⟨hobstructed, -⟩ | ⟨hfree, hmeets⟩
  · have hfixed : afterReconciliation machine = machine := congrArg Prod.snd hends.exec
    exact iff_of_false (hstranded.not_settles hfixed) fun h ↦ h.1 hstranded
  · exact iff_of_false (hobstructed.not_settles hshape) fun h ↦ h.2 hobstructed
  · exact iff_of_true (Reconciled.settles hmeets.exec) hfree

end Runs

/-! ## Two runs -/

/-- The uninstall of a skill of two files. -/
def sample : Uninstallation ℕ where
  transactionId := "transaction"
  request :=
    { skillId := "skill", agentProfileId := "agent", skillRoot := "skills", targetPath := "skills/target" }
  target := some (.snapshot [1, 2])
  commits := true

/-- The uninstall crashed while it removed the quarantine, and so did its reconciliation. -/
def halfRemoved : Machine ℕ := ⟨none, some (.snapshot []), some sample.movedFile, false⟩

/-- The uninstall crashed before the catalog changed, and its reconciliation after it moved the
target back. -/
def movedBack : Machine ℕ := ⟨some (.snapshot [1, 2]), none, some sample.movedFile, true⟩

theorem halfRemoved_settles : sample.restarts.Reachable halfRemoved ∧ Settles halfRemoved := by
  have hreachable : sample.restarts.Reachable halfRemoved := by
    refine ⟨_, [(0, .removed [])], ⟨4, .removed [.file 2], rfl⟩, ?_⟩
    decide +kernel
  refine ⟨hreachable, (settles_iff hreachable).mpr ⟨fun hstranded ↦ ?_, ?_⟩⟩
  · cases (hstranded _ rfl).2.1
  · rintro ⟨-, node, ⟨⟩, ⟨⟩⟩

/-- The rollback moves the target back and then removes the journal. Between the two steps the
journal still says that the target was moved, and no reconciliation takes it from there. -/
theorem movedBack_notSettled : sample.restarts.Reachable movedBack ∧ ¬ Settles movedBack := by
  constructor
  · refine ⟨_, [(1, .untouched)], ⟨3, .untouched, rfl⟩, ?_⟩
    decide +kernel
  · have hstranded : Stranded movedBack := by
      intro journal hread
      cases hread
      exact ⟨rfl, rfl, rfl⟩
    exact hstranded.not_settles rfl

end Uninstall

end SkillHive
