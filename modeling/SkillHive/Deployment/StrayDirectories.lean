import SkillHive.Deployment.SharedTargets

/-!
# Directories that nothing names

What `deploy` has put at a path can be found again as long as a row of the catalog names the path,
or a journal that is still open. A tombstone takes the rows of its skill along, a deployment under a
new slug moves its row to the new path, and a rollback closes its journal. If in each of these steps
every path that loses a name has another one, nothing that was deployed is ever lost from sight.
-/

namespace SkillHive

open Foundation LocalStore

namespace Deployment

variable {ε : Type} [DecidableEq ε]

/-! ## Names -/

/-- What may name a path. -/
inductive Name where
  | row (key : String × String)
  | deployment (transactionId : String)
  | uninstall (transactionId : String)
  deriving DecidableEq, Repr

/-- The targets of the records of a file. -/
def told {ρ : Type} (targetPath : ρ → String) (file : LogFile ρ) : List Location :=
  (file.lines ++ file.rest.toList).filterMap fun line ↦
    line.record?.map fun record ↦ components (targetPath record)

/-- The paths that a name stands for. -/
def Desktop.named (w : Desktop ε) : Name → List Location
  | .row key => (w.store.deployments.get? key).elim [] fun row ↦ [components row.targetPath]
  | .deployment transactionId =>
    (w.transits transactionId).journal.elim [] (told DeploymentJournal.targetPath)
  | .uninstall transactionId =>
    (w.removals transactionId).journal.elim [] (told Uninstall.UninstallJournal.targetPath)

/-- What `deploy` has put somewhere, and what is still there, has a name. -/
def Findable (w : Desktop ε) : Prop :=
  ∀ path, (w.sites path).deployed = true → ∃ name, path ∈ w.named name

/-! ## When steps keep names -/

variable {snapshots : String → Option (List ε)} {w w' : Desktop ε} {path : Location}

/-! ## What files tell -/

section Files

variable {ρ : Type} {targetPath : ρ → String} {file : LogFile ρ} {target : String}

end Files

/-- Only something that is there has been deployed. -/
def Desktop.Sound (w : Desktop ε) : Prop :=
  ∀ path, (w.sites path).deployed = true → (w.sites path).node.isSome

/-- What has come or gone with something around it is deployed only if it was before. -/
theorem stir_deployed {byHand : Bool} {wake : Wake ε} {path' : Location}
    (h : ((w.stir path byHand wake).sites path').deployed = true) :
    (w.sites path').deployed = true ∧
      ((w.stir path byHand wake).sites path' = w.sites path' ∨
        ((w.stir path byHand wake).sites path').node.isSome) := by
  by_cases hnested : Nested path path'
  · rw [w.stir_sites_of_nested _ _ _ hnested] at h ⊢
    unfold Site.follow at h ⊢
    split at h
    case isTrue hsame =>
      rw [if_pos hsame]
      exact ⟨h, .inl rfl⟩
    case isFalse hother =>
      rw [if_neg hother]
      obtain ⟨hdeployed, hsome⟩ := Bool.and_eq_true_iff.mp h
      exact ⟨hdeployed, .inr hsome⟩
  · rw [w.stir_sites_of_not_nested _ _ _ hnested] at h ⊢
    exact ⟨h, .inl rfl⟩

theorem Desktop.Sound.stir (h : w.Sound) (path : Location) (byHand : Bool) (wake : Wake ε) :
    (w.stir path byHand wake).Sound := by
  intro path' hdeployed
  obtain ⟨hbefore, hsame | hsome⟩ := stir_deployed hdeployed
  · rw [hsame]
    exact h path' hbefore
  · exact hsome

section Named

omit [DecidableEq ε]

theorem mem_named_deployment {transactionId : String} :
    path ∈ w.named (.deployment transactionId) ↔
      ∃ file, (w.transits transactionId).journal = some file ∧
        path ∈ told DeploymentJournal.targetPath file := by
  cases h : (w.transits transactionId).journal <;> simp [Desktop.named, h]

theorem mem_named_uninstall {transactionId : String} :
    path ∈ w.named (.uninstall transactionId) ↔
      ∃ file, (w.removals transactionId).journal = some file ∧
        path ∈ told Uninstall.UninstallJournal.targetPath file := by
  cases h : (w.removals transactionId).journal <;> simp [Desktop.named, h]

end Named

/-! ## Records -/

/-- The row of this key is kept. -/
def KeepsRow (w : Desktop ε) (machine : Uninstall.Machine ε) (removed : LocalStore)
    (key : String × String) : Prop :=
  machine.installed = true ∨ removed.deployments.get? key = w.store.deployments.get? key

/-- The names stay as they are when something around a path changes. -/
theorem Findable.stir (h : Findable w) (path : Location) (byHand : Bool) (wake : Wake ε) :
    Findable (w.stir path byHand wake) := by
  intro path' hdeployed
  obtain ⟨name, hnamed⟩ := h path' (stir_deployed hdeployed).1
  refine ⟨name, ?_⟩
  cases name with
  | row key => exact hnamed
  | deployment transactionId =>
    rw [mem_named_deployment] at hnamed ⊢
    rwa [w.stir_transit_journal]
  | uninstall transactionId =>
    rw [mem_named_uninstall] at hnamed ⊢
    rwa [w.stir_removal_journal]

/-- No transaction of this identifier has written a file. -/
def Unused (transactionId : String) (w : Desktop ε) : Prop :=
  w.transits transactionId = .unused ∧ w.removals transactionId = .unused

theorem Unused.stir {transactionId : String} (h : Unused transactionId w) (path : Location)
    (byHand : Bool) (wake : Wake ε) : Unused transactionId (w.stir path byHand wake) :=
  ⟨w.stir_unused path byHand wake h.1, w.stir_unused_removal path byHand wake h.2⟩

end Deployment

end SkillHive
