import SkillHive.LocalStore.Dispatches
import SkillHive.LocalStore.RecordedHeads

/-!
# What keep-remote drops and adopts

Keep-remote is meant to drop the pending chain of the skill and to adopt the remote head. It
retires the mutations that are in `conflict` and copies the remote package hash of the row:
work queued behind them stays in line, the name of the row stays what it was, and a head
that is a deletion has left an older package hash to adopt.
-/

namespace SkillHive

open Foundation

namespace LocalStore

/-! ## The outbox after keep-remote -/

/-- Nothing of the skill waits in line, or a rejected mutation holds up the line for good. -/
def ChainSettled (store : LocalStore) (skillId : String) : Prop :=
  (∀ m ∈ store.mutations, m.skillId = skillId → m.state = .acked ∨ m.state = .conflict) ∨
    ∃ m ∈ store.mutations, m.skillId = skillId ∧ m.state.isRejected = true

/-- Superseding the conflicts keeps every older mutation from dispatch exactly when the
chain was settled. -/
theorem supersede_drops_iff {host : Host} {store store' : LocalStore} {skillId : String}
    (hreachable : Reachable host store')
    (hmutations : store'.mutations = supersedeConflictChain store.mutations skillId) :
    (∀ m ∈ store.mutations, m.skillId = skillId → ¬ Dispatches host store' m) ↔
      ChainSettled store skillId := by
  have hmem : ∀ m ∈ store.mutations, m.supersede skillId ∈ store'.mutations := fun m hm ↦
    hmutations ▸ supersede_mem hm skillId
  constructor
  · intro hdropped
    by_contra hunsettled
    obtain ⟨hwaiting, hnone⟩ := not_or.mp hunsettled
    push Not at hwaiting hnone
    obtain ⟨m, hm, hskill, hopen, hconflict⟩ := hwaiting
    have hsame : m.supersede skillId = m := by
      rw [LocalMutation.supersede, if_neg fun h ↦ hconflict h.2]
    obtain ⟨first, hfirst, hskill', hopen', -, hpredecessors⟩ :=
      exists_first_unacked (hsame ▸ hmem m hm) hopen
    have hown : first.skillId = skillId := hskill'.trans hskill
    obtain ⟨m₀, hm₀, rfl⟩ := Table.mem_update.mp (hmutations ▸ hfirst)
    have hkept : m₀.supersede skillId = m₀ := by
      rcases m₀.supersede_cases skillId with hsame₀ | ⟨-, -, -, hacked⟩
      · exact hsame₀
      · exact absurd hacked hopen'
    rw [hkept] at hfirst hopen' hpredecessors hown
    have hunconflicted : m₀.state ≠ .conflict := by
      have hspec := (supersedeConflictChain_spec (hmutations ▸ hfirst)).2 hown
      exact hspec
    have hrejected : m₀.state.isRejected = false := by simpa using hnone m₀ hm₀ hown
    exact hdropped m₀ hm₀ hown (dispatches_next hfirst hpredecessors
      (MutationState.waiting_of_open hopen' hunconflicted hrejected))
  · rintro (hsettled | ⟨rejected, hrejected, hskill, hstate⟩) m hm hown hdispatches
    · refine not_dispatches_of_acked (hmem m hm) ?_
        (hdispatches.congr (m.supersede_identity skillId))
      rcases m.supersede_cases skillId with hsame | ⟨-, -, -, hacked⟩
      · rw [hsame]
        refine (hsettled m hm hown).resolve_right fun hconflict ↦ ?_
        have hspec := (supersedeConflictChain_spec (hmutations ▸ hsame ▸ hmem m hm)).2 hown
        exact hspec hconflict
      · exact hacked
    · have hkept : rejected.supersede skillId = rejected := by
        rw [LocalMutation.supersede, if_neg]
        rintro ⟨-, hconflict⟩
        rw [hconflict] at hstate
        cases hstate
      exact not_dispatches_of_rejected hreachable (hkept ▸ hmem rejected hrejected) hstate
        (hown.trans hskill.symm) hdispatches

/-! ## The row after keep-remote -/

/-- The row carries the head: its content, its revision and, where it was told, its name. Of
a deletion no row is left. -/
def CarriesHead (store : LocalStore) (skillId : String) : RemoteHead → Prop
  | .live revision package name => ∃ row, store.skill? skillId = some row ∧
      package = some row.currentBlobHash ∧ row.remoteRevision = some revision ∧
      ∀ n ∈ name, row.name = n
  | .deleted _ => store.skill? skillId = none

/-- What keep-remote promises: nothing older of the skill goes out again, and the row stands
at the head that was recorded. -/
structure AdoptsRemote (host : Host) (store store' : LocalStore) (history : SkillHistory)
    (skillId : String) : Prop where
  dropped : ∀ m ∈ store.mutations, m.skillId = skillId → ¬ Dispatches host store' m
  adopted : ∃ head, history.head = some head ∧ CarriesHead store' skillId head

/-- The row has the package and the name of the head already. -/
def HoldsHead (row : LocalSkill) : RemoteHead → Prop
  | .live _ package name => package = row.remoteBlobHash ∧ ∀ n ∈ name, row.name = n
  | .deleted _ => False

/-- After every run of the store, keep-remote keeps its promise exactly when the chain of the
skill was settled and the row held the recorded head. -/
theorem resolveKeepRemote_adoptsRemote_iff {host : Host} {actions : List StoreAction}
    {x : LocalStore × (String → SkillHistory)} {store' : LocalStore} {skillId : String}
    {confirmed : Bool} {applied : ResolutionApplied}
    (hrun : (conflictHistory host).run freshHistory (actions.flatMap StoreAction.events) =
      some x)
    (hresolve : x.1.resolveKeepRemote skillId confirmed = .ok (store', applied)) :
    AdoptsRemote host x.1 store' (x.2 skillId) skillId ↔
      ChainSettled x.1 skillId ∧ ∃ row ∈ x.1.skill? skillId, ∃ head ∈ (x.2 skillId).head,
        HoldsHead row head := by
  obtain ⟨hreachable, hrecorded⟩ := reachable_of_conflictHistory hrun
  obtain ⟨row, package, hrow, hconflict, hpackage, -, hskills, hstore⟩ :=
    resolveKeepRemote_spec hresolve
  have hafter : Reachable host store' :=
    hreachable.step (a := .resolveKeepRemote skillId confirmed)
      (committed_eq_some.mpr ⟨applied, hresolve⟩)
  have hmutations : store'.mutations = supersedeConflictChain x.1.mutations skillId := by rw [hstore]
  obtain ⟨head, hhead, hrevision⟩ := hrecorded skillId row hrow hconflict
  have hput : store'.skill? skillId = some { row with
      currentBlobHash := package, remoteBlobHash := none, syncState := .remoteOnly } := by
    rw [skill?, updateSkill_spec hskills, if_pos rfl]
    exact congrArg (Option.map _) hrow
  have hcarries : CarriesHead store' skillId head ↔ HoldsHead row head := by
    cases head with
    | live revision package' name =>
      simp only [CarriesHead, HoldsHead, hput, Option.some.injEq, exists_eq_left']
      rw [hpackage]
      exact ⟨fun h ↦ ⟨h.1, h.2.2⟩, fun h ↦ ⟨h.1, hrevision, h.2⟩⟩
    | deleted revision => simp [CarriesHead, HoldsHead, hput]
  constructor
  · rintro ⟨hdropped, head', hhead', hadopted⟩
    cases hhead.symm.trans hhead'
    exact ⟨(supersede_drops_iff hafter hmutations).mp hdropped, row, hrow, head, hhead,
      hcarries.mp hadopted⟩
  · rintro ⟨hsettled, row', hrow', head', hhead', hholds⟩
    cases hrow.symm.trans hrow'
    cases hhead.symm.trans hhead'
    exact ⟨(supersede_drops_iff hafter hmutations).mpr hsettled, head, hhead, hcarries.mpr hholds⟩

/-! ## A chain of one and a chain of two -/

/-- The server refuses the edit `m-1`, which is based on revision 1; its head is 2. -/
def refusal : MutationOutcome where
  mutationId := "m-1"
  status := "conflict"
  remoteSkillId := none
  revision := none
  conflictHeadRevision := some 2
  conflictPackageManifestHash := some "sha256:second"
  errorCode := some "REVISION_CONFLICT"
  message := some "The server head has advanced past baseRevision."

/-- A pulled skill is edited once, and the edit is refused. -/
def conflictedEditRun : List StoreAction :=
  [.applyChangesPage 1 0 (upsertPage "srv-1" 1 "sha256:first" "v1.AAAAAQ"),
    .commitSkillEdit 2 "m-1" (sampleUpdate "srv-1" "sha256:local" (some 1)),
    .claimDispatchableMutations 3 16,
    .applyMutationOutcome 4 refusal]

/-- A second edit is queued before the first one is refused. -/
def conflictedChainRun : List StoreAction :=
  [.applyChangesPage 1 0 (upsertPage "srv-1" 1 "sha256:first" "v1.AAAAAQ"),
    .commitSkillEdit 2 "m-1" (sampleUpdate "srv-1" "sha256:local" (some 1)),
    .commitSkillEdit 2 "m-2" (sampleUpdate "srv-1" "sha256:again" (some 1)),
    .claimDispatchableMutations 3 16,
    .applyMutationOutcome 4 refusal]

/-- After the single edit keep-remote drops the chain and adopts the head. -/
theorem resolveKeepRemote_adoptsRemote_iff_singleEdit :
    ∃ x store' applied, (conflictHistory leaselessHost).run freshHistory
        (conflictedEditRun.flatMap StoreAction.events) = some x ∧
      x.1.resolveKeepRemote "srv-1" true = .ok (store', applied) ∧
      AdoptsRemote leaselessHost x.1 store' (x.2 "srv-1") "srv-1" := by
  have hrun : ((conflictHistory leaselessHost).run freshHistory
      (conflictedEditRun.flatMap StoreAction.events)).any (fun x ↦
        (x.1.resolveKeepRemote "srv-1" true).toOption.isSome &&
          (x.1.mutations.rows.all (fun m ↦ m.state = .conflict) &&
            (x.1.skill? "srv-1").any (fun row ↦ row.remoteBlobHash = some "sha256:second") &&
              (x.2 "srv-1").head = some (.live 2 (some "sha256:second") none))) = true := by
    decide
  obtain ⟨x, hx, hall⟩ := (Option.any_eq_true _ _).mp hrun
  obtain ⟨hresolves, hrest⟩ := Bool.and_eq_true_iff.mp hall
  obtain ⟨hrest, hhead⟩ := Bool.and_eq_true_iff.mp hrest
  obtain ⟨hstates, hpackage⟩ := Bool.and_eq_true_iff.mp hrest
  obtain ⟨⟨store', applied⟩, hresolve⟩ := Option.isSome_iff_exists.mp hresolves
  have hresolve := toOption_eq_some.mp hresolve
  refine ⟨x, store', applied, hx, hresolve,
    (resolveKeepRemote_adoptsRemote_iff hx hresolve).mpr ⟨.inl fun m hm _ ↦ .inr ?_, ?_⟩⟩
  · simpa using List.all_eq_true.mp hstates m hm
  · obtain ⟨row, hrow, hhash⟩ := (Option.any_eq_true _ _).mp hpackage
    refine ⟨row, hrow, _, of_decide_eq_true hhead, (of_decide_eq_true hhash).symm, ?_⟩
    exact fun n hn ↦ by cases hn

/-- After the chain of two keep-remote succeeds, and the second edit is dispatched next. -/
theorem keptRemote_dispatchesQueued :
    ∃ x store' applied m, (conflictHistory leaselessHost).run freshHistory
        (conflictedChainRun.flatMap StoreAction.events) = some x ∧
      x.1.resolveKeepRemote "srv-1" true = .ok (store', applied) ∧
      m ∈ x.1.mutations ∧ m.skillId = "srv-1" ∧ Dispatches leaselessHost store' m := by
  have hrun : ((conflictHistory leaselessHost).run freshHistory
      (conflictedChainRun.flatMap StoreAction.events)).any (fun x ↦
        (x.1.resolveKeepRemote "srv-1" true).toOption.any (fun resolved ↦
          (x.1.mutation? "m-2").any (fun m ↦ m.skillId = "srv-1" &&
            (resolved.1.mutation? "m-2" = some m &&
              ((StoreAction.claimDispatchableMutations 5 16).claims resolved.1).any
                (fun claimed ↦ claimed.id = "m-2"))))) = true := by
    decide
  obtain ⟨x, hx, hall⟩ := (Option.any_eq_true _ _).mp hrun
  obtain ⟨⟨store', applied⟩, hresolve, hall⟩ := (Option.any_eq_true _ _).mp hall
  obtain ⟨m, hm, hall⟩ := (Option.any_eq_true _ _).mp hall
  obtain ⟨hskill, hall⟩ := Bool.and_eq_true_iff.mp hall
  obtain ⟨hkept, hclaims⟩ := Bool.and_eq_true_iff.mp hall
  obtain ⟨claimed, hclaimed, hid⟩ := List.any_eq_true.mp hclaims
  have hkept : store'.mutation? "m-2" = some m := of_decide_eq_true hkept
  refine ⟨x, store', applied, m, hx, toOption_eq_some.mp hresolve, Table.mem_of_get? hm,
    of_decide_eq_true hskill, [], store', .claimDispatchableMutations 5 16, rfl, ?_, claimed,
    hclaimed, ?_⟩
  · exact ⟨m, Table.mem_of_get? hkept, .refl m⟩
  · rw [of_decide_eq_true hid, Table.key_of_get? hm]

end LocalStore

end SkillHive
