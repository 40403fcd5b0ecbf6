import SkillHive.Foundation.Rfc3339
import SkillHive.LocalStore.StalePages

/-!
# The sweep and the clock

The end of a lease is compared with the clock in two ways. The sweep compares the stored text
with the text of the clock, and the check for offline use parses the stored text. A lease without
an end is never swept, although it allows no offline use. With an end, the two ways agree while
the years have four digits.
-/

namespace SkillHive

open Foundation Foundation.Rfc3339

namespace LocalStore

/-- `entitlement_allows_offline_use` -/
def entitlementAllowsOfflineUse (chrono : Chrono) (entitlement : Option StoredEntitlement)
    (now : Int) : Bool :=
  match entitlement with
  | none => false
  | some lease =>
    match lease.expiresAt with
    | none => false
    | some text =>
      match chrono.parseFromRfc3339 text with
      | .ok limit => now < limit
      | .error _ => false

/-- What `chrono` documents: instants are in the order of their calendar fields in UTC, RFC 3339
writes a year with four digits and an offset of less than a day, and `to_rfc3339` is its inverse,
but gives other years a sign, which RFC 3339 does not read. -/
structure Chrono.Documented (chrono : Chrono) (civil : Int → Civil) : Prop where
  before_iff : ∀ a b, a < b ↔ (civil a).Before (civil b)
  toRfc3339_eq : ∀ a, chrono.toRfc3339 a = (civil a).text
  year_mem : ∀ text a, chrono.parseFromRfc3339 text = .ok a →
    -1 ≤ (civil a).year ∧ (civil a).year ≤ 10000
  parse_plain : ∀ text a, chrono.parseFromRfc3339 text = .ok a → (civil a).hasPlainYear →
    chrono.parseFromRfc3339 (chrono.toRfc3339 a) = .ok a
  parse_signed : ∀ text a, chrono.parseFromRfc3339 text = .ok a → ¬ (civil a).hasPlainYear →
    ∃ error, chrono.parseFromRfc3339 (chrono.toRfc3339 a) = .error error

/-- The end that a payload names. -/
def EntitlementPayload.deadline? (chrono : Chrono) (payload : EntitlementPayload) : Option Int :=
  payload.expiresAt.bind fun text ↦ (chrono.parseFromRfc3339 text).toOption

/-- There is an end, and the years of the end and the clock do not set the two ways apart. -/
def Comparable (civil : Int → Civil) (deadline : Option Int) (now : Int) : Prop :=
  ∃ limit ∈ deadline,
    ((civil now).year ≤ 9999 ∨ 9999 < (civil limit).year ∧ limit ≤ now) ∧
      ¬ ((civil limit).year = -1 ∧ (civil now).year = -1 ∧ now < limit)

variable {chrono : Chrono} {civil : Int → Civil} {store : LocalStore} {skillId : String}
  {limit now : Int}

theorem mem_dueEntitlements :
    skillId ∈ dueEntitlements chrono store now ↔
      ∃ e, store.entitlements.get? skillId = some e ∧
        (∃ limit ∈ e.expiresAt, limit ≤ chrono.toRfc3339 now) ∧
        (store.skill? skillId).any (fun row ↦ row.syncState.isExpirable) = true := by
  unfold dueEntitlements
  constructor
  · intro hmem
    obtain ⟨e, hselected, rfl⟩ := List.mem_map.mp hmem
    obtain ⟨he, hboth⟩ := List.mem_filter.mp hselected
    obtain ⟨hdue, hlabel⟩ := Bool.and_eq_true_iff.mp hboth
    obtain ⟨limit, hlimit, hle⟩ := (Option.any_eq_true _ _).mp hdue
    exact ⟨e, Table.get?_of_mem (Table.mem_iff_mem_rows.mpr he),
      ⟨limit, hlimit, of_decide_eq_true hle⟩, hlabel⟩
  · rintro ⟨e, hget, ⟨limit, hlimit, hle⟩, hlabel⟩
    have hkey : e.skillId = skillId := Table.key_of_get? hget
    refine List.mem_map.mpr ⟨e, List.mem_filter.mpr ⟨?_, ?_⟩, hkey⟩
    · exact Table.mem_iff_mem_rows.mp (Table.mem_of_get? hget)
    · rw [hkey, hlabel, Bool.and_true]
      exact (Option.any_eq_true _ _).mpr ⟨limit, hlimit, decide_eq_true hle⟩

theorem toRfc3339_le (h : chrono.Documented civil) :
    chrono.toRfc3339 limit ≤ chrono.toRfc3339 now ↔ ¬ (civil now).chars < (civil limit).chars := by
  rw [h.toRfc3339_eq, h.toRfc3339_eq, Civil.text_le_iff]

section Order

variable (h : chrono.Documented civil)
include h

theorem toRfc3339_le_of_plain (hlimit : (civil limit).hasPlainYear) :
    chrono.toRfc3339 limit ≤ chrono.toRfc3339 now ↔ (civil now).year ≤ 9999 ∧ limit ≤ now := by
  rw [toRfc3339_le h]
  by_cases hnow : (civil now).hasPlainYear
  · rw [Civil.chars_lt_of_plain hnow hlimit, ← h.before_iff, not_lt]
    exact ⟨fun hle ↦ ⟨hnow.2, hle⟩, And.right⟩
  · refine iff_of_false (not_not.mpr (Civil.chars_lt_of_signed hnow hlimit)) ?_
    rintro ⟨hyear, hle⟩
    have hearly : (civil now).year < 0 := not_le.mp fun hpos ↦ hnow ⟨hpos, hyear⟩
    have hbefore := (h.before_iff now limit).mpr (.inl (hearly.trans_le hlimit.1))
    omega

theorem toRfc3339_le_of_late (hlimit : (civil limit).year = 10000) :
    chrono.toRfc3339 limit ≤ chrono.toRfc3339 now ↔ (civil now).year ≤ 9999 ∨ limit ≤ now := by
  rw [toRfc3339_le h]
  rcases lt_or_ge 9999 (civil now).year with hlate | hyear
  · rw [Civil.chars_lt_of_first_late hlate hlimit, ← h.before_iff, not_lt]
    exact ⟨.inr, fun hor ↦ hor.resolve_left (not_le.mpr hlate)⟩
  · refine iff_of_true (fun hlt ↦ ?_) (.inl hyear)
    have hsigned : ¬ (civil limit).hasPlainYear := fun hplain ↦ by
      have hle := hplain.2
      omega
    rcases lt_or_ge (civil now).year 0 with hearly | hpos
    · exact List.lt_asymm hlt (Civil.chars_lt_of_late (by omega) hearly)
    · exact List.lt_asymm hlt (Civil.chars_lt_of_signed hsigned ⟨hpos, hyear⟩)

theorem toRfc3339_le_of_early (hlimit : (civil limit).year = -1) :
    chrono.toRfc3339 limit ≤ chrono.toRfc3339 now ↔
      (civil now).year ≤ 9999 ∧ ¬ ((civil now).year = -1 ∧ now < limit) := by
  rw [toRfc3339_le h]
  rcases lt_or_ge (civil now).year 0 with hearly | hpos
  · rw [Civil.chars_lt_of_last_early hearly hlimit, h.before_iff]
    unfold Civil.Before
    rw [hlimit]
    have hyear : (civil now).year ≤ 9999 := by omega
    refine ⟨fun hnot ↦ ⟨hyear, ?_⟩, fun hnot hboth ↦ hnot.2 ⟨hboth.1, .inr hboth⟩⟩
    rintro ⟨heq, hless | hsame⟩
    · omega
    · exact hnot hsame
  · rcases lt_or_ge 9999 (civil now).year with hlate | hyear
    · refine iff_of_false (not_not.mpr (Civil.chars_lt_of_late hlate (by omega))) ?_
      rintro ⟨hle, -⟩
      omega
    · have hsigned : ¬ (civil limit).hasPlainYear := fun hplain ↦ by
        have hle := hplain.1
        omega
      refine iff_of_true (fun hlt ↦ ?_) ⟨hyear, fun hboth ↦ by omega⟩
      exact List.lt_asymm hlt (Civil.chars_lt_of_signed hsigned ⟨hpos, hyear⟩)

end Order

/-- The sweep selects a skill whenever its stored lease allows no offline use, and only then, just
when the lease has an end and the years do not set the two apart. -/
theorem sweep_agrees_iff (h : chrono.Documented civil) {before stored : LocalStore}
    {payload : EntitlementPayload} {appliedAt : Int} {row : LocalSkill}
    (hstored : applyEntitlement chrono before skillId payload appliedAt = .ok stored)
    (hlease : store.entitlements.get? skillId = stored.entitlements.get? skillId)
    (hrow : store.skill? skillId = some row) (hlabel : row.syncState.isExpirable = true) :
    (skillId ∈ dueEntitlements chrono store now ↔
        entitlementAllowsOfflineUse chrono (store.entitlements.get? skillId) now = false) ↔
      Comparable civil (payload.deadline? chrono) now := by
  have hget : store.entitlements.get? skillId = some (payload.record chrono skillId) := by
    obtain ⟨entitlements, hupsert, rfl⟩ := applyEntitlement_eq_ok hstored
    rw [hlease]
    exact (upsertEntitlement_spec hupsert skillId).trans (if_pos rfl)
  have hexpires : (payload.record chrono skillId).expiresAt =
      (payload.deadline? chrono).map chrono.toRfc3339 := rfl
  have hdue : skillId ∈ dueEntitlements chrono store now ↔
      ∃ limit ∈ payload.deadline? chrono, chrono.toRfc3339 limit ≤ chrono.toRfc3339 now := by
    rw [mem_dueEntitlements, hget, hrow]
    simp only [Option.some.injEq, exists_eq_left', Option.any_some, hlabel, and_true, hexpires,
      Option.mem_map, exists_exists_and_eq_and]
  rw [hdue, hget, entitlementAllowsOfflineUse, hexpires]
  cases hdeadline : payload.deadline? chrono with
  | none =>
    refine iff_of_false (fun hiff ↦ ?_) ?_
    · obtain ⟨limit, hlimit, -⟩ := hiff.mpr rfl
      cases hlimit
    · rintro ⟨limit, hlimit, -⟩
      cases hlimit
  | some limit =>
    obtain ⟨text, -, hok⟩ := Option.bind_eq_some_iff.mp hdeadline
    have hparse : chrono.parseFromRfc3339 text = .ok limit := by
      cases hresult : chrono.parseFromRfc3339 text with
      | error error =>
        rw [hresult] at hok
        cases hok
      | ok instant =>
        rw [hresult] at hok
        cases hok
        rfl
    simp only [Comparable, Option.mem_some_iff, exists_eq_left']
    dsimp only [Option.map_some]
    by_cases hplain : (civil limit).hasPlainYear
    · have hyears := hplain
      unfold Civil.hasPlainYear at hyears
      rw [h.parse_plain text limit hparse hplain, toRfc3339_le_of_plain h hplain]
      dsimp only
      have hyear : now < limit → (civil now).year ≤ (civil limit).year := by
        intro hlt
        rcases (h.before_iff now limit).mp hlt with hless | ⟨heq, -⟩
        · exact hless.le
        · exact heq.le
      rw [decide_eq_false_iff_not, not_lt]
      omega
    · obtain ⟨error, herror⟩ := h.parse_signed text limit hparse hplain
      obtain ⟨hlow, hhigh⟩ := h.year_mem text limit hparse
      rw [herror]
      dsimp only
      rw [iff_true_right rfl]
      rcases lt_or_ge 9999 (civil limit).year with hlate | hyear
      · rw [toRfc3339_le_of_late h (by omega)]
        omega
      · have hearly : (civil limit).year = -1 := by
          unfold Civil.hasPlainYear at hplain
          omega
        rw [toRfc3339_le_of_early h hearly]
        omega

/-! ## A lease without an end -/

section Sample

/-- The calendar of the first minute of 1970, with every minute in a year of its own. -/
def sampleCivil (instant : Int) : Civil where
  year := 1970 + instant / (60 * 10 ^ 9)
  month := 1
  day := 1
  hour := 0
  minute := 0
  second := (instant % (60 * 10 ^ 9) / 10 ^ 9).toNat
  nano := (instant % 10 ^ 9).toNat
  month_le := by decide
  day_le := by decide
  hour_le := by decide
  minute_le := by decide
  second_le := by omega
  nano_lt := by omega

/-- A time library that is asked to parse one text. -/
def sampleChrono : Chrono where
  parseFromRfc3339 text :=
    if text = "1970-01-01T00:00:10+00:00" then .ok (10 * 10 ^ 9)
    else .error "input contains invalid characters"
  toRfc3339 instant := (sampleCivil instant).text

theorem sampleChrono_documented : sampleChrono.Documented sampleCivil := by
  have hparse : ∀ text a, sampleChrono.parseFromRfc3339 text = .ok a → a = 10 * 10 ^ 9 := by
    intro text a h
    simp only [sampleChrono] at h
    split at h
    · exact (Except.ok.inj h).symm
    · cases h
  have hplain : (sampleCivil (10 * 10 ^ 9)).hasPlainYear := by decide
  refine ⟨fun a b ↦ ?_, fun a ↦ rfl, fun text a h ↦ ?_, fun text a h _ ↦ ?_, fun text a h hnot ↦ ?_⟩
  · simp only [Civil.Before, Civil.inYear, Prod.Lex.toLex_lt_toLex, sampleCivil, lt_irrefl,
      false_or, true_and]
    omega
  · rw [hparse text a h]
    decide
  · rw [hparse text a h]
    have htext : (sampleCivil (10 * 10 ^ 9)).text = "1970-01-01T00:00:10+00:00" := by
      decide +kernel
    simp only [sampleChrono, htext, if_true]
  · rw [hparse text a h] at hnot
    exact absurd hplain hnot

/-- A store with one mirror, which is up to date. -/
def mirrorStore : LocalStore where
  skills := (Table.empty.insert?
    { id := "srv-1", remoteId := some "srv-1", name := "Code Review", slug := "code-review"
      workspacePath := "/work/code-review", currentBlobHash := "sha256:first"
      remoteBlobHash := some "sha256:first", remoteRevision := some 1, syncState := .synced
      pinned := false }).getD .empty
  mutations := fresh.mutations
  entitlements := fresh.entitlements
  deployments := fresh.deployments
  syncState := fresh.syncState

def sampleLease (expiresAt : Option String) : EntitlementPayload where
  lease := "payload.signature"
  permissionLevel := "read"
  offlinePolicy := "unlimited"
  offlineTtlHours := none
  issuedAt := none
  expiresAt := expiresAt

def leasedStore (expiresAt : Option String) : LocalStore :=
  (applyEntitlement sampleChrono mirrorStore "srv-1" (sampleLease expiresAt) 0).toOption.getD
    mirrorStore

theorem applyEntitlement_sample {expiresAt : Option String}
    (h : (applyEntitlement sampleChrono mirrorStore "srv-1"
      (sampleLease expiresAt) 0).isOk = true) :
    applyEntitlement sampleChrono mirrorStore "srv-1" (sampleLease expiresAt) 0 =
      .ok (leasedStore expiresAt) := by
  unfold leasedStore
  cases hresult : applyEntitlement sampleChrono mirrorStore "srv-1" (sampleLease expiresAt) 0 with
  | error error =>
    rw [hresult] at h
    cases h
  | ok stored => rfl

/-- A lease without an end allows no offline use, and the sweep does not select its skill. -/
theorem endlessLease_notSwept :
    applyEntitlement sampleChrono mirrorStore "srv-1" (sampleLease none) 0 =
        .ok (leasedStore none) ∧
      ((leasedStore none).skill? "srv-1").any (fun row ↦ row.syncState.isExpirable) = true ∧
      ¬ ("srv-1" ∈ dueEntitlements sampleChrono (leasedStore none) (20 * 10 ^ 9) ↔
        entitlementAllowsOfflineUse sampleChrono ((leasedStore none).entitlements.get? "srv-1")
          (20 * 10 ^ 9) = false) :=
  ⟨applyEntitlement_sample rfl, by decide, by decide⟩

/-- Of a lease with an end, the condition decides. -/
theorem sweep_agrees_iff_ended :
    ∃ row, (leasedStore (some "1970-01-01T00:00:10+00:00")).skill? "srv-1" = some row ∧
      (("srv-1" ∈ dueEntitlements sampleChrono (leasedStore (some "1970-01-01T00:00:10+00:00"))
          (20 * 10 ^ 9) ↔
        entitlementAllowsOfflineUse sampleChrono
          ((leasedStore (some "1970-01-01T00:00:10+00:00")).entitlements.get? "srv-1")
          (20 * 10 ^ 9) = false) ↔
      Comparable sampleCivil
        ((sampleLease (some "1970-01-01T00:00:10+00:00")).deadline? sampleChrono) (20 * 10 ^ 9)) :=
  ⟨_, rfl, sweep_agrees_iff sampleChrono_documented (applyEntitlement_sample rfl) rfl rfl rfl⟩

end Sample

end LocalStore

end SkillHive
