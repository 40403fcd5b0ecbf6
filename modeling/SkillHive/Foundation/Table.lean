import Mathlib.Data.List.Nodup
import Mathlib.Tactic.Common

/-!
# Keyed tables

A table is a finite sequence of rows in which no two rows have the same primary key.
The key discipline is a field of the structure, so every operation below has to say why
it keeps keys distinct, and a lookup by key has at most one answer. Row order is kept:
an insert appends, an update happens in place.

The module says nothing about columns other than the key. Further constraints (a second
unique column, a foreign key) are facts about particular stores.
-/

namespace SkillHive.Foundation

/-- Rows with pairwise distinct primary keys. -/
@[ext]
structure Table (ρ : Type*) {κ : Type*} (key : ρ → κ) where
  rows : List ρ
  nodup_keys : (rows.map key).Nodup

namespace Table

variable {ρ κ : Type*} {key : ρ → κ}

instance : Membership ρ (Table ρ key) := ⟨fun t r ↦ r ∈ t.rows⟩

theorem mem_iff_mem_rows {t : Table ρ key} {r : ρ} : r ∈ t ↔ r ∈ t.rows := Iff.rfl

/-- The key determines the row. -/
theorem eq_of_key_eq {t : Table ρ key} {r r' : ρ} (hr : r ∈ t) (hr' : r' ∈ t)
    (hkey : key r = key r') : r = r' :=
  List.inj_on_of_nodup_map t.nodup_keys hr hr' hkey

/-- The table without rows. -/
def empty : Table ρ key := ⟨[], List.nodup_nil⟩

@[simp]
theorem rows_empty : (empty : Table ρ key).rows = [] := rfl

@[simp]
theorem not_mem_empty (r : ρ) : r ∉ (empty : Table ρ key) := List.not_mem_nil

/-! ## Lookup -/

section Lookup

variable [DecidableEq κ]

/-- `SELECT … WHERE key = k`. -/
def get? (t : Table ρ key) (k : κ) : Option ρ := t.rows.find? fun r ↦ key r = k

theorem get?_eq_some_iff {t : Table ρ key} {k : κ} {r : ρ} :
    t.get? k = some r ↔ r ∈ t ∧ key r = k := by
  constructor
  · intro h
    exact ⟨List.mem_of_find?_eq_some h, by simpa using List.find?_some h⟩
  · rintro ⟨hmem, rfl⟩
    have hsome : (t.get? (key r)).isSome := by
      simpa only [get?, List.find?_isSome] using ⟨r, hmem, by simp⟩
    obtain ⟨r', hr'⟩ := Option.isSome_iff_exists.mp hsome
    have hkey : key r' = key r := by simpa using List.find?_some hr'
    rw [hr', eq_of_key_eq (List.mem_of_find?_eq_some hr') hmem hkey]

theorem get?_eq_none_iff {t : Table ρ key} {k : κ} :
    t.get? k = none ↔ ∀ r ∈ t, key r ≠ k := by
  simp [get?, List.find?_eq_none, mem_iff_mem_rows]

theorem mem_of_get? {t : Table ρ key} {k : κ} {r : ρ} (h : t.get? k = some r) : r ∈ t :=
  (get?_eq_some_iff.mp h).1

theorem key_of_get? {t : Table ρ key} {k : κ} {r : ρ} (h : t.get? k = some r) : key r = k :=
  (get?_eq_some_iff.mp h).2

theorem get?_of_mem {t : Table ρ key} {r : ρ} (h : r ∈ t) : t.get? (key r) = some r :=
  get?_eq_some_iff.mpr ⟨h, rfl⟩

@[simp]
theorem get?_empty (k : κ) : (empty : Table ρ key).get? k = none := rfl

end Lookup

/-! ## Insert -/

section Insert

variable [DecidableEq κ]

/-- `INSERT`: refused when the primary key is taken. -/
def insert? (t : Table ρ key) (r : ρ) : Option (Table ρ key) :=
  if h : key r ∈ t.rows.map key then none
  else some ⟨t.rows ++ [r], by
    simpa only [List.map_append, List.map_cons, List.map_nil] using
      List.Nodup.append t.nodup_keys (List.nodup_singleton _)
        (by simpa only [List.disjoint_singleton] using h)⟩

theorem insert?_rows {t t' : Table ρ key} {r : ρ} (h : t.insert? r = some t') :
    t'.rows = t.rows ++ [r] := by
  unfold insert? at h
  split at h
  · cases h
  · cases h
    rfl

theorem get?_eq_none_of_insert? {t t' : Table ρ key} {r : ρ} (h : t.insert? r = some t') :
    t.get? (key r) = none := by
  unfold insert? at h
  split at h
  · cases h
  case isFalse hfree =>
    refine get?_eq_none_iff.mpr fun r' hr' heq ↦ hfree ?_
    exact heq ▸ List.mem_map_of_mem hr'

theorem insert?_isSome {t : Table ρ key} {r : ρ} (h : t.get? (key r) = none) :
    ∃ t', t.insert? r = some t' := by
  have hfree : key r ∉ t.rows.map key := by
    intro hmem
    obtain ⟨r', hr', heq⟩ := List.mem_map.mp hmem
    exact get?_eq_none_iff.mp h r' hr' heq
  unfold insert?
  rw [dif_neg hfree]
  exact ⟨_, rfl⟩

theorem mem_insert? {t t' : Table ρ key} {r r' : ρ} (h : t.insert? r = some t') :
    r' ∈ t' ↔ r' ∈ t ∨ r' = r := by
  simp [mem_iff_mem_rows, insert?_rows h]

theorem get?_insert? {t t' : Table ρ key} {r : ρ} (h : t.insert? r = some t') (k : κ) :
    t'.get? k = if k = key r then some r else t.get? k := by
  split
  case isTrue heq =>
    exact get?_eq_some_iff.mpr ⟨(mem_insert? h).mpr (Or.inr rfl), heq.symm⟩
  case isFalse hne =>
    have hrows := insert?_rows h
    have hlast : ¬ key r = k := fun heq ↦ hne heq.symm
    simp [get?, hrows, List.find?_append, hlast]

end Insert

/-! ## Append -/

section Append

/-- `INSERT` of a row whose primary key the database draws fresh. -/
def append (t : Table ρ key) (r : ρ) (hfresh : ∀ r' ∈ t, key r' ≠ key r) : Table ρ key :=
  ⟨t.rows ++ [r], by
    have hnotMem : key r ∉ t.rows.map key := by
      intro hmem
      obtain ⟨r', hr', heq⟩ := List.mem_map.mp hmem
      exact hfresh r' hr' heq
    simpa only [List.map_append, List.map_cons, List.map_nil] using
      List.Nodup.append t.nodup_keys (List.nodup_singleton _)
        (by simpa only [List.disjoint_singleton] using hnotMem)⟩

@[simp]
theorem rows_append (t : Table ρ key) (r : ρ) (hfresh : ∀ r' ∈ t, key r' ≠ key r) :
    (t.append r hfresh).rows = t.rows ++ [r] := rfl

theorem mem_append {t : Table ρ key} {r r' : ρ} {hfresh : ∀ r' ∈ t, key r' ≠ key r} :
    r' ∈ t.append r hfresh ↔ r' ∈ t ∨ r' = r := by
  simp [mem_iff_mem_rows]

end Append

/-! ## Update -/

section Update

/-- `UPDATE … SET`: every row is rewritten in place and keeps its key. -/
def update (t : Table ρ key) (f : ρ → ρ) (hf : ∀ r, key (f r) = key r) : Table ρ key :=
  ⟨t.rows.map f, by
    have hmap : (t.rows.map f).map key = t.rows.map key := by
      simp [List.map_map, Function.comp_def, hf]
    exact hmap ▸ t.nodup_keys⟩

theorem mem_update {t : Table ρ key} {f : ρ → ρ} {hf : ∀ r, key (f r) = key r} {r : ρ} :
    r ∈ t.update f hf ↔ ∃ r₀ ∈ t, f r₀ = r := by
  simp [mem_iff_mem_rows, update]

theorem get?_update [DecidableEq κ] (t : Table ρ key) (f : ρ → ρ) {hf : ∀ r, key (f r) = key r}
    (k : κ) : (t.update f hf).get? k = (t.get? k).map f := by
  have hkey : ((fun r ↦ decide (key r = k)) ∘ f) = fun r ↦ decide (key r = k) :=
    funext fun r ↦ congrArg (fun key' ↦ decide (key' = k)) (hf r)
  rw [get?, get?, update, List.find?_map, hkey]

variable [DecidableEq κ]

/-- `UPDATE … SET … WHERE key = k`. -/
def modify (t : Table ρ key) (k : κ) (f : ρ → ρ)
    (hf : ∀ r, key (f r) = key r := by simp) : Table ρ key :=
  t.update (fun r ↦ if key r = k then f r else r) fun r ↦ by
    split
    · exact hf r
    · rfl

theorem get?_modify (t : Table ρ key) (k k' : κ) (f : ρ → ρ) {hf : ∀ r, key (f r) = key r} :
    (t.modify k f hf).get? k' = if k' = k then (t.get? k').map f else t.get? k' := by
  rw [modify, get?_update]
  cases hget : t.get? k' with
  | none => simp
  | some r =>
    have hkey := key_of_get? hget
    by_cases heq : k' = k <;> simp [hkey, heq]

theorem get?_modify_self (t : Table ρ key) (k : κ) (f : ρ → ρ)
    {hf : ∀ r, key (f r) = key r} : (t.modify k f hf).get? k = (t.get? k).map f := by
  simp [get?_modify]

theorem get?_modify_of_ne (t : Table ρ key) {k k' : κ} (f : ρ → ρ)
    {hf : ∀ r, key (f r) = key r} (hne : k' ≠ k) :
    (t.modify k f hf).get? k' = t.get? k' := by
  simp [get?_modify, hne]

theorem modify_eq_self {t : Table ρ key} {k : κ} {f : ρ → ρ} {hf : ∀ r, key (f r) = key r}
    (h : ∀ r, t.get? k = some r → f r = r) : t.modify k f hf = t := by
  apply Table.ext
  have hrow : ∀ r ∈ t.rows, (if key r = k then f r else r) = r := by
    intro r hr
    split
    case isTrue hk => exact h r (hk ▸ get?_of_mem hr)
    case isFalse => rfl
  exact (List.map_congr_left hrow).trans (List.map_id t.rows)

theorem mem_modify {t : Table ρ key} {k : κ} {f : ρ → ρ} {hf : ∀ r, key (f r) = key r} {r : ρ} :
    r ∈ t.modify k f hf ↔ (∃ r₀ ∈ t, key r₀ = k ∧ f r₀ = r) ∨ (r ∈ t ∧ key r ≠ k) := by
  simp only [modify, mem_update]
  constructor
  · rintro ⟨r₀, hr₀, rfl⟩
    by_cases hk : key r₀ = k
    · exact Or.inl ⟨r₀, hr₀, hk, by simp [hk]⟩
    · exact Or.inr ⟨by simpa [hk] using hr₀, by simp [hk]⟩
  · rintro (⟨r₀, hr₀, hk, rfl⟩ | ⟨hr, hk⟩)
    · exact ⟨r₀, hr₀, by simp [hk]⟩
    · exact ⟨r, hr, by simp [hk]⟩

/-- The one row that changes, between the rows that stay. -/
theorem exists_rows_modify {t : Table ρ key} {k : κ} {r : ρ} (hr : t.get? k = some r) (f : ρ → ρ)
    {hf : ∀ r, key (f r) = key r} :
    ∃ before after, t.rows = before ++ r :: after ∧
      (t.modify k f hf).rows = before ++ f r :: after := by
  obtain ⟨before, after, hrows⟩ := List.append_of_mem (mem_iff_mem_rows.mp (mem_of_get? hr))
  have hkey := key_of_get? hr
  have hnodup := t.nodup_keys
  rw [hrows, List.map_append, List.map_cons, List.nodup_middle, List.nodup_cons,
    ← List.map_append] at hnodup
  have hothers : ∀ others : List ρ, (∀ other ∈ others, other ∈ before ++ after) →
      others.map (fun r ↦ if key r = k then f r else r) = others := by
    intro others hsubset
    refine (List.map_congr_left fun other hother ↦ if_neg fun heq ↦ hnodup.1 ?_).trans
      (List.map_id others)
    exact (hkey.trans heq.symm) ▸ List.mem_map_of_mem (hsubset other hother)
  refine ⟨before, after, hrows, ?_⟩
  have hupdated : (t.modify k f hf).rows = t.rows.map fun r ↦ if key r = k then f r else r := rfl
  rw [hupdated, hrows, List.map_append, List.map_cons, if_pos hkey,
    hothers before fun other ↦ List.mem_append_left after,
    hothers after fun other hother ↦ List.mem_append_right before hother]

/-- `UPDATE` of the row that has the key of `r`: its columns become those of `r`. -/
def replace (t : Table ρ key) (r : ρ) : Table ρ key :=
  t.update (fun old ↦ if key old = key r then r else old) fun old ↦ by
    split
    case isTrue h => exact h.symm
    case isFalse => rfl

theorem get?_replace (t : Table ρ key) (r : ρ) (k : κ) :
    (t.replace r).get? k = if k = key r then (t.get? k).map fun _ ↦ r else t.get? k := by
  rw [replace, get?_update]
  cases hget : t.get? k with
  | none => simp
  | some old =>
    have hkey := key_of_get? hget
    by_cases heq : k = key r <;> simp [hkey, heq]

theorem mem_replace {t : Table ρ key} {r r' : ρ} (h : r' ∈ t.replace r) : r' ∈ t ∨ r' = r := by
  have hget := get?_of_mem h
  rw [get?_replace] at hget
  split at hget
  · obtain ⟨old, -, rfl⟩ := Option.map_eq_some_iff.mp hget
    exact .inr rfl
  · exact .inl (mem_of_get? hget)

/-- `INSERT … ON CONFLICT(key) DO UPDATE` with the columns of the new row. -/
def put (t : Table ρ key) (r : ρ) : Table ρ key :=
  match h : t.get? (key r) with
  | none => t.append r (get?_eq_none_iff.mp h)
  | some _ => t.replace r

theorem get?_put (t : Table ρ key) (r : ρ) (k : κ) :
    (t.put r).get? k = if k = key r then some r else t.get? k := by
  unfold put
  split
  case h_1 hnone =>
    split
    case isTrue heq => exact get?_eq_some_iff.mpr ⟨mem_append.mpr (.inr rfl), heq.symm⟩
    case isFalse hne =>
      have hlast : ¬ key r = k := fun heq ↦ hne heq.symm
      simp [get?, List.find?_append, hlast]
  case h_2 old hsome =>
    rw [get?_replace]
    split
    case isTrue heq => rw [heq, hsome, Option.map_some]
    case isFalse => rfl

theorem mem_put {t : Table ρ key} {r r' : ρ} :
    r' ∈ t.put r ↔ r' = r ∨ (r' ∈ t ∧ key r' ≠ key r) := by
  have hmem : ∀ {t : Table ρ key}, r' ∈ t ↔ t.get? (key r') = some r' :=
    ⟨get?_of_mem, mem_of_get?⟩
  rw [hmem, get?_put]
  split
  case isTrue heq => simp [heq, eq_comm]
  case isFalse hne =>
    have hother : r' ≠ r := fun heq ↦ hne (congrArg key heq)
    simp [hother, hne, ← hmem]

end Update

/-! ## Delete -/

section Delete

/-- `DELETE … WHERE NOT keep`. -/
def filter (t : Table ρ key) (keep : ρ → Bool) : Table ρ key :=
  ⟨t.rows.filter keep, t.nodup_keys.sublist (List.filter_sublist.map key)⟩

theorem mem_filter {t : Table ρ key} {keep : ρ → Bool} {r : ρ} :
    r ∈ t.filter keep ↔ r ∈ t ∧ keep r = true := by
  simp [mem_iff_mem_rows, filter]

variable [DecidableEq κ]

theorem get?_filter (t : Table ρ key) (keep : ρ → Bool) (k : κ) :
    (t.filter keep).get? k = (t.get? k).filter keep := by
  cases hget : t.get? k with
  | none =>
    refine get?_eq_none_iff.mpr fun r hr ↦ ?_
    exact get?_eq_none_iff.mp hget r (mem_filter.mp hr).1
  | some r =>
    by_cases hkeep : keep r = true
    · rw [Option.filter_some, if_pos hkeep]
      exact get?_eq_some_iff.mpr ⟨mem_filter.mpr ⟨mem_of_get? hget, hkeep⟩, key_of_get? hget⟩
    · rw [Option.filter_some, if_neg hkeep]
      refine get?_eq_none_iff.mpr fun r' hr' hkey ↦ hkeep ?_
      have heq : r' = r :=
        eq_of_key_eq (mem_filter.mp hr').1 (mem_of_get? hget) (hkey.trans (key_of_get? hget).symm)
      exact heq ▸ (mem_filter.mp hr').2

/-- `DELETE … WHERE key = k`. -/
def erase (t : Table ρ key) (k : κ) : Table ρ key := t.filter fun r ↦ key r ≠ k

theorem mem_erase {t : Table ρ key} {k : κ} {r : ρ} : r ∈ t.erase k ↔ r ∈ t ∧ key r ≠ k := by
  simp [erase, mem_filter]

theorem get?_erase (t : Table ρ key) (k k' : κ) :
    (t.erase k).get? k' = if k' = k then none else t.get? k' := by
  rw [erase, get?_filter]
  cases hget : t.get? k' with
  | none => simp
  | some r =>
    have hkey := key_of_get? hget
    by_cases heq : k' = k <;> simp [hkey, heq]

end Delete

/-! ## Lookups as functions -/

section FunctionUpdate

variable [DecidableEq κ]

theorem get?_insert?_eq_update {t t' : Table ρ key} {r : ρ} (h : t.insert? r = some t') :
    t'.get? = Function.update t.get? (key r) (some r) := by
  funext k
  rw [get?_insert? h, Function.update_apply]

theorem get?_replace_eq_update {t : Table ρ key} {r old : ρ} (h : t.get? (key r) = some old) :
    (t.replace r).get? = Function.update t.get? (key r) (some r) := by
  funext k
  rw [get?_replace, Function.update_apply]
  split
  case isTrue heq => rw [heq, h, Option.map_some]
  case isFalse => rfl

theorem get?_erase_eq_update (t : Table ρ key) (k : κ) :
    (t.erase k).get? = Function.update t.get? k none := by
  funext k'
  rw [get?_erase, Function.update_apply]

end FunctionUpdate

end Table

end SkillHive.Foundation
