import Mathlib.Data.List.Basic
import Mathlib.Data.List.Nodup
import Mathlib.Tactic.Common
import SkillHive.Foundation.Transaction

/-!
# Trees of files

A directory lists its entries under distinct names. What such a tree is for is a map: `node?`
tells what stands at a path, every operation is described by what it does to that map, and the
files of a tree are the paths at which the map has a file. A walk visits the files one after the
other, so it is a loop over them, whatever order of names it follows.
-/

namespace SkillHive.Foundation

/-- A file with its content, or a directory. -/
inductive FileTree (ν κ : Type) where
  | file (content : κ)
  | dir (entries : List (ν × FileTree ν κ))

/-- The entries of a directory. -/
abbrev Directory (ν κ : Type) := List (ν × FileTree ν κ)

/-- What stands at a path. -/
inductive FileNode (κ : Type) where
  | file (content : κ)
  | directory
  deriving DecidableEq, Repr

variable {ν κ : Type}

mutual

/-- The files, each with its path below the tree. -/
def FileTree.files : FileTree ν κ → List (List ν × κ)
  | .file content => [([], content)]
  | .dir entries => Directory.files entries

def Directory.files : List (ν × FileTree ν κ) → List (List ν × κ)
  | [] => []
  | (name, tree) :: rest => tree.files.map (fun file ↦ (name :: file.1, file.2)) ++ Directory.files rest

end

mutual

/-- Every directory lists distinct names. -/
def FileTree.Distinct : FileTree ν κ → Prop
  | .file _ => True
  | .dir entries => Directory.Distinct entries

def Directory.Distinct : List (ν × FileTree ν κ) → Prop
  | [] => True
  | (name, tree) :: rest => name ∉ rest.map Prod.fst ∧ tree.Distinct ∧ Directory.Distinct rest

end

/-! ## Walks -/

section Walk

variable {σ ε : Type} (le : ν → ν → Bool) (visit : List ν → κ → σ → Except ε σ)

mutual

/-- Visit the files depth first, the entries of a directory in the order of their names. -/
def FileTree.walk : FileTree ν κ → List ν → σ → Except ε σ
  | .file content, path, s => visit path content s
  | .dir entries, path, s =>
    foldE (fun s (walk : ν × (List ν → σ → Except ε σ)) ↦ walk.2 (path ++ [walk.1]) s) s
      ((Directory.walks entries).mergeSort fun left right ↦ le left.1 right.1)

def Directory.walks : List (ν × FileTree ν κ) → List (ν × (List ν → σ → Except ε σ))
  | [] => []
  | (name, tree) :: rest => (name, tree.walk) :: Directory.walks rest

end

mutual

/-- The files in the order in which a walk visits them. -/
def FileTree.inOrder : FileTree ν κ → List (List ν × κ)
  | .file content => [([], content)]
  | .dir entries =>
    ((Directory.allInOrder entries).mergeSort fun left right ↦ le left.1 right.1).flatMap
      fun entry ↦ entry.2.map fun file ↦ (entry.1 :: file.1, file.2)

def Directory.allInOrder : List (ν × FileTree ν κ) → List (ν × List (List ν × κ))
  | [] => []
  | (name, tree) :: rest => (name, tree.inOrder) :: Directory.allInOrder rest

end

end Walk

/-! ## Files -/

namespace Directory

variable {entries : List (ν × FileTree ν κ)} {name : ν} {tree : FileTree ν κ}

theorem distinct_cons {rest : List (ν × FileTree ν κ)} :
    Directory.Distinct ((name, tree) :: rest) ↔
      name ∉ rest.map Prod.fst ∧ tree.Distinct ∧ Directory.Distinct rest := by
  rw [Directory.Distinct]

/-- Names are distinct, and so they are in every entry. -/
theorem distinct_iff :
    Directory.Distinct entries ↔
      (entries.map Prod.fst).Nodup ∧ ∀ entry ∈ entries, entry.2.Distinct := by
  induction entries with
  | nil => simp [Directory.Distinct]
  | cons entry rest ih =>
    obtain ⟨name, tree⟩ := entry
    rw [distinct_cons, ih, List.map_cons, List.nodup_cons]
    simp only [List.forall_mem_cons]
    tauto

theorem files_eq_flatMap :
    Directory.files entries = entries.flatMap fun entry ↦
      entry.2.files.map fun file ↦ (entry.1 :: file.1, file.2) := by
  induction entries with
  | nil => rw [Directory.files, List.flatMap_nil]
  | cons entry rest ih =>
    obtain ⟨name, tree⟩ := entry
    rw [Directory.files, ih, List.flatMap_cons]

end Directory

mutual

theorem FileTree.files_nodup : ∀ {tree : FileTree ν κ}, tree.Distinct →
    (tree.files.map Prod.fst).Nodup
  | .file content, _ => by
    rw [FileTree.files]
    exact List.nodup_singleton _
  | .dir entries, h => by
    rw [FileTree.Distinct] at h
    rw [FileTree.files]
    exact Directory.files_nodup h

/-- No path has two files. -/
theorem Directory.files_nodup : ∀ {entries : List (ν × FileTree ν κ)},
    Directory.Distinct entries → ((Directory.files entries).map Prod.fst).Nodup
  | [], _ => by
    rw [Directory.files]
    exact List.nodup_nil
  | (name, tree) :: rest, h => by
    obtain ⟨hnew, htree, hrest⟩ := Directory.distinct_cons.mp h
    rw [Directory.files, List.map_append, List.map_map]
    refine List.Nodup.append ?_ (Directory.files_nodup hrest) ?_
    · have hcons : (tree.files.map (Prod.fst ∘ fun file ↦ (name :: file.1, file.2))) =
          (tree.files.map Prod.fst).map (name :: ·) := by simp
      rw [hcons]
      exact (FileTree.files_nodup htree).map (List.cons_injective)
    · intro path hfirst hsecond
      obtain ⟨file, -, rfl⟩ := List.mem_map.mp hfirst
      obtain ⟨file', hfile', heq⟩ := List.mem_map.mp hsecond
      rw [Directory.files_eq_flatMap, List.mem_flatMap] at hfile'
      obtain ⟨entry, hentry, hfile'⟩ := hfile'
      obtain ⟨file'', -, rfl⟩ := List.mem_map.mp hfile'
      have hname : entry.1 = name := (List.cons.inj heq).1
      exact hnew (hname ▸ List.mem_map_of_mem hentry)

end

/-! ## Walks are loops -/

section Loop

variable {σ ε : Type} {le : ν → ν → Bool} {visit : List ν → κ → σ → Except ε σ}

mutual

/-- A walk is a loop over the files. -/
theorem FileTree.walk_eq_foldE : ∀ (tree : FileTree ν κ) (path : List ν) (s : σ),
    tree.walk le visit path s =
      foldE (fun s file ↦ visit (path ++ file.1) file.2 s) s (tree.inOrder le)
  | .file content, path, s => by
    rw [FileTree.walk, FileTree.inOrder, foldE, List.append_nil]
    cases visit path content s <;> rfl
  | .dir entries, path, s => by
    rw [FileTree.walk, FileTree.inOrder, Directory.walks_eq_map entries, ← List.map_mergeSort,
      foldE_map, foldE_flatMap]
    · congr 1
      funext s entry
      rw [foldE_map]
      simp only [List.append_assoc, List.singleton_append]
    · exact fun _ _ _ _ ↦ rfl

theorem Directory.walks_eq_map : ∀ entries : List (ν × FileTree ν κ),
    Directory.walks le visit entries = (Directory.allInOrder le entries).map fun entry ↦
      (entry.1, fun path s ↦ foldE (fun s file ↦ visit (path ++ file.1) file.2 s) s entry.2)
  | [] => by rw [Directory.walks, Directory.allInOrder, List.map_nil]
  | (name, tree) :: rest => by
    rw [Directory.walks, Directory.allInOrder, List.map_cons, Directory.walks_eq_map rest]
    congr 2
    funext path s
    exact FileTree.walk_eq_foldE tree path s

end

mutual

theorem FileTree.inOrder_perm : ∀ tree : FileTree ν κ, (tree.inOrder le).Perm tree.files
  | .file content => by rw [FileTree.inOrder, FileTree.files]
  | .dir entries => by
    rw [FileTree.inOrder, FileTree.files]
    refine ((List.mergeSort_perm _ _).flatMap_right _).trans ?_
    exact Directory.allInOrder_perm entries

/-- Every file is visited once. -/
theorem Directory.allInOrder_perm : ∀ entries : List (ν × FileTree ν κ),
    ((Directory.allInOrder le entries).flatMap fun entry ↦
      entry.2.map fun file ↦ (entry.1 :: file.1, file.2)).Perm (Directory.files entries)
  | [] => by rw [Directory.allInOrder, Directory.files, List.flatMap_nil]
  | (name, tree) :: rest => by
    rw [Directory.allInOrder, Directory.files, List.flatMap_cons]
    exact ((FileTree.inOrder_perm tree).map _).append (Directory.allInOrder_perm rest)

end

end Loop

/-! ## Lookup -/

variable [DecidableEq ν]

/-- What stands at a path below a directory. -/
def Directory.node? : List (ν × FileTree ν κ) → List ν → Option (FileNode κ)
  | _, [] => some .directory
  | entries, name :: rest =>
    match entries.lookup name with
    | none => none
    | some (.file content) => if rest = [] then some (.file content) else none
    | some (.dir sub) => Directory.node? sub rest

/-- The directory with another entry under the name. -/
def Directory.set : List (ν × FileTree ν κ) → ν → FileTree ν κ → List (ν × FileTree ν κ)
  | [], name, tree => [(name, tree)]
  | (name', tree') :: rest, name, tree =>
    if name' = name then (name, tree) :: rest else (name', tree') :: Directory.set rest name tree

/-- What stands at a path when the tree is put at its start. -/
def FileTree.node? (tree : FileTree ν κ) (path : List ν) : Option (FileNode κ) :=
  match tree with
  | .file content => if path = [] then some (.file content) else none
  | .dir entries => Directory.node? entries path

/-- Put a tree at a path; `none` where the parent is no directory. -/
def Directory.putAt (tree : FileTree ν κ) :
    List (ν × FileTree ν κ) → List ν → Option (List (ν × FileTree ν κ))
  | _, [] => none
  | entries, [name] => some (Directory.set entries name tree)
  | entries, name :: next :: rest =>
    match entries.lookup name with
    | some (.dir sub) =>
      (Directory.putAt tree sub (next :: rest)).map fun sub ↦ Directory.set entries name (.dir sub)
    | _ => none

/-- Make the directories on the way to a path that are not there yet. The error is the path at
which a file stands. -/
def Directory.makeDirs :
    List (ν × FileTree ν κ) → List ν → List ν → Except (List ν) (List (ν × FileTree ν κ))
  | entries, _, [] => .ok entries
  | entries, current, name :: rest =>
    match Directory.node? entries (current ++ [name]) with
    | some .directory => Directory.makeDirs entries (current ++ [name]) rest
    | some (.file _) => .error (current ++ [name])
    | none =>
      match Directory.putAt (.dir []) entries (current ++ [name]) with
      | none => .error (current ++ [name])
      | some entries => Directory.makeDirs entries (current ++ [name]) rest

namespace Directory

/-! ## Entries -/

section Entries

variable {entries : List (ν × FileTree ν κ)} {name : ν} {tree : FileTree ν κ}

theorem lookup_eq_some_of_mem (h : Directory.Distinct entries) (hmem : (name, tree) ∈ entries) :
    entries.lookup name = some tree := by
  induction entries with
  | nil => cases hmem
  | cons entry rest ih =>
    obtain ⟨name', tree'⟩ := entry
    obtain ⟨hnew, -, hrest⟩ := distinct_cons.mp h
    rw [List.lookup_cons]
    rcases List.mem_cons.mp hmem with heq | hmem
    · cases heq
      simp
    · have hne : name ≠ name' := fun heq ↦ hnew (heq ▸ List.mem_map_of_mem hmem)
      rw [beq_false_of_ne hne]
      exact ih hrest hmem

theorem mem_of_lookup (h : entries.lookup name = some tree) : (name, tree) ∈ entries := by
  obtain ⟨before, after, rfl, -⟩ := List.lookup_eq_some_iff.mp h
  exact List.mem_append_right _ List.mem_cons_self

theorem lookup_eq_some_iff (h : Directory.Distinct entries) :
    entries.lookup name = some tree ↔ (name, tree) ∈ entries :=
  ⟨mem_of_lookup, lookup_eq_some_of_mem h⟩

theorem Distinct.entry (h : Directory.Distinct entries) (hlookup : entries.lookup name = some tree) :
    tree.Distinct :=
  (distinct_iff.mp h).2 _ (mem_of_lookup hlookup)

theorem Distinct.sub {sub : List (ν × FileTree ν κ)} (h : Directory.Distinct entries)
    (hlookup : entries.lookup name = some (.dir sub)) : Directory.Distinct sub := by
  have htree := Distinct.entry h hlookup
  rwa [FileTree.Distinct] at htree

/-! ### Another entry -/

theorem lookup_set (name' : ν) :
    (Directory.set entries name tree).lookup name' =
      if name' = name then some tree else entries.lookup name' := by
  induction entries with
  | nil =>
    rw [Directory.set, List.lookup_cons]
    by_cases h : name' = name
    · simp [h]
    · rw [beq_false_of_ne h, if_neg h]
  | cons entry rest ih =>
    obtain ⟨other, tree'⟩ := entry
    rw [Directory.set]
    by_cases hother : other = name
    · subst hother
      rw [if_pos rfl]
      by_cases h : name' = other
      · simp [h]
      · rw [List.lookup_cons, List.lookup_cons, beq_false_of_ne h, if_neg h]
    · rw [if_neg hother, List.lookup_cons, ih, List.lookup_cons]
      by_cases h : name' = other
      · simp [h, hother]
      · rw [beq_false_of_ne h]

theorem mem_set {entry : ν × FileTree ν κ} (h : entry ∈ Directory.set entries name tree) :
    entry = (name, tree) ∨ entry ∈ entries := by
  induction entries with
  | nil => exact .inl (List.mem_singleton.mp h)
  | cons first rest ih =>
    rw [Directory.set] at h
    split at h
    · exact (List.mem_cons.mp h).imp id (List.mem_cons_of_mem _)
    · rcases List.mem_cons.mp h with rfl | h
      · exact .inr List.mem_cons_self
      · exact (ih h).imp id (List.mem_cons_of_mem _)

theorem Distinct.set (h : Directory.Distinct entries) (htree : tree.Distinct) :
    Directory.Distinct (Directory.set entries name tree) := by
  induction entries with
  | nil =>
    rw [Directory.set, distinct_cons]
    exact ⟨List.not_mem_nil, htree, by rw [Directory.Distinct]; trivial⟩
  | cons entry rest ih =>
    obtain ⟨other, tree'⟩ := entry
    obtain ⟨hnew, htree', hrest⟩ := distinct_cons.mp h
    rw [Directory.set]
    split
    next heq =>
      subst heq
      exact distinct_cons.mpr ⟨hnew, htree, hrest⟩
    next hne =>
      refine distinct_cons.mpr ⟨fun hmem ↦ ?_, htree', ih hrest⟩
      obtain ⟨entry, hentry, rfl⟩ := List.mem_map.mp hmem
      rcases mem_set hentry with rfl | hentry
      · exact hne rfl
      · exact hnew (List.mem_map_of_mem hentry)

end Entries

/-! ## The map of a directory -/

section Map

variable {entries entries' : List (ν × FileTree ν κ)} {path : List ν} {content : κ}

@[simp]
theorem node?_nil_path : Directory.node? entries [] = some .directory := by
  rw [Directory.node?]

theorem node?_cons (name : ν) (rest : List ν) :
    Directory.node? entries (name :: rest) =
      (entries.lookup name).bind fun tree ↦ tree.node? rest := by
  rw [Directory.node?]
  cases h : entries.lookup name with
  | none => rfl
  | some tree => cases tree <;> rfl

theorem node?_append {front rest : List ν} (h : rest ≠ []) :
    Directory.node? entries (front ++ rest) ≠ none →
      Directory.node? entries front = some .directory := by
  induction front generalizing entries with
  | nil => exact fun _ ↦ node?_nil_path
  | cons name front ih =>
    rw [List.cons_append, node?_cons, node?_cons]
    cases entries.lookup name with
    | none => exact fun h ↦ absurd rfl h
    | some tree =>
      cases tree with
      | file content => simp [FileTree.node?, h]
      | dir sub => exact ih

/-- The files of a directory are the paths at which the map has a file. -/
theorem mem_files_iff (h : Directory.Distinct entries) :
    (path, content) ∈ Directory.files entries ↔
      Directory.node? entries path = some (.file content) := by
  induction path generalizing entries with
  | nil => simp [files_eq_flatMap]
  | cons name rest ih =>
    have hmem : (name :: rest, content) ∈ Directory.files entries ↔
        ∃ tree, entries.lookup name = some tree ∧ (rest, content) ∈ tree.files := by
      rw [files_eq_flatMap, List.mem_flatMap]
      constructor
      · rintro ⟨⟨name', tree⟩, hentry, hfile⟩
        obtain ⟨⟨rest', content'⟩, hbelow, heq⟩ := List.mem_map.mp hfile
        cases heq
        exact ⟨tree, lookup_eq_some_of_mem h hentry, hbelow⟩
      · rintro ⟨tree, hlookup, hfile⟩
        exact ⟨(name, tree), mem_of_lookup hlookup, List.mem_map.mpr ⟨_, hfile, rfl⟩⟩
    rw [hmem, node?_cons, Option.bind_eq_some_iff]
    refine exists_congr fun tree ↦ and_congr_right fun hlookup ↦ ?_
    cases tree with
    | file content' =>
      rw [FileTree.files, FileTree.node?]
      cases rest <;> simp [eq_comm]
    | dir sub =>
      rw [FileTree.files, FileTree.node?]
      exact ih (Distinct.sub h hlookup)

/-! ### Putting a tree at a path -/

theorem Distinct.putAt {tree : FileTree ν κ} (h : Directory.Distinct entries) (htree : tree.Distinct)
    (hput : Directory.putAt tree entries path = some entries') : Directory.Distinct entries' := by
  induction path generalizing entries entries' with
  | nil => cases hput
  | cons name rest ih =>
    cases rest with
    | nil =>
      cases hput
      exact Distinct.set h htree
    | cons next rest =>
      rw [Directory.putAt] at hput
      split at hput
      next sub hlookup =>
        obtain ⟨sub', hsub', rfl⟩ := Option.map_eq_some_iff.mp hput
        refine Distinct.set h ?_
        rw [FileTree.Distinct]
        exact ih (Distinct.sub h hlookup) hsub'
      next => cases hput

/-- A tree can be put wherever the parent is a directory. -/
theorem putAt_isSome_iff {tree : FileTree ν κ} {parent : List ν} {name : ν} :
    (Directory.putAt tree entries (parent ++ [name])).isSome ↔
      Directory.node? entries parent = some .directory := by
  induction parent generalizing entries with
  | nil => simp [Directory.putAt]
  | cons first parent ih =>
    obtain ⟨next, rest, hrest⟩ : ∃ next rest, parent ++ [name] = next :: rest := by
      cases parent <;> simp
    rw [List.cons_append, hrest, Directory.putAt, node?_cons, ← hrest]
    cases entries.lookup first with
    | none => simp
    | some tree' =>
      cases tree' with
      | file content =>
        simp only [Option.isSome_none, Bool.false_eq_true, Option.bind_some, FileTree.node?, false_iff]
        split <;> simp
      | dir sub => simpa [FileTree.node?] using ih

/-- The map changes at the path and below it only. -/
theorem node?_putAt {tree : FileTree ν κ} (hput : Directory.putAt tree entries path = some entries')
    (query : List ν) :
    Directory.node? entries' query =
      if path <+: query then tree.node? (query.drop path.length) else
        Directory.node? entries query := by
  induction path generalizing entries entries' query with
  | nil => cases hput
  | cons name rest ih =>
    cases query with
    | nil => simp
    | cons name' query =>
      cases rest with
      | nil =>
        cases hput
        rw [node?_cons, lookup_set, node?_cons]
        by_cases hname : name' = name
        · simp [hname]
        · rw [if_neg hname, if_neg fun h ↦ hname (List.cons_prefix_cons.mp h).1.symm]
      | cons next rest =>
        rw [Directory.putAt] at hput
        split at hput
        next sub hlookup =>
          obtain ⟨sub', hsub', rfl⟩ := Option.map_eq_some_iff.mp hput
          rw [node?_cons, lookup_set, node?_cons]
          by_cases hname : name' = name
          · subst hname
            rw [if_pos rfl, hlookup, Option.bind_some, Option.bind_some, FileTree.node?,
              FileTree.node?, ih hsub']
            simp [List.cons_prefix_cons]
          · rw [if_neg hname, if_neg fun h ↦ hname (List.cons_prefix_cons.mp h).1.symm]
        next => cases hput

/-- A file that is put where no directory is changes the map there only. -/
theorem node?_putAt_file (hput : Directory.putAt (.file content) entries path = some entries')
    (hfree : Directory.node? entries path ≠ some .directory) (query : List ν) :
    Directory.node? entries' query =
      if query = path then some (.file content) else Directory.node? entries query := by
  rw [node?_putAt hput]
  by_cases hquery : query = path
  · subst hquery
    simp [FileTree.node?]
  · rw [if_neg hquery]
    split
    case isFalse => rfl
    case isTrue hinitial =>
      obtain ⟨rest, rfl⟩ := hinitial
      have hrest : rest ≠ [] := fun heq ↦ hquery (by rw [heq, List.append_nil])
      have hnone : Directory.node? entries (path ++ rest) = none := by
        by_contra hsome
        exact hfree (node?_append hrest hsome)
      simp [FileTree.node?, hrest, hnone]

/-- A new directory changes the map at its path only. -/
theorem node?_putAt_dir (hput : Directory.putAt (.dir []) entries path = some entries')
    (hfree : Directory.node? entries path = none) (query : List ν) :
    Directory.node? entries' query =
      if query = path then some .directory else Directory.node? entries query := by
  rw [node?_putAt hput]
  by_cases hquery : query = path
  · subst hquery
    simp [FileTree.node?]
  · rw [if_neg hquery]
    split
    case isFalse => rfl
    case isTrue hinitial =>
      obtain ⟨rest, rfl⟩ := hinitial
      have hrest : rest ≠ [] := fun heq ↦ hquery (by rw [heq, List.append_nil])
      have hnone : Directory.node? entries (path ++ rest) = none := by
        by_contra hsome
        have hdir := node?_append hrest hsome
        rw [hfree] at hdir
        cases hdir
      obtain ⟨name, rest, rfl⟩ := List.exists_cons_of_ne_nil hrest
      rw [hnone, List.drop_left, FileTree.node?, node?_cons]
      rfl

/-! ### Making directories -/

variable {current : List ν}

theorem node?_of_isPrefix {front : List ν} (h : Directory.node? entries path = some .directory)
    (hfront : front <+: path) : Directory.node? entries front = some .directory := by
  obtain ⟨rest, rfl⟩ := hfront
  by_cases hrest : rest = []
  · rwa [hrest, List.append_nil] at h
  · exact node?_append hrest (by rw [h]; exact Option.some_ne_none _)

theorem Distinct.makeDirs (h : Directory.Distinct entries)
    (hmake : Directory.makeDirs entries current path = .ok entries') :
    Directory.Distinct entries' := by
  induction path generalizing entries current with
  | nil =>
    cases hmake
    exact h
  | cons name rest ih =>
    rw [Directory.makeDirs] at hmake
    split at hmake
    · exact ih h hmake
    · cases hmake
    · split at hmake
      · cases hmake
      next entries₁ hput =>
        have hempty : FileTree.Distinct (.dir [] : FileTree ν κ) := by
          rw [FileTree.Distinct, Directory.Distinct]
          trivial
        exact ih (Distinct.putAt h hempty hput) hmake

/-- Only the missing directories on the way are new. -/
theorem node?_makeDirs (hstart : Directory.node? entries current = some .directory)
    (h : Directory.makeDirs entries current path = .ok entries') (query : List ν) :
    Directory.node? entries' query =
      if query <+: current ++ path then some .directory else Directory.node? entries query := by
  induction path generalizing entries current with
  | nil =>
    cases h
    split
    case isFalse => rfl
    case isTrue hinitial =>
      rw [List.append_nil] at hinitial
      exact node?_of_isPrefix hstart hinitial
  | cons name rest ih =>
    have hpath : current ++ name :: rest = current ++ [name] ++ rest := by simp
    rw [Directory.makeDirs] at h
    rw [hpath]
    split at h
    next hdir => exact ih hdir h
    next => cases h
    next hnone =>
      split at h
      · cases h
      next entries₁ hput =>
        have hmap := node?_putAt_dir hput hnone
        rw [ih (by rw [hmap, if_pos rfl]) h]
        split
        case isTrue => rfl
        case isFalse hother =>
          rw [hmap, if_neg]
          rintro rfl
          exact hother (List.prefix_append _ _)

/-- The directories can be made unless a file stands on the way. -/
theorem makeDirs_isOk_iff (hstart : Directory.node? entries current = some .directory) :
    (∃ entries', Directory.makeDirs entries current path = .ok entries') ↔
      ∀ front, front <+: current ++ path → ∀ content, Directory.node? entries front ≠
        some (.file content) := by
  induction path generalizing entries current with
  | nil =>
    refine iff_of_true ⟨entries, rfl⟩ fun front hfront content ↦ ?_
    rw [List.append_nil] at hfront
    rw [node?_of_isPrefix hstart hfront]
    exact nofun
  | cons name rest ih =>
    have hpath : current ++ name :: rest = current ++ [name] ++ rest := by simp
    rw [Directory.makeDirs, hpath]
    cases hnode : Directory.node? entries (current ++ [name]) with
    | some node =>
      cases node with
      | directory => exact ih hnode
      | file content =>
        refine iff_of_false (fun ⟨_, h⟩ ↦ nomatch h) fun hall ↦ ?_
        exact hall (current ++ [name]) (List.prefix_append _ _) content hnode
    | none =>
      have hparent : (Directory.putAt (.dir []) entries (current ++ [name])).isSome :=
        putAt_isSome_iff.mpr hstart
      obtain ⟨entries₁, hput⟩ := Option.isSome_iff_exists.mp hparent
      have hmap := node?_putAt_dir hput hnode
      rw [hput]
      dsimp only
      rw [ih (by rw [hmap, if_pos rfl])]
      refine forall_congr' fun front ↦ imp_congr_right fun _ ↦ forall_congr' fun content ↦ ?_
      rw [hmap]
      split
      next heq =>
        subst heq
        simp [hnode]
      next => rfl

/-! ### Trees of a list of files -/

/-- The directory has these files, and no directories but those on the way to them. -/
structure IsTreeOf (files : List (List ν × κ)) (entries : List (ν × FileTree ν κ)) : Prop where
  distinct : Directory.Distinct entries
  file_iff : ∀ path content,
    Directory.node? entries path = some (.file content) ↔ (path, content) ∈ files
  directory : ∀ path, Directory.node? entries path = some .directory →
    path = [] ∨ ∃ file ∈ files, path <+: file.1

theorem isTreeOf_nil : IsTreeOf ([] : List (List ν × κ)) [] where
  distinct := by
    rw [Directory.Distinct]
    trivial
  file_iff path content := by cases path <;> simp [Directory.node?]
  directory path h := by
    cases path with
    | nil => exact .inl rfl
    | cons name rest => simp [Directory.node?] at h

variable {files : List (List ν × κ)} {parent : List ν} {name : ν}

/-- The directories on the way to a path do not reach the path. -/
theorem node?_makeDirs_parent {entries₁ : List (ν × FileTree ν κ)}
    (hmake : Directory.makeDirs entries [] parent = .ok entries₁) :
    Directory.node? entries₁ (parent ++ [name]) = Directory.node? entries (parent ++ [name]) := by
  have hself : ¬ parent ++ [name] <+: [] ++ parent := fun hinitial ↦ by
    have hlength := hinitial.length_le
    simp only [List.nil_append, List.length_append, List.length_singleton] at hlength
    omega
  exact (node?_makeDirs node?_nil_path hmake _).trans (if_neg hself)

variable (content) in
/-- A file can be created where no other is on the way, and none is below. -/
theorem IsTreeOf.create_iff (h : IsTreeOf files entries) :
    (∃ entries₁ entries₂, Directory.makeDirs entries [] parent = .ok entries₁ ∧
      Directory.node? entries₁ (parent ++ [name]) = none ∧
      Directory.putAt (.file content) entries₁ (parent ++ [name]) = some entries₂) ↔
        ∀ file ∈ files, ¬ file.1 <+: parent ++ [name] ∧ ¬ parent ++ [name] <+: file.1 := by
  have hroot : Directory.node? entries [] = some .directory := node?_nil_path
  constructor
  · rintro ⟨entries₁, entries₂, hmake, hfree, -⟩ ⟨path, content'⟩ hfile
    rw [node?_makeDirs_parent hmake] at hfree
    have hnode := (h.file_iff path content').mpr hfile
    constructor
    · intro hinitial
      rcases List.prefix_concat_iff.mp hinitial with heq | hfront
      · rw [← heq, hnode] at hfree
        cases hfree
      · exact (makeDirs_isOk_iff hroot).mp ⟨_, hmake⟩ path hfront content' hnode
    · rintro ⟨rest, heq⟩
      dsimp only at heq
      rw [← heq] at hnode
      by_cases hrest : rest = []
      · rw [hrest, List.append_nil, hfree] at hnode
        cases hnode
      · have hdir := node?_append hrest (by rw [hnode]; exact Option.some_ne_none _)
        rw [hfree] at hdir
        cases hdir
  · intro hapart
    have hmake : ∃ entries₁, Directory.makeDirs entries [] parent = .ok entries₁ := by
      refine (makeDirs_isOk_iff hroot).mpr fun front hfront content' hnode ↦ ?_
      have hfile := (h.file_iff front content').mp hnode
      exact (hapart _ hfile).1 (hfront.trans (List.prefix_append _ _))
    obtain ⟨entries₁, hmake⟩ := hmake
    have hfree : Directory.node? entries₁ (parent ++ [name]) = none := by
      rw [node?_makeDirs_parent hmake]
      cases hnode : Directory.node? entries (parent ++ [name]) with
      | none => rfl
      | some node =>
        cases node with
        | file content' =>
          exact absurd (List.prefix_refl _) (hapart _ ((h.file_iff _ content').mp hnode)).1
        | directory =>
          rcases h.directory _ hnode with hnil | ⟨file, hfile, hinitial⟩
          · simp at hnil
          · exact absurd hinitial (hapart file hfile).2
    have hparent : Directory.node? entries₁ parent = some .directory :=
      (node?_makeDirs hroot hmake _).trans (if_pos (List.prefix_refl _))
    have hput : (Directory.putAt (.file content) entries₁ (parent ++ [name])).isSome :=
      putAt_isSome_iff.mpr hparent
    obtain ⟨entries₂, hput⟩ := Option.isSome_iff_exists.mp hput
    exact ⟨entries₁, entries₂, hmake, hfree, hput⟩

/-- The created file is one more. -/
theorem IsTreeOf.create {entries₁ entries₂ : List (ν × FileTree ν κ)} (h : IsTreeOf files entries)
    (hmake : Directory.makeDirs entries [] parent = .ok entries₁)
    (hfree : Directory.node? entries₁ (parent ++ [name]) = none)
    (hput : Directory.putAt (.file content) entries₁ (parent ++ [name]) = some entries₂) :
    IsTreeOf (files ++ [(parent ++ [name], content)]) entries₂ := by
  have hmade := node?_makeDirs node?_nil_path hmake
  have hmap := node?_putAt_file hput (by rw [hfree]; exact nofun)
  refine ⟨?_, fun path content' ↦ ?_, fun path hpath ↦ ?_⟩
  · refine Distinct.putAt (Distinct.makeDirs h.distinct hmake) ?_ hput
    rw [FileTree.Distinct]
    trivial
  · rw [hmap, List.mem_append, List.mem_singleton, Prod.mk.injEq]
    by_cases hnew : path = parent ++ [name]
    · subst hnew
      rw [if_pos rfl]
      have hold : (parent ++ [name], content') ∉ files := by
        intro hfile
        have hnode := (h.file_iff _ content').mpr hfile
        rw [← node?_makeDirs_parent hmake, hfree] at hnode
        cases hnode
      simp [hold, eq_comm]
    · rw [if_neg hnew, hmade]
      split
      case isTrue hinitial =>
        refine iff_of_false nofun ?_
        rintro (hfile | ⟨rfl, -⟩)
        · have hnode := (h.file_iff _ content').mpr hfile
          exact (makeDirs_isOk_iff node?_nil_path).mp ⟨_, hmake⟩ path hinitial content' hnode
        · exact hnew rfl
      case isFalse => simp [h.file_iff, hnew]
  · rw [hmap] at hpath
    split at hpath
    · cases hpath
    · rw [hmade] at hpath
      split at hpath
      case isTrue hinitial =>
        refine .inr ⟨_, List.mem_append_right _ (List.mem_singleton_self _), ?_⟩
        exact hinitial.trans (List.prefix_append _ _)
      case isFalse =>
        refine (h.directory path hpath).imp id fun ⟨file, hfile, hinitial⟩ ↦ ?_
        exact ⟨file, List.mem_append_left _ hfile, hinitial⟩

omit [DecidableEq ν] in
theorem files_nodup_of_distinct (h : Directory.Distinct entries) : (Directory.files entries).Nodup :=
  List.Nodup.of_map Prod.fst (Directory.files_nodup h)

theorem IsTreeOf.files_perm (h : IsTreeOf files entries) (hfiles : files.Nodup) :
    (Directory.files entries).Perm files := by
  refine (List.perm_ext_iff_of_nodup (files_nodup_of_distinct h.distinct) hfiles).mpr ?_
  rintro ⟨path, content⟩
  rw [mem_files_iff h.distinct, h.file_iff]

/-- No file is on the way to another one. -/
theorem eq_of_prefix {file file' : List ν × κ} (h : Directory.Distinct entries)
    (hfile : file ∈ Directory.files entries) (hfile' : file' ∈ Directory.files entries)
    (hinitial : file.1 <+: file'.1) : file = file' := by
  obtain ⟨path, content⟩ := file
  obtain ⟨path', content'⟩ := file'
  have hnode := (mem_files_iff h).mp hfile
  have hnode' := (mem_files_iff h).mp hfile'
  obtain ⟨rest, rfl⟩ := hinitial
  by_cases hrest : rest = []
  · subst hrest
    rw [List.append_nil, hnode] at hnode'
    cases hnode'
    rw [List.append_nil]
  · have hdir := node?_append hrest (by rw [hnode']; exact Option.some_ne_none _)
    rw [hnode] at hdir
    cases hdir

end Map

end Directory

end SkillHive.Foundation
