import SkillHive.Foundation.FileTree

/-!
# Subtrees

What stands below a path is a tree of its own: the map of the whole, read from that path on. A
subtree can be listed, and it can be removed. The listing has every path below the directory once,
and a removal takes away the path and what is below it.
-/

namespace SkillHive.Foundation

variable {ν κ : Type}

mutual

/-- Everything that stands in the tree, each with its path below the tree. -/
def FileTree.nodes : FileTree ν κ → List (List ν × FileNode κ)
  | .file content => [([], .file content)]
  | .dir entries => ([], .directory) :: Directory.nodes entries

/-- Everything that stands below the directory. -/
def Directory.nodes : List (ν × FileTree ν κ) → List (List ν × FileNode κ)
  | [] => []
  | (name, tree) :: rest => tree.nodes.map (fun node ↦ (name :: node.1, node.2)) ++ Directory.nodes rest

end

/-! ## The listing -/

theorem Directory.nodes_eq_flatMap {entries : List (ν × FileTree ν κ)} :
    Directory.nodes entries = entries.flatMap fun entry ↦
      entry.2.nodes.map fun node ↦ (entry.1 :: node.1, node.2) := by
  induction entries with
  | nil => rw [Directory.nodes, List.flatMap_nil]
  | cons entry rest ih =>
    obtain ⟨name, tree⟩ := entry
    rw [Directory.nodes, ih, List.flatMap_cons]

theorem FileTree.nodes_nodup_aux {tree : FileTree ν κ} {name : ν}
    (h : (tree.nodes.map Prod.fst).Nodup) :
    ((tree.nodes.map fun node ↦ (name :: node.1, node.2)).map Prod.fst).Nodup := by
  have hcons : ((tree.nodes.map fun node ↦ (name :: node.1, node.2)).map Prod.fst) =
      (tree.nodes.map Prod.fst).map (name :: ·) := by simp
  rw [hcons]
  exact h.map List.cons_injective

mutual

theorem FileTree.nodes_nodup : ∀ {tree : FileTree ν κ}, tree.Distinct →
    (tree.nodes.map Prod.fst).Nodup
  | .file content, _ => by
    rw [FileTree.nodes]
    exact List.nodup_singleton _
  | .dir entries, h => by
    rw [FileTree.Distinct] at h
    rw [FileTree.nodes, List.map_cons, List.nodup_cons]
    refine ⟨fun hmem ↦ ?_, Directory.nodes_nodup h⟩
    obtain ⟨node, hnode, heq⟩ := List.mem_map.mp hmem
    rw [Directory.nodes_eq_flatMap, List.mem_flatMap] at hnode
    obtain ⟨entry, -, hnode⟩ := hnode
    obtain ⟨node', -, rfl⟩ := List.mem_map.mp hnode
    cases heq

/-- No path is listed twice. -/
theorem Directory.nodes_nodup : ∀ {entries : List (ν × FileTree ν κ)},
    Directory.Distinct entries → ((Directory.nodes entries).map Prod.fst).Nodup
  | [], _ => by
    rw [Directory.nodes]
    exact List.nodup_nil
  | (name, tree) :: rest, h => by
    obtain ⟨hnew, htree, hrest⟩ := Directory.distinct_cons.mp h
    rw [Directory.nodes, List.map_append]
    refine List.Nodup.append (FileTree.nodes_nodup_aux (FileTree.nodes_nodup htree))
      (Directory.nodes_nodup hrest) ?_
    intro path hfirst hsecond
    obtain ⟨_, hnode, rfl⟩ := List.mem_map.mp hfirst
    obtain ⟨node, -, rfl⟩ := List.mem_map.mp hnode
    obtain ⟨node', hnode', heq⟩ := List.mem_map.mp hsecond
    rw [Directory.nodes_eq_flatMap, List.mem_flatMap] at hnode'
    obtain ⟨entry, hentry, hnode'⟩ := hnode'
    obtain ⟨node'', -, rfl⟩ := List.mem_map.mp hnode'
    have hname : entry.1 = name := (List.cons.inj heq).1
    exact hnew (hname ▸ List.mem_map_of_mem hentry)

end

/-! ## Lookup -/

variable [DecidableEq ν]

/-- The tree at a path below a directory. -/
def Directory.tree? : List (ν × FileTree ν κ) → List ν → Option (FileTree ν κ)
  | entries, [] => some (.dir entries)
  | entries, name :: rest =>
    match entries.lookup name with
    | none => none
    | some (.file content) => if rest = [] then some (.file content) else none
    | some (.dir sub) => Directory.tree? sub rest

/-- The directory without the entry under the name. -/
def Directory.erase (entries : List (ν × FileTree ν κ)) (name : ν) : List (ν × FileTree ν κ) :=
  entries.filter fun entry ↦ entry.1 ≠ name

/-- The directory without what stands at a path. -/
def Directory.removeAt : List (ν × FileTree ν κ) → List ν → List (ν × FileTree ν κ)
  | _, [] => []
  | entries, [name] => Directory.erase entries name
  | entries, name :: next :: rest =>
    match entries.lookup name with
    | some (.dir sub) => Directory.set entries name (.dir (Directory.removeAt sub (next :: rest)))
    | _ => entries

namespace Directory

variable {entries entries' sub : List (ν × FileTree ν κ)} {path : List ν} {name : ν}
  {tree : FileTree ν κ}

/-! ## The tree at a path -/

@[simp]
theorem tree?_nil_path : Directory.tree? entries [] = some (.dir entries) := by
  rw [Directory.tree?]

theorem tree?_cons (rest : List ν) :
    Directory.tree? entries (name :: rest) = (entries.lookup name).bind fun tree ↦
      match tree with
      | .file content => if rest = [] then some (.file content) else none
      | .dir sub => Directory.tree? sub rest := by
  rw [Directory.tree?]
  cases entries.lookup name with
  | none => rfl
  | some tree => cases tree <;> rfl

/-- The map of the whole, from a path on, is the map of the tree there. -/
theorem node?_append_eq (rest : List ν) :
    Directory.node? entries (path ++ rest) =
      (Directory.tree? entries path).bind fun tree ↦ tree.node? rest := by
  induction path generalizing entries with
  | nil => rw [List.nil_append, tree?_nil_path, Option.bind_some, FileTree.node?]
  | cons name path ih =>
    rw [List.cons_append, node?_cons, tree?_cons]
    cases entries.lookup name with
    | none => rfl
    | some tree =>
      cases tree with
      | file content => by_cases hpath : path = [] <;> simp [FileTree.node?, hpath]
      | dir sub => exact ih

theorem tree?_eq_dir_iff :
    (∃ sub, Directory.tree? entries path = some (.dir sub)) ↔
      Directory.node? entries path = some .directory := by
  have hnode := @node?_append_eq _ _ _ entries path []
  rw [List.append_nil] at hnode
  rw [hnode]
  cases Directory.tree? entries path with
  | none => simp
  | some tree => cases tree <;> simp [FileTree.node?]

theorem node?_append_of_tree? (h : Directory.tree? entries path = some (.dir sub)) (rest : List ν) :
    Directory.node? entries (path ++ rest) = Directory.node? sub rest := by
  rw [node?_append_eq, h, Option.bind_some, FileTree.node?]

theorem Distinct.tree? (h : Directory.Distinct entries)
    (htree : Directory.tree? entries path = some tree) : tree.Distinct := by
  induction path generalizing entries with
  | nil =>
    rw [tree?_nil_path, Option.some.injEq] at htree
    subst htree
    rwa [FileTree.Distinct]
  | cons name path ih =>
    rw [tree?_cons, Option.bind_eq_some_iff] at htree
    obtain ⟨tree', hlookup, htree⟩ := htree
    cases tree' with
    | file content =>
      dsimp only at htree
      split at htree
      · cases htree
        rw [FileTree.Distinct]
        trivial
      · cases htree
    | dir sub => exact ih (Distinct.sub h hlookup) htree

/-- What was put at a path stands there. -/
theorem tree?_putAt (hput : Directory.putAt tree entries path = some entries') :
    Directory.tree? entries' path = some tree := by
  induction path generalizing entries entries' with
  | nil => cases hput
  | cons name rest ih =>
    cases rest with
    | nil =>
      cases hput
      rw [tree?_cons, lookup_set, if_pos rfl]
      cases tree <;> simp
    | cons next rest =>
      rw [Directory.putAt] at hput
      split at hput
      next sub hlookup =>
        obtain ⟨sub', hsub', rfl⟩ := Option.map_eq_some_iff.mp hput
        rw [tree?_cons, lookup_set, if_pos rfl, Option.bind_some]
        exact ih hsub'
      next => cases hput

/-! ## Removal -/

theorem lookup_erase (name' : ν) :
    (Directory.erase entries name).lookup name' =
      if name' = name then none else entries.lookup name' := by
  unfold Directory.erase
  induction entries with
  | nil => simp
  | cons entry rest ih =>
    obtain ⟨other, tree'⟩ := entry
    by_cases hother : other = name
    · subst hother
      rw [List.filter_cons_of_neg (by simp), ih, List.lookup_cons]
      by_cases h : name' = other
      · simp [h]
      · rw [beq_false_of_ne h]
    · rw [List.filter_cons_of_pos (by simpa using hother), List.lookup_cons, List.lookup_cons, ih]
      by_cases h : name' = other
      · subst h
        simp [hother]
      · rw [beq_false_of_ne h]

theorem Distinct.erase (h : Directory.Distinct entries) :
    Directory.Distinct (Directory.erase entries name) := by
  obtain ⟨hnames, hentries⟩ := distinct_iff.mp h
  refine distinct_iff.mpr ⟨?_, fun entry hentry ↦ hentries entry (List.mem_of_mem_filter hentry)⟩
  exact hnames.sublist (List.filter_sublist.map Prod.fst)

theorem Distinct.removeAt (h : Directory.Distinct entries) :
    Directory.Distinct (Directory.removeAt entries path) := by
  induction path generalizing entries with
  | nil =>
    rw [Directory.removeAt, Directory.Distinct]
    trivial
  | cons name rest ih =>
    cases rest with
    | nil => exact h.erase
    | cons next rest =>
      rw [Directory.removeAt]
      split
      next sub hlookup =>
        refine Distinct.set h ?_
        rw [FileTree.Distinct]
        exact ih (Distinct.sub h hlookup)
      next => exact h

/-- Nothing stands at the path or below it any longer, and all the rest is as it was. -/
theorem node?_removeAt (hpath : path ≠ []) (query : List ν) :
    Directory.node? (Directory.removeAt entries path) query =
      if path <+: query then none else Directory.node? entries query := by
  induction path generalizing entries query with
  | nil => exact absurd rfl hpath
  | cons name rest ih =>
    cases query with
    | nil => simp
    | cons name' query =>
      cases rest with
      | nil =>
        rw [Directory.removeAt, node?_cons, lookup_erase, node?_cons]
        by_cases hname : name' = name
        · simp [hname]
        · rw [if_neg hname, if_neg fun h ↦ hname (List.cons_prefix_cons.mp h).1.symm]
      | cons next rest =>
        rw [Directory.removeAt]
        split
        next sub hlookup =>
          rw [node?_cons, lookup_set, node?_cons]
          by_cases hname : name' = name
          · subst hname
            rw [if_pos rfl, hlookup, Option.bind_some, Option.bind_some, FileTree.node?,
              FileTree.node?, ih (List.cons_ne_nil _ _)]
            simp [List.cons_prefix_cons]
          · rw [if_neg hname, if_neg fun h ↦ hname (List.cons_prefix_cons.mp h).1.symm]
        next hlookup =>
          split
          case isFalse => rfl
          case isTrue hinitial =>
            obtain ⟨rfl, hbelow⟩ := List.cons_prefix_cons.mp hinitial
            have hquery : query ≠ [] := fun h ↦
              List.cons_ne_nil next rest (List.prefix_nil.mp (h ▸ hbelow))
            rw [node?_cons]
            cases hfound : entries.lookup name with
            | none => rfl
            | some tree =>
              cases tree with
              | file content => simp [FileTree.node?, hquery]
              | dir sub => exact absurd hfound (hlookup sub)

/-- A tree that is neither below the removed one nor above it stays. -/
theorem tree?_removeAt {query : List ν} (hbelow : ¬ path <+: query) (habove : ¬ query <+: path) :
    Directory.tree? (Directory.removeAt entries path) query = Directory.tree? entries query := by
  induction path generalizing entries query with
  | nil => exact absurd List.nil_prefix hbelow
  | cons name rest ih =>
    cases query with
    | nil => exact absurd List.nil_prefix habove
    | cons name' query =>
      cases rest with
      | nil =>
        have hname : name' ≠ name := by
          rintro rfl
          exact hbelow (List.cons_prefix_cons.mpr ⟨rfl, List.nil_prefix⟩)
        rw [Directory.removeAt, tree?_cons, lookup_erase, if_neg hname, tree?_cons]
      | cons next rest =>
        rw [Directory.removeAt]
        split
        next sub hlookup =>
          rw [tree?_cons, lookup_set, tree?_cons]
          by_cases hname : name' = name
          · subst hname
            rw [if_pos rfl, hlookup, Option.bind_some, Option.bind_some]
            exact ih (fun h ↦ hbelow (List.cons_prefix_cons.mpr ⟨rfl, h⟩))
              fun h ↦ habove (List.cons_prefix_cons.mpr ⟨rfl, h⟩)
          · rw [if_neg hname]
        next => rfl

/-! ## What is listed -/

variable {node : FileNode κ}

/-- The listing has what the map has, the directory itself apart. -/
theorem mem_nodes_iff (h : Directory.Distinct entries) :
    (path, node) ∈ Directory.nodes entries ↔
      path ≠ [] ∧ Directory.node? entries path = some node := by
  induction path generalizing entries with
  | nil => simp [nodes_eq_flatMap]
  | cons name rest ih =>
    have hmem : (name :: rest, node) ∈ Directory.nodes entries ↔
        ∃ tree, entries.lookup name = some tree ∧ (rest, node) ∈ tree.nodes := by
      rw [nodes_eq_flatMap, List.mem_flatMap]
      constructor
      · rintro ⟨⟨name', tree⟩, hentry, hnode⟩
        obtain ⟨⟨rest', node'⟩, hbelow, heq⟩ := List.mem_map.mp hnode
        cases heq
        exact ⟨tree, lookup_eq_some_of_mem h hentry, hbelow⟩
      · rintro ⟨tree, hlookup, hnode⟩
        exact ⟨(name, tree), mem_of_lookup hlookup, List.mem_map.mpr ⟨_, hnode, rfl⟩⟩
    rw [hmem, node?_cons, Option.bind_eq_some_iff]
    simp only [ne_eq, reduceCtorEq, not_false_eq_true, true_and]
    refine exists_congr fun tree ↦ and_congr_right fun hlookup ↦ ?_
    cases tree with
    | file content =>
      rw [FileTree.nodes, FileTree.node?]
      cases rest <;> simp [eq_comm]
    | dir sub =>
      rw [FileTree.nodes, FileTree.node?, List.mem_cons, ih (Distinct.sub h hlookup)]
      cases rest <;> simp [eq_comm]

end Directory

end SkillHive.Foundation
