import SkillHive.Workspace.ExportedArchives

/-!
# From an export to an import

What an export packs is extracted again file by file, so the captured snapshot is the same. It
takes that the archive passes the limits of an import, which count directories as well.
-/

namespace SkillHive

open Foundation Snapshot

namespace Workspace

/-- How a member is read back from the archive. -/
def ZipMember.entry (member : ZipMember) : ZipEntry :=
  match member.content with
  | none => ⟨member.name ++ "/", true, some 0o40644, 0, ⟨.empty, false⟩⟩
  | some bytes => ⟨member.name, false, some 0o100644, bytes.size, ⟨bytes, false⟩⟩

/-- What `ZipWriter` has written under portable names, `ZipArchive` reads. -/
def ZipLibrary.ReadsBack (zips : ZipLibrary) : Prop :=
  ∀ members bytes, (∀ member ∈ members, IsPortablePath member.name) →
    zips.write members = some bytes →
      zips.parse bytes = some (members.map fun member ↦ some member.entry)

variable {libs : Libraries} {zips : ZipLibrary} {policy : SnapshotPolicy} {staging root : List OsName}
  {contents : List (String × ByteArray)} {m m' : Machine} {path : List OsName}
  {done : List (List OsName × Leaf)}

/-! ## Unpacking -/

/-- No path leads through a file. -/
def Fits (contents : List (String × ByteArray)) : Prop :=
  ∀ source ∈ contents, ∀ other ∈ contents,
    pathNames source.1 <+: pathNames other.1 → source = other

theorem Fits.notMem_directoriesOf (h : Fits contents) {source : String × ByteArray}
    (hsource : source ∈ contents) : pathNames source.1 ∉ directoriesOf contents := by
  intro hdir
  obtain ⟨-, other, hother, hinitial, hproper⟩ := mem_directoriesOf.mp hdir
  exact hproper (by rw [h source hsource other hother hinitial])

/-- A directory of the archive, or the root. -/
def IsDirectory (contents : List (String × ByteArray)) (path : List OsName) : Prop :=
  path = [] ∨ path ∈ directoriesOf contents

theorem IsDirectory.of_prefix {front : List OsName} (h : IsDirectory contents path)
    (hinitial : front <+: path) : IsDirectory contents front := by
  by_cases hfront : front = []
  · exact .inl hfront
  · rcases h with rfl | hdir
    · exact absurd (List.prefix_nil.mp hinitial) hfront
    · obtain ⟨-, source, hsource, hpath, hproper⟩ := mem_directoriesOf.mp hdir
      refine .inr (mem_directoriesOf.mpr ⟨hfront, source, hsource, hinitial.trans hpath, ?_⟩)
      rintro rfl
      exact hproper (List.IsPrefix.eq_of_length_le hpath hinitial.length_le)

theorem Fits.not_isDirectory (h : Fits contents) {source : String × ByteArray}
    (hsource : source ∈ contents) : ¬ IsDirectory contents (pathNames source.1) := by
  rintro (hnil | hdir)
  · obtain ⟨name, hname⟩ := pathNames_eq_concat source.1
    rw [hname] at hnil
    simp at hnil
  · exact h.notMem_directoriesOf hsource hdir

theorem isDirectory_parent {source : String × ByteArray} (hsource : source ∈ contents) :
    IsDirectory contents (pathNames source.1).dropLast := by
  by_cases hparent : (pathNames source.1).dropLast = []
  · exact .inl hparent
  · refine .inr (mem_directoriesOf.mpr ⟨hparent, source, hsource, List.dropLast_prefix _, fun heq ↦ ?_⟩)
    obtain ⟨name, hname⟩ := pathNames_eq_concat source.1
    have hlength := congrArg List.length heq
    rw [hname, List.dropLast_concat, List.length_append] at hlength
    simp at hlength

/-- Below the staging directory are these files, and directories of the archive. -/
structure Unpacked (staging : List OsName) (contents : List (String × ByteArray))
    (done : List (List OsName × Leaf)) (m : Machine) : Prop where
  root : Directory.node? m.disk staging = some .directory
  file_iff : ∀ rest leaf,
    Directory.node? m.disk (staging ++ rest) = some (.file leaf) ↔ (rest, leaf) ∈ done
  directory : ∀ rest, Directory.node? m.disk (staging ++ rest) = some .directory →
    IsDirectory contents rest

theorem Fits.notMem_of_isDirectory (hfits : Fits contents)
    (hdone : done ⊆ contents.map sourceNode) {front : List OsName} (hfront : IsDirectory contents front)
    (leaf : Leaf) : (front, leaf) ∉ done := by
  intro hfile
  obtain ⟨source, hsource, heq⟩ := List.mem_map.mp (hdone hfile)
  obtain ⟨rfl, -⟩ := Prod.mk.inj heq
  exact hfits.not_isDirectory hsource hfront

theorem exec_createDirAll {disk : SourceDirectory}
    (h : Directory.makeDirs m.disk [] path = .ok disk) :
    Program.exec (createDirAll (fun _ ↦ none) path) m =
      (.ok (), { m with disk, calls := m.calls + 1 }) := by
  simp only [Program.exec, ExceptT.run, StateT.run, createDirAll, h]

/-- A directory of the archive can be made. -/
theorem Unpacked.createDirAll (h : Unpacked staging contents done m) (hfits : Fits contents)
    (hdone : done ⊆ contents.map sourceNode) (hpath : IsDirectory contents path) :
    ∃ m', Program.exec (createDirAll (fun _ ↦ none) (staging ++ path)) m = (.ok (), m') ∧
      Unpacked staging contents done m' ∧
      Directory.node? m'.disk (staging ++ path) = some .directory := by
  have hclear : ∀ front, front <+: [] ++ (staging ++ path) → ∀ leaf,
      Directory.node? m.disk front ≠ some (.file leaf) := by
    intro front hfront leaf hnode
    rw [List.nil_append] at hfront
    rcases List.prefix_or_prefix_of_prefix hfront (List.prefix_append staging path) with habove | hbelow
    · rw [Directory.node?_of_isPrefix h.root habove] at hnode
      cases hnode
    · obtain ⟨rest, rfl⟩ := hbelow
      have hrest := hpath.of_prefix ((List.prefix_append_right_inj staging).mp hfront)
      exact hfits.notMem_of_isDirectory hdone hrest leaf ((h.file_iff rest leaf).mp hnode)
  obtain ⟨disk, hmake⟩ := (Directory.makeDirs_isOk_iff Directory.node?_nil_path).mpr hclear
  have hmap := Directory.node?_makeDirs Directory.node?_nil_path hmake
  rw [List.nil_append] at hmap
  refine ⟨_, exec_createDirAll hmake, ⟨?_, fun rest leaf ↦ ?_, fun rest hrest ↦ ?_⟩, ?_⟩
  · exact (hmap staging).trans (if_pos (List.prefix_append _ _))
  · dsimp only
    rw [hmap]
    split
    case isTrue hinitial =>
      have hrest := hpath.of_prefix ((List.prefix_append_right_inj staging).mp hinitial)
      refine iff_of_false (fun heq ↦ ?_) (hfits.notMem_of_isDirectory hdone hrest leaf)
      cases heq
    case isFalse => exact h.file_iff rest leaf
  · dsimp only at hrest
    rw [hmap] at hrest
    split at hrest
    case isTrue hinitial => exact hpath.of_prefix ((List.prefix_append_right_inj staging).mp hinitial)
    case isFalse => exact h.directory rest hrest
  · exact (hmap _).trans (if_pos List.prefix_rfl)

/-- A file of the archive can be written once its directory is there. -/
theorem Unpacked.writeFile (h : Unpacked staging contents done m) (hfits : Fits contents)
    (hdone : done ⊆ contents.map sourceNode) (hnodup : (contents.map Prod.fst).Nodup)
    {source : String × ByteArray} (hsource : source ∈ contents)
    (hparent : Directory.node? m.disk (staging ++ (pathNames source.1).dropLast) = some .directory) :
    ∃ m', Program.exec (writeFile (fun _ ↦ none) (staging ++ pathNames source.1) source.2) m =
        (.ok (), m') ∧ Unpacked staging contents (done ++ [sourceNode source]) m' := by
  obtain ⟨name, hname⟩ := pathNames_eq_concat source.1
  have hfree : Directory.node? m.disk (staging ++ pathNames source.1) ≠ some .directory :=
    fun hdir ↦ hfits.not_isDirectory hsource (h.directory _ hdir)
  have hput : (Directory.putAt (.file (.regular source.2)) m.disk
      (staging ++ pathNames source.1)).isSome := by
    rw [hname, ← List.append_assoc]
    exact Directory.putAt_isSome_iff.mpr hparent
  obtain ⟨disk, hdisk⟩ := Option.isSome_iff_exists.mp hput
  have hmap := Directory.node?_putAt_file hdisk hfree
  have hmade : Machine.put? { m with calls := m.calls + 1 } (staging ++ pathNames source.1) source.2 =
      some ⟨disk, m.blobs, m.written + source.2.size, m.calls + 1⟩ := by
    unfold Machine.put?
    rw [if_neg hfree, hdisk]
    rfl
  have hexec : Program.exec (Workspace.writeFile (fun _ ↦ none) (staging ++ pathNames source.1)
      source.2) m = (.ok (), ⟨disk, m.blobs, m.written + source.2.size, m.calls + 1⟩) := by
    simp only [Program.exec, ExceptT.run, StateT.run, Workspace.writeFile, hmade]
  refine ⟨_, hexec, ?_, fun rest leaf ↦ ?_, fun rest hrest ↦ ?_⟩
  · refine (hmap staging).trans ((if_neg ?_).trans h.root)
    intro heq
    exact hfree (heq ▸ h.root)
  · dsimp only
    rw [hmap, List.mem_append, List.mem_singleton, sourceNode, Prod.mk.injEq]
    by_cases hrest : rest = pathNames source.1
    · rw [if_pos (congrArg (staging ++ ·) hrest)]
      constructor
      · rintro ⟨⟩
        exact .inr ⟨hrest, rfl⟩
      · rintro (hfile | ⟨-, rfl⟩)
        · -- the same path is listed once only
          obtain ⟨other, hother, heq⟩ := List.mem_map.mp (hdone hfile)
          obtain ⟨hpath, rfl⟩ := Prod.mk.inj heq
          have hsame : other = source := List.inj_on_of_nodup_map hnodup hother hsource
            (pathNames_injective (hpath.trans hrest))
          rw [hsame]
        · rfl
    · rw [if_neg fun heq ↦ hrest (List.append_cancel_left heq), h.file_iff]
      simp [hrest]
  · dsimp only at hrest
    rw [hmap] at hrest
    split at hrest
    · cases hrest
    · exact h.directory rest hrest

/-- The size that an entry declares. -/
def nodeSize (node : List OsName × FileNode Leaf) : ℕ :=
  match node.2 with
  | .file (.regular bytes) => bytes.size
  | _ => 0

/-- The file that an entry adds. -/
def nodeFiles (node : List OsName × FileNode Leaf) : List (List OsName × Leaf) :=
  match node.2 with
  | .file leaf => [(node.1, leaf)]
  | .directory => []

theorem readToEnd_eq {bytes : ByteArray} (h : bytes.size ≤ maxEntryBytes) :
    ZipStream.readToEnd ⟨bytes, false⟩ maxEntryBytes = some bytes := by
  unfold ZipStream.readToEnd
  split
  case isTrue hle =>
    rw [Nat.le_antisymm hle h]
    exact congrArg some (ByteArray.extract_zero_size)
  case isFalse => rfl

/-- The parts of a member's path, and the name that they make. -/
theorem exists_portable_parts (hsources : ∀ source ∈ contents, IsSource policy source)
    {node : List OsName × FileNode Leaf} (hnode : node ∈ nodesOf contents) :
    ∃ parts, parts ≠ [] ∧ node.1 = parts.map OsName.text ∧
      (∀ part ∈ parts, isPortableSegment part = true) ∧ IsPortablePath (joinSegments parts) ∧
      segments (joinSegments parts) = parts ∧ entryName node.1 = joinSegments parts := by
  obtain ⟨parts, rest, source, hsource, hne, hpath, hsegments⟩ := exists_parts_of_mem_nodesOf hnode
  have hmem : ∀ part ∈ parts, part ∈ segments source.1 := fun part hpart ↦ by
    rw [hsegments]
    exact List.mem_append_left _ hpart
  have hportable : ∀ part ∈ parts, isPortableSegment part = true ∧ '/' ∉ part.toList :=
    fun part hpart ↦ ⟨(hsources source hsource).path.segments part (hmem part hpart),
      slash_notMem_of_mem_segments (hmem part hpart)⟩
  obtain ⟨hjoin, hparts⟩ := isPortablePath_joinSegments hne hportable
  exact ⟨parts, hne, hpath, fun part hpart ↦ (hportable part hpart).1, hjoin, hparts, by
    rw [hpath, entryName_text hjoin]⟩

theorem isPortablePath_of_mem_archiveOf (hsources : ∀ source ∈ contents, IsSource policy source)
    {member : ZipMember} (hmember : member ∈ archiveOf contents) : IsPortablePath member.name := by
  obtain ⟨node, hnode, rfl⟩ := List.mem_map.mp hmember
  obtain ⟨parts, -, -, -, hjoin, -, hname⟩ :=
    exists_portable_parts hsources ((List.mergeSort_perm _ _).subset hnode)
  unfold memberOf
  rwa [hname]

variable {totalBytes : ℕ}

/-- An entry that a directory was packed as. -/
theorem extractEntry_directory (h : Unpacked staging contents done m) (hfits : Fits contents)
    (hdone : done ⊆ contents.map sourceNode)
    (hsources : ∀ source ∈ contents, IsSource .default source) (hpath : path ∈ directoriesOf contents) :
    ∃ m', Program.exec (extractEntry (fun _ ↦ none) staging
        (some (memberOf (path, .directory)).entry) totalBytes) m = (.ok totalBytes, m') ∧
      Unpacked staging contents done m' := by
  have hnode : (path, .directory) ∈ nodesOf contents := mem_nodesOf.mpr (.inl ⟨hpath, rfl⟩)
  obtain ⟨parts, hne, rfl, hportable, hjoin, hsegments, hname⟩ := exists_portable_parts hsources hnode
  dsimp only at hname
  have hrelative : isAbsolute (joinSegments parts) = false := by
    simpa [isAbsolute] using hjoin.relative
  have hentry : (memberOf (parts.map OsName.text, .directory)).entry =
      ⟨joinSegments parts ++ "/", true, some 0o40644, 0, ⟨.empty, false⟩⟩ := by
    unfold memberOf ZipMember.entry
    rw [hname]
  obtain ⟨hvalid, htarget⟩ := @validateEntryName_of_segments parts (joinSegments parts ++ "/")
    [""] (by simp) (by simpa using hjoin.noBackslash)
    (isAbsolute_append_slash hjoin.nonempty hrelative) (by rw [segments_append_slash, hsegments]) hne
    hportable (by simp) staging
  obtain ⟨m', hexec, hunpacked, -⟩ := h.createDirAll hfits hdone (.inr hpath)
  refine ⟨m', ?_, hunpacked⟩
  unfold extractEntry
  rw [hentry, Program.exec_lift_bind (okOr_eq_ok.mpr rfl), Program.exec_lift_bind hvalid, if_pos rfl, htarget,
    resolve_absolute, Program.exec_bind_ok hexec]
  rfl

/-- An entry that a file was packed as. -/
theorem extractEntry_file (h : Unpacked staging contents done m) (hfits : Fits contents)
    (hdone : done ⊆ contents.map sourceNode) (hnodup : (contents.map Prod.fst).Nodup)
    (hsources : ∀ source ∈ contents, IsSource .default source) {source : String × ByteArray}
    (hsource : source ∈ contents) (htotal : totalBytes + source.2.size ≤ maxTotalBytes) :
    ∃ m', Program.exec (extractEntry (fun _ ↦ none) staging
        (some (memberOf (pathNames source.1, .file (.regular source.2))).entry) totalBytes) m =
          (.ok (totalBytes + source.2.size), m') ∧
      Unpacked staging contents (done ++ [sourceNode source]) m' := by
  have hnode : (pathNames source.1, .file (.regular source.2)) ∈ nodesOf contents :=
    mem_nodesOf.mpr (.inr ⟨source, hsource, rfl, rfl⟩)
  obtain ⟨parts, hne, hpath, hportable, hjoin, hsegments, hname⟩ :=
    exists_portable_parts hsources hnode
  dsimp only at hname hpath
  have hentry : (memberOf (pathNames source.1, .file (.regular source.2))).entry =
      ⟨joinSegments parts, false, some 0o100644, source.2.size, ⟨source.2, false⟩⟩ := by
    unfold memberOf ZipMember.entry
    rw [hname]
  obtain ⟨hvalid, htarget⟩ := @validateEntryName_of_segments parts _ [] hjoin.nonempty
    hjoin.noBackslash (by simpa [isAbsolute] using hjoin.relative)
    (by rw [hsegments, List.append_nil]) hne hportable (fun _ hpart ↦ nomatch hpart) staging
  rw [← hpath] at htarget
  obtain ⟨name, hconcat⟩ := pathNames_eq_concat source.1
  have hdropLast : (absolute (staging ++ pathNames source.1)).dropLast =
      absolute (staging ++ (pathNames source.1).dropLast) := by
    rw [hconcat, ← List.append_assoc, dropLast_absolute_concat, List.dropLast_concat]
  have hinitial : absolute staging <+: absolute (staging ++ pathNames source.1) := by
    rw [← absolute_append]
    exact List.prefix_append _ _
  obtain ⟨m₁, hmake, hunpacked₁, hparent⟩ := h.createDirAll hfits hdone (isDirectory_parent hsource)
  obtain ⟨m₂, hwrite, hunpacked₂⟩ := hunpacked₁.writeFile hfits hdone hnodup hsource hparent
  have hsize : source.2.size ≤ maxEntryBytes := (hsources source hsource).sizeBytes
  have hmode : ∀ mode ∈ some 0o100644, mode &&& 0o170000 ≠ 0o120000 := by
    intro mode hmode
    cases hmode
    decide
  have hsum : totalBytes + source.2.size < 2 ^ 64 := lt_of_le_of_lt htotal (by decide)
  refine ⟨m₂, ?_, hunpacked₂⟩
  unfold extractEntry
  rw [hentry, Program.exec_lift_bind (okOr_eq_ok.mpr rfl), Program.exec_lift_bind hvalid, if_neg Bool.false_ne_true]
  unfold extractFile
  dsimp only
  rw [htarget, hdropLast, resolve_absolute, resolve_absolute, Program.exec_require_bind hmode,
    Program.exec_require_bind hsize, Program.exec_require_bind hsum,
    Program.exec_require_bind htotal, Program.exec_require_bind hinitial,
    Program.exec_bind_ok hmake, Program.exec_lift_bind (okOr_eq_ok.mpr (readToEnd_eq hsize)),
    Program.exec_require_bind rfl, Program.exec_bind_ok hwrite]
  rfl

/-- The entries of an exported archive are extracted one after the other. -/
theorem extractEntries_nodes {nodes : List (List OsName × FileNode Leaf)}
    (h : Unpacked staging contents done m) (hfits : Fits contents)
    (hdone : done ⊆ contents.map sourceNode) (hnodup : (contents.map Prod.fst).Nodup)
    (hsources : ∀ source ∈ contents, IsSource .default source) (hnodes : nodes ⊆ nodesOf contents)
    (htotal : totalBytes + (nodes.map nodeSize).sum ≤ maxTotalBytes) :
    ∃ total m', Program.exec (extractEntries (fun _ ↦ none) staging
        (nodes.map fun node ↦ some (memberOf node).entry) totalBytes) m = (.ok total, m') ∧
      Unpacked staging contents (done ++ nodes.flatMap nodeFiles) m' := by
  induction nodes generalizing done m totalBytes with
  | nil => exact ⟨totalBytes, m, rfl, by simpa using h⟩
  | cons node nodes ih =>
    obtain ⟨hfirst, hrest⟩ := List.cons_subset.mp hnodes
    rw [List.map_cons, List.sum_cons, ← Nat.add_assoc] at htotal
    obtain ⟨path, node⟩ := node
    have hstep : ∃ m', Program.exec (extractEntry (fun _ ↦ none) staging
        (some (memberOf (path, node)).entry) totalBytes) m =
          (.ok (totalBytes + nodeSize (path, node)), m') ∧
        Unpacked staging contents (done ++ nodeFiles (path, node)) m' ∧
        done ++ nodeFiles (path, node) ⊆ contents.map sourceNode := by
      rcases mem_nodesOf.mp hfirst with ⟨hpath, rfl⟩ | ⟨source, hsource, rfl, rfl⟩
      · obtain ⟨m', hexec, hunpacked⟩ := @extractEntry_directory _ _ _ _ _ totalBytes h hfits
          hdone hsources hpath
        exact ⟨m', hexec, by simpa [nodeFiles] using hunpacked, by simpa [nodeFiles] using hdone⟩
      · obtain ⟨m', hexec, hunpacked⟩ := extractEntry_file h hfits hdone hnodup hsources hsource
          (le_trans (Nat.le_add_right _ _) htotal)
        refine ⟨m', hexec, hunpacked, List.append_subset.mpr ⟨hdone, ?_⟩⟩
        exact List.cons_subset.mpr ⟨List.mem_map_of_mem hsource, List.nil_subset _⟩
    obtain ⟨m₁, hexec, hunpacked, hdone₁⟩ := hstep
    obtain ⟨total, m', hloop, hend⟩ := ih hunpacked hdone₁ hrest htotal
    refine ⟨total, m', ?_, ?_⟩
    · rw [List.map_cons, extractEntries, Program.exec_bind_ok hexec]
      exact hloop
    · rwa [List.flatMap_cons, ← List.append_assoc]

theorem flatMap_nodeFiles : (nodesOf contents).flatMap nodeFiles = contents.map sourceNode := by
  have hdirs : ∀ paths : List (List OsName),
      (paths.map fun path ↦ (path, FileNode.directory)).flatMap nodeFiles = [] := by
    intro paths
    rw [List.flatMap_map]
    exact List.flatMap_eq_nil_iff.mpr fun _ _ ↦ rfl
  unfold nodesOf
  rw [List.flatMap_append, hdirs, List.nil_append, List.flatMap_map, List.map_eq_flatMap]
  rfl

theorem sum_nodeSize :
    ((nodesOf contents).map nodeSize).sum =
      Snapshot.totalBytes (manifestOf libs contents).files := by
  have hdirs : ∀ paths : List (List OsName),
      ((paths.map fun path ↦ (path, FileNode.directory)).map nodeSize).sum = 0 := by
    intro paths
    rw [List.map_map]
    exact List.sum_eq_zero (by simp [nodeSize])
  unfold nodesOf
  rw [List.map_append, List.sum_append, hdirs, Nat.zero_add, List.map_map]
  simp only [Snapshot.totalBytes, manifestOf, List.map_map]
  rfl

/-- A new staging directory takes an exported archive with few enough entries. -/
theorem extractArchive_exported (hstart : Unpacked staging contents [] m) (hfits : Fits contents)
    (hvalid : (manifestOf libs contents).Valid .default)
    (hcount : (archiveOf contents).length ≤ maxEntries) :
    ∃ count m', Program.exec (extractArchive (fun _ ↦ none) staging
        ((archiveOf contents).map fun member ↦ some member.entry)) m = (.ok count, m') ∧
      Directory.node? m'.disk staging = some .directory ∧
      ∀ rest leaf, Directory.node? m'.disk (staging ++ rest) = some (.file leaf) ↔
        (rest, leaf) ∈ contents.map sourceNode := by
  have hperm : (sortByComponents (nodesOf contents)).Perm (nodesOf contents) :=
    List.mergeSort_perm _ _
  have hsize : (0 : ℕ) + ((sortByComponents (nodesOf contents)).map nodeSize).sum ≤ maxTotalBytes := by
    rw [Nat.zero_add, (hperm.map nodeSize).sum_eq, @sum_nodeSize libs]
    exact hvalid.total.2
  obtain ⟨total, m', hloop, hend⟩ := extractEntries_nodes hstart hfits (List.nil_subset _)
    (contents_nodup hvalid) (fun _ ↦ isSource_of_valid hvalid) hperm.subset hsize
  have hentries : (archiveOf contents).map (fun member ↦ some member.entry) =
      (sortByComponents (nodesOf contents)).map fun node ↦ some (memberOf node).entry := by
    unfold archiveOf
    rw [List.map_map]
    rfl
  refine ⟨((archiveOf contents).map fun member ↦ some member.entry).length, m', ?_, hend.root,
    fun rest leaf ↦ ?_⟩
  · unfold extractArchive
    rw [Program.exec_require_bind (by rwa [List.length_map]), hentries, Program.exec_bind_ok hloop]
    rfl
  · rw [hend.file_iff, List.nil_append, ← flatMap_nodeFiles]
    exact (hperm.flatMap_right nodeFiles).mem_iff

/-- The tree at a path with just these files below it. -/
theorem exists_tree_at {disk : SourceDirectory} (hvalid : (manifestOf libs contents).Valid policy)
    (hdistinct : Directory.Distinct disk) (hroot : Directory.node? disk path = some .directory)
    (hfiles : ∀ rest leaf, Directory.node? disk (path ++ rest) = some (.file leaf) ↔
      (rest, leaf) ∈ contents.map sourceNode) :
    ∃ tree : DirectoryTree, Directory.tree? disk path = some (.dir tree.entries) ∧
      HasContents tree.entries contents := by
  obtain ⟨sub, hsub⟩ := Directory.tree?_eq_dir_iff.mpr hroot
  have hdistinct' := Directory.Distinct.tree? hdistinct hsub
  rw [FileTree.Distinct] at hdistinct'
  have hcontents : HasContents sub contents := by
    refine (List.perm_ext_iff_of_nodup (Directory.files_nodup_of_distinct hdistinct')
      (sourceNodes_nodup hvalid)).mpr ?_
    rintro ⟨rest, leaf⟩
    rw [Directory.mem_files_iff hdistinct', ← Directory.node?_append_of_tree? hsub, hfiles]
  obtain ⟨tree, rfl, htree⟩ := exists_tree_of_perm hvalid hdistinct' hcontents
  exact ⟨tree, hsub, htree⟩

/-! ## Writing the workspace -/

section Workspace

variable {parent : List OsName} {name : OsName}

/-- One more file is made below the destination. -/
theorem exec_writeSnapshotFile {file : SkillSnapshotFile} {made made' : SourceDirectory × ℕ}
    (htree : Directory.tree? m.disk (parent ++ [name]) = some (.dir made.1))
    (hparent : Directory.node? m.disk parent = some .directory)
    (hfile : materializeFile libs m.blobs policy made file = .ok made') :
    ∃ disk, Program.exec (writeSnapshotFile libs (parent ++ [name]) policy file made.2) m =
        (.ok made'.2, { m with disk }) ∧
      Directory.tree? disk (parent ++ [name]) = some (.dir made'.1) ∧
      Directory.node? disk parent = some .directory ∧
      OnlyBelow (parent ++ [name]) m { m with disk } := by
  obtain ⟨disk, hdisk⟩ := Option.isSome_iff_exists.mp
    (@Directory.putAt_isSome_iff _ _ _ _ (.dir made'.1) _ name |>.mpr hparent)
  have hbelow : OnlyBelow (parent ++ [name]) m { m with disk } :=
    OnlyBelow.putAt (fun _ _ ↦ rfl) hdisk
  refine ⟨disk, ?_, Directory.tree?_putAt hdisk, ?_, hbelow⟩
  · unfold writeSnapshotFile Program.exec ExceptT.run StateT.run
    simp only [htree]
    rw [show ((made.1, made.2) : SourceDirectory × ℕ) = made from rfl, hfile]
    simp only [hdisk]
  · refine (hbelow parent fun hinitial ↦ ?_).trans hparent
    have hlength := hinitial.length_le
    simp at hlength

/-- The loop on the disk does below the destination what the loop on a directory does. -/
theorem writeSnapshotFiles_of_foldE {files : List SkillSnapshotFile}
    {made made' : SourceDirectory × ℕ}
    (htree : Directory.tree? m.disk (parent ++ [name]) = some (.dir made.1))
    (hparent : Directory.node? m.disk parent = some .directory)
    (hloop : foldE (materializeFile libs m.blobs policy) made files = .ok made') :
    ∃ m', Program.exec (writeSnapshotFiles libs (parent ++ [name]) policy files made.2) m =
        (.ok made'.2, m') ∧ Directory.tree? m'.disk (parent ++ [name]) = some (.dir made'.1) := by
  induction files generalizing m made with
  | nil =>
    cases hloop
    exact ⟨m, rfl, htree⟩
  | cons file files ih =>
    obtain ⟨made₁, hfile, hrest⟩ := foldE_cons_eq_ok.mp hloop
    obtain ⟨disk, hstep, htree₁, hparent₁, -⟩ := exec_writeSnapshotFile htree hparent hfile
    obtain ⟨m', hexec, htree'⟩ := @ih { m with disk } made₁ htree₁ hparent₁ hrest
    refine ⟨m', ?_, htree'⟩
    rw [writeSnapshotFiles, Program.exec_bind_ok hstep]
    exact hexec

/-- The destination is new and empty. -/
theorem exec_createDir (hparent : Directory.node? m.disk parent = some .directory)
    (hfree : Directory.node? m.disk (parent ++ [name]) = none) :
    ∃ disk, Program.exec (createDir (parent ++ [name])) m = (.ok (), { m with disk }) ∧
      Directory.tree? disk (parent ++ [name]) = some (.dir []) ∧
      Directory.node? disk parent = some .directory := by
  obtain ⟨disk, hdisk⟩ := Option.isSome_iff_exists.mp
    (@Directory.putAt_isSome_iff _ _ _ _ (.dir []) _ name |>.mpr hparent)
  refine ⟨disk, ?_, Directory.tree?_putAt hdisk, ?_⟩
  · unfold createDir Program.exec ExceptT.run StateT.run
    simp only [hfree, if_pos, hdisk]
  · refine (Directory.node?_putAt hdisk parent).trans ((if_neg fun hinitial ↦ ?_).trans hparent)
    have hlength := hinitial.length_le
    simp at hlength

/-- Materializing on the disk does below the destination what materializing a directory does. -/
theorem exec_writeSnapshot {manifestHash : String} {manifest : SkillSnapshotManifest}
    {made : SourceDirectory × ℕ} (hparent : Directory.node? m.disk parent = some .directory)
    (hfree : Directory.node? m.disk (parent ++ [name]) = none)
    (hmanifest : readManifestWithPolicy libs m.blobs manifestHash policy = .ok manifest)
    (hloop : foldE (materializeFile libs m.blobs policy) ([], 0) manifest.files = .ok made) :
    ∃ m', Program.exec (writeSnapshot libs (parent ++ [name]) manifestHash policy) m =
        (.ok ⟨manifestHash, manifest.files.length, made.2⟩, m') ∧
      Directory.tree? m'.disk (parent ++ [name]) = some (.dir made.1) := by
  obtain ⟨disk, hcreate, hempty, hparent'⟩ := exec_createDir hparent hfree
  obtain ⟨m', hwrite, htree⟩ := @writeSnapshotFiles_of_foldE libs policy { m with disk } parent name
    _ ([], 0) made hempty hparent' hloop
  refine ⟨m', ?_, htree⟩
  unfold writeSnapshot
  rw [Program.exec_bind_ok (Program.exec_read m), Program.exec_require_bind hfree,
    Program.exec_lift_bind hmanifest, Program.exec_bind_ok hcreate,
    Program.exec_bind_ok (Program.exec_attempt _ _), hwrite]
  rfl

end Workspace

/-- The blob store and the number of calls are the same. -/
def SameStore (m m' : Machine) : Prop := m'.blobs = m.blobs ∧ m'.calls = m.calls

theorem SameStore.trans {m m' m'' : Machine} (h : SameStore m m') (h' : SameStore m' m'') :
    SameStore m m'' :=
  ⟨h'.1.trans h.1, h'.2.trans h.2⟩

theorem createDir_sameStore (path : List OsName) :
    Program.Frames SameStore (createDir path) := by
  intro m
  unfold createDir Program.exec ExceptT.run StateT.run
  dsimp only
  split
  · split <;> exact ⟨rfl, rfl⟩
  · exact ⟨rfl, rfl⟩

theorem writeSnapshotFile_sameStore (path : List OsName) (file : SkillSnapshotFile)
    (totalBytes : ℕ) :
    Program.Frames SameStore (writeSnapshotFile libs path policy file totalBytes) := by
  intro m
  unfold writeSnapshotFile Program.exec ExceptT.run StateT.run
  dsimp only
  split
  · split
    · split <;> exact ⟨rfl, rfl⟩
    · exact ⟨rfl, rfl⟩
  · exact ⟨rfl, rfl⟩

theorem writeSnapshotFiles_sameStore (path : List OsName) (files : List SkillSnapshotFile)
    (totalBytes : ℕ) :
    Program.Frames SameStore (writeSnapshotFiles libs path policy files totalBytes) := by
  induction files generalizing totalBytes with
  | nil => exact .pure (fun _ ↦ ⟨rfl, rfl⟩) totalBytes
  | cons file files ih =>
    exact .bind (fun _ _ _ ↦ .trans) (writeSnapshotFile_sameStore path file totalBytes) fun _ ↦ ih _

/-- A materialization reads the blobs, and makes no call that is counted. -/
theorem writeSnapshot_sameStore {manifestHash : String} (path : List OsName) :
    Program.Frames SameStore (writeSnapshot libs path manifestHash policy) := by
  refine .bind (fun _ _ _ ↦ .trans) (fun _ ↦ ⟨rfl, rfl⟩) fun m ↦ ?_
  refine .bind (fun _ _ _ ↦ .trans) (fun _ ↦ ⟨rfl, rfl⟩) fun _ ↦ ?_
  refine .bind (fun _ _ _ ↦ .trans) (fun _ ↦ ⟨rfl, rfl⟩) fun manifest ↦ ?_
  refine .bind (fun _ _ _ ↦ .trans) (createDir_sameStore path) fun _ ↦ ?_
  refine .bind (fun _ _ _ ↦ .trans) (writeSnapshotFiles_sameStore path _ 0).attempt fun result ↦ ?_
  cases result <;> exact fun _ ↦ ⟨rfl, rfl⟩

/-! ## The whole import -/

/-- A machine on which the skill can be imported: there is room for the staging directory and for
the workspace, and the stored blobs are undamaged. -/
structure IsReady (libs : Libraries) (root staging : List OsName) (skillId : String) (m : Machine) :
    Prop where
  distinct : Directory.Distinct m.disk
  apart : Apart staging root
  stagingFree : Directory.node? m.disk staging = none
  stagingPlace : ∃ disk, Directory.makeDirs m.disk [] staging = .ok disk
  rootDirectory : Directory.node? m.disk root = some .directory
  validId : validateSkillId skillId = .ok ()
  free : Directory.node? m.disk (root ++ [workspaceName libs skillId]) = none
  intact : m.blobs.Intact libs

/-- The archive of the contents passes the limits of an import. -/
def FitsArchive (zips : ZipLibrary) (contents : List (String × ByteArray)) : Prop :=
  (archiveOf contents).length ≤ maxEntries ∧
    ∃ bytes, zips.write (archiveOf contents) = some bytes ∧ bytes.size ≤ maxArchiveBytes

variable {skillId : String}

/-- The staging directory is new. -/
theorem IsReady.createStaging (h : IsReady libs root staging skillId m) :
    ∃ m', Program.exec (createDirAll (fun _ ↦ none) staging) m = (.ok (), m') ∧
      Unpacked staging contents [] m' ∧ Confined staging m' m' ∧ Untouched root m m' ∧
      Directory.Distinct m'.disk ∧ m'.blobs = m.blobs := by
  obtain ⟨disk, hmake⟩ := h.stagingPlace
  have hexec := exec_createDirAll hmake
  obtain ⟨huntouched, hconfined⟩ := (createStaging_spec h.apart h.stagingFree).ok rfl hexec
  have hbelow : ∀ rest, rest ≠ [] → Directory.node? disk (staging ++ rest) = none := by
    intro rest hrest
    rw [Directory.node?_makeDirs Directory.node?_nil_path hmake, List.nil_append, if_neg]
    · by_contra hsome
      have hdir := Directory.node?_append hrest hsome
      rw [h.stagingFree] at hdir
      cases hdir
    · intro hinitial
      have hlength := hinitial.length_le
      rw [List.length_append] at hlength
      exact hrest (List.length_eq_zero_iff.mp (by omega))
  refine ⟨_, hexec, ⟨hconfined.root, fun rest leaf ↦ ?_, fun rest hrest ↦ ?_⟩, hconfined, huntouched,
    Directory.Distinct.makeDirs h.distinct hmake, rfl⟩
  · refine iff_of_false (fun hnode ↦ ?_) List.not_mem_nil
    by_cases hrest : rest = []
    · rw [hrest, List.append_nil, hconfined.root] at hnode
      cases hnode
    · dsimp only at hnode
      rw [hbelow rest hrest] at hnode
      cases hnode
  · by_contra hother
    dsimp only at hrest
    rw [hbelow rest fun hnil ↦ hother (.inl hnil)] at hrest
    cases hrest

/-- What is held is written as a new workspace. -/
theorem importSnapshot_of_held (hroot : Directory.node? m.disk root = some .directory)
    (hskillId : validateSkillId skillId = .ok ())
    (hfree : Directory.node? m.disk (root ++ [workspaceName libs skillId]) = none)
    (hvalid : (manifestOf libs contents).Valid .default)
    (hfits : (manifestOf libs contents).NoFileIsDirectory) (hheld : AreHeld libs m.blobs contents)
    (hjson : libs.fromSlice (manifestBytes libs contents) = some (manifestOf libs contents).toDocument)
    (hdigests : Set.InjOn libs.hashBytes (bytesInPlay libs m.blobs contents)) :
    ∃ (tree : DirectoryTree) (m' : Machine),
      Program.exec (importSnapshot libs (fun _ ↦ none) root skillId
          (refOf libs contents).manifestHash) m =
        (.ok ⟨skillId, root ++ [workspaceName libs skillId]⟩, m') ∧ m'.blobs = m.blobs ∧
      Directory.tree? m'.disk (root ++ [workspaceName libs skillId]) = some (.dir tree.entries) ∧
      HasContents tree.entries contents := by
  obtain ⟨tree, hmade, -, hcontents⟩ := materialize_of_held hvalid hfits hheld hjson hdigests
  have hmanifest := readManifestWithPolicy_of_held hvalid hheld hjson hdigests
  obtain ⟨total, hloop, -⟩ := (materializeSnapshotWithPolicy_eq_ok hmanifest).mp hmade
  obtain ⟨m', hsnapshot, htree⟩ := exec_writeSnapshot hroot hfree hmanifest hloop
  have hblobs : m'.blobs = m.blobs := by
    have hsame := @writeSnapshot_sameStore libs .default (refOf libs contents).manifestHash
      (root ++ [workspaceName libs skillId]) m
    rw [hsnapshot] at hsame
    exact hsame.1
  refine ⟨tree, { m' with calls := m'.calls + 1 }, ?_, hblobs, htree, hcontents⟩
  have hpath : pathForSkill libs root skillId = .ok (root ++ [workspaceName libs skillId]) :=
    bind_eq_ok.mpr ⟨(), hskillId, rfl⟩
  unfold importSnapshot
  rw [Program.exec_lift_bind hskillId, Program.exec_lift_bind hpath,
    Program.exec_bind_ok (Program.exec_read m), Program.exec_require_bind hfree,
    Program.exec_bind_ok (Program.exec_mapError_ok hsnapshot)]
  rfl

theorem fits_of_noFileIsDirectory (hvalid : (manifestOf libs contents).Valid policy)
    (h : (manifestOf libs contents).NoFileIsDirectory) : Fits contents := by
  unfold SkillSnapshotManifest.NoFileIsDirectory manifestOf at h
  simp only [List.forall_mem_map] at h
  intro source hsource other hother hinitial
  have hsame := h source hsource other hother (pathNames_prefix_iff.mp hinitial)
  exact List.inj_on_of_nodup_map (contents_nodup hvalid) hsource hother
    (congrArg SkillSnapshotFile.path hsame)

/-- An exported archive within the limits is imported with the same contents. -/
theorem importSkillZip_exported (hready : IsReady libs root staging skillId m)
    (hvalid : (manifestOf libs contents).Valid .default)
    (hfits : (manifestOf libs contents).NoFileIsDirectory)
    (hhash : isCanonicalSha256 (libs.hashBytes (manifestBytes libs contents)) = true)
    (hjson : libs.fromSlice (manifestBytes libs contents) = some (manifestOf libs contents).toDocument)
    (hdigests : Set.InjOn libs.hashBytes (bytesInPlay libs m.blobs contents)) {bytes : ByteArray}
    (hparse : zips.parse bytes = some ((archiveOf contents).map fun member ↦ some member.entry))
    (hcount : (archiveOf contents).length ≤ maxEntries) (hsize : bytes.size ≤ maxArchiveBytes)
    {zipFile : ZipFile} (hfound : zipFile.found = some (.file (.regular bytes))) :
    ∃ (outcome : ZipImportOutcome) (m' : Machine) (tree : DirectoryTree),
      Program.exec (importSkillZip libs zips (fun _ ↦ none) root staging zipFile skillId) m =
        (.ok outcome, m') ∧
      Directory.tree? m'.disk outcome.workspace.path = some (.dir tree.entries) ∧
      captureWorkspace libs m'.blobs (.directory tree.entries) .default =
        .ok (m'.blobs, refOf libs contents) := by
  have hroom : Fits contents := fits_of_noFileIsDirectory hvalid hfits
  obtain ⟨m₁, hmake, hstart, hconfined, huntouched, hdistinct, hblobs₁⟩ := hready.createStaging
  obtain ⟨count, m₂, hextract, hstaging, hfiles⟩ :=
    extractArchive_exported hstart hroom hvalid hcount
  obtain ⟨hconfined₂, -⟩ := (extractArchive_spec _).ok ⟨hconfined, le_rfl⟩ hextract
  obtain ⟨staged, hstaged, hcontents⟩ :=
    exists_tree_at hvalid (hconfined₂.distinct hdistinct) hstaging hfiles
  have hblobs₂ : m₂.blobs = m.blobs := hconfined₂.blobs.trans hblobs₁
  obtain ⟨blobs, hcaptured, hheld, hnew⟩ := @exists_captureWorkspace _ _ _ m₂.blobs _ hcontents
    hvalid (hblobs₂ ▸ hready.intact) hhash
  have hcapture : Program.exec (captureStaging libs staging) m₂ =
      (.ok (refOf libs contents), { m₂ with blobs }) := by
    unfold captureStaging Program.exec ExceptT.run StateT.run
    dsimp only
    rw [hstaged]
    unfold PathState.directory at hcaptured
    rw [hcaptured]
  have hbelow := hconfined₂.untouched hready.apart huntouched
  have hplay : bytesInPlay libs blobs contents ⊆ bytesInPlay libs m.blobs contents := by
    rintro bytes (⟨blob, hblob, rfl⟩ | hbytes)
    · rcases hnew blob hblob with hold | hother
      · exact .inl ⟨blob, hblobs₂ ▸ hold, rfl⟩
      · exact .inr hother
    · exact .inr hbytes
  obtain ⟨tree, m₃, himport, hblobs₃, htree, hwritten⟩ := @importSnapshot_of_held libs root contents
    { m₂ with blobs } skillId ((hbelow root List.prefix_rfl).trans hready.rootDirectory)
    hready.validId ((hbelow _ (List.prefix_append _ _)).trans hready.free) hvalid hfits hheld hjson
    (hdigests.mono hplay)
  have hstep : Program.exec (importStaged libs (fun _ ↦ none) root staging
      ((archiveOf contents).map fun member ↦ some member.entry) zipFile.fileName skillId) m₁ =
        (.ok ⟨⟨skillId, root ++ [workspaceName libs skillId]⟩, (refOf libs contents).manifestHash,
          zipFile.fileName, count⟩, m₃) := by
    unfold importStaged
    rw [Program.exec_bind_ok hextract, Program.exec_bind_ok hcapture,
      Program.exec_bind_ok (Program.exec_mapError_ok himport)]
    rfl
  have hread : readZipFile zipFile = .ok bytes := by
    unfold readZipFile
    rw [hfound]
    exact bind_eq_ok.mpr ⟨(), require_eq_ok.mpr hsize, rfl⟩
  refine ⟨⟨⟨skillId, root ++ [workspaceName libs skillId]⟩, (refOf libs contents).manifestHash,
    zipFile.fileName, count⟩, { m₃ with disk := Directory.removeAt m₃.disk staging }, tree, ?_, ?_, ?_⟩
  rotate_left
  · refine (Directory.tree?_removeAt ?_ ?_).trans htree
    · exact not_prefix_of_apart ⟨hready.apart.2, hready.apart.1⟩ (List.prefix_append _ _)
    · exact fun hinitial ↦ hready.apart.2 ((List.prefix_append _ _).trans hinitial)
  · exact captureWorkspace_of_holds hwritten hvalid (hblobs₃ ▸ hheld)
  · unfold importSkillZip
    rw [Program.exec_lift_bind hread, Program.exec_lift_bind (okOr_eq_ok.mpr hparse),
      Program.exec_bind_ok hmake, Program.exec_bind_ok (Program.exec_attempt _ _), hstep]
    rfl

/-- An import that succeeds was within the limits. -/
theorem importSkillZip_limits {zipFile : ZipFile} {faults : ℕ → Option Fault} {bytes : ByteArray}
    {archive : ZipArchive} {outcome : ZipImportOutcome}
    (hfound : zipFile.found = some (.file (.regular bytes))) (hparse : zips.parse bytes = some archive)
    (hexec : Program.exec (importSkillZip libs zips faults root staging zipFile skillId) m =
      (.ok outcome, m')) :
    bytes.size ≤ maxArchiveBytes ∧ archive.length ≤ maxEntries := by
  have hspec : Program.Triple (fun _ ↦ True)
      (importSkillZip libs zips faults root staging zipFile skillId)
      (fun _ _ ↦ bytes.size ≤ maxArchiveBytes ∧ archive.length ≤ maxEntries) fun _ _ ↦ True := by
    refine .lift_bind (fun bytes' hread ↦ ?_) fun _ _ _ _ ↦ trivial
    unfold readZipFile at hread
    rw [hfound] at hread
    obtain ⟨_, hsize, hread⟩ := bind_eq_ok.mp hread
    cases hread
    refine .lift_bind (fun archive' harchive ↦ ?_) fun _ _ _ _ ↦ trivial
    obtain rfl : archive' = archive :=
      Option.some.inj ((okOr_eq_ok.mp harchive).symm.trans hparse)
    refine .bind .const fun _ ↦ ?_
    refine .bind (Q := fun outcome _ ↦ outcome.toOption = none ∨ archive'.length ≤ maxEntries)
      (Program.Triple.attempt (P := fun _ ↦ True) (Q := fun _ _ ↦ archive'.length ≤ maxEntries)
        (E := fun _ _ ↦ True) ?_ (fun _ _ h ↦ .inr h) fun _ _ _ ↦ .inl rfl) fun outcome ↦ ?_
    · refine .bind (Q := fun _ _ ↦ archive'.length ≤ maxEntries) ?_ fun _ ↦ .const
      exact .require_bind (fun hcount _ _ ↦ Program.Triple.const _ hcount) fun _ _ _ ↦ trivial
    · refine .bind (Q := fun _ _ ↦ outcome.toOption = none ∨ archive'.length ≤ maxEntries) .const
        fun _ s hs ↦ ?_
      cases outcome with
      | error e => exact trivial
      | ok outcome =>
        rcases hs with hnone | hcount
        · cases hnone
        · exact ⟨require_eq_ok.mp hsize, hcount⟩
  exact hspec.ok trivial hexec

/-- What is packed follows from the contents, once the default limits are met. -/
theorem exportSkillZip_eq_ok {blobs : BlobStore} {bytes : ByteArray}
    (hvalid : (manifestOf libs contents).Valid .default)
    (hfits : (manifestOf libs contents).NoFileIsDirectory) (hheld : AreHeld libs blobs contents)
    (hjson : libs.fromSlice (manifestBytes libs contents) = some (manifestOf libs contents).toDocument)
    (hdigests : Set.InjOn libs.hashBytes (bytesInPlay libs blobs contents)) :
    exportSkillZip libs zips blobs (refOf libs contents).manifestHash = .ok bytes ↔
      zips.write (archiveOf contents) = some bytes := by
  obtain ⟨made, hmade, htree, -⟩ := materialize_of_held hvalid hfits hheld hjson hdigests
  have hmembers := writeZipTree_eq_ok (contents_nodup hvalid) htree
  unfold exportSkillZip materializeSnapshot
  rw [hmade]
  simp only [bind_eq_ok, mapError_eq_ok, Except.ok.injEq, exists_eq_left', hmembers, okOr_eq_ok]

/-- A captured snapshot that is exported and then imported makes a workspace with the same manifest
exactly if it is within the default limits and its archive passes the limits of an import. -/
theorem export_import_iff {tree : DirectoryTree} {blobs blobs' : BlobStore} {ref : SkillSnapshotRef}
    (hcapture : captureWorkspace libs blobs (.directory tree.entries) policy = .ok (blobs', ref))
    (hjson : libs.fromSlice (manifestBytes libs (contentsOf policy tree.entries)) =
      some (manifestOf libs (contentsOf policy tree.entries)).toDocument)
    (hdigests : Set.InjOn libs.hashBytes
      (bytesInPlay libs blobs' (contentsOf policy tree.entries)))
    (hzips : zips.ReadsBack) (hready : IsReady libs root staging skillId m)
    (hdigests' : Set.InjOn libs.hashBytes
      (bytesInPlay libs m.blobs (contentsOf policy tree.entries))) (zipPath fileName : String) :
    (∃ bytes outcome m' entries blobs'' ref',
      exportSkillZip libs zips blobs' ref.manifestHash = .ok bytes ∧
      Program.exec (importSkillZip libs zips (fun _ ↦ none) root staging
        ⟨zipPath, fileName, some (.file (.regular bytes))⟩ skillId) m = (.ok outcome, m') ∧
      Directory.tree? m'.disk outcome.workspace.path = some (.dir entries) ∧
      captureWorkspace libs m'.blobs (.directory entries) .default = .ok (blobs'', ref') ∧
      ref'.manifestHash = ref.manifestHash) ↔
    (manifestOf libs (contentsOf policy tree.entries)).Valid .default ∧
      FitsArchive zips (contentsOf policy tree.entries) := by
  obtain ⟨hcontents, hvalid, -, hheld, rfl⟩ := captureWorkspace_spec hcapture
  have hfits : (manifestOf libs (contentsOf policy tree.entries)).NoFileIsDirectory :=
    noFileIsDirectory_of_hasContents hcontents
  have hhash : isCanonicalSha256
      (libs.hashBytes (manifestBytes libs (contentsOf policy tree.entries))) = true :=
    (BlobStore.holds_iff.mp hheld.manifest).1
  have hnames : ∀ member ∈ archiveOf (contentsOf policy tree.entries), IsPortablePath member.name :=
    fun _ ↦ isPortablePath_of_mem_archiveOf fun _ ↦ isSource_of_valid hvalid
  have hexport := fun bytes hdefault ↦ @exportSkillZip_eq_ok libs zips _ _ bytes hdefault hfits hheld
    hjson hdigests
  constructor
  · rintro ⟨bytes, outcome, m', entries, blobs'', ref', hbytes, himport, -⟩
    have hdefault : (manifestOf libs (contentsOf policy tree.entries)).Valid .default := by
      obtain ⟨made, hmade, -⟩ := bind_eq_ok.mp hbytes
      obtain ⟨_, -, hmade⟩ := bind_eq_ok.mp (mapError_eq_ok.mp hmade)
      obtain ⟨_, -, hmade⟩ := bind_eq_ok.mp hmade
      obtain ⟨manifest, hmanifest, -⟩ := bind_eq_ok.mp hmade
      -- the manifest that is read has the stored bytes, whatever the limits
      obtain ⟨read, document, hread, hdocument, hparsed, -⟩ := readManifestWithPolicy_eq_ok.mp
        (readManifestWithPolicy_of_held hvalid hheld hjson hdigests)
      obtain ⟨read', document', hread', hdocument', hparsed', -, hdefault⟩ :=
        readManifestWithPolicy_eq_ok.mp hmanifest
      rw [hread, Except.ok.injEq] at hread'
      subst hread'
      rw [hdocument, Option.some.injEq] at hdocument'
      subst hdocument'
      rw [hparsed, Option.some.injEq] at hparsed'
      rwa [hparsed']
    have hwrite := (hexport bytes hdefault).mp hbytes
    obtain ⟨hsize, hcount⟩ := importSkillZip_limits rfl (hzips _ _ hnames hwrite) himport
    rw [List.length_map] at hcount
    exact ⟨hdefault, hcount, bytes, hwrite, hsize⟩
  · rintro ⟨hdefault, hcount, bytes, hwrite, hsize⟩
    have hfound : (⟨zipPath, fileName, some (.file (.regular bytes))⟩ : ZipFile).found =
        some (.file (.regular bytes)) := rfl
    obtain ⟨outcome, m', tree', himport, htree, hagain⟩ := importSkillZip_exported hready hdefault
      hfits hhash hjson hdigests' (hzips _ _ hnames hwrite) hcount hsize hfound
    exact ⟨bytes, outcome, m', _, _, _, (hexport bytes hdefault).mpr hwrite, himport, htree, hagain,
      rfl⟩

/-! ## A skill with a directory -/

/-- A library that knows one archive. -/
def libraryOf (members : List ZipMember) (archive : ByteArray) : ZipLibrary where
  write ms := if ms = members then some archive else none
  parse bytes := if bytes = archive then some (members.map fun member ↦ some member.entry) else none

theorem readsBack_libraryOf (members : List ZipMember) (archive : ByteArray) :
    (libraryOf members archive).ReadsBack := by
  intro ms bytes _ hwrite
  unfold libraryOf at hwrite ⊢
  dsimp only at hwrite ⊢
  split at hwrite
  case isTrue heq =>
    cases hwrite
    rw [if_pos rfl, heq]
  case isFalse => cases hwrite

theorem write_libraryOf (members : List ZipMember) (archive : ByteArray) :
    (libraryOf members archive).write members = some archive := by
  unfold libraryOf
  exact if_pos rfl

/-- The files of the sample and their directory, in the order of an export. -/
def plainNodes : List (List OsName × FileNode Leaf) :=
  [([.text "SKILL.md"], .file (.regular sampleSkill)), ([.text "docs"], .directory),
    ([.text "docs", .text "guide.md"], .file (.regular sampleSkill))]

def plainMembers : List ZipMember :=
  [⟨"SKILL.md", some sampleSkill⟩, ⟨"docs", none⟩, ⟨"docs/guide.md", some sampleSkill⟩]

/-- The archive with these members, compressed. -/
def plainArchive : ByteArray := ⟨#[
  80, 75, 3, 4, 20, 0, 0, 0, 8, 0, 0, 0, 33, 0, 61, 248, 224, 151, 10, 0, 0, 0, 8, 0, 0, 0, 8, 0, 0,
  0, 83, 75, 73, 76, 76, 46, 109, 100, 83, 86, 8, 206, 206, 204, 201, 225, 2, 0, 80, 75, 3, 4, 20,
  0, 0, 0, 0, 0, 0, 0, 33, 0, 0, 0, 0, 0, 0, 0, 0, 0, 0, 0, 0, 0, 5, 0, 0, 0, 100, 111, 99, 115, 47,
  80, 75, 3, 4, 20, 0, 0, 0, 8, 0, 0, 0, 33, 0, 61, 248, 224, 151, 10, 0, 0, 0, 8, 0, 0, 0, 13, 0,
  0, 0, 100, 111, 99, 115, 47, 103, 117, 105, 100, 101, 46, 109, 100, 83, 86, 8, 206, 206, 204, 201,
  225, 2, 0, 80, 75, 1, 2, 20, 3, 20, 0, 0, 0, 8, 0, 0, 0, 33, 0, 61, 248, 224, 151, 10, 0, 0, 0, 8,
  0, 0, 0, 8, 0, 0, 0, 0, 0, 0, 0, 0, 0, 0, 0, 164, 129, 0, 0, 0, 0, 83, 75, 73, 76, 76, 46, 109,
  100, 80, 75, 1, 2, 20, 3, 20, 0, 0, 0, 0, 0, 0, 0, 33, 0, 0, 0, 0, 0, 0, 0, 0, 0, 0, 0, 0, 0, 5,
  0, 0, 0, 0, 0, 0, 0, 0, 0, 16, 0, 164, 65, 48, 0, 0, 0, 100, 111, 99, 115, 47, 80, 75, 1, 2, 20,
  3, 20, 0, 0, 0, 8, 0, 0, 0, 33, 0, 61, 248, 224, 151, 10, 0, 0, 0, 8, 0, 0, 0, 13, 0, 0, 0, 0, 0,
  0, 0, 0, 0, 0, 0, 164, 129, 83, 0, 0, 0, 100, 111, 99, 115, 47, 103, 117, 105, 100, 101, 46, 109,
  100, 80, 75, 5, 6, 0, 0, 0, 0, 3, 0, 3, 0, 164, 0, 0, 0, 136, 0, 0, 0, 0, 0]⟩

/-- A machine without any workspace, and without any blob. -/
def emptyMachine : Machine where
  disk := [(.text "workspaces", .dir [])]
  blobs := .empty
  written := 0
  calls := 0

theorem isReady_emptyMachine (libs : Libraries) :
    IsReady libs [.text "workspaces"] [.text "import"] "# Skill\n" emptyMachine where
  distinct := by simp [emptyMachine, Directory.Distinct, FileTree.Distinct]
  apart := ⟨by decide, by decide⟩
  stagingFree := by decide
  stagingPlace := ⟨_, rfl⟩
  rootDirectory := by decide
  validId := by decide
  free := rfl
  intact blob hblob := by simp [emptyMachine, Table.mem_iff_mem_rows] at hblob

theorem bytesInPlay_empty_subset (libs : Libraries) (blobs : BlobStore)
    (contents : List (String × ByteArray)) :
    bytesInPlay libs .empty contents ⊆ bytesInPlay libs blobs contents := by
  rintro bytes (⟨blob, hblob, -⟩ | hbytes)
  · simp [Table.mem_iff_mem_rows] at hblob
  · exact .inr hbytes

theorem nodesOf_plain : (nodesOf (sampleContents plainPaths)).Perm plainNodes := by
  have hguide : pathNames "docs/guide.md" = [.text "docs", .text "guide.md"] := by decide
  have hskill : pathNames "SKILL.md" = [.text "SKILL.md"] := pathNames_skillEntrypoint
  have hdirs : directoriesOf (sampleContents plainPaths) = [[.text "docs"]] := by decide
  unfold nodesOf
  rw [hdirs]
  simp only [sampleContents, plainPaths, List.map_cons, List.map_nil, hguide, hskill]
  exact List.Perm.swap ..

theorem archiveOf_plain : archiveOf (sampleContents plainPaths) = plainMembers := by
  have hkeys : ∀ a ∈ plainNodes, ∀ b ∈ plainNodes,
      a.1.map OsName.bytes = b.1.map OsName.bytes → a = b := by decide +kernel
  have hsorted : sortByComponents plainNodes = plainNodes := by
    apply List.mergeSort_of_pairwise
    decide +kernel
  unfold archiveOf
  rw [sortByComponents_eq_of_perm nodesOf_plain hkeys, hsorted]
  decide +kernel

theorem export_import_plain :
    ∃ bytes outcome m' entries blobs'' ref',
      exportSkillZip plainLibraries (libraryOf plainMembers plainArchive) plainStore
        (refOf plainLibraries (sampleContents plainPaths)).manifestHash = .ok bytes ∧
      Program.exec (importSkillZip plainLibraries (libraryOf plainMembers plainArchive) (fun _ ↦ none)
        [.text "workspaces"] [.text "import"] ⟨"/skill.zip", "skill.zip", some (.file (.regular bytes))⟩
        "# Skill\n") emptyMachine = (.ok outcome, m') ∧
      Directory.tree? m'.disk outcome.workspace.path = some (.dir entries) ∧
      captureWorkspace plainLibraries m'.blobs (.directory entries) .default = .ok (blobs'', ref') ∧
      ref'.manifestHash = (refOf plainLibraries (sampleContents plainPaths)).manifestHash := by
  refine (export_import_iff capture_plainTree fromSlice_plainTree injOn_plainTree
    (readsBack_libraryOf _ _) (isReady_emptyMachine _)
    (injOn_plainTree.mono (bytesInPlay_empty_subset _ _ _)) "/skill.zip" "skill.zip").mpr ?_
  rw [contentsOf_plainTree]
  refine ⟨valid_plain, ?_⟩
  unfold FitsArchive
  rw [archiveOf_plain]
  have hsize : plainArchive.size = 322 := by decide +kernel
  refine ⟨by decide, plainArchive, write_libraryOf _ _, ?_⟩
  rw [hsize]
  decide

/-! ## A skill with many directories -/

/-- The name of a directory: one of the ideographs. -/
def wideName (i : ℕ) : String := String.ofList [Char.ofNat (0x4E00 + i)]

/-- A file in a directory of its own. -/
def widePath (i : ℕ) : String := String.ofList [Char.ofNat (0x4E00 + i), '/', 'f']

/-- The paths of a skill with 5002 files in 5001 directories. -/
def widePaths : List String := "SKILL.md" :: (List.range 5001).map widePath

def wideDigest : String := "sha256:26209e332f1e013cd98a62ec744dbb9adcfe3bd2f3acea26070ef182164410ac"

/-- The directory of the skill. -/
def wideEntries : SourceDirectory :=
  (.text "SKILL.md", .file (.regular sampleSkill)) :: (List.range 5001).map fun i ↦
    (.text (wideName i), .dir [(.text "f", .file (.regular sampleSkill))])

theorem toNat_wide {i : ℕ} (hi : i < 5001) : (Char.ofNat (0x4E00 + i)).toNat = 0x4E00 + i := by
  have hvalid : (0x4E00 + i).isValidChar := .inl (by omega)
  unfold Char.ofNat
  rw [dif_pos hvalid]
  rfl

theorem wide_ne {i : ℕ} (hi : i < 5001) {c : Char} (hc : c.toNat < 0x4E00) :
    Char.ofNat (0x4E00 + i) ≠ c := by
  rintro rfl
  rw [toNat_wide hi] at hc
  omega

theorem segments_widePath {i : ℕ} (hi : i < 5001) : segments (widePath i) = [wideName i, "f"] := by
  have hslash : Char.ofNat (0x4E00 + i) ≠ '/' := wide_ne hi (by decide)
  unfold segments widePath
  rw [String.toList_ofList, List.splitOn_cons_eq_if_modifyHead, if_neg (by simpa using hslash)]
  rfl

theorem isPortableSegment_wideName {i : ℕ} (hi : i < 5001) :
    isPortableSegment (wideName i) = true := by
  have hlength : (wideName i).toList.length = 1 := by simp [wideName]
  have hlow := toNat_wide hi
  have hspecial : Char.ofNat (0x4E00 + i) ∉ "<>:\"\\|?*".toList := by
    intro hmem
    have hascii : ("<>:\"\\|?*".toList.all fun c ↦ decide (c.toNat < 0x4E00)) = true := by decide
    have := of_decide_eq_true (List.all_eq_true.mp hascii _ hmem)
    omega
  have hportable : isUnportable (Char.ofNat (0x4E00 + i)) = false := by
    unfold isUnportable
    rw [hlow]
    simp only [Bool.or_eq_false_iff, decide_eq_false_iff_not, Bool.and_eq_false_iff]
    refine ⟨⟨by omega, .inr (by omega)⟩, ?_⟩
    simpa using hspecial
  have hreserved : isReserved (wideName i) = false := by
    have hstem : ((((wideName i).toList.takeWhile fun c ↦ c ≠ '.').map Char.toUpper)).length ≤ 1 := by
      rw [List.length_map, ← hlength]
      exact (List.takeWhile_prefix _).length_le
    unfold isReserved
    dsimp only
    generalize ((wideName i).toList.takeWhile fun c ↦ c ≠ '.').map Char.toUpper = stem at hstem
    have hne : ∀ device : List Char, 1 < device.length → stem ≠ device := by
      rintro device hdevice rfl
      omega
    simp only [Bool.or_eq_false_iff, List.any_eq_false, decide_eq_true_eq]
    refine ⟨fun device hdevice ↦ hne _ ?_, fun port hport ↦ ?_⟩
    · have hall : ∀ device ∈ ["CON", "PRN", "AUX", "NUL"], 1 < device.toList.length := by decide
      exact hall device hdevice
    · rw [Bool.not_eq_true, List.any_eq_false]
      intro digit _
      rw [decide_eq_true_eq]
      refine hne _ ?_
      have hall : ∀ port ∈ ["COM", "LPT"], 1 < port.toList.length := by decide
      rw [List.length_append]
      exact Nat.lt_add_right _ (hall port hport)
  have hchars : (wideName i).toList = [Char.ofNat (0x4E00 + i)] := String.toList_ofList
  have hsize : (wideName i).utf8ByteSize ≤ 255 := by
    change (String.singleton (Char.ofNat (0x4E00 + i))).utf8ByteSize ≤ 255
    rw [String.utf8ByteSize_singleton]
    exact (Char.utf8Size_le_four _).trans (by decide)
  have hother : ∀ value : String, (value.toList.all fun c ↦ decide (c.toNat < 0x4E00)) = true →
      wideName i ≠ value := by
    rintro value hvalue rfl
    have hmem : Char.ofNat (0x4E00 + i) ∈ (wideName i).toList := by
      rw [hchars]
      exact List.mem_singleton_self _
    have := of_decide_eq_true (List.all_eq_true.mp hvalue _ hmem)
    omega
  unfold isPortableSegment
  rw [decide_eq_true_iff]
  refine ⟨hother _ (by decide), hother _ (by decide), hother _ (by decide), hsize, ?_, ?_, ?_, hreserved⟩
  · rw [hchars]
    simpa using wide_ne hi (by decide)
  · rw [hchars]
    simpa using wide_ne hi (by decide)
  · rw [hchars]
    simpa using hportable

theorem mem_widePaths {path : String} :
    path ∈ widePaths ↔ path = "SKILL.md" ∨ ∃ i < 5001, widePath i = path := by
  unfold widePaths
  simp only [List.mem_cons, List.mem_map, List.mem_range]

theorem widePaths_sorted : widePaths.Pairwise (· < ·) := by
  have hchars : ∀ i, (widePath i).toList = [Char.ofNat (0x4E00 + i), '/', 'f'] :=
    fun i ↦ String.toList_ofList
  have hlt : ∀ {c d : Char}, c.toNat < d.toNat → c < d := fun h ↦ h
  refine List.pairwise_cons.mpr ⟨fun path hpath ↦ ?_, ?_⟩
  · obtain ⟨i, hi, rfl⟩ := List.mem_map.mp hpath
    have hfirst : 'S' < Char.ofNat (0x4E00 + i) := hlt (by
      rw [toNat_wide (List.mem_range.mp hi)]
      exact Nat.lt_add_right _ (by decide))
    rw [String.lt_iff_toList_lt, hchars]
    exact List.Lex.rel hfirst
  · refine List.pairwise_map.mpr ((List.pairwise_lt_range).imp_of_mem ?_)
    intro i j hi hj hij
    rw [List.mem_range] at hi hj
    have hfirst : Char.ofNat (0x4E00 + i) < Char.ofNat (0x4E00 + j) := hlt (by
      rw [toNat_wide hi, toNat_wide hj]
      omega)
    rw [String.lt_iff_toList_lt, hchars, hchars]
    exact List.Lex.rel hfirst

theorem valid_wide : (manifestOf (sampleLibraries widePaths wideDigest)
    (sampleContents widePaths)).Valid .default := by
  have hlength : widePaths.length = 5002 := by simp [widePaths]
  have htotal : totalBytes (sampleManifest widePaths).files = 40016 := by
    unfold totalBytes sampleManifest
    rw [List.map_map]
    change (widePaths.map fun _ ↦ 8).sum = 40016
    rw [List.map_const', List.sum_replicate, hlength]
    rfl
  rw [manifestOf_sampleContents]
  refine ⟨?_, fun file hfile ↦ ?_, ?_, ?_, ?_⟩
  · change (widePaths.map _).length ≤ 10000
    rw [List.length_map, hlength]
    decide
  · obtain ⟨path, hpath, rfl⟩ := List.mem_map.mp hfile
    have hhash : isCanonicalSha256 sampleSkillHash = true := by decide
    have hsize : 8 ≤ SnapshotPolicy.default.maxFileBytes := by decide
    refine ⟨isPortablePath_iff.mpr ?_, hhash, hsize⟩
    rcases mem_widePaths.mp hpath with rfl | ⟨i, hi, rfl⟩
    · decide
    · rw [segments_widePath hi]
      exact List.forall_mem_cons.mpr ⟨isPortableSegment_wideName hi, by decide⟩
  · have hpaths : (sampleManifest widePaths).files.map SkillSnapshotFile.path = widePaths := by
      unfold sampleManifest
      rw [List.map_map]
      exact List.map_id _
    rw [hpaths]
    exact widePaths_sorted
  · exact ⟨_, List.mem_map_of_mem (mem_widePaths.mpr (.inl rfl)), rfl⟩
  · rw [htotal]
    decide

theorem wideName_injOn : ∀ i < 5001, ∀ j < 5001, wideName i = wideName j → i = j := by
  intro i hi j hj h
  have hchars := congrArg String.toList h
  unfold wideName at hchars
  rw [String.toList_ofList, String.toList_ofList, List.cons.injEq] at hchars
  have hnat := congrArg Char.toNat hchars.1
  rw [toNat_wide hi, toNat_wide hj] at hnat
  omega

theorem files_wideEntries : Directory.files wideEntries = (sampleContents widePaths).map sourceNode := by
  have hfile : (FileTree.dir [(OsName.text "f", FileTree.file (Leaf.regular sampleSkill))]).files =
      [([OsName.text "f"], Leaf.regular sampleSkill)] := by
    simp [FileTree.files, Directory.files]
  have hentry : sourceNode ("SKILL.md", sampleSkill) =
      ([.text "SKILL.md"], .regular sampleSkill) := congrArg (·, _) pathNames_skillEntrypoint
  have hrest : ((List.range 5001).map fun i ↦ (OsName.text (wideName i),
      FileTree.dir [(OsName.text "f", FileTree.file (Leaf.regular sampleSkill))])).flatMap
        (fun entry ↦ entry.2.files.map fun file ↦ (entry.1 :: file.1, file.2)) =
      (List.range 5001).map fun i ↦ sourceNode (widePath i, sampleSkill) := by
    rw [List.flatMap_map, List.map_eq_flatMap]
    refine List.flatMap_congr fun i hi ↦ ?_
    rw [hfile, sourceNode, pathNames, segments_widePath (List.mem_range.mp hi)]
    rfl
  unfold wideEntries sampleContents widePaths
  rw [Directory.files_eq_flatMap, List.flatMap_cons, hrest, FileTree.files, List.map_cons,
    List.map_nil, List.map_cons, List.map_map, List.map_cons, List.map_map, hentry]
  rfl

theorem distinct_wideEntries : Directory.Distinct wideEntries := by
  unfold wideEntries
  refine Directory.distinct_iff.mpr ⟨?_, fun entry hentry ↦ ?_⟩
  · rw [List.map_cons, List.map_map, List.nodup_cons]
    refine ⟨fun hmem ↦ ?_, ?_⟩
    · obtain ⟨i, -, heq⟩ := List.mem_map.mp hmem
      have hlength := congrArg (fun name ↦ (OsName.toStringLossy name).toList.length) heq
      simp [OsName.toStringLossy, wideName] at hlength
    · refine List.Nodup.map_on ?_ List.nodup_range
      intro i hi j hj heq
      exact wideName_injOn i (List.mem_range.mp hi) j (List.mem_range.mp hj) (OsName.text.inj heq)
  · rcases List.mem_cons.mp hentry with rfl | hentry
    · simp [FileTree.Distinct]
    · obtain ⟨i, -, rfl⟩ := List.mem_map.mp hentry
      simp [FileTree.Distinct, Directory.Distinct]

/-- Every file but one brings a directory with it. -/
theorem length_archiveOf_wide : maxEntries < (archiveOf (sampleContents widePaths)).length := by
  have hdirs : (List.range 5001).map (fun i ↦ [OsName.text (wideName i)]) ⊆
      directoriesOf (sampleContents widePaths) := by
    intro path hpath
    obtain ⟨i, hi, rfl⟩ := List.mem_map.mp hpath
    have hi := List.mem_range.mp hi
    have hsource : (widePath i, sampleSkill) ∈ sampleContents widePaths :=
      List.mem_map_of_mem (mem_widePaths.mpr (.inr ⟨i, hi, rfl⟩))
    refine mem_directoriesOf.mpr ⟨List.cons_ne_nil _ _, _, hsource, ?_⟩
    rw [pathNames, segments_widePath hi]
    exact ⟨⟨[.text "f"], rfl⟩, by simp⟩
  have hnodup : ((List.range 5001).map fun i ↦ [OsName.text (wideName i)]).Nodup := by
    refine List.Nodup.map_on ?_ List.nodup_range
    intro i hi j hj heq
    exact wideName_injOn i (List.mem_range.mp hi) j (List.mem_range.mp hj)
      (OsName.text.inj (List.cons.inj heq).1)
  have hcount := (hnodup.subperm hdirs).length_le
  have hfiles : (sampleContents widePaths).length = 5002 := by simp [sampleContents, widePaths]
  unfold archiveOf nodesOf sortByComponents
  rw [List.length_map, List.length_mergeSort, List.length_append, List.length_map, List.length_map,
    hfiles]
  rw [List.length_map, List.length_range] at hcount
  have hmax : maxEntries = 10000 := rfl
  omega

/-- A skill with 5002 files in 5001 directories is captured, but what is exported of it is not
imported. -/
theorem wide_not_imported :
    ∃ tree : DirectoryTree, tree.entries = wideEntries ∧
      captureWorkspace (sampleLibraries widePaths wideDigest)
        (sampleStore widePaths wideDigest (by decide)) (.directory tree.entries) .default =
          .ok (sampleStore widePaths wideDigest (by decide),
            refOf (sampleLibraries widePaths wideDigest) (sampleContents widePaths)) ∧
      IsReady (sampleLibraries widePaths wideDigest) [.text "workspaces"] [.text "import"]
        "# Skill\n" emptyMachine ∧
      ¬ ∃ bytes outcome m',
        exportSkillZip (sampleLibraries widePaths wideDigest)
          (libraryOf (archiveOf (sampleContents widePaths)) ⟨#[80, 75]⟩)
          (sampleStore widePaths wideDigest (by decide))
          (refOf (sampleLibraries widePaths wideDigest) (sampleContents widePaths)).manifestHash =
            .ok bytes ∧
        Program.exec (importSkillZip (sampleLibraries widePaths wideDigest)
          (libraryOf (archiveOf (sampleContents widePaths)) ⟨#[80, 75]⟩) (fun _ ↦ none)
          [.text "workspaces"] [.text "import"]
          ⟨"/skill.zip", "skill.zip", some (.file (.regular bytes))⟩ "# Skill\n") emptyMachine =
            (.ok outcome, m') := by
  obtain ⟨tree, htree, hcontents⟩ :=
    exists_tree_of_perm valid_wide distinct_wideEntries (.of_eq files_wideEntries)
  have hheld := @areHeld_sampleContents wideDigest widePaths (by decide) (by decide)
  have hcapture := captureWorkspace_of_holds hcontents valid_wide hheld
  have hjson : (sampleLibraries widePaths wideDigest).fromSlice (manifestBytes
      (sampleLibraries widePaths wideDigest) (sampleContents widePaths)) =
        some (manifestOf (sampleLibraries widePaths wideDigest)
          (sampleContents widePaths)).toDocument := by
    rw [manifestOf_sampleContents]
    simp [manifestBytes, sampleLibraries]
  refine ⟨tree, htree, hcapture, isReady_emptyMachine _, ?_⟩
  rintro ⟨bytes, outcome, m', hexport, himport⟩
  have hwrite := (exportSkillZip_eq_ok valid_wide (noFileIsDirectory_of_hasContents hcontents) hheld
    hjson (injOn_bytesInPlay_sample (by decide))).mp hexport
  have hnames : ∀ member ∈ archiveOf (sampleContents widePaths), IsPortablePath member.name :=
    fun _ ↦ isPortablePath_of_mem_archiveOf fun _ ↦ isSource_of_valid valid_wide
  obtain ⟨-, hcount⟩ := importSkillZip_limits rfl (readsBack_libraryOf _ _ _ _ hnames hwrite) himport
  rw [List.length_map] at hcount
  exact absurd hcount (Nat.not_le.mpr length_archiveOf_wide)

end Workspace

end SkillHive
