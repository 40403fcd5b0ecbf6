import Mathlib.Data.List.Dedup
import Mathlib.Data.List.Infix
import Mathlib.Data.List.Perm.Subperm
import SkillHive.Workspace.Archives

/-!
# What an export packs

A snapshot lists files only. An export materializes it and packs the directories as well, so the
archive has a member for every file and one for every directory on the way to a file, in the order
of their paths. Which members these are is said here from the contents of the snapshot alone.
-/

namespace SkillHive

open Foundation Snapshot

namespace Workspace

/-- The directories on the way to the files. -/
def directoriesOf (contents : List (String × ByteArray)) : List (List OsName) :=
  (contents.flatMap fun source ↦
    (pathNames source.1).inits.filter fun path ↦ path ≠ [] ∧ path ≠ pathNames source.1).dedup

/-- The files, and the directories on the way to them. -/
def nodesOf (contents : List (String × ByteArray)) : List (List OsName × FileNode Leaf) :=
  (directoriesOf contents).map (fun path ↦ (path, .directory)) ++
    contents.map fun source ↦ (pathNames source.1, .file (.regular source.2))

/-- What a node is packed as. -/
def memberOf (node : List OsName × FileNode Leaf) : ZipMember where
  name := entryName node.1
  content :=
    match node.2 with
    | .file (.regular bytes) => some bytes
    | _ => none

/-- The members of the archive of a snapshot with these contents. -/
def archiveOf (contents : List (String × ByteArray)) : List ZipMember :=
  (sortByComponents (nodesOf contents)).map memberOf

variable {contents : List (String × ByteArray)} {path : List OsName}

theorem mem_directoriesOf :
    path ∈ directoriesOf contents ↔ path ≠ [] ∧
      ∃ source ∈ contents, path <+: pathNames source.1 ∧ path ≠ pathNames source.1 := by
  unfold directoriesOf
  rw [List.mem_dedup, List.mem_flatMap]
  simp only [List.mem_filter, List.mem_inits, decide_eq_true_eq]
  constructor
  · rintro ⟨source, hsource, hinitial, hne, hproper⟩
    exact ⟨hne, source, hsource, hinitial, hproper⟩
  · rintro ⟨hne, source, hsource, hinitial, hproper⟩
    exact ⟨source, hsource, hinitial, hne, hproper⟩

theorem mem_nodesOf {node : FileNode Leaf} :
    (path, node) ∈ nodesOf contents ↔ (path ∈ directoriesOf contents ∧ node = .directory) ∨
      ∃ source ∈ contents, path = pathNames source.1 ∧ node = .file (.regular source.2) := by
  unfold nodesOf
  rw [List.mem_append, List.mem_map, List.mem_map]
  simp only [Prod.mk.injEq]
  constructor
  · rintro (⟨path, hpath, rfl, rfl⟩ | ⟨source, hsource, rfl, rfl⟩)
    · exact .inl ⟨hpath, rfl⟩
    · exact .inr ⟨source, hsource, rfl, rfl⟩
  · rintro (⟨hpath, rfl⟩ | ⟨source, hsource, rfl, rfl⟩)
    · exact .inl ⟨path, hpath, rfl, rfl⟩
    · exact .inr ⟨source, hsource, rfl, rfl⟩

/-! ## The listing of a materialized snapshot -/

/-- Everything below a directory with just these files. -/
theorem nodes_perm_nodesOf {entries : SourceDirectory} (hnodup : (contents.map Prod.fst).Nodup)
    (h : Directory.IsTreeOf (contents.map sourceNode) entries) :
    (Directory.nodes entries).Perm (nodesOf contents) := by
  refine (List.perm_ext_iff_of_nodup (.of_map Prod.fst (Directory.nodes_nodup h.distinct)) ?_).mpr ?_
  · refine List.Nodup.append ?_ ?_ ?_
    · exact (List.nodup_dedup _).map fun path path' heq ↦ (Prod.mk.inj heq).1
    · refine hnodup.of_map.map fun source source' heq ↦ ?_
      obtain ⟨hpath, hnode⟩ := Prod.mk.inj heq
      exact Prod.ext (pathNames_injective hpath) (Leaf.regular.inj (FileNode.file.inj hnode))
    · intro node hdir hfile
      obtain ⟨path, -, rfl⟩ := List.mem_map.mp hdir
      obtain ⟨source, -, heq⟩ := List.mem_map.mp hfile
      cases (Prod.mk.inj heq).2
  · rintro ⟨path, node⟩
    rw [Directory.mem_nodes_iff h.distinct, mem_nodesOf, mem_directoriesOf]
    have hfile : ∀ source ∈ contents,
        Directory.node? entries (pathNames source.1) = some (.file (.regular source.2)) :=
      fun source hsource ↦ (h.file_iff _ _).mpr (List.mem_map_of_mem hsource)
    constructor
    · rintro ⟨hne, hnode⟩
      cases node with
      | directory =>
        obtain ⟨file, hmem, hinitial⟩ := (h.directory path hnode).resolve_left hne
        obtain ⟨source, hsource, rfl⟩ := List.mem_map.mp hmem
        refine .inl ⟨⟨hne, source, hsource, hinitial, ?_⟩, rfl⟩
        rintro rfl
        rw [hfile source hsource] at hnode
        cases hnode
      | file leaf =>
        obtain ⟨source, hsource, heq⟩ := List.mem_map.mp ((h.file_iff path leaf).mp hnode)
        obtain ⟨rfl, rfl⟩ := Prod.mk.inj heq
        exact .inr ⟨source, hsource, rfl, rfl⟩
    · rintro (⟨⟨hne, source, hsource, ⟨rest, hrest⟩, hproper⟩, rfl⟩ | ⟨source, hsource, rfl, rfl⟩)
      · have hproper : rest ≠ [] := by
          rintro rfl
          exact hproper (by rw [← hrest, List.append_nil])
        refine ⟨hne, Directory.node?_append hproper ?_⟩
        rw [hrest, hfile source hsource]
        exact Option.some_ne_none _
      · refine ⟨?_, hfile source hsource⟩
        obtain ⟨name, hname⟩ := pathNames_eq_concat source.1
        rw [hname]
        simp

/-- Lists with the same elements are sorted alike, if no two share their path. -/
theorem sortByComponents_eq_of_perm {α : Type} {as bs : List (List OsName × α)} (hperm : as.Perm bs)
    (hkeys : ∀ a ∈ bs, ∀ b ∈ bs, a.1.map OsName.bytes = b.1.map OsName.bytes → a = b) :
    sortByComponents as = sortByComponents bs := by
  have hsorted : ∀ nodes : List (List OsName × α), (sortByComponents nodes).Pairwise
      fun left right ↦ left.1.map OsName.bytes ≤ right.1.map OsName.bytes := by
    intro nodes
    refine (List.pairwise_mergeSort ?_ ?_ nodes).imp of_decide_eq_true
    · intro a b c hab hbc
      exact decide_eq_true (List.le_trans (of_decide_eq_true hab) (of_decide_eq_true hbc))
    · intro a b
      simpa using List.le_total (a.1.map OsName.bytes) (b.1.map OsName.bytes)
  have hsame : (sortByComponents as).Perm (sortByComponents bs) :=
    (List.mergeSort_perm _ _).trans (hperm.trans (List.mergeSort_perm _ _).symm)
  refine List.Perm.eq_of_pairwise ?_ (hsorted as) (hsorted bs) hsame
  intro a b ha hb hle hge
  have hmem := (List.mergeSort_perm bs _).mem_iff.mp hb
  have hmem' := (List.mergeSort_perm bs _).mem_iff.mp (hsame.mem_iff.mp ha)
  exact hkeys a hmem' b hmem (List.le_antisymm hle hge)

theorem bytes_text_injective : Function.Injective fun value ↦ OsName.bytes (.text value) := by
  intro value value' h
  have hdata : value.toUTF8.data = value'.toUTF8.data := Array.toList_inj.mp h
  exact String.toByteArray_inj.mp (ByteArray.ext hdata)

/-- All the names are text. -/
theorem exists_parts_of_mem_nodesOf {node : List OsName × FileNode Leaf}
    (h : node ∈ nodesOf contents) :
    ∃ parts rest, ∃ source ∈ contents, parts ≠ [] ∧ node.1 = parts.map OsName.text ∧
      segments source.1 = parts ++ rest := by
  obtain ⟨path, node⟩ := node
  rcases mem_nodesOf.mp h with ⟨hdir, -⟩ | ⟨source, hsource, rfl, -⟩
  · obtain ⟨hne, source, hsource, hinitial, -⟩ := mem_directoriesOf.mp hdir
    obtain ⟨parts, ⟨rest, hrest⟩, rfl⟩ := List.prefix_map_iff.mp hinitial
    exact ⟨parts, rest, source, hsource, fun hnil ↦ hne (by rw [hnil]; rfl), rfl, hrest.symm⟩
  · exact ⟨segments source.1, [], source, hsource, segments_ne_nil _, rfl, (List.append_nil _).symm⟩

theorem zipMember_eq_ok {node : List OsName × FileNode Leaf} (h : node ∈ nodesOf contents) :
    zipMember node = .ok (memberOf node) := by
  obtain ⟨path, node⟩ := node
  rcases mem_nodesOf.mp h with ⟨-, rfl⟩ | ⟨source, -, rfl, rfl⟩ <;> rfl

theorem foldE_zipMember {nodes : List (List OsName × FileNode Leaf)} {done : List ZipMember}
    (h : ∀ node ∈ nodes, zipMember node = .ok (memberOf node)) :
    foldE (fun members node ↦ do
      let member ← zipMember node
      .ok (members ++ [member])) done nodes = .ok (done ++ nodes.map memberOf) := by
  induction nodes generalizing done with
  | nil => rw [foldE, List.map_nil, List.append_nil]
  | cons node nodes ih =>
    obtain ⟨hfirst, hrest⟩ := List.forall_mem_cons.mp h
    refine foldE_cons_eq_ok.mpr ⟨done ++ [memberOf node], bind_eq_ok.mpr ⟨_, hfirst, rfl⟩, ?_⟩
    rw [ih hrest, List.map_cons, List.append_assoc, List.singleton_append]

/-- The archive of a materialized snapshot has the members that its contents tell. -/
theorem writeZipTree_eq_ok {entries : SourceDirectory} (hnodup : (contents.map Prod.fst).Nodup)
    (h : Directory.IsTreeOf (contents.map sourceNode) entries) :
    writeZipTree entries = .ok (archiveOf contents) := by
  have hsort : sortByComponents (Directory.nodes entries) = sortByComponents (nodesOf contents) := by
    refine sortByComponents_eq_of_perm (nodes_perm_nodesOf hnodup h) ?_
    rintro ⟨path, node⟩ ha ⟨path', node'⟩ hb hkey
    obtain ⟨parts, -, -, -, -, rfl, -⟩ := exists_parts_of_mem_nodesOf ha
    obtain ⟨parts', -, -, -, -, rfl, -⟩ := exists_parts_of_mem_nodesOf hb
    rw [List.map_map, List.map_map] at hkey
    obtain rfl : parts = parts' := bytes_text_injective.list_map hkey
    have hperm := nodes_perm_nodesOf hnodup h
    have hnode := ((Directory.mem_nodes_iff h.distinct).mp (hperm.mem_iff.mpr ha)).2
    rw [((Directory.mem_nodes_iff h.distinct).mp (hperm.mem_iff.mpr hb)).2] at hnode
    rw [Option.some.inj hnode]
  unfold writeZipTree
  rw [hsort, foldE_zipMember, List.nil_append]
  · rfl
  · exact fun node hnode ↦ zipMember_eq_ok ((List.mergeSort_perm _ _).mem_iff.mp hnode)

/-! ## The names of the members -/

variable {parts : List String} {name : String}

theorem isPortablePath_joinSegments (hne : parts ≠ [])
    (hparts : ∀ part ∈ parts, isPortableSegment part = true ∧ '/' ∉ part.toList) :
    IsPortablePath (joinSegments parts) ∧ segments (joinSegments parts) = parts := by
  have hsegments := segments_joinSegments hne fun part hpart ↦ (hparts part hpart).2
  refine ⟨isPortablePath_iff.mpr ?_, hsegments⟩
  rw [hsegments]
  exact fun part hpart ↦ (hparts part hpart).1

theorem entryName_text (h : IsPortablePath (joinSegments parts)) :
    entryName (parts.map OsName.text) = joinSegments parts := by
  have hnames : (parts.map OsName.text).map OsName.toStringLossy = parts := by
    rw [List.map_map]
    exact List.map_id parts
  have hchars : (joinSegments parts).toList.map (fun c ↦ if c = '\\' then '/' else c) =
      (joinSegments parts).toList := by
    refine (List.map_congr_left fun c hc ↦ if_neg ?_).trans (List.map_id _)
    rintro rfl
    exact h.noBackslash hc
  unfold entryName
  rw [hnames, hchars, String.ofList_toList]

/-- A name whose parts are portable, with or without a separator at the end. -/
theorem components_of_segments {rest : List String} (hrelative : isAbsolute name = false)
    (hsegments : segments name = parts ++ rest) (hne : parts ≠ [])
    (hparts : ∀ part ∈ parts, isPortableSegment part = true) (hrest : ∀ part ∈ rest, part = "") :
    components name = parts.map fun part ↦ .normal (.text part) := by
  have hplain : ∀ part ∈ parts, part ≠ "" ∧ part ≠ "." ∧ part ≠ ".." := by
    intro part hpart
    have hportable := hparts part hpart
    simp only [isPortableSegment, decide_eq_true_eq] at hportable
    exact ⟨hportable.1, hportable.2.1, hportable.2.2.1⟩
  have hhead : (segments name).head? ≠ some "." := by
    rw [hsegments]
    obtain ⟨first, others, rfl⟩ := List.exists_cons_of_ne_nil hne
    intro hdot
    exact (hplain first List.mem_cons_self).2.1 (Option.some.inj hdot)
  have hkeep : parts.filterMap component? = parts.map fun part ↦ .normal (.text part) := by
    rw [← List.filterMap_eq_map]
    refine List.filterMap_congr fun part hpart ↦ ?_
    obtain ⟨hempty, hdot, hparent⟩ := hplain part hpart
    simp [component?, hempty, hdot, hparent]
  have hskip : rest.filterMap component? = [] := by
    refine List.filterMap_eq_nil_iff.mpr fun part hpart ↦ ?_
    rw [hrest part hpart]
    rfl
  unfold components
  rw [hrelative, if_neg Bool.false_ne_true, if_neg hhead, hsegments, List.filterMap_append, hkeep,
    hskip, List.append_nil, List.nil_append]

theorem validateEntryName_of_segments {rest : List String} (hname : name ≠ "")
    (hbackslash : '\\' ∉ name.toList) (hrelative : isAbsolute name = false)
    (hsegments : segments name = parts ++ rest) (hne : parts ≠ [])
    (hparts : ∀ part ∈ parts, isPortableSegment part = true) (hrest : ∀ part ∈ rest, part = "")
    (base : List OsName) :
    validateEntryName name = .ok () ∧
      join (absolute base) name = absolute (base ++ parts.map OsName.text) := by
  have hcomponents := components_of_segments hrelative hsegments hne hparts hrest
  constructor
  · unfold validateEntryName
    refine bind_eq_ok.mpr ⟨(), require_eq_ok.mpr ⟨hname, hbackslash⟩, bind_eq_ok.mpr ⟨(),
      require_eq_ok.mpr hrelative, require_eq_ok.mpr ?_⟩⟩
    rw [hcomponents]
    intro component hcomponent
    obtain ⟨part, hpart, rfl⟩ := List.mem_map.mp hcomponent
    have hportable := hparts part hpart
    simp only [isPortableSegment, decide_eq_true_eq] at hportable
    simp [isPlainComponent, hportable.1, hportable.2.1, hportable.2.2.1]
  · rw [join, hrelative, if_neg Bool.false_ne_true, hcomponents, ← absolute_append, List.map_map]
    rfl

theorem segments_append_slash (value : String) : segments (value ++ "/") = segments value ++ [""] := by
  unfold segments List.splitOn
  have hsplit : (value ++ "/").toList = value.toList ++ '/' :: [] := String.toList_append
  rw [hsplit, List.splitOnP_append_cons _ _ (by simp)]
  simp

theorem isAbsolute_append_slash (hname : name ≠ "") (hrelative : isAbsolute name = false) :
    isAbsolute (name ++ "/") = false := by
  have hne : name.toList ≠ [] := fun hnil ↦ hname (String.toList_eq_nil_iff.mp hnil)
  obtain ⟨first, rest, hchars⟩ := List.exists_cons_of_ne_nil hne
  unfold isAbsolute at hrelative ⊢
  rw [hchars] at hrelative
  rw [String.toList_append, hchars]
  exact hrelative

end Workspace

end SkillHive
