import SkillHive.Foundation.Subtrees
import SkillHive.Foundation.Triples
import SkillHive.Snapshot.SkillSnapshot

/-!
# Extracting an archive

An archive comes from anywhere: the names of its entries, the sizes they declare and what can be
read from them need not fit together. The extraction writes entry by entry below a staging
directory. Every call of the extraction to the system may be refused or stop half way, as an
oracle decides. Paths are those of Unix, with names compared case by case.
-/

namespace SkillHive

open Foundation Snapshot

namespace Workspace

/-- `MAX_ARCHIVE_BYTES` -/
def maxArchiveBytes : ℕ := 512 * 1024 * 1024

/-- `MAX_ENTRIES` -/
def maxEntries : ℕ := 10000

/-- `MAX_ENTRY_BYTES` -/
def maxEntryBytes : ℕ := 64 * 1024 * 1024

/-- `MAX_TOTAL_BYTES` -/
def maxTotalBytes : ℕ := 512 * 1024 * 1024

inductive WorkspaceError where
  | io
  | invalidSkillId
  | alreadyExists (path : List OsName)
  | snapshot (error : SnapshotError)
  deriving DecidableEq, Repr

/-- `overflow` is the panic of an addition that does not fit. -/
inductive ZipError where
  | archiveTooLarge (limit : ℕ)
  | tooManyEntries (limit : ℕ)
  | unsafeEntry (name : String)
  | entryTooLarge (path : String) (limit : ℕ)
  | totalTooLarge
  | entrySizeMismatch (path : String)
  | malformed
  | io
  | snapshot (error : SnapshotError)
  | workspace (error : WorkspaceError)
  | overflow
  deriving DecidableEq, Repr

/-! ## Archives -/

/-- What can be read from an entry: some bytes, and then an error or the end. -/
structure ZipStream where
  bytes : ByteArray
  fails : Bool
  deriving DecidableEq

/-- What the library tells of an entry. -/
structure ZipEntry where
  name : String
  isDir : Bool
  unixMode : Option ℕ
  size : ℕ
  stream : ZipStream
  deriving DecidableEq

/-- The entries by their index; `none` where `by_index` fails. -/
abbrev ZipArchive := List (Option ZipEntry)

/-- `take(limit).read_to_end`. What follows the limit is not read. -/
def ZipStream.readToEnd (stream : ZipStream) (limit : ℕ) : Option ByteArray :=
  if limit ≤ stream.bytes.size then some (stream.bytes.extract 0 limit)
  else if stream.fails = true then none
  else some stream.bytes

/-! ## Paths -/

/-- A component of a path, as `Path::components` tells it. -/
inductive Component where
  | rootDir
  | curDir
  | parentDir
  | normal (name : OsName)
  deriving DecidableEq, Repr

/-- `Path::is_absolute` -/
def isAbsolute (name : String) : Bool := name.toList.head? = some '/'

/-- A part between two separators. Empty parts and single dots are skipped. -/
def component? (part : String) : Option Component :=
  if part = "" ∨ part = "." then none
  else if part = ".." then some .parentDir
  else some (.normal (.text part))

/-- `Path::components`. A dot is a component only at the start. -/
def components (name : String) : List Component :=
  (if isAbsolute name = true then [.rootDir]
    else if (segments name).head? = some "." then [.curDir] else []) ++
    (segments name).filterMap component?

/-- The components of an absolute path. -/
def absolute (path : List OsName) : List Component := .rootDir :: path.map .normal

/-- `Path::join` -/
def join (base : List Component) (name : String) : List Component :=
  if isAbsolute name = true then components name else base ++ components name

/-- Where the system finds a path. -/
def resolve (path : List Component) : List OsName :=
  path.foldl (fun found component ↦
    match component with
    | .rootDir => []
    | .curDir => found
    | .parentDir => found.dropLast
    | .normal name => found ++ [name]) []

/-- The test of `validate_entry_name` on a component. -/
def isPlainComponent : Component → Bool
  | .normal name => name ≠ .text "" ∧ name ≠ .text "." ∧ name ≠ .text ".."
  | _ => false

/-- `validate_entry_name` -/
def validateEntryName (name : String) : Except ZipError Unit := do
  require (name ≠ "" ∧ '\\' ∉ name.toList) (.unsafeEntry name)
  require (isAbsolute name = false) (.unsafeEntry name)
  require (∀ component ∈ components name, isPlainComponent component = true) (.unsafeEntry name)

/-! ## The machine -/

/-- What the functions below work on. Paths are absolute. -/
structure Machine where
  disk : SourceDirectory
  blobs : BlobStore
  /-- The bytes that the extraction has written. -/
  written : ℕ
  /-- The number of calls that the extraction has made. -/
  calls : ℕ

/-- A call to the system that fails. -/
inductive Fault where
  /-- Nothing is done. -/
  | refused
  /-- So many directories or bytes are made before the call fails. -/
  | short (count : ℕ)
  deriving DecidableEq, Repr

variable (faults : ℕ → Option Fault)

/-- `fs::create_dir_all` -/
def createDirAll (path : List OsName) : Program Machine ZipError Unit := fun m ↦
  let m' := { m with calls := m.calls + 1 }
  match faults m.calls with
  | some .refused => (.error .io, m')
  | some (.short count) =>
    match Directory.makeDirs m.disk [] (path.take count) with
    | .ok disk => (.error .io, { m' with disk })
    | .error _ => (.error .io, m')
  | none =>
    match Directory.makeDirs m.disk [] path with
    | .ok disk => (.ok (), { m' with disk })
    | .error _ => (.error .io, m')

/-- The machine with a file at the path, unless a directory stands there. -/
def Machine.put? (m : Machine) (path : List OsName) (bytes : ByteArray) : Option Machine :=
  if Directory.node? m.disk path = some .directory then none
  else (Directory.putAt (.file (.regular bytes)) m.disk path).map fun disk ↦
    { m with disk, written := m.written + bytes.size }

/-- `fs::write` -/
def writeFile (path : List OsName) (bytes : ByteArray) : Program Machine ZipError Unit := fun m ↦
  let m' := { m with calls := m.calls + 1 }
  match faults m.calls with
  | some .refused => (.error .io, m')
  | some (.short count) => (.error .io, (m'.put? path (bytes.extract 0 count)).getD m')
  | none =>
    match m'.put? path bytes with
    | some m'' => (.ok (), m'')
    | none => (.error .io, m')

/-! ## Extraction -/

variable (staging : List OsName)

/-- The files of an entry in the loop of `extract_archive`, with the running total. -/
def extractFile (entry : ZipEntry) (totalBytes : ℕ) : Program Machine ZipError ℕ := do
  -- Symlink entries (unix file-type mode bits) are never materialized.
  Program.lift (require (∀ mode ∈ entry.unixMode, mode &&& 0o170000 ≠ 0o120000)
    (.unsafeEntry entry.name))
  let declared := entry.size
  Program.lift (require (declared ≤ maxEntryBytes) (.entryTooLarge entry.name maxEntryBytes))
  Program.lift (require (totalBytes + declared < 2 ^ 64) .overflow)
  let totalBytes := totalBytes + declared
  Program.lift (require (totalBytes ≤ maxTotalBytes) .totalTooLarge)
  let target := join (absolute staging) entry.name
  Program.lift (require (absolute staging <+: target) (.unsafeEntry entry.name))
  createDirAll faults (resolve target.dropLast)
  let bytes ← Program.lift (okOr (entry.stream.readToEnd maxEntryBytes) .io)
  Program.lift (require (bytes.size = declared) (.entrySizeMismatch entry.name))
  writeFile faults (resolve target) bytes
  pure totalBytes

/-- One entry in the loop of `extract_archive`. -/
def extractEntry (entry : Option ZipEntry) (totalBytes : ℕ) : Program Machine ZipError ℕ := do
  let entry ← Program.lift (okOr entry .malformed)
  Program.lift (validateEntryName entry.name)
  if entry.isDir = true then
    createDirAll faults (resolve (join (absolute staging) entry.name))
    pure totalBytes
  else extractFile faults staging entry totalBytes

/-- The loop of `extract_archive`. -/
def extractEntries : ZipArchive → ℕ → Program Machine ZipError ℕ
  | [], totalBytes => pure totalBytes
  | entry :: rest, totalBytes => do
    let totalBytes ← extractEntry faults staging entry totalBytes
    extractEntries rest totalBytes

/-- `extract_archive` -/
def extractArchive (archive : ZipArchive) : Program Machine ZipError ℕ := do
  Program.lift (require (archive.length ≤ maxEntries) (.tooManyEntries maxEntries))
  let _ ← extractEntries faults staging archive 0
  pure archive.length

/-! ## Where an entry goes -/

variable {faults staging} {name : String} {path : List OsName}

theorem resolve_absolute (path : List OsName) : resolve (absolute path) = path := by
  have hloop : ∀ found : List OsName, (path.map Component.normal).foldl (fun found component ↦
      match component with
      | .rootDir => []
      | .curDir => found
      | .parentDir => found.dropLast
      | .normal name => found ++ [name]) found = found ++ path := by
    induction path with
    | nil => exact fun found ↦ (List.append_nil found).symm
    | cons name path ih =>
      intro found
      rw [List.map_cons, List.foldl_cons, ih, List.append_assoc, List.singleton_append]
  unfold resolve absolute
  rw [List.foldl_cons, hloop, List.nil_append]

theorem absolute_append (path rest : List OsName) :
    absolute path ++ rest.map .normal = absolute (path ++ rest) := by
  simp [absolute]

/-- A relative name has a component. -/
theorem components_ne_nil (hname : name ≠ "") (hrelative : isAbsolute name = false) :
    components name ≠ [] := by
  unfold components
  rw [hrelative]
  intro hnil
  obtain ⟨hhead, hrest⟩ := List.append_eq_nil_iff.mp hnil
  obtain ⟨first, rest, hsegments⟩ := List.exists_cons_of_ne_nil (segments_ne_nil name)
  rw [hsegments] at hhead hrest
  have hdot : first ≠ "." := by
    rintro rfl
    simp at hhead
  have hempty : first ≠ "" := by
    rintro rfl
    have hjoin := joinSegments_segments name
    rw [hsegments] at hjoin
    cases rest with
    | nil => exact hname (hjoin.symm.trans (by decide))
    | cons next rest =>
      have hslash : name.toList.head? = some '/' := by
        rw [← hjoin]
        simp [joinSegments, List.intercalate]
      simp [isAbsolute, hslash] at hrelative
  by_cases hparent : first = ".." <;> simp [component?, hdot, hempty, hparent] at hrest

/-- A name that passes names a place below any directory. -/
theorem join_of_validateEntryName (h : validateEntryName name = .ok ()) :
    ∃ front last, join (absolute staging) name = absolute (staging ++ front ++ [last]) := by
  unfold validateEntryName at h
  simp only [bind_eq_ok, require_eq_ok] at h
  obtain ⟨_, ⟨hname, -⟩, _, hrelative, hplain⟩ := h
  have hparts : ∃ parts : List OsName, components name = parts.map .normal := by
    generalize components name = cs at hplain
    induction cs with
    | nil => exact ⟨[], rfl⟩
    | cons c cs ih =>
      obtain ⟨hfirst, hrest⟩ := List.forall_mem_cons.mp hplain
      obtain ⟨parts, rfl⟩ := ih hrest
      cases c with
      | normal name => exact ⟨name :: parts, rfl⟩
      | rootDir => cases hfirst
      | curDir => cases hfirst
      | parentDir => cases hfirst
  obtain ⟨parts, hparts⟩ := hparts
  have hne := components_ne_nil hname hrelative
  rw [hparts] at hne
  have hlast : parts ≠ [] := fun hnil ↦ hne (by rw [hnil, List.map_nil])
  refine ⟨parts.dropLast, parts.getLast hlast, ?_⟩
  rw [List.append_assoc, List.dropLast_append_getLast hlast, ← absolute_append, join, hrelative,
    hparts]
  rfl

theorem dropLast_absolute_concat (front : List OsName) (last : OsName) :
    (absolute (front ++ [last])).dropLast = absolute front := by
  unfold absolute
  rw [List.map_append, List.map_singleton, ← List.cons_append, List.dropLast_concat]

/-! ## What an extraction may change -/

/-- Only what is below the staging directory has changed, and nothing but files and directories
is there. -/
structure Confined (staging : List OsName) (before m : Machine) : Prop where
  outside : ∀ path, ¬ staging <+: path →
    Directory.node? m.disk path = Directory.node? before.disk path
  root : Directory.node? m.disk staging = some .directory
  plain : ∀ path leaf, staging <+: path → Directory.node? m.disk path = some (.file leaf) →
    ∃ bytes, leaf = .regular bytes
  distinct : Directory.Distinct before.disk → Directory.Distinct m.disk
  blobs : m.blobs = before.blobs

variable {before m m' : Machine} {written : ℕ}

theorem Confined.makeDirs {path' : List OsName} {disk : SourceDirectory} {calls : ℕ}
    (h : Confined staging before m) (hpath : staging <+: path) (hpath' : path' <+: path)
    (hmake : Directory.makeDirs m.disk [] path' = .ok disk) :
    Confined staging before { m with disk, calls } := by
  have hmap := Directory.node?_makeDirs Directory.node?_nil_path hmake
  rw [List.nil_append] at hmap
  refine ⟨fun query hquery ↦ ?_, ?_, fun query leaf hquery hnode ↦ ?_, fun hdistinct ↦ ?_, h.blobs⟩
  · refine (hmap query).trans ?_
    split
    case isFalse => exact h.outside query hquery
    case isTrue hinitial =>
      -- a directory on the way to the staging directory was there before
      have habove := (List.prefix_or_prefix_of_prefix (hinitial.trans hpath') hpath).resolve_right hquery
      rw [← h.outside query hquery]
      exact (Directory.node?_of_isPrefix h.root habove).symm
  · refine (hmap staging).trans ?_
    split
    · rfl
    · exact h.root
  · rw [hmap] at hnode
    split at hnode
    · cases hnode
    · exact h.plain query leaf hquery hnode
  · exact Directory.Distinct.makeDirs (h.distinct hdistinct) hmake

theorem Confined.put {bytes : ByteArray} (h : Confined staging before m) (hpath : staging <+: path)
    (hput : m.put? path bytes = some m') :
    Confined staging before m' ∧ m'.written = m.written + bytes.size := by
  unfold Machine.put? at hput
  split at hput
  · cases hput
  next hfree =>
    obtain ⟨disk, hdisk, rfl⟩ := Option.map_eq_some_iff.mp hput
    have hmap := Directory.node?_putAt_file hdisk hfree
    refine ⟨⟨fun query hquery ↦ ?_, ?_, fun query leaf hquery hnode ↦ ?_, fun hdistinct ↦ ?_,
      h.blobs⟩, rfl⟩
    · rw [hmap, if_neg (by rintro rfl; exact hquery hpath)]
      exact h.outside query hquery
    · rw [hmap, if_neg (by rintro rfl; exact hfree h.root)]
      exact h.root
    · rw [hmap] at hnode
      split at hnode
      · cases hnode
        exact ⟨bytes, rfl⟩
      · exact h.plain query leaf hquery hnode
    · refine Directory.Distinct.putAt (h.distinct hdistinct) ?_ hdisk
      rw [FileTree.Distinct]
      trivial

theorem Confined.call (h : Confined staging before m) (calls : ℕ) :
    Confined staging before { m with calls } := ⟨h.outside, h.root, h.plain, h.distinct, h.blobs⟩

/-- The state in the middle of an extraction. -/
def Extracting (staging : List OsName) (before : Machine) (written : ℕ) (m : Machine) : Prop :=
  Confined staging before m ∧ m.written ≤ written

theorem createDirAll_spec (hpath : staging <+: path) :
    Program.Triple (Extracting staging before written) (createDirAll faults path)
      (fun _ ↦ Extracting staging before written)
      fun e m ↦ e = .io ∧ Extracting staging before written m := by
  rintro m ⟨hconfined, hwritten⟩
  have hsame := hconfined.call (m.calls + 1)
  unfold createDirAll Program.exec ExceptT.run StateT.run
  dsimp only
  cases faults m.calls with
  | some fault =>
    cases fault with
    | refused => exact ⟨rfl, hsame, hwritten⟩
    | short count =>
      dsimp only
      cases hmake : Directory.makeDirs m.disk [] (path.take count) with
      | error e => exact ⟨rfl, hsame, hwritten⟩
      | ok disk => exact ⟨rfl, hconfined.makeDirs hpath (List.take_prefix _ _) hmake, hwritten⟩
  | none =>
    dsimp only
    cases hmake : Directory.makeDirs m.disk [] path with
    | error e => exact ⟨rfl, hsame, hwritten⟩
    | ok disk => exact ⟨hconfined.makeDirs hpath List.prefix_rfl hmake, hwritten⟩

theorem writeFile_spec {bytes : ByteArray} (hpath : staging <+: path) :
    Program.Triple (Extracting staging before written) (writeFile faults path bytes)
      (fun _ ↦ Extracting staging before (written + bytes.size))
      fun e m ↦ e = .io ∧ Extracting staging before (written + bytes.size) m := by
  rintro m ⟨hconfined, hwritten⟩
  have hsame : Extracting staging before (written + bytes.size) { m with calls := m.calls + 1 } :=
    ⟨hconfined.call _, hwritten.trans (Nat.le_add_right _ _)⟩
  unfold writeFile Program.exec ExceptT.run StateT.run
  dsimp only
  cases faults m.calls with
  | some fault =>
    cases fault with
    | refused => exact ⟨rfl, hsame⟩
    | short count =>
      dsimp only
      cases hput : Machine.put? { m with calls := m.calls + 1 } path (bytes.extract 0 count) with
      | none => exact ⟨rfl, hsame⟩
      | some m' =>
        obtain ⟨hconfined', hwritten'⟩ := hsame.1.put hpath hput
        refine ⟨rfl, hconfined', ?_⟩
        rw [Option.getD_some, hwritten', ByteArray.size_extract]
        dsimp only
        omega
  | none =>
    dsimp only
    cases hput : Machine.put? { m with calls := m.calls + 1 } path bytes with
    | none => exact ⟨rfl, hsame⟩
    | some m' =>
      obtain ⟨hconfined', hwritten'⟩ := hsame.1.put hpath hput
      refine ⟨hconfined', ?_⟩
      rw [hwritten']
      exact Nat.add_le_add_right hwritten _

theorem Extracting.le {written' : ℕ} (h : Extracting staging before written m)
    (hle : written ≤ written') : Extracting staging before written' m := ⟨h.1, h.2.trans hle⟩

/-- An error of an extraction: not the panic of its running total, and none of the workspaces. -/
def ZipError.OfExtraction : ZipError → Prop
  | .overflow | .workspace _ => False
  | _ => True

theorem ZipError.OfExtraction.ne {e : ZipError} (h : e.OfExtraction) :
    e ≠ .overflow ∧ ∀ error, e ≠ .workspace error := by
  constructor
  · rintro rfl
    exact h
  · rintro error rfl
    exact h

/-- How an extraction stops. -/
def Stopped (staging : List OsName) (before : Machine) (e : ZipError) (m : Machine) : Prop :=
  e.OfExtraction ∧ Extracting staging before (before.written + maxTotalBytes) m

variable {totalBytes : ℕ}

theorem Extracting.stopped (h : Extracting staging before (before.written + totalBytes) m)
    (htotal : totalBytes ≤ maxTotalBytes) {e : ZipError} (he : e.OfExtraction) :
    Stopped staging before e m := ⟨he, h.le (Nat.add_le_add_left htotal _)⟩

/-- A running total that is within the limit, and what was written is within it. -/
def Counted (staging : List OsName) (before : Machine) (totalBytes : ℕ) (m : Machine) : Prop :=
  totalBytes ≤ maxTotalBytes ∧ Extracting staging before (before.written + totalBytes) m

theorem extractFile_spec {entry : ZipEntry} (hname : validateEntryName entry.name = .ok ())
    (htotal : totalBytes ≤ maxTotalBytes) :
    Program.Triple (Extracting staging before (before.written + totalBytes))
      (extractFile faults staging entry totalBytes) (Counted staging before)
      (Stopped staging before) := by
  obtain ⟨front, last, hjoin⟩ := @join_of_validateEntryName staging _ hname
  have hstop : ∀ e : ZipError, e.OfExtraction → ∀ m,
      Extracting staging before (before.written + totalBytes) m → Stopped staging before e m :=
    fun e he m hm ↦ hm.stopped htotal he
  have hfile : staging <+: staging ++ front ++ [last] := by
    rw [List.append_assoc]
    exact List.prefix_append _ _
  unfold extractFile
  dsimp only
  rw [hjoin, dropLast_absolute_concat, resolve_absolute, resolve_absolute]
  refine .require_bind (fun _ ↦ ?_) fun _ ↦ hstop _ trivial
  refine .require_bind (fun hdeclared ↦ ?_) fun _ ↦ hstop _ trivial
  -- the two limits together are far below the limit of the addition
  have hsum : totalBytes + entry.size < 2 ^ 64 :=
    lt_of_le_of_lt (Nat.add_le_add htotal hdeclared) (by decide)
  refine .require_bind (fun _ ↦ ?_) fun hover ↦ absurd hsum hover
  refine .require_bind (fun hlimit ↦ ?_) fun _ ↦ hstop _ trivial
  refine .require_bind (fun _ ↦ ?_) fun _ ↦ hstop _ trivial
  refine .bind ((createDirAll_spec (List.prefix_append _ _)).conseq (fun _ h ↦ h) (fun _ _ h ↦ h)
    fun e m h ↦ ?_) fun _ ↦ ?_
  · exact hstop e (by rw [h.1]; trivial) m h.2
  refine .lift_bind (fun bytes _ ↦ ?_) fun e he ↦ ?_
  · refine .require_bind (fun hsize ↦ ?_) fun _ ↦ hstop _ trivial
    refine .bind ((writeFile_spec hfile).conseq (fun _ h ↦ h) (fun _ _ h ↦ h) fun e m h ↦ ?_)
      fun _ ↦ .pure fun m h ↦ ?_
    · rw [hsize, Nat.add_assoc] at h
      exact h.2.stopped hlimit (by rw [h.1]; trivial)
    · rw [hsize, Nat.add_assoc] at h
      exact ⟨hlimit, h⟩
  · refine hstop e ?_
    unfold okOr at he
    split at he <;> cases he
    trivial

theorem extractEntry_spec {entry : Option ZipEntry} (htotal : totalBytes ≤ maxTotalBytes) :
    Program.Triple (Extracting staging before (before.written + totalBytes))
      (extractEntry faults staging entry totalBytes) (Counted staging before)
      (Stopped staging before) := by
  have hstop : ∀ e : ZipError, e.OfExtraction → ∀ m,
      Extracting staging before (before.written + totalBytes) m → Stopped staging before e m :=
    fun e he m hm ↦ hm.stopped htotal he
  unfold extractEntry
  refine .lift_bind (fun entry _ ↦ ?_) fun e he ↦ hstop e ?_
  · refine .lift_bind (fun _ hname ↦ ?_) fun e he ↦ hstop e ?_
    · split
      · obtain ⟨front, last, hjoin⟩ := @join_of_validateEntryName staging _ hname
        rw [hjoin, resolve_absolute, List.append_assoc]
        refine .bind ((createDirAll_spec (List.prefix_append _ _)).conseq (fun _ h ↦ h)
          (fun _ _ h ↦ h) fun e m h ↦ ?_) fun _ ↦ .pure fun m h ↦ ⟨htotal, h⟩
        refine hstop e ?_ m h.2
        rw [h.1]
        trivial
      · exact extractFile_spec hname htotal
    · unfold validateEntryName at he
      simp only [require] at he
      split at he <;> split at he <;> split at he <;> cases he <;> trivial
  · unfold okOr at he
    split at he <;> cases he
    trivial

/-- What every entry preserves, the loop preserves. -/
theorem extractEntries_spec (archive : ZipArchive) (htotal : totalBytes ≤ maxTotalBytes) :
    Program.Triple (Extracting staging before (before.written + totalBytes))
      (extractEntries faults staging archive totalBytes) (Counted staging before)
      (Stopped staging before) := by
  induction archive generalizing totalBytes with
  | nil => exact .pure fun m h ↦ ⟨htotal, h⟩
  | cons entry rest ih =>
    refine .bind (extractEntry_spec htotal) fun totalBytes' ↦ ?_
    rintro m ⟨htotal', hm⟩
    exact ih htotal' m hm

theorem extractArchive_spec (archive : ZipArchive) :
    Program.Triple (Extracting staging before before.written)
      (extractArchive faults staging archive)
      (fun _ ↦ Extracting staging before (before.written + maxTotalBytes))
      (Stopped staging before) := by
  refine .require_bind (fun _ ↦ ?_) fun _ m h ↦ h.stopped (Nat.zero_le _) trivial
  exact .bind (extractEntries_spec archive (Nat.zero_le _)) fun total ↦ .pure fun m h ↦
    h.2.le (Nat.add_le_add_left h.1 _)

end Workspace

end SkillHive
