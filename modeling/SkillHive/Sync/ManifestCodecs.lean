import SkillHive.Server.PackageManifest
import SkillHive.Sync.PackageClosures

/-!
# Two readers of manifests

The desktop and the server read and validate the same manifests with code of their own. The
desktop derives its reader, which knows a field under two names and refuses a second occurrence;
the server looks fields up in a dictionary, where the last occurrence counts. The server knows
the version of the format under one name only. Most checks are the same; the server's pattern for
hashes lets a final line feed pass, and its paths may have the control characters from DEL on.
-/

namespace SkillHive

open Foundation Snapshot

namespace Sync

/-! ## Checks of a file -/

/-- DEL and the control characters behind it. -/
def isLateControl (c : Char) : Bool := 0x7F ≤ c.toNat && c.toNat ≤ 0x9F

theorem ofList_mem_reservedStems (stem : List Char) :
    String.ofList stem ∈ Server.reservedStems ↔
      stem ∈ ["CON", "PRN", "AUX", "NUL"].map String.toList ∨
      ∃ port ∈ ["COM", "LPT"], ∃ digit ∈ "123456789".toList, stem = port.toList ++ [digit] := by
  have hmem : ∀ stems : List String,
      String.ofList stem ∈ stems ↔ stem ∈ stems.map String.toList := by
    intro stems
    rw [List.mem_map]
    constructor
    · intro h
      exact ⟨_, h, String.toList_ofList⟩
    · rintro ⟨text, htext, rfl⟩
      rwa [String.ofList_toList]
  rw [hmem]
  have hstems : Server.reservedStems.map String.toList =
      ["CON", "PRN", "AUX", "NUL"].map String.toList ++
        ["COM", "LPT"].flatMap fun port ↦ "123456789".toList.map fun digit ↦
          port.toList ++ [digit] := by decide
  rw [hstems, List.mem_append, List.mem_flatMap]
  simp only [List.mem_map]
  apply or_congr Iff.rfl
  apply exists_congr
  intro port
  apply and_congr Iff.rfl
  apply exists_congr
  intro digit
  rw [eq_comm (a := stem)]

theorem isReserved_ofList (segment : List Char) :
    isReserved (String.ofList segment) = true ↔
      Server.segmentStem segment ∈ Server.reservedStems := by
  rw [Server.segmentStem, ofList_mem_reservedStems, isReserved, String.toList_ofList]
  simp only [Bool.or_eq_true, List.any_eq_true, decide_eq_true_eq, List.mem_map]
  apply or_congr _ Iff.rfl
  apply exists_congr
  intro device
  apply and_congr Iff.rfl
  exact eq_comm

theorem any_isUnportable (segment : List Char) :
    segment.any isUnportable = false ↔
      (segment.any (fun c ↦ "<>:\"\\|?*".toList.contains c) = false ∧
        (segment.any fun c ↦ c.toNat < 0x20) = false) ∧ ∀ c ∈ segment, isLateControl c = false := by
  have hchar : ∀ c : Char, isUnportable c = false ↔ ("<>:\"\\|?*".toList.contains c = false ∧
      decide (c.toNat < 0x20) = false) ∧ isLateControl c = false := by
    intro c
    rw [isUnportable, isLateControl, Bool.or_eq_false_iff, Bool.or_eq_false_iff]
    tauto
  simp only [List.any_eq_false, ← Bool.eq_false_iff, hchar, forall_and]

theorem ofList_ne_iff {segment : List Char} {text : String} :
    String.ofList segment ≠ text ↔ segment ≠ text.toList := by
  rw [Ne, Ne, String.ext_iff, String.toList_ofList]

/-- The desktop refuses what the server refuses, and late control characters. -/
theorem isPortableSegment_ofList (segment : List Char) :
    isPortableSegment (String.ofList segment) = true ↔
      Server.isInvalidSegment segment = false ∧
        Server.segmentStem segment ∉ Server.reservedStems ∧
        ∀ c ∈ segment, isLateControl c = false := by
  have hreserved : isReserved (String.ofList segment) = false ↔
      Server.segmentStem segment ∉ Server.reservedStems := by
    rw [← isReserved_ofList, Bool.not_eq_true]
  rw [isPortableSegment, Server.isInvalidSegment, decide_eq_true_eq, decide_eq_false_iff_not,
    String.toList_ofList, any_isUnportable, hreserved, ofList_ne_iff, ofList_ne_iff, ofList_ne_iff]
  simp only [not_or, not_lt, Bool.not_eq_true, Ne]
  constructor
  · rintro ⟨hempty, hdot, hdots, hsize, hspace, hstop, ⟨⟨hforbidden, hlow⟩, hlate⟩, hname⟩
    exact ⟨⟨hempty, hdot, hdots, hsize, hspace, hstop, hforbidden, hlow⟩, hname, hlate⟩
  · rintro ⟨⟨hempty, hdot, hdots, hsize, hspace, hstop, hforbidden, hlow⟩, hname, hlate⟩
    exact ⟨hempty, hdot, hdots, hsize, hspace, hstop, ⟨⟨hforbidden, hlow⟩, hlate⟩, hname⟩

theorem foldE_check_eq_ok {ε α : Type} {check : α → Except ε Unit} {as : List α} :
    foldE (fun _ a ↦ check a) () as = .ok () ↔ ∀ a ∈ as, check a = .ok () := by
  induction as with
  | nil => simp [foldE]
  | cons a as ih =>
    rw [foldE_cons_eq_ok, List.forall_mem_cons, ← ih]
    constructor
    · rintro ⟨⟨⟩, ha, has⟩
      exact ⟨ha, has⟩
    · rintro ⟨ha, has⟩
      exact ⟨(), ha, has⟩

variable {rt : Server.Runtime}

theorem validatePortableSegment_eq_ok {path : String} {segment : List Char} :
    Server.validatePortableSegment rt path segment = .ok () ↔
      Server.isInvalidSegment segment = false ∧
        Server.segmentStem segment ∉ Server.reservedStems := by
  simp [Server.validatePortableSegment, bind_eq_ok]

theorem validatePortablePath_eq_ok {path : String} :
    Server.validatePortablePath rt path = .ok () ↔
      (path ≠ "" ∧ path.toList.head? ≠ some '/' ∧ '\\' ∉ path.toList) ∧
        ∀ segment ∈ path.toList.splitOn '/', Server.isInvalidSegment segment = false ∧
          Server.segmentStem segment ∉ Server.reservedStems := by
  rw [Server.validatePortablePath, bind_eq_ok]
  simp only [require_eq_ok, foldE_check_eq_ok, validatePortableSegment_eq_ok, exists_and_left,
    exists_const]

/-- The desktop takes the paths that the server takes, but for late control characters. -/
theorem isPortablePath_iff_server {path : String} :
    IsPortablePath path ↔ Server.validatePortablePath rt path = .ok () ∧
      ∀ c ∈ path.toList, isLateControl c = false := by
  have hchars : (∀ c ∈ path.toList, isLateControl c = false) ↔
      ∀ segment ∈ path.toList.splitOn '/', ∀ c ∈ segment, isLateControl c = false := by
    constructor
    · intro h segment hsegment c hc
      exact h c (mem_of_mem_splitOn hsegment hc)
    · intro h c hc
      by_cases hslash : c = '/'
      · rw [hslash]
        decide
      · obtain ⟨segment, hsegment, hmem⟩ := (mem_splitOn '/' path.toList).2 c hc hslash
        exact h segment hsegment c hmem
  have hsegments : (∀ part ∈ segments path, isPortableSegment part = true) ↔
      ∀ segment ∈ path.toList.splitOn '/', isPortableSegment (String.ofList segment) = true := by
    rw [segments]
    exact List.forall_mem_map
  rw [validatePortablePath_eq_ok, hchars]
  constructor
  · rintro ⟨hnonempty, hrelative, hbackslash, hall⟩
    rw [hsegments] at hall
    refine ⟨⟨⟨hnonempty, hrelative, hbackslash⟩, fun segment hsegment ↦ ?_⟩,
      fun segment hsegment ↦ ?_⟩
    · obtain ⟨hvalid, hname, -⟩ := (isPortableSegment_ofList segment).mp (hall segment hsegment)
      exact ⟨hvalid, hname⟩
    · exact ((isPortableSegment_ofList segment).mp (hall segment hsegment)).2.2
  · rintro ⟨⟨⟨hnonempty, hrelative, hbackslash⟩, hall⟩, hlate⟩
    refine ⟨hnonempty, hrelative, hbackslash, hsegments.mpr fun segment hsegment ↦ ?_⟩
    obtain ⟨hvalid, hname⟩ := hall segment hsegment
    exact (isPortableSegment_ofList segment).mpr ⟨hvalid, hname, hlate segment hsegment⟩

theorem isCanonicalSha256_iff (hash : String) :
    isCanonicalSha256 hash = true ↔ Server.isCanonicalHash hash = true := by
  refine ⟨isCanonicalHash_of_isCanonicalSha256, fun h ↦ ?_⟩
  unfold Server.isCanonicalHash at h
  unfold isCanonicalSha256
  rw [decide_eq_true_eq] at h ⊢
  refine ⟨h.1, h.2.1, List.all_eq_true.mpr fun c hc ↦ ?_⟩
  have hdigit := List.all_eq_true.mp h.2.2 c hc
  unfold Server.isLowerHex at hdigit
  unfold isLowerHexdigit
  rw [decide_eq_true_eq] at hdigit ⊢
  rcases hdigit with hdigit | hletter
  · refine ⟨.inl hdigit, fun hupper ↦ ?_⟩
    exact absurd (hupper.1.trans hdigit.2) (by decide)
  · refine ⟨.inr (.inl hletter), fun hupper ↦ ?_⟩
    exact absurd (hletter.1.trans hupper.2) (by decide)

theorem getLast?_of_isCanonicalHash {hash : String} (h : Server.isCanonicalHash hash = true) :
    hash.toList.getLast? ≠ some '\n' := by
  intro hlast
  unfold Server.isCanonicalHash at h
  rw [decide_eq_true_eq] at h
  obtain ⟨-, hlength, hdigits⟩ := h
  have hmem : '\n' ∈ hash.toList.drop 7 := by
    have hne : hash.toList.drop 7 ≠ [] := List.ne_nil_of_length_pos (by omega)
    have hsplit : hash.toList.getLast? = (hash.toList.drop 7).getLast? := by
      rw [List.getLast?_drop, if_neg]
      rw [List.length_drop] at hlength
      omega
    rw [hsplit] at hlast
    exact List.mem_of_getLast? hlast
  exact absurd (List.all_eq_true.mp hdigits _ hmem) (by decide)

/-- The desktop takes the hashes that the server takes, but for a final line feed. -/
theorem isCanonicalSha256_iff_server {hash : String} :
    isCanonicalSha256 hash = true ↔
      Server.matchesSha256 hash = true ∧ hash.toList.getLast? ≠ some '\n' := by
  rw [isCanonicalSha256_iff, Server.matchesSha256, decide_eq_true_eq]
  constructor
  · intro h
    exact ⟨.inl h, getLast?_of_isCanonicalHash h⟩
  · rintro ⟨hcanonical | ⟨hfeed, -⟩, hlast⟩
    · exact hcanonical
    · exact absurd hfeed hlast

/-! ## The scan of the server -/

/-- The file as the server lists it. -/
def manifestFile (file : SkillSnapshotFile) : Server.ManifestFile :=
  ⟨file.path, file.blobHash, file.sizeBytes⟩

theorem manifestFile_injective : Function.Injective manifestFile := by
  rintro ⟨path, hash, size⟩ ⟨path', hash', size'⟩ h
  cases h
  rfl

/-- What the server reads of an entry. -/
structure ServerReads (entry : Json) (file : SkillSnapshotFile) : Prop where
  object : Server.isObject entry = true
  fields : Server.entryFields entry = some (file.path, (file.sizeBytes : Int))
  blobHash : Server.getEither entry "blobHash" "blob_hash" = some (.string file.blobHash)

/-- A file that the server takes on its own. -/
structure ServerTakes (rt : Server.Runtime) (file : SkillSnapshotFile) : Prop where
  path : Server.validatePortablePath rt file.path = .ok ()
  blobHash : Server.matchesSha256 file.blobHash = true
  sizeBytes : file.sizeBytes ≤ Server.maxBlobBytes

theorem entryHash_eq_some {entry : Json} {hash : String} :
    Server.entryHash entry = some hash ↔
      Server.getEither entry "blobHash" "blob_hash" = some (.string hash) ∧
        Server.matchesSha256 hash = true := by
  unfold Server.entryHash
  split
  next found hfound =>
    rw [hfound]
    by_cases hmatches : Server.matchesSha256 found = true
    · simp only [if_pos hmatches, Option.some.injEq, Json.string.injEq]
      constructor
      · rintro rfl
        exact ⟨rfl, hmatches⟩
      · exact fun h ↦ h.1
    · simp only [if_neg hmatches, Option.some.injEq, Json.string.injEq, reduceCtorEq, false_iff]
      rintro ⟨rfl, h⟩
      exact hmatches h
  next hnone =>
    constructor
    · exact fun h ↦ nomatch h
    · exact fun h ↦ absurd h.1 (hnone hash)

/-- The scan after a file. -/
def scanNext (scan : Server.ManifestScan) (file : SkillSnapshotFile) : Server.ManifestScan where
  previous := some file.path
  hasEntrypoint := scan.hasEntrypoint || file.path = skillEntrypoint
  totalBytes := scan.totalBytes + file.sizeBytes
  normalized := scan.normalized ++ [manifestFile file]

theorem scanEntry_eq_ok {scan scan' : Server.ManifestScan} {entry : Json} :
    Server.scanEntry rt scan entry = .ok scan' ↔
      ∃ file, ServerReads entry file ∧ ServerTakes rt file ∧
        (∀ previous ∈ scan.previous, previous < file.path) ∧
        scan.totalBytes + file.sizeBytes ≤ Server.maxPackageBytes ∧ scan' = scanNext scan file := by
  unfold Server.scanEntry
  simp only [bind_eq_ok, require_eq_ok, okOr_eq_ok, entryHash_eq_some, Except.ok.injEq,
    exists_and_left, exists_const]
  constructor
  · rintro ⟨hobject, ⟨path, size⟩, hfields, hash, ⟨hfound, hmatches⟩, ⟨hlow, hhigh⟩, _, hpath,
      hsorted, htotal, rfl⟩
    obtain ⟨size, rfl⟩ := Int.eq_ofNat_of_zero_le hlow
    exact ⟨⟨path, hash, size⟩, ⟨hobject, hfields, hfound⟩,
      ⟨hpath, hmatches, Int.ofNat_le.mp hhigh⟩, hsorted, htotal, rfl⟩
  · rintro ⟨⟨path, hash, size⟩, ⟨hobject, hfields, hfound⟩, ⟨hpath, hmatches, hsize⟩, hsorted,
      htotal, rfl⟩
    exact ⟨hobject, (path, (size : Int)), hfields, hash, ⟨hfound, hmatches⟩,
      ⟨Int.natCast_nonneg size, Int.ofNat_le.mpr hsize⟩, (), hpath, hsorted, htotal, rfl⟩

/-- The scan takes the files that it reads one after the other. -/
theorem foldE_scanEntry {scan scan' : Server.ManifestScan} {entries : List Json}
    (hscan : scan.totalBytes ≤ Server.maxPackageBytes) :
    foldE (Server.scanEntry rt) scan entries = .ok scan' ↔
      ∃ files, List.Forall₂ ServerReads entries files ∧ (∀ file ∈ files, ServerTakes rt file) ∧
        (scan.previous.toList ++ files.map SkillSnapshotFile.path).Pairwise (· < ·) ∧
        scan.totalBytes + totalBytes files ≤ Server.maxPackageBytes ∧
        scan' = files.foldl scanNext scan := by
  induction entries generalizing scan with
  | nil =>
    constructor
    · rintro ⟨⟩
      refine ⟨[], .nil, fun _ h ↦ absurd h List.not_mem_nil, ?_, hscan, rfl⟩
      cases scan'.previous <;> simp
    · rintro ⟨files, hreads, -, -, -, rfl⟩
      cases hreads
      rfl
  | cons entry entries ih =>
    rw [foldE_cons_eq_ok]
    simp only [scanEntry_eq_ok]
    constructor
    · rintro ⟨_, ⟨file, hread, htakes, hprevious, hfits, rfl⟩, hrest⟩
      obtain ⟨files, hreads, hall, hpair, htotal, rfl⟩ := (ih hfits).mp hrest
      refine ⟨file :: files, .cons hread hreads, List.forall_mem_cons.mpr ⟨htakes, hall⟩,
        pairwise_previous_iff.mpr ⟨hprevious, hpair⟩, ?_, rfl⟩
      rw [totalBytes, List.map_cons, List.sum_cons, ← Nat.add_assoc]
      exact htotal
    · rintro ⟨_, hreads, hall, hpair, htotal, rfl⟩
      obtain _ | ⟨hread, hreads⟩ := hreads
      rename_i file files
      obtain ⟨htakes, hall⟩ := List.forall_mem_cons.mp hall
      obtain ⟨hprevious, hpair⟩ := pairwise_previous_iff.mp hpair
      rw [totalBytes, List.map_cons, List.sum_cons, ← Nat.add_assoc] at htotal
      have hfits : scan.totalBytes + file.sizeBytes ≤ Server.maxPackageBytes :=
        (Nat.le_add_right _ _).trans htotal
      exact ⟨_, ⟨file, hread, htakes, hprevious, hfits, rfl⟩,
        (ih hfits).mpr ⟨files, hreads, hall, hpair, htotal, rfl⟩⟩

theorem foldl_scanNext (files : List SkillSnapshotFile) (scan : Server.ManifestScan) :
    (files.foldl scanNext scan).normalized = scan.normalized ++ files.map manifestFile ∧
      ((files.foldl scanNext scan).hasEntrypoint = true ↔
        scan.hasEntrypoint = true ∨ ∃ file ∈ files, file.path = skillEntrypoint) := by
  induction files generalizing scan with
  | nil => simp
  | cons file files ih =>
    obtain ⟨hnormalized, hentry⟩ := ih (scanNext scan file)
    rw [List.foldl_cons, hnormalized, hentry]
    constructor
    · simp [scanNext]
    · simp [scanNext, or_assoc]

/-- A list of files that the server takes. -/
structure ServerTakesAll (rt : Server.Runtime) (files : List SkillSnapshotFile) : Prop where
  each : ∀ file ∈ files, ServerTakes rt file
  sorted : (files.map SkillSnapshotFile.path).Pairwise (· < ·)
  entrypoint : ∃ file ∈ files, file.path = skillEntrypoint
  total : totalBytes files ≤ Server.maxPackageBytes

/-- What the server reads of a value. -/
structure ServerReadsAll (rt : Server.Runtime) (value : Json) (files : List SkillSnapshotFile) :
    Prop where
  object : Server.isObject value = true
  version : Server.isFormatVersion rt (value.get "format_version") = true
  files : ∃ entries, Server.manifestFiles value = some entries ∧
    List.Forall₂ ServerReads entries files

/-- The server takes the manifests whose files it reads and takes. -/
theorem validateSnapshotManifestBytes_eq_ok {bytes : ByteArray} {value : Json}
    {normalized : List Server.ManifestFile} (hjson : rt.jsonLoads bytes = some value) :
    Server.validateSnapshotManifestBytes rt bytes = .ok normalized ↔
      bytes.size ≤ Server.maxManifestBytes ∧ ∃ files, ServerReadsAll rt value files ∧
        files.length ≤ Server.maxSnapshotFiles ∧ ServerTakesAll rt files ∧
        normalized = files.map manifestFile := by
  have hstart : Server.ManifestScan.start.totalBytes ≤ Server.maxPackageBytes := Nat.zero_le _
  unfold Server.validateSnapshotManifestBytes
  simp only [bind_eq_ok, require_eq_ok, okOr_eq_ok, hjson, Except.ok.injEq, Option.some.injEq,
    foldE_scanEntry hstart]
  constructor
  · rintro ⟨_, hsize, _, rfl, _, hobject, _, hversion, entries, hentries, _, hcount, _,
      ⟨files, hreads, hall, hpair, htotal, rfl⟩, _, hentry, rfl⟩
    obtain ⟨hnormalized, hiff⟩ := foldl_scanNext files .start
    refine ⟨hsize, files, ⟨hobject, hversion, entries, hentries, hreads⟩,
      hreads.length_eq ▸ hcount, ⟨hall, hpair, ?_, ?_⟩, hnormalized⟩
    · exact (hiff.mp hentry).resolve_left Bool.false_ne_true
    · rw [← Nat.zero_add (totalBytes files)]
      exact htotal
  · rintro ⟨hsize, files, ⟨hobject, hversion, entries, hentries, hreads⟩, hcount,
      ⟨hall, hpair, hentry, htotal⟩, rfl⟩
    obtain ⟨hnormalized, hiff⟩ := foldl_scanNext files .start
    refine ⟨(), hsize, value, rfl, (), hobject, (), hversion, entries, hentries, (),
      hreads.length_eq ▸ hcount, _, ⟨files, hreads, hall, hpair, ?_, rfl⟩, (),
      hiff.mpr (.inr hentry), hnormalized⟩
    rw [← Nat.zero_add (totalBytes files)] at htotal
    exact htotal

/-! ## The checks of the desktop -/

/-- A file that the desktop takes where the server does. -/
structure IsPlainFile (file : SkillSnapshotFile) : Prop where
  path : ∀ c ∈ file.path.toList, isLateControl c = false
  blobHash : file.blobHash.toList.getLast? ≠ some '\n'

theorem fileValid_iff {file : SkillSnapshotFile} :
    file.Valid .default ↔ ServerTakes rt file ∧ IsPlainFile file := by
  constructor
  · intro h
    obtain ⟨hpath, hlate⟩ := (@isPortablePath_iff_server rt _).mp h.path
    obtain ⟨hhash, hlast⟩ := isCanonicalSha256_iff_server.mp h.blobHash
    exact ⟨⟨hpath, hhash, h.sizeBytes⟩, hlate, hlast⟩
  · intro ⟨htakes, hplain⟩
    exact ⟨isPortablePath_iff_server.mpr ⟨htakes.path, hplain.path⟩,
      isCanonicalSha256_iff_server.mpr ⟨htakes.blobHash, hplain.blobHash⟩, htakes.sizeBytes⟩

/-- The two have the same limits. -/
theorem valid_iff {manifest : SkillSnapshotManifest} :
    manifest.Valid .default ↔ manifest.files.length ≤ Server.maxSnapshotFiles ∧
      ServerTakesAll rt manifest.files ∧ ∀ file ∈ manifest.files, IsPlainFile file := by
  constructor
  · intro h
    refine ⟨h.count, ⟨fun file hfile ↦ ?_, h.sorted, h.entrypoint, h.total.2⟩, fun file hfile ↦ ?_⟩
    · exact (fileValid_iff.mp (h.files file hfile)).1
    · exact ((@fileValid_iff rt _).mp (h.files file hfile)).2
  · intro ⟨hcount, htakes, hplain⟩
    refine ⟨hcount, fun file hfile ↦ ?_, htakes.sorted, htakes.entrypoint, ?_, htakes.total⟩
    · exact fileValid_iff.mpr ⟨htakes.each file hfile, hplain file hfile⟩
    · exact htakes.total.trans_lt (by decide)

/-! ## Fields -/

section Fields

variable {fields : List (String × Document)} {names : List String} {arity index : ℕ}

theorem structField?_eq_some_iff {document : Document} :
    structField? (.object fields) arity index names = some document ↔
      ∃ name, Document.namedFields fields names = [(name, document)] :=
  Document.soleField?_eq_some_iff

theorem textField_iff {text : String} :
    (structField? (.object fields) arity index names).bind asText = some text ↔
      ∃ name, Document.namedFields fields names = [(name, .string text)] := by
  rw [Option.bind_eq_some_iff]
  simp only [structField?_eq_some_iff]
  constructor
  · rintro ⟨document, hfield, htext⟩
    cases document <;> cases htext
    exact hfield
  · exact fun hfield ↦ ⟨_, hfield, rfl⟩

theorem unsignedField_iff {bits magnitude : ℕ} :
    (structField? (.object fields) arity index names).bind (asUnsigned bits) = some magnitude ↔
      (∃ name, Document.namedFields fields names = [(name, .integer false magnitude)]) ∧
        magnitude < 2 ^ bits := by
  rw [Option.bind_eq_some_iff]
  simp only [structField?_eq_some_iff]
  constructor
  · rintro ⟨document, hfield, hnumber⟩
    unfold asUnsigned at hnumber
    split at hnumber
    case h_1 =>
      split at hnumber
      case isTrue hfits =>
        cases hnumber
        exact ⟨hfield, hfits⟩
      case isFalse => cases hnumber
    case h_2 => cases hnumber
  · intro ⟨hfield, hfits⟩
    exact ⟨_, hfield, asUnsigned_integer hfits⟩

theorem sequenceField_iff {items : List Document} :
    (structField? (.object fields) arity index names).bind asSequence = some items ↔
      ∃ name, Document.namedFields fields names = [(name, .array items)] := by
  rw [Option.bind_eq_some_iff]
  simp only [structField?_eq_some_iff]
  constructor
  · rintro ⟨document, hfield, hitems⟩
    cases document <;> cases hitems
    exact hfield
  · exact fun hfield ↦ ⟨_, hfield, rfl⟩

/-- A field with one name, in a dictionary. -/
theorem get_of_namedFields {name key : String} {document : Document}
    (h : Document.namedFields fields [key] = [(name, document)]) :
    (Document.object fields).value.get key = some document.value := by
  have hname : name = key := List.mem_singleton.mp
    (Document.mem_names_of_namedFields (h ▸ List.mem_singleton_self (name, document)))
  rw [Document.get_value_object, Document.lastField?_of_namedFields h (List.mem_singleton_self key),
    if_pos hname, Option.map_some]

/-- A field with two names, in a dictionary. -/
theorem getEither_of_namedFields {name first second : String} {document : Document}
    (h : Document.namedFields fields [first, second] = [(name, document)]) :
    Server.getEither (Document.object fields).value first second = some document.value := by
  have hname : name ∈ [first, second] :=
    Document.mem_names_of_namedFields (h ▸ List.mem_singleton_self (name, document))
  rw [Server.getEither, Document.get_value_object, Document.get_value_object,
    Document.lastField?_of_namedFields h (by simp), Document.lastField?_of_namedFields h (by simp)]
  by_cases hfirst : name = first
  · rw [if_pos hfirst, Option.map_some, Option.some_or]
  · have hsecond : name = second := by simpa [hfirst] using hname
    rw [if_neg hfirst, if_pos hsecond, Option.map_none, Option.none_or, Option.map_some]

end Fields

/-! ## Entries -/

/-- The fields occur once each, under one of their names. -/
structure HasSoleFields (fields : List (String × Document)) (file : SkillSnapshotFile) : Prop where
  path : ∃ name, Document.namedFields fields ["path"] = [(name, .string file.path)]
  blobHash : ∃ name, Document.namedFields fields ["blobHash", "blob_hash"] =
    [(name, .string file.blobHash)]
  sizeBytes : ∃ name, Document.namedFields fields ["sizeBytes", "size_bytes"] =
    [(name, .integer false file.sizeBytes)]

theorem ofDocument_object_iff {fields : List (String × Document)} {file : SkillSnapshotFile} :
    SkillSnapshotFile.ofDocument (.object fields) = some file ↔
      HasSoleFields fields file ∧ file.sizeBytes < 2 ^ 64 := by
  unfold SkillSnapshotFile.ofDocument
  simp only [Option.bind_eq_bind, Option.bind_eq_some_iff (x := Option.bind _ _), textField_iff,
    unsignedField_iff, Option.some.injEq]
  constructor
  · rintro ⟨path, hpath, hash, hhash, size, ⟨hsize, hfits⟩, rfl⟩
    exact ⟨⟨hpath, hhash, hsize⟩, hfits⟩
  · rintro ⟨h, hfits⟩
    exact ⟨_, h.path, _, h.blobHash, _, ⟨h.sizeBytes, hfits⟩, rfl⟩

/-- The server reads the same of such an entry. -/
theorem serverReads_of_hasSoleFields {fields : List (String × Document)} {file : SkillSnapshotFile}
    (h : HasSoleFields fields file) : ServerReads (Document.object fields).value file := by
  obtain ⟨_, hpath⟩ := h.path
  obtain ⟨_, hhash⟩ := h.blobHash
  obtain ⟨_, hsize⟩ := h.sizeBytes
  refine ⟨rfl, ?_, getEither_of_namedFields hhash⟩
  rw [Server.entryFields, get_of_namedFields hpath, getEither_of_namedFields hsize]
  rfl

theorem serverReads_rightUnique : Relator.RightUnique ServerReads := by
  intro entry file file' h h'
  have hfields := h.fields.symm.trans h'.fields
  have hhash := h.blobHash.symm.trans h'.blobHash
  rw [Option.some.injEq, Prod.mk.injEq, Int.natCast_inj] at hfields
  rw [Option.some.injEq, Json.string.injEq] at hhash
  obtain ⟨path, hash, size⟩ := file
  obtain ⟨path', hash', size'⟩ := file'
  rw [SkillSnapshotFile.mk.injEq]
  exact ⟨hfields.1, hhash, hfields.2⟩

/-- What the server takes for an object is one. -/
theorem exists_fields_of_isObject {document : Document}
    (h : Server.isObject document.value = true) : ∃ fields, document = .object fields := by
  cases document with
  | object fields => exact ⟨fields, rfl⟩
  | integer negative magnitude => cases h
  | _ => cases h

theorem isObject_of_serverReads {entries : List Document} {files : List SkillSnapshotFile}
    (h : List.Forall₂ ServerReads (Document.values entries) files) :
    ∀ entry ∈ entries, Server.isObject entry.value = true := by
  rw [Document.values_eq_map, List.forall₂_map_left_iff] at h
  exact ((List.forall₂_and_left _ _).mp (h.imp fun _ _ hread ↦ ⟨hread.object, hread⟩)).1

theorem hasSoleFields_toDocument (file : SkillSnapshotFile) :
    HasSoleFields file.toDocument.fields file :=
  ⟨⟨"path", rfl⟩, ⟨"blobHash", rfl⟩, ⟨"sizeBytes", rfl⟩⟩

theorem serverReads_toDocument (file : SkillSnapshotFile) :
    ServerReads file.toDocument.value file :=
  serverReads_of_hasSoleFields (hasSoleFields_toDocument file)

/-- A list of entries that are objects reads the same for both. -/
theorem forall₂_serverReads {entries : List Document} {files : List SkillSnapshotFile}
    (hobjects : ∀ entry ∈ entries, Server.isObject entry.value = true)
    (h : List.Forall₂ (fun entry file ↦ SkillSnapshotFile.ofDocument entry = some file) entries
      files) :
    List.Forall₂ ServerReads (Document.values entries) files := by
  rw [Document.values_eq_map, List.forall₂_map_left_iff]
  induction h with
  | nil => exact .nil
  | cons hfirst _ ih =>
    obtain ⟨hobject, hrest⟩ := List.forall_mem_cons.mp hobjects
    obtain ⟨fields, rfl⟩ := exists_fields_of_isObject hobject
    exact .cons (serverReads_of_hasSoleFields (ofDocument_object_iff.mp hfirst).1) (ih hrest)

theorem manifest_ofDocument_object_iff {fields : List (String × Document)}
    {manifest : SkillSnapshotManifest} :
    SkillSnapshotManifest.ofDocument (.object fields) = some manifest ↔
      ((∃ name, Document.namedFields fields ["formatVersion", "format_version"] =
        [(name, .integer false manifest.formatVersion)]) ∧ manifest.formatVersion < 2 ^ 32) ∧
      ∃ entries, (∃ name, Document.namedFields fields ["files"] = [(name, .array entries)]) ∧
        List.Forall₂ (fun entry file ↦ SkillSnapshotFile.ofDocument entry = some file) entries
          manifest.files := by
  unfold SkillSnapshotManifest.ofDocument
  simp only [Option.bind_eq_bind, Option.bind_eq_some_iff (x := Option.bind _ _),
    Option.bind_eq_some_iff (x := List.mapM _ _), sequenceField_iff,
    unsignedField_iff, mapM_eq_some_iff, Option.some.injEq]
  constructor
  · rintro ⟨version, hversion, entries, hentries, files, hfiles, rfl⟩
    exact ⟨hversion, entries, hentries, hfiles⟩
  · rintro ⟨hversion, entries, hentries, hfiles⟩
    exact ⟨_, hversion, entries, hentries, _, hfiles, rfl⟩

/-! ## Manifests -/

/-- A manifest whose fields occur once each, with plain files and no negative numbers. -/
structure IsPlain (document : Document) : Prop where
  version : ∃ name, Document.namedFields document.fields ["formatVersion", "format_version"] =
    [(name, .integer false 1)]
  files : ∃ entries, (∃ name, Document.namedFields document.fields ["files"] =
    [(name, .array entries)]) ∧
      ∀ entry ∈ entries, ∃ file, HasSoleFields entry.fields file ∧ IsPlainFile file

/-- The names that the server knows, and objects where it wants them. -/
structure HasServerNames (document : Document) : Prop where
  object : Server.isObject document.value = true
  version : "format_version" ∈ document.fields.map Prod.fst
  entries : ∀ entries, ("files", .array entries) ∈ document.fields →
    ∀ entry ∈ entries, Server.isObject entry.value = true

theorem manifestFiles_of_namedFields {fields : List (String × Document)} {name : String}
    {entries : List Document}
    (h : Document.namedFields fields ["files"] = [(name, .array entries)]) :
    Server.manifestFiles (Document.object fields).value = some (Document.values entries) := by
  rw [Server.manifestFiles, get_of_namedFields h]
  rfl

theorem isObject_of_serverReadsAll {fields : List (String × Document)} {name : String}
    {entries : List Document} {files : List SkillSnapshotFile}
    (hentries : Document.namedFields fields ["files"] = [(name, .array entries)])
    (hreads : ServerReadsAll rt (Document.object fields).value files) :
    List.Forall₂ ServerReads (Document.values entries) files ∧
      ∀ entry ∈ entries, Server.isObject entry.value = true := by
  obtain ⟨values, hvalues, hall⟩ := hreads.files
  rw [manifestFiles_of_namedFields hentries, Option.some.injEq] at hvalues
  subst hvalues
  exact ⟨hall, isObject_of_serverReads hall⟩

/-- What the server reads of a manifest that the desktop reads. -/
theorem serverReadsAll_unique {fields : List (String × Document)} {manifest : SkillSnapshotManifest}
    {files : List SkillSnapshotFile}
    (h : SkillSnapshotManifest.ofDocument (.object fields) = some manifest)
    (hreads : ServerReadsAll rt (Document.object fields).value files) : files = manifest.files := by
  obtain ⟨-, entries, ⟨name, hentries⟩, hfiles⟩ := manifest_ofDocument_object_iff.mp h
  obtain ⟨hall, hobjects⟩ := isObject_of_serverReadsAll hentries hreads
  exact serverReads_rightUnique.forall₂ hall (forall₂_serverReads hobjects hfiles)

theorem exists_hasSoleFields {entries : List Document} {files : List SkillSnapshotFile}
    (hobjects : ∀ entry ∈ entries, Server.isObject entry.value = true)
    (h : List.Forall₂ (fun entry file ↦ SkillSnapshotFile.ofDocument entry = some file) entries
      files)
    (hplain : ∀ file ∈ files, IsPlainFile file) :
    ∀ entry ∈ entries, ∃ file, HasSoleFields entry.fields file ∧ IsPlainFile file := by
  induction h with
  | nil => exact fun entry hentry ↦ absurd hentry List.not_mem_nil
  | cons hfirst _ ih =>
    obtain ⟨hobject, hrest⟩ := List.forall_mem_cons.mp hobjects
    obtain ⟨hfile, hfiles⟩ := List.forall_mem_cons.mp hplain
    obtain ⟨fields, rfl⟩ := exists_fields_of_isObject hobject
    exact List.forall_mem_cons.mpr
      ⟨⟨_, (ofDocument_object_iff.mp hfirst).1, hfile⟩, ih hrest hfiles⟩

/-- A plain manifest whose files the server takes is a manifest for the desktop. -/
theorem ofDocument_of_isPlain {fields : List (String × Document)} {files : List SkillSnapshotFile}
    (hplain : IsPlain (.object fields))
    (hreads : ServerReadsAll rt (Document.object fields).value files)
    (htakes : ServerTakesAll rt files) :
    SkillSnapshotManifest.ofDocument (.object fields) = some ⟨1, files⟩ ∧
      ∀ file ∈ files, IsPlainFile file := by
  obtain ⟨entries, ⟨name, hentries⟩, hall⟩ := hplain.files
  obtain ⟨hread, hobjects⟩ := isObject_of_serverReadsAll hentries hreads
  rw [Document.values_eq_map, List.forall₂_map_left_iff] at hread
  have hfile : ∀ entry ∈ entries, ∀ file, ServerReads entry.value file → ServerTakes rt file →
      SkillSnapshotFile.ofDocument entry = some file ∧ IsPlainFile file := by
    intro entry hentry file hfile htake
    obtain ⟨fields, rfl⟩ := exists_fields_of_isObject (hobjects entry hentry)
    obtain ⟨file', hsole, hfilePlain⟩ := hall _ hentry
    obtain rfl := serverReads_rightUnique hfile (serverReads_of_hasSoleFields hsole)
    exact ⟨ofDocument_object_iff.mpr ⟨hsole, htake.sizeBytes.trans_lt (by decide)⟩, hfilePlain⟩
  have hboth : List.Forall₂ (fun entry file ↦ SkillSnapshotFile.ofDocument entry = some file ∧
      IsPlainFile file) entries files := by
    clear hentries hall hobjects hreads
    obtain ⟨htakes, -, -, -⟩ := htakes
    induction hread with
    | nil => exact .nil
    | cons hfirst _ ih =>
      obtain ⟨htake, hrest⟩ := List.forall_mem_cons.mp htakes
      obtain ⟨hdocument, hdocuments⟩ := List.forall_mem_cons.mp hfile
      exact .cons (hdocument _ hfirst htake) (ih hdocuments hrest)
  have hversion : (1 : ℕ) < 2 ^ 32 := by decide
  refine ⟨manifest_ofDocument_object_iff.mpr ⟨⟨hplain.version, hversion⟩, entries,
    ⟨name, hentries⟩, hboth.imp fun _ _ h ↦ h.1⟩, ?_⟩
  exact ((List.forall₂_and_left _ _).mp (hboth.imp fun _ _ h ↦ ⟨h.2, h.2⟩).flip).1

theorem mem_map_fst_of_get {fields : List (String × Document)} {key : String} {value : Json}
    (h : (Document.object fields).value.get key = some value) : key ∈ fields.map Prod.fst := by
  rw [Document.get_value_object] at h
  obtain ⟨document, hlast, -⟩ := Option.map_eq_some_iff.mp h
  obtain ⟨field, hfield, -⟩ := Option.map_eq_some_iff.mp hlast
  obtain ⟨hmem, hname⟩ := List.mem_filter.mp (List.mem_of_getLast? hfield)
  exact List.mem_map.mpr ⟨field, hmem, of_decide_eq_true hname⟩

/-- The server reads a manifest of the desktop exactly if it has the server's names. -/
theorem serverReadsAll_iff_hasServerNames {document : Document} {manifest : SkillSnapshotManifest}
    (h : SkillSnapshotManifest.ofDocument document = some manifest)
    (hversion : manifest.formatVersion = 1) :
    ServerReadsAll rt document.value manifest.files ↔ HasServerNames document := by
  constructor
  · intro hreads
    obtain ⟨fields, rfl⟩ := exists_fields_of_isObject hreads.object
    obtain ⟨-, entries, ⟨name, hentries⟩, -⟩ := manifest_ofDocument_object_iff.mp h
    refine ⟨hreads.object, ?_, fun items hitems ↦ ?_⟩
    · cases hget : (Document.object fields).value.get "format_version" with
      | none =>
        have hversion := hreads.version
        rw [hget] at hversion
        cases hversion
      | some value => exact mem_map_fst_of_get hget
    · have hfield : ("files", Document.array items) ∈ Document.namedFields fields ["files"] :=
        List.mem_filter.mpr ⟨hitems, rfl⟩
      rw [hentries, List.mem_singleton, Prod.mk.injEq, Document.array.injEq] at hfield
      exact hfield.2 ▸ (isObject_of_serverReadsAll hentries hreads).2
  · intro hnames
    obtain ⟨fields, rfl⟩ := exists_fields_of_isObject hnames.object
    obtain ⟨⟨⟨name, hfield⟩, -⟩, entries, ⟨filesName, hentries⟩, hall⟩ :=
      manifest_ofDocument_object_iff.mp h
    refine ⟨hnames.object, ?_, _, manifestFiles_of_namedFields hentries,
      forall₂_serverReads (hnames.entries entries ?_) hall⟩
    · obtain ⟨⟨found, document⟩, hmem, hname⟩ := List.mem_map.mp hnames.version
      obtain rfl : found = "format_version" := hname
      have hsole : ("format_version", document) ∈
          Document.namedFields fields ["formatVersion", "format_version"] :=
        List.mem_filter.mpr ⟨hmem, rfl⟩
      rw [hfield, List.mem_singleton, Prod.mk.injEq] at hsole
      obtain ⟨rfl, -⟩ := hsole
      rw [Document.get_value_object, Document.lastField?_of_namedFields hfield (by simp),
        if_pos rfl, hversion]
      rfl
    · have hmem : (filesName, Document.array entries) ∈ Document.namedFields fields ["files"] :=
        hentries ▸ List.mem_singleton_self _
      obtain rfl := List.mem_singleton.mp (Document.mem_names_of_namedFields hmem)
      exact (List.mem_filter.mp hmem).1

/-! ## What one accepts and the other reads -/

section Readers

variable {libs : Libraries} {blobs : BlobStore} {manifestHash : String} {bytes : ByteArray}
  {document : Document}

/-- Of what the server accepts, the desktop reads the plain manifests, with the same files. -/
theorem readManifest_iff_isPlain {normalized : List Server.ManifestFile}
    (hread : blobs.readBytes libs manifestHash = .ok bytes)
    (hslice : ∀ found ∈ libs.fromSlice bytes, found = document)
    (hjson : rt.jsonLoads bytes = some document.value)
    (haccept : Server.validateSnapshotManifestBytes rt bytes = .ok normalized)
    (manifest : SkillSnapshotManifest) :
    readManifest libs blobs manifestHash = .ok manifest ↔
      (libs.fromSlice bytes = some document ∧ IsPlain document) ∧
        manifest.formatVersion = 1 ∧ manifest.files.map manifestFile = normalized := by
  obtain ⟨-, files, hreads, hcount, htakes, rfl⟩ :=
    (validateSnapshotManifestBytes_eq_ok hjson).mp haccept
  obtain ⟨fields, rfl⟩ := exists_fields_of_isObject hreads.object
  constructor
  · intro h
    obtain ⟨_, found, hbytes, hfound, hdocument, hversion, hvalid⟩ :=
      readManifestWithPolicy_eq_ok.mp h
    cases hread.symm.trans hbytes
    obtain rfl := hslice found hfound
    obtain rfl := serverReadsAll_unique hdocument hreads
    obtain ⟨⟨hname, -⟩, entries, hentries, hall⟩ := manifest_ofDocument_object_iff.mp hdocument
    have hversion : manifest.formatVersion = 1 := hversion
    rw [hversion] at hname
    obtain ⟨-, -, hplain⟩ := (@valid_iff rt _).mp hvalid
    obtain ⟨_, hfiles⟩ := hentries
    have hobjects := (isObject_of_serverReadsAll hfiles hreads).2
    exact ⟨⟨hfound, hname, entries, ⟨_, hfiles⟩, exists_hasSoleFields hobjects hall hplain⟩,
      hversion, rfl⟩
  · rintro ⟨⟨hfound, hplain⟩, hversion, hfiles⟩
    obtain ⟨hdocument, hall⟩ := ofDocument_of_isPlain hplain hreads htakes
    obtain rfl : manifest = ⟨1, files⟩ := by
      obtain ⟨version, found⟩ := manifest
      rw [SkillSnapshotManifest.mk.injEq]
      exact ⟨hversion, List.map_injective_iff.mpr manifestFile_injective hfiles⟩
    exact readManifestWithPolicy_eq_ok.mpr ⟨bytes, _, hread, hfound, hdocument, rfl,
      valid_iff.mpr ⟨hcount, htakes, hall⟩⟩

/-- Of what the desktop reads, the server accepts the manifests with its own names. -/
theorem validateSnapshotManifestBytes_iff_hasServerNames {manifest : SkillSnapshotManifest}
    (hread : blobs.readBytes libs manifestHash = .ok bytes)
    (hslice : libs.fromSlice bytes = some document)
    (hjson : rt.jsonLoads bytes = some document.value)
    (hmanifest : readManifest libs blobs manifestHash = .ok manifest)
    (normalized : List Server.ManifestFile) :
    Server.validateSnapshotManifestBytes rt bytes = .ok normalized ↔
      (bytes.size ≤ Server.maxManifestBytes ∧ HasServerNames document) ∧
        normalized = manifest.files.map manifestFile := by
  obtain ⟨_, _, hbytes, hfound, hdocument, hversion, hvalid⟩ :=
    readManifestWithPolicy_eq_ok.mp hmanifest
  cases hread.symm.trans hbytes
  cases hslice.symm.trans hfound
  obtain ⟨hcount, htakes, -⟩ := (@valid_iff rt _).mp hvalid
  have hnames := @serverReadsAll_iff_hasServerNames rt _ _ hdocument hversion
  rw [validateSnapshotManifestBytes_eq_ok hjson]
  constructor
  · rintro ⟨hsize, files, hreads, -, -, rfl⟩
    obtain rfl : files = manifest.files := by
      obtain ⟨fields, rfl⟩ := exists_fields_of_isObject hreads.object
      exact serverReadsAll_unique hdocument hreads
    exact ⟨⟨hsize, hnames.mp hreads⟩, rfl⟩
  · rintro ⟨⟨hsize, hserver⟩, rfl⟩
    exact ⟨hsize, manifest.files, hnames.mpr hserver, hcount, htakes, rfl⟩

end Readers

/-! ## A control character and a name -/

section Texts

variable (text : String) (document : Document) (hash : Server.BlobHash)

/-- The libraries of the server on one text. -/
def runtimeOf : Server.Runtime where
  jsonLoads bytes := if bytes = text.toUTF8 then some document.value else none
  realEqualsOne literal := literal = "1.0"
  decodeReplace _ := text
  sha256 _ := hash
  repr text := "'" ++ text ++ "'"

/-- The libraries of the desktop on one text. -/
def librariesOf : Libraries where
  hashBytes bytes := if bytes = text.toUTF8 then hash.text else ""
  fromSlice bytes := if bytes = text.toUTF8 then some document else none
  toVec _ := text.toUTF8

def storeOf : BlobStore where
  rows := [⟨hash.text, text.toUTF8⟩]
  nodup_keys := by simp

theorem jsonLoads_runtimeOf :
    (runtimeOf text document hash).jsonLoads text.toUTF8 = some document.value := if_pos rfl

theorem fromSlice_librariesOf :
    (librariesOf text document hash).fromSlice text.toUTF8 = some document := if_pos rfl

theorem readBytes_storeOf :
    (storeOf text hash).readBytes (librariesOf text document hash) hash.text = .ok text.toUTF8 :=
  BlobStore.readBytes_eq_ok.mpr ⟨(isCanonicalSha256_iff _).mpr hash.canonical, if_pos rfl, by
    simp [Table.get?, storeOf]⟩

end Texts

/-- The file of the sample, under a name that ends in DEL too. -/
def lateFiles : List SkillSnapshotFile :=
  [⟨"SKILL.md", sampleSkillHash, 8⟩, ⟨"a\x7f", sampleSkillHash, 8⟩]

def lateDocument : Document :=
  .object [("format_version", .integer false 1),
    ("files", .array (lateFiles.map SkillSnapshotFile.toDocument))]

def lateText : String :=
  "\x7b\"format_version\":1,\"files\":[" ++
    ",".intercalate (lateFiles.map fun file ↦ sampleFileText file.path) ++ "]\x7d"

def lateHash : Server.BlobHash :=
  ⟨"sha256:ddb01795c18d5bb70163352a61f93103433ac8e06a2a6c412fb3706bb29b884b", by decide⟩

theorem serverTakesAll_lateFiles : ServerTakesAll rt lateFiles := by
  have hpaths : ∀ file ∈ lateFiles, (file.path ≠ "" ∧ file.path.toList.head? ≠ some '/' ∧
      '\\' ∉ file.path.toList) ∧ ∀ segment ∈ file.path.toList.splitOn '/',
        Server.isInvalidSegment segment = false ∧
          Server.segmentStem segment ∉ Server.reservedStems := by decide +kernel
  have hhashes : ∀ file ∈ lateFiles, Server.matchesSha256 file.blobHash = true := by
    decide +kernel
  have hsizes : ∀ file ∈ lateFiles, file.sizeBytes ≤ Server.maxBlobBytes := by decide +kernel
  refine ⟨fun file hfile ↦ ?_, by decide +kernel, by decide +kernel, by decide +kernel⟩
  exact ⟨validatePortablePath_eq_ok.mpr (hpaths file hfile), hhashes file hfile, hsizes file hfile⟩

/-- The server accepts the name, and no desktop reads the manifest. -/
theorem late_not_read :
    Server.validateSnapshotManifestBytes (runtimeOf lateText lateDocument lateHash)
        lateText.toUTF8 = .ok (lateFiles.map manifestFile) ∧
      ∀ manifest, readManifest (librariesOf lateText lateDocument lateHash)
        (storeOf lateText lateHash) lateHash.text ≠ .ok manifest := by
  have hjson := jsonLoads_runtimeOf lateText lateDocument lateHash
  have haccept : Server.validateSnapshotManifestBytes (runtimeOf lateText lateDocument lateHash)
      lateText.toUTF8 = .ok (lateFiles.map manifestFile) := by
    refine (validateSnapshotManifestBytes_eq_ok hjson).mpr ⟨by decide +kernel, lateFiles,
      ⟨rfl, rfl, _, rfl, ?_⟩, by decide, serverTakesAll_lateFiles, rfl⟩
    rw [Document.values_eq_map, List.forall₂_map_left_iff, List.forall₂_map_left_iff]
    exact List.forall₂_same.mpr fun file _ ↦ serverReads_toDocument file
  refine ⟨haccept, fun manifest h ↦ ?_⟩
  have hread := readBytes_storeOf lateText lateDocument lateHash
  have hslice : ∀ found ∈ (librariesOf lateText lateDocument lateHash).fromSlice lateText.toUTF8,
      found = lateDocument := fun found hfound ↦
    (Option.some.inj ((fromSlice_librariesOf lateText lateDocument lateHash).symm.trans hfound)).symm
  obtain ⟨⟨-, hplain⟩, -, -⟩ :=
    (readManifest_iff_isPlain hread hslice hjson haccept manifest).mp h
  obtain ⟨entries, ⟨name, hentries⟩, hall⟩ := hplain.files
  have hfiles : Document.namedFields lateDocument.fields ["files"] =
      [("files", .array (lateFiles.map SkillSnapshotFile.toDocument))] := rfl
  rw [hfiles, List.cons.injEq, Prod.mk.injEq, Document.array.injEq] at hentries
  obtain ⟨⟨-, rfl⟩, -⟩ := hentries
  have hmem : (⟨"a\x7f", sampleSkillHash, 8⟩ : SkillSnapshotFile) ∈ lateFiles := by decide
  obtain ⟨file, hsole, hfile⟩ := hall _ (List.mem_map_of_mem hmem)
  obtain rfl := serverReads_rightUnique (serverReads_toDocument ⟨"a\x7f", sampleSkillHash, 8⟩)
    (serverReads_of_hasSoleFields hsole)
  exact absurd (hfile.path '\x7f' (by decide)) (by decide)

def plainHash : Server.BlobHash := ⟨plainDigest, by decide⟩

/-- The desktop reads its own manifest, and the server refuses it. -/
theorem plain_not_accepted :
    ¬ ∃ normalized, Server.validateSnapshotManifestBytes
      (runtimeOf (sampleText plainPaths) (sampleManifest plainPaths).toDocument plainHash)
      (sampleText plainPaths).toUTF8 = .ok normalized := by
  rintro ⟨normalized, h⟩
  have hread := readBytes_storeOf (sampleText plainPaths)
    (sampleManifest plainPaths).toDocument plainHash
  have hslice := fromSlice_librariesOf (sampleText plainPaths)
    (sampleManifest plainPaths).toDocument plainHash
  have hsizes : ∀ file ∈ (sampleManifest plainPaths).files, file.sizeBytes < 2 ^ 64 := by decide
  have hmanifest := readManifestWithPolicy_eq_ok.mpr ⟨_, _, hread, hslice,
    SkillSnapshotManifest.ofDocument_toDocument (by decide) hsizes, rfl,
    (readManifest_valid readManifest_plain).2⟩
  obtain ⟨⟨-, hnames⟩, -⟩ := (validateSnapshotManifestBytes_iff_hasServerNames hread hslice
    (jsonLoads_runtimeOf _ _ _) hmanifest normalized).mp h
  exact absurd hnames.version (by decide)

end Sync

end SkillHive
