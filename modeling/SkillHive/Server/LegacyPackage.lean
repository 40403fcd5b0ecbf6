import SkillHive.Server.PackageManifest

/-!
# Packages of browser-written skills

A write that carries only legacy content gets a minimal package: an entrypoint rendered
from the content and a manifest that names it, both registered as blobs.
-/

namespace SkillHive

open Foundation

namespace Server

/-- The line boundaries of `str.splitlines`. -/
def isLineBreak (c : Char) : Bool :=
  [0x0A, 0x0B, 0x0C, 0x0D, 0x1C, 0x1D, 0x1E, 0x85, 0x2028, 0x2029].contains c.toNat

/-- `text.splitlines()`; the line being read is kept in reverse. -/
def splitLines (line : List Char) : List Char → List (List Char)
  | [] => if line = [] then [] else [line.reverse]
  | '\r' :: '\n' :: rest => line.reverse :: splitLines [] rest
  | c :: rest =>
    if isLineBreak c then line.reverse :: splitLines [] rest else splitLines (c :: line) rest

/-- `json.dumps` of one character of a string, with `ensure_ascii=False`. -/
def jsonEscape (c : Char) : List Char :=
  match c with
  | '"' => ['\\', '"']
  | '\\' => ['\\', '\\']
  | '\n' => ['\\', 'n']
  | '\r' => ['\\', 'r']
  | '\t' => ['\\', 't']
  | '\x08' => ['\\', 'b']
  | '\x0c' => ['\\', 'f']
  | c =>
    if c.toNat < 0x20 then
      "\\u00".toList ++ [Nat.digitChar (c.toNat / 16), Nat.digitChar (c.toNat % 16)]
    else [c]

/-- `json.dumps(text, ensure_ascii=False)` -/
def jsonString (text : String) : String :=
  "\"" ++ String.ofList (text.toList.flatMap jsonEscape) ++ "\""

/-- `_entrypoint_markdown` -/
def entrypointMarkdown (slug description body : String) : String :=
  let safeDescription := strip (" ".intercalate
    ((splitLines [] description.toList).map String.ofList))
  let yamlDescription := jsonString safeDescription
  let stripped := strip body
  s!"---\nname: {slug}\ndescription: {yamlDescription}\n---\n\n{stripped}\n"

/-- `_legacy_body` -/
def legacyBody (content : Json) : String :=
  match content.get "skill_markdown", content.get "instructions" with
  | some (.string markdown), instructions =>
    if strip markdown ≠ "" then markdown else (instructions.bind Json.asStr).getD ""
  | _, instructions => (instructions.bind Json.asStr).getD ""

/-- `_canonical_manifest_bytes` of the manifest that names the one entrypoint. -/
def canonicalManifest (entrypointHash : BlobHash) (sizeBytes : ℕ) : String :=
  let hash := entrypointHash.text
  s!"\x7b\"format_version\":1,\"files\":[\x7b\"path\":\"SKILL.md\",\"blobHash\":\"{hash}\",\"sizeBytes\":{sizeBytes}\x7d]\x7d"

/-- Store the entrypoint and the manifest that names it; the hash is the manifest's. -/
def registerPackage (rt : Runtime) (db : Database) (storage : BlobStorage)
    (entrypointBytes : ByteArray) : Except ServerError (Database × Option BlobHash) := do
  let entrypointHash := rt.sha256 entrypointBytes
  let db ← registerVerifiedBlob db storage entrypointHash entrypointBytes
  let manifestBytes := (canonicalManifest entrypointHash entrypointBytes.size).toUTF8
  let db ← registerVerifiedBlob db storage (rt.sha256 manifestBytes) manifestBytes
  .ok (db, some (rt.sha256 manifestBytes))

/-- `synthesize_legacy_package`; `None` for a content without a usable body. -/
def synthesizeLegacyPackage (rt : Runtime) (db : Database) (storage : BlobStorage)
    (slug description : String) (content : Json) :
    Except ServerError (Database × Option BlobHash) :=
  if strip (legacyBody content) = "" then .ok (db, none)
  else registerPackage rt db storage
    (entrypointMarkdown slug description (legacyBody content)).toUTF8

theorem synthesizeLegacyPackage_sameButBlobs {rt : Runtime} {db db' : Database}
    {storage : BlobStorage} {slug description : String} {content : Json} {hash : Option BlobHash}
    (h : synthesizeLegacyPackage rt db storage slug description content = .ok (db', hash)) :
    db.SameButBlobs db' := by
  unfold synthesizeLegacyPackage at h
  split at h
  · cases h
    exact .refl db
  · obtain ⟨db₁, hentrypoint, h⟩ := bind_eq_ok.mp h
    obtain ⟨db₂, hmanifest, h⟩ := bind_eq_ok.mp h
    cases h
    exact (registerVerifiedBlob_sameButBlobs hentrypoint).trans
      (registerVerifiedBlob_sameButBlobs hmanifest)

end Server

end SkillHive
