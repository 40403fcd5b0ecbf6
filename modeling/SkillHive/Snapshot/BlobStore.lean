import Mathlib.Algebra.GroupWithZero.Nat
import SkillHive.Foundation.Document
import SkillHive.Foundation.Table
import SkillHive.Foundation.Transaction

/-!
# The desktop's blob store

Every file of the store is named by the digest of the bytes that were written to it, and a
read computes the digest again, so bytes that no longer match their name are never handed
out. The digest and the JSON codec are libraries that the store is parameterized by.
-/

namespace SkillHive

open Foundation

namespace Snapshot

/-- The libraries of the desktop that bytes are handed to. -/
structure Libraries where
  /-- `hash_bytes` -/
  hashBytes : ByteArray → String
  /-- The document that `serde_json::from_slice` reads; `none` for a syntax error. -/
  fromSlice : ByteArray → Option Document
  /-- `serde_json::to_vec` -/
  toVec : Document → ByteArray

inductive BlobStoreError where
  | invalidHash (hash : String)
  | notFound (hash : String)
  | hashMismatch (expected actual : String)
  | corruptedExistingBlob (hash : String)
  deriving DecidableEq, Repr

/-- `byte.is_ascii_hexdigit() && !byte.is_ascii_uppercase()` -/
def isLowerHexdigit (c : Char) : Bool :=
  (('0' ≤ c ∧ c ≤ '9') ∨ ('a' ≤ c ∧ c ≤ 'f') ∨ ('A' ≤ c ∧ c ≤ 'F')) ∧ ¬ ('A' ≤ c ∧ c ≤ 'Z')

/-- `is_canonical_sha256`, the test that `path_for_hash` makes as well. -/
def isCanonicalSha256 (value : String) : Bool :=
  value.toList.take 7 = "sha256:".toList ∧ (value.toList.drop 7).length = 64 ∧
    (value.toList.drop 7).all isLowerHexdigit

/-- A file of the store. -/
structure StoredBlob where
  hash : String
  bytes : ByteArray

/-- The files of the store, by the names that their paths spell. -/
abbrev BlobStore := Table StoredBlob StoredBlob.hash

variable (libs : Libraries)

namespace BlobStore

/-- `path_for_hash` -/
def pathForHash (hash : String) : Except BlobStoreError Unit :=
  require (isCanonicalSha256 hash = true) (.invalidHash hash)

/-- `read_bytes` -/
def readBytes (blobs : BlobStore) (hash : String) : Except BlobStoreError ByteArray := do
  pathForHash hash
  let blob ← okOr (blobs.get? hash) (.notFound hash)
  require (libs.hashBytes blob.bytes = hash) (.hashMismatch hash (libs.hashBytes blob.bytes))
  .ok blob.bytes

/-- `verify` -/
def verify (blobs : BlobStore) (hash : String) : Except BlobStoreError Bool := do
  pathForHash hash
  match blobs.get? hash with
  | none => .ok false
  | some blob => .ok (libs.hashBytes blob.bytes = hash)

/-- `put_bytes` -/
def putBytes (blobs : BlobStore) (bytes : ByteArray) :
    Except BlobStoreError (BlobStore × String) := do
  let hash := libs.hashBytes bytes
  pathForHash hash
  match blobs.insert? ⟨hash, bytes⟩ with
  | some blobs' => .ok (blobs', hash)
  | none =>
    let intact ← blobs.verify libs hash
    require (intact = true) (.corruptedExistingBlob hash)
    .ok (blobs, hash)

/-! ## What the store holds -/

variable {libs} {blobs blobs' : BlobStore} {hash : String} {bytes : ByteArray}

/-- The store has a file under the address, and the file has not been damaged. -/
def Holds (libs : Libraries) (blobs : BlobStore) (hash : String) : Prop :=
  blobs.verify libs hash = .ok true

theorem readBytes_eq_ok :
    blobs.readBytes libs hash = .ok bytes ↔
      isCanonicalSha256 hash = true ∧ libs.hashBytes bytes = hash ∧
        blobs.get? hash = some ⟨hash, bytes⟩ := by
  constructor
  · intro h
    obtain ⟨_, hcanonical, h⟩ := bind_eq_ok.mp h
    obtain ⟨blob, hblob, h⟩ := bind_eq_ok.mp h
    obtain ⟨_, hmatch, h⟩ := bind_eq_ok.mp h
    cases h
    have hget := okOr_eq_ok.mp hblob
    have hkey : blob.hash = hash := Table.key_of_get? hget
    refine ⟨require_eq_ok.mp hcanonical, require_eq_ok.mp hmatch, ?_⟩
    rw [hget, ← hkey]
  · rintro ⟨hcanonical, hmatch, hget⟩
    simp [readBytes, pathForHash, require, hcanonical, hget, hmatch, okOr, bind, Except.bind]

theorem holds_iff :
    Holds libs blobs hash ↔
      isCanonicalSha256 hash = true ∧
        ∃ blob, blobs.get? hash = some blob ∧ libs.hashBytes blob.bytes = hash := by
  unfold Holds verify
  constructor
  · intro h
    obtain ⟨_, hcanonical, h⟩ := bind_eq_ok.mp h
    refine ⟨require_eq_ok.mp hcanonical, ?_⟩
    split at h
    case h_1 => cases h
    case h_2 blob hget =>
      rw [Except.ok.injEq, decide_eq_true_eq] at h
      exact ⟨blob, hget, h⟩
  · rintro ⟨hcanonical, blob, hget, hmatch⟩
    simp [pathForHash, require, hcanonical, hget, hmatch, bind, Except.bind]

theorem holds_of_readBytes (h : blobs.readBytes libs hash = .ok bytes) :
    Holds libs blobs hash := by
  obtain ⟨hcanonical, hmatch, hget⟩ := readBytes_eq_ok.mp h
  exact holds_iff.mpr ⟨hcanonical, _, hget, hmatch⟩

/-- Every file of the first store is in the second. -/
def Grows (blobs blobs' : BlobStore) : Prop :=
  ∀ hash blob, blobs.get? hash = some blob → blobs'.get? hash = some blob

theorem Grows.refl (blobs : BlobStore) : Grows blobs blobs := fun _ _ h ↦ h

theorem Grows.trans {blobs'' : BlobStore} (h : Grows blobs blobs') (h' : Grows blobs' blobs'') :
    Grows blobs blobs'' :=
  fun hash blob hget ↦ h' hash blob (h hash blob hget)

theorem Grows.holds (h : Grows blobs blobs') (hholds : Holds libs blobs hash) :
    Holds libs blobs' hash := by
  obtain ⟨hcanonical, blob, hget, hmatch⟩ := holds_iff.mp hholds
  exact holds_iff.mpr ⟨hcanonical, blob, h hash blob hget, hmatch⟩

theorem Grows.readBytes (h : Grows blobs blobs') (hread : blobs.readBytes libs hash = .ok bytes) :
    blobs'.readBytes libs hash = .ok bytes := by
  obtain ⟨hcanonical, hmatch, hget⟩ := readBytes_eq_ok.mp hread
  exact readBytes_eq_ok.mpr ⟨hcanonical, hmatch, h hash _ hget⟩

/-- A stored content is held under its address afterwards, and nothing else changes. -/
theorem putBytes_spec (h : blobs.putBytes libs bytes = .ok (blobs', hash)) :
    hash = libs.hashBytes bytes ∧ Grows blobs blobs' ∧ Holds libs blobs' hash := by
  obtain ⟨_, hcanonical, h⟩ := bind_eq_ok.mp h
  split at h
  case h_1 blobs₁ hinsert =>
    cases h
    refine ⟨rfl, fun k blob hget ↦ ?_, ?_⟩
    · rw [Table.get?_insert? hinsert]
      split
      case isTrue heq =>
        rw [heq, Table.get?_eq_none_of_insert? hinsert] at hget
        cases hget
      case isFalse => exact hget
    · refine holds_iff.mpr ⟨require_eq_ok.mp hcanonical, ⟨libs.hashBytes bytes, bytes⟩, ?_, rfl⟩
      rw [Table.get?_insert? hinsert, if_pos rfl]
  case h_2 =>
    obtain ⟨intact, hverify, h⟩ := bind_eq_ok.mp h
    obtain ⟨_, hintact, h⟩ := bind_eq_ok.mp h
    cases h
    rw [require_eq_ok.mp hintact] at hverify
    exact ⟨rfl, .refl _, hverify⟩

/-- A content that is held already is not written again. -/
theorem putBytes_of_holds (h : Holds libs blobs (libs.hashBytes bytes)) :
    blobs.putBytes libs bytes = .ok (blobs, libs.hashBytes bytes) := by
  obtain ⟨hcanonical, blob, hget, -⟩ := holds_iff.mp h
  have hpath : pathForHash (libs.hashBytes bytes) = .ok () := require_eq_ok.mpr hcanonical
  have hinsert : blobs.insert? ⟨libs.hashBytes bytes, bytes⟩ = none := by
    cases hinsert : blobs.insert? ⟨libs.hashBytes bytes, bytes⟩ with
    | none => rfl
    | some blobs' =>
      rw [Table.get?_eq_none_of_insert? hinsert] at hget
      cases hget
  unfold putBytes
  simp only [hpath, hinsert]
  refine bind_eq_ok.mpr ⟨(), rfl, bind_eq_ok.mpr ⟨true, h, bind_eq_ok.mpr ⟨(), ?_, rfl⟩⟩⟩
  exact require_eq_ok.mpr rfl

/-- No file of the store has been damaged. -/
def Intact (libs : Libraries) (blobs : BlobStore) : Prop :=
  ∀ blob ∈ blobs, libs.hashBytes blob.bytes = blob.hash

/-- An intact store takes every content with an address, and stays intact. -/
theorem exists_putBytes (h : Intact libs blobs)
    (hcanonical : isCanonicalSha256 (libs.hashBytes bytes) = true) :
    ∃ blobs', blobs.putBytes libs bytes = .ok (blobs', libs.hashBytes bytes) ∧
      Intact libs blobs' ∧ ∀ blob ∈ blobs', blob ∈ blobs ∨ blob.bytes = bytes := by
  cases hinsert : blobs.insert? ⟨libs.hashBytes bytes, bytes⟩ with
  | some blobs' =>
    have hmem : ∀ blob ∈ blobs', blob ∈ blobs ∨ blob = ⟨libs.hashBytes bytes, bytes⟩ :=
      fun blob hblob ↦ (Table.mem_insert? hinsert).mp hblob
    refine ⟨blobs', ?_, fun blob hblob ↦ ?_, fun blob hblob ↦ ?_⟩
    · unfold putBytes
      simp only [hinsert]
      exact bind_eq_ok.mpr ⟨(), require_eq_ok.mpr hcanonical, rfl⟩
    · rcases hmem blob hblob with hold | rfl
      · exact h blob hold
      · rfl
    · rcases hmem blob hblob with hold | rfl
      · exact .inl hold
      · exact .inr rfl
  | none =>
    obtain ⟨blob, hget⟩ : ∃ blob, blobs.get? (libs.hashBytes bytes) = some blob := by
      by_contra hnone
      obtain ⟨blobs', hblobs'⟩ := Table.insert?_isSome (t := blobs)
        (r := ⟨libs.hashBytes bytes, bytes⟩) (Option.eq_none_iff_forall_ne_some.mpr
          fun blob hget ↦ hnone ⟨blob, hget⟩)
      rw [hinsert] at hblobs'
      cases hblobs'
    obtain ⟨hmem, hkey⟩ := Table.get?_eq_some_iff.mp hget
    have hholds : Holds libs blobs (libs.hashBytes bytes) :=
      holds_iff.mpr ⟨hcanonical, blob, hget, (h blob hmem).trans hkey⟩
    exact ⟨blobs, putBytes_of_holds hholds, h, fun _ hblob ↦ .inl hblob⟩

end BlobStore

end Snapshot

end SkillHive
