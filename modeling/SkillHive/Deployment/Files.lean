import SkillHive.Foundation.AppendLog
import SkillHive.Foundation.Interruptible

/-!
# Directories that are written and removed

A directory appears with one file after the other and goes away with one file after the other,
so a crash leaves it with a part of its files. A removal stops at a socket, FIFO or device. A rename
is one step.
-/

namespace SkillHive

open Foundation

namespace Deployment

/-- What a walk meets in a directory: a file or link, or a socket, FIFO or device at a path. -/
inductive DirEntry (ε : Type) where
  | file (content : ε)
  | special (path : String)
  deriving DecidableEq, Repr

/-- What a path names: a file or link, a directory with its entries in the order of a walk, or a
socket, FIFO or device. -/
inductive Node (ε : Type) where
  | file (content : ε)
  | dir (entries : List (DirEntry ε))
  | special
  deriving DecidableEq, Repr

/-- Where a crash meets an operation. -/
inductive Point (ε : Type) where
  /-- Before it. -/
  | untouched
  /-- These entries of a directory are left. -/
  | removed (left : List (DirEntry ε))
  /-- So many files are written, and a part of the next one. -/
  | written (count : ℕ) (torn : Option ε)
  | append (point : AppendPoint)

variable {ε : Type}

def DirEntry.isFile : DirEntry ε → Bool
  | file _ => true
  | special _ => false

/-- The path of a socket, FIFO or device. -/
def DirEntry.special? : DirEntry ε → Option String
  | file _ => none
  | special path => some path

namespace Node

/-- The directory of a snapshot has nothing but its files. -/
def snapshot (files : List ε) : Node ε := .dir (files.map .file)

/-- A removal gets through. -/
def isRemovable : Node ε → Bool
  | file _ => true
  | dir entries => entries.all DirEntry.isFile
  | special => false

/-- What a removal leaves, which stops at the first entry that it does not support. -/
def remains : Node ε → Option (Node ε)
  | file _ => none
  | dir entries =>
    if entries.all DirEntry.isFile then none else some (.dir (entries.dropWhile DirEntry.isFile))
  | special => some .special

/-- What is left of a node whose removal is cut off. -/
def removing [DecidableEq ε] : Node ε → Point ε → Option (Node ε)
  | node, .untouched => some node
  | .dir entries, .removed left =>
    if left.Sublist entries ∧
        left.filter (fun entry ↦ !entry.isFile) = entries.filter (fun entry ↦ !entry.isFile) then
      some (.dir left)
    else none
  | _, _ => none

@[simp]
theorem snapshot_inj {files files' : List ε} : snapshot files = snapshot files' ↔ files = files' := by
  rw [snapshot, snapshot, Node.dir.injEq]
  exact List.map_inj_right fun _ _ ↦ DirEntry.file.inj

@[simp]
theorem snapshot_isRemovable (files : List ε) : (snapshot files).isRemovable = true := by
  simp [snapshot, isRemovable, DirEntry.isFile]

theorem remains_eq_none {node : Node ε} : node.remains = none ↔ node.isRemovable = true := by
  cases node <;> simp [remains, isRemovable]

/-- What a removal leaves stops the next one as well. -/
theorem isRemovable_of_remains {node left : Node ε} (h : node.remains = some left) :
    left.isRemovable = false := by
  cases node with
  | file content => cases h
  | dir entries =>
    rw [remains] at h
    split at h
    case isTrue => cases h
    case isFalse hspecial =>
      cases h
      have hsplit : (entries.takeWhile DirEntry.isFile ++ entries.dropWhile DirEntry.isFile).all
          DirEntry.isFile = ((entries.takeWhile DirEntry.isFile).all DirEntry.isFile &&
            (entries.dropWhile DirEntry.isFile).all DirEntry.isFile) := List.all_append
      rw [List.takeWhile_append_dropWhile, List.all_takeWhile, Bool.true_and] at hsplit
      rw [isRemovable, ← hsplit]
      exact Bool.eq_false_iff.mpr hspecial
  | special =>
    cases h
    rfl

/-- A cut removal leaves every entry that it does not support. -/
theorem removing_isRemovable [DecidableEq ε] {node left : Node ε} {point : Point ε}
    (h : node.removing point = some left) : left.isRemovable = node.isRemovable := by
  have hall : ∀ entries : List (DirEntry ε), (entries.all DirEntry.isFile = true) ↔
      entries.filter (fun entry ↦ !entry.isFile) = [] := by
    intro entries
    simp [List.filter_eq_nil_iff]
  unfold removing at h
  split at h
  case h_1 =>
    cases h
    rfl
  case h_2 entries kept =>
    split at h
    case isTrue hkept =>
      cases h
      rw [Bool.eq_iff_iff]
      exact (hall kept).trans (hkept.2 ▸ (hall entries).symm)
    case isFalse => cases h
  case h_3 => cases h

end Node

/-- What there is of a directory when the writing of its files is cut off. -/
def writing (files : List ε) : Point ε → Option (Option (Node ε))
  | .untouched => some none
  | .written count torn => some (some (.snapshot (files.take count ++ torn.toList)))
  | _ => none

theorem writing_isRemovable {files : List ε} {point : Point ε} {written : Option (Node ε)}
    (h : writing files point = some written) : ∀ node ∈ written, node.isRemovable = true := by
  cases point with
  | untouched =>
    cases h
    nofun
  | written count torn =>
    cases h
    rintro _ ⟨⟩
    exact Node.snapshot_isRemovable _
  | removed left => cases h
  | append point => cases h

variable [DecidableEq ε]

/-- The file of a log when the write of a record is cut off. -/
def appending {ρ : Type} (file : Option (LogFile ρ)) (record : ρ) :
    Point ε → Option (Option (LogFile ρ))
  | .untouched => some file
  | .append point => some (some ((file.getD .empty).appendCut record point))
  | _ => none

/-- An operation that a crash finds either done or not begun. -/
def atomic {σ : Type} (run : σ → σ) : Operation σ (Point ε) where
  run := run
  cut
    | .untouched, s => some s
    | _, _ => none

omit [DecidableEq ε] in
theorem atomic_cut {σ : Type} {run : σ → σ} {point : Point ε} {s s' : σ}
    (h : (atomic run).cut point s = some s') : s' = s := by
  cases point <;> cases h
  rfl

/-! ## Operations on a part of a medium -/

section Parts

variable {σ ρ ε' : Type} {C : σ → Prop}

/-- The removal of what is at a place, as far as it gets. -/
def removal (get : σ → Option (Node ε)) (set : Option (Node ε) → σ → σ) : Operation σ (Point ε) where
  run s := set ((get s).bind Node.remains) s
  cut point s := (get s).bind fun node ↦ (node.removing point).map fun left ↦ set (some left) s

/-- One more record in a log. -/
def recording (get : σ → Option (LogFile ρ)) (set : Option (LogFile ρ) → σ → σ) (record : ρ) :
    Operation σ (Point ε) where
  run s := set (some (((get s).getD .empty).append record)) s
  cut point s := (appending (get s) record point).map fun file ↦ set file s

theorem removal_ends {get : σ → Option (Node ε)} {set : Option (Node ε) → σ → σ} (s : σ)
    (hcut : ∀ left, (∃ node ∈ get s, left.isRemovable = node.isRemovable) → C (set (some left) s))
    (hleft : C (set ((get s).bind Node.remains) s)) :
    (Procedure.perform (removal get set) : Procedure σ (Point ε) ε' Unit).Ends C s (.ok ())
      (set ((get s).bind Node.remains) s) := by
  refine Procedure.Ends.perform (fun point s' h ↦ ?_) hleft
  obtain ⟨node, hnode, h⟩ := Option.bind_eq_some_iff.mp h
  obtain ⟨left, hremoving, rfl⟩ := Option.map_eq_some_iff.mp h
  exact hcut left ⟨node, hnode, Node.removing_isRemovable hremoving⟩

omit [DecidableEq ε] in
theorem recording_ends {get : σ → Option (LogFile ρ)} {set : Option (LogFile ρ) → σ → σ} (s : σ)
    (record : ρ) (hhere : C (set (get s) s))
    (hcut : ∀ point, C (set (some (((get s).getD .empty).appendCut record point)) s))
    (hdone : C (set (some (((get s).getD .empty).append record)) s)) :
    (Procedure.perform (recording get set record) : Procedure σ (Point ε) ε' Unit).Ends C s (.ok ())
      (set (some (((get s).getD .empty).append record)) s) := by
  refine Procedure.Ends.perform (fun point s' h ↦ ?_) hdone
  obtain ⟨file, hfile, rfl⟩ := Option.map_eq_some_iff.mp h
  cases point with
  | untouched =>
    cases hfile
    exact hhere
  | append point =>
    cases hfile
    exact hcut point
  | removed left => cases hfile
  | written count torn => cases hfile

end Parts

end Deployment

end SkillHive
