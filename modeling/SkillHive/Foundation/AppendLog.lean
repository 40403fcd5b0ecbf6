import Mathlib.Tactic.Common

/-!
# Logs of lines

A log file gets one line for each record. A write that is cut off leaves an unfinished line at
its end, and the next write goes on in that line. The reader takes the last record before the
first line that is no record; a line that is not even text stops it with an error.
-/

namespace SkillHive.Foundation

/-- What the reader makes of a line. -/
inductive Line (ρ : Type) where
  | record (r : ρ)
  | garbled
  | undecodable
  deriving DecidableEq, Repr

/-- The finished lines, and the text after the last line break when there is some. -/
structure LogFile (ρ : Type) where
  lines : List (Line ρ)
  rest : Option (Line ρ)
  deriving DecidableEq, Repr

inductive LogError where
  | noRecord
  | serialization
  | decoding
  deriving DecidableEq, Repr

/-- The points inside a write: the file is there, a part of the text is, all of it is. -/
inductive AppendPoint where
  | created
  | torn (decodes : Bool)
  | unterminated
  deriving DecidableEq, Repr

variable {ρ : Type}

def Line.record? : Line ρ → Option ρ
  | .record r => some r
  | _ => none

/-- The last record, given the one before these lines. -/
def readLatest : Option ρ → List (Line ρ) → Except LogError ρ
  | latest, [] => latest.elim (.error .noRecord) .ok
  | _, .record r :: lines => readLatest (some r) lines
  | latest, .garbled :: _ => latest.elim (.error .serialization) .ok
  | _, .undecodable :: _ => .error .decoding

namespace LogFile

def empty : LogFile ρ := ⟨[], none⟩

def latest (file : LogFile ρ) : Except LogError ρ := readLatest none (file.lines ++ file.rest.toList)

/-- The unfinished line after more text. -/
def glue : Option (Line ρ) → Line ρ → Line ρ
  | none, line => line
  | some .undecodable, _ => .undecodable
  | some _, .undecodable => .undecodable
  | some _, _ => .garbled

def append (file : LogFile ρ) (r : ρ) : LogFile ρ := ⟨file.lines ++ [glue file.rest (.record r)], none⟩

/-- The file when the write of a record is cut off. -/
def appendCut (file : LogFile ρ) (r : ρ) : AppendPoint → LogFile ρ
  | .created => file
  | .torn decodes => ⟨file.lines, some (glue file.rest (if decodes then .garbled else .undecodable))⟩
  | .unterminated => ⟨file.lines, some (glue file.rest (.record r))⟩

/-- The file starts with the records, and all further records are allowed. -/
structure Since (first : List ρ) (allowed : ρ → Prop) (file : LogFile ρ) : Prop where
  starts : ∃ more, file.lines = first.map Line.record ++ more ∧
    ∀ line ∈ more, ∀ r ∈ line.record?, allowed r
  rest : ∀ line ∈ file.rest, ∀ r ∈ line.record?, allowed r

variable {first : List ρ} {allowed : ρ → Prop} {file : LogFile ρ} {r : ρ}

theorem glue_record? {rest : Option (Line ρ)} {line : Line ρ} (h : (glue rest line).record? = some r) :
    line.record? = some r := by
  unfold glue at h
  split at h <;> first | exact h | cases h

theorem Since.append (h : file.Since first allowed) (hr : allowed r) :
    (file.append r).Since first allowed := by
  obtain ⟨more, hlines, hmore⟩ := h.starts
  refine ⟨⟨more ++ [glue file.rest (.record r)], ?_, ?_⟩, fun line hline ↦ ?_⟩
  · rw [LogFile.append, hlines, List.append_assoc]
  · intro line hline r' hr'
    rcases List.mem_append.mp hline with hold | hnew
    · exact hmore line hold r' hr'
    · rw [List.mem_singleton.mp hnew] at hr'
      cases glue_record? hr'
      exact hr
  · cases hline

theorem Since.appendCut (h : file.Since first allowed) (hr : allowed r) (point : AppendPoint) :
    (file.appendCut r point).Since first allowed := by
  cases point with
  | created => exact h
  | torn decodes =>
    refine ⟨h.starts, fun line hline r' hr' ↦ ?_⟩
    cases hline
    have hrecord := glue_record? hr'
    cases decodes <;> cases hrecord
  | unterminated =>
    refine ⟨h.starts, fun line hline r' hr' ↦ ?_⟩
    cases hline
    cases glue_record? hr'
    exact hr

theorem Since.mono {allowed' : ρ → Prop} (h : file.Since first allowed)
    (hle : ∀ r, allowed r → allowed' r) : file.Since first allowed' := by
  obtain ⟨more, hlines, hmore⟩ := h.starts
  exact ⟨⟨more, hlines, fun line hline r hr ↦ hle r (hmore line hline r hr)⟩,
    fun line hline r hr ↦ hle r (h.rest line hline r hr)⟩

/-- What the file starts with may count among the further records. -/
theorem Since.weaken {allowed' : ρ → Prop} (h : file.Since first allowed)
    (hfirst : ∀ r ∈ first, allowed' r) (hle : ∀ r, allowed r → allowed' r) :
    file.Since [] allowed' := by
  obtain ⟨more, hlines, hmore⟩ := h.starts
  refine ⟨⟨first.map Line.record ++ more, hlines, fun line hline r hr ↦ ?_⟩,
    fun line hline r hr ↦ hle r (h.rest line hline r hr)⟩
  rcases List.mem_append.mp hline with hold | hnew
  · obtain ⟨r', hr', rfl⟩ := List.mem_map.mp hold
    cases hr
    exact hfirst r hr'
  · exact hle r (hmore line hnew r hr)

theorem readLatest_eq_ok {latest : Option ρ} {lines : List (Line ρ)}
    (h : readLatest latest lines = .ok r) :
    latest = some r ∨ ∃ line ∈ lines, line.record? = some r := by
  induction lines generalizing latest with
  | nil =>
    cases latest <;> cases h
    exact .inl rfl
  | cons line lines ih =>
    cases line with
    | record r' =>
      right
      rcases ih h with hlatest | ⟨line, hline, hrecord⟩
      · exact ⟨.record r', List.mem_cons_self, hlatest⟩
      · exact ⟨line, List.mem_cons_of_mem _ hline, hrecord⟩
    | garbled =>
      cases latest <;> cases h
      exact .inl rfl
    | undecodable => cases h

theorem readLatest_records (latest : Option ρ) (first : List ρ) (lines : List (Line ρ)) :
    readLatest latest (first.map Line.record ++ lines) =
      readLatest (first.getLast?.or latest) lines := by
  induction first generalizing latest with
  | nil => rfl
  | cons r first ih =>
    rw [List.map_cons, List.cons_append, readLatest, ih, List.getLast?_cons]
    cases first.getLast? <;> rfl

/-- What is read is the last of the records that the file starts with, or an allowed one. -/
theorem Since.latest (h : file.Since first allowed) (hlatest : file.latest = .ok r) :
    first.getLast? = some r ∨ allowed r := by
  obtain ⟨more, hlines, hmore⟩ := h.starts
  rw [LogFile.latest, hlines, List.append_assoc, readLatest_records, Option.or_none] at hlatest
  rcases readLatest_eq_ok hlatest with hfirst | ⟨line, hline, hrecord⟩
  · exact .inl hfirst
  · right
    rcases List.mem_append.mp hline with hmem | hrest
    · exact hmore line hmem r hrecord
    · exact h.rest line (Option.mem_toList.mp hrest) r hrecord

end LogFile

end SkillHive.Foundation
