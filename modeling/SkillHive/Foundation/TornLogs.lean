import SkillHive.Foundation.AppendLog

/-!
# Logs after crashes

A log is written by one write after the other, and a crash may end each of them. The first write
that leaves an unfinished line behind decides what the reader makes of the file: the next write
goes on in that line, and the reader comes no further than there.
-/

namespace SkillHive.Foundation

/-- How a write ended. -/
inductive Ending where
  | returned
  /-- The line is there, but the write did not return. -/
  | finished
  | cut (point : AppendPoint)
  deriving DecidableEq, Repr

structure Write (ρ : Type) where
  record : ρ
  ending : Ending
  deriving DecidableEq, Repr

variable {ρ : Type}

namespace Write

def apply (file : LogFile ρ) (w : Write ρ) : LogFile ρ :=
  match w.ending with
  | .cut point => file.appendCut w.record point
  | _ => file.append w.record

def returned (w : Write ρ) : Bool :=
  match w.ending with
  | .returned => true
  | _ => false

/-- All of the record is in the file. -/
def complete (w : Write ρ) : Bool :=
  match w.ending with
  | .returned | .finished | .cut .unterminated => true
  | .cut .created | .cut (.torn _) => false

/-- A line is left unfinished. -/
def leavesTail (w : Write ρ) : Bool :=
  match w.ending with
  | .cut .unterminated | .cut (.torn _) => true
  | .returned | .finished | .cut .created => false

def endsLine (w : Write ρ) : Bool :=
  match w.ending with
  | .returned | .finished => true
  | .cut _ => false

/-- The cut is inside a character. -/
def splitsCharacter (w : Write ρ) : Bool :=
  match w.ending with
  | .cut (.torn false) => true
  | _ => false

def writesNothing (w : Write ρ) : Bool :=
  match w.ending with
  | .cut .created => true
  | _ => false

theorem writesNothing_of_endsLine (w : Write ρ) (h : w.endsLine = true) :
    w.writesNothing = false := by
  obtain ⟨record, ending⟩ := w
  cases ending with
  | cut point => cases h
  | _ => rfl

end Write

namespace LogFile

/-- The log after these writes. -/
def written (writes : List (Write ρ)) : LogFile ρ := writes.foldl Write.apply .empty

/-- All lines, the unfinished one included. -/
def allLines (file : LogFile ρ) : List (Line ρ) := file.lines ++ file.rest.toList

def beforeTail (writes : List (Write ρ)) : List (Write ρ) := writes.takeWhile (!·.leavesTail)

/-- From the first write that leaves a line unfinished. -/
def fromTail (writes : List (Write ρ)) : List (Write ρ) := writes.dropWhile (!·.leavesTail)

/-- What goes into a line before a write ends it. -/
def untilEnd (writes : List (Write ρ)) : List (Write ρ) := writes.takeWhile (!·.endsLine)

def lastComplete (writes : List (Write ρ)) : Option ρ :=
  ((writes.filter (·.complete)).map (·.record)).getLast?

theorem beforeTail_append_fromTail (writes : List (Write ρ)) :
    beforeTail writes ++ fromTail writes = writes := List.takeWhile_append_dropWhile

/-! ## What the reader makes of a log -/

theorem apply_clean {w : Write ρ} (h : w.leavesTail = false) (lines : List (Line ρ)) :
    w.apply ⟨lines, none⟩ = ⟨lines ++ if w.complete then [.record w.record] else [], none⟩ := by
  obtain ⟨record, ending⟩ := w
  cases ending with
  | returned => rfl
  | finished => rfl
  | cut point =>
    cases point with
    | created => exact congrArg (LogFile.mk · none) (List.append_nil lines).symm
    | torn decodes => cases h
    | unterminated => cases h

theorem foldl_clean {writes : List (Write ρ)} (h : ∀ w ∈ writes, w.leavesTail = false)
    (lines : List (Line ρ)) :
    writes.foldl Write.apply ⟨lines, none⟩ =
      ⟨lines ++ ((writes.filter (·.complete)).map (·.record)).map Line.record, none⟩ := by
  induction writes generalizing lines with
  | nil => exact congrArg (LogFile.mk · none) (List.append_nil lines).symm
  | cons w writes ih =>
    rw [List.foldl_cons, apply_clean (h w List.mem_cons_self),
      ih fun w' hw' ↦ h w' (List.mem_cons_of_mem _ hw'), List.filter_cons]
    split <;> simp

theorem apply_append_lines (more : List (Line ρ)) (file : LogFile ρ) (w : Write ρ) :
    w.apply ⟨more ++ file.lines, file.rest⟩ =
      ⟨more ++ (w.apply file).lines, (w.apply file).rest⟩ := by
  have happend : (append ⟨more ++ file.lines, file.rest⟩ w.record) =
      ⟨more ++ (file.append w.record).lines, none⟩ :=
    congrArg (LogFile.mk · none) (List.append_assoc _ _ _)
  obtain ⟨record, ending⟩ := w
  cases ending with
  | returned => exact happend
  | finished => exact happend
  | cut point => cases point <;> rfl

/-- The lines before do not matter to the writes. -/
theorem foldl_append_lines (more : List (Line ρ)) (file : LogFile ρ) (writes : List (Write ρ)) :
    (writes.foldl Write.apply ⟨more ++ file.lines, file.rest⟩).allLines =
      more ++ (writes.foldl Write.apply file).allLines := by
  induction writes generalizing file with
  | nil => exact List.append_assoc _ _ _
  | cons w writes ih =>
    rw [List.foldl_cons, apply_append_lines, ih, List.foldl_cons]

theorem glue_record (line : Line ρ) (r : ρ) :
    glue (some line) (.record r) = glue (some line) .garbled := by
  cases line <;> rfl

theorem glue_glue_garbled (line : Line ρ) :
    glue (some (glue (some line) .garbled)) .garbled = glue (some line) .garbled := by
  cases line <;> rfl

theorem glue_undecodable (line : Line ρ) : glue (some line) .undecodable = .undecodable := by
  cases line <;> rfl

/-- What an unfinished line is once these writes went on in it. -/
def tailLine (line : Line ρ) (writes : List (Write ρ)) : Line ρ :=
  if (untilEnd writes).any (·.splitsCharacter) then .undecodable
  else if writes.all (·.writesNothing) then line
  else glue (some line) .garbled

theorem tailLine_undecodable (writes : List (Write ρ)) :
    tailLine .undecodable writes = .undecodable := by
  unfold tailLine
  split
  · rfl
  · split <;> rfl

theorem tailLine_glue (line : Line ρ) (writes : List (Write ρ)) :
    tailLine (glue (some line) .garbled) writes =
      if (untilEnd writes).any (·.splitsCharacter) then .undecodable
      else glue (some line) .garbled := by
  unfold tailLine
  rw [glue_glue_garbled, ite_self]

theorem tailLine_cons_of_endsLine {w : Write ρ} (hends : w.endsLine = true) (line : Line ρ)
    (writes : List (Write ρ)) :
    tailLine line (w :: writes) = glue (some line) (.record w.record) := by
  rw [tailLine, untilEnd, List.takeWhile_cons_of_neg (by rw [hends]; decide), List.all_cons,
    w.writesNothing_of_endsLine hends, glue_record]
  rfl

theorem tailLine_cons {w : Write ρ} (hends : w.endsLine = false) (line : Line ρ)
    (writes : List (Write ρ)) :
    tailLine line (w :: writes) =
      if w.splitsCharacter || (untilEnd writes).any (·.splitsCharacter) then .undecodable
      else if w.writesNothing && writes.all (·.writesNothing) then line
      else glue (some line) .garbled := by
  rw [tailLine, untilEnd, List.takeWhile_cons_of_pos (by rw [hends]; rfl), List.any_cons,
    List.all_cons]
  rfl

/-- A write ends the line or goes on in it. -/
theorem apply_tail (w : Write ρ) (lines : List (Line ρ)) (line : Line ρ) (writes : List (Write ρ)) :
    (w.endsLine = true ∧
        w.apply ⟨lines, some line⟩ = ⟨lines ++ [tailLine line (w :: writes)], none⟩) ∨
      ∃ line', w.apply ⟨lines, some line⟩ = ⟨lines, some line'⟩ ∧
        tailLine line' writes = tailLine line (w :: writes) := by
  obtain ⟨record, ending⟩ := w
  cases ending with
  | returned => exact .inl ⟨rfl, by rw [tailLine_cons_of_endsLine rfl]; rfl⟩
  | finished => exact .inl ⟨rfl, by rw [tailLine_cons_of_endsLine rfl]; rfl⟩
  | cut point =>
    right
    rw [tailLine_cons rfl]
    cases point with
    | created => exact ⟨line, rfl, rfl⟩
    | torn decodes =>
      cases decodes with
      | true => exact ⟨_, rfl, tailLine_glue line writes⟩
      | false =>
        have hglue := congrArg (LogFile.mk lines <| some ·) (glue_undecodable line)
        exact ⟨.undecodable, hglue, tailLine_undecodable writes⟩
    | unterminated =>
      have hglue := congrArg (LogFile.mk lines <| some ·) (glue_record line record)
      exact ⟨_, hglue, tailLine_glue line writes⟩

theorem allLines_tail (writes : List (Write ρ)) (lines : List (Line ρ)) (line : Line ρ) :
    ∃ others, (writes.foldl Write.apply ⟨lines, some line⟩).allLines =
      lines ++ tailLine line writes :: others ∧ (writes.all (·.writesNothing) → others = []) := by
  induction writes generalizing line with
  | nil => exact ⟨[], rfl, fun _ ↦ rfl⟩
  | cons w writes ih =>
    rw [List.foldl_cons, List.all_cons]
    rcases apply_tail w lines line writes with ⟨hends, happly⟩ | ⟨line', happly, htail⟩
    · have hgrow := foldl_append_lines (lines ++ [tailLine line (w :: writes)]) .empty writes
      change (writes.foldl Write.apply ⟨_ ++ [], none⟩).allLines = _ at hgrow
      refine ⟨(written writes).allLines, ?_, fun hnothing ↦ ?_⟩
      · rw [List.append_nil] at hgrow
        rw [happly, hgrow, List.append_assoc, List.singleton_append]
        rfl
      · rw [w.writesNothing_of_endsLine hends] at hnothing
        cases hnothing
    · obtain ⟨others, hlines, hothers⟩ := ih line'
      refine ⟨others, ?_, fun hnothing ↦ hothers ?_⟩
      · rw [happly, hlines, htail]
      · exact (Bool.and_eq_true _ _ ▸ hnothing).2

/-- What the reader makes of a log after these writes. -/
def outcome (writes : List (Write ρ)) : Except LogError ρ :=
  match fromTail writes with
  | [] => (lastComplete writes).elim (.error .noRecord) .ok
  | w :: more =>
    if (untilEnd (w :: more)).any (·.splitsCharacter) then .error .decoding
    else if w.complete && more.all (·.writesNothing) then .ok w.record
    else (lastComplete (beforeTail writes)).elim (.error .serialization) .ok

theorem leavesTail_of_mem_beforeTail {writes : List (Write ρ)} {w : Write ρ}
    (h : w ∈ beforeTail writes) : w.leavesTail = false := by
  have hall := List.all_takeWhile (p := fun w : Write ρ ↦ !w.leavesTail) (l := writes)
  simpa using List.all_eq_true.mp hall w h

theorem leavesTail_of_fromTail {writes more : List (Write ρ)} {w : Write ρ}
    (h : fromTail writes = w :: more) : w.leavesTail = true := by
  have hhead := List.head?_dropWhile_not (fun w : Write ρ ↦ !w.leavesTail) writes
  unfold fromTail at h
  rw [h] at hhead
  simpa using hhead

/-- The first unfinished line. -/
theorem apply_leavesTail {w : Write ρ} (h : w.leavesTail = true) (lines : List (Line ρ))
    (more : List (Write ρ)) :
    ∃ line, w.apply ⟨lines, none⟩ = ⟨lines, some line⟩ ∧
      tailLine line more =
        if (untilEnd (w :: more)).any (·.splitsCharacter) then .undecodable
        else if w.complete && more.all (·.writesNothing) then .record w.record
        else .garbled := by
  obtain ⟨record, ending⟩ := w
  cases ending with
  | returned => cases h
  | finished => cases h
  | cut point =>
    cases point with
    | created => cases h
    | torn decodes =>
      cases decodes with
      | true => exact ⟨.garbled, rfl, tailLine_glue .garbled more⟩
      | false => exact ⟨.undecodable, rfl, tailLine_undecodable more⟩
    | unterminated => exact ⟨.record record, rfl, rfl⟩

theorem latest_of_allLines {file : LogFile ρ} {first : List ρ} {lines : List (Line ρ)}
    (h : file.allLines = first.map Line.record ++ lines) :
    file.latest = readLatest first.getLast? lines := by
  rw [latest, ← allLines, h, readLatest_records, Option.or_none]

theorem latest_written (writes : List (Write ρ)) : (written writes).latest = outcome writes := by
  have hclean :=
    foldl_clean (fun w (hw : w ∈ beforeTail writes) ↦ leavesTail_of_mem_beforeTail hw) []
  have hsplit := beforeTail_append_fromTail writes
  unfold outcome
  cases htail : fromTail writes with
  | nil =>
    rw [htail, List.append_nil] at hsplit
    rw [hsplit] at hclean
    have hlines : (written writes).allLines =
        ((writes.filter (·.complete)).map (·.record)).map Line.record ++ [] := by
      rw [written, empty, hclean]
      rfl
    exact latest_of_allLines hlines
  | cons w more =>
    obtain ⟨line, happly, hline⟩ := apply_leavesTail (leavesTail_of_fromTail htail)
      ((((beforeTail writes).filter (·.complete)).map (·.record)).map Line.record) more
    have hwritten : written writes = more.foldl Write.apply
        ⟨(((beforeTail writes).filter (·.complete)).map (·.record)).map Line.record, some line⟩ := by
      rw [← happly]
      conv_lhs => rw [← hsplit, htail]
      rw [written, List.foldl_append, empty, hclean]
      rfl
    obtain ⟨others, hlines, hothers⟩ := allLines_tail more
      ((((beforeTail writes).filter (·.complete)).map (·.record)).map Line.record) line
    rw [← hwritten] at hlines
    rw [latest_of_allLines hlines, hline]
    change readLatest (lastComplete (beforeTail writes)) _ = _
    dsimp only
    split
    · rfl
    · split
      · next hrecord =>
        rw [hothers (Bool.and_eq_true _ _ ▸ hrecord).2]
        rfl
      · rfl

/-! ## Consistent logs -/

/-- The writes since the last that returned, with this one. -/
def SinceReturned (writes since : List (Write ρ)) : Prop :=
  ∃ before w after, writes = before ++ w :: after ∧ since = w :: after ∧ w.returned = true ∧
    ∀ w' ∈ after, w'.returned = false

/-- The reader returns the last record whose write returned, or a later one that is complete. -/
def ReadsLatest (writes : List (Write ρ)) (result : Except LogError ρ) : Prop :=
  ∀ since, SinceReturned writes since → ∃ w ∈ since, w.complete = true ∧ result = .ok w.record

/-- No character is split in the first unfinished line, and no write has returned since, unless
its record is that of the last complete line before. -/
def Unhidden (writes : List (Write ρ)) : Prop :=
  ∀ since, SinceReturned writes since →
    (∀ w ∈ untilEnd (fromTail writes), w.splitsCharacter = false) ∧
      ((∀ w ∈ fromTail writes, w.returned = false) ∨
        ∃ w ∈ since, w.complete = true ∧ lastComplete (beforeTail writes) = some w.record)

theorem lastComplete_append_cons (before after : List (Write ρ)) {w : Write ρ}
    (hw : w.complete = true) :
    ∃ w' ∈ w :: after, w'.complete = true ∧
      lastComplete (before ++ w :: after) = some w'.record := by
  have hfilter : (w :: after).filter (·.complete) ≠ [] := by
    rw [List.filter_cons_of_pos hw]
    exact List.cons_ne_nil _ _
  have hlast := List.getLast?_eq_some_getLast hfilter
  obtain ⟨hmem, hcomplete⟩ := List.mem_filter.mp (List.mem_of_getLast? hlast)
  refine ⟨_, hmem, hcomplete, ?_⟩
  rw [lastComplete, List.filter_append, List.map_append, List.getLast?_append,
    List.getLast?_map, hlast]
  rfl

theorem complete_of_returned {w : Write ρ} (h : w.returned = true) : w.complete = true := by
  obtain ⟨record, ending⟩ := w
  cases ending with
  | returned => rfl
  | finished => cases h
  | cut point => cases h

/-- While no write has returned since the unfinished line, the last complete record before it is
the last that returned, or a later one. -/
theorem lastComplete_since {writes since : List (Write ρ)} (hsince : SinceReturned writes since)
    (hnone : ∀ w ∈ fromTail writes, w.returned = false) :
    (∃ w ∈ since, w.complete = true ∧ lastComplete (beforeTail writes) = some w.record) ∧
      ∀ w ∈ fromTail writes, w ∈ since := by
  obtain ⟨before, w, after, hwrites, rfl, hreturned, -⟩ := hsince
  have hnot : w ∉ fromTail writes := fun hw ↦ by simp [hnone w hw] at hreturned
  have hsplit := (beforeTail_append_fromTail writes).trans hwrites
  rcases List.append_eq_append_iff.mp hsplit with ⟨between, -, htail⟩ | ⟨between, hbefore, htail⟩
  · exact absurd (htail ▸ List.mem_append_right _ List.mem_cons_self) hnot
  · cases between with
    | nil =>
      rw [List.nil_append] at htail
      exact absurd (htail ▸ List.mem_cons_self) hnot
    | cons first between =>
      obtain ⟨rfl, rfl⟩ := List.cons_eq_cons.mp htail
      rw [hbefore]
      refine ⟨?_, fun w' hw' ↦ List.mem_cons_of_mem _ (List.mem_append_right _ hw')⟩
      obtain ⟨w', hw', hcomplete, hlast⟩ :=
        lastComplete_append_cons before between (complete_of_returned hreturned)
      exact ⟨w', List.mem_append_left _ hw', hcomplete, hlast⟩

theorem returned_of_writesNothing {w : Write ρ} (h : w.writesNothing = true) :
    w.returned = false := by
  obtain ⟨record, ending⟩ := w
  cases ending with
  | returned => cases h
  | finished => rfl
  | cut point => rfl

theorem returned_of_leavesTail {w : Write ρ} (h : w.leavesTail = true) : w.returned = false := by
  obtain ⟨record, ending⟩ := w
  cases ending with
  | returned => cases h
  | finished => rfl
  | cut point => rfl

theorem readsLatest_iff (writes : List (Write ρ)) :
    ReadsLatest writes (written writes).latest ↔ Unhidden writes := by
  rw [latest_written]
  refine forall₂_congr fun since hsince ↦ ?_
  -- The reader comes no further than the line before the unfinished one.
  have hstops : ∀ e : LogError,
      (∃ w ∈ since, w.complete = true ∧
        (lastComplete (beforeTail writes)).elim (Except.error e) .ok = .ok w.record) ↔
      ((∀ w ∈ fromTail writes, w.returned = false) ∨
        ∃ w ∈ since, w.complete = true ∧ lastComplete (beforeTail writes) = some w.record) := by
    intro e
    have helim : ∀ r : ρ, (lastComplete (beforeTail writes)).elim (Except.error e) .ok = .ok r ↔
        lastComplete (beforeTail writes) = some r := by
      intro r
      cases lastComplete (beforeTail writes) <;> simp
    simp only [helim]
    exact ⟨.inr, fun h ↦ h.elim (fun hnone ↦ (lastComplete_since hsince hnone).1) id⟩
  unfold outcome
  cases htail : fromTail writes with
  | nil =>
    have hbefore : beforeTail writes = writes := by
      conv_rhs => rw [← beforeTail_append_fromTail writes, htail, List.append_nil]
    rw [hbefore, htail] at hstops
    rw [hbefore]
    exact (hstops _).trans ⟨fun h ↦ ⟨by simp [untilEnd], h⟩, And.right⟩
  | cons w more =>
    rw [htail] at hstops
    dsimp only
    split
    · next hsplits =>
      refine iff_of_false ?_ ?_
      · rintro ⟨w', -, -, hresult⟩
        cases hresult
      · rintro ⟨hnone, -⟩
        obtain ⟨w', hw', hsplit⟩ := List.any_eq_true.mp hsplits
        rw [hnone w' hw'] at hsplit
        cases hsplit
    · next hsplits =>
      have hnone : ∀ w' ∈ untilEnd (w :: more), w'.splitsCharacter = false := by
        intro w' hw'
        by_contra hsplit
        exact hsplits (List.any_eq_true.mpr ⟨w', hw', by simpa using hsplit⟩)
      split
      · next hrecord =>
        obtain ⟨hcomplete, hnothing⟩ := (Bool.and_eq_true _ _).mp hrecord
        have hreturned : ∀ w' ∈ fromTail writes, w'.returned = false := by
          intro w' hw'
          rw [htail] at hw'
          rcases List.mem_cons.mp hw' with rfl | hmore
          · exact returned_of_leavesTail (leavesTail_of_fromTail htail)
          · exact returned_of_writesNothing (List.all_eq_true.mp hnothing w' hmore)
        have hmem : w ∈ since :=
          (lastComplete_since hsince hreturned).2 w (htail ▸ List.mem_cons_self)
        exact iff_of_true ⟨w, hmem, hcomplete, rfl⟩ ⟨hnone, .inl (htail ▸ hreturned)⟩
      · exact (hstops _).trans ⟨fun h ↦ ⟨hnone, h⟩, And.right⟩

/-- A log of which no record is complete cannot be read. -/
theorem latest_of_none_complete {writes : List (Write ρ)} (h : ∀ w ∈ writes, w.complete = false) :
    ∃ e, (written writes).latest = .error e := by
  have hlast : ∀ part : List (Write ρ), (∀ w ∈ part, w ∈ writes) → lastComplete part = none := by
    intro part hpart
    have hfilter : part.filter (·.complete) = [] :=
      List.filter_eq_nil_iff.mpr fun w hw ↦ by simp [h w (hpart w hw)]
    rw [lastComplete, hfilter]
    rfl
  have hsplit := beforeTail_append_fromTail writes
  rw [latest_written, outcome, hlast writes fun _ ↦ id,
    hlast (beforeTail writes) fun w hw ↦ hsplit ▸ List.mem_append_left _ hw]
  split
  · exact ⟨_, rfl⟩
  · next w more htail =>
    rw [h w (hsplit ▸ List.mem_append_right _ (htail ▸ List.mem_cons_self))]
    split
    · exact ⟨_, rfl⟩
    · exact ⟨_, rfl⟩

/-- When the reader and the recovery can do with a log: a record is complete, if anything was
written, and nothing that returned is hidden. -/
structure Recoverable (writes : List (Write ρ)) : Prop where
  unhidden : Unhidden writes
  begun : writes = [] ∨ ∃ w ∈ writes, w.complete = true

end LogFile

end SkillHive.Foundation
