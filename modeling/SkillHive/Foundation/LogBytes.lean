import SkillHive.Foundation.Text
import SkillHive.Foundation.TornLogs
import SkillHive.Foundation.Utf8

/-!
# The bytes of a log

A record is written as one line of text, and a write that is cut off leaves the first of its bytes.
The reader takes the file apart at the line breaks and reads each line as text. What it sees of
the bytes of several writes is what the log of lines says: a torn line goes on with the next
record, and text that is cut inside a character is no text again.
-/

namespace SkillHive.Foundation

open Utf8

/-- How records are written as text. -/
structure Format (ρ : Type) where
  /-- `serde_json::to_vec` -/
  toVec : ρ → String
  /-- `serde_json::from_str` -/
  fromStr : String → Option ρ

namespace Format

variable {ρ : Type}

/-- The text is the beginning of the text of one of the records. -/
def Piece (format : Format ρ) (records : List ρ) (text : String) : Prop :=
  text ≠ "" ∧ ∃ r ∈ records, text.toList <+: (format.toVec r).toList

/-- What JSON says of the texts of these records: each is an object in one line, no less than all
of it is a record, and neither are several such texts in a row. -/
structure Legible (format : Format ρ) (records : List ρ) : Prop where
  reads : ∀ r ∈ records, format.fromStr (format.toVec r) = some r
  opens : ∀ r ∈ records, (format.toVec r).toList.head? = some '{'
  oneLine : ∀ r ∈ records, '\n' ∉ (format.toVec r).toList ∧ '\r' ∉ (format.toVec r).toList
  torn : ∀ r ∈ records, ∀ text : String, text.toList <+: (format.toVec r).toList →
    text ≠ format.toVec r → format.fromStr text = none
  glued : ∀ texts : List String, 2 ≤ texts.length → (∀ text ∈ texts, format.Piece records text) →
    format.fromStr (String.join texts) = none

/-! ## Reading -/

def lineBreak : UInt8 := 10

/-- The finished lines, and what follows the last line break. -/
def splitLines : List UInt8 → List UInt8 → List (List UInt8) × List UInt8
  | current, [] => ([], current)
  | current, byte :: bytes =>
    if byte = lineBreak then (current :: (splitLines [] bytes).1, (splitLines [] bytes).2)
    else splitLines (current ++ [byte]) bytes

/-- A carriage return before the line break belongs to it. -/
def stripReturn (line : List UInt8) : List UInt8 :=
  if line.getLast? = some 13 then line.dropLast else line

/-- `BufRead::lines` -/
def bufLines (bytes : List UInt8) : List (List UInt8) :=
  (splitLines [] bytes).1.map stripReturn ++
    if (splitLines [] bytes).2 = [] then [] else [(splitLines [] bytes).2]

variable (format : Format ρ)

/-- The loop of `read_latest_journal` -/
def readLoop : Option ρ → List (List UInt8) → Except LogError ρ
  | latest, [] => latest.elim (.error .noRecord) .ok
  | latest, line :: lines =>
    match decode line with
    | none => .error .decoding
    | some text =>
      if trim text = "" then readLoop latest lines
      else
        match format.fromStr text with
        | some record => readLoop (some record) lines
        | none => latest.elim (.error .serialization) .ok

/-- What the reader makes of a line, unless it is blank. -/
def lineOf (line : List UInt8) : Option (Line ρ) :=
  match decode line with
  | none => some .undecodable
  | some text => if trim text = "" then none else some ((format.fromStr text).elim .garbled .record)

/-- The log of lines that these bytes are. -/
def logFile (bytes : List UInt8) : LogFile ρ where
  lines := ((splitLines [] bytes).1.map stripReturn).filterMap format.lineOf
  rest := if (splitLines [] bytes).2 = [] then none else format.lineOf (splitLines [] bytes).2

theorem readLoop_eq (latest : Option ρ) (lines : List (List UInt8)) :
    format.readLoop latest lines = readLatest latest (lines.filterMap format.lineOf) := by
  induction lines generalizing latest with
  | nil => rfl
  | cons line lines ih =>
    rw [readLoop, List.filterMap_cons, lineOf]
    cases decode line with
    | none => rfl
    | some text =>
      dsimp only
      split
      · exact ih latest
      · cases format.fromStr text with
        | none => rfl
        | some record => exact ih (some record)

/-- The loop reads the log of lines. -/
theorem latest_logFile (bytes : List UInt8) :
    (format.logFile bytes).latest = format.readLoop none (bufLines bytes) := by
  rw [readLoop_eq, bufLines, List.filterMap_append]
  unfold LogFile.latest logFile
  dsimp only
  split
  · rfl
  · rw [List.filterMap_cons]
    cases format.lineOf (splitLines [] bytes).2 <;> rfl

/-! ## Writing -/

/-- A call that returned, or of which a crash left so many bytes. -/
structure Persist (ρ : Type) where
  record : ρ
  crashed : Option ℕ
  deriving DecidableEq, Repr

/-- The bytes of a call that returned: `write_all(&bytes)` and `write_all(b"\n")` -/
def line (record : ρ) : List UInt8 := encode (format.toVec record) ++ [lineBreak]

def bytesOf (p : Persist ρ) : List UInt8 :=
  match p.crashed with
  | none => format.line p.record
  | some count => (format.line p.record).take count

/-- Where in the record the crash was. -/
def endingOf (record : ρ) (count : ℕ) : Ending :=
  if count = 0 then .cut .created
  else if count < (encode (format.toVec record)).length then
    .cut (.torn (decode ((encode (format.toVec record)).take count)).isSome)
  else if count = (encode (format.toVec record)).length then .cut .unterminated
  else .finished

def writeOf (p : Persist ρ) : Write ρ :=
  ⟨p.record, p.crashed.elim .returned (format.endingOf p.record)⟩

/-! ## Lines of pieces -/

/-- The bytes begin those of a record. -/
def Part (records : List ρ) (part : List UInt8) : Prop :=
  part ≠ [] ∧ ∃ r ∈ records, part <+: encode (format.toVec r)

variable {format} {records : List ρ} {part : List UInt8} {parts : List (List UInt8)}

theorem brace_first : (123 : UInt8).IsUTF8FirstByte := by decide

theorem Legible.encode_toVec (h : format.Legible records) {r : ρ} (hr : r ∈ records) :
    ∃ back, encode (format.toVec r) = 123 :: back := by
  obtain ⟨chars, hchars⟩ := List.head?_eq_some_iff.mp (h.opens r hr)
  refine ⟨chars.flatMap String.utf8EncodeChar, ?_⟩
  rw [← String.ofList_toList (s := format.toVec r), hchars, encode_ofList, List.flatMap_cons]
  rfl

theorem Part.cons (hpart : format.Part records part) (h : format.Legible records) :
    ∃ back, part = 123 :: back := by
  obtain ⟨hne, r, hr, more, hmore⟩ := hpart
  obtain ⟨back, hback⟩ := h.encode_toVec hr
  cases part with
  | nil => exact absurd rfl hne
  | cons byte bytes =>
    rw [hback, List.cons_append] at hmore
    exact ⟨bytes, by rw [(List.cons_eq_cons.mp hmore).1]⟩

theorem Part.oneLine (hpart : format.Part records part) (h : format.Legible records) :
    lineBreak ∉ part ∧ (13 : UInt8) ∉ part := by
  obtain ⟨-, r, hr, hbegins⟩ := hpart
  obtain ⟨hbreak, hreturn⟩ := h.oneLine r hr
  exact ⟨fun hmem ↦ hbreak (mem_of_byte_mem rfl (hbegins.subset hmem)),
    fun hmem ↦ hreturn (mem_of_byte_mem rfl (hbegins.subset hmem))⟩

theorem Part.piece {text : String} (hpart : format.Part records (encode text)) :
    format.Piece records text := by
  obtain ⟨hne, r, hr, more, hmore⟩ := hpart
  exact ⟨fun htext ↦ hne (encode_eq_nil.mpr htext), r, hr, prefix_of_encode hmore.symm⟩

/-- When parts of records are text together, each of them is. -/
theorem parts_texts (h : format.Legible records) {text : String}
    (hparts : ∀ part ∈ parts, format.Part records part) (htext : parts.flatten = encode text) :
    ∃ texts, parts = texts.map encode ∧ text = String.join texts ∧
      ∀ text ∈ texts, format.Piece records text := by
  induction parts generalizing text with
  | nil => exact ⟨[], rfl, encode_eq_nil.mp htext.symm, by simp⟩
  | cons part parts ih =>
    obtain ⟨hpart, hrest⟩ := List.forall_mem_cons.mp hparts
    have hsplit : ∃ text₁ text₂, text = text₁ ++ text₂ ∧ part = encode text₁ ∧
        parts.flatten = encode text₂ := by
      cases parts with
      | nil =>
        rw [List.flatten_cons, List.flatten_nil, List.append_nil] at htext
        exact ⟨text, "", String.append_empty.symm, htext, rfl⟩
      | cons next parts =>
        obtain ⟨back, rfl⟩ := (hrest next List.mem_cons_self).cons h
        exact split htext.symm brace_first
    obtain ⟨text₁, text₂, rfl, rfl, hflatten⟩ := hsplit
    obtain ⟨texts, rfl, rfl, hpieces⟩ := ih hrest hflatten
    exact ⟨text₁ :: texts, rfl, String.join_cons.symm,
      List.forall_mem_cons.mpr ⟨hpart.piece, hpieces⟩⟩

theorem encode_join (texts : List String) :
    (texts.map encode).flatten = encode (String.join texts) := by
  induction texts with
  | nil => rfl
  | cons text texts ih => rw [List.map_cons, List.flatten_cons, ih, String.join_cons, encode_append]

/-- The line of some parts: they are texts, or no text. -/
theorem lineOf_parts (h : format.Legible records)
    (hparts : ∀ part ∈ parts, format.Part records part) (hne : parts ≠ []) :
    (decode parts.flatten = none ∧ format.lineOf parts.flatten = some .undecodable) ∨
      ∃ texts, parts = texts.map encode ∧ (∀ text ∈ texts, format.Piece records text) ∧
        format.lineOf parts.flatten =
          some ((format.fromStr (String.join texts)).elim .garbled .record) := by
  unfold lineOf
  cases hdecode : decode parts.flatten with
  | none => exact .inl ⟨rfl, rfl⟩
  | some text =>
    right
    have hencode := decode_eq_some.mp hdecode
    obtain ⟨texts, htexts, rfl, hpieces⟩ := parts_texts h hparts hencode
    refine ⟨texts, htexts, hpieces, ?_⟩
    have hbrace : '{' ∈ (String.join texts).toList := by
      obtain ⟨part, parts, rfl⟩ := List.exists_cons_of_ne_nil hne
      obtain ⟨back, rfl⟩ := (hparts _ List.mem_cons_self).cons h
      exact mem_of_byte_mem rfl (hencode ▸ List.mem_cons_self)
    dsimp only
    rw [if_neg (trim_ne_empty hbrace (by decide))]

theorem glue_texts (record record' : Option ρ) :
    LogFile.glue (some (record.elim .garbled .record)) (record'.elim .garbled .record) =
      (.garbled : Line ρ) := by
  cases record <;> cases record' <;> rfl

/-- One more part in a line is glued to it. -/
theorem lineOf_append (h : format.Legible records)
    (hparts : ∀ part ∈ parts, format.Part records part) (hne : parts ≠ [])
    (hpart : format.Part records part) :
    ∃ line line', format.lineOf parts.flatten = some line ∧ format.lineOf part = some line' ∧
      format.lineOf (parts.flatten ++ part) = some (LogFile.glue (some line) line') := by
  have hall : ∀ part' ∈ parts ++ [part], format.Part records part' :=
    List.forall_mem_append.mpr ⟨hparts, List.forall_mem_singleton.mpr hpart⟩
  have hflatten : (parts ++ [part]).flatten = parts.flatten ++ part := by simp
  have hone := lineOf_parts h (List.forall_mem_singleton.mpr hpart) (List.cons_ne_nil _ _)
  rw [List.flatten_cons, List.flatten_nil, List.append_nil] at hone
  have hboth := lineOf_parts h hall (by simp)
  rw [hflatten] at hboth
  rcases hboth with ⟨hundecodable, hglued⟩ | ⟨texts, hmap, hpieces, hglued⟩
  · -- One of the two is no text.
    rcases lineOf_parts h hparts hne with ⟨-, hline⟩ | ⟨texts, rfl, -, hline⟩
    · rcases hone with ⟨-, hline'⟩ | ⟨texts', -, -, hline'⟩
      · exact ⟨_, _, hline, hline', hglued⟩
      · exact ⟨_, _, hline, hline', hglued⟩
    · rcases hone with ⟨-, hline'⟩ | ⟨texts', htexts', -, hline'⟩
      · exact ⟨_, _, hline, hline', by rw [hglued, LogFile.glue_undecodable]⟩
      · obtain ⟨text', -, -, hpart', -⟩ := List.map_eq_cons_iff.mp htexts'.symm
        rw [encode_join, ← hpart', ← encode_append, decode_encode] at hundecodable
        cases hundecodable
  · -- Both are texts, and so are they together.
    obtain ⟨texts₁, texts₂, rfl, hmap₁, hmap₂⟩ := List.map_eq_append_iff.mp hmap.symm
    obtain ⟨text, rest, rfl, htext, hrest⟩ := List.map_eq_cons_iff.mp hmap₂
    have hlength : 2 ≤ (texts₁ ++ text :: rest).length := by
      have hpos : 0 < texts₁.length := by
        rw [← List.length_map encode, hmap₁]
        exact List.length_pos_iff.mpr hne
      rw [List.length_append, List.length_cons]
      omega
    rw [h.glued _ hlength hpieces] at hglued
    rcases lineOf_parts h hparts hne with ⟨hnone, -⟩ | ⟨texts', -, -, hline⟩
    · rw [← hmap₁, encode_join, decode_encode] at hnone
      cases hnone
    · rcases hone with ⟨hnone, -⟩ | ⟨texts'', -, -, hline'⟩
      · rw [← htext, decode_encode] at hnone
        cases hnone
      · exact ⟨_, _, hline, hline', by rw [hglued, glue_texts]; rfl⟩

/-! ## Files of writes -/

theorem splitLines_line {line : List UInt8} (hline : lineBreak ∉ line)
    (current bytes : List UInt8) :
    splitLines current (line ++ lineBreak :: bytes) =
      ((current ++ line) :: (splitLines [] bytes).1, (splitLines [] bytes).2) := by
  induction line generalizing current with
  | nil => rw [List.nil_append, splitLines, if_pos rfl, List.append_nil]
  | cons byte line ih =>
    rw [List.cons_append, splitLines,
      if_neg fun h : byte = lineBreak ↦ hline (h ▸ List.mem_cons_self),
      ih fun h ↦ hline (List.mem_cons_of_mem _ h), List.append_assoc, List.singleton_append]

theorem splitLines_rest {rest : List UInt8} (hrest : lineBreak ∉ rest) (current : List UInt8) :
    splitLines current rest = ([], current ++ rest) := by
  induction rest generalizing current with
  | nil => rw [splitLines, List.append_nil]
  | cons byte rest ih =>
    rw [splitLines, if_neg fun h : byte = lineBreak ↦ hrest (h ▸ List.mem_cons_self),
      ih fun h ↦ hrest (List.mem_cons_of_mem _ h), List.append_assoc, List.singleton_append]

theorem splitLines_lines {lines : List (List UInt8)} (hlines : ∀ line ∈ lines, lineBreak ∉ line)
    {rest : List UInt8} (hrest : lineBreak ∉ rest) :
    splitLines [] (lines.flatMap (· ++ [lineBreak]) ++ rest) = (lines, rest) := by
  induction lines with
  | nil => exact splitLines_rest hrest []
  | cons line lines ih =>
    obtain ⟨hline, hmore⟩ := List.forall_mem_cons.mp hlines
    rw [List.flatMap_cons, List.append_assoc, List.append_assoc, List.singleton_append,
      splitLines_line hline, ih hmore, List.nil_append]

/-- The bytes are finished lines and an unfinished one, each of them put together from parts, and
the log has what is read of them. -/
structure Shows (format : Format ρ) (records : List ρ) (bytes : List UInt8) (file : LogFile ρ) :
    Prop where
  shape : ∃ (lines : List (List UInt8)) (parts : List (List UInt8)),
    bytes = lines.flatMap (· ++ [lineBreak]) ++ parts.flatten ∧
    (∀ line ∈ lines, lineBreak ∉ line ∧ (13 : UInt8) ∉ line) ∧
    (∀ part ∈ parts, format.Part records part) ∧
    file.lines = lines.filterMap format.lineOf ∧
    file.rest = if parts = [] then none else format.lineOf parts.flatten

theorem not_mem_flatten (h : format.Legible records)
    (hparts : ∀ part ∈ parts, format.Part records part) :
    lineBreak ∉ parts.flatten ∧ (13 : UInt8) ∉ parts.flatten := by
  constructor
  · intro hmem
    obtain ⟨part, hpart, hbyte⟩ := List.mem_flatten.mp hmem
    exact ((hparts part hpart).oneLine h).1 hbyte
  · intro hmem
    obtain ⟨part, hpart, hbyte⟩ := List.mem_flatten.mp hmem
    exact ((hparts part hpart).oneLine h).2 hbyte

theorem map_stripReturn {lines : List (List UInt8)} (h : ∀ line ∈ lines, (13 : UInt8) ∉ line) :
    lines.map stripReturn = lines := by
  refine (List.map_congr_left fun line hline ↦ ?_).trans (List.map_id lines)
  exact if_neg fun hlast ↦ h line hline (List.mem_of_getLast? hlast)

theorem flatten_eq_nil (h : format.Legible records)
    (hparts : ∀ part ∈ parts, format.Part records part) :
    parts.flatten = [] ↔ parts = [] := by
  constructor
  · intro hnil
    cases parts with
    | nil => rfl
    | cons part parts =>
      obtain ⟨back, rfl⟩ := (hparts part List.mem_cons_self).cons h
      cases hnil
  · rintro rfl
    rfl

theorem Shows.logFile_eq {bytes : List UInt8} {file : LogFile ρ}
    (hshows : format.Shows records bytes file) (h : format.Legible records) :
    format.logFile bytes = file := by
  obtain ⟨lines, parts, rfl, hlines, hparts, hfile, hrest⟩ := hshows.shape
  have hsplit :=
    splitLines_lines (fun line hline ↦ (hlines line hline).1) (not_mem_flatten h hparts).1
  obtain ⟨fileLines, fileRest⟩ := file
  rw [Format.logFile, hsplit, map_stripReturn fun line hline ↦ (hlines line hline).2]
  dsimp only at hfile hrest ⊢
  rw [hfile, hrest]
  simp only [flatten_eq_nil h hparts]

theorem shows_nil (format : Format ρ) (records : List ρ) : format.Shows records [] .empty :=
  ⟨[], [], rfl, by simp, by simp, rfl, rfl⟩

section Calls

variable {bytes : List UInt8} {file : LogFile ρ} {line' : Line ρ} {r : ρ}

theorem lineOf_glue (h : format.Legible records)
    (hparts : ∀ part ∈ parts, format.Part records part)
    (hpart : format.Part records part) (hline : format.lineOf part = some line') :
    format.lineOf (parts.flatten ++ part) =
      some (LogFile.glue (if parts = [] then none else format.lineOf parts.flatten) line') := by
  by_cases hnil : parts = []
  · rw [if_pos hnil, hnil, List.flatten_nil, List.nil_append, hline]
    rfl
  · obtain ⟨first, second, hfirst, hsecond, hboth⟩ := lineOf_append h hparts hnil hpart
    rw [hline, Option.some.injEq] at hsecond
    rw [if_neg hnil, hboth, hfirst, hsecond]

theorem Shows.extend (hshows : format.Shows records bytes file) (h : format.Legible records)
    (hpart : format.Part records part) (hline : format.lineOf part = some line') :
    format.Shows records (bytes ++ part) ⟨file.lines, some (LogFile.glue file.rest line')⟩ := by
  obtain ⟨lines, parts, rfl, hlines, hparts, hfile, hrest⟩ := hshows.shape
  refine ⟨lines, parts ++ [part], by simp, hlines, ?_, hfile, ?_⟩
  · exact List.forall_mem_append.mpr ⟨hparts, List.forall_mem_singleton.mpr hpart⟩
  · rw [if_neg (by simp), List.flatten_append, List.flatten_cons, List.flatten_nil,
      List.append_nil, lineOf_glue h hparts hpart hline, ← hrest]

theorem Shows.finish (hshows : format.Shows records bytes file) (h : format.Legible records)
    (hpart : format.Part records part) (hline : format.lineOf part = some line') :
    format.Shows records (bytes ++ (part ++ [lineBreak]))
      ⟨file.lines ++ [LogFile.glue file.rest line'], none⟩ := by
  obtain ⟨lines, parts, rfl, hlines, hparts, hfile, hrest⟩ := hshows.shape
  refine ⟨lines ++ [parts.flatten ++ part], [], by simp, ?_, by simp, ?_, rfl⟩
  · refine List.forall_mem_append.mpr ⟨hlines, List.forall_mem_singleton.mpr ?_⟩
    obtain ⟨hbreaks, hreturns⟩ := not_mem_flatten h hparts
    obtain ⟨hbreak, hreturn⟩ := hpart.oneLine h
    exact ⟨by simp [hbreaks, hbreak], by simp [hreturns, hreturn]⟩
  · rw [List.filterMap_append, ← hfile, List.filterMap_cons, lineOf_glue h hparts hpart hline,
      ← hrest]
    rfl

theorem part_take (hr : r ∈ records) {count : ℕ} (hcount : 0 < count)
    (h : format.Legible records) : format.Part records ((encode (format.toVec r)).take count) := by
  obtain ⟨back, hback⟩ := h.encode_toVec hr
  refine ⟨?_, r, hr, List.take_prefix _ _⟩
  obtain ⟨count, rfl⟩ := Nat.exists_eq_succ_of_ne_zero hcount.ne'
  rw [hback, List.take_succ_cons]
  exact List.cons_ne_nil _ _

theorem lineOf_whole (h : format.Legible records) (hr : r ∈ records) :
    format.lineOf (encode (format.toVec r)) = some (.record r) := by
  have hbrace : '{' ∈ (format.toVec r).toList := List.mem_of_head? (h.opens r hr)
  rw [lineOf, decode_encode]
  dsimp only
  rw [if_neg (trim_ne_empty hbrace (by decide)), h.reads r hr]
  rfl

theorem lineOf_torn (h : format.Legible records) (hr : r ∈ records) {count : ℕ} (hpos : 0 < count)
    (hcount : count < (encode (format.toVec r)).length) :
    format.lineOf ((encode (format.toVec r)).take count) =
      some (if (decode ((encode (format.toVec r)).take count)).isSome then .garbled
        else .undecodable) := by
  have hpart := part_take hr hpos h
  unfold lineOf
  cases hdecode : decode ((encode (format.toVec r)).take count) with
  | none => rfl
  | some text =>
    have hencode := decode_eq_some.mp hdecode
    have hpiece := (hencode ▸ hpart : format.Part records (encode text)).piece
    have hbegins : text.toList <+: (format.toVec r).toList := by
      have hsplit := List.take_append_drop count (encode (format.toVec r))
      rw [hencode] at hsplit
      exact prefix_of_encode hsplit.symm
    have hne : text ≠ format.toVec r := by
      rintro rfl
      rw [← hencode, List.length_take] at hcount
      omega
    have hbrace : '{' ∈ text.toList := by
      obtain ⟨back, hback⟩ := hpart.cons h
      exact mem_of_byte_mem rfl (hencode ▸ hback ▸ List.mem_cons_self)
    dsimp only
    rw [if_neg (trim_ne_empty hbrace (by decide)), h.torn r hr text hbegins hne]
    rfl

/-- The bytes of one more call are one more write in the log. -/
theorem Shows.append (hshows : format.Shows records bytes file) (h : format.Legible records)
    {p : Persist ρ} (hp : p.record ∈ records) :
    format.Shows records (bytes ++ format.bytesOf p) ((format.writeOf p).apply file) := by
  obtain ⟨record, crashed⟩ := p
  have hnonempty : 0 < (encode (format.toVec record)).length := by
    obtain ⟨back, hback⟩ := h.encode_toVec hp
    rw [hback]
    exact Nat.zero_lt_succ _
  have hpart : format.Part records (encode (format.toVec record)) :=
    ⟨List.length_pos_iff.mp hnonempty, record, hp, List.prefix_refl _⟩
  have hdone := hshows.finish h hpart (lineOf_whole h hp)
  cases crashed with
  | none => exact hdone
  | some count =>
    change format.Shows records (bytes ++ (encode (format.toVec record) ++ [lineBreak]).take count)
      (Write.apply file ⟨record, format.endingOf record count⟩)
    unfold endingOf
    split
    · next hzero =>
      rw [hzero, List.take_zero, List.append_nil]
      exact hshows
    · next hpos =>
      split
      · next hcount =>
        rw [List.take_append_of_le_length hcount.le]
        exact hshows.extend h (part_take hp (Nat.pos_of_ne_zero hpos) h)
          (lineOf_torn h hp (Nat.pos_of_ne_zero hpos) hcount)
      · next hcount =>
        split
        · next heq =>
          rw [heq, List.take_left]
          exact hshows.extend h hpart (lineOf_whole h hp)
        · next hne =>
          rw [List.take_of_length_le (by rw [List.length_append, List.length_singleton]; omega)]
          exact hdone

end Calls

/-- The file after these calls. -/
def fileBytes (format : Format ρ) (persists : List (Persist ρ)) : List UInt8 :=
  persists.flatMap format.bytesOf

/-- The file after some calls is the log of their writes. -/
theorem logFile_fileBytes {persists : List (Persist ρ)}
    (h : format.Legible (persists.map (·.record))) :
    format.logFile (format.fileBytes persists) = LogFile.written (persists.map format.writeOf) := by
  have hshows : ∀ (later : List (Persist ρ)) (bytes : List UInt8) (file : LogFile ρ),
      (∀ p ∈ later, p ∈ persists) → format.Shows (persists.map (·.record)) bytes file →
      format.Shows (persists.map (·.record)) (bytes ++ format.fileBytes later)
        ((later.map format.writeOf).foldl Write.apply file) := by
    intro later
    induction later with
    | nil =>
      intro bytes file _ hfile
      rw [fileBytes, List.flatMap_nil, List.append_nil]
      exact hfile
    | cons p later ih =>
      intro bytes file hlater hfile
      obtain ⟨hp, hlater⟩ := List.forall_mem_cons.mp hlater
      have hstep := ih _ _ hlater (hfile.append h (List.mem_map_of_mem hp))
      rw [List.append_assoc] at hstep
      exact hstep
  exact (hshows persists [] .empty (fun _ ↦ id) (shows_nil format _)).logFile_eq h

/-! ## Formats of a few records -/

/-- The format that reads back the texts of these records. -/
def ofRecords [DecidableEq ρ] (toVec : ρ → String) (records : List ρ) : Format ρ where
  toVec := toVec
  fromStr text := records.find? fun r ↦ toVec r = text

/-- The text is one object, without an object or a line break inside. -/
def FlatObject (text : String) : Prop :=
  ∃ body : List Char, text.toList = '{' :: (body ++ ['}']) ∧
    '{' ∉ body ∧ '}' ∉ body ∧ '\n' ∉ body ∧ '\r' ∉ body

/-- The text of an object, by the characters of its members. -/
def objectText (front : List (List Char)) (last : List Char) : String :=
  String.ofList ('{' :: (front.flatMap (· ++ [',']) ++ last ++ ['}']))

theorem objectText_inj {front : List (List Char)} {last last' : List Char} :
    objectText front last = objectText front last' ↔ last = last' := by
  rw [objectText, objectText, String.ofList_inj, List.cons_inj_right, List.append_left_inj,
    List.append_right_inj]

theorem flatObject_objectText {front : List (List Char)} {last : List Char}
    (h : ∀ member ∈ last :: front,
      '{' ∉ member ∧ '}' ∉ member ∧ '\n' ∉ member ∧ '\r' ∉ member) :
    FlatObject (objectText front last) := by
  have hbody : ∀ c, c ≠ ',' → (∀ member ∈ last :: front, c ∉ member) →
      c ∉ front.flatMap (· ++ [',']) ++ last := by
    intro c hcomma hfree hmem
    rcases List.mem_append.mp hmem with hfront | hlast
    · obtain ⟨member, hmember, hchar⟩ := List.mem_flatMap.mp hfront
      rcases List.mem_append.mp hchar with hchar | hchar
      · exact hfree member (List.mem_cons_of_mem _ hmember) hchar
      · exact hcomma (List.mem_singleton.mp hchar)
    · exact hfree last List.mem_cons_self hlast
  exact ⟨_, String.toList_ofList,
    hbody '{' (by decide) fun member hmember ↦ (h member hmember).1,
    hbody '}' (by decide) fun member hmember ↦ (h member hmember).2.1,
    hbody '\n' (by decide) fun member hmember ↦ (h member hmember).2.2.1,
    hbody '\r' (by decide) fun member hmember ↦ (h member hmember).2.2.2⟩

/-- Both braces are there. -/
theorem one_lt_length_objectText (front : List (List Char)) (last : List Char) :
    1 < (Utf8.encode (objectText front last)).length := by
  have hopen : (String.utf8EncodeChar '{').length = 1 := by decide
  have hclose : (['}'].flatMap String.utf8EncodeChar).length = 1 := by decide
  rw [objectText, Utf8.encode_ofList, List.flatMap_cons, List.flatMap_append, List.length_append,
    List.length_append]
  omega

theorem FlatObject.eq_of_begins {text text' : String} (h : FlatObject text) (h' : FlatObject text')
    (hbegins : text.toList <+: text'.toList) : text = text' := by
  obtain ⟨body, hbody, -⟩ := h
  obtain ⟨body', hbody', -, hclose, -⟩ := h'
  obtain ⟨rest, hrest⟩ := hbegins
  have hnil : rest = [] := by
    rw [hbody, hbody', List.cons_append, List.cons.injEq, List.append_assoc,
      List.append_eq_append_iff] at hrest
    rcases hrest.2 with ⟨more, hmore, hlast⟩ | ⟨more, hmore, hlast⟩
    · cases more with
      | nil => exact (List.cons_eq_cons.mp hlast).2
      | cons first more =>
        obtain ⟨rfl, -⟩ := List.cons_eq_cons.mp hlast
        exact absurd (hmore ▸ List.mem_append_right _ List.mem_cons_self) hclose
    · have hlength := congrArg List.length hlast
      simp only [List.length_append, List.length_singleton] at hlength
      exact List.length_eq_zero_iff.mp (by omega)
  rw [hnil, List.append_nil] at hrest
  exact String.toList_inj.mp hrest

theorem Piece.opens {format : Format ρ} {records : List ρ} {text : String}
    (h : format.Piece records text) (hflat : ∀ r ∈ records, FlatObject (format.toVec r)) :
    ∃ more, text.toList = '{' :: more := by
  obtain ⟨hne, r, hr, rest, hrest⟩ := h
  obtain ⟨body, hbody, -⟩ := hflat r hr
  cases htext : text.toList with
  | nil => exact absurd (String.toList_eq_nil_iff.mp htext) hne
  | cons first more =>
    rw [htext, hbody, List.cons_append] at hrest
    exact ⟨more, by rw [(List.cons_eq_cons.mp hrest).1]⟩

theorem fromStr_ofRecords [DecidableEq ρ] (toVec : ρ → String) (records : List ρ) (text : String) :
    ((ofRecords toVec records).fromStr text = none ∧ ∀ r ∈ records, toVec r ≠ text) ∨
      ∃ r ∈ records, toVec r = text ∧ (ofRecords toVec records).fromStr text = some r := by
  change (records.find? (fun r ↦ toVec r = text) = none ∧ _) ∨
    ∃ r ∈ records, toVec r = text ∧ records.find? (fun r ↦ toVec r = text) = some r
  cases hfind : records.find? fun r ↦ toVec r = text with
  | none => exact .inl ⟨rfl, fun r hr ↦ by simpa using List.find?_eq_none.mp hfind r hr⟩
  | some r =>
    exact .inr ⟨r, List.mem_of_find?_eq_some hfind, by simpa using List.find?_some hfind, rfl⟩

theorem legible_ofRecords [DecidableEq ρ] {toVec : ρ → String} {records : List ρ}
    (hflat : ∀ r ∈ records, FlatObject (toVec r))
    (hinj : ∀ r ∈ records, ∀ r' ∈ records, toVec r = toVec r' → r = r') :
    (ofRecords toVec records).Legible records where
  reads r hr := by
    rcases fromStr_ofRecords toVec records (toVec r) with ⟨-, hnone⟩ | ⟨r', hr', heq, hread⟩
    · exact absurd rfl (hnone r hr)
    · exact hread.trans (congrArg some (hinj r' hr' r hr heq))
  opens r hr := by
    obtain ⟨body, hbody, -⟩ := hflat r hr
    exact (congrArg List.head? hbody).trans rfl
  oneLine r hr := by
    obtain ⟨body, hbody, -, -, hbreak, hreturn⟩ := hflat r hr
    change '\n' ∉ (toVec r).toList ∧ '\r' ∉ (toVec r).toList
    rw [hbody]
    exact ⟨by simp [hbreak], by simp [hreturn]⟩
  torn r hr text hbegins hne := by
    rcases fromStr_ofRecords toVec records text with ⟨hnone, -⟩ | ⟨r', hr', rfl, -⟩
    · exact hnone
    · exact absurd ((hflat r' hr').eq_of_begins (hflat r hr) hbegins) hne
  glued texts hlength hpieces := by
    rcases fromStr_ofRecords toVec records (String.join texts) with ⟨hnone, -⟩ | ⟨r', hr', heq, -⟩
    · exact hnone
    · obtain ⟨body, hbody, hopen, -⟩ := hflat r' hr'
      obtain ⟨first, more, rfl⟩ := List.exists_cons_of_length_pos (by omega : 0 < texts.length)
      rw [List.length_cons] at hlength
      obtain ⟨second, texts, rfl⟩ := List.exists_cons_of_length_pos (by omega : 0 < more.length)
      -- The brace of the second text would stand inside.
      obtain ⟨rest, hfirst⟩ := (hpieces first List.mem_cons_self).opens hflat
      obtain ⟨rest', hsecond⟩ :=
        (hpieces second (List.mem_cons_of_mem _ List.mem_cons_self)).opens hflat
      rw [heq, String.toList_join, List.flatMap_cons, List.flatMap_cons, hfirst, hsecond,
        List.cons_append, List.cons.injEq] at hbody
      have hmem : '{' ∈ body ++ ['}'] := by
        rw [← hbody.2]
        simp
      simp [hopen] at hmem

end Format

end SkillHive.Foundation
