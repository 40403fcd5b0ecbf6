import SkillHive.Foundation.Base64
import SkillHive.Foundation.Text
import SkillHive.Foundation.Transaction

/-!
# Cursors of the change feed

A cursor is the sequence number of the last row that a page covered, as eight big-endian
bytes in URL-safe Base64. What the server issues decodes to the number that it encodes. It is not the
only text that does: the decoder also takes written padding, digits of the other alphabet and bits
of the last digit that no byte takes.
-/

namespace SkillHive

open Foundation

namespace Server

def cursorPrefix : String := "v1."

def cursorBytes : ℕ := 8

def maxCursorLength : ℕ := 64

/-- `encode_sync_cursor`, with the text of its error. -/
def encodeSyncCursor (sequence : ℕ) : Except String String := do
  require (sequence ≤ 2 ^ 64 - 1) "sync cursor sequence is out of range"
  .ok (String.ofList (cursorPrefix.toList ++ Base64.encode (bigEndian cursorBytes sequence)))

/-- `decode_sync_cursor`, with the text of its error. -/
def decodeSyncCursor (cursor : Option String) : Except String ℕ :=
  match cursor with
  | none => .ok 0
  | some text =>
    if text = "" then .ok 0
    else do
      require (text.length ≤ maxCursorLength ∧ cursorPrefix.toList <+: text.toList)
        "unsupported or malformed sync cursor"
      let encoded := text.toList.drop cursorPrefix.length
      require (encoded ≠ []) "malformed sync cursor"
      let payload ← okOr (Base64.decode (Base64.withPadding encoded)) "malformed sync cursor"
      require (payload.length = cursorBytes) "malformed sync cursor"
      .ok (ofBigEndian payload)

theorem encodeSyncCursor_eq_ok {sequence : ℕ} {cursor : String}
    (h : encodeSyncCursor sequence = .ok cursor) :
    sequence < 2 ^ 64 ∧
      cursor.toList = cursorPrefix.toList ++ Base64.encode (bigEndian cursorBytes sequence) := by
  obtain ⟨_, hrange, h⟩ := bind_eq_ok.mp h
  have hrange : sequence ≤ 2 ^ 64 - 1 := require_eq_ok.mp hrange
  cases h
  exact ⟨by omega, String.toList_ofList⟩

/-- No issued cursor is blank. -/
theorem encodeSyncCursor_ne_empty {sequence : ℕ} {cursor : String}
    (h : encodeSyncCursor sequence = .ok cursor) : cursor ≠ "" := by
  rintro rfl
  have hlist := (encodeSyncCursor_eq_ok h).2
  have hstart : cursorPrefix.toList = ['v', '1', '.'] := by decide
  rw [hstart] at hlist
  cases hlist

/-- Nor is one trimmed to nothing. -/
theorem trim_encodeSyncCursor {sequence : ℕ} {cursor : String}
    (h : encodeSyncCursor sequence = .ok cursor) : trim cursor ≠ "" := by
  have hmem : 'v' ∈ cursor.toList := by
    rw [(encodeSyncCursor_eq_ok h).2]
    exact List.mem_append_left _ (by decide)
  exact trim_ne_empty hmem (by decide)

/-- An issued cursor decodes to the number that it encodes. -/
theorem decodeSyncCursor_encode {sequence : ℕ} {cursor : String}
    (h : encodeSyncCursor sequence = .ok cursor) : decodeSyncCursor (some cursor) = .ok sequence := by
  obtain ⟨hrange, hlist⟩ := encodeSyncCursor_eq_ok h
  have hlength : (Base64.encode (bigEndian cursorBytes sequence)).length = 11 := by
    rw [Base64.length_encode, length_bigEndian]
    rfl
  have hfits : cursor.length ≤ maxCursorLength := by
    rw [← String.length_toList, hlist, List.length_append, hlength]
    decide
  have hencoded : cursor.toList.drop cursorPrefix.length =
      Base64.encode (bigEndian cursorBytes sequence) := by
    rw [hlist, ← String.length_toList, List.drop_left]
  have hnonempty : Base64.encode (bigEndian cursorBytes sequence) ≠ [] := by
    intro hnil
    rw [hnil] at hlength
    cases hlength
  have hpayload : Base64.decode (Base64.withPadding
      (Base64.encode (bigEndian cursorBytes sequence))) = some (bigEndian cursorBytes sequence) :=
    Base64.decode_encode fun _ hbyte ↦ lt_of_mem_bigEndian hbyte
  have hvalue : ofBigEndian (bigEndian cursorBytes sequence) = sequence :=
    ofBigEndian_bigEndian hrange
  have hstart : cursorPrefix.toList <+: cursor.toList := hlist ▸ List.prefix_append ..
  simp only [decodeSyncCursor, if_neg (encodeSyncCursor_ne_empty h)]
  refine bind_eq_ok.mpr ⟨(), require_eq_ok.mpr ⟨hfits, hstart⟩, ?_⟩
  rw [hencoded]
  refine bind_eq_ok.mpr ⟨(), require_eq_ok.mpr hnonempty, ?_⟩
  refine bind_eq_ok.mpr ⟨_, okOr_eq_ok.mpr hpayload, ?_⟩
  refine bind_eq_ok.mpr ⟨(), require_eq_ok.mpr (length_bigEndian ..), ?_⟩
  rw [hvalue]

/-! ## The cursors that denote a number a second time -/

/-- An accepted cursor has eight bytes behind its version. -/
theorem decodeSyncCursor_eq_ok {cursor : String} {sequence : ℕ} (hne : cursor ≠ "")
    (h : decodeSyncCursor (some cursor) = .ok sequence) :
    ∃ encoded payload, cursor.toList = cursorPrefix.toList ++ encoded ∧
      Base64.decode (Base64.withPadding encoded) = some payload ∧
      payload.length = cursorBytes ∧ ofBigEndian payload = sequence := by
  simp only [decodeSyncCursor, if_neg hne] at h
  obtain ⟨_, hstart, h⟩ := bind_eq_ok.mp h
  obtain ⟨_, _, h⟩ := bind_eq_ok.mp h
  obtain ⟨payload, hpayload, h⟩ := bind_eq_ok.mp h
  obtain ⟨_, hlength, h⟩ := bind_eq_ok.mp h
  cases h
  obtain ⟨encoded, hencoded⟩ := (require_eq_ok.mp hstart).2
  rw [← hencoded, ← String.length_toList, List.drop_left] at hpayload
  exact ⟨encoded, payload, hencoded.symm, okOr_eq_ok.mp hpayload, require_eq_ok.mp hlength, rfl⟩

/-- Whatever decodes to eight bytes is accepted. -/
theorem decodeSyncCursor_of_decode {cursor : String} {encoded : List Char} {payload : List ℕ}
    (hcursor : cursor.toList = cursorPrefix.toList ++ encoded) (hfits : encoded.length ≤ 61)
    (hpayload : Base64.decode (Base64.withPadding encoded) = some payload)
    (hlength : payload.length = cursorBytes) :
    decodeSyncCursor (some cursor) = .ok (ofBigEndian payload) := by
  have hne : cursor ≠ "" := by
    rintro rfl
    have hstart : cursorPrefix.toList = ['v', '1', '.'] := by decide
    rw [hstart] at hcursor
    cases hcursor
  have hshort : cursor.length ≤ maxCursorLength := by
    have hthree : cursorPrefix.toList.length = 3 := by decide
    rw [← String.length_toList, hcursor, List.length_append, hthree, maxCursorLength]
    omega
  have hnonempty : encoded ≠ [] := by
    rintro rfl
    cases hpayload
    cases hlength
  have hstart : cursorPrefix.toList <+: cursor.toList := hcursor ▸ List.prefix_append ..
  have hdrop : cursor.toList.drop cursorPrefix.length = encoded := by
    rw [hcursor, ← String.length_toList, List.drop_left]
  simp only [decodeSyncCursor, if_neg hne]
  refine bind_eq_ok.mpr ⟨(), require_eq_ok.mpr ⟨hshort, hstart⟩, ?_⟩
  rw [hdrop]
  refine bind_eq_ok.mpr ⟨(), require_eq_ok.mpr hnonempty, ?_⟩
  refine bind_eq_ok.mpr ⟨_, okOr_eq_ok.mpr hpayload, ?_⟩
  exact bind_eq_ok.mpr ⟨(), require_eq_ok.mpr hlength, rfl⟩

/-- Eight bytes are eleven digits, with or without their padding. -/
theorem eleven_digits {encoded : List Char} {payload : List ℕ}
    (hpayload : Base64.decode (Base64.withPadding encoded) = some payload)
    (hlength : payload.length = cursorBytes) :
    ∃ digits : List Char, digits.length = 11 ∧ (∀ c ∈ digits, Base64.IsDigit c) ∧
      (encoded = digits ∨ encoded = digits ++ ['=']) := by
  obtain ⟨digits, hpadded, hdecodes⟩ := Base64.exists_decodes hpayload
  have heleven : digits.length = 11 := by
    have hbytes := hdecodes.length
    have hwhole := hdecodes.whole
    rw [hlength, cursorBytes] at hbytes
    omega
  have hquads : Base64.withPadding digits = digits ++ ['='] := by
    rw [Base64.withPadding, heleven]
    rfl
  have hpad : '=' ∉ digits := Base64.pad_notMem hdecodes.digit
  refine ⟨digits, heleven, hdecodes.digit, ?_⟩
  have hinitial : encoded <+: digits ++ ['='] :=
    ⟨_, (hpadded.trans hquads : Base64.withPadding encoded = _)⟩
  rcases List.prefix_concat_iff.mp hinitial with hwhole | ⟨rest, rfl⟩
  · exact .inr hwhole
  · -- What is left of the digits would be padding.
    rw [hquads, Base64.withPadding, List.append_assoc, List.append_cancel_left_eq] at hpadded
    have hrest : rest = [] := by
      refine List.eq_nil_iff_forall_not_mem.mpr fun c hc ↦ hpad ?_
      have hmem : c ∈ List.replicate ((4 - encoded.length % 4) % 4) '=' :=
        hpadded ▸ List.mem_append_left _ hc
      exact List.mem_append_right _ (List.eq_of_mem_replicate hmem ▸ hc)
    exact .inl (by rw [hrest, List.append_nil])

/-- An accepted cursor is the one issued for its number, if its text is canonical. -/
theorem encodeSyncCursor_eq_iff {cursor : String} {encoded : List Char} {payload : List ℕ}
    (hcursor : cursor.toList = cursorPrefix.toList ++ encoded)
    (hpayload : Base64.decode (Base64.withPadding encoded) = some payload)
    (hlength : payload.length = cursorBytes) :
    encodeSyncCursor (ofBigEndian payload) = .ok cursor ↔ Base64.Canonical encoded := by
  obtain ⟨digits, _, hdecodes⟩ := Base64.exists_decodes hpayload
  have hrange := ofBigEndian_lt hdecodes.byte
  have hbytes := bigEndian_ofBigEndian hdecodes.byte
  rw [hlength] at hrange hbytes
  rw [← Base64.encode_eq_iff_canonical hpayload]
  constructor
  · intro h
    have hlist := (encodeSyncCursor_eq_ok h).2
    rw [hbytes, hcursor, List.append_cancel_left_eq] at hlist
    exact hlist.symm
  · intro h
    have hadmitted : ofBigEndian payload ≤ 2 ^ 64 - 1 := Nat.le_sub_one_of_lt hrange
    refine bind_eq_ok.mpr ⟨(), require_eq_ok.mpr hadmitted, ?_⟩
    rw [hbytes, h, ← hcursor, String.ofList_toList]

/-- An accepted cursor is the one that its number is written as. -/
def WrittenAsRead (cursor : String) : Prop :=
  ∀ sequence, decodeSyncCursor (some cursor) = .ok sequence → encodeSyncCursor sequence = .ok cursor

/-- Eleven digits whose padding is written out, or that are not all of the issued alphabet,
or with bits in the last that no byte takes. -/
def AliasedCursor (cursor : String) : Prop :=
  ∃ digits : List Char, digits.length = 11 ∧ (∀ c ∈ digits, Base64.IsDigit c) ∧
    (cursor.toList = cursorPrefix.toList ++ (digits ++ ['=']) ∨
      cursor.toList = cursorPrefix.toList ++ digits ∧
        ('+' ∈ digits ∨ '/' ∈ digits ∨ ¬ Base64.SpareBitsClear digits))

theorem AliasedCursor.not_writtenAsRead {cursor : String} (h : AliasedCursor cursor) :
    ¬ WrittenAsRead cursor := by
  obtain ⟨digits, heleven, hdigit, haliased⟩ := h
  obtain ⟨payload, hpayload⟩ := Base64.exists_decode hdigit (by rw [heleven]; decide)
  have hpad : '=' ∉ digits := Base64.pad_notMem hdigit
  have hlength : payload.length = cursorBytes := by
    obtain ⟨digits', hpadded, hdecodes⟩ := Base64.exists_decodes hpayload
    obtain rfl := Base64.withPadding_inj hpad (Base64.pad_notMem hdecodes.digit) hpadded
    rw [hdecodes.length, heleven, cursorBytes]
  intro hwritten
  rcases haliased with hcursor | ⟨hcursor, hloose⟩
  · have hpadded : Base64.withPadding (digits ++ ['=']) = Base64.withPadding digits := by
      rw [Base64.withPadding, Base64.withPadding, List.length_append, heleven]
      simp
    rw [← hpadded] at hpayload
    have hread := decodeSyncCursor_of_decode hcursor (by simp [heleven]) hpayload hlength
    have hcanonical := (encodeSyncCursor_eq_iff hcursor hpayload hlength).mp (hwritten _ hread)
    exact hcanonical.no_pad (by simp)
  · have hread := decodeSyncCursor_of_decode hcursor (by omega) hpayload hlength
    have hcanonical := (encodeSyncCursor_eq_iff hcursor hpayload hlength).mp (hwritten _ hread)
    rcases hloose with hplus | hslash | hspare
    · exact hcanonical.no_plus hplus
    · exact hcanonical.no_slash hslash
    · exact hspare hcanonical.spare

/-- What is issued is read back, and only the aliased cursors are read without being issued. -/
theorem syncCursor_codec (sequence : ℕ) (cursor : String) :
    (encodeSyncCursor sequence = .ok cursor → decodeSyncCursor (some cursor) = .ok sequence) ∧
      (cursor ≠ "" → (WrittenAsRead cursor ↔ ¬ AliasedCursor cursor)) := by
  refine ⟨decodeSyncCursor_encode, fun hne ↦ ⟨fun hwritten haliased ↦ ?_, ?_⟩⟩
  · exact haliased.not_writtenAsRead hwritten
  · intro hplain sequence hread
    obtain ⟨encoded, payload, hcursor, hpayload, hlength, rfl⟩ := decodeSyncCursor_eq_ok hne hread
    refine (encodeSyncCursor_eq_iff hcursor hpayload hlength).mpr ?_
    obtain ⟨digits, heleven, hdigit, rfl | rfl⟩ := eleven_digits hpayload hlength
    · refine ⟨Base64.pad_notMem hdigit, fun hplus ↦ ?_, fun hslash ↦ ?_, ?_⟩
      · exact hplain ⟨encoded, heleven, hdigit, .inr ⟨hcursor, .inl hplus⟩⟩
      · exact hplain ⟨encoded, heleven, hdigit, .inr ⟨hcursor, .inr (.inl hslash)⟩⟩
      · by_contra hspare
        exact hplain ⟨encoded, heleven, hdigit, .inr ⟨hcursor, .inr (.inr hspare)⟩⟩
    · exact absurd ⟨digits, heleven, hdigit, .inl hcursor⟩ hplain

/-- The cursor of zero, and one for zero with a spare bit set. -/
theorem syncCursor_codec_zero : decodeSyncCursor (some "v1.AAAAAAAAAAA") = .ok 0 ∧
    (WrittenAsRead "v1.AAAAAAAAAAB" ↔ ¬ AliasedCursor "v1.AAAAAAAAAAB") :=
  ⟨(syncCursor_codec 0 "v1.AAAAAAAAAAA").1 (by decide +kernel),
    (syncCursor_codec 0 "v1.AAAAAAAAAAB").2 (by decide)⟩

/-- A spare bit makes a second cursor for zero. -/
theorem spareBit_accepted : ¬ ∀ cursor : String, cursor ≠ "" → WrittenAsRead cursor := by
  intro h
  have hwritten := h "v1.AAAAAAAAAAB" (by decide) 0 (by decide +kernel)
  exact absurd hwritten (by decide +kernel)

end Server

end SkillHive
