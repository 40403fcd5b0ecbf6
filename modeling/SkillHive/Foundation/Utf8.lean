import Mathlib.Tactic.Common

/-!
# Text as bytes

The bytes of a text are those of its characters, one after the other. A text may be split before
every byte that begins a character, so an ASCII character stands wherever its byte stands.
-/

namespace SkillHive.Foundation.Utf8

/-- The bytes of a text. -/
def encode (text : String) : List UInt8 := text.toUTF8.data.toList

/-- The text that the bytes are, unless they are none. -/
def decode (bytes : List UInt8) : Option String := String.fromUTF8? ⟨bytes.toArray⟩

theorem data_toByteArray (bytes : List UInt8) : bytes.toByteArray.data.toList = bytes :=
  List.toList_data_toByteArray

theorem encode_toByteArray (text : String) :
    (⟨(encode text).toArray⟩ : ByteArray) = text.toUTF8 := by
  unfold encode
  rw [Array.toArray_toList]

theorem encode_ofList (chars : List Char) :
    encode (String.ofList chars) = chars.flatMap String.utf8EncodeChar := by
  unfold encode
  rw [String.toUTF8_eq_toByteArray, String.toByteArray_ofList, List.utf8Encode, data_toByteArray]

theorem encode_inj {text text' : String} (h : encode text = encode text') : text = text' := by
  have hbytes : text.toUTF8 = text'.toUTF8 := by
    rw [← encode_toByteArray, h, encode_toByteArray]
  exact String.toByteArray_inj.mp hbytes

@[simp]
theorem encode_append (text text' : String) :
    encode (text ++ text') = encode text ++ encode text' := by
  rw [← String.ofList_toList (s := text), ← String.ofList_toList (s := text'),
    ← String.ofList_append, encode_ofList, encode_ofList, encode_ofList, List.flatMap_append]

theorem encode_eq_nil {text : String} : encode text = [] ↔ text = "" := by
  constructor
  · intro h
    exact encode_inj h
  · rintro rfl
    rfl

theorem decode_eq_some {bytes : List UInt8} {text : String} :
    decode bytes = some text ↔ bytes = encode text := by
  unfold decode String.fromUTF8?
  constructor
  · intro h
    split at h
    · cases h
      unfold encode
      rfl
    · cases h
  · rintro rfl
    have hvalid : (⟨(encode text).toArray⟩ : ByteArray).IsValidUTF8 := by
      rw [encode_toByteArray]
      exact text.isValidUTF8
    rw [dif_pos hvalid, Option.some.injEq]
    exact String.toByteArray_inj.mp (encode_toByteArray text)

@[simp]
theorem decode_encode (text : String) : decode (encode text) = some text := decode_eq_some.mpr rfl

/-! ## Splitting -/

/-- In the bytes of a character only the first begins a character. -/
theorem eq_nil_of_utf8EncodeChar {c : Char} {front back : List UInt8} {byte : UInt8}
    (h : String.utf8EncodeChar c = front ++ byte :: back) (hfirst : byte.IsUTF8FirstByte) :
    front = [] := by
  have hlength : front.length < (String.utf8EncodeChar c).length := by
    rw [h, List.length_append, List.length_cons]
    omega
  have hget : (String.utf8EncodeChar c)[front.length] = byte := by
    simp [h]
  rw [← hget] at hfirst
  exact List.length_eq_zero_iff.mp (UInt8.isUTF8FirstByte_getElem_utf8EncodeChar.mp hfirst)

theorem split_chars {chars : List Char} {front back : List UInt8} {byte : UInt8}
    (h : chars.flatMap String.utf8EncodeChar = front ++ byte :: back)
    (hfirst : byte.IsUTF8FirstByte) :
    ∃ chars₁ chars₂, chars = chars₁ ++ chars₂ ∧ front = chars₁.flatMap String.utf8EncodeChar ∧
      byte :: back = chars₂.flatMap String.utf8EncodeChar := by
  induction chars generalizing front with
  | nil => simp at h
  | cons c chars ih =>
    rw [List.flatMap_cons, List.append_eq_append_iff] at h
    rcases h with ⟨more, hfront, hrest⟩ | ⟨more, hchar, hback⟩
    · obtain ⟨chars₁, chars₂, rfl, rfl, hback⟩ := ih hrest
      exact ⟨c :: chars₁, chars₂, rfl, hfront, hback⟩
    · cases more with
      | nil =>
        obtain ⟨chars₁, chars₂, rfl, hnil, hback'⟩ := ih (show _ = [] ++ _ from hback.symm)
        refine ⟨c :: chars₁, chars₂, rfl, ?_, hback'⟩
        rw [List.flatMap_cons, ← hnil, hchar, List.append_nil, List.append_nil]
      | cons first more =>
        -- The split would stand inside the character.
        obtain ⟨rfl, rfl⟩ := List.cons_eq_cons.mp hback
        rw [eq_nil_of_utf8EncodeChar hchar hfirst]
        refine ⟨[], c :: chars, rfl, rfl, ?_⟩
        rw [List.flatMap_cons, hchar, eq_nil_of_utf8EncodeChar hchar hfirst]
        rfl

/-- Bytes of a text split before a byte that begins a character are the bytes of two texts. -/
theorem split {text : String} {front back : List UInt8} {byte : UInt8}
    (h : encode text = front ++ byte :: back) (hfirst : byte.IsUTF8FirstByte) :
    ∃ text₁ text₂, text = text₁ ++ text₂ ∧ front = encode text₁ ∧ byte :: back = encode text₂ := by
  rw [← String.ofList_toList (s := text), encode_ofList] at h
  obtain ⟨chars₁, chars₂, htext, hfront, hback⟩ := split_chars h hfirst
  refine ⟨String.ofList chars₁, String.ofList chars₂, ?_, ?_, ?_⟩
  · rw [← String.ofList_append, ← htext, String.ofList_toList]
  · rw [encode_ofList, hfront]
  · rw [encode_ofList, hback]

/-- A text whose bytes begin another text's begins that text. -/
theorem prefix_of_encode {text text' : String} {back : List UInt8}
    (h : encode text' = encode text ++ back) : text.toList <+: text'.toList := by
  refine List.isPrefix_of_utf8Encode_append_eq_utf8Encode ⟨back.toArray⟩ ?_
  rw [String.utf8Encode_toList, String.utf8Encode_toList]
  apply ByteArray.ext
  apply Array.toList_inj.mp
  rw [ByteArray.data_append, Array.toList_append]
  exact h.symm

/-- The byte of an ASCII character stands only for that character. -/
theorem mem_of_byte_mem {text : String} {c : Char} {byte : UInt8}
    (hc : String.utf8EncodeChar c = [byte]) (hbyte : byte ∈ encode text) : c ∈ text.toList := by
  have hfirst : byte.IsUTF8FirstByte := by
    have hzero := UInt8.isUTF8FirstByte_getElem_zero_utf8EncodeChar (c := c)
    simpa [hc] using hzero
  obtain ⟨front, back, h⟩ := List.mem_iff_append.mp hbyte
  obtain ⟨text₁, text₂, rfl, -, hback⟩ := split h hfirst
  have hsingle : encode text₂ = encode (String.ofList [c]) ++ back := by
    rw [← hback, encode_ofList, List.flatMap_cons, hc]
    rfl
  obtain ⟨rest, hrest⟩ := prefix_of_encode hsingle
  rw [String.toList_append, List.mem_append]
  right
  rw [← hrest, String.toList_ofList]
  exact List.mem_cons_self

end SkillHive.Foundation.Utf8
