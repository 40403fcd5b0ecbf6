import Mathlib.Data.List.Basic
import Mathlib.Data.List.GetD
import Mathlib.Data.List.Induction
import Mathlib.Tactic.Common
import Mathlib.Tactic.Linarith

/-!
# Big-endian bytes and URL-safe Base64

Bytes are natural numbers below 256. The encoder writes the alphabet with `-` and `_` and
leaves the padding out; the decoder wants it and reads `+` and `/` as well, as a decoder does
that only translates its alternative characters. What is encoded is decoded again, and of
the texts that decode, the canonical ones are those that their bytes are written as.
-/

namespace SkillHive.Foundation

/-! ## Big-endian bytes -/

/-- The lowest `k` bytes of a number, the most significant one first. -/
def bigEndian : ℕ → ℕ → List ℕ
  | 0, _ => []
  | k + 1, n => bigEndian k (n / 256) ++ [n % 256]

/-- The number that the bytes denote. -/
def ofBigEndian (bytes : List ℕ) : ℕ := bytes.foldl (fun n byte ↦ 256 * n + byte) 0

theorem length_bigEndian (k n : ℕ) : (bigEndian k n).length = k := by
  induction k generalizing n with
  | zero => rfl
  | succ k ih => rw [bigEndian, List.length_append, ih, List.length_singleton]

theorem lt_of_mem_bigEndian {k n byte : ℕ} (h : byte ∈ bigEndian k n) : byte < 256 := by
  induction k generalizing n with
  | zero => cases h
  | succ k ih =>
    rcases List.mem_append.mp h with hmem | hlast
    · exact ih hmem
    · rw [List.mem_singleton.mp hlast]
      exact Nat.mod_lt n (by decide)

theorem ofBigEndian_bigEndian {k n : ℕ} (h : n < 256 ^ k) : ofBigEndian (bigEndian k n) = n := by
  induction k generalizing n with
  | zero =>
    rw [pow_zero, Nat.lt_one_iff] at h
    rw [h]
    rfl
  | succ k ih =>
    have hdiv : n / 256 < 256 ^ k := by
      apply Nat.div_lt_of_lt_mul
      rw [← pow_succ']
      exact h
    calc ofBigEndian (bigEndian (k + 1) n)
        = 256 * ofBigEndian (bigEndian k (n / 256)) + n % 256 := by
          simp only [ofBigEndian, bigEndian, List.foldl_append, List.foldl_cons, List.foldl_nil]
      _ = 256 * (n / 256) + n % 256 := by rw [ih hdiv]
      _ = n := Nat.div_add_mod n 256

theorem bigEndian_ofBigEndian {bytes : List ℕ} (h : ∀ byte ∈ bytes, byte < 256) :
    bigEndian bytes.length (ofBigEndian bytes) = bytes := by
  induction bytes using List.reverseRecOn with
  | nil => rfl
  | append_singleton bytes last ih =>
    have hlast : last < 256 := h last (by simp)
    have hbytes : ∀ byte ∈ bytes, byte < 256 := fun byte hbyte ↦ h byte (by simp [hbyte])
    have hvalue : ofBigEndian (bytes ++ [last]) = 256 * ofBigEndian bytes + last := by
      simp only [ofBigEndian, List.foldl_append, List.foldl_cons, List.foldl_nil]
    have hdiv : (256 * ofBigEndian bytes + last) / 256 = ofBigEndian bytes := by omega
    have hmod : (256 * ofBigEndian bytes + last) % 256 = last := by omega
    rw [List.length_append, List.length_singleton, bigEndian, hvalue, hdiv, hmod, ih hbytes]

theorem ofBigEndian_lt {bytes : List ℕ} (h : ∀ byte ∈ bytes, byte < 256) :
    ofBigEndian bytes < 256 ^ bytes.length := by
  induction bytes using List.reverseRecOn with
  | nil => exact Nat.one_pos
  | append_singleton bytes last ih =>
    have hlast : last < 256 := h last (by simp)
    have hbytes := ih fun byte hbyte ↦ h byte (by simp [hbyte])
    have hvalue : ofBigEndian (bytes ++ [last]) = 256 * ofBigEndian bytes + last := by
      simp only [ofBigEndian, List.foldl_append, List.foldl_cons, List.foldl_nil]
    rw [hvalue, List.length_append, List.length_singleton, pow_succ]
    omega

/-! ## The alphabet -/

namespace Base64

def alphabet : List Char :=
  "ABCDEFGHIJKLMNOPQRSTUVWXYZabcdefghijklmnopqrstuvwxyz0123456789-_".toList

/-- The character of a sextet. -/
def digitChar (sextet : ℕ) : Char := alphabet.getD sextet 'A'

/-- The sextet of a character. -/
def digitValue? (c : Char) : Option ℕ :=
  if c = '+' then some 62 else if c = '/' then some 63 else alphabet.idxOf? c

theorem digitValue?_digitChar {sextet : ℕ} (h : sextet < 64) :
    digitValue? (digitChar sextet) = some sextet := by
  revert sextet
  decide +kernel

theorem digitChar_ne_pad {sextet : ℕ} (h : sextet < 64) : digitChar sextet ≠ '=' := by
  revert sextet
  decide +kernel

/-- A character that is none of the alternative ones is the one that its sextet is written as. -/
theorem digitValue?_eq_some {c : Char} {sextet : ℕ} (h : digitValue? c = some sextet) :
    sextet < 64 ∧ (c ≠ '+' → c ≠ '/' → digitChar sextet = c) := by
  unfold digitValue? at h
  split at h
  · next hplus =>
    cases h
    exact ⟨by decide, fun hne ↦ absurd hplus hne⟩
  · split at h
    · next hslash =>
      cases h
      exact ⟨by decide, fun _ hne ↦ absurd hslash hne⟩
    · obtain ⟨hlt, hget, -⟩ := List.idxOf?_eq_some_iff.mp h
      refine ⟨hlt, fun _ _ ↦ ?_⟩
      rw [digitChar, List.getD_eq_getElem _ _ hlt]
      exact hget

/-- Nothing is written as an alternative character. -/
theorem digitChar_plain {sextet : ℕ} (h : sextet < 64) :
    digitChar sextet ≠ '+' ∧ digitChar sextet ≠ '/' := by
  revert sextet
  decide +kernel

/-- A character of either alphabet. -/
def IsDigit (c : Char) : Prop := (digitValue? c).isSome

instance (c : Char) : Decidable (IsDigit c) := inferInstanceAs (Decidable (_ = true))

/-! ## The codec -/

/-- `urlsafe_b64encode(payload)` without its padding. -/
def encode : List ℕ → List Char
  | [] => []
  | [a] => [digitChar (a / 4), digitChar (a % 4 * 16)]
  | [a, b] => [digitChar (a / 4), digitChar (a % 4 * 16 + b / 16), digitChar (b % 16 * 4)]
  | a :: b :: c :: rest =>
    digitChar (a / 4) :: digitChar (a % 4 * 16 + b / 16) :: digitChar (b % 16 * 4 + c / 64) ::
      digitChar (c % 64) :: encode rest

/-- The text with the padding that its length asks for. -/
def withPadding (text : List Char) : List Char :=
  text ++ List.replicate ((4 - text.length % 4) % 4) '='

/-- The bytes of a padded text; padding ends it. -/
def decode : List Char → Option (List ℕ)
  | [] => some []
  | c₀ :: c₁ :: c₂ :: c₃ :: rest => do
    let s₀ ← digitValue? c₀
    let s₁ ← digitValue? c₁
    if c₃ = '=' then
      if rest ≠ [] then none
      else if c₂ = '=' then some [s₀ * 4 + s₁ / 16]
      else
        let s₂ ← digitValue? c₂
        some [s₀ * 4 + s₁ / 16, s₁ % 16 * 16 + s₂ / 4]
    else
      let s₂ ← digitValue? c₂
      let s₃ ← digitValue? c₃
      let bytes ← decode rest
      some ((s₀ * 4 + s₁ / 16) :: (s₁ % 16 * 16 + s₂ / 4) :: (s₂ % 4 * 64 + s₃) :: bytes)
  | _ => none

theorem withPadding_quad (c₀ c₁ c₂ c₃ : Char) (rest : List Char) :
    withPadding (c₀ :: c₁ :: c₂ :: c₃ :: rest) = c₀ :: c₁ :: c₂ :: c₃ :: withPadding rest := by
  have hlength : (c₀ :: c₁ :: c₂ :: c₃ :: rest).length % 4 = rest.length % 4 := by
    simp only [List.length_cons]
    omega
  rw [withPadding, hlength]
  rfl

/-- A full quad of encoded characters decodes to three bytes. -/
theorem decode_quad {a b c : ℕ} (ha : a < 256) (hb : b < 256) (hc : c < 256)
    (text : List Char) :
    decode (digitChar (a / 4) :: digitChar (a % 4 * 16 + b / 16) ::
        digitChar (b % 16 * 4 + c / 64) :: digitChar (c % 64) :: text) =
      (decode text).map fun bytes ↦ a :: b :: c :: bytes := by
  have hpad : digitChar (c % 64) ≠ '=' := digitChar_ne_pad (by omega)
  have h₀ : digitValue? (digitChar (a / 4)) = some (a / 4) := digitValue?_digitChar (by omega)
  have h₁ : digitValue? (digitChar (a % 4 * 16 + b / 16)) = some (a % 4 * 16 + b / 16) :=
    digitValue?_digitChar (by omega)
  have h₂ : digitValue? (digitChar (b % 16 * 4 + c / 64)) = some (b % 16 * 4 + c / 64) :=
    digitValue?_digitChar (by omega)
  have h₃ : digitValue? (digitChar (c % 64)) = some (c % 64) := digitValue?_digitChar (by omega)
  have hfirst : a / 4 * 4 + (a % 4 * 16 + b / 16) / 16 = a := by omega
  have hsecond : (a % 4 * 16 + b / 16) % 16 * 16 + (b % 16 * 4 + c / 64) / 4 = b := by omega
  have hthird : (b % 16 * 4 + c / 64) % 4 * 64 + c % 64 = c := by omega
  simp only [decode, h₀, h₁, h₂, h₃, hpad, if_false, Option.bind_eq_bind, Option.bind_some, hfirst,
    hsecond, hthird]
  cases decode text <;> rfl

/-- The round trip. -/
theorem decode_encode {bytes : List ℕ} (h : ∀ byte ∈ bytes, byte < 256) :
    decode (withPadding (encode bytes)) = some bytes := by
  induction bytes using encode.induct with
  | case1 => rfl
  | case2 a =>
    have ha : a < 256 := h a List.mem_cons_self
    have h₀ : digitValue? (digitChar (a / 4)) = some (a / 4) := digitValue?_digitChar (by omega)
    have h₁ : digitValue? (digitChar (a % 4 * 16)) = some (a % 4 * 16) :=
      digitValue?_digitChar (by omega)
    have hfirst : a / 4 * 4 + a % 4 * 16 / 16 = a := by omega
    simp only [encode, withPadding, List.length_cons, List.length_nil, List.replicate,
      List.cons_append, List.nil_append, decode, h₀, h₁, Option.bind_eq_bind, Option.bind_some,
      hfirst, if_true, ne_eq, not_true_eq_false, if_false]
  | case3 a b =>
    have ha : a < 256 := h a List.mem_cons_self
    have hb : b < 256 := h b (List.mem_cons_of_mem a List.mem_cons_self)
    have h₀ : digitValue? (digitChar (a / 4)) = some (a / 4) := digitValue?_digitChar (by omega)
    have h₁ : digitValue? (digitChar (a % 4 * 16 + b / 16)) = some (a % 4 * 16 + b / 16) :=
      digitValue?_digitChar (by omega)
    have h₂ : digitValue? (digitChar (b % 16 * 4)) = some (b % 16 * 4) :=
      digitValue?_digitChar (by omega)
    have hpad : digitChar (b % 16 * 4) ≠ '=' := digitChar_ne_pad (by omega)
    have hfirst : a / 4 * 4 + (a % 4 * 16 + b / 16) / 16 = a := by omega
    have hsecond : (a % 4 * 16 + b / 16) % 16 * 16 + b % 16 * 4 / 4 = b := by omega
    simp only [encode, withPadding, List.length_cons, List.length_nil, List.replicate,
      List.cons_append, List.nil_append, decode, h₀, h₁, h₂, hpad, Option.bind_eq_bind,
      Option.bind_some, hfirst, hsecond, if_true, ne_eq, not_true_eq_false, if_false]
  | case4 a b c rest ih =>
    have hrest : ∀ byte ∈ rest, byte < 256 := by
      intro byte hbyte
      apply h
      simp [hbyte]
    rw [encode, withPadding_quad, decode_quad (h a (by simp)) (h b (by simp)) (h c (by simp)),
      ih hrest]
    rfl

theorem length_encode (bytes : List ℕ) : (encode bytes).length = (4 * bytes.length + 2) / 3 := by
  induction bytes using encode.induct with
  | case1 => rfl
  | case2 a => simp [encode]
  | case3 a b => simp [encode]
  | case4 a b c rest ih =>
    simp only [encode, List.length_cons, ih]
    omega

/-! ## Canonical texts -/

/-- The bits of the last character that no byte takes are zero. -/
def SpareBitsClear : List Char → Prop
  | [_, c₁] => ∀ sextet ∈ digitValue? c₁, sextet % 16 = 0
  | [_, _, c₂] => ∀ sextet ∈ digitValue? c₂, sextet % 4 = 0
  | _ :: _ :: _ :: _ :: rest => SpareBitsClear rest
  | _ => True

/-- The text as the encoder writes it. -/
structure Canonical (text : List Char) : Prop where
  no_pad : '=' ∉ text
  no_plus : '+' ∉ text
  no_slash : '/' ∉ text
  spare : SpareBitsClear text

theorem not_isDigit_pad : ¬ IsDigit '=' := by decide

theorem pad_notMem {digits : List Char} (h : ∀ c ∈ digits, IsDigit c) : '=' ∉ digits :=
  fun hmem ↦ not_isDigit_pad (h '=' hmem)

theorem digitChar_canonical {sextet : ℕ} (h : sextet < 64) :
    digitChar sextet ≠ '=' ∧ digitChar sextet ≠ '+' ∧ digitChar sextet ≠ '/' :=
  ⟨digitChar_ne_pad h, digitChar_plain h⟩

/-- Every text that the encoder writes is canonical. -/
theorem encode_canonical {bytes : List ℕ} (h : ∀ byte ∈ bytes, byte < 256) :
    Canonical (encode bytes) := by
  have hchar : ∀ c ∈ encode bytes, ∃ sextet < 64, c = digitChar sextet := by
    induction bytes using encode.induct with
    | case1 => simp [encode]
    | case2 a =>
      have ha : a < 256 := h a (by simp)
      simp only [encode, List.forall_mem_cons, List.not_mem_nil, false_imp_iff, implies_true, and_true]
      exact ⟨⟨a / 4, by omega, rfl⟩, a % 4 * 16, by omega, rfl⟩
    | case3 a b =>
      have ha : a < 256 := h a (by simp)
      have hb : b < 256 := h b (by simp)
      simp only [encode, List.forall_mem_cons, List.not_mem_nil, false_imp_iff, implies_true, and_true]
      exact ⟨⟨a / 4, by omega, rfl⟩, ⟨a % 4 * 16 + b / 16, by omega, rfl⟩, b % 16 * 4, by omega, rfl⟩
    | case4 a b c rest ih =>
      have ha : a < 256 := h a (by simp)
      have hb : b < 256 := h b (by simp)
      have hc : c < 256 := h c (by simp)
      simp only [encode, List.forall_mem_cons]
      refine ⟨⟨a / 4, by omega, rfl⟩, ⟨a % 4 * 16 + b / 16, by omega, rfl⟩,
        ⟨b % 16 * 4 + c / 64, by omega, rfl⟩, ⟨c % 64, by omega, rfl⟩, ih ?_⟩
      intro byte hbyte
      exact h byte (by simp [hbyte])
  refine ⟨fun hmem ↦ ?_, fun hmem ↦ ?_, fun hmem ↦ ?_, ?_⟩
  · obtain ⟨sextet, hlt, heq⟩ := hchar _ hmem
    exact (digitChar_canonical hlt).1 heq.symm
  · obtain ⟨sextet, hlt, heq⟩ := hchar _ hmem
    exact (digitChar_canonical hlt).2.1 heq.symm
  · obtain ⟨sextet, hlt, heq⟩ := hchar _ hmem
    exact (digitChar_canonical hlt).2.2 heq.symm
  · clear hchar
    induction bytes using encode.induct with
    | case1 => trivial
    | case2 a =>
      have ha : a < 256 := h a (by simp)
      rintro sextet hsextet
      rw [digitValue?_digitChar (by omega)] at hsextet
      cases hsextet
      omega
    | case3 a b =>
      have hb : b < 256 := h b (by simp)
      rintro sextet hsextet
      rw [digitValue?_digitChar (by omega)] at hsextet
      cases hsextet
      omega
    | case4 a b c rest ih => exact ih fun byte hbyte ↦ h byte (by simp [hbyte])

/-- What a text of digits decodes to. -/
structure Decodes (digits : List Char) (bytes : List ℕ) : Prop where
  digit : ∀ c ∈ digits, IsDigit c
  whole : digits.length % 4 ≠ 1
  length : bytes.length = 3 * digits.length / 4
  byte : ∀ byte ∈ bytes, byte < 256
  encode : '+' ∉ digits → '/' ∉ digits → SpareBitsClear digits → encode bytes = digits

/-- What decodes is digits of either alphabet and their padding. -/
theorem exists_decodes : ∀ {padded : List Char} {bytes : List ℕ}, decode padded = some bytes →
    ∃ digits, padded = withPadding digits ∧ Decodes digits bytes
  | [], bytes, h => by
    cases h
    exact ⟨[], rfl, by simp, by decide, rfl, by simp, fun _ _ _ ↦ rfl⟩
  | [_], _, h => nomatch h
  | [_, _], _, h => nomatch h
  | [_, _, _], _, h => nomatch h
  | c₀ :: c₁ :: c₂ :: c₃ :: rest, bytes, h => by
    simp only [decode, Option.bind_eq_bind, Option.bind_eq_some_iff] at h
    obtain ⟨s₀, h₀, s₁, h₁, h⟩ := h
    obtain ⟨hs₀, hc₀⟩ := digitValue?_eq_some h₀
    obtain ⟨hs₁, hc₁⟩ := digitValue?_eq_some h₁
    have hd₀ : IsDigit c₀ := by rw [IsDigit, h₀]; rfl
    have hd₁ : IsDigit c₁ := by rw [IsDigit, h₁]; rfl
    split at h
    · next hpad =>
      subst hpad
      split at h
      · cases h
      · next hrest =>
        rw [not_not] at hrest
        subst hrest
        split at h
        · next hpad =>
          subst hpad
          cases h
          refine ⟨[c₀, c₁], rfl, by simp [hd₀, hd₁], by simp, by simp, ?_, ?_⟩
          · simp only [List.mem_singleton, forall_eq]
            omega
          · intro hplus hslash hspare
            simp only [List.mem_cons, List.not_mem_nil, or_false, not_or] at hplus hslash
            have hzero : s₁ % 16 = 0 := hspare s₁ h₁
            have hfirst : (s₀ * 4 + s₁ / 16) / 4 = s₀ := by omega
            have hsecond : (s₀ * 4 + s₁ / 16) % 4 * 16 = s₁ := by omega
            rw [Base64.encode, hfirst, hsecond, hc₀ (Ne.symm hplus.1) (Ne.symm hslash.1),
              hc₁ (Ne.symm hplus.2) (Ne.symm hslash.2)]
        · obtain ⟨s₂, h₂, h⟩ := Option.bind_eq_some_iff.mp h
          obtain ⟨hs₂, hc₂⟩ := digitValue?_eq_some h₂
          have hd₂ : IsDigit c₂ := by rw [IsDigit, h₂]; rfl
          cases h
          refine ⟨[c₀, c₁, c₂], rfl, by simp [hd₀, hd₁, hd₂], by simp, by simp, ?_, ?_⟩
          · simp only [List.forall_mem_cons, List.not_mem_nil, false_imp_iff, implies_true, and_true]
            omega
          · intro hplus hslash hspare
            simp only [List.mem_cons, List.not_mem_nil, or_false, not_or] at hplus hslash
            have hzero : s₂ % 4 = 0 := hspare s₂ h₂
            have hfirst : (s₀ * 4 + s₁ / 16) / 4 = s₀ := by omega
            have hsecond : (s₀ * 4 + s₁ / 16) % 4 * 16 + (s₁ % 16 * 16 + s₂ / 4) / 16 = s₁ := by omega
            have hthird : (s₁ % 16 * 16 + s₂ / 4) % 16 * 4 = s₂ := by omega
            rw [Base64.encode, hfirst, hsecond, hthird, hc₀ (Ne.symm hplus.1) (Ne.symm hslash.1),
              hc₁ (Ne.symm hplus.2.1) (Ne.symm hslash.2.1),
              hc₂ (Ne.symm hplus.2.2) (Ne.symm hslash.2.2)]
    · simp only [Option.bind_eq_some_iff] at h
      obtain ⟨s₂, h₂, s₃, h₃, more, hmore, h⟩ := h
      obtain ⟨digits, rfl, hdecodes⟩ := exists_decodes hmore
      obtain ⟨hs₂, hc₂⟩ := digitValue?_eq_some h₂
      obtain ⟨hs₃, hc₃⟩ := digitValue?_eq_some h₃
      have hd₂ : IsDigit c₂ := by rw [IsDigit, h₂]; rfl
      have hd₃ : IsDigit c₃ := by rw [IsDigit, h₃]; rfl
      cases h
      refine ⟨c₀ :: c₁ :: c₂ :: c₃ :: digits, (withPadding_quad ..).symm, ?_, ?_, ?_, ?_, ?_⟩
      · simp only [List.forall_mem_cons]
        exact ⟨hd₀, hd₁, hd₂, hd₃, hdecodes.digit⟩
      · have hwhole := hdecodes.whole
        simp only [List.length_cons]
        omega
      · have hlength := hdecodes.length
        simp only [List.length_cons]
        omega
      · simp only [List.forall_mem_cons]
        exact ⟨by omega, by omega, by omega, hdecodes.byte⟩
      · intro hplus hslash hspare
        simp only [List.mem_cons, not_or] at hplus hslash
        have hfirst : (s₀ * 4 + s₁ / 16) / 4 = s₀ := by omega
        have hsecond : (s₀ * 4 + s₁ / 16) % 4 * 16 + (s₁ % 16 * 16 + s₂ / 4) / 16 = s₁ := by omega
        have hthird : (s₁ % 16 * 16 + s₂ / 4) % 16 * 4 + (s₂ % 4 * 64 + s₃) / 64 = s₂ := by omega
        have hfourth : (s₂ % 4 * 64 + s₃) % 64 = s₃ := by omega
        rw [Base64.encode, hfirst, hsecond, hthird, hfourth,
          hc₀ (Ne.symm hplus.1) (Ne.symm hslash.1), hc₁ (Ne.symm hplus.2.1) (Ne.symm hslash.2.1),
          hc₂ (Ne.symm hplus.2.2.1) (Ne.symm hslash.2.2.1),
          hc₃ (Ne.symm hplus.2.2.2.1) (Ne.symm hslash.2.2.2.1),
          hdecodes.encode hplus.2.2.2.2 hslash.2.2.2.2 hspare]

/-- Digits of either alphabet decode, unless one is left over. -/
theorem exists_decode : ∀ {digits : List Char}, (∀ c ∈ digits, IsDigit c) →
    digits.length % 4 ≠ 1 → ∃ bytes, decode (withPadding digits) = some bytes
  | [], _, _ => ⟨[], rfl⟩
  | [_], _, hwhole => absurd rfl hwhole
  | [c₀, c₁], hdigit, _ => by
    simp only [List.forall_mem_cons, List.not_mem_nil, false_imp_iff, implies_true, and_true] at hdigit
    obtain ⟨s₀, h₀⟩ := Option.isSome_iff_exists.mp hdigit.1
    obtain ⟨s₁, h₁⟩ := Option.isSome_iff_exists.mp hdigit.2
    refine ⟨[s₀ * 4 + s₁ / 16], ?_⟩
    simp [withPadding, decode, h₀, h₁]
  | [c₀, c₁, c₂], hdigit, _ => by
    simp only [List.forall_mem_cons, List.not_mem_nil, false_imp_iff, implies_true, and_true] at hdigit
    obtain ⟨s₀, h₀⟩ := Option.isSome_iff_exists.mp hdigit.1
    obtain ⟨s₁, h₁⟩ := Option.isSome_iff_exists.mp hdigit.2.1
    obtain ⟨s₂, h₂⟩ := Option.isSome_iff_exists.mp hdigit.2.2
    have hpad : c₂ ≠ '=' := by
      rintro rfl
      exact not_isDigit_pad hdigit.2.2
    refine ⟨[s₀ * 4 + s₁ / 16, s₁ % 16 * 16 + s₂ / 4], ?_⟩
    simp [withPadding, decode, h₀, h₁, h₂, hpad]
  | c₀ :: c₁ :: c₂ :: c₃ :: rest, hdigit, hwhole => by
    simp only [List.forall_mem_cons] at hdigit
    obtain ⟨hd₀, hd₁, hd₂, hd₃, hrest⟩ := hdigit
    obtain ⟨s₀, h₀⟩ := Option.isSome_iff_exists.mp hd₀
    obtain ⟨s₁, h₁⟩ := Option.isSome_iff_exists.mp hd₁
    obtain ⟨s₂, h₂⟩ := Option.isSome_iff_exists.mp hd₂
    obtain ⟨s₃, h₃⟩ := Option.isSome_iff_exists.mp hd₃
    have hpad : c₃ ≠ '=' := by
      rintro rfl
      exact not_isDigit_pad hd₃
    have hlength : rest.length % 4 ≠ 1 := by
      simp only [List.length_cons] at hwhole
      omega
    obtain ⟨bytes, hbytes⟩ := exists_decode hrest hlength
    rw [withPadding_quad]
    refine ⟨(s₀ * 4 + s₁ / 16) :: (s₁ % 16 * 16 + s₂ / 4) :: (s₂ % 4 * 64 + s₃) :: bytes, ?_⟩
    simp [decode, h₀, h₁, h₂, h₃, hpad, hbytes]

theorem filter_withPadding (text : List Char) :
    (withPadding text).filter (· ≠ '=') = text.filter (· ≠ '=') := by
  have hpads : (List.replicate ((4 - text.length % 4) % 4) '=').filter (· ≠ '=') = [] := by
    refine List.filter_eq_nil_iff.mpr fun c hc ↦ ?_
    simp [List.eq_of_mem_replicate hc]
  rw [withPadding, List.filter_append, hpads, List.append_nil]

theorem filter_of_pad_notMem {text : List Char} (h : '=' ∉ text) : text.filter (· ≠ '=') = text := by
  refine List.filter_eq_self.mpr fun c hc ↦ ?_
  have hne : c ≠ '=' := fun heq ↦ h (heq ▸ hc)
  simpa using hne

/-- Texts without padding of their own are told apart by what they are padded to. -/
theorem withPadding_inj {text text' : List Char} (h : '=' ∉ text) (h' : '=' ∉ text')
    (heq : withPadding text = withPadding text') : text = text' := by
  rw [← filter_of_pad_notMem h, ← filter_of_pad_notMem h', ← filter_withPadding, heq,
    filter_withPadding]

/-- Just the canonical texts are what their bytes are written as. -/
theorem encode_eq_iff_canonical {text : List Char} {bytes : List ℕ}
    (h : decode (withPadding text) = some bytes) : encode bytes = text ↔ Canonical text := by
  obtain ⟨digits, hpadded, hdecodes⟩ := exists_decodes h
  constructor
  · rintro rfl
    exact encode_canonical hdecodes.byte
  · intro hcanonical
    obtain rfl : text = digits :=
      withPadding_inj hcanonical.no_pad (pad_notMem hdecodes.digit) hpadded
    exact hdecodes.encode hcanonical.no_plus hcanonical.no_slash hcanonical.spare

end Base64

end SkillHive.Foundation
