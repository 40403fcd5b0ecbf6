import Mathlib.Data.List.Basic
import Mathlib.Data.List.DropRight
import Mathlib.Tactic.Common

/-!
# White space, integers and JSON values

Trimming as the standard libraries of the two languages define it: both remove the
Unicode `White_Space` characters, and Python also the four ASCII separators. Python's
`int` reads decimal digits of every script. JSON values are kept as their parsers deliver
them, with the integers apart from other numbers.
-/

namespace SkillHive.Foundation

-- Libraries add a second instance, so the one that is meant is named.
instance decidableEqBytes : DecidableEq ByteArray := ByteArray.instDecidableEq

/-- The Unicode `White_Space` property, `char::is_whitespace`. -/
def isWhiteSpace (c : Char) : Bool :=
  (9 ≤ c.toNat && c.toNat ≤ 13) || (0x2000 ≤ c.toNat && c.toNat ≤ 0x200A) ||
    [0x20, 0x85, 0xA0, 0x1680, 0x2028, 0x2029, 0x202F, 0x205F, 0x3000].contains c.toNat

/-- `str.isspace` for one character: `White_Space` and the separators U+001C to U+001F. -/
def isPythonSpace (c : Char) : Bool :=
  isWhiteSpace c || (0x1C ≤ c.toNat && c.toNat ≤ 0x1F)

/-- Remove the characters that satisfy `space` from both ends. -/
def trimBoth (space : Char → Bool) (s : String) : String :=
  String.ofList (((s.toList.dropWhile space).reverse.dropWhile space).reverse)

/-- `str::trim` -/
def trim (s : String) : String := trimBoth isWhiteSpace s

/-- `str.strip()` -/
def strip (s : String) : String := trimBoth isPythonSpace s

theorem mem_dropWhile_of_not {p : Char → Bool} {c : Char} (hc : p c = false) {l : List Char}
    (h : c ∈ l) : c ∈ l.dropWhile p := by
  induction l with
  | nil => cases h
  | cons x l ih =>
    rw [List.dropWhile_cons]
    split
    case isTrue hx =>
      rcases List.mem_cons.mp h with rfl | hmem
      · rw [hc] at hx
        cases hx
      · exact ih hmem
    case isFalse => exact h

/-- A text with a character that is not white space is not trimmed to nothing. -/
theorem trim_ne_empty {s : String} {c : Char} (hmem : c ∈ s.toList)
    (hc : isWhiteSpace c = false) : trim s ≠ "" := by
  have hkept : c ∈ (trim s).toList := by
    rw [trim, trimBoth, String.toList_ofList, List.mem_reverse]
    apply mem_dropWhile_of_not hc
    rw [List.mem_reverse]
    exact mem_dropWhile_of_not hc hmem
  intro htrim
  rw [htrim] at hkept
  cases hkept

theorem countP_dropWhile (p : Char → Bool) (l : List Char) :
    (l.dropWhile p).countP (fun c ↦ !p c) = l.countP fun c ↦ !p c := by
  induction l with
  | nil => rfl
  | cons c l ih =>
    rw [List.dropWhile_cons]
    split
    case isTrue hc => simp [hc, ih]
    case isFalse => rfl

/-- Trimming keeps every character that is not white space. -/
theorem countP_strip (s : String) :
    (strip s).toList.countP (fun c ↦ !isPythonSpace c) =
      s.toList.countP fun c ↦ !isPythonSpace c := by
  rw [strip, trimBoth, String.toList_ofList, List.countP_reverse, countP_dropWhile,
    List.countP_reverse, countP_dropWhile]

section Trimming

variable {α : Type*} {p q : α → Bool} {as bs front back : List α}

theorem dropWhile_append_of_all (h : ∀ a ∈ front, p a) :
    (front ++ as).dropWhile p = as.dropWhile p := by
  rw [List.dropWhile_append, List.dropWhile_eq_nil_iff.mpr h]
  rfl

theorem rdropWhile_append_of_all (h : ∀ a ∈ back, p a) :
    (as ++ back).rdropWhile p = as.rdropWhile p := by
  have hback : ∀ a ∈ back.reverse, p a := fun a ha ↦ h a (List.mem_reverse.mp ha)
  rw [List.rdropWhile, List.rdropWhile, List.reverse_append, dropWhile_append_of_all hback]

theorem rdropWhile_append_of_ne (h : as.rdropWhile p ≠ []) :
    (front ++ as).rdropWhile p = front ++ as.rdropWhile p := by
  have hdrop : as.reverse.dropWhile p ≠ [] := fun hnil ↦ h (by rw [List.rdropWhile, hnil]; rfl)
  have hnonempty : (as.reverse.dropWhile p).isEmpty = false := by
    rw [Bool.eq_false_iff, ne_eq, List.isEmpty_iff]
    exact hdrop
  rw [List.rdropWhile, List.reverse_append, List.dropWhile_append, hnonempty, if_neg (by simp),
    List.reverse_append, List.reverse_reverse, List.rdropWhile]

theorem exists_append_rdropWhile (p : α → Bool) (as : List α) :
    ∃ back, as = as.rdropWhile p ++ back ∧ ∀ a ∈ back, p a :=
  ⟨as.rtakeWhile p, (List.rdropWhile_append_rtakeWhile ..).symm, fun _ ↦ List.mem_rtakeWhile_imp⟩

theorem exists_append_dropWhile (p : α → Bool) (as : List α) :
    ∃ front, as = front ++ as.dropWhile p ∧ ∀ a ∈ front, p a :=
  ⟨as.takeWhile p, List.takeWhile_append_dropWhile.symm, fun _ ↦ List.mem_takeWhile_imp⟩

/-- What is left without leading `q`s and trailing `p`s. -/
def stripped (q p : α → Bool) (as : List α) : List α := (as.rdropWhile p).dropWhile q

/-- Neither end changes it, where every `q` is a `p`. -/
theorem stripped_append (hqp : ∀ a, q a → p a) (hfront : ∀ a ∈ front, q a)
    (hback : ∀ a ∈ back, p a) : stripped q p (front ++ as ++ back) = stripped q p as := by
  unfold stripped
  rw [rdropWhile_append_of_all hback]
  by_cases hall : as.rdropWhile p = []
  · have heverything : ∀ a ∈ front ++ as, p a := by
      rw [List.forall_mem_append]
      exact ⟨fun a ha ↦ hqp a (hfront a ha), List.rdropWhile_eq_nil_iff.mp hall⟩
    rw [List.rdropWhile_eq_nil_iff.mpr heverything, hall]
  · rw [rdropWhile_append_of_ne hall, dropWhile_append_of_all hfront]

theorem stripped_eq_self (hfirst : ∀ a ∈ as.head?, q a = false)
    (hlast : ∀ a ∈ as.getLast?, p a = false) : stripped q p as = as := by
  have hright : as.rdropWhile p = as := by
    refine List.rdropWhile_eq_self_iff.mpr fun hne ↦ ?_
    rw [hlast _ (List.getLast?_eq_some_getLast hne)]
    simp
  rw [stripped, hright]
  cases as with
  | nil => rfl
  | cons a as => exact List.dropWhile_cons_of_neg (by simp [hfirst a rfl])

end Trimming

theorem toList_trim (s : String) :
    (trim s).toList = (s.toList.dropWhile isWhiteSpace).rdropWhile isWhiteSpace := by
  rw [trim, trimBoth, String.toList_ofList, List.rdropWhile]

/-- A text around its trimmed form. -/
theorem exists_append_trim (s : String) : ∃ front back, s.toList = front ++ (trim s).toList ++ back ∧
    (∀ c ∈ front, isWhiteSpace c) ∧ ∀ c ∈ back, isWhiteSpace c := by
  obtain ⟨front, hfront, hallFront⟩ := exists_append_dropWhile isWhiteSpace s.toList
  obtain ⟨back, hback, hallBack⟩ :=
    exists_append_rdropWhile isWhiteSpace (s.toList.dropWhile isWhiteSpace)
  refine ⟨front, back, ?_, hallFront, hallBack⟩
  rw [toList_trim, List.append_assoc, ← hback, ← hfront]

theorem trim_getLast {s : String} {c : Char} (h : c ∈ (trim s).toList.getLast?) :
    isWhiteSpace c = false := by
  rw [toList_trim] at h
  obtain ⟨hne, rfl⟩ := List.mem_getLast?_eq_getLast h
  exact Bool.eq_false_iff.mpr (List.rdropWhile_last_not _ _ hne)

theorem trim_eq_self {s : String} (hfirst : ∀ c ∈ s.toList.head?, isWhiteSpace c = false)
    (hlast : ∀ c ∈ s.toList.getLast?, isWhiteSpace c = false) : trim s = s := by
  apply String.toList_inj.mp
  have hleft : s.toList.dropWhile isWhiteSpace = s.toList := by
    cases hlist : s.toList with
    | nil => rfl
    | cons c cs => exact List.dropWhile_cons_of_neg (by simp [hfirst c (by rw [hlist]; rfl)])
  rw [toList_trim, hleft]
  refine List.rdropWhile_eq_self_iff.mpr fun hne ↦ ?_
  rw [hlast _ (List.getLast?_eq_some_getLast hne)]
  simp

/-! ## Integers -/

/-- The decimal zeros of Unicode; the nine digits of a script follow its zero. -/
def decimalZeros : List ℕ :=
  [0x30, 0x660, 0x6F0, 0x7C0, 0x966, 0x9E6, 0xA66, 0xAE6, 0xB66, 0xBE6, 0xC66, 0xCE6, 0xD66,
    0xDE6, 0xE50, 0xED0, 0xF20, 0x1040, 0x1090, 0x17E0, 0x1810, 0x1946, 0x19D0, 0x1A80, 0x1A90,
    0x1B50, 0x1BB0, 0x1C40, 0x1C50, 0xA620, 0xA8D0, 0xA900, 0xA9D0, 0xA9F0, 0xAA50, 0xABF0,
    0xFF10, 0x104A0, 0x10D30, 0x11066, 0x110F0, 0x11136, 0x111D0, 0x112F0, 0x11450, 0x114D0,
    0x11650, 0x116C0, 0x11730, 0x118E0, 0x11950, 0x11C50, 0x11D50, 0x11DA0, 0x11F50, 0x16A60,
    0x16AC0, 0x16B50, 0x1D7CE, 0x1D7D8, 0x1D7E2, 0x1D7EC, 0x1D7F6, 0x1E140, 0x1E2F0, 0x1E4F0,
    0x1E950, 0x1FBF0]

/-- `unicodedata.decimal` -/
def decimalDigit (c : Char) : Option ℕ :=
  (decimalZeros.find? fun base ↦ base ≤ c.toNat ∧ c.toNat < base + 10).map fun base ↦
    c.toNat - base

/-- The digits of a number, single underscores between them allowed. `value` is what has
been read, `expectDigit` holds at the start and after an underscore. -/
def readDigits (value : ℕ) (expectDigit : Bool) : List Char → Option ℕ
  | [] => if expectDigit then none else some value
  | '_' :: rest => if expectDigit then none else readDigits value true rest
  | c :: rest => (decimalDigit c).bind fun digit ↦ readDigits (10 * value + digit) false rest

/-- `int(text)`; `none` for a `ValueError`. -/
def pythonInt (text : String) : Option Int :=
  match (strip text).toList with
  | '-' :: digits => (readDigits 0 true digits).map fun n ↦ -(n : Int)
  | '+' :: digits => (readDigits 0 true digits).map Int.ofNat
  | digits => (readDigits 0 true digits).map Int.ofNat

/-! ## JSON -/

/-- A parsed JSON value. -/
inductive Json where
  | null
  | bool (value : Bool)
  | integer (value : Int)
  | real (literal : String)
  | string (value : String)
  | array (items : List Json)
  | object (fields : List (String × Json))

namespace Json

/-- The field of an object, `None` for any other value. -/
def get (value : Json) (key : String) : Option Json :=
  match value with
  | object fields => (fields.find? fun field ↦ field.1 = key).map Prod.snd
  | _ => none

def asStr : Json → Option String
  | string value => some value
  | _ => none

end Json

end SkillHive.Foundation
