import SkillHive.Foundation.Text

/-!
# Numbers in texts

A natural number is written in decimal digits, and `int` reads back what was written. What `int`
reads from a text without a minus sign is not negative.
-/

namespace SkillHive.Foundation

/-! ## Digits -/

theorem decimalDigit_of_isDigit {c : Char} (h : c.isDigit = true) :
    decimalDigit c = some (c.toNat - '0'.toNat) := by
  have hrange : 0x30 ≤ c.toNat ∧ c.toNat < 0x30 + 10 := by
    simp only [Char.isDigit, Bool.and_eq_true, decide_eq_true_eq] at h
    obtain ⟨hlow, hhigh⟩ := h
    have hlow : 48 ≤ c.toNat := hlow
    have hhigh : c.toNat ≤ 57 := hhigh
    omega
  unfold decimalDigit decimalZeros
  rw [List.find?_cons_of_pos (by simpa using hrange)]
  rfl

theorem readDigits_cons_of_isDigit {c : Char} (h : c.isDigit = true) (value : ℕ)
    (expectDigit : Bool) (rest : List Char) :
    readDigits value expectDigit (c :: rest) =
      readDigits (10 * value + (c.toNat - '0'.toNat)) false rest := by
  have hne : c ≠ '_' := by
    rintro rfl
    exact absurd h (by decide)
  rw [readDigits, decimalDigit_of_isDigit h, Option.bind_some]
  exact hne

theorem readDigits_of_isDigit {digits : List Char} (h : ∀ c ∈ digits, c.isDigit = true) (value : ℕ) :
    readDigits value false digits = some (Nat.ofDigitChars 10 digits value) := by
  induction digits generalizing value with
  | nil => rfl
  | cons c digits ih =>
    obtain ⟨hc, hdigits⟩ := List.forall_mem_cons.mp h
    rw [readDigits_cons_of_isDigit hc, ih hdigits, Nat.ofDigitChars_cons]

theorem isPythonSpace_of_isDigit {c : Char} (h : c.isDigit = true) : isPythonSpace c = false := by
  have hrange : 48 ≤ c.toNat ∧ c.toNat ≤ 57 := by
    simp only [Char.isDigit, Bool.and_eq_true, decide_eq_true_eq] at h
    exact h
  simp only [isPythonSpace, isWhiteSpace, Bool.or_eq_false_iff, Bool.and_eq_false_iff,
    decide_eq_false_iff_not, List.contains_eq_mem, List.mem_cons, List.not_mem_nil, or_false]
  omega

theorem strip_eq_self {s : String} (h : ∀ c ∈ s.toList, isPythonSpace c = false) : strip s = s := by
  have hdrop : ∀ chars : List Char, (∀ c ∈ chars, isPythonSpace c = false) →
      chars.dropWhile isPythonSpace = chars := by
    intro chars hchars
    cases chars with
    | nil => rfl
    | cons c chars => exact List.dropWhile_cons_of_neg (by simp [hchars c List.mem_cons_self])
  rw [strip, trimBoth, hdrop _ h, hdrop _ fun c hc ↦ h c (List.mem_reverse.mp hc),
    List.reverse_reverse, String.ofList_toList]

theorem mem_of_mem_strip {s : String} {c : Char} (h : c ∈ (strip s).toList) : c ∈ s.toList := by
  rw [strip, trimBoth, String.toList_ofList, List.mem_reverse] at h
  have hinner := (List.dropWhile_sublist isPythonSpace).subset h
  rw [List.mem_reverse] at hinner
  exact (List.dropWhile_sublist isPythonSpace).subset hinner

theorem isDigit_of_mem_repr {n : ℕ} {c : Char} (h : c ∈ n.repr.toList) : c.isDigit = true := by
  rw [Nat.toList_repr] at h
  exact Nat.isDigit_of_mem_toDigits (by decide) (by decide) h

/-- What is written is read. -/
theorem pythonInt_repr (n : ℕ) : pythonInt n.repr = some (n : Int) := by
  have hdigits : ∀ c ∈ n.repr.toList, c.isDigit = true := fun c hc ↦ isDigit_of_mem_repr hc
  have hstrip : strip n.repr = n.repr :=
    strip_eq_self fun c hc ↦ isPythonSpace_of_isDigit (hdigits c hc)
  have hread : readDigits 0 true n.repr.toList = some n := by
    have hne : n.repr.toList ≠ [] := by
      rw [Nat.toList_repr]
      exact Nat.toDigits_ne_nil
    obtain ⟨c, digits, hlist⟩ := List.exists_cons_of_ne_nil hne
    have hvalue : Nat.ofDigitChars 10 (c :: digits) 0 = n := by
      rw [← hlist, Nat.toList_repr]
      exact Nat.ofDigitChars_toDigits (by decide) (by decide)
    rw [hlist] at hdigits ⊢
    obtain ⟨hc, hrest⟩ := List.forall_mem_cons.mp hdigits
    rw [readDigits_cons_of_isDigit hc, readDigits_of_isDigit hrest, ← Nat.ofDigitChars_cons, hvalue]
  unfold pythonInt
  rw [hstrip]
  split
  case h_1 digits hlist =>
    exact absurd (hdigits '-' (hlist ▸ List.mem_cons_self)) (by decide)
  case h_2 digits hlist =>
    exact absurd (hdigits '+' (hlist ▸ List.mem_cons_self)) (by decide)
  case h_3 =>
    rw [hread]
    rfl

theorem repr_injective {n n' : ℕ} (h : n.repr = n'.repr) : n = n' := by
  have hread : pythonInt n.repr = some (n' : Int) := h ▸ pythonInt_repr n'
  rw [pythonInt_repr, Option.some.injEq] at hread
  exact Int.ofNat.inj hread

/-- A text without a minus sign is no negative number. -/
theorem pythonInt_nonneg {text : String} {value : Int} (hsign : '-' ∉ text.toList)
    (h : pythonInt text = some value) : ∃ n : ℕ, value = n := by
  unfold pythonInt at h
  split at h
  case h_1 digits hlist =>
    exact absurd (mem_of_mem_strip (hlist ▸ List.mem_cons_self)) hsign
  all_goals
    obtain ⟨n, -, rfl⟩ := Option.map_eq_some_iff.mp h
    exact ⟨n, rfl⟩

end SkillHive.Foundation
