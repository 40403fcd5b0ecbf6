import Mathlib.Algebra.Ring.Nat
import Mathlib.Data.Nat.Log
import Mathlib.Data.Prod.Lex
import Mathlib.Tactic.Common
import Mathlib.Order.Basic

/-!
# Instants as text

An instant of the calendar is written with a fixed number of digits in each of its fields, apart
from the year, which has a sign when it has not four digits, and from the fraction of the second,
which is left out or has three, six or nine digits. The order of such texts is the order of the
instants as long as the years have four digits.
-/

namespace SkillHive.Foundation.Rfc3339

/-! ## Numbers of a fixed width -/

def digit (n : ℕ) : Char := Char.ofNat (48 + n)

/-- The last `width` decimal digits. -/
def pad : ℕ → ℕ → List Char
  | 0, _ => []
  | width + 1, n => pad width (n / 10) ++ [digit (n % 10)]

theorem digit_lt {m n : ℕ} (hm : m < 10) (hn : n < 10) : digit m < digit n ↔ m < n := by
  have hall : ∀ m < 10, ∀ n < 10, digit m < digit n ↔ m < n := by decide
  exact hall m hm n hn

theorem digit_inj {m n : ℕ} (hm : m < 10) (hn : n < 10) (h : digit m = digit n) : m = n := by
  have hall : ∀ m < 10, ∀ n < 10, digit m = digit n → m = n := by decide
  exact hall m hm n hn h

/-- The other characters of an instant come before the digits. -/
theorem lt_digit {c : Char} (hc : c ∈ ['+', '-', '.']) (n : ℕ) : c < digit (n % 10) := by
  have hall : ∀ n < 10, '+' < digit n ∧ '-' < digit n ∧ '.' < digit n := by decide
  obtain ⟨hplus, hminus, hdot⟩ := hall _ (Nat.mod_lt n (by decide))
  simp only [List.mem_cons, List.not_mem_nil, or_false] at hc
  rcases hc with rfl | rfl | rfl
  · exact hplus
  · exact hminus
  · exact hdot

@[simp]
theorem length_pad (width n : ℕ) : (pad width n).length = width := by
  induction width generalizing n with
  | zero => rfl
  | succ width ih => rw [pad, List.length_append, ih, List.length_singleton]

/-- Texts of one width in front are compared first. -/
theorem append_lt_append {front front' back back' : List Char} (h : front.length = front'.length) :
    front ++ back < front' ++ back' ↔ front < front' ∨ front = front' ∧ back < back' := by
  induction front generalizing front' with
  | nil =>
    cases front' with
    | nil => simp
    | cons c front' => cases h
  | cons c front ih =>
    cases front' with
    | nil => cases h
    | cons c' front' =>
      rw [List.cons_append, List.cons_append, List.cons_lt_cons_iff, List.cons_lt_cons_iff,
        ih (Nat.succ.inj h), List.cons.injEq]
      tauto

theorem div_ten_lt {width n : ℕ} (h : n < 10 ^ (width + 1)) : n / 10 < 10 ^ width :=
  Nat.div_lt_of_lt_mul (by rwa [Nat.pow_succ'] at h)

theorem pad_inj {width m n : ℕ} (hm : m < 10 ^ width) (hn : n < 10 ^ width)
    (h : pad width m = pad width n) : m = n := by
  induction width generalizing m n with
  | zero =>
    rw [Nat.pow_zero, Nat.lt_one_iff] at hm hn
    rw [hm, hn]
  | succ width ih =>
    obtain ⟨hfront, hlast⟩ := List.append_inj' h rfl
    have hdiv := ih (div_ten_lt hm) (div_ten_lt hn) hfront
    have hmod := digit_inj (Nat.mod_lt m (by decide)) (Nat.mod_lt n (by decide))
      (List.cons.inj hlast).1
    omega

theorem pad_lt {width m n : ℕ} (hm : m < 10 ^ width) (hn : n < 10 ^ width) :
    pad width m < pad width n ↔ m < n := by
  induction width generalizing m n with
  | zero =>
    rw [Nat.pow_zero, Nat.lt_one_iff] at hm hn
    simp [pad, hm, hn]
  | succ width ih =>
    have hdigit := digit_lt (Nat.mod_lt m (by decide)) (Nat.mod_lt n (by decide))
    have heq : pad width (m / 10) = pad width (n / 10) ↔ m / 10 = n / 10 :=
      ⟨pad_inj (div_ten_lt hm) (div_ten_lt hn), fun h ↦ by rw [h]⟩
    rw [pad, pad, append_lt_append (by simp), ih (div_ten_lt hm) (div_ten_lt hn), heq,
      List.cons_lt_cons_iff, hdigit]
    simp only [List.not_lt_nil, and_false, or_false]
    omega

/-- Two fields of one width: the number decides, or what follows does. -/
theorem pad_append_lt {width m n : ℕ} (hm : m < 10 ^ width) (hn : n < 10 ^ width)
    {back back' : List Char} :
    pad width m ++ back < pad width n ++ back' ↔ m < n ∨ m = n ∧ back < back' := by
  have heq : pad width m = pad width n ↔ m = n := ⟨pad_inj hm hn, fun h ↦ by rw [h]⟩
  rw [append_lt_append (by simp), pad_lt hm hn, heq]

theorem pad_add (width more n : ℕ) :
    pad (width + more) n = pad width (n / 10 ^ more) ++ pad more n := by
  induction more generalizing n with
  | zero => simp [pad]
  | succ more ih =>
    rw [← Nat.add_assoc, pad, ih, pad, List.append_assoc, Nat.div_div_eq_div_mul, ← Nat.pow_succ']

theorem pad_succ (width n : ℕ) :
    pad (width + 1) n = digit (n / 10 ^ width % 10) :: pad width n := by
  rw [Nat.add_comm, pad_add]
  rfl

/-! ## The fraction of a second -/

/-- How many digits the fraction gets: none, milliseconds, microseconds or all of them. -/
def fractionWidth (nano : ℕ) : ℕ :=
  if nano = 0 then 0 else if nano % 10 ^ 6 = 0 then 3 else if nano % 10 ^ 3 = 0 then 6 else 9

def fraction (nano : ℕ) : List Char :=
  if nano = 0 then [] else '.' :: pad (fractionWidth nano) (nano / 10 ^ (9 - fractionWidth nano))

theorem fractionWidth_le (nano : ℕ) : fractionWidth nano ≤ 9 := by
  unfold fractionWidth
  split_ifs <;> decide

/-- No digit that is left out matters. -/
theorem fractionWidth_spec (nano : ℕ) :
    nano / 10 ^ (9 - fractionWidth nano) * 10 ^ (9 - fractionWidth nano) = nano := by
  refine Nat.div_mul_cancel (Nat.dvd_of_mod_eq_zero ?_)
  unfold fractionWidth
  split_ifs with hzero hmillis hmicros
  · rw [hzero, Nat.zero_mod]
  · exact hmillis
  · exact hmicros
  · exact Nat.mod_one nano

theorem div_pow_sub {width more n : ℕ} (h : width + more ≤ 9) :
    n / 10 ^ (9 - (width + more)) / 10 ^ more = n / 10 ^ (9 - width) := by
  rw [Nat.div_div_eq_div_mul, ← Nat.pow_add]
  congr 2
  omega

theorem div_pow_lt {width n : ℕ} (hwidth : width ≤ 9) (hn : n < 10 ^ 9) :
    n / 10 ^ (9 - width) < 10 ^ width := by
  refine Nat.div_lt_of_lt_mul ?_
  rwa [← Nat.pow_add, Nat.sub_add_cancel hwidth]

theorem fraction_lt {m n : ℕ} (hm : m < 10 ^ 9) (hn : n < 10 ^ 9) (hmn : m < n) (back : List Char) :
    fraction m ++ '+' :: back < fraction n ++ '+' :: back := by
  have hmwidth := fractionWidth_le m
  have hnwidth := fractionWidth_le n
  have hspec := fractionWidth_spec n
  unfold fraction
  rw [if_neg (by omega : n ≠ 0)]
  by_cases hzero : m = 0
  · rw [if_pos hzero, List.nil_append, List.cons_append, List.cons_lt_cons_iff]
    exact .inl (by decide)
  · rw [if_neg hzero, List.cons_append, List.cons_append, List.cons_lt_cons_iff]
    refine .inr ⟨rfl, ?_⟩
    rcases Nat.lt_or_ge (fractionWidth m) (fractionWidth n) with hlt | hge
    · -- The shorter fraction ends where the longer one goes on.
      obtain ⟨more, hmore⟩ := Nat.exists_eq_add_of_lt hlt
      rw [hmore, Nat.add_assoc, pad_add, List.append_assoc]
      rw [hmore, Nat.add_assoc] at hnwidth
      rw [div_pow_sub hnwidth, pad_append_lt (div_pow_lt hmwidth hm) (div_pow_lt hmwidth hn)]
      rcases Nat.lt_or_eq_of_le (Nat.div_le_div_right hmn.le) with hless | heq
      · exact .inl hless
      · refine .inr ⟨heq, ?_⟩
        rw [pad_succ, List.cons_append, List.cons_lt_cons_iff]
        exact .inl (lt_digit (by decide) _)
    · obtain ⟨more, hmore⟩ := Nat.exists_eq_add_of_le hge
      rw [hmore, pad_add, List.append_assoc]
      rw [hmore] at hmwidth
      rw [div_pow_sub hmwidth, pad_append_lt (div_pow_lt hnwidth hm) (div_pow_lt hnwidth hn)]
      left
      exact Nat.div_lt_of_lt_mul (by rwa [Nat.mul_comm, hspec])

/-! ## Instants -/

/-- The calendar fields of an instant in UTC. A leap second has the number 60. -/
structure Civil where
  year : ℤ
  month : ℕ
  day : ℕ
  hour : ℕ
  minute : ℕ
  second : ℕ
  nano : ℕ
  month_le : month ≤ 12
  day_le : day ≤ 31
  hour_le : hour ≤ 23
  minute_le : minute ≤ 59
  second_le : second ≤ 60
  nano_lt : nano < 10 ^ 9

namespace Civil

/-- What orders the instants of one year. -/
def inYear (c : Civil) : ℕ ×ₗ ℕ ×ₗ ℕ ×ₗ ℕ ×ₗ ℕ ×ₗ ℕ :=
  toLex (c.month, toLex (c.day, toLex (c.hour, toLex (c.minute, toLex (c.second, c.nano)))))

def Before (c c' : Civil) : Prop := c.year < c'.year ∨ c.year = c'.year ∧ c.inYear < c'.inYear

/-- RFC 3339 has four digits for the year. -/
def hasPlainYear (c : Civil) : Prop := 0 ≤ c.year ∧ c.year ≤ 9999

instance (c : Civil) : Decidable c.hasPlainYear := by
  unfold hasPlainYear
  infer_instance

/-- How many digits a year with a sign has. -/
def yearWidth (n : ℕ) : ℕ := max 4 (Nat.log 10 n + 1)

def yearText (year : ℤ) : List Char :=
  if 0 ≤ year ∧ year ≤ 9999 then pad 4 year.toNat
  else (if year < 0 then '-' else '+') :: pad (yearWidth year.natAbs) year.natAbs

def inYearText (c : Civil) : List Char :=
  '-' :: (pad 2 c.month ++ '-' :: (pad 2 c.day ++ 'T' :: (pad 2 c.hour ++ ':' ::
    (pad 2 c.minute ++ ':' :: (pad 2 c.second ++ (fraction c.nano ++ '+' :: "00:00".toList))))))

def chars (c : Civil) : List Char := yearText c.year ++ inYearText c

/-- The instant in the normal form of `to_rfc3339`. -/
def text (c : Civil) : String := String.ofList c.chars

theorem text_le_iff {c c' : Civil} : c.text ≤ c'.text ↔ ¬ c'.chars < c.chars := by
  change ¬ c'.text.toList < c.text.toList ↔ _
  rw [text, text, String.toList_ofList, String.toList_ofList]

theorem fraction_append_lt (c c' : Civil) (back : List Char) :
    fraction c.nano ++ '+' :: back < fraction c'.nano ++ '+' :: back ↔ c.nano < c'.nano := by
  refine ⟨fun h ↦ ?_, fun h ↦ fraction_lt c.nano_lt c'.nano_lt h back⟩
  by_contra hnot
  rcases Nat.lt_or_eq_of_le (Nat.le_of_not_lt hnot) with hlt | heq
  · exact List.lt_asymm h (fraction_lt c'.nano_lt c.nano_lt hlt back)
  · rw [heq] at h
    exact List.lt_irrefl _ h

theorem field_lt {m n limit : ℕ} (hm : m ≤ limit) (hn : n ≤ limit) (hlimit : limit ≤ 99)
    (mark : Char) {back back' : List Char} :
    mark :: (pad 2 m ++ back) < mark :: (pad 2 n ++ back') ↔ m < n ∨ m = n ∧ back < back' := by
  rw [List.cons_lt_cons_iff, pad_append_lt (by omega) (by omega)]
  simp

theorem inYearText_lt (c c' : Civil) : c.inYearText < c'.inYearText ↔ c.inYear < c'.inYear := by
  unfold inYearText inYear
  rw [field_lt c.month_le c'.month_le (by decide), field_lt c.day_le c'.day_le (by decide),
    field_lt c.hour_le c'.hour_le (by decide), field_lt c.minute_le c'.minute_le (by decide),
    field_lt c.second_le c'.second_le (by decide), fraction_append_lt]
  simp only [Prod.Lex.toLex_lt_toLex]

theorem yearText_of_plain {c : Civil} (h : c.hasPlainYear) : yearText c.year = pad 4 c.year.toNat :=
  if_pos h

theorem yearText_of_late {c : Civil} (h : 9999 < c.year) :
    yearText c.year = '+' :: pad (yearWidth c.year.natAbs) c.year.natAbs := by
  rw [yearText, if_neg (by omega), if_neg (by omega)]

theorem yearText_of_early {c : Civil} (h : c.year < 0) :
    yearText c.year = '-' :: pad (yearWidth c.year.natAbs) c.year.natAbs := by
  rw [yearText, if_neg (by omega), if_pos h]

/-- With plain years the texts are in the order of the instants. -/
theorem chars_lt_of_plain {c c' : Civil} (h : c.hasPlainYear) (h' : c'.hasPlainYear) :
    c.chars < c'.chars ↔ c.Before c' := by
  have hbounds := h
  have hbounds' := h'
  unfold hasPlainYear at hbounds hbounds'
  rw [chars, chars, yearText_of_plain h, yearText_of_plain h', pad_append_lt (by omega) (by omega),
    inYearText_lt]
  unfold Before
  have hlt : c.year.toNat < c'.year.toNat ↔ c.year < c'.year := by omega
  have heq : c.year.toNat = c'.year.toNat ↔ c.year = c'.year := by omega
  rw [hlt, heq]

/-- A year with a sign comes before any plain one. -/
theorem chars_lt_of_signed {c c' : Civil} (h : ¬ c.hasPlainYear) (h' : c'.hasPlainYear) :
    c.chars < c'.chars := by
  rw [chars, chars, yearText_of_plain h', pad_succ, List.cons_append]
  rcases lt_or_ge c.year 0 with hearly | hlate
  · rw [yearText_of_early hearly, List.cons_append, List.cons_lt_cons_iff]
    exact .inl (lt_digit (by decide) _)
  · have hyear : 9999 < c.year := not_le.mp fun hle ↦ h ⟨hlate, hle⟩
    rw [yearText_of_late hyear, List.cons_append, List.cons_lt_cons_iff]
    exact .inl (lt_digit (by decide) _)

/-- Years after 9999 come before those before 0. -/
theorem chars_lt_of_late {c c' : Civil} (h : 9999 < c.year) (h' : c'.year < 0) :
    c.chars < c'.chars := by
  rw [chars, chars, yearText_of_late h, yearText_of_early h', List.cons_append, List.cons_append,
    List.cons_lt_cons_iff]
  exact .inl (by decide)

theorem lt_pow_yearWidth (n : ℕ) : n < 10 ^ yearWidth n := by
  refine (Nat.lt_pow_succ_log_self (b := 10) (by decide) n).trans_le ?_
  exact Nat.pow_le_pow_right (by decide) (le_max_right _ _)

/-- Of the years with one sign, nothing comes before the first but itself. -/
theorem pad_yearWidth_lt {width base n : ℕ} (hwidth : 4 ≤ width) (hbase : base ≤ 10 ^ (width - 1))
    (hle : base ≤ n) (hlong : width ≤ yearWidth n) {back back' : List Char} :
    pad (yearWidth n) n ++ '-' :: back < pad width base ++ '-' :: back' ↔
      n = base ∧ '-' :: back < '-' :: back' := by
  have hpow : 10 ^ (width - 1) < 10 ^ width := Nat.pow_lt_pow_right (by decide) (by omega)
  obtain ⟨more, hmore⟩ := Nat.exists_eq_add_of_le hlong
  cases more with
  | zero =>
    have hn := lt_pow_yearWidth n
    rw [Nat.add_zero] at hmore
    rw [hmore] at hn ⊢
    rw [pad_append_lt hn (hbase.trans_lt hpow)]
    exact ⟨fun h ↦ h.resolve_left (by omega), .inr⟩
  | succ more =>
    have hlog : 10 ^ (width + more) ≤ n := by
      have hwide : Nat.log 10 n = width + more := by
        unfold yearWidth at hmore
        omega
      rw [← hwide]
      refine Nat.pow_log_le_self 10 ?_
      rintro rfl
      simp at hwide
      omega
    have hfirst : 10 ^ (width - 1) ≤ n / 10 ^ (more + 1) := by
      rw [Nat.le_div_iff_mul_le (Nat.pow_pos (by decide)), ← Nat.pow_add]
      exact (Nat.pow_le_pow_right (by decide) (by omega)).trans hlog
    have hn := lt_pow_yearWidth n
    rw [hmore, Nat.pow_add] at hn
    rw [hmore, pad_add, List.append_assoc,
      pad_append_lt (Nat.div_lt_of_lt_mul (by rwa [Nat.mul_comm])) (hbase.trans_lt hpow)]
    refine iff_of_false ?_ ?_
    · rintro (hless | ⟨-, hback⟩)
      · omega
      · rw [pad_succ, List.cons_append, List.cons_lt_cons_iff] at hback
        have hdigit := lt_digit (c := '-') (by decide) (n / 10 ^ more)
        rcases hback with hless | ⟨heq, -⟩
        · exact Char.lt_asymm hless hdigit
        · exact Char.lt_irrefl _ (heq ▸ hdigit)
    · rintro ⟨rfl, -⟩
      have hmono : 10 ^ width ≤ 10 ^ (width + more) := Nat.pow_le_pow_right (by decide) (by omega)
      omega

theorem yearWidth_of_le {n : ℕ} (h : 10000 ≤ n) : 5 ≤ yearWidth n := by
  have hlog : 4 ≤ Nat.log 10 n := Nat.le_log_of_pow_le (by decide) h
  unfold yearWidth
  omega

/-- Of the late years, only instants of the year 10000 come before one of that year. -/
theorem chars_lt_of_first_late {c c' : Civil} (h : 9999 < c.year) (h' : c'.year = 10000) :
    c.chars < c'.chars ↔ c.Before c' := by
  have hbase : pad (yearWidth (Int.natAbs 10000)) (Int.natAbs 10000) = pad 5 10000 := by
    have hlog : Nat.log 10 10000 = 4 := (Nat.log_eq_iff (by decide)).mpr (by decide)
    change pad (max 4 (Nat.log 10 10000 + 1)) 10000 = _
    rw [hlog]
    rfl
  rw [chars, chars, yearText_of_late h, yearText_of_late (by omega), h', hbase,
    List.cons_append, List.cons_append, List.cons_lt_cons_iff, inYearText, inYearText,
    pad_yearWidth_lt (by decide) (by decide) (by omega) (yearWidth_of_le (by omega)), ← inYearText,
    ← inYearText, inYearText_lt]
  unfold Before
  have heq : c.year.natAbs = 10000 ↔ c.year = c'.year := by omega
  rw [heq]
  simp only [false_or, true_and, Char.lt_irrefl]
  refine ⟨.inr, fun hbefore ↦ hbefore.resolve_left (by omega)⟩

/-- Of the years before 0, only instants of the last come before one of that. -/
theorem chars_lt_of_last_early {c c' : Civil} (h : c.year < 0) (h' : c'.year = -1) :
    c.chars < c'.chars ↔ c.year = -1 ∧ c.inYear < c'.inYear := by
  have hbase : pad (yearWidth (Int.natAbs (-1))) (Int.natAbs (-1)) = pad 4 1 := by
    have hlog : Nat.log 10 1 = 0 := Nat.log_one_right 10
    change pad (max 4 (Nat.log 10 1 + 1)) 1 = _
    rw [hlog]
    rfl
  rw [chars, chars, yearText_of_early h, yearText_of_early (by omega), h', hbase,
    List.cons_append, List.cons_append, List.cons_lt_cons_iff, inYearText, inYearText,
    pad_yearWidth_lt (by decide) (by decide) (by omega) (le_max_left _ _), ← inYearText,
    ← inYearText, inYearText_lt]
  have heq : c.year.natAbs = 1 ↔ c.year = -1 := by omega
  rw [heq]
  simp only [Char.lt_irrefl, false_or, true_and]

end Civil

end SkillHive.Foundation.Rfc3339
