import Mathlib.Data.Nat.Cast.Field
import Mathlib.Data.Rat.Lemmas
import Mathlib.Tactic.FieldSimp
import Mathlib.Tactic.Ring
import Saganova.Contracts

/-!
# Numbers as JavaScript writes them

`numberText` is a number's decimal digits, `readNumber` the grammar that JSON
has for numbers.

    IsDecimal q → readNumber (numberChars q ++ rest) = some (q, rest)

A double is a whole multiple of a power of two, so its digits end
(`isDecimal_of_den`).  Numbers from 1e21 on, and those below 1e-6, are written
without their exponent here.
-/

namespace Saganova

/-- How many digits a number has after the point, if they end. -/
def decimals (q : Num) : Option ℕ :=
  (List.range (Nat.log2 q.den + 1)).find? fun k => 10 ^ k % q.den = 0

/-- The number's digits end. -/
def IsDecimal (q : Num) : Prop := (decimals q).isSome

instance (q : Num) : Decidable (IsDecimal q) := inferInstanceAs (Decidable (_ = true))

/-- The digits of `m`, one more than `k` at least. -/
def paddedDigits (k m : ℕ) : List Char :=
  List.replicate (k + 1 - (Nat.toDigits 10 m).length) '0' ++ Nat.toDigits 10 m

/-- `m / 10 ^ k` -/
def placedDigits (k m : ℕ) : List Char :=
  let digits := paddedDigits k m
  let whole := digits.length - k
  digits.take whole ++ if k = 0 then [] else '.' :: digits.drop whole

def numberChars (q : Num) : List Char :=
  match decimals q with
  | some k =>
    let digits := placedDigits k (q.num.natAbs * (10 ^ k / q.den))
    if q.num < 0 then '-' :: digits else digits
  -- no double is such a number
  | none => (toString q).toList

def numberText (q : Num) : String := String.ofList (numberChars q)

example : numberText (1 / 2) = "0.5" := by decide +kernel

example : numberText (-1234 / 100) = "-12.34" := by decide +kernel

/-! ## Reading -/

/-- The digits after a point, if there is one. -/
def readFraction : List Char → Option (List Char × List Char)
  | '.' :: src =>
    let digits := src.takeWhile Char.isDigit
    if digits = [] then none else some (digits, src.dropWhile Char.isDigit)
  | src => some ([], src)

def readExponent : List Char → Option (ℤ × List Char)
  | 'e' :: src | 'E' :: src =>
    let (sign, src) : ℤ × List Char := match src with
      | '-' :: src => (-1, src)
      | '+' :: src => (1, src)
      | src => (1, src)
    let digits := src.takeWhile Char.isDigit
    if digits = [] then none
    else some (sign * Nat.ofDigitChars 10 digits 0, src.dropWhile Char.isDigit)
  | src => some (0, src)

def readUnsigned (src : List Char) : Option (Num × List Char) := do
  let whole := src.takeWhile Char.isDigit
  -- no zero stands before another digit
  guard (whole ≠ [] ∧ (whole.head? = some '0' → whole.length = 1))
  let (fraction, src) ← readFraction (src.dropWhile Char.isDigit)
  let (exponent, src) ← readExponent src
  pure ((Nat.ofDigitChars 10 (whole ++ fraction) 0 : ℚ) / 10 ^ fraction.length * 10 ^ exponent, src)

def readNumber : List Char → Option (Num × List Char)
  | '-' :: src => (readUnsigned src).map fun r => (-r.1, r.2)
  | src => readUnsigned src

example : readNumber "-12.34e2]".toList = some (-1234, "]".toList) := by decide +kernel

/-! ## What is written is read back -/

/-- No number goes on so. -/
def NumberEnds (rest : List Char) : Prop :=
  ∀ c, rest.head? = some c → c.isDigit = false ∧ c ≠ '.' ∧ c ≠ 'e' ∧ c ≠ 'E'

section Digits

variable {k m : ℕ} {rest : List Char}

theorem isDigit_of_mem_paddedDigits {c : Char} (h : c ∈ paddedDigits k m) : c.isDigit := by
  obtain h | h := List.mem_append.mp h
  · rw [List.eq_of_mem_replicate h]
    rfl
  · exact Nat.isDigit_of_mem_toDigits (by decide) (by decide) h

theorem ofDigitChars_paddedDigits (k m : ℕ) : Nat.ofDigitChars 10 (paddedDigits k m) 0 = m := by
  unfold paddedDigits
  rw [Nat.ofDigitChars_append, Nat.ofDigitChars_replicate_zero, Nat.mul_zero,
    Nat.ofDigitChars_ten_toDigits]

theorem lt_length_paddedDigits (k m : ℕ) : k < (paddedDigits k m).length := by
  unfold paddedDigits
  rw [List.length_append, List.length_replicate]
  omega

/-- Only zero begins with a zero. -/
theorem toDigits_head_zero {n : ℕ} (h : (Nat.toDigits 10 n).head? = some '0') : n = 0 := by
  induction n using Nat.strong_induction_on with
  | _ n ih =>
    by_cases hlt : n < 10
    · rw [Nat.toDigits_of_lt_base hlt] at h
      simpa using h
    · rw [Nat.toDigits_of_base_le (by decide) (by omega), List.head?_append,
        List.head?_eq_some_head Nat.toDigits_ne_nil, Option.some_or] at h
      have hzero := ih (n / 10) (by omega)
        ((List.head?_eq_some_head Nat.toDigits_ne_nil).trans h)
      omega

/-- The digits before the point begin with a zero only where there is but one. -/
theorem paddedDigits_head_zero
    (h : ((paddedDigits k m).take ((paddedDigits k m).length - k)).head? = some '0') :
    ((paddedDigits k m).take ((paddedDigits k m).length - k)).length = 1 := by
  have hlength := lt_length_paddedDigits k m
  rw [List.length_take]
  by_cases hshort : (Nat.toDigits 10 m).length ≤ k
  · have heq : (paddedDigits k m).length = k + 1 := by
      unfold paddedDigits
      rw [List.length_append, List.length_replicate]
      omega
    omega
  · have hsame : paddedDigits k m = Nat.toDigits 10 m := by
      unfold paddedDigits
      rw [show k + 1 - (Nat.toDigits 10 m).length = 0 by omega]
      rfl
    rw [hsame] at h hlength ⊢
    rw [List.head?_take, if_neg (by omega)] at h
    obtain rfl := toDigits_head_zero h
    rw [Nat.toDigits_zero] at hlength ⊢
    simp at hlength ⊢
    omega

theorem takeWhile_digits (rest : List Char) {digits : List Char} (hdigits : ∀ c ∈ digits, c.isDigit)
    (hrest : ∀ c, rest.head? = some c → c.isDigit = false) :
    (digits ++ rest).takeWhile Char.isDigit = digits ∧
      (digits ++ rest).dropWhile Char.isDigit = rest := by
  rw [List.takeWhile_append_of_pos hdigits, List.dropWhile_append_of_pos hdigits]
  cases rest with
  | nil => simp
  | cons c rest => simp [hrest c rfl]

theorem readExponent_ends (h : NumberEnds rest) : readExponent rest = some (0, rest) := by
  unfold readExponent
  split
  · exact absurd rfl (h _ rfl).2.2.1
  · exact absurd rfl (h _ rfl).2.2.2
  · rfl

theorem readFraction_ends (h : NumberEnds rest) : readFraction rest = some ([], rest) := by
  unfold readFraction
  split
  · exact absurd rfl (h _ rfl).2.1
  · rfl

/-- A number in its parts, without an exponent. -/
theorem readUnsigned_of_parts {src src' whole fraction : List Char}
    (htake : src.takeWhile Char.isDigit = whole) (hdrop : src.dropWhile Char.isDigit = src')
    (hne : whole ≠ []) (hzero : whole.head? = some '0' → whole.length = 1)
    (hfraction : readFraction src' = some (fraction, rest)) (h : NumberEnds rest) :
    readUnsigned src =
      some ((Nat.ofDigitChars 10 (whole ++ fraction) 0 : ℚ) / 10 ^ fraction.length, rest) := by
  unfold readUnsigned
  simp only [htake, hdrop, hfraction, guard]
  rw [if_pos ⟨hne, hzero⟩]
  simp [readExponent_ends h]

theorem readUnsigned_placedDigits (h : NumberEnds rest) :
    readUnsigned (placedDigits k m ++ rest) = some ((m : ℚ) / 10 ^ k, rest) := by
  have hlength := lt_length_paddedDigits k m
  have hhead := paddedDigits_head_zero (k := k) (m := m)
  have hvalue := ofDigitChars_paddedDigits k m
  have hdigits : ∀ c ∈ paddedDigits k m, c.isDigit := fun c => isDigit_of_mem_paddedDigits
  unfold placedDigits
  generalize paddedDigits k m = digits at hlength hhead hvalue hdigits ⊢
  generalize hn : digits.length - k = n at hhead
  have hwhole : ∀ c ∈ digits.take n, c.isDigit := fun c hc => hdigits c (List.mem_of_mem_take hc)
  have hfraction : ∀ c ∈ digits.drop n, c.isDigit := fun c hc => hdigits c (List.mem_of_mem_drop hc)
  have hne : digits.take n ≠ [] := by
    rw [← List.length_pos_iff, List.length_take]
    omega
  have hdropped : (digits.drop n).length = k := by
    rw [List.length_drop]
    omega
  simp only [hn]
  by_cases hk : k = 0
  · obtain ⟨htake, hdrop⟩ := takeWhile_digits rest hwhole fun c hc => (h c hc).1
    have hnil : digits.drop n = [] := List.length_eq_zero_iff.mp (hdropped.trans hk)
    have hall : digits.take n = digits := by
      have happend := List.take_append_drop n digits
      rwa [hnil, List.append_nil] at happend
    rw [if_pos hk, List.append_nil,
      readUnsigned_of_parts htake hdrop hne hhead (readFraction_ends h) h, List.append_nil, hall,
      hvalue, hk]
    rfl
  · obtain ⟨htake, hdrop⟩ := takeWhile_digits ('.' :: (digits.drop n ++ rest)) hwhole
      fun c hc => by
        obtain rfl := Option.some.inj hc
        rfl
    obtain ⟨htake', hdrop'⟩ := takeWhile_digits rest hfraction fun c hc => (h c hc).1
    have hread : readFraction ('.' :: (digits.drop n ++ rest)) = some (digits.drop n, rest) := by
      unfold readFraction
      simp only [htake', hdrop']
      refine if_neg fun hnil => hk ?_
      rw [← hdropped, hnil]
      rfl
    rw [if_neg hk, List.append_assoc, List.cons_append,
      readUnsigned_of_parts htake hdrop hne hhead hread h, List.take_append_drop, hvalue, hdropped]

theorem placedDigits_head (k m : ℕ) : ∃ c digits, placedDigits k m = c :: digits ∧ c.isDigit := by
  have hlength := lt_length_paddedDigits k m
  have hdigits : ∀ c ∈ paddedDigits k m, c.isDigit := fun c => isDigit_of_mem_paddedDigits
  unfold placedDigits
  match paddedDigits k m, hlength, hdigits with
  | c :: digits, hlength, hdigits =>
    rw [List.length_cons] at hlength
    simp only [List.length_cons]
    rw [show digits.length + 1 - k = digits.length - k + 1 by omega,
      List.take_succ_cons, List.cons_append]
    exact ⟨c, _, rfl, hdigits c List.mem_cons_self⟩

end Digits

theorem readNumber_of_digit {c : Char} {src : List Char} (hc : c.isDigit) :
    readNumber (c :: src) = readUnsigned (c :: src) := by
  unfold readNumber
  split
  · rename_i heq
    obtain rfl := (List.cons.inj heq).1
    exact absurd hc (by decide)
  · rfl

/-- **A number's text is read back.** -/
theorem readNumber_numberChars {q : Num} {rest : List Char} (hq : IsDecimal q)
    (h : NumberEnds rest) : readNumber (numberChars q ++ rest) = some (q, rest) := by
  obtain ⟨k, hk⟩ := Option.isSome_iff_exists.mp hq
  have hdvd : q.den ∣ 10 ^ k := by
    unfold decimals at hk
    have hfound := List.find?_some hk
    exact Nat.dvd_of_mod_eq_zero (of_decide_eq_true hfound)
  -- the digits are those of the absolute value
  have hvalue : ((q.num.natAbs * (10 ^ k / q.den) : ℕ) : ℚ) / 10 ^ k = q.num.natAbs / q.den := by
    have hden : (q.den : ℚ) ≠ 0 := by exact_mod_cast q.den_nz
    rw [Nat.cast_mul, Nat.cast_div hdvd hden, Nat.cast_pow, Nat.cast_ofNat]
    field_simp
  have hread := readUnsigned_placedDigits (k := k) (m := q.num.natAbs * (10 ^ k / q.den)) h
  obtain ⟨c, digits, heq, hc⟩ := placedDigits_head k (q.num.natAbs * (10 ^ k / q.den))
  rw [hvalue] at hread
  unfold numberChars
  simp only [hk]
  split
  · rename_i hneg
    show (readUnsigned (placedDigits k _ ++ rest)).map _ = _
    rw [hread]
    have hnum : -((q.num.natAbs : ℚ) / q.den) = q := by
      rw [← neg_div, Nat.cast_natAbs, abs_of_neg hneg, Int.cast_neg, neg_neg, Rat.num_div_den]
    exact congrArg (fun q => some (q, rest)) hnum
  · rename_i hnonneg
    rw [heq, List.cons_append, readNumber_of_digit hc, ← List.cons_append, ← heq, hread,
      Nat.cast_natAbs, abs_of_nonneg (not_lt.mp hnonneg), Rat.num_div_den]

/-- Every double is written so. -/
theorem isDecimal_of_den {q : Num} {e : ℕ} (h : q.den = 2 ^ e) : IsDecimal q := by
  unfold IsDecimal decimals
  rw [List.find?_isSome]
  refine ⟨e, List.mem_range.mpr ?_, decide_eq_true ?_⟩
  · rw [h, Nat.log2_two_pow]
    omega
  · rw [h]
    exact Nat.mod_eq_zero_of_dvd (pow_dvd_pow_of_dvd (by decide) e)

end Saganova
