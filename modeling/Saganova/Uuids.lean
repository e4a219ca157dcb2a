import Saganova.Contracts

/-!
# UUIDs as PostgreSQL spells them

A UUID column takes several spellings of one id, and gives it back in one:
32 digits in lower case, 8-4-4-4-12.  A TEXT column keeps what it was given.

    uuidIn s = some u → uuidIn u = some u        (uuidIn_idem)

`uuidOf` numbers UUIDs, for the ids that a run draws; the others are those of the
examples.
-/

namespace Saganova

/-! ## Input and output -/

def isxdigit (c : Char) : Bool :=
  ('0' ≤ c && c ≤ '9') || ('a' ≤ c && c ≤ 'f') || ('A' ≤ c && c ≤ 'F')

/-- The digits of the next `n` bytes in lower case, and what comes after them.
A hyphen may stand after every other byte. -/
def uuidDigits : ℕ → List Char → Option (List Char × List Char)
  | 0, src => some ([], src)
  | n + 1, a :: b :: src =>
    if isxdigit a && isxdigit b then
      let rest := if src.head? = some '-' && n % 2 = 0 && n ≠ 0 then src.tail else src
      (uuidDigits n rest).map fun r => (a.toLower :: b.toLower :: r.1, r.2)
    else none
  | _ + 1, _ => none

/-- The digits of the last `n` bytes, 8-4-4-4-12. -/
def uuidSpell : ℕ → List Char → List Char
  | n + 1, a :: b :: digits =>
    if n = 12 ∨ n = 10 ∨ n = 8 ∨ n = 6 then a :: b :: '-' :: uuidSpell n digits
    else a :: b :: uuidSpell n digits
  | _, _ => []

/-- `uuid_out` -/
def uuidText (digits : List Char) : Uuid := String.ofList (uuidSpell 16 digits)

/-- The text between the braces, if there are any, and what has to come after it. -/
def uuidBraces : List Char → List Char × List Char
  | '{' :: src => (src, ['}'])
  | src => (src, [])

/-- `uuid_in`: what a UUID column makes of a string, unless it rejects it. -/
def uuidIn (source : String) : Option Uuid :=
  match uuidDigits 16 (uuidBraces source.toList).1 with
  | some (digits, rest) =>
    if rest = (uuidBraces source.toList).2 then some (uuidText digits) else none
  | none => none

/-- A UUID column takes the string. -/
def IsUuid (s : String) : Prop := (uuidIn s).isSome

instance (s : String) : Decidable (IsUuid s) := inferInstanceAs (Decidable (_ = true))

/-- The string is spelled as a UUID column gives it back. -/
def Canonical (id : Uuid) : Prop := uuidIn id = some id

instance (id : Uuid) : Decidable (Canonical id) := inferInstanceAs (Decidable (_ = _))

/-- What a TEXT column holds: U+0000 is not in it. -/
def TextFits (s : String) : Prop := '\x00' ∉ s.toList

instance (s : String) : Decidable (TextFits s) := inferInstanceAs (Decidable (¬ _))

example : uuidIn "7B1F0C00-0000-4000-8000-00000000000A" =
    some "7b1f0c00-0000-4000-8000-00000000000a" := by decide +kernel

/-- The end-to-end test's customer is no UUID. -/
example : ¬ IsUuid "cust_DECLINE" := by decide +kernel

/-! ## One spelling -/

/-- A hexadecimal digit in lower case. -/
def IsHex (c : Char) : Prop := isxdigit c ∧ c.toLower = c

theorem toNat_mem_of_isxdigit {c : Char} (h : isxdigit c) :
    48 ≤ c.toNat ∧ c.toNat ≤ 57 ∨ 97 ≤ c.toNat ∧ c.toNat ≤ 102 ∨ 65 ≤ c.toNat ∧ c.toNat ≤ 70 := by
  unfold isxdigit at h
  simp only [Bool.or_eq_true, Bool.and_eq_true, decide_eq_true_eq] at h
  obtain (h | h) | h := h
  · exact .inl h
  · exact .inr (.inl h)
  · exact .inr (.inr h)

theorem isHex_toLower_all : ∀ n, n < 103 → isxdigit (Char.ofNat n) →
    isxdigit (Char.ofNat n).toLower ∧ (Char.ofNat n).toLower.toLower = (Char.ofNat n).toLower := by
  decide +kernel

theorem isHex_toLower {c : Char} (h : isxdigit c) : IsHex c.toLower := by
  have hlt : c.toNat < 103 := by
    have hmem := toNat_mem_of_isxdigit h
    omega
  rw [← Char.ofNat_toNat c] at h ⊢
  exact isHex_toLower_all _ hlt h

theorem IsHex.ne_hyphen {c : Char} (h : IsHex c) : c ≠ '-' := by
  rintro rfl
  exact absurd h.1 (by decide)

/-- What is read are digits in lower case, two for a byte. -/
theorem isHex_of_uuidDigits {n : ℕ} {src digits rest : List Char}
    (h : uuidDigits n src = some (digits, rest)) :
    digits.length = 2 * n ∧ ∀ c ∈ digits, IsHex c := by
  induction n generalizing src digits with
  | zero =>
    cases h
    exact ⟨rfl, fun c hc => (nomatch hc)⟩
  | succ n ih =>
    match src with
    | [] => nomatch h
    | [_] => nomatch h
    | a :: b :: src =>
      unfold uuidDigits at h
      split at h
      · rename_i hdigits
        obtain ⟨ha, hb⟩ := Bool.and_eq_true_iff.mp hdigits
        obtain ⟨⟨digits', rest'⟩, hread, heq⟩ := Option.map_eq_some_iff.mp h
        cases heq
        obtain ⟨hlength, hhex⟩ := ih hread
        refine ⟨by simp [hlength]; omega, fun c hc => ?_⟩
        obtain rfl | hc := List.mem_cons.mp hc
        · exact isHex_toLower ha
        obtain rfl | hc := List.mem_cons.mp hc
        · exact isHex_toLower hb
        · exact hhex c hc
      · cases h

/-- What is spelled out is read back. -/
theorem uuidDigits_spell {n : ℕ} {digits : List Char} (hlength : digits.length = 2 * n)
    (hhex : ∀ c ∈ digits, IsHex c) : uuidDigits n (uuidSpell n digits) = some (digits, []) := by
  induction n generalizing digits with
  | zero =>
    obtain rfl := List.length_eq_zero_iff.mp hlength
    rfl
  | succ n ih =>
    match digits with
    | [] => nomatch hlength
    | [_] =>
      simp at hlength
      omega
    | a :: b :: digits =>
      have ha := hhex a (by simp)
      have hb := hhex b (by simp)
      have hread : uuidDigits n (uuidSpell n digits) = some (digits, []) :=
        ih (by simp at hlength; omega) fun c hc => hhex c (by simp [hc])
      -- a digit comes next, where no hyphen does
      have hhead : (uuidSpell n digits).head? ≠ some '-' := by
        match n, digits with
        | 0, _ => exact fun heq => (nomatch heq)
        | _ + 1, [] => exact fun heq => (nomatch heq)
        | _ + 1, [_] => exact fun heq => (nomatch heq)
        | m + 1, c :: d :: digits =>
          have hc := (hhex c (by simp)).ne_hyphen
          unfold uuidSpell
          split
          · exact fun heq => hc (Option.some.inj heq)
          · exact fun heq => hc (Option.some.inj heq)
      unfold uuidSpell
      split
      · rename_i hgroup
        have heven : n % 2 = 0 ∧ n ≠ 0 := by omega
        simp [uuidDigits, ha.1, hb.1, ha.2, hb.2, heven, hread]
      · simp [uuidDigits, ha.1, hb.1, ha.2, hb.2, hhead, hread]

theorem uuidBraces_of_isHex {c : Char} {src : List Char} (h : IsHex c) :
    uuidBraces (c :: src) = (c :: src, []) := by
  unfold uuidBraces
  split
  · rename_i heq
    obtain rfl := (List.cons.inj heq).1
    exact absurd h.1 (by decide)
  · rfl

theorem canonical_uuidText {digits : List Char} (hlength : digits.length = 32)
    (hhex : ∀ c ∈ digits, IsHex c) : Canonical (uuidText digits) := by
  have hread := uuidDigits_spell (n := 16) hlength hhex
  have hbraces : uuidBraces (uuidSpell 16 digits) = (uuidSpell 16 digits, []) := by
    match digits with
    | [] => nomatch hlength
    | [_] => nomatch hlength
    | a :: b :: digits => exact uuidBraces_of_isHex (hhex a (by simp))
  unfold Canonical uuidIn uuidText
  rw [String.toList_ofList, hbraces]
  simp [hread]

/-- **A UUID column gives back what it takes as it is.** -/
theorem uuidIn_idem {s : String} {u : Uuid} (h : uuidIn s = some u) : Canonical u := by
  unfold uuidIn at h
  cases hread : uuidDigits 16 (uuidBraces s.toList).1 with
  | none =>
    rw [hread] at h
    nomatch h
  | some r =>
    obtain ⟨digits, rest⟩ := r
    simp only [hread] at h
    split at h
    · obtain rfl := Option.some.inj h
      obtain ⟨hlength, hhex⟩ := isHex_of_uuidDigits hread
      exact canonical_uuidText hlength hhex
    · cases h

/-! ## Numbered ids -/

/-- The last `w` hexadecimal digits of a number. -/
def hexOf : ℕ → ℕ → List Char
  | 0, _ => []
  | w + 1, n => hexOf w (n / 16) ++ [(n % 16).digitChar]

def hexValue (c : Char) : ℕ := if c.isDigit then c.toNat - 48 else c.toNat - 87

def numberOf (digits : List Char) : ℕ := digits.foldl (fun n c => 16 * n + hexValue c) 0

/-- The `n`-th id.  Those from `16 ^ 12` on are too long to be UUIDs. -/
def uuidOf (n : ℕ) : Uuid :=
  String.ofList (uuidSpell 16 ("00000000000040008000".toList ++ hexOf 12 n) ++
    List.replicate (n / 16 ^ 12) '0')

/-- The number of an id. -/
def uuidNumber (id : Uuid) : ℕ :=
  numberOf ((id.toList.drop 24).take 12) + 16 ^ 12 * (id.toList.length - 36)

theorem hexValue_digitChar : ∀ k, k < 16 → hexValue k.digitChar = k := by decide

theorem isHex_digitChar_all : ∀ k, k < 16 →
    isxdigit k.digitChar ∧ k.digitChar.toLower = k.digitChar := by decide +kernel

theorem length_hexOf (w n : ℕ) : (hexOf w n).length = w := by
  induction w generalizing n with
  | zero => rfl
  | succ w ih => simp [hexOf, ih]

theorem isHex_hexOf {w n : ℕ} {c : Char} (h : c ∈ hexOf w n) : IsHex c := by
  induction w generalizing n with
  | zero => nomatch h
  | succ w ih =>
    obtain h | h := List.mem_append.mp h
    · exact ih h
    · obtain rfl := List.mem_singleton.mp h
      exact isHex_digitChar_all _ (Nat.mod_lt n (by decide))

theorem numberOf_hexOf (w n : ℕ) : numberOf (hexOf w n) = n % 16 ^ w := by
  induction w generalizing n with
  | zero => exact (Nat.mod_one n).symm
  | succ w ih =>
    have hhead := ih (n / 16)
    unfold numberOf at hhead ⊢
    rw [hexOf, List.foldl_append, hhead, List.foldl_cons, List.foldl_nil,
      hexValue_digitChar _ (Nat.mod_lt n (by decide)), pow_succ', Nat.mod_mul]
    omega

theorem uuidSpell_hexOf (n : ℕ) : uuidSpell 16 ("00000000000040008000".toList ++ hexOf 12 n) =
    "00000000-0000-4000-8000-".toList ++ hexOf 12 n := by
  simp [hexOf, uuidSpell]

theorem uuidNumber_uuidOf (n : ℕ) : uuidNumber (uuidOf n) = n := by
  unfold uuidNumber uuidOf
  rw [String.toList_ofList, uuidSpell_hexOf]
  generalize hdigits : hexOf 12 n = digits
  have hlength : digits.length = 12 := hdigits ▸ length_hexOf 12 n
  have hprefix : "00000000-0000-4000-8000-".toList.length = 24 := by decide
  generalize "00000000-0000-4000-8000-".toList = pre at hprefix
  have hmiddle : ((pre ++ digits ++ List.replicate (n / 16 ^ 12) '0').drop 24).take 12 = digits := by
    rw [List.append_assoc, ← hprefix, List.drop_left, ← hlength, List.take_left]
  have hrest : (pre ++ digits ++ List.replicate (n / 16 ^ 12) '0').length - 36 = n / 16 ^ 12 := by
    rw [List.length_append, List.length_append, List.length_replicate]
    omega
  rw [hmiddle, hrest, ← hdigits, numberOf_hexOf]
  exact Nat.mod_add_div n (16 ^ 12)

theorem uuidOf_injective : Function.Injective uuidOf :=
  Function.LeftInverse.injective uuidNumber_uuidOf

theorem uuidOf_ne_empty (n : ℕ) : uuidOf n ≠ "" := by
  intro h
  have hlength := congrArg (fun s : String => s.toList.length) h
  unfold uuidOf at hlength
  rw [uuidSpell_hexOf] at hlength
  simp [length_hexOf] at hlength

/-- The first `16 ^ 12` of them are UUIDs. -/
theorem canonical_uuidOf {n : ℕ} (h : n < 16 ^ 12) : Canonical (uuidOf n) := by
  have htext : uuidOf n = uuidText ("00000000000040008000".toList ++ hexOf 12 n) := by
    unfold uuidOf uuidText
    rw [Nat.div_eq_of_lt h, List.replicate_zero, List.append_nil]
  have hprefix : "00000000000040008000".toList.all
      (fun c => isxdigit c && decide (c.toLower = c)) := by decide +kernel
  rw [htext]
  refine canonical_uuidText (by rw [List.length_append, length_hexOf]; decide) fun c hc => ?_
  obtain hc | hc := List.mem_append.mp hc
  · have hdigit := List.all_eq_true.mp hprefix c hc
    rw [Bool.and_eq_true, decide_eq_true_eq] at hdigit
    exact hdigit
  · exact isHex_hexOf hc

/-! ## Ids for examples -/

def order₁ : Uuid := "0a000000-0000-4000-8000-000000000001"
def order₂ : Uuid := "0a000000-0000-4000-8000-000000000002"
def customer₁ : Uuid := "0c000000-0000-4000-8000-000000000001"
def customer₂ : Uuid := "0c000000-0000-4000-8000-000000000002"
def customer₃ : Uuid := "0c000000-0000-4000-8000-000000000003"
def payment₁ : Uuid := "0b000000-0000-4000-8000-000000000001"
def reservation₁ : Uuid := "0d000000-0000-4000-8000-000000000001"
def reservation₂ : Uuid := "0d000000-0000-4000-8000-000000000002"
def row₁ : Uuid := "0e000000-0000-4000-8000-000000000001"
def row₂ : Uuid := "0e000000-0000-4000-8000-000000000002"

/-- The `i`-th row that is inserted with the ids drawn at place `k` of a trace. -/
def rowId (k i : ℕ) : Uuid := uuidOf (4096 * (k + 1) + i)

end Saganova
