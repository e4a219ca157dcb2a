import Saganova.NumberText
import Saganova.Uuids

/-!
# JSON text

`JSON.stringify` and `JSON.parse` of the values that messages consist of.

    j.Writable → Json.parse j.text = some j      (parse_text)

A string of the language is a sequence of UTF-16 units; one that is half a
surrogate pair is taken for U+FFFD, which is what becomes of it in UTF-8.  Fields
keep the order of the text, and no result depends on it.
-/

namespace Saganova

/-- A JSON value. -/
inductive Json where
  | null
  | bool (b : Bool)
  | num (n : Num)
  | str (s : String)
  | arr (elements : List Json)
  | obj (fields : List (String × Json))

/-- U+0022 and U+005C. -/
def quotationMark : Char := Char.ofNat 34
def reverseSolidus : Char := Char.ofNat 92

/-! ## Writing -/

def escaped (c : Char) : List Char :=
  if c = quotationMark ∨ c = reverseSolidus then [reverseSolidus, c]
  else if c = '\x08' then [reverseSolidus, 'b']
  else if c = '\t' then [reverseSolidus, 't']
  else if c = '\n' then [reverseSolidus, 'n']
  else if c = '\x0c' then [reverseSolidus, 'f']
  else if c = '\r' then [reverseSolidus, 'r']
  else if c.toNat < 32 then
    [reverseSolidus, 'u', '0', '0', (c.toNat / 16).digitChar, (c.toNat % 16).digitChar]
  else [c]

def quoted (s : String) : List Char :=
  quotationMark :: s.toList.flatMap escaped ++ [quotationMark]

mutual

def Json.chars : Json → List Char
  | .null => "null".toList
  | .bool true => "true".toList
  | .bool false => "false".toList
  | .num n => numberChars n
  | .str s => quoted s
  | .arr elements => '[' :: elementChars elements ++ [']']
  | .obj fields => '{' :: fieldChars fields ++ ['}']

def elementChars : List Json → List Char
  | [] => []
  | element :: elements =>
    element.chars ++ if elements.isEmpty then [] else ',' :: elementChars elements

def fieldChars : List (String × Json) → List Char
  | [] => []
  | (name, value) :: fields =>
    quoted name ++ ':' :: value.chars ++ if fields.isEmpty then [] else ',' :: fieldChars fields

end

/-- `JSON.stringify` -/
def Json.text (j : Json) : String := String.ofList j.chars

/-! ## Reading -/

/-- A UTF-16 unit in four digits. -/
def readUnit : List Char → Option (ℕ × List Char)
  | a :: b :: c :: d :: src =>
    if [a, b, c, d].all isxdigit then some (numberOf ([a, b, c, d].map Char.toLower), src) else none
  | _ => none

/-- The second half of a surrogate pair. -/
def readLowSurrogate : List Char → Option (ℕ × List Char)
  | a :: b :: src => do
    guard (a = reverseSolidus ∧ b = 'u')
    let (unit, src) ← readUnit src
    guard (0xdc00 ≤ unit ∧ unit < 0xe000)
    pure (unit, src)
  | _ => none

def readUnicode (src : List Char) : Option (Char × List Char) := do
  let (unit, src) ← readUnit src
  if 0xd800 ≤ unit ∧ unit < 0xdc00 then
    match readLowSurrogate src with
    | some (low, src) =>
      pure (Char.ofNat (0x10000 + (unit - 0xd800) * 0x400 + (low - 0xdc00)), src)
    | none => pure (Char.ofNat 0xfffd, src)
  else if 0xdc00 ≤ unit ∧ unit < 0xe000 then pure (Char.ofNat 0xfffd, src)
  else pure (Char.ofNat unit, src)

/-- What a reverse solidus is followed by. -/
def readEscape : List Char → Option (Char × List Char)
  | [] => none
  | c :: src =>
    if c = quotationMark ∨ c = reverseSolidus ∨ c = '/' then some (c, src)
    else if c = 'b' then some ('\x08', src)
    else if c = 't' then some ('\t', src)
    else if c = 'n' then some ('\n', src)
    else if c = 'f' then some ('\x0c', src)
    else if c = 'r' then some ('\r', src)
    else if c = 'u' then readUnicode src
    else none

/-- The rest of a string, of `n` characters at most. -/
def readString : ℕ → List Char → Option (List Char × List Char)
  | n + 1, c :: src =>
    if c = quotationMark then some ([], src)
    else if c = reverseSolidus then do
      let (c, src) ← readEscape src
      let (s, src) ← readString n src
      pure (c :: s, src)
    else if c.toNat < 32 then none
    else do
      let (s, src) ← readString n src
      pure (c :: s, src)
  | _, _ => none

def isSpace (c : Char) : Bool := c = ' ' || c = '\t' || c = '\n' || c = '\r'

def skipSpace (src : List Char) : List Char := src.dropWhile isSpace

def readWord (word : List Char) (value : Json) (src : List Char) : Option (Json × List Char) :=
  if src.take word.length = word then some (value, src.drop word.length) else none

/-- A name that comes again gets the later value. -/
def setField (name : String) (value : Json) : List (String × Json) → List (String × Json)
  | [] => [(name, value)]
  | (name', value') :: fields =>
    if name' = name then (name, value) :: fields else (name', value') :: setField name value fields

def lastFields (fields : List (String × Json)) : List (String × Json) :=
  fields.foldl (fun fields field => setField field.1 field.2 fields) []

mutual

/-- A value, nested `n` times at most. -/
def readValue : ℕ → List Char → Option (Json × List Char)
  | 0, _ => none
  | n + 1, src =>
    match skipSpace src with
    | [] => none
    | c :: src =>
      if c = quotationMark then do
        let (s, src) ← readString (src.length + 1) src
        pure (.str (String.ofList s), src)
      else if c = '[' then
        if (skipSpace src).head? = some ']' then some (.arr [], (skipSpace src).tail)
        else do
          let (elements, src) ← readElements n src
          pure (.arr elements, src)
      else if c = '{' then
        if (skipSpace src).head? = some '}' then some (.obj [], (skipSpace src).tail)
        else do
          let (fields, src) ← readFields n src
          pure (.obj (lastFields fields), src)
      else if c = 'n' then readWord "ull".toList .null src
      else if c = 't' then readWord "rue".toList (.bool true) src
      else if c = 'f' then readWord "alse".toList (.bool false) src
      else do
        let (number, src) ← readNumber (c :: src)
        pure (.num number, src)

def readElements : ℕ → List Char → Option (List Json × List Char)
  | 0, _ => none
  | n + 1, src => do
    let (element, src) ← readValue n src
    match skipSpace src with
    | ']' :: src => pure ([element], src)
    | ',' :: src => do
      let (elements, src) ← readElements n src
      pure (element :: elements, src)
    | _ => none

def readFields : ℕ → List Char → Option (List (String × Json) × List Char)
  | 0, _ => none
  | n + 1, src =>
    match skipSpace src with
    | [] => none
    | c :: src => do
      guard (c = quotationMark)
      let (name, src) ← readString (src.length + 1) src
      match skipSpace src with
      | ':' :: src => do
        let (value, src) ← readValue n src
        match skipSpace src with
        | '}' :: src => pure ([(String.ofList name, value)], src)
        | ',' :: src => do
          let (fields, src) ← readFields n src
          pure ((String.ofList name, value) :: fields, src)
        | _ => none
      | _ => none

end

/-- `JSON.parse`, unless it throws. -/
def Json.parse (text : String) : Option Json := do
  let (value, src) ← readValue text.length text.toList
  guard (skipSpace src = [])
  pure value

example : (Json.parse " [0.50, null,[ -1e2]] ").map Json.text = some "[0.5,null,[-100]]" := by
  decide +kernel

example : (Json.parse "[01]").map Json.text = none := by decide +kernel

/-! ## Strings are read back -/

theorem numberOf_control : ∀ n, n < 32 →
    numberOf (['0', '0', (n / 16).digitChar, (n % 16).digitChar].map Char.toLower) = n ∧
      ['0', '0', (n / 16).digitChar, (n % 16).digitChar].all isxdigit := by decide +kernel

theorem readEscape_control {n : ℕ} (hn : n < 32) (src : List Char) :
    readEscape ('u' :: '0' :: '0' :: (n / 16).digitChar :: (n % 16).digitChar :: src) =
      some (Char.ofNat n, src) := by
  obtain ⟨hvalue, hdigits⟩ := numberOf_control n hn
  have hunit : readUnit ('0' :: '0' :: (n / 16).digitChar :: (n % 16).digitChar :: src) =
      some (n, src) := by
    simp only [readUnit, hdigits, hvalue, if_true]
  show readUnicode _ = _
  unfold readUnicode
  rw [hunit]
  simp only [Option.bind_eq_bind, Option.bind_some]
  rw [if_neg (by omega), if_neg (by omega)]
  rfl

section

variable {n : ℕ} {src src' : List Char} {c : Char}

theorem readString_escape (h : readEscape src = some (c, src')) :
    readString (n + 1) (reverseSolidus :: src) =
      (readString n src').bind fun r => some (c :: r.1, r.2) := by
  rw [readString, if_neg (by decide), if_pos rfl, h]
  rfl

theorem readString_plain (hquotation : c ≠ quotationMark) (hsolidus : c ≠ reverseSolidus)
    (hcontrol : ¬ c.toNat < 32) : readString (n + 1) (c :: src) =
      (readString n src).bind fun r => some (c :: r.1, r.2) := by
  rw [readString, if_neg hquotation, if_neg hsolidus, if_neg hcontrol]
  rfl

end

/-- What is written for a character is read as it. -/
theorem readString_escaped (c : Char) (n : ℕ) (src : List Char) :
    readString (n + 1) (escaped c ++ src) =
      (readString n src).bind fun r => some (c :: r.1, r.2) := by
  unfold escaped
  split
  · rename_i hc
    exact readString_escape (if_pos (hc.imp_right Or.inl))
  split
  · subst_vars
    exact readString_escape rfl
  split
  · subst_vars
    exact readString_escape rfl
  split
  · subst_vars
    exact readString_escape rfl
  split
  · subst_vars
    exact readString_escape rfl
  split
  · subst_vars
    exact readString_escape rfl
  rename_i hc _ _ _ _ _
  obtain ⟨hquotation, hsolidus⟩ := not_or.mp hc
  split
  · rename_i hcontrol
    refine readString_escape ((readEscape_control hcontrol src).trans ?_)
    rw [Char.ofNat_toNat]
  · rename_i hcontrol
    exact readString_plain hquotation hsolidus hcontrol

theorem readString_quoted {cs : List Char} {n : ℕ} (h : cs.length < n) (src : List Char) :
    readString n (cs.flatMap escaped ++ quotationMark :: src) = some (cs, src) := by
  induction cs generalizing n with
  | nil =>
    obtain ⟨m, rfl⟩ := Nat.exists_eq_add_of_lt h
    rfl
  | cons c cs ih =>
    obtain ⟨m, rfl⟩ := Nat.exists_eq_add_of_lt h
    rw [List.flatMap_cons, List.append_assoc, readString_escaped, ih (by simp; omega)]
    rfl

theorem length_le_flatMap_escaped (cs : List Char) : cs.length ≤ (cs.flatMap escaped).length := by
  induction cs with
  | nil => exact Nat.le_refl _
  | cons c cs ih =>
    have hpos : 0 < (escaped c).length := by
      unfold escaped
      repeat' split
      all_goals simp
    rw [List.flatMap_cons, List.length_append, List.length_cons]
    omega

/-- The string at the head of a text. -/
theorem readString_text (s : String) (src : List Char) :
    readString ((s.toList.flatMap escaped ++ quotationMark :: src).length + 1)
      (s.toList.flatMap escaped ++ quotationMark :: src) = some (s.toList, src) := by
  have hlength := length_le_flatMap_escaped s.toList
  refine readString_quoted ?_ src
  rw [List.length_append]
  omega

/-! ## Values are read back -/

mutual

/-- A value that can be written: its numbers are decimal, and its names are different. -/
def Json.Writable : Json → Prop
  | .num n => IsDecimal n
  | .arr elements => ElementsWritable elements
  | .obj fields => (fields.map Prod.fst).Nodup ∧ FieldsWritable fields
  | _ => True

def ElementsWritable : List Json → Prop
  | [] => True
  | element :: elements => element.Writable ∧ ElementsWritable elements

def FieldsWritable : List (String × Json) → Prop
  | [] => True
  | (_, value) :: fields => value.Writable ∧ FieldsWritable fields

end

/-- What comes after a value in a text. -/
def ValueEnds (rest : List Char) : Prop :=
  ∀ c, rest.head? = some c → c = ',' ∨ c = ']' ∨ c = '}'

theorem ValueEnds.numberEnds {rest : List Char} (h : ValueEnds rest) : NumberEnds rest := by
  intro c hc
  obtain rfl | rfl | rfl := h c hc <;> decide

theorem elementsWritable_iff {elements : List Json} :
    ElementsWritable elements ↔ ∀ element ∈ elements, element.Writable := by
  induction elements with
  | nil => exact ⟨fun _ => nofun, fun _ => trivial⟩
  | cons element elements ih => rw [ElementsWritable, ih, List.forall_mem_cons]

theorem fieldsWritable_iff {fields : List (String × Json)} :
    FieldsWritable fields ↔ ∀ field ∈ fields, field.2.Writable := by
  induction fields with
  | nil => exact ⟨fun _ => nofun, fun _ => trivial⟩
  | cons field fields ih => rw [FieldsWritable, ih, List.forall_mem_cons]

theorem skipSpace_of_head {c : Char} {src : List Char} (h : isSpace c = false) :
    skipSpace (c :: src) = c :: src := by
  unfold skipSpace
  rw [List.dropWhile_cons, if_neg (by simp [h])]

theorem setField_of_not_mem {name : String} {value : Json} {fields : List (String × Json)}
    (h : name ∉ fields.map Prod.fst) : setField name value fields = fields ++ [(name, value)] := by
  induction fields with
  | nil => rfl
  | cons field fields ih =>
    obtain ⟨hne, h⟩ := List.ne_and_not_mem_of_not_mem_cons h
    unfold setField
    rw [if_neg (Ne.symm hne), ih h]
    rfl

theorem lastFields_of_nodup {fields : List (String × Json)} (h : (fields.map Prod.fst).Nodup) :
    lastFields fields = fields := by
  have hfold : ∀ read : List (String × Json), (read ++ fields).map Prod.fst |>.Nodup →
      fields.foldl (fun fields field => setField field.1 field.2 fields) read = read ++ fields := by
    clear h
    induction fields with
    | nil => exact fun read _ => (List.append_nil read).symm
    | cons field fields ih =>
      intro read hread
      have hnew : field.1 ∉ read.map Prod.fst := by
        rw [List.map_append, List.map_cons] at hread
        exact fun hmem => (List.nodup_append.mp hread).2.2 _ hmem _ List.mem_cons_self rfl
      rw [List.foldl_cons, setField_of_not_mem hnew, ih _ (by rwa [List.append_assoc]),
        List.append_assoc]
      rfl
  exact hfold [] h

/-- A number begins with none of the characters that other values begin with. -/
theorem numberChars_head {n : Num} (hn : IsDecimal n) : ∃ c cs, numberChars n = c :: cs ∧
    (c = '-' ∨ c.isDigit) := by
  obtain ⟨k, hk⟩ := Option.isSome_iff_exists.mp hn
  obtain ⟨c, digits, heq, hc⟩ := placedDigits_head k (n.num.natAbs * (10 ^ k / n.den))
  unfold numberChars
  simp only [hk]
  split
  · exact ⟨_, _, rfl, .inl rfl⟩
  · exact ⟨c, digits, heq, .inr hc⟩

theorem Json.chars_head {j : Json} (hj : j.Writable) :
    ∃ c cs, j.chars = c :: cs ∧ isSpace c = false ∧ c ≠ ']' := by
  match j with
  | .null | .bool true | .bool false => exact ⟨_, _, rfl, rfl, by decide⟩
  | .num n =>
    obtain ⟨c, cs, heq, hc⟩ := numberChars_head hj
    refine ⟨c, cs, heq, ?_, ?_⟩
    · obtain rfl | hc := hc
      · rfl
      · refine Bool.eq_false_iff.mpr fun hspace => ?_
        simp only [isSpace, Bool.or_eq_true, decide_eq_true_eq] at hspace
        obtain ((rfl | rfl) | rfl) | rfl := hspace <;> exact absurd hc (by decide)
    · rintro rfl
      obtain hc | hc := hc <;> exact absurd hc (by decide)
  | .str s => exact ⟨_, _, rfl, rfl, by decide⟩
  | .arr elements =>
    exact ⟨'[', elementChars elements ++ [']'], by rw [Json.chars]; rfl, rfl, by decide⟩
  | .obj fields =>
    exact ⟨'{', fieldChars fields ++ ['}'], by rw [Json.chars]; rfl, rfl, by decide⟩

section

variable {n : ℕ} {rest : List Char}

theorem readValue_num {q : Num} (hq : IsDecimal q) (h : ValueEnds rest) :
    readValue (n + 1) ((Json.num q).chars ++ rest) = some (.num q, rest) := by
  have hread := readNumber_numberChars hq h.numberEnds
  obtain ⟨c, cs, heq, hspace, -⟩ := Json.chars_head (j := .num q) hq
  obtain ⟨c', cs', heq', hc⟩ := numberChars_head hq
  rw [Json.chars] at heq
  obtain ⟨rfl, rfl⟩ := List.cons.inj (heq'.symm.trans heq)
  have hne : ∀ d : Char, d ≠ '-' → d.isDigit = false → c' ≠ d := by
    rintro d hminus hdigit rfl
    obtain hc | hc := hc
    · exact hminus hc
    · rw [hdigit] at hc
      cases hc
  rw [heq] at hread
  rw [Json.chars, heq, List.cons_append, readValue, skipSpace_of_head hspace]
  simp only [if_neg (hne quotationMark (by decide) rfl), if_neg (hne '[' (by decide) rfl),
    if_neg (hne '{' (by decide) rfl), if_neg (hne 'n' (by decide) rfl),
    if_neg (hne 't' (by decide) rfl), if_neg (hne 'f' (by decide) rfl)]
  rw [← List.cons_append, hread]
  rfl

theorem readValue_str (s : String) :
    readValue (n + 1) ((Json.str s).chars ++ rest) = some (.str s, rest) := by
  have hchars : (Json.str s).chars ++ rest =
      quotationMark :: (s.toList.flatMap escaped ++ quotationMark :: rest) := by
    simp [Json.chars, quoted]
  rw [hchars, readValue, skipSpace_of_head rfl]
  simp only [if_true, readString_text, Option.bind_eq_bind, Option.bind_some, String.ofList_toList]
  rfl

theorem readWord_append (word : List Char) (value : Json) :
    readWord word value (word ++ rest) = some (value, rest) := by
  unfold readWord
  rw [List.take_left, List.drop_left, if_pos rfl]

theorem readValue_arr {elements : List Json} (helements : ElementsWritable elements)
    (hread : elements ≠ [] →
      readElements n (elementChars elements ++ ']' :: rest) = some (elements, rest)) :
    readValue (n + 1) ((Json.arr elements).chars ++ rest) = some (.arr elements, rest) := by
  have hchars : (Json.arr elements).chars ++ rest =
      '[' :: (elementChars elements ++ ']' :: rest) := by
    simp [Json.chars]
  rw [hchars, readValue, skipSpace_of_head rfl]
  simp only [if_neg (show '[' ≠ quotationMark by decide), if_true]
  cases elements with
  | nil =>
    rw [elementChars, List.nil_append, skipSpace_of_head rfl]
    rfl
  | cons element elements =>
    obtain ⟨c, cs, heq, hspace, hne⟩ := Json.chars_head helements.1
    have hhead : (skipSpace (elementChars (element :: elements) ++ ']' :: rest)).head? ≠
        some ']' := by
      rw [elementChars, heq, List.cons_append, List.cons_append, skipSpace_of_head hspace]
      exact fun h => hne (Option.some.inj h)
    rw [if_neg hhead, hread (List.cons_ne_nil _ _)]
    rfl

theorem readValue_obj {fields : List (String × Json)} (hfields : (fields.map Prod.fst).Nodup)
    (hread : fields ≠ [] →
      readFields n (fieldChars fields ++ '}' :: rest) = some (fields, rest)) :
    readValue (n + 1) ((Json.obj fields).chars ++ rest) = some (.obj fields, rest) := by
  have hchars : (Json.obj fields).chars ++ rest =
      '{' :: (fieldChars fields ++ '}' :: rest) := by
    simp [Json.chars]
  rw [hchars, readValue, skipSpace_of_head rfl]
  simp only [if_neg (show '{' ≠ quotationMark by decide), if_neg (show '{' ≠ '[' by decide),
    if_true]
  cases fields with
  | nil =>
    rw [fieldChars, List.nil_append, skipSpace_of_head rfl]
    rfl
  | cons field fields =>
    have hhead : (skipSpace (fieldChars (field :: fields) ++ '}' :: rest)).head? ≠ some '}' := by
      rw [fieldChars, quoted, List.cons_append, List.cons_append, List.cons_append,
        List.cons_append, skipSpace_of_head rfl]
      exact fun h => absurd (Option.some.inj h) (by decide)
    rw [if_neg hhead, hread (List.cons_ne_nil _ _)]
    show some (Json.obj (lastFields _), rest) = _
    rw [lastFields_of_nodup hfields]

/-- One element, and those after it. -/
theorem readElements_cons {element : Json} {elements : List Json}
    (hvalue : ∀ rest, ValueEnds rest →
      readValue n (element.chars ++ rest) = some (element, rest))
    (hread : elements ≠ [] →
      readElements n (elementChars elements ++ ']' :: rest) = some (elements, rest)) :
    readElements (n + 1) (elementChars (element :: elements) ++ ']' :: rest) =
      some (element :: elements, rest) := by
  cases elements with
  | nil =>
    have hends : ValueEnds (']' :: rest) := fun c hc => .inr (.inl (Option.some.inj hc).symm)
    rw [elementChars, readElements, List.isEmpty_nil, if_pos rfl, List.append_nil, hvalue _ hends]
    simp only [Option.bind_eq_bind, Option.bind_some, skipSpace_of_head (c := ']') rfl]
    rfl
  | cons element' elements =>
    have hends : ∀ src, ValueEnds (',' :: src) := fun src c hc => .inl (Option.some.inj hc).symm
    rw [elementChars, readElements, List.isEmpty_cons, if_neg Bool.false_ne_true,
      List.append_assoc, List.cons_append, hvalue _ (hends _)]
    simp only [Option.bind_eq_bind, Option.bind_some, skipSpace_of_head (c := ',') rfl]
    rw [hread (List.cons_ne_nil _ _)]
    rfl

/-- One field, and those after it. -/
theorem readFields_cons {name : String} {value : Json} {fields : List (String × Json)}
    (hvalue : ∀ rest, ValueEnds rest → readValue n (value.chars ++ rest) = some (value, rest))
    (hread : fields ≠ [] →
      readFields n (fieldChars fields ++ '}' :: rest) = some (fields, rest)) :
    readFields (n + 1) (fieldChars ((name, value) :: fields) ++ '}' :: rest) =
      some ((name, value) :: fields, rest) := by
  have hchars : ∀ tail, quoted name ++ ':' :: value.chars ++ tail =
      quotationMark :: (name.toList.flatMap escaped ++ quotationMark ::
        ':' :: (value.chars ++ tail)) := fun tail => by
    simp [quoted]
  rw [fieldChars, List.append_assoc, hchars, readFields, skipSpace_of_head rfl]
  simp only [guard, if_true, readString_text, Option.bind_eq_bind, Option.bind_some,
    skipSpace_of_head (c := ':') rfl, String.ofList_toList]
  cases fields with
  | nil =>
    have hends : ValueEnds ('}' :: rest) := fun c hc => .inr (.inr (Option.some.inj hc).symm)
    rw [List.isEmpty_nil, if_pos rfl, List.nil_append, hvalue _ hends]
    simp only [Option.bind_some, skipSpace_of_head (c := '}') rfl]
    rfl
  | cons field fields =>
    have hends : ∀ src, ValueEnds (',' :: src) := fun src c hc => .inl (Option.some.inj hc).symm
    rw [List.isEmpty_cons, if_neg Bool.false_ne_true, List.cons_append, hvalue _ (hends _)]
    simp only [Option.bind_some, skipSpace_of_head (c := ',') rfl]
    rw [hread (List.cons_ne_nil _ _)]
    rfl

end

mutual

/-- The nesting of a value is below the length of its text. -/
theorem readValue_chars (j : Json) (hj : j.Writable) {n : ℕ} (hn : j.chars.length ≤ n)
    {rest : List Char} (h : ValueEnds rest) : readValue n (j.chars ++ rest) = some (j, rest) := by
  obtain ⟨c, cs, heq, -⟩ := Json.chars_head hj
  obtain ⟨n, rfl⟩ : ∃ m, n = m + 1 := ⟨n - 1, by rw [heq, List.length_cons] at hn; omega⟩
  match j, hj with
  | .null, _ => exact readWord_append "ull".toList .null
  | .bool true, _ => exact readWord_append "rue".toList (.bool true)
  | .bool false, _ => exact readWord_append "alse".toList (.bool false)
  | .num q, hq => exact readValue_num hq h
  | .str s, _ => exact readValue_str s
  | .arr elements, helements =>
    refine readValue_arr helements fun hne => readElements_chars elements helements hne ?_
    rw [Json.chars] at hn
    simp at hn
    omega
  | .obj fields, ⟨hnames, hfields⟩ =>
    refine readValue_obj hnames fun hne => readFields_chars fields hfields hne ?_
    rw [Json.chars] at hn
    simp at hn
    omega

theorem readElements_chars (elements : List Json) (helements : ElementsWritable elements)
    (hne : elements ≠ []) {n : ℕ} (hn : (elementChars elements).length < n) {rest : List Char} :
    readElements n (elementChars elements ++ ']' :: rest) = some (elements, rest) := by
  match elements, helements, n with
  | element :: elements, ⟨hvalue, helements⟩, n + 1 =>
    rw [elementChars, List.length_append] at hn
    refine readElements_cons (fun rest => readValue_chars element hvalue (by omega))
      fun hne => readElements_chars elements helements hne ?_
    rw [if_neg (by simpa using hne), List.length_cons] at hn
    omega

theorem readFields_chars (fields : List (String × Json)) (hfields : FieldsWritable fields)
    (hne : fields ≠ []) {n : ℕ} (hn : (fieldChars fields).length < n) {rest : List Char} :
    readFields n (fieldChars fields ++ '}' :: rest) = some (fields, rest) := by
  match fields, hfields, n with
  | (name, value) :: fields, ⟨hvalue, hfields⟩, n + 1 =>
    rw [fieldChars, List.length_append, List.length_append, List.length_cons] at hn
    refine readFields_cons (fun rest => readValue_chars value hvalue (by omega))
      fun hne => readFields_chars fields hfields hne ?_
    rw [if_neg (by simpa using hne), List.length_cons] at hn
    omega

end

/-- **What `JSON.stringify` writes, `JSON.parse` reads.** -/
theorem parse_text {j : Json} (hj : j.Writable) : Json.parse j.text = some j := by
  have hends : ValueEnds [] := fun c hc => by cases hc
  have hread := readValue_chars j hj (Nat.le_refl _) hends
  rw [List.append_nil] at hread
  unfold Json.parse Json.text
  rw [String.length_ofList, String.toList_ofList, hread]
  rfl

end Saganova
