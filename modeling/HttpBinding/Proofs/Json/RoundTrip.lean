import HttpBinding.Json.Reader
import HttpBinding.Octets.Hex
import HttpBinding.Proofs.Octets.Utf8

/-!
# JSON that is written reads back

What is written of a value without fractions is read as the same value, unless a number
has more digits than the reader takes in or arrays and objects are nested too deep: then
nothing is read at all. The reader is shown to stop exactly where the written value ends,
whatever follows it, so that the statement for a value carries over to the items of an
array and the members of an object.
-/

namespace HttpBinding

/-! ## Numbers -/

namespace Number

theorem digitsValue_digits (n : Nat) : digitsValue (digits n) = n := by
  have hvalue := Nat.ofDigitChars_ten_toDigits (n := n)
  rw [Nat.ofDigitChars_eq_foldl] at hvalue
  exact hvalue

theorem isDigit_of_mem_digits {n : Nat} {c : Char} (hc : c ∈ digits n) : c.isDigit = true :=
  Nat.isDigit_of_mem_toDigits (by decide) (by decide) hc

theorem digits_ne_nil (n : Nat) : digits n ≠ [] :=
  Nat.toDigits_ne_nil

/-- Only zero is written with a zero in front. -/
theorem eq_zero_of_digits {n : Nat} {rest : List Char} (hzero : digits n = '0' :: rest) : n = 0 := by
  induction n using Nat.strongRecOn generalizing rest with
  | ind n ih =>
      unfold digits at hzero ih
      rw [Nat.toDigits_eq_if (by decide)] at hzero
      split at hzero
      next hsmall =>
        obtain ⟨hdigit, -⟩ := List.cons.inj hzero
        exact Nat.digitChar_eq_zero.mp hdigit
      next hlarge =>
        have hdivided : n / 10 = 0 := by
          cases hdigits : Nat.toDigits 10 (n / 10) with
          | nil => exact absurd hdigits Nat.toDigits_ne_nil
          | cons first others =>
              rw [hdigits] at hzero
              obtain ⟨rfl, -⟩ := List.cons.inj hzero
              exact ih (n / 10) (by omega) hdigits
        omega

end Number

namespace JsonValue

/-- Whether a number ends before a text. -/
def EndsNumber (rest : List Char) : Prop :=
  ∀ c ∈ rest.head?, c.isDigit = false ∧ c ≠ '.' ∧ c ≠ 'e' ∧ c ≠ 'E'

theorem takeWhile_digits {n : Nat} {rest : List Char} (hrest : EndsNumber rest) :
    (Number.digits n ++ rest).takeWhile Char.isDigit = Number.digits n := by
  rw [List.takeWhile_append_of_pos fun c hc => Number.isDigit_of_mem_digits hc]
  cases rest with
  | nil => simp
  | cons c others => simp [(hrest c rfl).1]

theorem readWhole?_digits {n : Nat} {rest : List Char} (hrest : EndsNumber rest) :
    readWhole? (Number.digits n ++ rest) = some (Number.digits n, rest) := by
  unfold readWhole?
  rw [takeWhile_digits hrest]
  split
  next hnil => exact absurd hnil (Number.digits_ne_nil n)
  next hzero => simp [hzero]
  next hne hzero =>
    -- Digits that begin with zero are those of zero, which are a single one.
    obtain rfl := Number.eq_zero_of_digits hzero
    exact absurd (List.cons.inj hzero).2.symm hne
  next => simp

theorem readUnsigned_digits {n : Nat} {rest : List Char} (negative : Bool)
    (hrest : EndsNumber rest) :
    readUnsigned negative (Number.digits n ++ rest) =
      if (Number.digits n).length ≤ Number.maxDigits then
        some (.int (if negative then -(n : Int) else n), rest)
      else none := by
  have hpart : readPart? rest = some (none, rest) := by
    unfold readPart?
    split
    next others => exact absurd rfl (hrest '.' rfl).2.1
    next => rfl
  have hexponent : readExponent? rest = some (none, rest) := by
    unfold readExponent?
    split
    next e others =>
      obtain ⟨-, -, hlower, hupper⟩ := hrest e rfl
      simp [hlower, hupper]
    next => rfl
  unfold readUnsigned
  rw [readWhole?_digits hrest]
  simp only [Option.bind_eq_bind, Option.bind_some, hpart, hexponent, Number.digitsValue_digits]
  by_cases hlength : (Number.digits n).length ≤ Number.maxDigits
  · rw [if_neg (by omega), if_pos hlength]
  · rw [if_pos (by omega), if_neg hlength]

/-! ## Strings -/

theorem fourHex?_hexDigits {n : Nat} (hn : n < 0x20) :
    fourHex? '0' '0' (Text.hexDigit (n / 16 % 16)) (Text.hexDigit (n % 16)) = some n := by
  have hzero : Percent.hexValue? '0' = some 0 := rfl
  have hvalue : ((0 * 16 + 0) * 16 + n / 16 % 16) * 16 + n % 16 = n := by omega
  unfold fourHex?
  rw [hzero, Hex.hexValue?_hexDigit (Nat.mod_lt _ (by decide)),
    Hex.hexValue?_hexDigit (Nat.mod_lt _ (by decide))]
  simp only [Option.bind_eq_bind, Option.bind_some]
  rw [hvalue]

theorem readString_plain {c : Char} (rest : List Char) (hquote : c ≠ '"') (hslash : c ≠ '\\')
    (hcontrol : ¬ c.toNat < 0x20) : readString (c :: rest) = consChar c (readString rest) := by
  rw [readString.eq_def]
  split
  case h_6 first others _ _ _ _ hmatch =>
    obtain ⟨rfl, rfl⟩ := List.cons.inj hmatch
    rw [if_neg hcontrol]
  all_goals simp_all

theorem readString_letter {c plain : Char} (rest : List Char) (hc : c ≠ 'u')
    (hplain : escaped? c = some plain) :
    readString ('\\' :: c :: rest) = consChar plain (readString rest) := by
  rw [readString.eq_def]
  split
  case h_6 first others _ hletter _ hmatch =>
    obtain ⟨rfl, rfl⟩ := List.cons.inj hmatch
    exact absurd rfl (hletter c rest rfl)
  all_goals simp_all

theorem readString_hexDigits {c : Char} (rest : List Char) (hc : c.toNat < 0x20) :
    readString ('\\' :: 'u' :: '0' :: '0' :: Text.hexDigit (c.toNat / 16 % 16) ::
      Text.hexDigit (c.toNat % 16) :: rest) = consChar c (readString rest) := by
  rw [readString, fourHex?_hexDigits hc]
  dsimp only
  rw [if_neg (by simp; omega), if_neg (by simp; omega), Char.ofNat_toNat]

/-- One character is read back from what is written of it, and the rest is left. -/
theorem readString_writeChar (c : Char) (rest : List Char) :
    readString (writeChar c ++ rest) = consChar c (readString rest) := by
  unfold writeChar
  split
  next hc =>
    subst hc
    exact readString_letter rest (by decide) (by decide)
  split
  next hc =>
    subst hc
    exact readString_letter rest (by decide) (by decide)
  split
  next hc =>
    subst hc
    exact readString_letter rest (by decide) (by decide)
  split
  next hc =>
    subst hc
    exact readString_letter rest (by decide) (by decide)
  split
  next hc =>
    subst hc
    exact readString_letter rest (by decide) (by decide)
  split
  next hc =>
    have hback : c = Char.ofNat 0x08 := by rw [← hc, Char.ofNat_toNat]
    exact hback ▸ readString_letter rest (by decide) (by decide)
  split
  next hc =>
    have hfeed : c = Char.ofNat 0x0C := by rw [← hc, Char.ofNat_toNat]
    exact hfeed ▸ readString_letter rest (by decide) (by decide)
  split
  next hcontrol =>
    have hhigh : Text.hexDigit (c.toNat / 16 / 16 % 16) = '0' ∧
        Text.hexDigit (c.toNat / 16 / 16 / 16 % 16) = '0' := by
      have hsmall : c.toNat / 16 / 16 = 0 := by omega
      rw [hsmall]
      exact ⟨rfl, rfl⟩
    have hdigits : Text.hexDigits 4 c.toNat =
        ['0', '0', Text.hexDigit (c.toNat / 16 % 16), Text.hexDigit (c.toNat % 16)] := by
      simp [Text.hexDigits, hhigh]
    rw [hdigits]
    exact readString_hexDigits rest hcontrol
  next hquote hslash _ _ _ _ _ hcontrol => exact readString_plain rest hquote hslash hcontrol

theorem readString_write (chars rest : List Char) :
    readString (chars.flatMap writeChar ++ '"' :: rest) = some (chars, rest) := by
  induction chars with
  | nil => rw [List.flatMap_nil, List.nil_append, readString]
  | cons c others ih =>
      rw [List.flatMap_cons, List.append_assoc, readString_writeChar, ih]
      rfl

/-! ## Values -/

mutual

/-- Whether there is no fraction in a value. -/
def isExact : JsonValue → Bool
  | float _ => false
  | array items => areExact items
  | object members => haveExact members
  | _ => true

/-- Whether there is no fraction in several values. -/
def areExact : List JsonValue → Bool
  | [] => true
  | item :: rest => isExact item && areExact rest

/-- Whether there is no fraction in the values of members. -/
def haveExact : List (String × JsonValue) → Bool
  | [] => true
  | (_, value) :: rest => isExact value && haveExact rest

end

mutual

/-- Whether a value without fractions is one that the reader takes in at a depth of nesting. -/
def fits (depth : Nat) : JsonValue → Bool
  | int n => (Number.digits n.natAbs).length ≤ Number.maxDigits
  | array items => items.isEmpty || 0 < depth && allFit (depth - 1) items
  | object members => members.isEmpty || 0 < depth && membersFit (depth - 1) members
  | _ => true

/-- Whether the reader takes in several values. -/
def allFit (depth : Nat) : List JsonValue → Bool
  | [] => true
  | item :: rest => fits depth item && allFit depth rest

/-- Whether the reader takes in the values of members. -/
def membersFit (depth : Nat) : List (String × JsonValue) → Bool
  | [] => true
  | (_, value) :: rest => fits depth value && membersFit depth rest

end

/-- A character that is no blank and that an array does not end with. -/
def Opens (c : Char) : Prop :=
  0x20 < c.toNat ∧ c.toNat < 0x80 ∧ c ≠ ']'

instance (c : Char) : Decidable (Opens c) :=
  inferInstanceAs (Decidable (0x20 < c.toNat ∧ c.toNat < 0x80 ∧ c ≠ ']'))

theorem skip_cons {c : Char} (hc : 0x20 < c.toNat) (rest : List Char) : skip (c :: rest) = c :: rest := by
  have hblank : isBlank c = false := by
    have hne : ∀ blank : Char, blank.toNat ≤ 0x20 → c ≠ blank := by
      rintro blank hle rfl
      exact absurd hc (by omega)
    simp [isBlank, hne ' ' (by decide), hne '\t' (by decide), hne '\n' (by decide),
      hne '\r' (by decide)]
  rw [skip, List.dropWhile_cons_of_neg (by simp [hblank])]

theorem opens_digit {c : Char} (hc : c.isDigit = true) : Opens c := by
  have hbounds : 0x30 ≤ c.toNat ∧ c.toNat ≤ 0x39 := by
    simpa [Char.isDigit, UInt32.le_iff_toNat_le] using hc
  refine ⟨by omega, by omega, ?_⟩
  rintro rfl
  exact absurd hbounds (by decide)

theorem toList_intText (n : Int) :
    (Number.intText n).toList =
      if n < 0 then '-' :: Number.digits n.natAbs else Number.digits n.natAbs := by
  unfold Number.intText Number.natText
  split <;> simp

/-- The text of a value begins with what is no blank. -/
theorem exists_write_eq_cons {j : JsonValue} (hexact : isExact j = true) :
    ∃ c chars, write j = c :: chars ∧ Opens c := by
  cases j with
  | null => exact ⟨'n', _, rfl, by decide⟩
  | bool b =>
      cases b
      · exact ⟨'f', _, rfl, by decide⟩
      · exact ⟨'t', _, rfl, by decide⟩
  | int n =>
      rw [write, toList_intText]
      split
      next => exact ⟨'-', _, rfl, by decide⟩
      next =>
        cases hdigits : Number.digits n.natAbs with
        | nil => exact absurd hdigits (Number.digits_ne_nil _)
        | cons c chars =>
            have hc : c ∈ Number.digits n.natAbs := hdigits ▸ List.mem_cons_self
            exact ⟨c, chars, rfl, opens_digit (Number.isDigit_of_mem_digits hc)⟩
  | float x => cases hexact
  | text s => exact ⟨'"', _, rfl, by decide⟩
  | array items => cases items <;> exact ⟨'[', _, rfl, by decide⟩
  | object members => cases members <;> exact ⟨'\x7b', _, rfl, by decide⟩

theorem endsNumber_nil : EndsNumber [] := by
  rintro c ⟨⟩

theorem endsNumber_cons {c : Char} (hdigit : c.isDigit = false) (hmarks : c ∉ ['.', 'e', 'E'])
    (rest : List Char) : EndsNumber (c :: rest) := by
  intro d hd
  obtain rfl : c = d := by simpa using hd
  simp only [List.mem_cons, List.not_mem_nil, or_false, not_or] at hmarks
  exact ⟨hdigit, hmarks⟩

theorem endsNumber_writeRest (items : List JsonValue) (rest : List Char) :
    EndsNumber (writeRest items ++ ']' :: rest) := by
  cases items <;> exact endsNumber_cons (by decide) (by decide) _

theorem endsNumber_writeMembers (members : List (String × JsonValue)) (rest : List Char) :
    EndsNumber (writeMembers members ++ '\x7d' :: rest) := by
  cases members <;> exact endsNumber_cons (by decide) (by decide) _

theorem readNumber_intText (n : Int) {rest : List Char} (hrest : EndsNumber rest) :
    readNumber ((Number.intText n).toList ++ rest) =
      if (Number.digits n.natAbs).length ≤ Number.maxDigits then some (.int n, rest) else none := by
  obtain ⟨d, ds, hdigits⟩ : ∃ d ds, Number.digits n.natAbs = d :: ds :=
    List.exists_cons_of_ne_nil (Number.digits_ne_nil _)
  have hd : d.isDigit = true :=
    Number.isDigit_of_mem_digits (n := n.natAbs) (hdigits ▸ List.mem_cons_self)
  have hletter : ∀ c : Char, c.isDigit = false → d ≠ c := by
    rintro c hc rfl
    exact Bool.false_ne_true (hc.symm.trans hd)
  rw [toList_intText]
  by_cases hnegative : n < 0
  · have hread : readNumber ('-' :: Number.digits n.natAbs ++ rest) =
        readUnsigned true (Number.digits n.natAbs ++ rest) := by
      rw [hdigits]
      unfold readNumber
      split <;> simp_all
    have hvalue : -(n.natAbs : Int) = n := by omega
    rw [if_pos hnegative, hread, readUnsigned_digits true hrest, if_pos rfl, hvalue]
  · have hread : readNumber (Number.digits n.natAbs ++ rest) =
        readUnsigned false (Number.digits n.natAbs ++ rest) := by
      rw [hdigits]
      unfold readNumber
      split <;> simp_all
    have hvalue : (n.natAbs : Int) = n := by omega
    rw [if_neg hnegative, hread, readUnsigned_digits false hrest, if_neg Bool.false_ne_true, hvalue]

/-- What begins like a number is read as one. -/
theorem readValue_number {c : Char} (fuel depth : Nat) (chars : List Char)
    (hc : c = '-' ∨ c.isDigit = true) :
    readValue (fuel + 1) depth (c :: chars) = readNumber (c :: chars) := by
  have hopens : Opens c := by
    rcases hc with rfl | hdigit
    · decide
    · exact opens_digit hdigit
  have hletter : ∀ letter : Char, letter ≠ '-' → letter.isDigit = false → c ≠ letter := by
    rintro letter hne hnone rfl
    rcases hc with rfl | hdigit
    · exact hne rfl
    · exact Bool.false_ne_true (hnone.symm.trans hdigit)
  rw [readValue, skip_cons hopens.1]
  split
  next hmatch => exact absurd (List.cons.inj hmatch).1 (hletter 'n' (by decide) (by decide))
  next hmatch => exact absurd (List.cons.inj hmatch).1 (hletter 't' (by decide) (by decide))
  next hmatch => exact absurd (List.cons.inj hmatch).1 (hletter 'f' (by decide) (by decide))
  next hmatch => exact absurd (List.cons.inj hmatch).1 (hletter '"' (by decide) (by decide))
  next hmatch => exact absurd (List.cons.inj hmatch).1 (hletter '[' (by decide) (by decide))
  next hmatch => exact absurd (List.cons.inj hmatch).1 (hletter '\x7b' (by decide) (by decide))
  next => rfl

theorem readValue_int (n : Int) (fuel depth : Nat) {rest : List Char} (hrest : EndsNumber rest) :
    readValue (fuel + 1) depth ((Number.intText n).toList ++ rest) =
      if (Number.digits n.natAbs).length ≤ Number.maxDigits then some (.int n, rest) else none := by
  rw [← readNumber_intText n hrest, toList_intText]
  split
  next => exact readValue_number fuel depth _ (Or.inl rfl)
  next =>
    cases hdigits : Number.digits n.natAbs with
    | nil => exact absurd hdigits (Number.digits_ne_nil _)
    | cons c chars =>
        have hc : c.isDigit = true :=
          Number.isDigit_of_mem_digits (n := n.natAbs) (hdigits ▸ List.mem_cons_self)
        exact readValue_number fuel depth _ (Or.inr hc)

theorem readValue_text (s : String) (fuel depth : Nat) (rest : List Char) :
    readValue (fuel + 1) depth (writeText s ++ rest) = some (.text s, rest) := by
  have hquote : writeText s ++ rest = '"' :: (s.toList.flatMap writeChar ++ '"' :: rest) := by
    simp [writeText]
  have hread : ∀ chars, readValue (fuel + 1) depth ('"' :: chars) =
      (readString chars).map fun found => (.text (String.ofList found.1), found.2) := by
    intro chars
    rw [readValue, skip_cons (by decide)]
    cases hfound : readString chars <;> simp [hfound]
  rw [hquote, hread, readString_write]
  simp

/-- Reads the items of an array that is not empty. -/
theorem readValue_array {c : Char} (fuel depth : Nat) (chars : List Char) (hc : Opens c) :
    readValue (fuel + 1) depth ('[' :: c :: chars) =
      if 0 < depth then
        (readItems fuel (depth - 1) (c :: chars)).map fun found => (.array found.1, found.2)
      else none := by
  rw [readValue, skip_cons (by decide)]
  simp only [skip_cons hc.1]
  split
  next hmatch => exact absurd (List.cons.inj hmatch).1 hc.2.2
  next => rfl
  next _ depth _ =>
    rw [if_pos (Nat.succ_pos depth), Nat.succ_sub_one]
    cases readItems fuel depth (c :: chars) <;> rfl

/-- Reads the members of an object that is not empty. -/
theorem readValue_object (fuel depth : Nat) (chars : List Char) :
    readValue (fuel + 1) depth ('\x7b' :: '"' :: chars) =
      if 0 < depth then
        (readMembers fuel (depth - 1) ('"' :: chars)).map fun found => (.object found.1, found.2)
      else none := by
  rw [readValue, skip_cons (by decide)]
  simp only [skip_cons (show 0x20 < '"'.toNat by decide)]
  cases depth with
  | zero => rfl
  | succ depth =>
      rw [if_pos (Nat.succ_pos depth), Nat.succ_sub_one]
      cases hfound : readMembers fuel depth ('"' :: chars) <;> simp [hfound]

theorem readItems_cons {item : JsonValue} {chars rest : List Char} {fuel depth : Nat}
    (hitem : readValue fuel depth chars = some (item, ',' :: rest)) :
    readItems (fuel + 1) depth chars =
      (readItems fuel depth rest).map fun found => (item :: found.1, found.2) := by
  rw [readItems, hitem]
  simp only [skip_cons (show 0x20 < ','.toNat by decide)]
  cases readItems fuel depth rest <;> rfl

theorem readItems_last {item : JsonValue} {chars rest : List Char} {fuel depth : Nat}
    (hitem : readValue fuel depth chars = some (item, ']' :: rest)) :
    readItems (fuel + 1) depth chars = some ([item], rest) := by
  rw [readItems, hitem]
  simp only [skip_cons (show 0x20 < ']'.toNat by decide)]

section Members

variable {name : String} {value : JsonValue} {chars rest : List Char} {fuel depth : Nat}

theorem writeText_append (name : String) (chars : List Char) :
    writeText name ++ ':' :: chars =
      '"' :: (name.toList.flatMap writeChar ++ '"' :: ':' :: chars) := by
  simp [writeText]

theorem readMembers_none (hvalue : readValue fuel depth chars = none) :
    readMembers (fuel + 1) depth (writeText name ++ ':' :: chars) = none := by
  rw [writeText_append, readMembers, skip_cons (by decide)]
  simp only [readString_write, skip_cons (show 0x20 < ':'.toNat by decide), hvalue]

theorem readMembers_cons (hvalue : readValue fuel depth chars = some (value, ',' :: rest)) :
    readMembers (fuel + 1) depth (writeText name ++ ':' :: chars) =
      (readMembers fuel depth rest).map fun found => ((name, value) :: found.1, found.2) := by
  rw [writeText_append, readMembers, skip_cons (by decide)]
  simp only [readString_write, skip_cons (show 0x20 < ':'.toNat by decide), hvalue,
    skip_cons (show 0x20 < ','.toNat by decide), String.ofList_toList]
  cases readMembers fuel depth rest <;> rfl

theorem readMembers_last (hvalue : readValue fuel depth chars = some (value, '\x7d' :: rest)) :
    readMembers (fuel + 1) depth (writeText name ++ ':' :: chars) = some ([(name, value)], rest) := by
  rw [writeText_append, readMembers, skip_cons (by decide)]
  simp only [readString_write, skip_cons (show 0x20 < ':'.toNat by decide), hvalue,
    skip_cons (show 0x20 < '\x7d'.toNat by decide), String.ofList_toList]

end Members

mutual

/--
What is written of a value is read up to where it ends, whatever comes next. Reading takes at
most as many steps as there are characters.
-/
theorem readValue_write : ∀ (j : JsonValue) (fuel depth : Nat) (rest : List Char),
    isExact j = true → (write j).length ≤ fuel → EndsNumber rest →
      readValue fuel depth (write j ++ rest) = if fits depth j then some (j, rest) else none
  | .null, fuel + 1, depth, rest, _, _, _ => by
      rw [write, readValue]
      rfl
  | .bool true, fuel + 1, depth, rest, _, _, _ => by
      rw [write, readValue]
      rfl
  | .bool false, fuel + 1, depth, rest, _, _, _ => by
      rw [write, readValue]
      rfl
  | .int n, fuel + 1, depth, rest, _, _, hrest => by
      rw [write, readValue_int n fuel depth hrest, fits]
      simp
  | .text s, fuel + 1, depth, rest, _, _, _ => by
      rw [write, readValue_text]
      rfl
  | .array [], fuel + 1, depth, rest, _, _, _ => by
      rw [write, readValue]
      rfl
  | .array (item :: items), fuel + 1, depth, rest, hexact, hfuel, _ => by
      obtain ⟨hitem, hitems⟩ : isExact item = true ∧ areExact items = true := by
        simpa [isExact, areExact] using hexact
      obtain ⟨c, chars, hwrite, hopens⟩ := exists_write_eq_cons hitem
      have hlength : (write item ++ writeRest items).length + 1 ≤ fuel := by
        simp only [write, List.length_append, List.length_singleton] at hfuel ⊢
        omega
      have hread := readItems_write (item :: items) (write item ++ writeRest items) fuel (depth - 1)
        rest rfl hexact hlength
      have htext : write (.array (item :: items)) ++ rest =
          '[' :: c :: (chars ++ writeRest items ++ ']' :: rest) := by
        simp [write, hwrite]
      have hsame : c :: (chars ++ writeRest items ++ ']' :: rest) =
          write item ++ writeRest items ++ ']' :: rest := by
        simp [hwrite]
      rw [htext, readValue_array fuel depth _ hopens, hsame, hread, fits]
      by_cases hdepth : 0 < depth <;> cases allFit (depth - 1) (item :: items) <;> simp [hdepth]
  | .object [], fuel + 1, depth, rest, _, _, _ => by
      rw [write, readValue]
      rfl
  | .object ((name, value) :: members), fuel + 1, depth, rest, hexact, hfuel, _ => by
      have hlength : (writeText name ++ ':' :: (write value ++ writeMembers members)).length + 1 ≤
          fuel := by
        simp only [write, List.length_append, List.length_cons, List.length_nil] at hfuel ⊢
        omega
      have hread := readMembers_write ((name, value) :: members)
        (writeText name ++ ':' :: (write value ++ writeMembers members)) fuel (depth - 1) rest
        (by simp [writeMembers]) hexact hlength
      have htext : write (.object ((name, value) :: members)) ++ rest =
          '\x7b' :: '"' :: (name.toList.flatMap writeChar ++ '"' :: ':' ::
            (write value ++ writeMembers members ++ '\x7d' :: rest)) := by
        simp [write, writeText]
      have hsame : '"' :: (name.toList.flatMap writeChar ++ '"' :: ':' ::
            (write value ++ writeMembers members ++ '\x7d' :: rest)) =
          writeText name ++ ':' :: (write value ++ writeMembers members) ++ '\x7d' :: rest := by
        simp [writeText]
      rw [htext, readValue_object, hsame, hread, fits]
      by_cases hdepth : 0 < depth <;>
        cases membersFit (depth - 1) ((name, value) :: members) <;> simp [hdepth]
  | j, 0, depth, rest, hexact, hfuel, _ => by
      obtain ⟨c, chars, hwrite, -⟩ := exists_write_eq_cons hexact
      rw [hwrite] at hfuel
      exact absurd hfuel (Nat.not_succ_le_zero _)

theorem readItems_write : ∀ (items : List JsonValue) (chars : List Char) (fuel depth : Nat)
    (rest : List Char), writeRest items = ',' :: chars → areExact items = true →
      chars.length + 1 ≤ fuel →
      readItems fuel depth (chars ++ ']' :: rest) =
        if allFit depth items then some (items, rest) else none
  | item :: items, chars, fuel + 1, depth, rest, hwrite, hexact, hfuel => by
      obtain ⟨hitem, hitems⟩ : isExact item = true ∧ areExact items = true := by
        simpa [areExact] using hexact
      obtain rfl : write item ++ writeRest items = chars := (List.cons.inj hwrite).2
      rw [List.length_append] at hfuel
      have hread := readValue_write item fuel depth (writeRest items ++ ']' :: rest) hitem
        (by omega) (endsNumber_writeRest items rest)
      rw [List.append_assoc, allFit]
      cases hfit : fits depth item with
      | false =>
          rw [hfit] at hread
          rw [readItems, hread]
          rfl
      | true =>
          rw [hfit] at hread
          match items with
          | [] => exact readItems_last hread
          | next :: more =>
              have hmore := readItems_write (next :: more) (write next ++ writeRest more) fuel depth
                rest rfl hitems (by simp only [writeRest, List.length_append,
                  List.length_singleton] at hfuel ⊢; omega)
              have hnext : writeRest (next :: more) ++ ']' :: rest =
                  ',' :: (write next ++ writeRest more ++ ']' :: rest) := rfl
              rw [hnext] at hread ⊢
              rw [readItems_cons hread, hmore]
              cases allFit depth (next :: more) <;> rfl

theorem readMembers_write : ∀ (members : List (String × JsonValue)) (chars : List Char)
    (fuel depth : Nat) (rest : List Char), writeMembers members = ',' :: chars →
      haveExact members = true → chars.length + 1 ≤ fuel →
      readMembers fuel depth (chars ++ '\x7d' :: rest) =
        if membersFit depth members then some (members, rest) else none
  | (name, value) :: members, chars, fuel + 1, depth, rest, hwrite, hexact, hfuel => by
      obtain ⟨hvalue, hmembers⟩ : isExact value = true ∧ haveExact members = true := by
        simpa [haveExact] using hexact
      obtain rfl : writeText name ++ ':' :: (write value ++ writeMembers members) = chars := by
        simpa [writeMembers] using hwrite
      simp only [List.length_append, List.length_cons] at hfuel
      have hread := readValue_write value fuel depth (writeMembers members ++ '\x7d' :: rest) hvalue
        (by omega) (endsNumber_writeMembers members rest)
      rw [List.append_assoc, List.cons_append, List.append_assoc, membersFit]
      cases hfit : fits depth value with
      | false =>
          rw [hfit] at hread
          exact readMembers_none hread
      | true =>
          rw [hfit] at hread
          match members with
          | [] => exact readMembers_last hread
          | (next, other) :: more =>
              have hmore := readMembers_write ((next, other) :: more)
                (writeText next ++ ':' :: (write other ++ writeMembers more)) fuel depth rest
                (by simp [writeMembers]) hmembers (by simp only [writeMembers, List.length_append,
                  List.length_cons, List.length_nil] at hfuel ⊢; omega)
              have hnext : writeMembers ((next, other) :: more) ++ '\x7d' :: rest =
                  ',' :: (writeText next ++ ':' :: (write other ++ writeMembers more) ++
                    '\x7d' :: rest) := by
                simp [writeMembers]
              rw [hnext] at hread ⊢
              rw [readMembers_cons hread, hmore]
              cases membersFit depth ((next, other) :: more) <;> rfl

end

/-- What is written of a value without fractions reads back, or not at all. -/
theorem read?_write {j : JsonValue} (hexact : isExact j = true) :
    read? (write j) = if fits maxDepth j then some j else none := by
  have hread := readValue_write j (2 * (write j).length + 2) maxDepth [] hexact (by omega)
    endsNumber_nil
  rw [List.append_nil] at hread
  unfold read?
  rw [hread]
  cases fits maxDepth j <;> rfl

/-- The octets that are written of a value read back in the same way. -/
theorem ofOctets?_write {j : JsonValue} (hexact : isExact j = true) :
    ofOctets? (Utf8.encode (write j)) = if fits maxDepth j then some j else none := by
  unfold ofOctets?
  rw [Utf8.decode?_encode, ← read?_write hexact]
  rfl

end JsonValue

end HttpBinding
