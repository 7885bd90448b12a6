import HttpBinding.Number.Numeral
import Mathlib.Data.List.Basic

/-!
# Words of digits

A word may be made of digits and still be no integer numeral: superscripts and circled digits
have no place in positional notation, and a numeral has a greatest length. Apart from
these two a word of digits of any script, or of several, is read as its value.
-/

namespace HttpBinding

open Text

/-! ## Characters -/

section Characters

variable {c : Char}

/-- No digit is a blank. -/
theorem isBlank_of_isDigit (hdigit : isDigit c = true) : isBlank c = false := by
  have hapart : ∀ range ∈ digitRanges, ∀ blank ∈ blankRanges,
      range.2 < blank.1 ∨ blank.2 < range.1 := by
    decide
  obtain ⟨range, hrange, hlow, hhigh⟩ := (CodeRanges.holds_iff _ c).mp hdigit
  rw [← Bool.not_eq_true]
  intro hblank
  obtain ⟨blank, hmem, hlow', hhigh'⟩ := (CodeRanges.holds_iff _ c).mp hblank
  have hcase := hapart range hrange blank hmem
  omega

/-- The digits in ASCII are those of positional notation. -/
theorem decimalDigit?_of_isDigit_of_lt (hdigit : isDigit c = true) (hascii : c.toNat < 0x7F) :
    decimalDigit? c = some (c.toNat - 0x30) ∧ 0x30 ≤ c.toNat ∧ c.toNat ≤ 0x39 := by
  have honly : ∀ range ∈ digitRanges, range.1 < 0x7F → range = (0x30, 0x39) := by
    decide
  obtain ⟨range, hrange, hlow, hhigh⟩ := (CodeRanges.holds_iff _ c).mp hdigit
  obtain rfl := honly range hrange (by omega)
  refine ⟨?_, hlow, hhigh⟩
  have hfirst : (decide (0x30 ≤ c.toNat) && decide (c.toNat < 0x30 + 10)) = true := by
    simp only [Bool.and_eq_true, decide_eq_true_eq]
    omega
  have hzeros : decimalZeros = 0x30 :: decimalZeros.tail := rfl
  rw [decimalDigit?, hzeros, List.find?_cons, hfirst]
  rfl

end Characters

namespace Number

/-- The digit of a value below ten. -/
def digitChar (value : Nat) : Char :=
  Char.ofNat (0x30 + value)

theorem digitChar_spec {value : Nat} (hvalue : value < 10) :
    (digitChar value).isDigit = true ∧ (digitChar value).toNat - 0x30 = value := by
  have hall : ∀ value < 10, (digitChar value).isDigit = true ∧
      (digitChar value).toNat - 0x30 = value := by
    decide
  exact hall value hvalue

/-- A digit stands for the ASCII digit of its value, or for nothing that a numeral has. -/
theorem numeralChar_of_isDigit {c : Char} (hdigit : isDigit c = true) :
    numeralChar c = match decimalDigit? c with
      | some value => digitChar value
      | none => '?' := by
  unfold numeralChar
  by_cases hascii : c.toNat < 0x7F
  · obtain ⟨hvalue, hlow, -⟩ := decimalDigit?_of_isDigit_of_lt hdigit hascii
    have hsum : 0x30 + (c.toNat - 0x30) = c.toNat := by omega
    rw [if_pos hascii, hvalue]
    simp only [digitChar, hsum, Char.ofNat_toNat]
  · rw [if_neg hascii, isBlank_of_isDigit hdigit, if_neg Bool.false_ne_true]
    rfl

/-! ## Words -/

section Words

variable {word chars : List Char}

/-- The value of a word of digits. A digit that is not positional counts as none. -/
def wordValue (word : List Char) : Nat :=
  word.foldl (fun value c => 10 * value + (decimalDigit? c).getD 0) 0

/-- Whether all digits of a word are those of positional notation. -/
def isPositional (word : List Char) : Bool :=
  word.all fun c => (decimalDigit? c).isSome

theorem trimBy_of_forall {α : Type} {drop : α → Bool} {items : List α}
    (hkept : ∀ item ∈ items, drop item = false) : trimBy drop items = items := by
  have hfront : ∀ kept : List α, (∀ item ∈ kept, drop item = false) → kept.dropWhile drop = kept := by
    intro kept hkept
    cases kept with
    | nil => rfl
    | cons first rest =>
        rw [List.dropWhile_cons, hkept first List.mem_cons_self, if_neg Bool.false_ne_true]
  unfold trimBy
  rw [hfront items hkept, hfront _ fun item hitem => hkept item (List.mem_reverse.mp hitem),
    List.reverse_reverse]

theorem dropUnderscores_of_forall (hplain : ∀ c ∈ chars, c ≠ '_') (afterDigit : Bool) :
    dropUnderscores afterDigit chars = some chars := by
  induction chars generalizing afterDigit with
  | nil => rfl
  | cons first rest ih =>
      have hfirst := hplain first List.mem_cons_self
      rw [dropUnderscores]
      · rw [if_neg hfirst, ih fun c hc => hplain c (List.mem_cons_of_mem _ hc)]
        rfl
      · rintro c others rfl
        exact absurd rfl hfirst

/-- What a digit stands for is neither a sign nor a blank nor an underscore. -/
theorem numeralChar_spec {c : Char} (hdigit : isDigit c = true) :
    numeralChar c ≠ '_' ∧ numeralChar c ≠ '-' ∧ numeralChar c ≠ '+' ∧
      isAsciiBlank (numeralChar c).toNat = false ∧
      (numeralChar c).isDigit = (decimalDigit? c).isSome := by
  have hchars : ∀ value < 10, digitChar value ≠ '_' ∧ digitChar value ≠ '-' ∧
      digitChar value ≠ '+' ∧ isAsciiBlank (digitChar value).toNat = false ∧
      (digitChar value).isDigit = true := by
    decide
  rw [numeralChar_of_isDigit hdigit]
  cases hvalue : decimalDigit? c with
  | none => decide
  | some value => exact hchars value (decimalDigit?_lt hvalue)

theorem digitsValue_map_numeralChar (hword : ∀ c ∈ word, isDigit c = true)
    (hpositional : isPositional word = true) :
    digitsValue (word.map numeralChar) = wordValue word := by
  unfold digitsValue wordValue
  rw [List.foldl_map]
  refine List.foldl_ext _ _ _ ?_
  intro value c hc
  obtain ⟨digit, hdigit⟩ := Option.isSome_iff_exists.mp (List.all_eq_true.mp hpositional c hc)
  rw [numeralChar_of_isDigit (hword c hc), hdigit]
  simp only [(digitChar_spec (decimalDigit?_lt hdigit)).2, Option.getD_some]

/-- A word of digits is an integer numeral if its digits are positional and not too many. -/
theorem readInt?_of_isDigits (hword : isDigits word = true) :
    readInt? (String.ofList word) =
      if isPositional word && decide (word.length ≤ maxDigits) then some (wordValue word : Int)
      else none := by
  unfold isDigits at hword
  rw [Bool.and_eq_true, Bool.not_eq_true', List.isEmpty_eq_false_iff, List.all_eq_true] at hword
  obtain ⟨hne, hdigits⟩ := hword
  have hspec : ∀ c ∈ word.map numeralChar, c ≠ '_' ∧ c ≠ '-' ∧ c ≠ '+' ∧
      isAsciiBlank c.toNat = false := by
    intro c hc
    obtain ⟨digit, hdigit, rfl⟩ := List.mem_map.mp hc
    obtain ⟨hunderscore, hminus, hplus, hblank, -⟩ := numeralChar_spec (hdigits digit hdigit)
    exact ⟨hunderscore, hminus, hplus, hblank⟩
  have htrim : numeralChars (String.ofList word) = word.map numeralChar := by
    unfold numeralChars
    rw [String.toList_ofList]
    exact trimBy_of_forall fun c hc => (hspec c hc).2.2.2
  have hsigned : signed (word.map numeralChar) = (false, word.map numeralChar) := by
    cases hnumeral : word.map numeralChar with
    | nil => rfl
    | cons first rest =>
        obtain ⟨-, hminus, hplus, -⟩ := hspec first (hnumeral ▸ List.mem_cons_self)
        unfold signed
        split <;> simp_all
  have hall : (word.map numeralChar).all Char.isDigit = isPositional word := by
    rw [List.all_map, isPositional, Bool.eq_iff_iff, List.all_eq_true, List.all_eq_true]
    refine forall₂_congr fun c hc => ?_
    rw [Function.comp_apply, (numeralChar_spec (hdigits c hc)).2.2.2.2]
  unfold readInt?
  rw [htrim, dropUnderscores_of_forall fun c hc => (hspec c hc).1]
  simp only [Option.bind_eq_bind, Option.bind_some, hsigned, hall, List.length_map,
    List.isEmpty_map, List.isEmpty_eq_false_iff.mpr hne]
  cases hpositional : isPositional word with
  | false => rfl
  | true =>
      rw [digitsValue_map_numeralChar hdigits hpositional]
      by_cases hlength : word.length ≤ maxDigits
      · simp [hlength, Nat.not_lt.mpr hlength]
      · simp [hlength, Nat.lt_of_not_le hlength]

end Words

end Number

end HttpBinding
