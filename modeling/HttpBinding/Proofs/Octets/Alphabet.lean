import HttpBinding.Proofs.Octets.Percent

/-!
# The alphabet of encoded texts

Each encoding lets some marks stand for themselves beside the letters and digits of ASCII. What
it writes is spelled in these characters and in escapes with upper case digits. An escape is
longer than what it stands for, so that the texts in which every character may stand are just
the ones that are left as they are. Every text is read back, and so no two are written alike.
The marks are all that tells the encodings of names, paths and queries apart: what holds of an
encoding is shown once, for any marks of ASCII but the percent sign, and then applied to each.
-/

namespace HttpBinding.Percent

/-! ## Spelling -/

/-- The hexadecimal digits in upper case. -/
def upperDigits : List Char :=
  "0123456789ABCDEF".toList

/-- Whether a character is a letter or digit of ASCII, or one of the given marks. -/
def IsPlain (marks : String) (c : Char) : Prop :=
  c.isAlphanum = true ∨ c ∈ marks.toList

/-- A text that consists of plain characters and of escapes with upper case digits. -/
inductive IsSpelled (marks : String) : List Char → Prop where
  | nil : IsSpelled marks []
  | plain {c : Char} {rest : List Char} (hc : IsPlain marks c) (hrest : IsSpelled marks rest) :
      IsSpelled marks (c :: rest)
  | escape {high low : Char} {rest : List Char} (hhigh : high ∈ upperDigits)
      (hlow : low ∈ upperDigits) (hrest : IsSpelled marks rest) :
      IsSpelled marks ('%' :: high :: low :: rest)

theorem hexDigit_mem_upperDigits {n : Nat} (hn : n < 16) : hexDigit n ∈ upperDigits :=
  (by decide : ∀ n : Fin 16, hexDigit n ∈ upperDigits) ⟨n, hn⟩

theorem isPlain_append (marks others : String) (c : Char) :
    IsPlain (marks ++ others) c ↔ IsPlain marks c ∨ c ∈ others.toList := by
  unfold IsPlain
  rw [String.toList_append, List.mem_append, or_assoc]

/-- Letters and digits are those of ASCII only. -/
theorem isAscii_of_isAlphanum {c : Char} (hc : c.isAlphanum = true) : isAscii c = true := by
  refine decide_eq_true ?_
  rcases Bool.or_eq_true_iff.mp hc with hletter | hdigit
  · rcases Bool.or_eq_true_iff.mp hletter with hupper | hlower
    · have hbound : c.toNat ≤ 0x5A := (of_decide_eq_true hupper).2
      omega
    · have hbound : c.toNat ≤ 0x7A := of_decide_eq_true (Bool.and_eq_true_iff.mp hlower).2
      omega
  · have hbound : c.toNat ≤ 0x39 := of_decide_eq_true (Bool.and_eq_true_iff.mp hdigit).2
    omega

namespace IsSpelled

variable {marks : String}

theorem append {text text' : List Char} (htext : IsSpelled marks text)
    (htext' : IsSpelled marks text') : IsSpelled marks (text ++ text') := by
  induction htext with
  | nil => exact htext'
  | plain hc _ ih => exact .plain hc ih
  | escape hhigh hlow _ ih => exact .escape hhigh hlow ih

theorem flatMap {α : Type} {spell : α → List Char} {parts : List α}
    (hparts : ∀ part ∈ parts, IsSpelled marks (spell part)) :
    IsSpelled marks (parts.flatMap spell) := by
  induction parts with
  | nil => exact .nil
  | cons part parts ih =>
      rw [List.forall_mem_cons] at hparts
      rw [List.flatMap_cons]
      exact hparts.1.append (ih hparts.2)

theorem ofOctet (b : UInt8) : IsSpelled marks (Percent.escape b) := by
  have hlt : b.toNat < 256 := b.toNat_lt
  exact .escape (hexDigit_mem_upperDigits (by omega)) (hexDigit_mem_upperDigits (by omega)) .nil

end IsSpelled

/-! ## What an encoder writes -/

section Encoder

variable {safe : Char → Bool}

theorem encodeChar_kept {c : Char} (hc : (isAscii c && safe c) = true) :
    encodeChar safe c = [c] :=
  if_pos hc

theorem encodeChar_escaped {c : Char} (hc : (isAscii c && safe c) = false) :
    encodeChar safe c = (Utf8.encodeChar c).flatMap escape :=
  if_neg (Bool.eq_false_iff.mp hc)

theorem one_lt_length_encodeChar {c : Char} (hc : (isAscii c && safe c) = false) :
    1 < (encodeChar safe c).length := by
  obtain ⟨b, more, hoctets, -⟩ := Utf8.exists_lead c
  rw [encodeChar_escaped hc, hoctets, List.flatMap_cons, List.length_append]
  change 1 < 3 + _
  omega

variable (safe) in
theorem length_le_length_encodeBy (text : List Char) :
    text.length ≤ (encodeBy safe text).length := by
  induction text with
  | nil => exact le_rfl
  | cons c rest ih =>
      have hpos : 1 ≤ (encodeChar safe c).length := by
        cases hc : isAscii c && safe c with
        | true =>
            rw [encodeChar_kept hc]
            exact le_rfl
        | false => exact (one_lt_length_encodeChar hc).le
      change rest.length + 1 ≤ (encodeChar safe c ++ encodeBy safe rest).length
      rw [List.length_append]
      omega

/-- No rest makes up for the length of an escape, so just the texts of safe characters stay. -/
theorem encodeBy_eq_self_iff (text : List Char) :
    encodeBy safe text = text ↔ ∀ c ∈ text, (isAscii c && safe c) = true := by
  induction text with
  | nil => exact iff_of_true rfl (by simp)
  | cons c rest ih =>
      rw [List.forall_mem_cons, ← ih]
      change encodeChar safe c ++ encodeBy safe rest = c :: rest ↔ _
      cases hc : isAscii c && safe c with
      | true => simp [encodeChar_kept hc]
      | false =>
          refine iff_of_false (fun heq => ?_) fun hboth => Bool.false_ne_true hboth.1
          have hlength := congrArg List.length heq
          rw [List.length_append, List.length_cons] at hlength
          have hlong := one_lt_length_encodeChar hc
          have hrest := length_le_length_encodeBy safe rest
          omega

variable {marks : String} (hsafe : ∀ c, safe c = true ↔ IsPlain marks c)

include hsafe

theorem isSpelled_encodeBy (text : List Char) : IsSpelled marks (encodeBy safe text) := by
  refine IsSpelled.flatMap fun c _ => ?_
  cases hc : isAscii c && safe c with
  | true =>
      rw [encodeChar_kept hc]
      exact .plain ((hsafe c).mp (Bool.and_eq_true_iff.mp hc).2) .nil
  | false =>
      rw [encodeChar_escaped hc]
      exact IsSpelled.flatMap fun b _ => IsSpelled.ofOctet b

/-- Where the marks are ASCII, the characters that stay are the plain ones. -/
theorem isAscii_and_safe_iff (hascii : marks.toList.all isAscii = true) (c : Char) :
    (isAscii c && safe c) = true ↔ IsPlain marks c := by
  rw [Bool.and_eq_true_iff, hsafe c, and_iff_right_iff_imp]
  rintro (halphanum | hmark)
  · exact isAscii_of_isAlphanum halphanum
  · exact List.all_eq_true.mp hascii c hmark

end Encoder

/-! ## The encodings of names, paths and queries -/

/-- What there is to know of an encoding from the marks that it lets stand. -/
structure IsFaithful (marks : String) (encoding : String → String) : Prop where
  /-- It stays in its alphabet. -/
  spelled : ∀ text, IsSpelled marks (encoding text).toList
  /-- It leaves just the texts of plain characters as they are. -/
  kept : ∀ text, encoding text = text ↔ ∀ c ∈ text.toList, IsPlain marks c
  /-- What it writes is read back. -/
  decoded : ∀ text, decode (encoding text) = text
  /-- It writes no two texts alike. -/
  injective : Function.Injective encoding

theorem isFaithful_of {safe : Char → Bool} {marks : String} {encoding : String → String}
    (hsafe : ∀ c, safe c = true ↔ IsPlain marks c)
    (hascii : marks.toList.all isAscii = true) (hpercent : safe '%' = false)
    (hencoding : ∀ text, encoding text = String.ofList (encodeBy safe text.toList)) :
    IsFaithful marks encoding := by
  have hdecoded : ∀ text, decode (encoding text) = text := by
    intro text
    rw [hencoding, decode_ofList_encodeBy hpercent]
  constructor
  case spelled =>
    intro text
    rw [hencoding, String.toList_ofList]
    exact isSpelled_encodeBy hsafe text.toList
  case kept =>
    intro text
    simp only [← isAscii_and_safe_iff hsafe hascii]
    rw [← encodeBy_eq_self_iff, hencoding, ← String.toList_inj, String.toList_ofList]
  case decoded => exact hdecoded
  case injective => exact Function.LeftInverse.injective hdecoded

theorem isUnreserved_iff (c : Char) : isUnreserved c = true ↔ IsPlain "-._~" c := by
  change _ ↔ c.isAlphanum = true ∨ c ∈ ['-', '.', '_', '~']
  simp [isUnreserved, or_assoc]

theorem isPathSafe_iff (decodeSlash : Bool) (c : Char) :
    isPathSafe decodeSlash c = true ↔
      IsPlain ("-._~!$&'()*+,;=:@" ++ if decodeSlash then "/" else "") c := by
  have hmarks : "-._~!$&'()*+,;=:@" = "-._~" ++ "!$&'()*+,;=:@" := by decide
  rw [hmarks, isPlain_append, isPlain_append, ← isUnreserved_iff]
  unfold isPathSafe
  rw [Bool.or_eq_true, Bool.or_eq_true, List.contains_iff_mem]
  cases decodeSlash <;> simp

theorem isQuerySafe_iff (c : Char) : isQuerySafe c = true ↔ IsPlain "-._~!$'()*,;:@/?" c := by
  have hmarks : "-._~!$'()*,;:@/?" = "-._~" ++ "!$'()*,;:@/?" := by decide
  rw [hmarks, isPlain_append, ← isUnreserved_iff]
  unfold isQuerySafe
  rw [Bool.or_eq_true, List.contains_iff_mem]

/--
Names, path values and query values are written in the alphabets of their marks, and every text
is read back from what it is written as. In a path the slash is a mark where it may stand.
-/
theorem encodings_areFaithful :
    IsFaithful "-._~" encode ∧
      (∀ decodeSlash, IsFaithful ("-._~!$&'()*+,;=:@" ++ if decodeSlash then "/" else "")
        (encodePath decodeSlash)) ∧
      IsFaithful "-._~!$'()*,;:@/?" encodeQuery := by
  refine ⟨?names, ?paths, ?queries⟩
  case names => exact isFaithful_of isUnreserved_iff rfl rfl fun _ => rfl
  case paths =>
    intro decodeSlash
    refine isFaithful_of (isPathSafe_iff decodeSlash) ?_ ?_ fun _ => rfl
    · cases decodeSlash <;> rfl
    · cases decodeSlash <;> rfl
  case queries => exact isFaithful_of isQuerySafe_iff rfl rfl fun _ => rfl

/-- A letter of two octets takes two escapes, and a percent sign does not pass for an escape. -/
example : encode "a b/%é~" = "a%20b%2F%25%C3%A9~" := by decide

end HttpBinding.Percent
