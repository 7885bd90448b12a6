import HttpBinding.Octets.Percent
import HttpBinding.Proofs.Octets.Utf8
import Mathlib.Data.List.TakeWhile

/-!
# Percent-encoding reads back

A text is decoded run by run, which is no different from decoding the octets that it
stands for as a whole, since a run ends where a character does. The octets of an encoded
text are those of the text before, and so it is decoded to that text. All that this takes
of the set of safe characters is that the percent sign is not one of them; the encodings
of names, paths and queries differ in nothing else.
-/

namespace HttpBinding.Percent

/-! ## Escapes -/

theorem hexValue?_hexDigit {n : Nat} (hn : n < 16) : hexValue? (hexDigit n) = some n :=
  (by decide : ∀ n : Fin 16, hexValue? (hexDigit n) = some n.val) ⟨n, hn⟩

theorem octets_escape_append (b : UInt8) (rest : List Char) :
    octets (escape b ++ rest) = b :: octets rest := by
  have hlt : b.toNat < 256 := b.toNat_lt
  have hhigh : hexValue? (hexDigit (b.toNat / 16)) = some (b.toNat / 16) :=
    hexValue?_hexDigit (by omega)
  have hlow : hexValue? (hexDigit (b.toNat % 16)) = some (b.toNat % 16) :=
    hexValue?_hexDigit (by omega)
  have hvalue : b.toNat / 16 * 16 + b.toNat % 16 = b.toNat := by omega
  change octets ('%' :: hexDigit (b.toNat / 16) :: hexDigit (b.toNat % 16) :: rest) = _
  rw [octets, hhigh, hlow]
  dsimp only
  rw [hvalue, Nat.toUInt8, UInt8.ofNat_toNat]

theorem octets_escapes_append (bytes : Octets) (rest : List Char) :
    octets (bytes.flatMap escape ++ rest) = bytes ++ octets rest := by
  induction bytes with
  | nil => rfl
  | cons b bytes ih =>
      rw [List.flatMap_cons, List.append_assoc, octets_escape_append, ih]
      rfl

/-- A character that is no percent sign stands for itself. -/
theorem octets_cons {c : Char} (hc : c ≠ '%') (rest : List Char) :
    octets (c :: rest) = Utf8.encodeChar c ++ octets rest := by
  rw [octets]
  · intro a b rest heq
    exact fun _ => hc heq

/-! ## Runs of octets -/

theorem hexValue?_of_not_ascii {c : Char} (hc : isAscii c = false) : hexValue? c = none := by
  have hhigh : 0x80 ≤ c.toNat := by simpa [isAscii] using hc
  unfold hexValue?
  dsimp only
  rw [if_neg (by simp; omega), if_neg (by simp; omega), if_neg (by simp; omega)]

/-- A percent sign that opens no escape stands for itself. -/
theorem octets_percent {text : List Char}
    (hnone : ∀ a b more, text = a :: b :: more → hexValue? a = none ∨ hexValue? b = none) :
    octets ('%' :: text) = 0x25 :: octets text := by
  match text with
  | [] => rfl
  | [_] => rfl
  | a :: b :: more =>
    rw [octets]
    split
    next high low ha hb =>
      rcases hnone a b more rfl with hvalue | hvalue
      · rw [hvalue] at ha
        cases ha
      · rw [hvalue] at hb
        cases hb
    next => rfl

/-- A character that is not ASCII ends what escapes stand for before it. -/
theorem octets_append_cons {c : Char} (hc : isAscii c = false) (run rest : List Char) :
    octets (run ++ c :: rest) = octets run ++ octets (c :: rest) := by
  have hvalue : hexValue? c = none := hexValue?_of_not_ascii hc
  fun_induction octets run
  case case1 => rfl
  case case2 a b run high low hb ha ih =>
    change octets ('%' :: a :: b :: (run ++ c :: rest)) = _
    rw [octets, ha, hb]
    exact congrArg _ ih
  case case3 a b run hnone ih =>
    have hrest : ∀ a' b' more, a :: b :: run ++ c :: rest = a' :: b' :: more →
        hexValue? a' = none ∨ hexValue? b' = none := by
      rintro a' b' more ⟨⟩
      by_contra hboth
      rw [not_or, ← ne_eq, ← ne_eq, Option.ne_none_iff_exists', Option.ne_none_iff_exists'] at hboth
      obtain ⟨⟨high, ha⟩, low, hb⟩ := hboth
      exact hnone high low ha hb
    change octets ('%' :: (a :: b :: run ++ c :: rest)) = _
    rw [octets_percent hrest, ih]
    rfl
  case case4 first run hplain ih =>
    by_cases hfirst : first = '%'
    · -- Fewer than two characters are left for an escape, and the next one is no digit.
      subst hfirst
      have hrest : ∀ a b more, run ++ c :: rest = a :: b :: more →
          hexValue? a = none ∨ hexValue? b = none := by
        rintro a b more heq
        match run, hplain with
        | [], _ =>
          obtain rfl := (List.cons.inj heq).1
          exact Or.inl hvalue
        | [_], _ =>
          obtain rfl := (List.cons.inj (List.cons.inj heq).2).1
          exact Or.inr hvalue
        | a :: b :: run, hplain => exact (hplain a b run rfl rfl).elim
      rw [List.cons_append, octets_percent hrest, ih]
      rfl
    · rw [List.cons_append, octets_cons hfirst, ih, List.append_assoc]

/-- Decoding run by run is decoding as a whole, since a run ends where a character does. -/
theorem decodeChars_eq (text : List Char) : decodeChars text = Utf8.decode (octets text) := by
  have hpercent : ∀ {c}, isAscii c = false → c ≠ '%' := by
    rintro _ hc rfl
    cases hc
  fun_induction decodeChars text
  case case1 =>
    unfold octets Utf8.decode
    rw [Utf8.read]
    rfl
  case case2 c rest hascii ih =>
    rw [ih]
    cases htail : rest.dropWhile isAscii with
    | nil =>
        have hrun : rest.takeWhile isAscii = rest :=
          List.takeWhile_eq_self_iff.mpr (List.dropWhile_eq_nil_iff.mp htail)
        rw [hrun]
        simp [octets, Utf8.decode, Utf8.read]
    | cons d more =>
        have hd : isAscii d = false := by
          have hhead := List.head?_dropWhile_not isAscii rest
          rwa [htail] at hhead
        have hrest : c :: rest = (c :: rest.takeWhile isAscii) ++ d :: more := by
          rw [List.cons_append, ← htail, List.takeWhile_append_dropWhile]
        rw [hrest, octets_append_cons hd, octets_cons (hpercent hd)]
        unfold Utf8.decode
        rw [Utf8.read_append_encodeChar, List.map_append]
  case case3 c rest hascii ih =>
    rw [octets_cons (hpercent (Bool.eq_false_iff.mpr hascii)), ih]
    unfold Utf8.decode
    rw [Utf8.read_encodeChar_append]
    rfl

/-! ## Encoded texts -/

section Encoded

variable {safe : Char → Bool} (hpercent : safe '%' = false)

include hpercent in
theorem octets_encodeChar_append (c : Char) (rest : List Char) :
    octets (encodeChar safe c ++ rest) = Utf8.encodeChar c ++ octets rest := by
  unfold encodeChar
  split
  next hsafe =>
    have hc : c ≠ '%' := by
      rintro rfl
      rw [hpercent, Bool.and_false] at hsafe
      cases hsafe
    exact octets_cons hc rest
  next => exact octets_escapes_append _ rest

include hpercent in
theorem octets_encodeBy (text : List Char) : octets (encodeBy safe text) = Utf8.encode text := by
  induction text with
  | nil => rfl
  | cons c rest ih =>
      change octets (encodeChar safe c ++ encodeBy safe rest) = _
      rw [octets_encodeChar_append hpercent, ih]
      rfl

/-- What an encoded text consists of: its safe characters, percent signs and digits. -/
theorem mem_encodeBy {text : List Char} {c : Char} (hc : c ∈ encodeBy safe text) :
    (c ∈ text ∧ isAscii c = true ∧ safe c = true) ∨ c = '%' ∨ ∃ n < 16, c = hexDigit n := by
  obtain ⟨source, hsource, hc⟩ := List.mem_flatMap.mp hc
  unfold encodeChar at hc
  split at hc
  next hsafe =>
    rw [List.mem_singleton.mp hc]
    exact Or.inl ⟨hsource, Bool.and_eq_true_iff.mp hsafe⟩
  next =>
    obtain ⟨b, -, hc⟩ := List.mem_flatMap.mp hc
    have hlt : b.toNat < 256 := b.toNat_lt
    refine Or.inr ?_
    rcases List.mem_cons.mp hc with rfl | hc
    · exact Or.inl rfl
    rcases List.mem_cons.mp hc with rfl | hc
    · exact Or.inr ⟨_, by omega, rfl⟩
    · rw [List.mem_singleton.mp hc]
      exact Or.inr ⟨_, by omega, rfl⟩

/-- A mark that is not safe, or that the text does not hold, does not occur once it is encoded. -/
theorem not_mem_encodeBy_of {mark : Char} {text : List Char} (hkept : mark ∈ text → safe mark = false)
    (hmark : mark ≠ '%') (hdigit : hexValue? mark = none) : mark ∉ encodeBy safe text := by
  intro hmem
  rcases mem_encodeBy hmem with ⟨htext, -, hsafe⟩ | heq | ⟨n, hn, rfl⟩
  · rw [hkept htext] at hsafe
    cases hsafe
  · exact hmark heq
  · rw [hexValue?_hexDigit hn] at hdigit
    cases hdigit

/-- A mark that is not safe does not occur in an encoded text. -/
theorem not_mem_encodeBy {mark : Char} (hsafe : safe mark = false) (hmark : mark ≠ '%')
    (hdigit : hexValue? mark = none) (text : List Char) : mark ∉ encodeBy safe text :=
  not_mem_encodeBy_of (fun _ => hsafe) hmark hdigit

theorem not_mem_ofList_encodeBy {mark : Char} (hsafe : safe mark = false) (hmark : mark ≠ '%')
    (hdigit : hexValue? mark = none) (text : String) :
    mark ∉ (String.ofList (encodeBy safe text.toList)).toList := by
  rw [String.toList_ofList]
  exact not_mem_encodeBy hsafe hmark hdigit text.toList

/-! ## Decoding -/

include hpercent in
theorem decodeChars_encodeBy (text : List Char) : decodeChars (encodeBy safe text) = text := by
  rw [decodeChars_eq, octets_encodeBy hpercent, Utf8.decode_encode]

include hpercent in
theorem decode_ofList_encodeBy (text : String) :
    decode (String.ofList (encodeBy safe text.toList)) = text := by
  unfold decode
  rw [String.toList_ofList, decodeChars_encodeBy hpercent, String.ofList_toList]

end Encoded

theorem decode_encodeQuery (text : String) : decode (encodeQuery text) = text :=
  decode_ofList_encodeBy rfl text

@[simp]
theorem decode_encode (text : String) : decode (encode text) = text :=
  decode_ofList_encodeBy rfl text

theorem decode_encodePath (decodeSlash : Bool) (text : String) :
    decode (encodePath decodeSlash text) = text := by
  have hpercent : isPathSafe decodeSlash '%' = false := by cases decodeSlash <;> rfl
  exact decode_ofList_encodeBy hpercent text

/-- Where pluses are read as spaces, a form is encoded as if spaces were safe. -/
theorem map_encodeFormChar (c : Char) :
    (encodeFormChar c).map (fun c => if c = '+' then ' ' else c) =
      encodeChar (fun c => isUnreserved c || c = ' ') c := by
  by_cases hspace : c = ' '
  · subst hspace
    rfl
  · have hplus : '+' ∉ encodeChar isUnreserved c := by
      have hnone : '+' ∉ encodeBy isUnreserved [c] := not_mem_encodeBy rfl (by decide) rfl [c]
      simpa [encodeBy] using hnone
    have hkept : (encodeChar isUnreserved c).map (fun c => if c = '+' then ' ' else c) =
        encodeChar isUnreserved c := by
      refine (List.map_congr_left ?_).trans (List.map_id _)
      rintro other hother
      refine if_neg ?_
      rintro rfl
      exact hplus hother
    unfold encodeFormChar
    rw [if_neg hspace, hkept]
    simp [encodeChar, hspace]

theorem decode_encodeForm (text : String) : decodeForm (encodeForm text) = text := by
  have hchars : (text.toList.flatMap encodeFormChar).map (fun c => if c = '+' then ' ' else c) =
      encodeBy (fun c => isUnreserved c || c = ' ') text.toList := by
    rw [List.map_flatMap]
    unfold encodeBy
    congr 1
    funext c
    exact map_encodeFormChar c
  unfold decodeForm encodeForm
  rw [String.toList_ofList, hchars, decodeChars_encodeBy (by decide), String.ofList_toList]

theorem encodeQuery_injective : Function.Injective encodeQuery :=
  Function.LeftInverse.injective decode_encodeQuery

theorem encodePath_injective (decodeSlash : Bool) : Function.Injective (encodePath decodeSlash) :=
  Function.LeftInverse.injective (decode_encodePath decodeSlash)

theorem encodeForm_injective : Function.Injective encodeForm :=
  Function.LeftInverse.injective decode_encodeForm

/-- A mark that stands for itself nowhere does not occur in an encoded text. -/
theorem not_mem_encode {mark : Char} (hsafe : isUnreserved mark = false) (hmark : mark ≠ '%')
    (hdigit : hexValue? mark = none) (text : String) : mark ∉ (encode text).toList :=
  not_mem_ofList_encodeBy hsafe hmark hdigit text

theorem not_mem_encodePath {mark : Char} {decodeSlash : Bool}
    (hsafe : isPathSafe decodeSlash mark = false) (hmark : mark ≠ '%')
    (hdigit : hexValue? mark = none) (text : String) :
    mark ∉ (encodePath decodeSlash text).toList :=
  not_mem_ofList_encodeBy hsafe hmark hdigit text

end HttpBinding.Percent
