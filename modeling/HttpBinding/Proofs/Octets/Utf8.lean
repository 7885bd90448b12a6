import HttpBinding.Octets.Utf8

/-!
# UTF-8 reads back

Every character is read back from its octets, whatever follows them, so that a
text is read back from its encoding by either decoder. A character takes one to
four octets; that its octets are read as one character needs that the second one
is in the range which its lead allows. The other way round, what is read as a character
are the octets of that character, so that the strict decoder accepts encoded texts only.
-/

namespace HttpBinding.Utf8

/-- The numbers of characters are below the surrogates or above them. -/
theorem toNat_char_bounds (c : Char) :
    c.toNat < 0xD800 ∨ 0xE000 ≤ c.toNat ∧ c.toNat < 0x110000 := by
  rcases c.valid with hlow | ⟨hhigh, hlast⟩
  · exact Or.inl hlow
  · exact Or.inr ⟨hhigh, hlast⟩

theorem toNat_octet {n : Nat} (hn : n < 0x100) : n.toUInt8.toNat = n := by
  rw [Nat.toUInt8, UInt8.toNat_ofNat', Nat.mod_eq_of_lt hn]

/-- An octet of ASCII is an octet of its own character only. -/
theorem toNat_of_mem_encodeChar {c : Char} {b : UInt8} (hb : b ∈ encodeChar c)
    (hlow : b.toNat < 0x80) : c.toNat = b.toNat := by
  have hhigh : ∀ {n : Nat}, 0x80 ≤ n → n < 0x100 → b ≠ n.toUInt8 := by
    rintro n hn hlt rfl
    rw [toNat_octet hlt] at hlow
    omega
  have hbounds := toNat_char_bounds c
  unfold encodeChar at hb
  dsimp only at hb
  split at hb
  next hone => rw [List.mem_singleton.mp hb, toNat_octet (by omega)]
  next hone =>
    refine absurd hb ?_
    split
    next htwo =>
      simp only [List.mem_cons, List.not_mem_nil, or_false, not_or]
      exact ⟨hhigh (by omega) (by omega), hhigh (by omega) (by omega)⟩
    next htwo =>
      split
      next hthree =>
        simp only [List.mem_cons, List.not_mem_nil, or_false, not_or]
        exact ⟨hhigh (by omega) (by omega), hhigh (by omega) (by omega), hhigh (by omega) (by omega)⟩
      next hthree =>
        simp only [List.mem_cons, List.not_mem_nil, or_false, not_or]
        exact ⟨hhigh (by omega) (by omega), hhigh (by omega) (by omega), hhigh (by omega) (by omega),
          hhigh (by omega) (by omega)⟩

/-- Six bits as a tail. -/
theorem tail_octet {n : Nat} (hn : n < 0x40) :
    isTail (0x80 + n).toUInt8 = true ∧ tailBits (0x80 + n).toUInt8 = n := by
  have hvalue : (0x80 + n).toUInt8.toNat = 0x80 + n := toNat_octet (by omega)
  unfold isTail tailBits
  rw [hvalue]
  constructor
  · simp only [Bool.and_eq_true, decide_eq_true_eq]
    omega
  · omega

/-! ## Reading one character -/

section ReadChar

variable {c : Char} (rest : Octets)

theorem readChar_one (hc : c.toNat < 0x80) :
    readChar c.toNat.toUInt8 rest = (some c, rest) := by
  have hvalue : c.toNat.toUInt8.toNat = c.toNat := toNat_octet (by omega)
  unfold readChar
  rw [hvalue, if_pos hc, Char.ofNat_toNat]

theorem readChar_two (hlow : 0x80 ≤ c.toNat) (hc : c.toNat < 0x800) :
    readChar (0xC0 + c.toNat / 0x40).toUInt8 ((0x80 + c.toNat % 0x40).toUInt8 :: rest) =
      (some c, rest) := by
  have hlead : (0xC0 + c.toNat / 0x40).toUInt8.toNat = 0xC0 + c.toNat / 0x40 :=
    toNat_octet (by omega)
  obtain ⟨htail, hbits⟩ := tail_octet (n := c.toNat % 0x40) (Nat.mod_lt _ (by decide))
  have hnumber : (0xC0 + c.toNat / 0x40) % 0x20 * 0x40 + c.toNat % 0x40 = c.toNat := by omega
  unfold readChar
  simp only [hlead]
  rw [if_neg (by omega), if_neg (by omega), if_pos (by omega), if_pos htail, hbits, hnumber,
    Char.ofNat_toNat]

/-- The second octet of a character of three octets is in the range of its lead. -/
theorem isSecond_three (hlow : 0x800 ≤ c.toNat) (hc : c.toNat < 0x10000) :
    isSecond (0xE0 + c.toNat / 0x1000).toUInt8 (0x80 + c.toNat / 0x40 % 0x40).toUInt8 = true := by
  have hlead : (0xE0 + c.toNat / 0x1000).toUInt8.toNat = 0xE0 + c.toNat / 0x1000 :=
    toNat_octet (by omega)
  have hsecond : (0x80 + c.toNat / 0x40 % 0x40).toUInt8.toNat = 0x80 + c.toNat / 0x40 % 0x40 :=
    toNat_octet (by omega)
  have hbounds := toNat_char_bounds c
  unfold isSecond
  rw [(tail_octet (Nat.mod_lt _ (by decide))).1, Bool.true_and, hlead, hsecond]
  -- The first lead leaves out what two octets can hold, and another one the surrogates.
  split
  next hfirst => exact decide_eq_true (by omega)
  next =>
    split
    next hsurrogates => exact decide_eq_true (by omega)
    next => rw [if_neg (by omega), if_neg (by omega)]

theorem readChar_three (hlow : 0x800 ≤ c.toNat) (hc : c.toNat < 0x10000) :
    readChar (0xE0 + c.toNat / 0x1000).toUInt8
        ((0x80 + c.toNat / 0x40 % 0x40).toUInt8 :: (0x80 + c.toNat % 0x40).toUInt8 :: rest) =
      (some c, rest) := by
  have hlead : (0xE0 + c.toNat / 0x1000).toUInt8.toNat = 0xE0 + c.toNat / 0x1000 :=
    toNat_octet (by omega)
  obtain ⟨-, hbits⟩ := tail_octet (n := c.toNat / 0x40 % 0x40) (Nat.mod_lt _ (by decide))
  obtain ⟨htail, hbits'⟩ := tail_octet (n := c.toNat % 0x40) (Nat.mod_lt _ (by decide))
  have hnumber : (0xE0 + c.toNat / 0x1000) % 0x10 * 0x1000 + c.toNat / 0x40 % 0x40 * 0x40 +
      c.toNat % 0x40 = c.toNat := by omega
  unfold readChar
  simp only [hlead]
  rw [if_neg (by omega), if_neg (by omega), if_neg (by omega), if_pos (by omega),
    if_pos (isSecond_three hlow hc), if_pos htail, hbits, hbits', hnumber, Char.ofNat_toNat]

/-- The second octet of a character of four octets is in the range of its lead. -/
theorem isSecond_four (hlow : 0x10000 ≤ c.toNat) :
    isSecond (0xF0 + c.toNat / 0x40000).toUInt8 (0x80 + c.toNat / 0x1000 % 0x40).toUInt8 =
      true := by
  have hbounds := toNat_char_bounds c
  have hlead : (0xF0 + c.toNat / 0x40000).toUInt8.toNat = 0xF0 + c.toNat / 0x40000 :=
    toNat_octet (by omega)
  have hsecond : (0x80 + c.toNat / 0x1000 % 0x40).toUInt8.toNat =
      0x80 + c.toNat / 0x1000 % 0x40 := toNat_octet (by omega)
  unfold isSecond
  rw [(tail_octet (Nat.mod_lt _ (by decide))).1, Bool.true_and, hlead, hsecond,
    if_neg (by omega), if_neg (by omega)]
  -- The first lead leaves out what three octets can hold, and the last what is no character.
  split
  next hfirst => exact decide_eq_true (by omega)
  next =>
    split
    next hlast => exact decide_eq_true (by omega)
    next => rfl

theorem readChar_four (hlow : 0x10000 ≤ c.toNat) :
    readChar (0xF0 + c.toNat / 0x40000).toUInt8
        ((0x80 + c.toNat / 0x1000 % 0x40).toUInt8 :: (0x80 + c.toNat / 0x40 % 0x40).toUInt8 ::
          (0x80 + c.toNat % 0x40).toUInt8 :: rest) =
      (some c, rest) := by
  have hbounds := toNat_char_bounds c
  have hlead : (0xF0 + c.toNat / 0x40000).toUInt8.toNat = 0xF0 + c.toNat / 0x40000 :=
    toNat_octet (by omega)
  obtain ⟨-, hbits⟩ := tail_octet (n := c.toNat / 0x1000 % 0x40) (Nat.mod_lt _ (by decide))
  obtain ⟨htail', hbits'⟩ := tail_octet (n := c.toNat / 0x40 % 0x40) (Nat.mod_lt _ (by decide))
  obtain ⟨htail'', hbits''⟩ := tail_octet (n := c.toNat % 0x40) (Nat.mod_lt _ (by decide))
  have hnumber : (0xF0 + c.toNat / 0x40000) % 0x8 * 0x40000 + c.toNat / 0x1000 % 0x40 * 0x1000 +
      c.toNat / 0x40 % 0x40 * 0x40 + c.toNat % 0x40 = c.toNat := by omega
  unfold readChar
  simp only [hlead]
  rw [if_neg (by omega), if_neg (by omega), if_neg (by omega), if_neg (by omega),
    if_pos (by omega), if_pos (isSecond_four hlow), if_pos htail', if_pos htail'', hbits, hbits',
    hbits'', hnumber, Char.ofNat_toNat]

end ReadChar

/-! ## Reading texts -/

/-- A character is read back from its octets, and what follows is read on its own. -/
theorem read_encodeChar_append (c : Char) (rest : Octets) :
    read (encodeChar c ++ rest) = some c :: read rest := by
  unfold encodeChar
  dsimp only
  split
  next hone =>
    change read (_ :: rest) = _
    rw [read, readChar_one rest hone]
  next hone =>
    split
    next htwo =>
      change read (_ :: _ :: rest) = _
      rw [read, readChar_two rest (Nat.le_of_not_lt hone) htwo]
    next htwo =>
      split
      next hthree =>
        change read (_ :: _ :: _ :: rest) = _
        rw [read, readChar_three rest (Nat.le_of_not_lt htwo) hthree]
      next hthree =>
        change read (_ :: _ :: _ :: _ :: rest) = _
        rw [read, readChar_four rest (Nat.le_of_not_lt hthree)]

theorem read_encode (text : List Char) : read (encode text) = text.map some := by
  induction text with
  | nil => exact read.eq_1
  | cons c rest ih =>
      change read (encodeChar c ++ encode rest) = some c :: rest.map some
      rw [read_encodeChar_append, ih]

/-- The lenient decoder reads every text back. -/
theorem decode_encode (text : List Char) : decode (encode text) = text := by
  unfold decode
  rw [read_encode, List.map_map]
  exact List.map_id text

/-- The strict decoder accepts every encoded text. -/
theorem decode?_encode (text : List Char) : decode? (encode text) = some text := by
  unfold decode?
  rw [read_encode]
  induction text with
  | nil => rfl
  | cons c rest ih =>
      rw [List.map_cons, List.mapM_cons, ih]
      rfl

/-! ## Octets of what is read -/

section OctetsOf

variable {b lead second : UInt8} {c : Char} {rest rest' : Octets} {n : Nat}

theorem toUInt8_eq (hn : n = b.toNat) : n.toUInt8 = b := by
  rw [hn, Nat.toUInt8, UInt8.ofNat_toNat]

theorem toNat_ofNat (hn : n < 0xD800 ∨ 0xE000 ≤ n ∧ n < 0x110000) : (Char.ofNat n).toNat = n := by
  have hvalid : n.isValidChar := hn.imp_right fun ⟨hlow, hhigh⟩ => ⟨by omega, hhigh⟩
  rw [Char.ofNat, dif_pos hvalid]
  rfl

theorem bounds_of_isTail (htail : isTail b = true) : 0x80 ≤ b.toNat ∧ b.toNat < 0xC0 := by
  simpa [isTail] using htail

/-- What a second octet may be after the four leads that narrow it. -/
theorem bounds_of_isSecond (hsecond : isSecond lead second = true) :
    (0x80 ≤ second.toNat ∧ second.toNat < 0xC0) ∧
      (lead.toNat = 0xE0 → 0xA0 ≤ second.toNat) ∧ (lead.toNat = 0xED → second.toNat < 0xA0) ∧
      (lead.toNat = 0xF0 → 0x90 ≤ second.toNat) ∧ (lead.toNat = 0xF4 → second.toNat < 0x90) := by
  obtain ⟨htail, hnarrow⟩ := Bool.and_eq_true_iff.mp hsecond
  refine ⟨bounds_of_isTail htail, ?_⟩
  split at hnarrow
  · have := of_decide_eq_true hnarrow
    omega
  · split at hnarrow
    · have := of_decide_eq_true hnarrow
      omega
    · split at hnarrow
      · have := of_decide_eq_true hnarrow
        omega
      · split at hnarrow
        · have := of_decide_eq_true hnarrow
          omega
        · omega

theorem encodeChar_two (hlow : 0xC2 ≤ lead.toNat) (hlead : lead.toNat < 0xE0) (hb : isTail b = true) :
    encodeChar (Char.ofNat (lead.toNat % 0x20 * 0x40 + tailBits b)) = [lead, b] := by
  have hbounds := bounds_of_isTail hb
  have hbits : tailBits b = b.toNat - 0x80 := by unfold tailBits; omega
  have hnumber := toNat_ofNat (n := lead.toNat % 0x20 * 0x40 + tailBits b) (by omega)
  unfold encodeChar
  simp only [hnumber]
  rw [if_neg (by omega), if_pos (by omega), toUInt8_eq (b := lead) (by omega),
    toUInt8_eq (b := b) (by omega)]

theorem encodeChar_three {d : UInt8} (hlow : 0xE0 ≤ lead.toNat) (hlead : lead.toNat < 0xF0)
    (hb : isSecond lead b = true) (hd : isTail d = true) :
    encodeChar (Char.ofNat (lead.toNat % 0x10 * 0x1000 + tailBits b * 0x40 + tailBits d)) =
      [lead, b, d] := by
  have hbounds := bounds_of_isSecond hb
  have hbounds' := bounds_of_isTail hd
  have hbits : tailBits b = b.toNat - 0x80 := by unfold tailBits; omega
  have hbits' : tailBits d = d.toNat - 0x80 := by unfold tailBits; omega
  have hnumber := toNat_ofNat (n := lead.toNat % 0x10 * 0x1000 + tailBits b * 0x40 + tailBits d) (by omega)
  unfold encodeChar
  simp only [hnumber]
  rw [if_neg (by omega), if_neg (by omega), if_pos (by omega), toUInt8_eq (b := lead) (by omega),
    toUInt8_eq (b := b) (by omega), toUInt8_eq (b := d) (by omega)]

theorem encodeChar_four {d e : UInt8} (hlow : 0xF0 ≤ lead.toNat) (hlead : lead.toNat < 0xF5)
    (hb : isSecond lead b = true) (hd : isTail d = true) (he : isTail e = true) :
    encodeChar (Char.ofNat (lead.toNat % 0x8 * 0x40000 + tailBits b * 0x1000 + tailBits d * 0x40 +
      tailBits e)) = [lead, b, d, e] := by
  have hbounds := bounds_of_isSecond hb
  have hbounds' := bounds_of_isTail hd
  have hbounds'' := bounds_of_isTail he
  have hbits : tailBits b = b.toNat - 0x80 := by unfold tailBits; omega
  have hbits' : tailBits d = d.toNat - 0x80 := by unfold tailBits; omega
  have hbits'' : tailBits e = e.toNat - 0x80 := by unfold tailBits; omega
  have hnumber := toNat_ofNat (n := lead.toNat % 0x8 * 0x40000 + tailBits b * 0x1000 +
    tailBits d * 0x40 + tailBits e) (by omega)
  unfold encodeChar
  simp only [hnumber]
  rw [if_neg (by omega), if_neg (by omega), if_neg (by omega), toUInt8_eq (b := lead) (by omega),
    toUInt8_eq (b := b) (by omega), toUInt8_eq (b := d) (by omega), toUInt8_eq (b := e) (by omega)]

/-- What is read as a character are the octets of that character. -/
theorem encodeChar_of_readChar (hread : readChar lead rest = (some c, rest')) :
    encodeChar c ++ rest' = lead :: rest := by
  have hsome : ∀ {c' : Char} {rest'' : Octets}, (some c', rest'') = (some c, rest') →
      c' = c ∧ rest'' = rest' := fun heq => ⟨Option.some.inj (Prod.mk.inj heq).1, (Prod.mk.inj heq).2⟩
  revert hread
  fun_cases readChar lead rest
  case case1 number hone =>
    intro hread
    obtain ⟨rfl, rfl⟩ := hsome hread
    unfold encodeChar
    rw [toNat_ofNat (by omega), if_pos hone, toUInt8_eq rfl]
    rfl
  case case3 hone htwo hthree b rest hb =>
    intro hread
    obtain ⟨rfl, rfl⟩ := hsome hread
    rw [encodeChar_two (by omega) hthree hb]
    rfl
  case case6 hone htwo hthree hfour b hb d rest hd =>
    intro hread
    obtain ⟨rfl, rfl⟩ := hsome hread
    rw [encodeChar_three (by omega) hfour hb hd]
    rfl
  case case11 hone htwo hthree hfour hfive b hb d hd e rest he =>
    intro hread
    obtain ⟨rfl, rfl⟩ := hsome hread
    rw [encodeChar_four (by omega) hfive hb hd he]
    rfl
  all_goals
    intro hread
    cases hread

/-- An octet that is no tail ends what is read before it. -/
theorem readChar_append_cons (hb : isTail b = false) (more : Octets) :
    readChar lead (rest ++ b :: more) = ((readChar lead rest).1, (readChar lead rest).2 ++ b :: more) := by
  have hsecond : isSecond lead b = false := by
    rw [isSecond, hb, Bool.false_and]
  fun_cases readChar lead rest
  all_goals
    unfold readChar
    grind

theorem read_append_cons (hb : isTail b = false) (octets more : Octets) :
    read (octets ++ b :: more) = read octets ++ read (b :: more) := by
  fun_induction read octets
  case case1 => rfl
  case case2 lead rest ih =>
    rw [List.cons_append, read, readChar_append_cons hb, ih]
    rfl

theorem read_eq_of_decode? {octets : Octets} {text : List Char} (hdecoded : decode? octets = some text) :
    read octets = text.map some := by
  unfold decode? at hdecoded
  generalize read octets = chars at hdecoded
  induction chars generalizing text with
  | nil =>
      obtain rfl := Option.some.inj hdecoded
      rfl
  | cons first rest ih =>
      simp only [List.mapM_cons, Option.bind_eq_bind, Option.bind_eq_some_iff, Option.pure_def,
        Option.some.injEq, id] at hdecoded
      obtain ⟨c, rfl, text, hrest, rfl⟩ := hdecoded
      rw [ih hrest, List.map_cons]

theorem encode_of_read {octets : Octets} {text : List Char} (hread : read octets = text.map some) :
    encode text = octets := by
  fun_induction read octets generalizing text
  case case1 =>
    rw [List.map_eq_nil_iff.mp hread.symm]
    rfl
  case case2 lead rest ih =>
    obtain ⟨c, text, rfl, hfirst, hrest⟩ := List.map_eq_cons_iff.mp hread.symm
    have hchar : readChar lead rest = (some c, (readChar lead rest).2) := Prod.ext hfirst.symm rfl
    calc encode (c :: text) = encodeChar c ++ encode text := rfl
      _ = encodeChar c ++ (readChar lead rest).2 := by rw [ih hrest.symm]
      _ = lead :: rest := encodeChar_of_readChar hchar

/-- The strict decoder accepts nothing but encoded texts. -/
theorem encode_of_decode? {octets : Octets} {text : List Char} (hdecoded : decode? octets = some text) :
    encode text = octets :=
  encode_of_read (read_eq_of_decode? hdecoded)

/-- Where the strict decoder gives a text, the lenient one gives the same. -/
theorem decode_of_decode? {octets : Octets} {text : List Char} (hdecoded : decode? octets = some text) :
    decode octets = text := by
  rw [← encode_of_decode? hdecoded, decode_encode]

/-- The first octet of a character is no tail. -/
theorem exists_lead (c : Char) : ∃ b more, encodeChar c = b :: more ∧ isTail b = false := by
  have hbounds := toNat_char_bounds c
  have hlead : ∀ {n : Nat}, n < 0x80 ∨ 0xC0 ≤ n → n < 0x100 → isTail n.toUInt8 = false := by
    intro n hn hlt
    unfold isTail
    rw [toNat_octet hlt, Bool.and_eq_false_iff]
    exact hn.imp (fun hlow => decide_eq_false (by omega)) fun hhigh => decide_eq_false (by omega)
  unfold encodeChar
  dsimp only
  split
  · exact ⟨_, _, rfl, hlead (by omega) (by omega)⟩
  · split
    · exact ⟨_, _, rfl, hlead (by omega) (by omega)⟩
    · split
      · exact ⟨_, _, rfl, hlead (by omega) (by omega)⟩
      · exact ⟨_, _, rfl, hlead (by omega) (by omega)⟩

theorem read_append_encodeChar (octets : Octets) (c : Char) (more : Octets) :
    read (octets ++ (encodeChar c ++ more)) = read octets ++ read (encodeChar c ++ more) := by
  obtain ⟨b, rest, hchar, hb⟩ := exists_lead c
  rw [hchar, List.cons_append, read_append_cons hb]

end OctetsOf

end HttpBinding.Utf8
