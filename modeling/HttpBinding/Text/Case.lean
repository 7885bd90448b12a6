import HttpBinding.Text.CaseTable

/-!
# Lower and upper case

Case is mapped character by character, except that a capital sigma at the end
of a word has a lower case of its own. Names that are compared without regard
to case are compared by their lower case.
-/

namespace HttpBinding.Text

/-- The lower case of a character out of context. -/
def lowerChar (c : Char) : List Char :=
  if c.toNat < 0x80 then
    [if 0x41 ≤ c.toNat && c.toNat ≤ 0x5A then Char.ofNat (c.toNat + 0x20) else c]
  else if c.toNat = 0x130 then [Char.ofNat 0x69, Char.ofNat 0x307]
  else [((lowerRuns.findSome? fun run => run.apply? c.toNat).map Char.ofNat).getD c]

/-- The upper case of a character. -/
def upperChar (c : Char) : List Char :=
  if c.toNat < 0x80 then
    [if 0x61 ≤ c.toNat && c.toNat ≤ 0x7A then Char.ofNat (c.toNat - 0x20) else c]
  else
    match upperExpansions.lookup c.toNat with
    | some codes => codes.map Char.ofNat
    | none => [((upperRuns.findSome? fun run => run.apply? c.toNat).map Char.ofNat).getD c]

/-- Whether the first character that is not ignorable is a letter with case. -/
def meetsCased (text : List Char) : Bool :=
  match text.dropWhile caseIgnorableRanges.holds with
  | [] => false
  | c :: _ => casedRanges.holds c

/--
Lower case of the rest of a text, given the characters before it, nearest
first. A capital sigma becomes a final sigma after a letter and before none.
-/
def lowerFrom (before : List Char) : List Char → List Char
  | [] => []
  | c :: rest =>
    let image :=
      if c.toNat = 0x3A3 then
        [Char.ofNat (if meetsCased before && !meetsCased rest then 0x3C2 else 0x3C3)]
      else lowerChar c
    image ++ lowerFrom (c :: before) rest

/-- The lower case of a text. -/
def lower (text : List Char) : List Char :=
  lowerFrom [] text

/-- The upper case of a text. -/
def upper (text : List Char) : List Char :=
  text.flatMap upperChar

/-- Whether two names are the same without regard to case. -/
def sameName (a b : String) : Bool :=
  lower a.toList == lower b.toList

end HttpBinding.Text
