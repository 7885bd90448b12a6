import HttpBinding.Value

/-!
# Placeholders

A placeholder is a name between braces; the name is one or more letters,
digits, underscores, points and hyphens. Everything else in a text is literal,
a brace that opens no placeholder included. Expansion puts the text of a bound
value in the place of its placeholder.
-/

namespace HttpBinding

/-- A character of a text or a placeholder in it. -/
inductive Piece where
  | literal (c : Char)
  | slot (name : List Char)
  deriving DecidableEq, Repr

namespace Piece

/-- The characters of placeholder names. -/
def isNameChar (c : Char) : Bool :=
  c.isAlphanum || c = '_' || c = '.' || c = '-'

/--
The name and the rest when a text continues, after an opening brace, with a name
and a closing one.
-/
def closeName? (chars : List Char) : Option (List Char × List Char) :=
  match chars.dropWhile isNameChar with
  | '}' :: rest =>
    if (chars.takeWhile isNameChar).isEmpty then none
    else some (chars.takeWhile isNameChar, rest)
  | _ => none

theorem closeName?_length {chars name rest : List Char}
    (h : closeName? chars = some (name, rest)) : rest.length < chars.length := by
  have hle := (List.dropWhile_suffix isNameChar (l := chars)).length_le
  unfold closeName? at h
  split at h
  · rename_i after hdrop
    rw [hdrop] at hle
    split at h
    · simp at h
    · obtain ⟨-, rfl⟩ := by simpa using h
      simp only [List.length_cons] at hle
      omega
  · simp at h

/-- The pieces of a text, from left to right. -/
def ofChars : List Char → List Piece
  | [] => []
  | '{' :: rest =>
    match _h : closeName? rest with
    | some (name, after) => slot name :: ofChars after
    | none => literal '{' :: ofChars rest
  | c :: rest => literal c :: ofChars rest
termination_by chars => chars.length
decreasing_by
  · have := closeName?_length _h
    simp only [List.length_cons]
    omega
  · simp
  · simp

/-- The text of a piece. -/
def chars : Piece → List Char
  | literal c => [c]
  | slot name => ['{'] ++ name ++ ['}']

/-- The name of a placeholder. -/
def name? : Piece → Option String
  | literal _ => none
  | slot name => some (String.ofList name)

end Piece

/-- The pieces of a string. -/
def piecesOf (text : String) : List Piece :=
  Piece.ofChars text.toList

/-- The names of the placeholders of a text, in order of appearance. -/
def placeholders (text : String) : List String :=
  (piecesOf text).filterMap Piece.name?

/-- The name of the placeholder that a text is, when it is nothing else. -/
def solePlaceholder? (text : String) : Option String :=
  match piecesOf text with
  | [.slot name] => some (String.ofList name)
  | _ => none

/-- The text of a value that fills a placeholder: one text, or one for each member. -/
inductive Filling where
  | one (text : String)
  | many (texts : List String)
  deriving DecidableEq, Repr

namespace Filling

/-- The texts of a filling. -/
def texts : Filling → List String
  | one text => [text]
  | many texts => texts

/--
The filling that a value makes. Text and octets are one text, the octets being
UTF-8; what can be gone through is one text for each member that is not null;
every other value is its plain text.
-/
def ofValue : Value → Except Fault Filling
  | .text s => .ok (one s)
  | .octets o =>
    match Utf8.decode? o with
    | some chars => .ok (one (String.ofList chars))
    | none => .error (.runtime "UnicodeDecodeError")
  | value =>
    match value.elements? with
    | some items => .ok (many ((items.filter (!·.isNull)).map Value.plainText))
    | none => .ok (one value.plainText)

end Filling

/-- Values by the name of the variable that they are bound to. -/
abbrev Bindings := Entries String Value

/-- Whether a variable is bound. -/
def Bindings.binds (bindings : Bindings) (name : String) : Bool :=
  (bindings.lookup name).isSome

/-- The text that fills a piece. An unbound placeholder is filled with nothing. -/
def fillPiece (bindings : Bindings) (encode : String → String) : Piece → Except Fault String
  | .literal c => .ok (String.ofList [c])
  | .slot name =>
    match bindings.lookup (String.ofList name) with
    | none => .ok ""
    | some value => do
      let filling ← Filling.ofValue value
      .ok (",".intercalate (filling.texts.map encode))

/-- Fills every placeholder of a text; several texts for one placeholder are joined by commas. -/
def fill (bindings : Bindings) (encode : String → String) (text : String) : Except Fault String := do
  let texts ← (piecesOf text).mapM (fillPiece bindings encode)
  .ok ("".intercalate texts)

/--
Fills a text that goes away when it has placeholders and none of them is bound.
-/
def fillIfBound (bindings : Bindings) (encode : String → String) (text : String) :
    Except Fault (Option String) :=
  let names := placeholders text
  if !names.isEmpty && !names.any bindings.binds then .ok none
  else (fill bindings encode text).map some

end HttpBinding
