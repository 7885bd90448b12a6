import HttpBinding.Fault
import HttpBinding.Octets.Utf8

/-!
# Charsets

Text is written as octets, and octets are read as text, by a charset that is given by
its name. Which names there are and what they stand for is not up to this library:
charsets are registered with the run-time system, which may know a name and fail to
read with it all the same. Only UTF-8 is there in any case.
-/

namespace HttpBinding

/-- What the run-time system makes of the names of charsets. -/
class Charsets where
  /-- The text of octets, with replacements for what the charset does not have. -/
  decode (charset : String) (octets : Octets) : Except Failure String
  /-- The octets of a text, all of which the charset must have. -/
  encode (charset text : String) : Except Failure Octets
  decode_utf8 : ∀ octets, decode "utf-8" octets = .ok (Utf8.toText octets)
  encode_utf8 : ∀ text, encode "utf-8" text = .ok (Utf8.encode text.toList)

variable [Charsets]

/-- Decodes octets by the charset of a name. -/
def decodeOctets (charset : String) (octets : Octets) : Except Fault String :=
  (Charsets.decode charset octets).mapError Failure.fault

/-- Encodes text by the charset of a name. -/
def encodeText (charset text : String) : Except Fault Octets :=
  (Charsets.encode charset text).mapError Failure.fault

@[simp]
theorem encodeText_utf8 (text : String) :
    encodeText "utf-8" text = .ok (Utf8.encode text.toList) := by
  unfold encodeText
  rw [Charsets.encode_utf8]
  rfl

/-- The request as text: its first line, its headers and, after a blank line, its body. -/
def Request.text (r : Request) : Except Fault String :=
  let lines := r.line :: r.headerItems.map fun (name, value) => name ++ ": " ++ value
  match r.body with
  | some (b :: rest) => do
    let body ← decodeOctets r.charset (b :: rest)
    .ok ("\n".intercalate (lines ++ ["", body]))
  | _ => .ok ("\n".intercalate lines)

end HttpBinding
