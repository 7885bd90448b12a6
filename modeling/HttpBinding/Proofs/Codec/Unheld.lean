import HttpBinding.Codec.Decoder
import HttpBinding.Codec.ErrorDecoder

/-!
# Where a body is held

A response may be decoded from the open stream that it came on or from a copy in
memory. The decoders of this library make no difference between the two: they
look at the octets of a body and never at where these are held. A decoder that
maps responses first does so too if its mapper does.
-/

namespace HttpBinding

namespace Response

/-- The response as if its body were in memory. -/
def unheld (r : Response) : Response :=
  { r with body := r.body.map fun body => { body with holder := .memory } }

variable (r : Response)

@[simp]
theorem status_unheld : r.unheld.status = r.status := rfl

@[simp]
theorem charset_unheld : r.unheld.charset = r.charset := rfl

@[simp]
theorem isNone_body_unheld : r.unheld.body.isNone = r.body.isNone := by
  unfold unheld
  cases r.body <;> rfl

@[simp]
theorem read_unheld : r.unheld.read = r.read := by
  unfold unheld read
  cases r.body <;> rfl

@[simp]
theorem text_unheld [Charsets] : r.unheld.text = r.text := by
  unfold text
  rw [read_unheld, charset_unheld]

theorem buffered_unheld : r.unheld.buffered = r.buffered := by
  unfold buffered bufferedIn
  rw [read_unheld]
  rfl

end Response

namespace Decoder

/-- The decoders of this library. A mapper has to look at no more of a response than they do. -/
inductive IsOwn [Charsets] : Decoder → Prop where
  | string : IsOwn string
  | usual : IsOwn usual
  | json (adapters : Adapters) : IsOwn (json adapters)
  | mapped {mapper : Response → Ty → Except Fault Response} {inner : Decoder}
      (hmapper : ∀ r declared,
        (mapper r.unheld declared).map Response.unheld = (mapper r declared).map Response.unheld)
      (hinner : IsOwn inner) : IsOwn (mapped mapper inner)

theorem refusal_unheld (r : Response) (message : String) :
    refusal r.unheld message = refusal r message := rfl

theorem decodeText_unheld [Charsets] (r : Response) (declared : Ty) :
    decodeText r.unheld declared = decodeText r declared := by
  unfold decodeText
  rw [Response.text_unheld, refusal_unheld]

theorem decodeUsual_unheld [Charsets] (r : Response) (declared : Ty) :
    decodeUsual r.unheld declared = decodeUsual r declared := by
  unfold decodeUsual
  rw [Response.status_unheld, Response.isNone_body_unheld, Response.read_unheld,
    decodeText_unheld]

theorem decodeJson_unheld (adapters : Adapters) (r : Response) (declared : Ty) :
    decodeJson adapters r.unheld declared = decodeJson adapters r declared := by
  unfold decodeJson
  rw [Response.status_unheld, Response.read_unheld]
  rfl

/-- What a decoder makes of a response does not depend on where its body is held. -/
theorem IsOwn.decode_unheld [Charsets] {decoder : Decoder} (hown : decoder.IsOwn) (r : Response)
    (declared : Ty) : decoder.decode r.unheld declared = decoder.decode r declared := by
  induction hown generalizing r with
  | string => exact decodeText_unheld r declared
  | usual => exact decodeUsual_unheld r declared
  | json adapters => exact decodeJson_unheld adapters r declared
  | @mapped mapper inner hmapper _ ih =>
      -- The inner decoder may be given what the mapper makes as if it were in memory.
      have hthrough : ∀ response, (Decoder.mapped mapper inner).decode response declared =
          ((mapper response declared).map Response.unheld).bind (inner.decode · declared) := by
        intro response
        change (mapper response declared).bind (inner.decode · declared) = _
        cases mapper response declared with
        | error fault => rfl
        | ok mappedResponse => exact (ih mappedResponse).symm
      rw [hthrough, hthrough, hmapper]

end Decoder

theorem ErrorDecoder.decodeUsual_unheld [Charsets] (now : Moment) (key : String) (r : Response) :
    decodeUsual now key r.unheld = decodeUsual now key r := by
  unfold decodeUsual
  rw [Response.read_unheld, Response.charset_unheld]
  rfl

end HttpBinding
