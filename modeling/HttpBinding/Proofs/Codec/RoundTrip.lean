import HttpBinding.Codec.Decoder
import HttpBinding.Codec.Encoder
import HttpBinding.Proofs.Schema.RoundTrip
import HttpBinding.Schema.Adapters

/-!
# The JSON encoder and the JSON decoder

The JSON decoder reads back what the JSON encoder wrote of a value of a plain type, as far
as the value keeps the names of its fields and JSON of its size can be read. The encoder
has fields written under their own names and the decoder has them looked for under their
outside names, so that a model with another outside name does not read back what it wrote.
What the type adapters do with JSON is a protocol that they keep; the adapters by schemas
do.
-/

namespace HttpBinding

/--
What type adapters do with plain types. A value is written as a JSON text of its form, and
JSON texts are read as the values that take their JSON in, however they were written.
-/
structure Adapters.Protocol (adapters : Adapters) (ds : Declarations)
    (IsText : Octets → JsonValue → Prop) (IsRead : JsonValue → Prop) : Prop where
  /-- What is written is a JSON text in which fields have their own names. -/
  dump_text {declared : Ty} {v : Value} {octets : Octets}
    (hplain : (Schema.find ds declared).IsPlain)
    (hholds : Schema.Holds (fun _ => True) (Schema.find ds declared) v)
    (hdump : adapters.dump declared v = .ok octets) : IsText octets (Schema.jsonForm v)
  /-- Whatever could be read can be written. -/
  dump_succeeds {declared : Ty} {v : Value} (hplain : (Schema.find ds declared).IsPlain)
    (hholds : Schema.Holds (fun _ => True) (Schema.find ds declared) v)
    (hread : IsRead (Schema.jsonForm v)) : ∃ octets, adapters.dump declared v = .ok octets
  /-- A JSON text is not blank. -/
  text_notBlank {octets : Octets} {j : JsonValue} (htext : IsText octets j) :
    Decoder.areBlank octets = false
  /-- JSON that a type takes in is read, with fields by the names that they have outside. -/
  load_taken {declared : Ty} {octets : Octets} {j : JsonValue} {v : Value}
    (hplain : (Schema.find ds declared).IsPlain) (htext : IsText octets j) (hread : IsRead j)
    (htakes : Schema.Takes (Schema.find ds declared) j v) : adapters.load declared octets = .ok v
  /-- JSON that is too large is refused, and JSON in which a field is missing. -/
  load_refused {declared : Ty} {octets : Octets} {j : JsonValue}
    (hplain : (Schema.find ds declared).IsPlain) (htext : IsText octets j)
    (hcannot : ¬ IsRead j ∨ Schema.Refuses (Schema.find ds declared) j) :
    ∃ failure, adapters.load declared octets = .error failure ∧
      failure.name = Adapters.loadRefusal

variable {adapters : Adapters} {ds : Declarations} {IsText : Octets → JsonValue → Prop}
  {IsRead : JsonValue → Prop} {declared : Ty} {v : Value} {may : FieldInfo → Prop}

namespace Schema

/-- A form has a part that may be anything. -/
theorem not_isPlain_form (hform : declared.isForm = true) : ¬ (find ds declared).IsPlain := by
  unfold Ty.isForm Ty.form at hform
  cases declared with
  | container kind parts =>
      obtain ⟨hkind, hparts⟩ : kind = .mapping ∧ Ty.sameAll parts [.text, .any] = true := by
        simpa [Ty.same] using hform
      obtain _ | ⟨key, _ | ⟨value, rest⟩⟩ := parts
      · simp [Ty.sameAll] at hparts
      · simp [Ty.sameAll] at hparts
      · obtain ⟨-, hvalue, -⟩ : Ty.same key .text = true ∧ Ty.same value .any = true ∧
            Ty.sameAll rest [] = true := by
          simpa [Ty.sameAll] using hparts
        subst hkind
        obtain rfl : value = .any := by cases value <;> simp_all [Ty.same]
        intro hplain
        change IsPlain (.dict (ofTy (Schema.declared ds) key) .any) at hplain
        generalize ofTy (Schema.declared ds) key = keySchema at hplain
        cases hplain with
        | dict hany => cases hany
  | _ => simp [Ty.same] at hform

end Schema

theorem Ty.isNull_eq_false (hplain : (Schema.find ds declared).IsPlain) : declared.isNull = false := by
  cases declared <;> first | rfl | cases hplain

theorem Ty.isOctets_eq_false (hplain : (Schema.find ds declared).IsPlain) :
    declared.isOctets = false := by
  cases declared <;> first | rfl | cases hplain

namespace Encoder

theorem jsonOctets_eq (hplain : (Schema.find ds declared).IsPlain) :
    jsonOctets adapters v declared = (adapters.dump declared v).mapError (unwritten v) := by
  have hform : declared.isForm = false := by
    rw [← Bool.not_eq_true]
    exact fun hform => Schema.not_isPlain_form hform hplain
  unfold jsonOctets
  rw [hform, Ty.isNull_eq_false hplain, Bool.or_self, if_neg Bool.false_ne_true]

theorem body_withContentType (contentType : String) (t : Template) :
    (withContentType contentType t).body = t.body := by
  unfold withContentType
  split
  · rfl
  · rfl

theorem encode_json_of_dump (hplain : (Schema.find ds declared).IsPlain) {octets : Octets}
    (hdump : adapters.dump declared v = .ok octets) (contentType : String) (t : Template) :
    (json adapters contentType).encode v declared t =
      (withContentType contentType (t.setBody (some octets)), none) := by
  unfold json
  dsimp only
  rw [jsonOctets_eq hplain, hdump]
  rfl

theorem encode_json_of_not_dump (hplain : (Schema.find ds declared).IsPlain) {failure : Failure}
    (hdump : adapters.dump declared v = .error failure) (contentType : String) (t : Template) :
    (json adapters contentType).encode v declared t = (t, some (unwritten v failure)) := by
  unfold json
  dsimp only
  rw [jsonOctets_eq hplain, hdump]
  rfl

end Encoder

namespace Decoder

theorem decode_json (hplain : (Schema.find ds declared).IsPlain) {response : Response}
    {octets : Octets} (hstatus : response.status = 200) (hread : response.read = .ok octets)
    (hblank : areBlank octets = false) :
    (json adapters).decode response declared =
      (adapters.load declared octets).mapError (unread response declared) := by
  change decodeJson adapters response declared = _
  unfold decodeJson isEmptyStatus
  rw [Ty.isNull_eq_false hplain, hstatus, hread]
  change (if areBlank octets = true then _ else _) = _
  rw [hblank, Ty.isOctets_eq_false hplain]
  rfl

theorem family_unread {failure : Failure} (hname : failure.name = Adapters.loadRefusal)
    (response : Response) (declared : Ty) : (unread response declared failure).family = .decode := by
  unfold unread
  rw [hname]
  rfl

end Decoder

/--
The encoder writes every value of a plain type that can be read, and the decoder reads back
what it wrote of one that keeps the names of its fields. It refuses what cannot be read, and
every value of a type that insists on outside names in which there is one.
-/
theorem Decoder.json_encode (hadapters : adapters.Protocol ds IsText IsRead)
    (hplain : (Schema.find ds declared).IsPlain)
    (hholds : Schema.Holds (fun _ => True) (Schema.find ds declared) v) (contentType : String)
    (t : Template) :
    (IsRead (Schema.jsonForm v) →
      ((Encoder.json adapters contentType).encode v declared t).2 = none) ∧
    (((Encoder.json adapters contentType).encode v declared t).2 = none →
      ∃ octets, ((Encoder.json adapters contentType).encode v declared t).1.body = some octets ∧
        ∀ response : Response, response.status = 200 → response.read = .ok octets →
          (Schema.Holds Schema.Keeps (Schema.find ds declared) v → IsRead (Schema.jsonForm v) →
            (Decoder.json adapters).decode response declared = .ok v) ∧
          (¬ IsRead (Schema.jsonForm v) ∨
              ((Schema.find ds declared).Insists ∧
                ¬ Schema.Holds Schema.Keeps (Schema.find ds declared) v) →
            ∃ fault, (Decoder.json adapters).decode response declared = .error fault ∧
              fault.family = .decode)) := by
  constructor
  · intro hread
    obtain ⟨octets, hdump⟩ := hadapters.dump_succeeds hplain hholds hread
    rw [Encoder.encode_json_of_dump hplain hdump]
  · intro hencoded
    cases hdump : adapters.dump declared v with
    | error failure =>
        rw [Encoder.encode_json_of_not_dump hplain hdump] at hencoded
        cases hencoded
    | ok octets =>
        rw [Encoder.encode_json_of_dump hplain hdump]
        refine ⟨octets, Encoder.body_withContentType contentType _, ?_⟩
        intro response hstatus hread
        have htext := hadapters.dump_text hplain hholds hdump
        rw [decode_json hplain hstatus hread (hadapters.text_notBlank htext)]
        constructor
        · intro hkeeps hsize
          rw [hadapters.load_taken hplain htext hsize (hkeeps.takes hplain)]
          rfl
        · intro hcannot
          have hrefused : ¬ IsRead (Schema.jsonForm v) ∨
              Schema.Refuses (Schema.find ds declared) (Schema.jsonForm v) :=
            hcannot.imp_right fun hrenamed => hholds.refuses hplain hrenamed.1 hrenamed.2
          obtain ⟨failure, hload, hname⟩ := hadapters.load_refused hplain htext hrefused
          rw [hload]
          exact ⟨_, rfl, family_unread hname response declared⟩

/-! ## The adapters by schemas -/

namespace Schema

theorem withKnown_eq {α : Type} (hplain : (find ds declared).IsPlain)
    (next : Schema → Except Failure α) : withKnown ds declared next = next (find ds declared) := by
  unfold withKnown
  dsimp only
  rw [hplain.isKnown, if_pos rfl]

theorem dumpJson_eq (hplain : (find ds declared).IsPlain)
    (hholds : Holds may (find ds declared) v) :
    dumpJson ds declared v = .ok (Utf8.encode (jsonForm v).write) := by
  unfold dumpJson toJson
  rw [withKnown_eq hplain, dump_eq hplain hholds]
  rfl

/-- The text of a value is never blank. -/
theorem areBlank_write {j : JsonValue} (hexact : j.isExact = true) :
    Decoder.areBlank (Utf8.encode j.write) = false := by
  obtain ⟨c, chars, hwrite, hlow, hhigh, -⟩ := JsonValue.exists_write_eq_cons hexact
  have hchar : Utf8.encodeChar c = [c.toNat.toUInt8] := if_pos hhigh
  have hoctet : c.toNat.toUInt8.toNat = c.toNat := Utf8.toNat_octet (by omega)
  unfold Decoder.areBlank Utf8.encode
  have hblank : Text.isAsciiBlank c.toNat = false := by
    simp only [Text.isAsciiBlank, Bool.or_eq_false_iff, beq_eq_false_iff_ne, Bool.and_eq_false_iff,
      decide_eq_false_iff_not]
    omega
  rw [hwrite, List.flatMap_cons, hchar, List.singleton_append, List.all_cons, hoctet, hblank,
    Bool.false_and]

section Loading

variable {j : JsonValue} (hplain : (find ds declared).IsPlain) (hexact : j.isExact = true)

include hplain hexact

theorem loadJson_of_read (hfits : j.fits JsonValue.maxDepth = true)
    (hread : (find ds declared).read? .json (ofJson j) = some v) :
    loadJson ds declared (Utf8.encode j.write) = .ok v := by
  unfold loadJson
  simp only [withKnown_eq hplain, JsonValue.ofOctets?_write hexact, if_pos hfits, Option.bind_some,
    hread]

theorem loadJson_of_refused
    (hrefused : j.fits JsonValue.maxDepth = true →
      (find ds declared).read? .json (ofJson j) = none) :
    loadJson ds declared (Utf8.encode j.write) = .error (.runtime Adapters.loadRefusal) := by
  unfold loadJson
  by_cases hfits : j.fits JsonValue.maxDepth = true
  · simp only [withKnown_eq hplain, JsonValue.ofOctets?_write hexact, if_pos hfits,
      Option.bind_some, hrefused hfits]
  · simp only [withKnown_eq hplain, JsonValue.ofOctets?_write hexact, if_neg hfits,
      Option.bind_none]

end Loading

/-- The adapters by schemas keep the protocol. -/
theorem adapters_protocol (ds : Declarations) :
    (Schema.adapters ds).Protocol ds (fun octets j => octets = Utf8.encode j.write ∧ j.isExact = true)
      fun j => j.fits JsonValue.maxDepth = true where
  dump_text hplain hholds hdump := by
    have hoctets := (dumpJson_eq hplain hholds).symm.trans hdump
    exact ⟨(Except.ok.inj hoctets).symm, hholds.isExact⟩
  dump_succeeds hplain hholds _ := ⟨_, dumpJson_eq hplain hholds⟩
  text_notBlank htext := by
    obtain ⟨rfl, hexact⟩ := htext
    exact areBlank_write hexact
  load_taken hplain htext hread htakes := by
    obtain ⟨rfl, hexact⟩ := htext
    obtain ⟨fit, hfit⟩ := htakes.gives hplain {}
    refine loadJson_of_read hplain hexact hread ?_
    rw [read?, StateT.run', hfit]
    rfl
  load_refused hplain htext hcannot := by
    obtain ⟨rfl, hexact⟩ := htext
    refine ⟨.runtime Adapters.loadRefusal, loadJson_of_refused hplain hexact fun hread => ?_, rfl⟩
    have hfails := (hcannot.resolve_left (not_not_intro hread)).fails hplain {}
    rw [read?, StateT.run', hfails]
    rfl

end Schema

/-! ## Two models -/

/-- A model that keeps the names of its fields. -/
def noteModel : TypeDecl where
  name := "Note"
  kind := .model
  fields := [{ name := "id", ty := .int }, { name := "tags", ty := .container .list [.text] }]

/-- A model that has another name outside for its field. -/
def userModel : TypeDecl where
  name := "User"
  kind := .model
  fields := [{ name := "name", ty := .text, outside := some "userName" }]

/-- A note. -/
def note : Value :=
  .record noteModel.shape [("id", .int 7), ("tags", .list [.text "a\n\"b"])]

/-- A user. -/
def user : Value :=
  .record userModel.shape [("name", .text "x")]

theorem isPlain_note : (Schema.find [noteModel, userModel] (.record "Note")).IsPlain := by
  refine .record rfl (by decide) ?_
  rintro field hfield
  rcases List.mem_cons.mp hfield with rfl | hrest
  · exact .int
  · obtain rfl := List.mem_singleton.mp hrest
    exact .list .text

theorem holds_note : Schema.Holds Schema.Keeps (Schema.find [noteModel, userModel] (.record "Note"))
    note := by
  refine .record rfl ?_ ?_
  · rintro field hfield
    rcases List.mem_cons.mp hfield with rfl | hrest
    · rfl
    · obtain rfl := List.mem_singleton.mp hrest
      rfl
  · rintro part hpart
    rcases List.mem_cons.mp hpart with rfl | hrest
    · exact .int 7
    · obtain rfl := List.mem_singleton.mp hrest
      refine .list ?_
      rintro v hv
      obtain rfl := List.mem_singleton.mp hv
      exact .text _

theorem isPlain_user : (Schema.find [noteModel, userModel] (.record "User")).IsPlain := by
  refine .record rfl (by decide) ?_
  rintro field hfield
  obtain rfl := List.mem_singleton.mp hfield
  exact .text

theorem insists_user : (Schema.find [noteModel, userModel] (.record "User")).Insists := by
  refine .record ?_ ?_
  · rintro field hfield
    obtain rfl := List.mem_singleton.mp hfield
    exact Or.inr ⟨rfl, by decide⟩
  · rintro field hfield
    obtain rfl := List.mem_singleton.mp hfield
    exact .text

theorem holds_user : Schema.Holds (fun _ => True)
    (Schema.find [noteModel, userModel] (.record "User")) user := by
  refine .record rfl (fun _ _ => trivial) ?_
  rintro part hpart
  obtain rfl := List.mem_singleton.mp hpart
  exact .text "x"

theorem not_holds_user : ¬ Schema.Holds Schema.Keeps
    (Schema.find [noteModel, userModel] (.record "User")) user := by
  rintro (_ | _ | _ | _ | _ | _ | _ | ⟨-, hkeeps, -⟩)
  have hkept : "userName" = "name" := hkeeps _ List.mem_cons_self
  exact absurd hkept (by decide)

theorem Decoder.json_encode_noteAndUser :
    (∃ octets,
      ((Encoder.json (Schema.adapters [noteModel, userModel]) "application/json").encode note
        (.record "Note") {}).1.body = some octets ∧
      (Decoder.json (Schema.adapters [noteModel, userModel])).decode
        { status := 200, body := some (.ofOctets octets) } (.record "Note") = .ok note) ∧
    ∃ octets fault,
      ((Encoder.json (Schema.adapters [noteModel, userModel]) "application/json").encode user
        (.record "User") {}).1.body = some octets ∧
      (Decoder.json (Schema.adapters [noteModel, userModel])).decode
        { status := 200, body := some (.ofOctets octets) } (.record "User") = .error fault ∧
      fault.family = .decode := by
  have hadapters := Schema.adapters_protocol [noteModel, userModel]
  constructor
  · obtain ⟨hencodes, hdecodes⟩ := Decoder.json_encode hadapters isPlain_note
      (holds_note.mono fun _ _ => trivial) "application/json" {}
    obtain ⟨octets, hbody, hdecode⟩ := hdecodes (hencodes (by decide))
    exact ⟨octets, hbody, (hdecode _ rfl rfl).1 holds_note (by decide)⟩
  · obtain ⟨hencodes, hdecodes⟩ := Decoder.json_encode hadapters isPlain_user holds_user
      "application/json" {}
    obtain ⟨octets, hbody, hdecode⟩ := hdecodes (hencodes (by decide))
    obtain ⟨fault, hfault, hfamily⟩ := (hdecode { status := 200, body := some (.ofOctets octets) }
      rfl rfl).2 (Or.inr ⟨insists_user, not_holds_user⟩)
    exact ⟨octets, fault, hbody, hfault, hfamily⟩

end HttpBinding
