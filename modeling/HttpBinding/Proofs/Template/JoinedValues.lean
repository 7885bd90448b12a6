import HttpBinding.Octets.Charset
import HttpBinding.Proofs.Template.Preservation
import HttpBinding.Proofs.Text.SplitAround

/-!
# Lists in query values

A value that is nothing but a placeholder may be bound to a list. Its texts become values of
their own, or they are joined to one value by a mark, which may be an escape of three
characters. An encoded text holds the escape of an octet only if it has the character of that
octet in it, and no escape begins inside another one. So a joined value is split around the
mark into the encoded texts, whatever they look like, as long as no text holds the separator.
-/

namespace HttpBinding

/-! ## Where escapes begin -/

namespace Percent

open Text (IsFree)

theorem hexDigit_ne_percent {n : Nat} (hn : n < 16) : '%' ≠ hexDigit n :=
  (by decide : ∀ n : Fin 16, '%' ≠ hexDigit n) ⟨n, hn⟩

/-- The escape of an octet does not begin in the escape of another one. -/
theorem isFree_escape {b other : UInt8} (hne : b ≠ other) : IsFree (escape b) (escape other) := by
  have hlt : other.toNat < 256 := other.toNat_lt
  refine .cons ?_ (Text.isFree_of_not_mem ?_)
  · rintro after ⟨rest, hrest⟩
    have hoctets : octets (escape b ++ rest) = octets (escape other ++ after) := congrArg octets hrest
    rw [octets_escape_append, octets_escape_append] at hoctets
    exact hne (List.cons.inj hoctets).1
  · simp only [List.mem_cons, List.not_mem_nil, or_false, not_or]
    exact ⟨hexDigit_ne_percent (by omega), hexDigit_ne_percent (by omega)⟩

variable {safe : Char → Bool} {b : UInt8}

theorem isFree_encodeChar (hpercent : safe '%' = false) {c : Char} (hc : b ∉ Utf8.encodeChar c) :
    IsFree (escape b) (encodeChar safe c) := by
  unfold encodeChar
  split
  next hsafe =>
    refine Text.isFree_of_not_mem ?_
    rintro hmem
    rw [← List.mem_singleton.mp hmem, hpercent, Bool.and_false] at hsafe
    cases hsafe
  next =>
    refine IsFree.flatMap fun other hother => isFree_escape ?_
    rintro rfl
    exact hc hother

/-- The escape of an octet begins in no encoded text whose characters do without that octet. -/
theorem isFree_encodeBy (hpercent : safe '%' = false) {text : List Char}
    (htext : ∀ c ∈ text, b ∉ Utf8.encodeChar c) : IsFree (escape b) (encodeBy safe text) :=
  IsFree.flatMap fun c hc => isFree_encodeChar hpercent (htext c hc)

/-- An ASCII character is missing in a text together with its octet. -/
theorem not_mem_encodeChar_of_ascii {separator : Char} (hascii : isAscii separator = true)
    {text : List Char} (htext : separator ∉ text) :
    ∀ c ∈ text, separator.toNat.toUInt8 ∉ Utf8.encodeChar c := by
  have hlow : separator.toNat < 0x80 := of_decide_eq_true hascii
  have hvalue : separator.toNat.toUInt8.toNat = separator.toNat := Utf8.toNat_octet (by omega)
  intro c hc hmem
  have hnumber := Utf8.toNat_of_mem_encodeChar hmem (by omega)
  rw [hvalue] at hnumber
  exact htext (Char.toNat_inj.mp hnumber ▸ hc)

end Percent

/-! ## Joined texts -/

/-- How texts are joined to one value: the separator that is in none of them, and what stands for it. -/
def CollectionFormat.joint? : CollectionFormat → Option (Char × String)
  | exploded => none
  | csv => some (',', ",")
  | ssv => some (' ', "%20")
  | tsv => some ('\t', "%09")
  | pipes => some ('|', "%7C")

theorem CollectionFormat.separator?_eq (format : CollectionFormat) :
    format.separator? = format.joint?.map Prod.fst := by
  cases format <;> rfl

namespace Template

/-- What a list of texts becomes, and how the texts are read back from it. -/
structure IsReadBack (format : CollectionFormat) (items : List String)
    (rendered : List (Option String)) : Prop where
  /-- Values of their own are decoded one by one. -/
  apart : format.joint? = none → rendered.map (Option.map Percent.decode) = items.map some
  /-- A single value is split around the mark before that. -/
  joined : ∀ separator mark, format.joint? = some (separator, mark) → items ≠ [] →
    (∀ item ∈ items, separator ∉ item.toList) →
    ∃ value, rendered = [some value] ∧ (Text.splitAround mark.toList value.toList).map
      (fun piece => Percent.decode (String.ofList piece)) = items

variable {format : CollectionFormat} {separator : Char} {mark : String}

theorem separatorMark_of_joint? (hjoint : format.joint? = some (separator, mark)) :
    separatorMark separator = mark := by
  cases format <;> cases hjoint <;> decide

/-- The mark of a separator does not begin in the encoded texts that do without the separator. -/
theorem isFree_encodeQuery (hjoint : format.joint? = some (separator, mark)) {item : String}
    (hitem : separator ∉ item.toList) :
    Text.IsFree mark.toList (Percent.encodeQuery item).toList := by
  have hescaped : Percent.isAscii separator = true →
      mark.toList = Percent.escape separator.toNat.toUInt8 →
      Text.IsFree mark.toList (Percent.encodeQuery item).toList := by
    intro hascii hmark
    unfold Percent.encodeQuery
    rw [hmark, String.toList_ofList]
    exact Percent.isFree_encodeBy rfl (Percent.not_mem_encodeChar_of_ascii hascii hitem)
  cases format <;> cases hjoint
  case csv =>
    -- The comma stands for itself.
    refine Text.isFree_of_not_mem ?_
    unfold Percent.encodeQuery
    rw [String.toList_ofList]
    exact Percent.not_mem_encodeBy_of (fun hmem => absurd hmem hitem) (by decide) rfl
  case ssv => exact hescaped (by decide) (by decide)
  case tsv => exact hescaped (by decide) (by decide)
  case pipes => exact hescaped (by decide) (by decide)

theorem isReadBack_collected (format : CollectionFormat) (items : List String) :
    IsReadBack format items ((collected format (items.map Percent.encodeQuery)).map some) := by
  constructor
  case apart =>
    intro hjoint
    unfold collected
    rw [format.separator?_eq, hjoint]
    simp [Function.comp_def, Percent.decode_encodeQuery]
  case joined =>
    intro separator mark hjoint hne hitems
    have hmark : mark.toList ≠ [] := by cases format <;> cases hjoint <;> decide
    have hempty : (items.map Percent.encodeQuery).isEmpty = false := by simpa using hne
    refine ⟨mark.intercalate (items.map Percent.encodeQuery), ?_, ?_⟩
    · unfold collected
      rw [format.separator?_eq, hjoint]
      simp only [Option.map_some, hempty, separatorMark_of_joint? hjoint]
      rfl
    · have hpieces : ∀ piece ∈ (items.map Percent.encodeQuery).map String.toList,
          Text.IsFree mark.toList piece := by
        intro piece hpiece
        obtain ⟨encoded, hencoded, rfl⟩ := List.mem_map.mp hpiece
        obtain ⟨item, hitem, rfl⟩ := List.mem_map.mp hencoded
        exact isFree_encodeQuery hjoint (hitems item hitem)
      rw [String.toList_intercalate, Text.splitAround_intercalate (by simpa using hne) hmark hpieces]
      simp [Function.comp_def, Percent.decode_encodeQuery]

/-! ## Resolved values -/

variable {t t' : Template} {bindings : Bindings}

theorem resolveQueryValue_of_list {text name : String} {items : List String}
    (hsole : solePlaceholder? text = some name)
    (hbound : bindings.lookup name = some (.list (items.map .text))) :
    t.resolveQueryValue bindings (some text) =
      .ok ((collected t.format (items.map Percent.encodeQuery)).map some) := by
  rw [resolveQueryValue, hsole]
  dsimp only
  rw [hbound]
  dsimp only
  rw [Filling.ofValue_list]
  unfold collected
  cases t.format.separator? with
  | none => rfl
  | some separator =>
      change (if _ then _ else _) = _
      dsimp only
      split
      next => rfl
      next => rfl

/-- A value that is one placeholder and bound to a list is read back as the list. -/
def ReadsLists (t : Template) (bindings : Bindings) (value : Option String)
    (rendered : List (Option String)) : Prop :=
  ∀ text name items, value = some text → solePlaceholder? text = some name →
    bindings.lookup name = some (.list (items.map .text)) → IsReadBack t.format items rendered

theorem IsRendering.readsLists {value : Option String} {rendered : List (Option String)}
    (hrendered : t.IsRendering bindings value rendered) : t.ReadsLists bindings value rendered := by
  rintro text name items rfl hsole hbound
  have hfilled := hrendered.resolve_right fun hmissing => Option.some_ne_none text hmissing.1
  rw [resolveQueryValue_of_list hsole hbound] at hfilled
  rw [← Except.ok.inj hfilled]
  exact isReadBack_collected t.format items

/--
Lists are read back from the query of a resolved template. Under each name stands what the
values that get the name become, one after another, and of these every value that is a
placeholder of a list is read back as the list. Texts and lists of them always resolve, apart
from a body that is still to be written.
-/
theorem resolve_readsLists [Charsets] (t : Template) (bindings : Bindings) :
    (bindings.AreTextual → t.bodyText = none → ∃ t', t.resolve bindings = (t', none)) ∧
      ∀ t', t.resolve bindings = (t', none) → ∀ name, ∃ renderings,
        List.Forall₂ (t.ReadsLists bindings) (valuesNamed bindings name t.queries) renderings ∧
          (t'.queries.lookup name).getD [] = renderings.flatten := by
  refine ⟨fun htextual => resolve_isResolved htextual, ?_⟩
  intro t' hresolve name
  obtain ⟨renderings, hrenderings, hvalues⟩ :=
    renderings_of_resolveQueriesFrom name .nil rfl (queries_of_resolve hresolve)
  exact ⟨renderings, hrenderings.imp fun _ _ hrendered => hrendered.readsLists, hvalues⟩

open scoped CommonCharsets

/-- An empty text and one that looks like an escape are read back as well. -/
theorem resolve_readsLists_ofTags :
    ∃ t' value, (uri { format := .ssv } "/items?tag=\x7btag\x7d" false).resolve
        [("tag", .list [.text "a", .text "", .text "%20"])] = (t', none) ∧
      t'.queries.lookup "tag" = some [some value] ∧
      (Text.splitAround "%20".toList value.toList).map
        (fun piece => Percent.decode (String.ofList piece)) = ["a", "", "%20"] := by
  have htextual : Bindings.AreTextual [("tag", .list [.text "a", .text "", .text "%20"])] :=
    Bindings.areTextual_cons (Or.inr ⟨["a", "", "%20"], rfl⟩) Bindings.areTextual_nil
  obtain ⟨hresolves, hreads⟩ := resolve_readsLists
    (uri { format := .ssv } "/items?tag=\x7btag\x7d" false)
    [("tag", .list [.text "a", .text "", .text "%20"])]
  obtain ⟨t', hresolve⟩ := hresolves htextual rfl
  obtain ⟨renderings, hrenderings, hvalues⟩ := hreads t' hresolve "tag"
  have hnamed : valuesNamed [("tag", .list [.text "a", .text "", .text "%20"])] "tag"
      (uri { format := .ssv } "/items?tag=\x7btag\x7d" false).queries = [some "\x7btag\x7d"] := by
    decide +kernel
  rw [hnamed] at hrenderings
  obtain ⟨rendered, rest, hlist, hrest, rfl⟩ := List.forall₂_cons_left_iff.mp hrenderings
  obtain rfl := List.forall₂_nil_left_iff.mp hrest
  obtain ⟨value, rfl, hread⟩ := (hlist "\x7btag\x7d" "tag" ["a", "", "%20"] rfl (by decide +kernel)
    rfl).joined ' ' "%20" rfl (by decide) (by decide)
  refine ⟨t', value, hresolve, ?_, hread⟩
  cases hlookup : t'.queries.lookup "tag" with
  | none =>
      rw [hlookup] at hvalues
      cases hvalues
  | some values =>
      rw [hlookup] at hvalues
      exact congrArg some hvalues

end Template

end HttpBinding
