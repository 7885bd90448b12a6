import HttpBinding.Codec.Form
import HttpBinding.Proofs.Octets.Percent
import HttpBinding.Proofs.Template.Queries

/-!
# Forms read back

A form is split like a query: at every ampersand, and each part at its first equals sign.
A plus then stands for a space, and escapes for the octets of the text. Names and values are
written so that neither sign is left in them, and what is written of any names and values is
read as these names and values, in the same order.
-/

namespace HttpBinding

namespace Percent

theorem not_mem_encodeForm {mark : Char} (hsafe : isUnreserved mark = false) (hmark : mark ≠ '%')
    (hplus : mark ≠ '+') (hdigit : hexValue? mark = none) (text : String) :
    mark ∉ (encodeForm text).toList := by
  rw [encodeForm, String.toList_ofList]
  intro hmem
  obtain ⟨c, -, hc⟩ := List.mem_flatMap.mp hmem
  by_cases hspace : c = ' '
  · simp only [encodeFormChar, hspace, if_true, List.mem_singleton] at hc
    exact hplus hc
  · simp only [encodeFormChar, hspace, if_false] at hc
    have hencoded : mark ∈ encodeBy isUnreserved [c] := by simpa [encodeBy] using hc
    exact not_mem_encodeBy hsafe hmark hdigit [c] hencoded

end Percent

namespace Form

/-- The names and values that the octets of a form stand for. -/
def read (octets : Octets) : List (String × String) :=
  (Template.splitQuery (Utf8.decode octets)).map fun pair =>
    (Percent.decodeForm pair.1, Percent.decodeForm (pair.2.getD ""))

/-- The part of a form that a name and a value are. -/
def part (name value : String) : String :=
  Percent.encodeForm name ++ "=" ++ Percent.encodeForm value

theorem splitQuery_part (name value : String) :
    Template.splitQuery (part name value).toList =
      [(Percent.encodeForm name, some (Percent.encodeForm value))] := by
  have hreadable :
      Template.IsReadablePair (Percent.encodeForm name, some (Percent.encodeForm value)) := by
    constructor
    case noMark =>
      simp only [Template.pairText, String.toList_append, List.mem_append, not_or]
      exact ⟨⟨Percent.not_mem_encodeForm rfl (by decide) (by decide) rfl name, by decide⟩,
        Percent.not_mem_encodeForm rfl (by decide) (by decide) rfl value⟩
    case name_noEquals => exact Percent.not_mem_encodeForm rfl (by decide) (by decide) rfl name
    case nonempty => simp
  apply Template.splitQuery_pairText hreadable

/-- What is written of names and values is read as these names and values. -/
theorem read_ofParts (pairs : List (String × String)) :
    read (Utf8.encode (ofParts (pairs.map fun pair => part pair.1 pair.2)).toList) = pairs := by
  have hmarks : ("&" : String).toList = ['&'] := rfl
  rw [read, Utf8.decode_encode, ofParts, String.toList_intercalate, hmarks,
    Template.splitQuery_intercalate, List.map_map, List.flatMap_map]
  simp only [splitQuery_part, List.flatMap_singleton', Percent.decode_encodeForm, List.map_flatMap,
    Function.comp_def, List.map_singleton, Option.getD_some]

end Form

end HttpBinding
