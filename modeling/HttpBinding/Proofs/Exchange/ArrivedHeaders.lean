import HttpBinding.Exchange.Wire
import HttpBinding.Proofs.Entries

/-!
# Headers that arrive

The headers of a response are gathered from the pairs that a connection answers with: the
values of a name come together as it is spelled. They are looked up without regard to case,
and the spelling that arrived first is the one that is found. So a header is complete if all
its pairs are spelled alike; of a header that arrives under several spellings all but the
first stay unseen. Nothing stays unseen if and only if the connection spells every name in
one way.
-/

namespace HttpBinding

theorem Text.sameName_iff {first second : String} :
    sameName first second = true ↔ lower first.toList = lower second.toList :=
  beq_iff_eq

namespace Wire

variable {pairs : List (String × String)} {name : String}

/-- The values of the pairs that name a header, without regard to case, in order of arrival. -/
def valuesNaming (name : String) (pairs : List (String × String)) : List String :=
  (pairs.filter fun pair => Text.sameName pair.1 name).map Prod.snd

/-- How the name of a header is spelled where it arrives first. -/
def firstSpelling? (name : String) (pairs : List (String × String)) : Option String :=
  (pairs.find? fun pair => Text.sameName pair.1 name).map Prod.fst

/-- Whether names that are the same without regard to case are spelled in one way. -/
def AreSpelledAlike (pairs : List (String × String)) : Prop :=
  ∀ pair ∈ pairs, ∀ other ∈ pairs, Text.sameName pair.1 other.1 = true → pair.1 = other.1

/-- The response with the headers that pairs come to. -/
def arriving (r : Response) (pairs : List (String × String)) : Response :=
  { r with headers := groupHeaders pairs }

/-! ## What is found -/

theorem sameName_of_firstSpelling? {spelling : String}
    (hfirst : firstSpelling? name pairs = some spelling) :
    Text.sameName spelling name = true := by
  obtain ⟨first, hfound, rfl⟩ := Option.map_eq_some_iff.mp hfirst
  exact (List.find?_eq_some_iff_append.mp hfound).1

/-- What is found of a header are the values of the spelling that arrives first. -/
theorem header_arriving (r : Response) (pairs : List (String × String)) (name : String) :
    (arriving r pairs).header name =
      (pairs.filter fun pair => firstSpelling? name pairs = some pair.1).map Prod.snd := by
  have hfound := Entries.find?_gathered (Text.sameName · name) pairs
  change ((Option.map Prod.snd ((Entries.gathered pairs).find? fun entry =>
    Text.sameName entry.1 name)).getD []) = _
  rw [hfound]
  unfold firstSpelling?
  cases pairs.find? fun pair => Text.sameName pair.1 name with
  | none => simp
  | some first => simp [eq_comm]

/-- Nothing of a header stays unseen only if all its pairs have the spelling that arrives first. -/
theorem header_arriving_eq_iff (r : Response) (pairs : List (String × String)) (name : String) :
    (arriving r pairs).header name = valuesNaming name pairs ↔
      ∀ pair ∈ pairs, Text.sameName pair.1 name = true →
        firstSpelling? name pairs = some pair.1 := by
  have hseen : (pairs.filter fun pair => firstSpelling? name pairs = some pair.1) =
      (pairs.filter fun pair => Text.sameName pair.1 name).filter fun pair =>
        firstSpelling? name pairs = some pair.1 := by
    rw [List.filter_filter]
    refine List.filter_congr fun pair _ => ?_
    by_cases hfirst : firstSpelling? name pairs = some pair.1
    · simp [hfirst, sameName_of_firstSpelling? hfirst]
    · simp [hfirst]
  rw [header_arriving, valuesNaming, hseen]
  constructor
  · -- Nothing is filtered out of the pairs that name the header.
    intro hall pair hpair hsame
    have hlength := congrArg List.length hall
    rw [List.length_map, List.length_map, List.length_filter_eq_length_iff] at hlength
    simpa using hlength pair (List.mem_filter.mpr ⟨hpair, hsame⟩)
  · intro hall
    refine congrArg (List.map Prod.snd) (List.filter_eq_self.mpr ?_)
    intro pair hpair
    obtain ⟨hmem, hsame⟩ := List.mem_filter.mp hpair
    simpa using hall pair hmem hsame

/-- Nothing of any header stays unseen only if every name is spelled in one way. -/
theorem headers_arriving_iff (r : Response) (pairs : List (String × String)) :
    (∀ name, (arriving r pairs).header name = valuesNaming name pairs) ↔ AreSpelledAlike pairs := by
  constructor
  · intro hall pair hpair other hother hsame
    have hseen := (header_arriving_eq_iff r pairs other.1).mp (hall other.1)
    exact Option.some.inj ((hseen pair hpair hsame).symm.trans
      (hseen other hother (Text.sameName_iff.mpr rfl)))
  · intro halike name
    rw [header_arriving_eq_iff]
    intro pair hpair hsame
    -- The pair that is found first names the header too, and so it is spelled like every other.
    cases hfirst : pairs.find? fun pair => Text.sameName pair.1 name with
    | none => exact absurd hsame (List.find?_eq_none.mp hfirst pair hpair)
    | some first =>
        obtain ⟨hfirstSame, -⟩ := List.find?_eq_some_iff_append.mp hfirst
        have hboth : Text.sameName first.1 pair.1 = true :=
          Text.sameName_iff.mpr
            ((Text.sameName_iff.mp hfirstSame).trans (Text.sameName_iff.mp hsame).symm)
        rw [firstSpelling?, hfirst, Option.map_some,
          halike first (List.mem_of_find?_eq_some hfirst) pair hpair hboth]

/--
A response that pairs come to has the values of a header in order of arrival, as far as its name
is spelled as it is at first. These are all its values just in case there is no other spelling.
The headers are complete under every name just in case each name is spelled in one way.
-/
theorem header_complete_iff (r : Response) (pairs : List (String × String)) (name : String) :
    (arriving r pairs).header name =
        (pairs.filter fun pair => firstSpelling? name pairs = some pair.1).map Prod.snd ∧
      ((arriving r pairs).header name = valuesNaming name pairs ↔
        ∀ pair ∈ pairs, Text.sameName pair.1 name = true →
          firstSpelling? name pairs = some pair.1) ∧
      ((∀ name, (arriving r pairs).header name = valuesNaming name pairs) ↔
        AreSpelledAlike pairs) :=
  ⟨header_arriving r pairs name, header_arriving_eq_iff r pairs name, headers_arriving_iff r pairs⟩

/-- A header under two spellings. -/
def twiceSpelled : List (String × String) :=
  [("X-Trace", "a"), ("x-trace", "b")]

/-- A header that arrives under two spellings is found under the first of them only. -/
theorem header_hides_spelling :
    valuesNaming "x-trace" twiceSpelled = ["a", "b"] ∧
      (arriving { status := 200 } twiceSpelled).header "x-trace" = ["a"] := by
  decide +kernel

end Wire

end HttpBinding
