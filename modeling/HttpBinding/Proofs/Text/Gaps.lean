import HttpBinding.Proofs.Text.Split

/-!
# Texts with gaps

Two texts that are alike but for what was put into them are one text with gaps, plugged in
two ways. If there is a gap, the two texts tell apart what was put into it, however often it
was and whatever stands around it: plugs of the same length are found at the same place, and
plugs of different lengths make texts of different lengths.
-/

namespace HttpBinding

/-- A text with gaps. -/
abbrev Gapped := List (Option Char)

namespace Gapped

/-- The text with the same plug in every gap. -/
def plug (chars : List Char) (g : Gapped) : List Char :=
  g.flatMap fun c? => c?.elim chars fun c => [c]

/-- A text without gaps. -/
def literal (text : String) : Gapped :=
  text.toList.map some

/-- The string with the same plug in every gap. -/
def text (s : String) (g : Gapped) : String :=
  String.ofList (g.plug s.toList)

variable {g : Gapped} {a b : List Char} {s t : String}

@[simp]
theorem plug_append (chars : List Char) (g h : Gapped) :
    plug chars (g ++ h) = plug chars g ++ plug chars h :=
  List.flatMap_append

@[simp]
theorem plug_literal (chars : List Char) (text : String) : plug chars (literal text) = text.toList := by
  unfold plug literal
  rw [List.flatMap_map]
  exact List.flatMap_singleton' text.toList

@[simp]
theorem plug_gap (chars : List Char) : plug chars [none] = chars :=
  List.append_nil chars

@[simp]
theorem toList_text (s : String) (g : Gapped) : (g.text s).toList = g.plug s.toList :=
  String.toList_ofList

@[simp]
theorem text_literal (s text : String) : (literal text).text s = text := by
  refine String.toList_inj.mp ?_
  rw [toList_text, plug_literal]

@[simp]
theorem text_gap (s : String) : text s [none] = s := by
  refine String.toList_inj.mp ?_
  rw [toList_text, plug_gap]

theorem not_mem_literal (text : String) : none ∉ literal text := by
  simp [literal]

/-- Without a gap there is nothing to plug. -/
theorem plug_eq_of_full (hfull : none ∉ g) : plug a g = plug b g := by
  induction g with
  | nil => rfl
  | cons c? g ih =>
      obtain ⟨hc, hg⟩ := List.ne_and_not_mem_of_not_mem_cons hfull
      cases c? with
      | none => exact absurd rfl hc
      | some c => exact congrArg (c :: ·) (ih hg)

theorem text_eq_of_full (hfull : none ∉ g) : text s g = text t g :=
  congrArg String.ofList (plug_eq_of_full hfull)

theorem length_plug (a b : List Char) (g : Gapped) :
    (plug a g).length + g.count none * b.length = (plug b g).length + g.count none * a.length := by
  induction g with
  | nil => simp [plug]
  | cons c? g ih =>
      cases c? with
      | none =>
          have hplug : ∀ chars : List Char, plug chars (none :: g) = chars ++ plug chars g :=
            fun chars => rfl
          rw [hplug, hplug, List.length_append, List.length_append, List.count_cons_self,
            Nat.add_mul, Nat.add_mul]
          omega
      | some c =>
          have hplug : ∀ chars : List Char, plug chars (some c :: g) = c :: plug chars g :=
            fun chars => rfl
          rw [hplug, hplug, List.length_cons, List.length_cons, List.count_cons_of_ne (by simp)]
          omega

/-- A text with a gap tells its plugs apart. -/
theorem plug_inj (hgap : none ∈ g) (heq : plug a g = plug b g) : a = b := by
  have hcount : 0 < g.count none := List.count_pos_iff.mpr hgap
  have hlength : a.length = b.length := by
    have hsum := length_plug a b g
    rw [heq, Nat.add_left_cancel_iff] at hsum
    exact (Nat.eq_of_mul_eq_mul_left hcount hsum).symm
  -- Up to the first gap the texts are the same, and there the plugs begin and end together.
  clear hcount
  induction g with
  | nil => cases hgap
  | cons c? g ih =>
      cases c? with
      | none => exact List.append_inj_left heq hlength
      | some c =>
          have hrest : none ∈ g := by simpa using hgap
          exact ih hrest (List.cons.inj heq).2

theorem text_inj (hgap : none ∈ g) (heq : text s g = text t g) : s = t := by
  have hplugs := congrArg String.toList heq
  rw [toList_text, toList_text] at hplugs
  exact String.toList_inj.mp (plug_inj hgap hplugs)

/-! ## Joining -/

theorem plug_intercalate (chars : List Char) (between : Gapped) (pieces : List Gapped) :
    plug chars (List.intercalate between pieces) =
      List.intercalate (plug chars between) (pieces.map (plug chars)) := by
  induction pieces with
  | nil => rfl
  | cons piece rest ih =>
      cases rest with
      | nil => simp only [List.intercalate_singleton, List.map_cons, List.map_nil]
      | cons next rest =>
          rw [List.intercalate_cons_cons, plug_append, plug_append, ih]
          simp only [List.map_cons]
          rw [List.intercalate_cons_cons]

/-- Pieces with gaps joined by a text. -/
def join (between : String) (pieces : List Gapped) : Gapped :=
  List.intercalate (literal between) pieces

theorem text_join (s between : String) (pieces : List Gapped) :
    text s (join between pieces) = between.intercalate (pieces.map (text s)) := by
  refine String.toList_inj.mp ?_
  unfold join
  rw [toList_text, plug_intercalate, plug_literal, String.toList_intercalate, List.map_map]
  simp only [Function.comp_def, toList_text]

theorem mem_join {between : String} {pieces : List Gapped} (hpiece : g ∈ pieces) (hgap : none ∈ g) :
    none ∈ join between pieces :=
  Text.mem_intercalate_of_mem hpiece hgap

end Gapped

end HttpBinding
