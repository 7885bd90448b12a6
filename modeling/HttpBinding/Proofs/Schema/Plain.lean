import HttpBinding.Schema.Dump
import Mathlib.Data.List.Basic

/-!
# Plain types

The types with an exact form in JSON are built from text, whole numbers, truth values,
lists, mappings by text, what may be null and models. In the form of a value the records
are objects by the names of their fields. In a form that is read, fields are looked for by
their keys, which are not always their names: a value whose records keep the names of their
fields is read from its own form, and another one need not be.
-/

namespace HttpBinding

namespace Schema

/-- A type that is built from types with an exact form in JSON. The fields of a model differ. -/
inductive IsPlain : Schema → Prop
  | text : IsPlain .text
  | int : IsPlain .int
  | bool : IsPlain .bool
  | list {item : Schema} (hitem : IsPlain item) : IsPlain (.list item)
  | dict {item : Schema} (hitem : IsPlain item) : IsPlain (.dict .text item)
  | nullable {inner : Schema} (hinner : IsPlain inner) : IsPlain (.nullable inner)
  | record {shape : Shape} {fields : List (FieldInfo × Schema)} (hmodel : shape.kind = .model)
      (hnames : (fields.map fun field => field.1.name).Nodup)
      (hfields : ∀ field ∈ fields, IsPlain field.2) : IsPlain (.record shape fields)

/-- A value of a plain type, in the records of which there are only fields that may be. -/
inductive Holds (may : FieldInfo → Prop) : Schema → Value → Prop
  | text (s : String) : Holds may .text (.text s)
  | int (n : Int) : Holds may .int (.int n)
  | bool (b : Bool) : Holds may .bool (.bool b)
  | list {item : Schema} {items : List Value} (hitems : ∀ v ∈ items, Holds may item v) :
      Holds may (.list item) (.list items)
  | dict {item : Schema} {pairs : List (String × Value)} (hnames : (pairs.map Prod.fst).Nodup)
      (hvalues : ∀ pair ∈ pairs, Holds may item pair.2) :
      Holds may (.dict .text item) (.dict (pairs.map fun pair => (.text pair.1, pair.2)))
  | null (inner : Schema) : Holds may (.nullable inner) .null
  | given {inner : Schema} {v : Value} (hinner : Holds may inner v) : Holds may (.nullable inner) v
  | record {shape : Shape} {fields : List (FieldInfo × Schema)} {own : List (String × Value)}
      (hnames : own.map Prod.fst = fields.map fun field => field.1.name)
      (hmay : ∀ field ∈ fields, may field.1)
      (hparts : ∀ part ∈ fields.zip own, Holds may part.1.2 part.2.2) :
      Holds may (.record shape fields) (.record shape own)

/-- A field is looked for by its own name. -/
def Keeps (info : FieldInfo) : Prop :=
  info.key = info.name

/-- A type in which a field that is looked for by another name must be given by that name. -/
inductive Insists : Schema → Prop
  | text : Insists .text
  | int : Insists .int
  | bool : Insists .bool
  | list {item : Schema} (hitem : Insists item) : Insists (.list item)
  | dict {item : Schema} (hitem : Insists item) : Insists (.dict .text item)
  | nullable {inner : Schema} (hinner : Insists inner) : Insists (.nullable inner)
  | record {shape : Shape} {fields : List (FieldInfo × Schema)}
      (hrenamed : ∀ field ∈ fields, Keeps field.1 ∨
        (field.1.default = none ∧ field.1.key ∉ fields.map fun other => other.1.name))
      (hfields : ∀ field ∈ fields, Insists field.2) : Insists (.record shape fields)

/-- A JSON value is taken in as a value of a plain type: fields are looked for by their keys. -/
inductive Takes : Schema → JsonValue → Value → Prop
  | text (s : String) : Takes .text (.text s) (.text s)
  | int (n : Int) : Takes .int (.int n) (.int n)
  | bool (b : Bool) : Takes .bool (.bool b) (.bool b)
  | list {item : Schema} {parts : List (JsonValue × Value)}
      (hparts : ∀ part ∈ parts, Takes item part.1 part.2) :
      Takes (.list item) (.array (parts.map Prod.fst)) (.list (parts.map Prod.snd))
  | dict {item : Schema} {parts : List (String × JsonValue × Value)}
      (hnames : (parts.map Prod.fst).Nodup) (hparts : ∀ part ∈ parts, Takes item part.2.1 part.2.2) :
      Takes (.dict .text item) (.object (parts.map fun part => (part.1, part.2.1)))
        (.dict (parts.map fun part => (.text part.1, part.2.2)))
  | null (inner : Schema) : Takes (.nullable inner) .null .null
  | given {inner : Schema} {j : JsonValue} {v : Value} (hj : j ≠ .null) (hinner : Takes inner j v) :
      Takes (.nullable inner) j v
  | record {shape : Shape} {parts : List ((FieldInfo × Schema) × JsonValue × Value)}
      {members : List (String × JsonValue)} (hmembers : (members.map Prod.fst).Nodup)
      (hgiven : ∀ part ∈ parts, (part.1.1.key, part.2.1) ∈ members)
      (hparts : ∀ part ∈ parts, Takes part.1.2 part.2.1 part.2.2) :
      Takes (.record shape (parts.map Prod.fst)) (.object members)
        (.record shape (parts.map fun part => (part.1.1.name, part.2.2)))

/-- A JSON value is refused as a value of a plain type, since a field that must be given is not. -/
inductive Refuses : Schema → JsonValue → Prop
  | list {item : Schema} {items : List JsonValue} {j : JsonValue} (hj : j ∈ items)
      (hitem : Refuses item j) : Refuses (.list item) (.array items)
  | dict {item : Schema} {members : List (String × JsonValue)} {member : String × JsonValue}
      (hnames : (members.map Prod.fst).Nodup) (hmember : member ∈ members)
      (hitem : Refuses item member.2) : Refuses (.dict .text item) (.object members)
  | given {inner : Schema} {j : JsonValue} (hj : j ≠ .null) (hinner : Refuses inner j) :
      Refuses (.nullable inner) j
  | part {shape : Shape} {fields : List (FieldInfo × Schema)} {members : List (String × JsonValue)}
      {field : FieldInfo × Schema} {j : JsonValue} (hmembers : (members.map Prod.fst).Nodup)
      (hfield : field ∈ fields) (hgiven : (field.1.key, j) ∈ members) (hpart : Refuses field.2 j) :
      Refuses (.record shape fields) (.object members)
  | missing {shape : Shape} {fields : List (FieldInfo × Schema)} {members : List (String × JsonValue)}
      {field : FieldInfo × Schema} (hmembers : (members.map Prod.fst).Nodup) (hfield : field ∈ fields)
      (hdefault : field.1.default = none) (hmissing : field.1.key ∉ members.map Prod.fst) :
      Refuses (.record shape fields) (.object members)

end Schema

mutual

/-- A value whose records are mappings from the names of their fields. -/
def Value.unshaped : Value → Value
  | .list items => .list (Value.unshapedAll items)
  | .dict entries => .dict (Value.unshapedEntries entries)
  | .record _ fields => .dict (Value.unshapedFields fields)
  | value => value

/-- Several values without records. -/
def Value.unshapedAll : List Value → List Value
  | [] => []
  | item :: rest => item.unshaped :: Value.unshapedAll rest

/-- The entries of a mapping without records. -/
def Value.unshapedEntries : List (Value × Value) → List (Value × Value)
  | [] => []
  | (key, value) :: rest => (key, value.unshaped) :: Value.unshapedEntries rest

/-- The fields of a record as entries without records. -/
def Value.unshapedFields : List (String × Value) → List (Value × Value)
  | [] => []
  | (name, value) :: rest => (.text name, value.unshaped) :: Value.unshapedFields rest

end

namespace Value

theorem unshapedAll_eq_map (items : List Value) : unshapedAll items = items.map unshaped := by
  induction items with
  | nil => rfl
  | cons item rest ih => rw [unshapedAll, ih, List.map_cons]

theorem unshapedFields_eq_map (fields : List (String × Value)) :
    unshapedFields fields = fields.map fun field => (.text field.1, field.2.unshaped) := by
  induction fields with
  | nil => rfl
  | cons field rest ih => rw [unshapedFields, ih, List.map_cons]

theorem unshapedEntries_texts (pairs : List (String × Value)) :
    unshapedEntries (pairs.map fun pair => (.text pair.1, pair.2)) =
      pairs.map fun pair => (.text pair.1, pair.2.unshaped) := by
  induction pairs with
  | nil => rfl
  | cons pair rest ih => rw [List.map_cons, unshapedEntries, ih, List.map_cons]

end Value

namespace Schema

variable {known : Schemas} {may : FieldInfo → Prop} {schema item : Schema} {v : Value}

theorem Holds.mono {other : FieldInfo → Prop} (hmay : ∀ info, may info → other info)
    (hholds : Holds may schema v) : Holds other schema v := by
  induction hholds with
  | text s => exact .text s
  | int n => exact .int n
  | bool b => exact .bool b
  | list _ ih => exact .list ih
  | dict hnames _ ih => exact .dict hnames ih
  | null inner => exact .null inner
  | given _ ih => exact .given ih
  | record hnames hfields _ ih => exact .record hnames (fun field h => hmay _ (hfields field h)) ih

section Parts

variable {fields : List (FieldInfo × Schema)} {own : List (String × Value)}
  (hnames : own.map Prod.fst = fields.map fun field => field.1.name)

include hnames

/-- The values of a record stand beside the fields of its type. -/
theorem map_fst_zip : (fields.zip own).map Prod.fst = fields := by
  refine List.map_fst_zip ?_
  have hlength := congrArg List.length hnames
  rw [List.length_map, List.length_map] at hlength
  exact Nat.le_of_eq hlength.symm

theorem name_of_mem_zip {part : (FieldInfo × Schema) × String × Value}
    (hpart : part ∈ fields.zip own) : part.2.1 = part.1.1.name := by
  induction fields generalizing own with
  | nil => cases hpart
  | cons field rest ih =>
      cases own with
      | nil => cases hpart
      | cons entry others =>
          obtain ⟨hname, hrest⟩ := List.cons.inj hnames
          rcases List.mem_cons.mp hpart with rfl | hpart
          · exact hname
          · exact ih hrest hpart

theorem map_name_zip : (fields.zip own).map (fun part => (part.1.1.name, part.2.2)) = own := by
  have hlength := congrArg List.length hnames
  rw [List.length_map, List.length_map] at hlength
  have hsame : ∀ part ∈ fields.zip own, (part.1.1.name, part.2.2) = part.2 :=
    fun part hpart => Prod.ext (name_of_mem_zip hnames hpart).symm rfl
  rw [List.map_congr_left hsame]
  exact List.map_snd_zip (Nat.le_of_eq hlength)

/-- A record that does not keep the names of its fields fails to at one of its parts. -/
theorem exists_part_of_not_holds {shape : Shape}
    (hnot : ¬ Holds Keeps (.record shape fields) (.record shape own)) :
    ∃ part ∈ fields.zip own, Keeps part.1.1 → ¬ Holds Keeps part.1.2 part.2.2 := by
  by_contra hall
  refine hnot (.record hnames ?_ ?_)
  · intro field hfield
    rw [← map_fst_zip hnames] at hfield
    obtain ⟨part, hpart, rfl⟩ := List.mem_map.mp hfield
    exact by_contra fun hkeeps => hall ⟨part, hpart, fun h => absurd h hkeeps⟩
  · intro part hpart
    exact by_contra fun hvalue => hall ⟨part, hpart, fun _ => hvalue⟩

end Parts

/-! ## The JSON of what is written -/

/-- The form that a value has in JSON. Records become objects by the names of their fields. -/
def jsonForm (v : Value) : JsonValue :=
  jsonOf v.unshaped

theorem jsonOfAll_eq_map (values : List Value) : jsonOfAll values = values.map jsonOf := by
  induction values with
  | nil => rfl
  | cons value rest ih => rw [jsonOfAll, ih, List.map_cons]

theorem jsonOfEntries_texts (pairs : List (String × Value)) :
    jsonOfEntries (pairs.map fun pair => (.text pair.1, pair.2)) =
      pairs.map fun pair => (pair.1, jsonOf pair.2) := by
  induction pairs with
  | nil => rfl
  | cons pair rest ih =>
      rw [List.map_cons, jsonOfEntries, ih]
      rfl

theorem jsonForm_list (items : List Value) :
    jsonForm (.list items) = .array (items.map jsonForm) := by
  rw [jsonForm, Value.unshaped, jsonOf, jsonOfAll_eq_map, Value.unshapedAll_eq_map, List.map_map]
  rfl

theorem jsonForm_dict (pairs : List (String × Value)) :
    jsonForm (.dict (pairs.map fun pair => (.text pair.1, pair.2))) =
      .object (pairs.map fun pair => (pair.1, jsonForm pair.2)) := by
  have hpairs := jsonOfEntries_texts (pairs.map fun pair => (pair.1, pair.2.unshaped))
  rw [List.map_map, List.map_map] at hpairs
  rw [jsonForm, Value.unshaped, Value.unshapedEntries_texts, jsonOf]
  exact congrArg JsonValue.object hpairs

theorem jsonForm_record (shape : Shape) (own : List (String × Value)) :
    jsonForm (.record shape own) = .object (own.map fun field => (field.1, jsonForm field.2)) := by
  have hpairs := jsonOfEntries_texts (own.map fun field => (field.1, field.2.unshaped))
  rw [List.map_map, List.map_map] at hpairs
  rw [jsonForm, Value.unshaped, Value.unshapedFields_eq_map, jsonOf]
  exact congrArg JsonValue.object hpairs

/-- Only null has the form of null. -/
theorem Holds.eq_null (hholds : Holds may schema v) (hnull : jsonForm v = .null) : v = .null := by
  induction hholds with
  | null inner => rfl
  | given _ ih => exact ih hnull
  | list _ _ => rw [jsonForm_list] at hnull; cases hnull
  | dict _ _ _ => rw [jsonForm_dict] at hnull; cases hnull
  | record _ _ _ _ => rw [jsonForm_record] at hnull; cases hnull
  | text s => cases hnull
  | int n => cases hnull
  | bool b => cases hnull

/-! ## Forms that are taken in, and forms that are refused -/

theorem takes_list {items : List Value} (hitems : ∀ v ∈ items, Takes item (jsonForm v) v) :
    Takes (.list item) (jsonForm (.list items)) (.list items) := by
  have htakes : Takes (.list item)
      (.array ((items.map fun v => (jsonForm v, v)).map Prod.fst))
      (.list ((items.map fun v => (jsonForm v, v)).map Prod.snd)) := by
    refine .list ?_
    intro part hpart
    obtain ⟨v, hv, rfl⟩ := List.mem_map.mp hpart
    exact hitems v hv
  rw [jsonForm_list]
  simpa [Function.comp_def] using htakes

theorem takes_dict {pairs : List (String × Value)} (hnames : (pairs.map Prod.fst).Nodup)
    (hpairs : ∀ pair ∈ pairs, Takes item (jsonForm pair.2) pair.2) :
    Takes (.dict .text item) (jsonForm (.dict (pairs.map fun pair => (.text pair.1, pair.2))))
      (.dict (pairs.map fun pair => (.text pair.1, pair.2))) := by
  have htakes : Takes (.dict .text item)
      (.object ((pairs.map fun pair => (pair.1, jsonForm pair.2, pair.2)).map fun part =>
        (part.1, part.2.1)))
      (.dict ((pairs.map fun pair => (pair.1, jsonForm pair.2, pair.2)).map fun part =>
        (.text part.1, part.2.2))) := by
    refine .dict (by simpa [Function.comp_def] using hnames) ?_
    intro part hpart
    obtain ⟨pair, hpair, rfl⟩ := List.mem_map.mp hpart
    exact hpairs pair hpair
  rw [jsonForm_dict]
  simpa [Function.comp_def] using htakes

/-- A record that keeps the names of its fields is taken in if its parts are. -/
theorem takes_record {shape : Shape} {fields : List (FieldInfo × Schema)}
    {own : List (String × Value)} (hnames : own.map Prod.fst = fields.map fun field => field.1.name)
    (hdistinct : (fields.map fun field => field.1.name).Nodup)
    (hkeeps : ∀ field ∈ fields, Keeps field.1)
    (hparts : ∀ part ∈ fields.zip own, Takes part.1.2 (jsonForm part.2.2) part.2.2) :
    Takes (.record shape fields) (jsonForm (.record shape own)) (.record shape own) := by
  have htakes : Takes (.record shape (((fields.zip own).map fun part =>
        (part.1, jsonForm part.2.2, part.2.2)).map Prod.fst))
      (.object (own.map fun field => (field.1, jsonForm field.2)))
      (.record shape (((fields.zip own).map fun part =>
        (part.1, jsonForm part.2.2, part.2.2)).map fun part => (part.1.1.name, part.2.2))) := by
    refine .record (by simpa [Function.comp_def] using hnames ▸ hdistinct) ?_ ?_
    · intro part hpart
      obtain ⟨⟨field, entry⟩, hmem, rfl⟩ := List.mem_map.mp hpart
      obtain ⟨hfield, hentry⟩ := List.of_mem_zip hmem
      have hname : entry.1 = field.1.key :=
        (name_of_mem_zip hnames hmem).trans (hkeeps field hfield).symm
      exact hname ▸ List.mem_map_of_mem hentry
    · intro part hpart
      obtain ⟨part, hmem, rfl⟩ := List.mem_map.mp hpart
      exact hparts part hmem
  rw [jsonForm_record]
  simpa [Function.comp_def, map_fst_zip hnames, map_name_zip hnames] using htakes

/-- A value whose records keep the names of their fields has a form that is taken in as the value. -/
theorem Holds.takes (hplain : schema.IsPlain) (hholds : Holds Keeps schema v) :
    Takes schema (jsonForm v) v := by
  induction hholds with
  | text s => exact .text s
  | int n => exact .int n
  | bool b => exact .bool b
  | list _ ih =>
      cases hplain with
      | list hitem => exact takes_list fun v hv => ih v hv hitem
  | dict hnames _ ih =>
      cases hplain with
      | dict hitem => exact takes_dict hnames fun pair hpair => ih pair hpair hitem
  | null inner => exact .null inner
  | @given inner v hholds ih =>
      cases hplain with
      | nullable hinner =>
          by_cases hnull : jsonForm v = .null
          · obtain rfl := hholds.eq_null hnull
            exact .null inner
          · exact .given hnull (ih hinner)
  | record hnames hkeeps _ ih =>
      cases hplain with
      | record hmodel hdistinct hfields =>
          refine takes_record hnames hdistinct hkeeps ?_
          intro part hpart
          exact ih part hpart (hfields part.1 (List.of_mem_zip hpart).1)

/--
In a type that insists on keys, a value with a field that is looked for by another name than its
own has a form that is refused.
-/
theorem Holds.refuses (hplain : schema.IsPlain) (hinsists : schema.Insists)
    (hholds : Holds may schema v) (hnot : ¬ Holds Keeps schema v) : Refuses schema (jsonForm v) := by
  induction hholds with
  | text s => exact absurd (.text s) hnot
  | int n => exact absurd (.int n) hnot
  | bool b => exact absurd (.bool b) hnot
  | @list item items _ ih =>
      cases hplain with
      | list hitem =>
          cases hinsists with
          | list hinsists =>
              obtain ⟨v, hv, hother⟩ : ∃ v ∈ items, ¬ Holds Keeps item v := by
                by_contra hall
                exact hnot (.list fun v hv => by_contra fun hother => hall ⟨v, hv, hother⟩)
              rw [jsonForm_list]
              exact .list (List.mem_map_of_mem hv) (ih v hv hitem hinsists hother)
  | @dict item pairs hnames _ ih =>
      cases hplain with
      | dict hitem =>
          cases hinsists with
          | dict hinsists =>
              obtain ⟨pair, hpair, hother⟩ : ∃ pair ∈ pairs, ¬ Holds Keeps item pair.2 := by
                by_contra hall
                exact hnot (.dict hnames fun pair hpair =>
                  by_contra fun hother => hall ⟨pair, hpair, hother⟩)
              rw [jsonForm_dict]
              exact .dict (by simpa [Function.comp_def] using hnames) (List.mem_map_of_mem hpair)
                (ih pair hpair hitem hinsists hother)
  | null inner => exact absurd (.null inner) hnot
  | @given inner v hholds ih =>
      cases hplain with
      | nullable hinner =>
          cases hinsists with
          | nullable hinsists =>
              refine .given ?_ (ih hinner hinsists fun hkeeps => hnot (.given hkeeps))
              intro hnull
              obtain rfl := hholds.eq_null hnull
              exact hnot (.null inner)
  | @record shape fields own hnames hmay hparts ih =>
      cases hplain with
      | record hmodel hdistinct hfields =>
          cases hinsists with
          | record hrenamed hinsists =>
              have hmembers : ((own.map fun field => (field.1, jsonForm field.2)).map Prod.fst).Nodup := by
                simpa [Function.comp_def] using hnames ▸ hdistinct
              obtain ⟨⟨field, entry⟩, hpart, hother⟩ := exists_part_of_not_holds hnames hnot
              obtain ⟨hfield, hentry⟩ := List.of_mem_zip hpart
              rw [jsonForm_record]
              by_cases hkeeps : Keeps field.1
              · have hname : entry.1 = field.1.key :=
                  (name_of_mem_zip hnames hpart).trans hkeeps.symm
                exact .part hmembers hfield (hname ▸ List.mem_map_of_mem hentry)
                  (ih _ hpart (hfields field hfield) (hinsists field hfield) (hother hkeeps))
              · obtain ⟨hdefault, hkey⟩ := (hrenamed field hfield).resolve_left hkeeps
                refine .missing hmembers hfield hdefault ?_
                rw [List.map_map]
                exact hnames ▸ hkey

end Schema

end HttpBinding
