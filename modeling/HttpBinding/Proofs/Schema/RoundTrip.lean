import HttpBinding.Proofs.Json.RoundTrip
import HttpBinding.Proofs.Schema.Plain
import HttpBinding.Proofs.Success
import HttpBinding.Schema.Validate
import Mathlib.Data.List.Nodup

/-!
# Writing and reading plain types by schemas

By its schema a value of a plain type is written in its form, and the form of a value is read
as far as it is taken in: fields are found by their keys, and nothing is read where a field
that must be given is missing.
-/

namespace HttpBinding

namespace Schema

theorem fieldsAreKnown_of_all {fields : List (FieldInfo × Schema)}
    (hall : ∀ field ∈ fields, isKnown field.2 = true) : fieldsAreKnown fields = true := by
  induction fields with
  | nil => rfl
  | cons field rest ih =>
      rw [fieldsAreKnown, hall field List.mem_cons_self, Bool.true_and]
      exact ih fun other hother => hall other (List.mem_cons_of_mem _ hother)

theorem IsPlain.isKnown {schema : Schema} (hplain : schema.IsPlain) : schema.isKnown = true := by
  induction hplain with
  | text => rfl
  | int => rfl
  | bool => rfl
  | list _ ih => exact ih
  | dict _ ih => simpa [Schema.isKnown] using ih
  | nullable _ ih => exact ih
  | record _ _ _ ih => exact fieldsAreKnown_of_all ih

variable {known : Schemas} {may : FieldInfo → Prop} {schema item : Schema} {v : Value}

/-! ## Writing -/

theorem dumpAll_eq {items : List Value}
    (hitems : ∀ v ∈ items, dump known .written .free item v = .ok v.unshaped) :
    dumpAll known .written .free item items = .ok (Value.unshapedAll items) := by
  induction items with
  | nil => rw [dumpAll]; rfl
  | cons first rest ih =>
      rw [dumpAll, hitems first List.mem_cons_self,
        ih fun v hv => hitems v (List.mem_cons_of_mem _ hv)]
      rfl

theorem dumpEntries_eq {pairs : List (String × Value)}
    (hvalues : ∀ pair ∈ pairs, dump known .written .free item pair.2 = .ok pair.2.unshaped) :
    dumpEntries known .written .free .text item (pairs.map fun pair => (.text pair.1, pair.2)) =
      .ok (pairs.map fun pair => (.text pair.1, pair.2.unshaped)) := by
  induction pairs with
  | nil => rw [List.map_nil, dumpEntries]; rfl
  | cons first rest ih =>
      rw [List.map_cons, dumpEntries, hvalues first List.mem_cons_self,
        ih fun pair hpair => hvalues pair (List.mem_cons_of_mem _ hpair)]
      rfl

/-- Fields that are all declared are written out under their names. -/
theorem dumpFields_eq {declared : List (FieldInfo × Schema)} {own : List (String × Value)}
    (hown : ∀ field ∈ own, ∃ info schema, fieldOf? declared field.1 = some (info, schema) ∧
      info.name = field.1 ∧ dump known .written .free schema field.2 = .ok field.2.unshaped) :
    dumpFields known .written .free declared own = .ok (Value.unshapedFields own) := by
  induction own with
  | nil => rw [dumpFields]; rfl
  | cons first rest ih =>
      obtain ⟨info, schema, hfound, hname, hdump⟩ := hown first List.mem_cons_self
      rw [dumpFields, ih fun field hfield => hown field (List.mem_cons_of_mem _ hfield), hfound,
        Value.unshapedFields]
      change (dump known .written .free schema first.2).bind _ = _
      rw [hdump, ← hname]
      rfl

theorem fieldOf?_of_mem {fields : List (FieldInfo × Schema)}
    (hnames : (fields.map fun field => field.1.name).Nodup) {field : FieldInfo × Schema}
    (hfield : field ∈ fields) : fieldOf? fields field.1.name = some field := by
  unfold fieldOf?
  cases hfound : fields.find? fun other => other.1.name == field.1.name with
  | none =>
      have hnone := List.find?_eq_none.mp hfound field hfield
      simp at hnone
  | some found =>
      have hname : found.1.name = field.1.name := by simpa using List.find?_some hfound
      have hmem : found ∈ fields := List.mem_of_find?_eq_some hfound
      rw [List.inj_on_of_nodup_map hnames hmem hfield hname]

/-- A value of a plain type is written out as it is. -/
theorem dump_eq (hplain : schema.IsPlain) (hholds : Holds may schema v) :
    dump known .written .free schema v = .ok v.unshaped := by
  induction hholds with
  | text s => rw [dump]; rfl
  | int n => rw [dump]; rfl
  | bool b => rw [dump]; rfl
  | list _ ih =>
      cases hplain with
      | list hitem =>
          rw [dump, dumpAll_eq fun v hv => ih v hv hitem]
          rfl
  | dict _ _ ih =>
      cases hplain with
      | dict hitem =>
          rw [dump, dumpEntries_eq fun pair hpair => ih pair hpair hitem, Value.unshaped,
            Value.unshapedEntries_texts]
          rfl
  | null inner => rw [dump]; rfl
  | @given inner v _ ih =>
      cases hplain with
      | nullable hinner =>
          rw [dump, ih hinner]
          cases v <;> rfl
  | @record shape fields own hnames hmay hparts ih =>
      cases hplain with
      | record hmodel hdistinct hfields =>
          have hown : modelFields? .free shape (.record shape own) = some own := by
            simp [modelFields?]
          have hdump : dumpFields known .written .free fields own =
              .ok (Value.unshapedFields own) := by
            refine dumpFields_eq ?_
            intro entry hentry
            rw [← map_name_zip hnames] at hentry
            obtain ⟨part, hpart, rfl⟩ := List.mem_map.mp hentry
            obtain ⟨hfield, -⟩ := List.of_mem_zip hpart
            exact ⟨part.1.1, part.1.2, fieldOf?_of_mem hdistinct hfield, rfl,
              ih _ hpart (hfields _ hfield)⟩
          rw [dump, if_pos hmodel]
          split
          next fields' hfields' =>
            obtain rfl := Option.some.inj (hown.symm.trans hfields')
            rw [hdump]
            rfl
          next hnone => simp [hown] at hnone

theorem areExact_eq_all (items : List JsonValue) :
    JsonValue.areExact items = items.all JsonValue.isExact := by
  induction items with
  | nil => rfl
  | cons item rest ih => rw [JsonValue.areExact, ih, List.all_cons]

theorem haveExact_eq_all (members : List (String × JsonValue)) :
    JsonValue.haveExact members = members.all fun member => member.2.isExact := by
  induction members with
  | nil => rfl
  | cons member rest ih => rw [JsonValue.haveExact, ih, List.all_cons]

/-- There are no fractions in the form of a value of a plain type. -/
theorem Holds.isExact (hholds : Holds may schema v) : (jsonForm v).isExact = true := by
  induction hholds with
  | text s => rfl
  | int n => rfl
  | bool b => rfl
  | list _ ih =>
      rw [jsonForm_list, JsonValue.isExact, areExact_eq_all, List.all_map, List.all_eq_true]
      exact ih
  | dict _ _ ih =>
      rw [jsonForm_dict, JsonValue.isExact, haveExact_eq_all, List.all_map, List.all_eq_true]
      exact ih
  | null inner => rfl
  | given _ ih => exact ih
  | @record shape fields own hnames _ _ ih =>
      rw [jsonForm_record, JsonValue.isExact, haveExact_eq_all, List.all_map, List.all_eq_true]
      intro entry hentry
      rw [← map_name_zip hnames] at hentry
      obtain ⟨part, hpart, rfl⟩ := List.mem_map.mp hentry
      exact ih part hpart

end Schema

/-! ## Readings that succeed and readings that fail -/

namespace Reading

variable {α β : Type} {x : Reading α} {next : α → Reading β} {a : α} {b : β}

/-- A reading comes to a value, however well everything has fit so far. -/
def Gives (x : Reading α) (a : α) : Prop :=
  ∀ fit, ∃ fit', x fit = some (a, fit')

/-- A reading fails, however well everything has fit so far. -/
def Fails (x : Reading α) : Prop :=
  ∀ fit, x fit = none

theorem gives_pure (a : α) : Gives (pure a : Reading α) a :=
  fun fit => ⟨fit, rfl⟩

theorem gives_lift {found : Option α} (hfound : found = some a) :
    Gives (StateT.lift found : Reading α) a := by
  intro fit
  exact ⟨fit, by rw [hfound]; rfl⟩

theorem fails_lift {found : Option α} (hfound : found = none) :
    Fails (StateT.lift found : Reading α) := by
  intro fit
  rw [hfound]
  rfl

theorem gives_modify (change : Fit → Fit) : Gives (modify change : Reading Unit) () :=
  fun fit => ⟨change fit, rfl⟩

theorem gives_bind (hx : x.Gives a) (hnext : (next a).Gives b) : Gives (x >>= next) b := by
  intro fit
  obtain ⟨fit', hfit'⟩ := hx fit
  obtain ⟨fit'', hfit''⟩ := hnext fit'
  refine ⟨fit'', ?_⟩
  change (x fit).bind _ = _
  rw [hfit']
  exact hfit''

theorem fails_bind (hx : x.Fails) : Fails (x >>= next) := by
  intro fit
  change (x fit).bind _ = _
  rw [hx fit]
  rfl

theorem fails_bind_of_gives (hx : x.Gives a) (hnext : (next a).Fails) : Fails (x >>= next) := by
  intro fit
  obtain ⟨fit', hfit'⟩ := hx fit
  change (x fit).bind _ = _
  rw [hfit']
  exact hnext fit'

theorem fails_bind_next (hnext : ∀ a, (next a).Fails) : Fails (x >>= next) := by
  intro fit
  change (x fit).bind _ = _
  cases hx : x fit with
  | none => rfl
  | some result => exact hnext result.1 result.2

theorem gives_mapM {read : α → Reading β} {items : List α} {results : List β}
    (hall : List.Forall₂ (fun item result => (read item).Gives result) items results) :
    Gives (items.mapM read) results := by
  induction hall with
  | nil =>
      rw [List.mapM_nil]
      exact gives_pure []
  | cons hfirst _ ih =>
      rw [List.mapM_cons]
      exact gives_bind hfirst (gives_bind ih (gives_pure _))

theorem fails_mapM {read : α → Reading β} {items : List α} {item : α} (hitem : item ∈ items)
    (hfails : (read item).Fails) : Fails (items.mapM read) := by
  induction items with
  | nil => cases hitem
  | cons first rest ih =>
      rw [List.mapM_cons]
      rcases List.mem_cons.mp hitem with rfl | hrest
      · exact fails_bind hfails
      · exact fails_bind_next fun result => fails_bind (ih hrest)

end Reading

/-! ## Mappings by text -/

namespace Value

theorem putKey_text {pairs : List (String × Value)} {name : String} (value : Value)
    (hname : name ∉ pairs.map Prod.fst) :
    putKey (.text name) value (pairs.map fun pair => (.text pair.1, pair.2)) =
      (pairs ++ [(name, value)]).map fun pair => (.text pair.1, pair.2) := by
  induction pairs with
  | nil => rfl
  | cons first rest ih =>
      obtain ⟨hfirst, hrest⟩ := List.ne_and_not_mem_of_not_mem_cons hname
      have hother : sameKey (.text first.1) (.text name) = false := by
        simpa [sameKey] using hfirst.symm
      rw [List.map_cons, putKey, hother, ih hrest]
      rfl

/-- A mapping of entries with different names has them as they are. -/
theorem dictOf_texts {pairs : List (String × Value)} (hnames : (pairs.map Prod.fst).Nodup) :
    dictOf (pairs.map fun pair => (.text pair.1, pair.2)) =
      .dict (pairs.map fun pair => (.text pair.1, pair.2)) := by
  have hfold : ∀ done : List (String × Value), ((done ++ pairs).map Prod.fst).Nodup →
      (pairs.map fun pair => ((.text pair.1, pair.2) : Value × Value)).foldl
          (fun entries pair => putKey pair.1 pair.2 entries)
          (done.map fun pair => (.text pair.1, pair.2)) =
        (done ++ pairs).map fun pair => (.text pair.1, pair.2) := by
    clear hnames
    induction pairs with
    | nil => simp
    | cons first rest ih =>
        intro done hdistinct
        have hfirst : first.1 ∉ done.map Prod.fst := by
          rw [List.map_append, List.nodup_append] at hdistinct
          intro hmem
          exact hdistinct.2.2 _ hmem _ List.mem_cons_self rfl
        rw [List.map_cons, List.foldl_cons, putKey_text _ hfirst,
          ih (done ++ [(first.1, first.2)]) (by simpa using hdistinct)]
        simp
  exact congrArg Value.dict (hfold [] hnames)

end Value

namespace Schema

open Reading

variable {schema item : Schema} {v : Value} {j : JsonValue}

/-! ## Reading by a schema -/

theorem ofJsonAll_eq_map (items : List JsonValue) : ofJsonAll items = items.map ofJson := by
  induction items with
  | nil => rfl
  | cons item rest ih => rw [ofJsonAll, ih, List.map_cons]

theorem ofJsonMembers_eq_map (members : List (String × JsonValue)) :
    ofJsonMembers members =
      (members.map fun member => (member.1, ofJson member.2)).map fun pair =>
        (.text pair.1, pair.2) := by
  induction members with
  | nil => rfl
  | cons member rest ih =>
      rw [ofJsonMembers, ih]
      rfl

theorem gives_taking (grade : Grade) (v : Value) : Gives (taking grade (some v)) v :=
  fun fit => ⟨fit.floor grade, rfl⟩

theorem validate_list (hitem : item.IsPlain) (items : List Value) :
    validate .json (.list item) (.list items) =
      (do return .list (← items.mapM (validate .json item))) := by
  cases hitem <;> rfl

section Members

variable {members : List (String × JsonValue)} (hmembers : (members.map Prod.fst).Nodup)

include hmembers

theorem given?_of_mem {info : FieldInfo} (hmember : (info.key, j) ∈ members) :
    given? info (ofJsonMembers members) = some (ofJson j) := by
  unfold given?
  rw [ofJsonMembers_eq_map, List.map_map, List.find?_map, Option.map_map]
  cases hfound : members.find? ((fun e : Value × Value => Value.sameKey e.1 (.text info.key)) ∘
      ((fun pair => (.text pair.1, pair.2)) ∘ fun member => (member.1, ofJson member.2))) with
  | none =>
      have hnone := List.find?_eq_none.mp hfound _ hmember
      simp [Value.sameKey] at hnone
  | some found =>
      have hname : found.1 = info.key := by simpa [Value.sameKey] using List.find?_some hfound
      have hmem : found ∈ members := List.mem_of_find?_eq_some hfound
      rw [List.inj_on_of_nodup_map hmembers hmem hmember hname]
      rfl

/-- The object that a record of a model is read from. -/
theorem validate_record {shape : Shape} {fields : List (FieldInfo × Schema)}
    (hmodel : shape.kind = .model) :
    validate .json (.record shape fields) (ofJson (.object members)) = (do
      modify (Fit.floor (gradeBefore shape))
      let values ← validateFields .json fields (ofJsonMembers members)
      modify (Fit.giving (countGiven fields (ofJsonMembers members)))
      modify (Fit.floor (gradeAfter shape))
      return .record shape values) := by
  have hentries : givenFields shape (ofJson (.object members)) = some (ofJsonMembers members) := by
    have hdistinct : ((members.map fun member => (member.1, ofJson member.2)).map Prod.fst).Nodup := by
      simpa [Function.comp_def] using hmembers
    unfold givenFields
    rw [ofJson, ofJsonMembers_eq_map]
    simp only [Value.entries?, Option.map_some, Value.dictOf_texts hdistinct, hmodel,
      RecordKind.isDataclass, Bool.false_and, Bool.false_eq_true, if_false]
  rw [ofJson] at hentries ⊢
  rw [validate, hentries]
  rfl

end Members

theorem given?_of_not_mem {members : List (String × JsonValue)} {info : FieldInfo}
    (hkey : info.key ∉ members.map Prod.fst) : given? info (ofJsonMembers members) = none := by
  unfold given?
  rw [ofJsonMembers_eq_map, List.map_map, List.find?_map, Option.map_map,
    Option.map_eq_none_iff, List.find?_eq_none]
  intro member hmember hsame
  have hname : member.1 = info.key := by simpa [Value.sameKey] using hsame
  exact hkey (hname ▸ List.mem_map_of_mem hmember)

theorem gives_validateFields {entries : List (Value × Value)}
    {parts : List ((FieldInfo × Schema) × JsonValue × Value)}
    (hgiven : ∀ part ∈ parts, given? part.1.1 entries = some (ofJson part.2.1))
    (hparts : ∀ part ∈ parts, Gives (validate .json part.1.2 (ofJson part.2.1)) part.2.2) :
    Gives (validateFields .json (parts.map Prod.fst) entries)
      (parts.map fun part => (part.1.1.name, part.2.2)) := by
  induction parts with
  | nil => exact gives_pure []
  | cons part rest ih =>
      obtain ⟨⟨info, schema⟩, j, v⟩ := part
      have hfirst := hgiven _ List.mem_cons_self
      have hreads := hparts _ List.mem_cons_self
      dsimp only at hfirst hreads
      rw [List.map_cons, validateFields, hfirst]
      exact gives_bind hreads (gives_bind
        (ih (fun part hpart => hgiven part (List.mem_cons_of_mem _ hpart))
          fun part hpart => hparts part (List.mem_cons_of_mem _ hpart)) (gives_pure _))

/-- What a plain type takes in is read. -/
theorem Takes.gives (hplain : schema.IsPlain) (htakes : Takes schema j v) :
    Gives (validate .json schema (ofJson j)) v := by
  induction htakes with
  | text s => exact gives_taking _ _
  | int n => exact gives_taking _ _
  | bool b => exact gives_taking _ _
  | list _ ih =>
      cases hplain with
      | list hitem =>
          rw [ofJson, ofJsonAll_eq_map, List.map_map, validate_list hitem]
          refine gives_bind (gives_mapM ?_) (gives_pure _)
          rw [List.forall₂_map_left_iff, List.forall₂_map_right_iff, List.forall₂_same]
          exact fun part hpart => ih part hpart hitem
  | @dict item parts hnames _ ih =>
      cases hplain with
      | dict hitem =>
          have hdistinct : ((parts.map fun part => (part.1, part.2.2)).map Prod.fst).Nodup := by
            simpa [Function.comp_def] using hnames
          have hdict := Value.dictOf_texts hdistinct
          rw [List.map_map] at hdict
          have hvalue : Value.dict (parts.map fun part => (.text part.1, part.2.2)) =
              Value.dictOf (parts.map fun part => (.text part.1, part.2.2)) := hdict.symm
          rw [ofJson, ofJsonMembers_eq_map, List.map_map, List.map_map, validate, hvalue]
          refine gives_bind (gives_lift rfl) (gives_bind (gives_mapM ?_) (gives_pure _))
          rw [List.forall₂_map_left_iff, List.forall₂_map_right_iff, List.forall₂_same]
          exact fun part hpart => gives_bind (gives_taking _ _)
            (gives_bind (ih part hpart hitem) (gives_pure _))
  | null inner => exact gives_pure _
  | @given inner j v hj _ ih =>
      cases hplain with
      | nullable hinner =>
          have hnull : (ofJson j).isNull = false := by cases j <;> first | rfl | exact absurd rfl hj
          rw [validate, hnull]
          exact ih hinner
  | @record shape parts members hmembers hgiven _ ih =>
      cases hplain with
      | record hmodel hdistinct hfields =>
          rw [validate_record hmembers hmodel]
          refine gives_bind (gives_modify _) (gives_bind (gives_validateFields ?_ ?_)
            (gives_bind (gives_modify _) (gives_bind (gives_modify _) (gives_pure _))))
          · exact fun part hpart => given?_of_mem hmembers (hgiven part hpart)
          · exact fun part hpart => ih part hpart (hfields _ (List.mem_map_of_mem hpart))

theorem fails_validateFields {entries : List (Value × Value)} {fields : List (FieldInfo × Schema)}
    {field : FieldInfo × Schema} (hfield : field ∈ fields)
    (hfails : (given? field.1 entries = none ∧ field.1.default = none) ∨
      ∃ given, given? field.1 entries = some given ∧ Fails (validate .json field.2 given)) :
    Fails (validateFields .json fields entries) := by
  induction fields with
  | nil => cases hfield
  | cons first rest ih =>
      obtain ⟨info, schema⟩ := first
      rw [validateFields]
      rcases List.mem_cons.mp hfield with rfl | hrest
      · rcases hfails with ⟨hnone, hdefault⟩ | ⟨given, hgiven, hvalue⟩
        · dsimp only at hnone hdefault
          rw [hnone]
          exact fails_bind (fails_lift hdefault)
        · dsimp only at hgiven hvalue
          rw [hgiven]
          exact fails_bind hvalue
      · split <;> exact fails_bind_next fun value => fails_bind (ih hrest)

/-- What a plain type refuses is not read. -/
theorem Refuses.fails (hplain : schema.IsPlain) (hrefuses : Refuses schema j) :
    Fails (validate .json schema (ofJson j)) := by
  induction hrefuses with
  | list hj _ ih =>
      cases hplain with
      | list hitem =>
          rw [ofJson, ofJsonAll_eq_map, validate_list hitem]
          exact fails_bind (fails_mapM (List.mem_map_of_mem hj) (ih hitem))
  | @dict item members member hnames hmember _ ih =>
      cases hplain with
      | dict hitem =>
          rw [ofJson, ofJsonMembers_eq_map, validate]
          refine fails_bind_of_gives (gives_lift rfl) (fails_bind (fails_mapM
            (List.mem_map_of_mem (List.mem_map_of_mem hmember)) ?_))
          exact fails_bind_next fun name => fails_bind (ih hitem)
  | @given inner j hj _ ih =>
      cases hplain with
      | nullable hinner =>
          have hnull : (ofJson j).isNull = false := by cases j <;> first | rfl | exact absurd rfl hj
          rw [validate, hnull]
          exact ih hinner
  | part hmembers hfield hgiven _ ih =>
      cases hplain with
      | record hmodel _ hfields =>
          rw [validate_record hmembers hmodel]
          exact fails_bind_next fun _ => fails_bind (fails_validateFields hfield
            (Or.inr ⟨_, given?_of_mem hmembers hgiven, ih (hfields _ hfield)⟩))
  | missing hmembers hfield hdefault hmissing =>
      cases hplain with
      | record hmodel _ _ =>
          rw [validate_record hmembers hmodel]
          exact fails_bind_next fun _ => fails_bind (fails_validateFields hfield
            (Or.inl ⟨given?_of_not_mem hmissing, hdefault⟩))

end Schema

end HttpBinding
