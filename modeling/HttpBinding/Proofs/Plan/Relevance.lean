import HttpBinding.Octets.Charset
import HttpBinding.Proofs.Plan.Apart
import HttpBinding.Proofs.Plan.Variables
import HttpBinding.Proofs.Template.Relevance

/-!
# What depends on a variable of the form

Resolving depends on placeholders only, and a variable of the form is none of those of its
method. Neither the usual encoder nor the address of a call brings one in, except that an
address may have a placeholder of that name itself. So it is in the form alone that a call
puts the variables that the form gets.
-/

namespace HttpBinding

namespace Encoder

open Template

variable {t w : Template}

theorem mem_headers_of_withContentType {contentType : String} {entry : String × List String}
    (hentry : entry ∈ (withContentType contentType t).headers) :
    entry ∈ t.headers ∨ entry.2 = [contentType] := by
  simp only [withContentType] at hentry
  split at hentry
  · simp only [header, List.isEmpty_cons, Bool.false_eq_true, if_false] at hentry
    rcases Entries.mem_put hentry with hothers | rfl
    · split at hothers
      · exact .inl ((Entries.erase_sublist _ _).subset hothers)
      · exact .inl hothers
    · exact .inr rfl
  · exact .inl hentry

theorem bodyText_of_setBodyText [Charsets] {text : String} (hset : t.setBodyText text = (w, none)) :
    w.bodyText = none := by
  simp only [setBodyText] at hset
  split at hset
  · obtain ⟨rfl, -⟩ := Prod.mk.inj hset
    rfl
  · simp at hset

/-- What the usual encoder writes is a body that has nothing to be filled in. -/
theorem bodyText_encodeUsual [Charsets] {value : Value} {ty : Ty}
    (hencode : encodeUsual value ty t = (w, none)) :
    w.bodyText = none ∨ w.bodyText = t.bodyText := by
  simp only [encodeUsual] at hencode
  split at hencode
  · simp only [encodeForm] at hencode
    split at hencode
    · simp at hencode
    · split at hencode
      next between hset =>
        obtain ⟨rfl, -⟩ := Prod.mk.inj hencode
        have hbetween := bodyText_of_setBodyText hset
        simp only [withContentType]
        split
        · exact .inl hbetween
        · exact .inl hbetween
      next => simp at hencode
  split at hencode
  · exact .inl (bodyText_of_setBodyText hencode)
  split at hencode
  · split at hencode
    · obtain ⟨rfl, -⟩ := Prod.mk.inj hencode
      exact .inl rfl
    · simp at hencode
  split at hencode
  · obtain ⟨rfl, -⟩ := Prod.mk.inj hencode
    exact .inr rfl
  · simp at hencode

end Encoder

namespace Plan

open Template

variable {plan : Plan} {arguments : List Value} {bindings : Bindings} {t addressed written : Template}
  {name : String}

/-- The usual encoder brings no placeholders into a template. -/
theorem placeholderNames_setBody [Charsets]
    (hset : plan.setBody .usual arguments bindings t = .ok written) :
    written.placeholderNames ⊆ t.placeholderNames := by
  have hsame := sameAddress_setBody Encoder.writesBodies_usual hset
  have hheaders := headers_setBody hset
  have hbody : written.bodyText = none ∨ written.bodyText = t.bodyText := by
    simp only [setBody] at hset
    split at hset
    · exact Encoder.bodyText_encodeUsual (encode_of_encodeBody hset)
    · obtain ⟨value, -, hencode⟩ := bind_eq_ok.mp hset
      exact Encoder.bodyText_encodeUsual (encode_of_encodeBody hencode)
    · obtain rfl := Except.ok.inj hset
      exact .inr rfl
  have hempty : placeholders "" = [] := placeholders_of_no_brace (by simp)
  have htype : placeholders Encoder.formType = [] := placeholders_of_no_brace (by decide)
  intro name hname
  rw [mem_placeholderNames_iff, hsame.path, hsame.queries] at hname
  refine mem_placeholderNames_iff.mpr (hname.imp_right (Or.imp_right (Or.imp ?_ ?_)))
  · rintro ⟨entry, hentry, value, hvalue, hmem⟩
    rw [hheaders] at hentry
    split at hentry
    · rcases Encoder.mem_headers_of_withContentType hentry with hold | hnew
      · exact ⟨entry, hold, value, hvalue, hmem⟩
      · rw [hnew, List.mem_singleton] at hvalue
        rw [hvalue, htype] at hmem
        cases hmem
    · exact ⟨entry, hentry, value, hvalue, hmem⟩
  · intro hmem
    rcases hbody with hnone | hkept
    · rw [hnone, Option.getD_none, hempty] at hmem
      cases hmem
    · rwa [hkept] at hmem

/-- The address of a call brings no placeholders into its template but its own. -/
theorem mem_placeholderNames_setAddress (hset : plan.setAddress arguments t = .ok addressed)
    (hname : name ∈ addressed.placeholderNames) :
    name ∈ t.placeholderNames ∨ ∃ index value, plan.urlIndex = some index ∧
      arguments[index]? = some value ∧ name ∈ placeholders value.plainText := by
  cases haddress : plan.urlIndex with
  | none =>
      simp only [setAddress, haddress] at hset
      obtain rfl := Except.ok.inj hset
      exact .inl hname
  | some index =>
      cases hargument : arguments[index]? with
      | none =>
          simp [setAddress, haddress, required, argumentAt_natCast, argument, hargument, bind,
            Except.bind] at hset
      | some value =>
          rw [setAddress_eq haddress hargument hset] at hname
          exact (mem_placeholderNames_target hname).imp_right
            fun hmem => ⟨index, value, rfl, hargument, hmem⟩

theorem agreeOn_put_of_not_hasVariable (hfree : t.hasVariable name = false) (bindings : Bindings)
    (value : Value) : Bindings.AgreeOn t.placeholderNames (bindings.put name value) bindings := by
  refine Bindings.agreeOn_put (fun hname => ?_) value
  simp [hasVariable, hname] at hfree

/--
Resolving depends on no variables but those that are listed as the placeholders of a template:
bindings that agree on them make the same of it, faults included. So a variable that the form
gets changes nothing about the template of its method, and nothing about the template that a
call resolves, unless the address of the call has a placeholder of that name.
-/
theorem resolve_depends_on_placeholders [Charsets] :
    (∀ (t : Template) (bindings bindings' : Bindings),
      bindings.AgreeOn t.placeholderNames bindings' → t.resolve bindings = t.resolve bindings') ∧
    ∀ {ds : Declarations} {interfaces : Interfaces} {api : InterfaceDecl} {plans : List Plan}
      {plan : Plan}, Contract.usual.read ds interfaces api = .ok plans → plan ∈ plans →
      plan.ignored = false → ∀ name, plan.isFormName name = true →
        (∀ bindings value,
          plan.template.resolve (bindings.put name value) = plan.template.resolve bindings) ∧
        ∀ {arguments : List Value} {bound : Bindings} {addressed written : Template},
          plan.setAddress arguments plan.template = .ok addressed →
          plan.setBody .usual arguments bound addressed = .ok written →
          (∀ index value, plan.urlIndex = some index → arguments[index]? = some value →
            name ∉ placeholders value.plainText) →
          ∀ bindings value, written.resolve (bindings.put name value) = written.resolve bindings := by
  refine ⟨fun t bindings bindings' hagree => resolve_of_agreeOn hagree, ?_⟩
  intro ds interfaces api plans plan hread hplan hhandled name hform
  have hfree : plan.template.hasVariable name = false :=
    (Contract.holdsVariables_of_mem_read hread hplan hhandled).apart name hform
  constructor
  · intro bindings value
    exact resolve_of_agreeOn (agreeOn_put_of_not_hasVariable hfree bindings value)
  · intro arguments bound addressed written haddress hbody hapart bindings value
    refine resolve_of_agreeOn (Bindings.agreeOn_put (fun hname => ?_) value)
    rcases mem_placeholderNames_setAddress haddress (placeholderNames_setBody hbody hname) with
      hlisted | ⟨index, address, hindex, hargument, hbrought⟩
    · simp [hasVariable, hlisted] at hfree
    · exact hapart index address hindex hargument hbrought

/-- A method with an address of its own, a placeholder and a variable of the form. -/
def sendingTo : InterfaceDecl :=
  sending [.requestLine "POST /x/\x7bid\x7d" true .exploded]
    [{ name := "to", ty := some .url }, variableOf "id" .text, variableOf "v" .text]

open scoped CommonCharsets

theorem resolve_depends_on_placeholders_ofForm : ∃ plan addressed written,
    Contract.usual.read [] [sendingTo] sendingTo = .ok [plan] ∧
      plan.setAddress [.text "http://h/?q=\x7bid\x7d", .text "7", .text "b"] plan.template =
        .ok addressed ∧
      plan.setBody .usual [.text "http://h/?q=\x7bid\x7d", .text "7", .text "b"] [("v", .text "b")]
        addressed = .ok written ∧
      written.resolve (Entries.put "v" (.text "b") [("id", .text "7")]) =
        written.resolve [("id", .text "7")] ∧
      plan.template.resolve [("id", .text "7"), ("v", .text "b")] =
        plan.template.resolve [("v", .text "c"), ("id", .text "7")] := by
  have hcomputed : ∃ plan, Contract.usual.read [] [sendingTo] sendingTo = .ok [plan] ∧
      (plan.ignored = false ∧ plan.isFormName "v" = true ∧ plan.urlIndex = some 0 ∧
        plan.template.placeholderNames = ["id"] ∧
        ((plan.setAddress [.text "http://h/?q=\x7bid\x7d", .text "7", .text "b"]
          plan.template).toOption.bind fun addressed =>
            (plan.setBody .usual [.text "http://h/?q=\x7bid\x7d", .text "7", .text "b"]
              [("v", .text "b")] addressed).toOption).isSome = true) :=
    Contract.exists_plan_of_read (by decide +kernel)
  obtain ⟨plan, hread, hhandled, hform, haddress, hnames, hsome⟩ := hcomputed
  obtain ⟨written, hwritten⟩ := Option.isSome_iff_exists.mp hsome
  obtain ⟨addressed, haddressed, hwritten⟩ := Option.bind_eq_some_iff.mp hwritten
  have haddressed := toOption_eq_some.mp haddressed
  have hwritten := toOption_eq_some.mp hwritten
  refine ⟨plan, addressed, written, hread, haddressed, hwritten, ?_, ?_⟩
  · refine (resolve_depends_on_placeholders.2 hread List.mem_cons_self hhandled "v" hform).2
      haddressed hwritten ?_ _ _
    intro index value hindex hargument
    obtain rfl := Option.some.inj (haddress.symm.trans hindex)
    obtain rfl := Option.some.inj hargument
    decide +kernel
  · refine resolve_depends_on_placeholders.1 plan.template _ _ ?_
    rw [hnames]
    intro name hname
    rw [List.mem_singleton.mp hname]
    rfl

end Plan

end HttpBinding
