import HttpBinding.Octets.Charset
import HttpBinding.Proofs.Target.Below
import HttpBinding.Proofs.Template.Marks

/-!
# Values do not change the structure of a path

The values that fill a path are encoded, so that none of them opens a query or a fragment,
and none ends a segment where slashes are encoded as well. The resolved path has the
segments of the path that it was filled from, each filled on its own. In the address the
path is found again as everything before the query, after the base of the template.
-/

namespace HttpBinding.Template

/-- The query of an address is cut off right behind the base and the path. -/
def KeepsQueryApart (t : Template) : Prop :=
  Text.cut '?' t.url.toList =
    ((t.base ++ t.path).toList, if t.queryLine.isEmpty then none else some t.queryLine.toList)

/-- What the values that fill a path leave of its structure. -/
structure KeepsPath (bindings : Bindings) (t t' : Template) : Prop where
  base : t'.base = t.base
  noQuery : '?' ∉ t'.path.toList
  /-- There is a fragment mark exactly where the path had one before it was filled. -/
  fragments : FillsParts '#' bindings (Percent.encodePath t.decodeSlash) t.path t'.path
  segments : t.decodeSlash = false →
    FillsParts '/' bindings (Percent.encodePath t.decodeSlash) t.path t'.path
  /-- A base that is set once the path is filled makes no difference. -/
  address : startsWith "/" t.path = true →
    t'.KeepsQueryApart ∧ ∀ url, (t'.target url).KeepsQueryApart

variable {t t' : Template} {bindings : Bindings}

theorem IsBuilt.isWellFormed (hbuilt : IsBuilt t) : IsWellFormed t := by
  induction hbuilt with
  | fresh method charset decodeSlash format => exact { isWellFormed_fresh with }
  | uri _ text append ih => exact isWellFormed_uri ih text append
  | target _ url ih => exact isWellFormed_target ih url

/-- A well-formed template whose path begins with a slash keeps its query apart. -/
theorem keepsQueryApart (ht : IsWellFormed t) (hslash : startsWith "/" t.path = true) :
    t.KeepsQueryApart := by
  have hbefore : '?' ∉ (t.base ++ t.path).toList := by
    rw [String.toList_append, List.mem_append, not_or]
    exact ⟨ht.base_query, ht.path_query⟩
  unfold KeepsQueryApart
  rw [url_of_relative (not_startsWith_http (Or.inr hslash)), ← String.append_assoc]
  unfold querySuffix
  split
  next => rw [String.append_empty, Text.cut_of_not_mem hbefore]
  next =>
    have hurl : (t.base ++ t.path ++ ("?" ++ t.queryLine)).toList =
        (t.base ++ t.path).toList ++ '?' :: t.queryLine.toList := by
      simp
    rw [hurl, Text.cut_append hbefore]

theorem path_target (t : Template) (url : String) : (t.target url).path = t.path := by
  rw [target_eq]

/--
The texts that are bound to variables never change the structure of a path. A template that is
built from texts is resolved to one whose path opens no query, has the fragment marks that were
there, and has the segments that were there if slashes are encoded; its address is the base
and the path, and behind the first question mark the query.
-/
theorem resolve_keepsPath [Charsets] (hbuilt : IsBuilt t) (htextual : bindings.AreTextual) :
    ∃ t', t.resolve bindings = (t', none) ∧ KeepsPath bindings t t' := by
  obtain ⟨t', hresolve⟩ := resolve_isResolved htextual hbuilt.bodyText_eq
  have hresolved := isResolved_of_resolve hresolve
  have hfill := hresolved.path
  have hpath : t'.path = filledText bindings (Percent.encodePath t.decodeSlash) t.path := by
    rw [fill_eq htextual] at hfill
    exact (Except.ok.inj hfill).symm
  have hwellFormed : IsWellFormed t' := by
    have hkept := isWellFormed_resolve hbuilt.isWellFormed bindings
    rwa [hresolve] at hkept
  refine ⟨t', hresolve, hresolved.base, hwellFormed.path_query, ?_, ?_, ?_⟩
  · rw [hpath]
    refine fillsParts_filledText ⟨rfl, by decide, by decide, by decide⟩ ?_ htextual t.path
    exact Percent.not_mem_encodePath (by cases t.decodeSlash <;> rfl) (by decide) rfl
  · intro hencoded
    rw [hpath]
    refine fillsParts_filledText ⟨rfl, by decide, by decide, by decide⟩ ?_ htextual t.path
    exact Percent.not_mem_encodePath (by rw [hencoded]; rfl) (by decide) rfl
  · intro hslash
    have hslash' : startsWith "/" t'.path = true :=
      startsWith_iff.mpr (prefix_of_fill hfill (startsWith_iff.mp hslash) (by decide))
    refine ⟨keepsQueryApart hwellFormed hslash', fun url => ?_⟩
    refine keepsQueryApart (isWellFormed_target hwellFormed url) ?_
    rwa [path_target]

open scoped CommonCharsets

/-- A value with all three marks in one segment, and another one with a mark in the query. -/
theorem resolve_keepsPath_ofFile :
    ∃ t', ((uri { decodeSlash := false } "/files/\x7bname\x7d/raw?q=\x7bq\x7d" false).target
        "http://api.test/v1").resolve
          (Bindings.ofTexts [("name", "a/b?c#d"), ("q", "x?y")]) = (t', none) ∧
      (Text.splitOn '/' t'.path.toList).length = 4 ∧
      (Text.cut '?' t'.url.toList).1 = "http://api.test/v1".toList ++ t'.path.toList := by
  have hbuilt : IsBuilt ((uri { decodeSlash := false } "/files/\x7bname\x7d/raw?q=\x7bq\x7d" false).target
      "http://api.test/v1") := .target (.uri (.fresh none "utf-8" false .exploded) _ false) _
  have htextual : (Bindings.ofTexts [("name", "a/b?c#d"), ("q", "x?y")]).AreTextual :=
    Bindings.areTextual_ofTexts _
  obtain ⟨t', hresolve, hkept⟩ := resolve_keepsPath hbuilt htextual
  refine ⟨t', hresolve, ?_, ?_⟩
  · rw [← (hkept.segments rfl).length_eq]
    decide +kernel
  · obtain ⟨hcut, -⟩ := hkept.address (by decide +kernel)
    have hbase : t'.base = "http://api.test/v1" := hkept.base.trans (by decide +kernel)
    rw [hcut, hbase, String.toList_append]

end HttpBinding.Template
