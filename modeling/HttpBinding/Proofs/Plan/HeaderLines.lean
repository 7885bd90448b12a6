import HttpBinding.Octets.Charset
import HttpBinding.Proofs.Plan.Skeleton
import HttpBinding.Proofs.Template.HeaderValues
import Mathlib.Data.List.Perm.Subperm

/-!
# Headers from annotations

A header of a method is set by the annotations of the parent, of the interface and of the
method itself, one after another, and each annotation that names a header replaces what
earlier ones say of it. Within one annotation lines come together under their name as it is
spelled. Under several spellings of one name they are set one spelling after another,
so that just the spelling that turns up last is left.
-/

namespace HttpBinding.Contract

/-- The name before the first colon of a line and the value behind it. -/
def headerLine (line : String) : String × String :=
  (trimmed (Text.cut ':' line.toList).1, trimmed ((Text.cut ':' line.toList).2.getD []))

/-- The lines of an annotation with headers. -/
def headerLines? : Directive → Option (List (String × String))
  | .headers lines => some (lines.map headerLine)
  | _ => none

/-- The lines of all annotations with headers that a method is under, the outermost first. -/
def headerBlocks (interfaces : Interfaces) (api : InterfaceDecl) (method : MethodDecl) :
    List (List (String × String)) :=
  (parentDirectives interfaces api ++ (api.directives ++ method.directives)).filterMap headerLines?

/-- The lines that name a header, without regard to case. -/
def linesNaming (name : String) (lines : List (String × String)) : List (String × String) :=
  lines.filter fun line => Text.sameName line.1 name

/-- The lines that name a header in the last annotation where any does. -/
def lastNaming (name : String) (blocks : List (List (String × String))) : List (String × String) :=
  ((blocks.map (linesNaming name)).filter (· ≠ [])).getLast?.getD []

/-- The spellings of the names of lines, each once, in order of appearance. -/
def spellings (lines : List (String × String)) : List String :=
  (lines.map Prod.fst).eraseDups

/-- The values of the lines whose spelling turns up last. -/
def lastSpelled (lines : List (String × String)) : List String :=
  (lines.filter fun line => some line.1 = (spellings lines).getLast?).map Prod.snd

/-! ## Lines of one annotation -/

/-- Lines that come together under their names. -/
def grouped (lines : List (String × String)) : Headers :=
  lines.foldl (fun headers line => headers.extend line.1 [line.2]) []

variable {lines lines' : List (String × String)} {line : String × String} {name : String}

theorem keys_grouped (lines : List (String × String)) : (grouped lines).keys = spellings lines :=
  Entries.keys_gathered lines

theorem nodup_keys_grouped (lines : List (String × String)) : (grouped lines).keys.Nodup :=
  Entries.nodup_keys_gathered lines

theorem lookup_grouped (lines : List (String × String)) (name : String) :
    ((grouped lines).lookup name).getD [] = (lines.filter (·.1 = name)).map Prod.snd :=
  Entries.lookup_gathered lines name

/-- Lines that name one header come together in the same way among others. -/
theorem filter_grouped (name : String) (lines : List (String × String)) :
    (grouped lines).filter (fun entry => Text.sameName entry.1 name) =
      grouped (linesNaming name lines) :=
  Entries.filter_gathered (Text.sameName · name) lines

/-- The entry that comes last has the spelling that turns up last, and all values of it. -/
theorem getLast?_grouped (lines : List (String × String)) :
    (grouped lines).getLast?.map Prod.snd = if lines = [] then none else some (lastSpelled lines) := by
  have hkeys : (spellings lines).getLast? = (grouped lines).getLast?.map Prod.fst := by
    rw [← keys_grouped, Entries.keys, List.getLast?_map]
  cases hlast : (grouped lines).getLast? with
  | none =>
      have hnone : lines = [] := by
        rw [hlast] at hkeys
        have hspellings : spellings lines = [] := List.getLast?_eq_none_iff.mp hkeys
        cases lines with
        | nil => rfl
        | cons line rest =>
            unfold spellings at hspellings
            rw [List.map_cons, List.eraseDups_cons] at hspellings
            cases hspellings
      rw [if_pos hnone]
      rfl
  | some last =>
      have hmem : last ∈ grouped lines := List.mem_of_getLast? hlast
      have hlookup : (grouped lines).lookup last.1 = some last.2 :=
        (Entries.lookup_eq_some_iff (nodup_keys_grouped lines)).mpr hmem
      have hvalues := lookup_grouped lines last.1
      rw [hlookup, Option.getD_some] at hvalues
      have hsome : lines ≠ [] := by
        rintro rfl
        cases hmem
      rw [if_neg hsome]
      unfold lastSpelled
      rw [hkeys, hlast]
      simpa using hvalues

theorem mem_spellings : name ∈ spellings lines ↔ name ∈ lines.map Prod.fst :=
  List.mem_eraseDups

/-- All values are left only if there is one spelling. -/
theorem lastSpelled_eq_iff (lines : List (String × String)) :
    lastSpelled lines = lines.map Prod.snd ↔ (spellings lines).length ≤ 1 := by
  constructor
  · -- Nothing is filtered out, so that every line has the last spelling.
    intro hall
    have hlength := congrArg List.length hall
    unfold lastSpelled at hlength
    rw [List.length_map, List.length_map, List.length_filter_eq_length_iff] at hlength
    cases hlast : (spellings lines).getLast? with
    | none => simp [List.getLast?_eq_none_iff.mp hlast]
    | some last =>
        have hsubset : spellings lines ⊆ [last] := by
          intro spelling hspelling
          obtain ⟨line, hline, rfl⟩ := List.mem_map.mp (mem_spellings.mp hspelling)
          simpa [hlast] using hlength line hline
        have hnodup : (spellings lines).Nodup := keys_grouped lines ▸ nodup_keys_grouped lines
        exact (List.Nodup.subperm hnodup hsubset).length_le
  · intro hone
    unfold lastSpelled
    rw [List.filter_eq_self.mpr]
    intro line hline
    have hmem : line.1 ∈ spellings lines := mem_spellings.mpr (List.mem_map_of_mem hline)
    obtain ⟨spelling, hspellings⟩ := List.length_eq_one_iff.mp
      (Nat.le_antisymm hone (List.length_pos_of_mem hmem))
    rw [hspellings] at hmem ⊢
    simpa using hmem

/-! ## Setting headers -/

section Setting

variable {t t' t'' : Template} {blocks blocks' : List (List (String × String))}

/-- Annotations replace what a template says of the headers that they name. -/
def Replaces (blocks : List (List (String × String))) (t t' : Template) : Prop :=
  ∀ name, t'.headerValues name =
    if lastNaming name blocks = [] then t.headerValues name else lastSpelled (lastNaming name blocks)

theorem lastNaming_append (name : String) (blocks blocks' : List (List (String × String))) :
    lastNaming name (blocks ++ blocks') =
      if lastNaming name blocks' = [] then lastNaming name blocks else lastNaming name blocks' := by
  unfold lastNaming
  rw [List.map_append, List.filter_append, List.getLast?_append]
  cases hlast : ((blocks'.map (linesNaming name)).filter (· ≠ [])).getLast? with
  | none => simp
  | some lines =>
      have hsome : lines ≠ [] := by simpa using (List.mem_filter.mp (List.mem_of_getLast? hlast)).2
      simp [hsome]

theorem lastNaming_singleton (name : String) (lines : List (String × String)) :
    lastNaming name [lines] = linesNaming name lines := by
  unfold lastNaming
  by_cases hnone : linesNaming name lines = []
  · simp [hnone]
  · simp [hnone]

theorem Replaces.of_headers (hheaders : t'.headers = t.headers) : Replaces [] t t' := by
  intro name
  exact Template.headerValues_congr hheaders name

theorem Replaces.trans (hfirst : Replaces blocks t t') (hsecond : Replaces blocks' t' t'') :
    Replaces (blocks ++ blocks') t t'' := by
  intro name
  rw [hsecond name, lastNaming_append]
  by_cases hnone : lastNaming name blocks' = []
  · simp only [hnone, if_true]
    exact hfirst name
  · simp only [hnone, if_false]

theorem headerNames_foldl_header (headers : Headers)
    (hnames : (t.headers.map fun entry => Template.foldedName entry.1).Nodup) :
    ((headers.foldl (fun t entry => t.header entry.1 entry.2) t).headers.map fun entry =>
      Template.foldedName entry.1).Nodup := by
  induction headers generalizing t with
  | nil => exact hnames
  | cons entry rest ih => exact ih (Template.headerNames_header hnames)

/-- Of several headers with one name the last one is left. -/
theorem headerValues_foldl_header (headers : Headers)
    (hnames : (t.headers.map fun entry => Template.foldedName entry.1).Nodup) (name : String) :
    (headers.foldl (fun t entry => t.header entry.1 entry.2) t).headerValues name =
      ((headers.filter fun entry => Text.sameName entry.1 name).getLast?.map Prod.snd).getD
        (t.headerValues name) := by
  induction headers using List.reverseRecOn with
  | nil => rfl
  | append_singleton headers entry ih =>
      rw [List.foldl_append, List.foldl_cons, List.foldl_nil,
        Template.headerValues_of_header (headerNames_foldl_header headers hnames), ih,
        List.filter_append, List.filter_singleton, Template.sameName_eq]
      by_cases hsame : Template.foldedName entry.1 = Template.foldedName name
      · simp [hsame]
      · simp [hsame]

variable {plan plan' : Plan}

/-- A line that is accepted is read as its name and its value. -/
theorem headerOfLine_eq {place : Place} {text : String} (hread : headerOfLine place text = .ok line) :
    line = headerLine text := by
  unfold headerOfLine at hread
  split at hread
  next name value hcut =>
    split at hread
    · cases hread
    · unfold headerLine
      rw [hcut]
      exact (Except.ok.inj hread).symm
  next => cases hread

theorem headersOfLines_eq {place : Place} {texts : List String} {headers : Headers}
    (hread : headersOfLines place texts = .ok headers) : headers = grouped (texts.map headerLine) := by
  obtain ⟨pairs, hpairs, hgrouped⟩ := bind_eq_ok.mp hread
  have hlines : pairs = texts.map headerLine := by
    have hall := mapM_eq_ok.mp hpairs
    clear hpairs hgrouped hread
    induction hall with
    | nil => rfl
    | cons hline _ ih => rw [List.map_cons, ← ih, headerOfLine_eq hline]
  rw [← hlines]
  exact (Except.ok.inj hgrouped).symm

theorem replaces_setHeaders {place : Place} {texts : List String} (hplan : plan.template.IsWellFormed)
    (hread : setHeaders place texts plan = .ok plan') :
    Replaces [texts.map headerLine] plan.template plan'.template := by
  obtain ⟨headers, hheaders, hset⟩ := bind_eq_ok.mp hread
  obtain rfl := Except.ok.inj hset
  obtain rfl := headersOfLines_eq hheaders
  intro name
  dsimp only
  rw [headerValues_foldl_header _ hplan.headerNames, filter_grouped, getLast?_grouped,
    lastNaming_singleton]
  split <;> rfl

theorem headers_requestLine {text : String} {decodeSlash : Bool} {format : CollectionFormat}
    (hread : requestLine text decodeSlash format plan = .ok plan') :
    plan'.template.headers = plan.template.headers := by
  unfold requestLine at hread
  dsimp only at hread
  split at hread
  · cases hread
  · split at hread
    · cases hread
    · split at hread
      · cases hread
      · obtain rfl := Except.ok.inj hread
        dsimp only
        rw [Template.uri_eq]

theorem headers_body [Charsets] {text : String} (hread : body text plan = .ok plan') :
    plan'.template.headers = plan.template.headers := by
  unfold body at hread
  split at hread
  · cases hread
  · split at hread
    · obtain rfl := Except.ok.inj hread
      rfl
    · obtain rfl := Except.ok.inj hread
      dsimp only
      unfold Template.setBodyText
      split <;> rfl

/-- An annotation of an interface sets the headers that it has lines for. -/
theorem replaces_onInterface [Charsets] {directive : Directive} {revise : Revision}
    (hknown : usual.onInterface directive = some revise) (hplan : plan.template.IsWellFormed)
    (hread : revise plan = .ok plan') :
    Replaces ([directive].filterMap headerLines?) plan.template plan'.template := by
  cases directive with
  | headers texts =>
      obtain rfl := Option.some.inj hknown
      unfold interfaceHeaders at hread
      split at hread
      · cases hread
      · exact replaces_setHeaders hplan hread
  | _ => cases hknown

/-- So does an annotation of a method; what else it may say does not touch the headers. -/
theorem replaces_onMethod [Charsets] {directive : Directive} {revise : Revision}
    (hknown : usual.onMethod directive = some revise) (hplan : plan.template.IsWellFormed)
    (hread : revise plan = .ok plan') :
    Replaces ([directive].filterMap headerLines?) plan.template plan'.template := by
  cases directive with
  | requestLine text decodeSlash format =>
      obtain rfl := Option.some.inj hknown
      exact Replaces.of_headers (headers_requestLine hread)
  | headers texts =>
      obtain rfl := Option.some.inj hknown
      unfold methodHeaders at hread
      split at hread
      · cases hread
      · exact replaces_setHeaders hplan hread
  | body text =>
      obtain rfl := Option.some.inj hknown
      exact Replaces.of_headers (headers_body hread)
  | ignore =>
      obtain rfl := Option.some.inj hknown
      obtain rfl := Except.ok.inj hread
      exact Replaces.of_headers rfl
  | custom => cases hknown

theorem headerLines?_of_onInterface [Charsets] {directive : Directive}
    (hunknown : usual.onInterface directive = none) : headerLines? directive = none := by
  cases directive with
  | headers => cases hunknown
  | _ => rfl

theorem headerLines?_of_onMethod [Charsets] {directive : Directive}
    (hunknown : usual.onMethod directive = none) : headerLines? directive = none := by
  cases directive with
  | headers => cases hunknown
  | _ => rfl

theorem replaces_readInterface [Charsets] {directives : List Directive}
    (hplan : plan.template.IsSkeleton) (hread : readInterface usual directives plan = .ok plan') :
    Replaces (directives.filterMap headerLines?) plan.template plan'.template := by
  induction directives generalizing plan with
  | nil =>
      obtain rfl := Except.ok.inj hread
      exact Replaces.of_headers rfl
  | cons directive rest ih =>
      rw [readInterface] at hread
      cases hknown : usual.onInterface directive with
      | none =>
          rw [hknown] at hread
          rw [List.filterMap_cons_none (headerLines?_of_onInterface hknown)]
          exact ih hplan hread
      | some revise =>
          rw [hknown] at hread
          obtain ⟨between, hfirst, hrest⟩ := bind_eq_ok.mp hread
          have hlater := ih (keeps_isSkeleton.onInterface hknown hplan hfirst) hrest
          have hboth := (replaces_onInterface hknown hplan.wellFormed hfirst).trans hlater
          rwa [← List.filterMap_append] at hboth

theorem replaces_readMethod [Charsets] {directives : List Directive}
    (hplan : plan.template.IsSkeleton) (hread : readMethod usual directives plan = .ok plan') :
    Replaces (directives.filterMap headerLines?) plan.template plan'.template := by
  induction directives generalizing plan with
  | nil =>
      obtain rfl := Except.ok.inj hread
      exact Replaces.of_headers rfl
  | cons directive rest ih =>
      rw [readMethod] at hread
      cases hknown : usual.onMethod directive with
      | none =>
          rw [hknown] at hread
          rw [List.filterMap_cons_none (headerLines?_of_onMethod hknown)]
          -- The warning is about the plan and leaves its template alone.
          have hlater : Replaces (rest.filterMap headerLines?)
              (plan.warn (unusedWarning usual plan.method.name directive)).template
              plan'.template := ih hplan hread
          exact hlater
      | some revise =>
          rw [hknown] at hread
          obtain ⟨between, hfirst, hrest⟩ := bind_eq_ok.mp hread
          have hlater := ih (keeps_isSkeleton.onMethod hknown hplan hfirst) hrest
          have hboth := (replaces_onMethod hknown hplan.wellFormed hfirst).trans hlater
          rwa [← List.filterMap_append] at hboth

end Setting

/-! ## Plans -/

variable {ds : Declarations} {interfaces : Interfaces} {api : InterfaceDecl} {method : MethodDecl}
  {plan : Plan} {plans : List Plan}

theorem replaces_directed [Charsets] {start directed : Plan} (hstart : start.template.IsSkeleton)
    (hdirected : IsDirected usual interfaces api method start directed) :
    directed.template.IsSkeleton ∧
      Replaces (headerBlocks interfaces api method) start.template directed.template := by
  obtain ⟨inherited, declared, hread₁, hread₂, hread₃⟩ := hdirected
  have hinherited := keeps_readInterface keeps_isSkeleton hstart hread₁
  have hdeclared := keeps_readInterface keeps_isSkeleton hinherited hread₂
  refine ⟨keeps_readMethod keeps_isSkeleton isAside_isSkeleton hdeclared hread₃, ?_⟩
  unfold headerBlocks
  rw [List.filterMap_append, List.filterMap_append]
  exact (replaces_readInterface hstart hread₁).trans
    ((replaces_readInterface hinherited hread₂).trans (replaces_readMethod hdeclared hread₃))

/-- Parameters change neither the template of a plan nor its method. -/
theorem exists_directed [Charsets] (hread : planOf usual ds interfaces api method = .ok plan) :
    ∃ hints returns directed,
      IsDirected usual interfaces api method (blankPlan api method hints returns) directed ∧
        plan.template = directed.template ∧ plan.method = method := by
  unfold planOf at hread
  split at hread
  · cases hread
  next hints returns hhints =>
    obtain ⟨inherited, hread₁, hread⟩ := bind_eq_ok.mp hread
    obtain ⟨declared, hread₂, hread⟩ := bind_eq_ok.mp hread
    obtain ⟨directed, hread₃, hread⟩ := bind_eq_ok.mp hread
    have hdirected : IsDirected usual interfaces api method (blankPlan api method hints returns)
        directed := ⟨inherited, declared, hread₁, hread₂, hread₃⟩
    have hmethod : directed.method = method := by
      rw [onlyDirects_directed hdirected]
      rfl
    refine ⟨hints, returns, directed, hdirected, ?_⟩
    split at hread
    · obtain rfl := Except.ok.inj hread
      exact ⟨rfl, hmethod⟩
    · split at hread
      · cases hread
      · have hkeeps : usual.KeepsAtMarkers fun plan =>
            plan.template = directed.template ∧ plan.method = method := by
          intro marker revise index name plan plan' hknown hplan hmarked
          rw [onlyMarks_onParameter hknown hmarked]
          exact hplan
        have haside : IsAside fun plan =>
            plan.template = directed.template ∧ plan.method = method :=
          ⟨fun _ h => h, fun _ h => h, fun _ h => h, fun _ h => h, fun _ _ h => h⟩
        have hstart : directed.template = directed.template ∧ directed.method = method :=
          ⟨rfl, hmethod⟩
        exact keeps_readParameters hkeeps haside hstart (readArguments_eq_ok hread)

/-- What a plan has under header names: the lines of the last annotation with the name. -/
structure HasHeaders (blocks : List (List (String × String))) (t : Template) : Prop where
  values : ∀ name, t.headerValues name = lastSpelled (lastNaming name blocks)
  absent : ∀ name, lastNaming name blocks = [] →
    ∀ key ∈ t.headers.keys, Text.sameName key name = false
  merged : ∀ name, t.headerValues name = (lastNaming name blocks).map Prod.snd ↔
    (spellings (lastNaming name blocks)).length ≤ 1

/--
In every plan that is read, a header has the values that the last annotation with its name gives
it: all of them if the name is spelled in one way there, and otherwise just those under the
spelling that turns up last.
-/
theorem read_hasHeaders [Charsets] (hread : usual.read ds interfaces api = .ok plans)
    (hplan : plan ∈ plans) :
    HasHeaders (headerBlocks interfaces api plan.method) plan.template := by
  obtain ⟨method, hplanOf⟩ := planOf_of_mem_read hread hplan
  obtain ⟨hints, returns, directed, hdirected, htemplate, rfl⟩ := exists_directed hplanOf
  -- The directives start from a fresh template, which has no headers to fall back on.
  obtain ⟨hskeleton, hreplaces⟩ := replaces_directed Template.isSkeleton_fresh hdirected
  have hvalues : ∀ name, directed.template.headerValues name =
      lastSpelled (lastNaming name (headerBlocks interfaces api plan.method)) := by
    intro name
    rw [hreplaces name]
    split
    next hnone =>
      rw [hnone]
      rfl
    next => rfl
  rw [htemplate]
  refine ⟨hvalues, ?_, ?_⟩
  · intro name hnone key hkey
    have hempty : directed.template.headerValues name = [] := by
      rw [hvalues, hnone]
      rfl
    have hother := (Template.headerValues_eq_nil_iff hskeleton.wellFormed.headerNames
      hskeleton.wellFormed.headerValues).mp hempty
    obtain ⟨entry, hentry, rfl⟩ := List.mem_map.mp hkey
    rw [Template.sameName_eq]
    exact decide_eq_false (hother entry hentry)
  · intro name
    rw [hvalues]
    exact lastSpelled_eq_iff _

/-! ## A method with headers -/

/-- An interface with one method, each with headers of its own. -/
def announcing (shared own : List Directive) : InterfaceDecl where
  name := "Api"
  directives := shared
  members := [("ping", .method {
    name := "ping", directives := .requestLine "GET /ping" true .exploded :: own })]

open scoped CommonCharsets

theorem read_hasHeaders_ofAccept : ∃ plan,
    usual.read [] [announcing [.headers ["Accept: text/plain", "X-Id: 1"]]
        [.headers ["accept: text/html", "accept: text/csv"]]]
      (announcing [.headers ["Accept: text/plain", "X-Id: 1"]]
        [.headers ["accept: text/html", "accept: text/csv"]]) = .ok [plan] ∧
      plan.template.headerValues "ACCEPT" = ["text/html", "text/csv"] ∧
      plan.template.headerValues "X-ID" = ["1"] := by
  have hcomputed : ∃ plan,
      usual.read [] [announcing [.headers ["Accept: text/plain", "X-Id: 1"]]
          [.headers ["accept: text/html", "accept: text/csv"]]]
        (announcing [.headers ["Accept: text/plain", "X-Id: 1"]]
          [.headers ["accept: text/html", "accept: text/csv"]]) = .ok [plan] ∧
      headerBlocks [announcing [.headers ["Accept: text/plain", "X-Id: 1"]]
          [.headers ["accept: text/html", "accept: text/csv"]]]
        (announcing [.headers ["Accept: text/plain", "X-Id: 1"]]
          [.headers ["accept: text/html", "accept: text/csv"]]) plan.method =
          [[("Accept", "text/plain"), ("X-Id", "1")],
            [("accept", "text/html"), ("accept", "text/csv")]] :=
    exists_plan_of_read (by decide +kernel)
  obtain ⟨plan, hread, hblocks⟩ := hcomputed
  have hheaders := read_hasHeaders hread List.mem_cons_self
  rw [hblocks] at hheaders
  exact ⟨plan, hread, (hheaders.values "ACCEPT").trans (by decide +kernel),
    (hheaders.values "X-ID").trans (by decide +kernel)⟩

/-- A value is lost when an annotation has its name twice and spells it in two ways. -/
theorem read_loses_header_value : ∃ plan,
    usual.read [] [announcing [] [.headers ["Accept: text/plain", "accept: text/html"]]]
      (announcing [] [.headers ["Accept: text/plain", "accept: text/html"]]) = .ok [plan] ∧
      ((lastNaming "Accept" (headerBlocks
          [announcing [] [.headers ["Accept: text/plain", "accept: text/html"]]]
          (announcing [] [.headers ["Accept: text/plain", "accept: text/html"]])
          plan.method)).map Prod.snd = ["text/plain", "text/html"] ∧
        plan.template.headerValues "Accept" = ["text/html"]) :=
  exists_plan_of_read (by decide +kernel)

end HttpBinding.Contract
