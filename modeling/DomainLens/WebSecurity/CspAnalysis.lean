import DomainLens.Python.Ascii
import DomainLens.WebSecurity.Csp

/-!
# The analysis of a content security policy

The issues of a policy are found in its directives.  The file says for which policies the directives that are
judged for scripts and for styles are those that browsers enforce.
-/

namespace DomainLens
namespace WebSecurity

open Python

/-! ## Issues -/

inductive Severity where
  | info
  | low
  | medium
  | high
deriving DecidableEq

inductive IssueKind where
  | missing
  | noDefaultOrScript
  | unsafeInline (directive : Text)
  | unsafeEval (directive : Text)
  | wildcard (directive : Text)
  | objectSrc
  | objectSrcNotNone
  | noFrameAncestors
  | frameAncestorsStar
  | noBaseUri
  | noFormAction
  | noReporting
deriving DecidableEq

/-- The `id` of an issue. -/
def IssueKind.id : IssueKind → Text
  | .missing => "csp_missing".toList
  | .noDefaultOrScript => "csp_no_default_or_script".toList
  | .unsafeInline directive => "csp_unsafe_inline_".toList ++ underscored directive
  | .unsafeEval directive => "csp_unsafe_eval_".toList ++ underscored directive
  | .wildcard directive => "csp_wildcard_".toList ++ underscored directive
  | .objectSrc => "csp_object_src".toList
  | .objectSrcNotNone => "csp_object_src_not_none".toList
  | .noFrameAncestors => "csp_no_frame_ancestors".toList
  | .frameAncestorsStar => "csp_frame_ancestors_star".toList
  | .noBaseUri => "csp_no_base_uri".toList
  | .noFormAction => "csp_no_form_action".toList
  | .noReporting => "csp_no_reporting".toList
where
  /-- `directive.replace('-', '_')`. -/
  underscored (directive : Text) : Text :=
    directive.map fun char => if char = '-' then '_' else char

structure Issue where
  kind : IssueKind
  severity : Severity
  title : Text
  detail : Option String
deriving DecidableEq

inductive Grade where
  | missing
  | weak
  | fair
  | good
  | strong
deriving DecidableEq

structure Analysis where
  present : Bool
  raw : Option Text
  directives : Policy
  issues : List Issue
  grade : Grade

/-! ## Judging -/

def defaultSrc : Text := "default-src".toList

inductive Target where
  | scripts
  | styles
deriving DecidableEq

def Target.directive : Target → Text
  | .scripts => "script-src".toList
  | .styles => "style-src".toList

/-- `script_from` and `style_from`. -/
def Policy.governing (directives : Policy) (target : Target) : Text :=
  if target.directive ∈ directives.directives then target.directive else defaultSrc

/-- The sources a policy is judged by for scripts or for styles. -/
def Policy.judged (directives : Policy) (target : Target) : List Text :=
  directives.sources (directives.governing target)

/-- `_governs`, where it is asked. -/
def Policy.governs (directives : Policy) (directive : Text) : List Target :=
  if directive ∈ [defaultSrc, Target.scripts.directive, Target.styles.directive] then
    [Target.scripts, Target.styles].filter fun target => directives.governing target = directive
  else []

def unsafeInlineWord : Text := "'unsafe-inline'".toList

def unsafeEvalWord : Text := "'unsafe-eval'".toList

def nonceStarts : List Text :=
  ["'nonce-".toList, "'sha256-".toList, "'sha384-".toList, "'sha512-".toList]

/-- `neutralised`. -/
def neutralised (sources : List Text) : Bool :=
  (sources.map lower).any fun source =>
    nonceStarts.any (·.isPrefixOf source) || source = "'strict-dynamic'".toList

/-- `joined`. -/
def joined (sources : List Text) : Text := lower (joinWords sources)

/-- The severity and the text of unsafe inline code. -/
def inlineDetail (governs : List Target) (sources : List Text) : Severity × String :=
  if .scripts ∈ governs ∧ neutralised sources = false then
    (.high, "Inline scripts and event handlers run, which is what most cross-site scripting needs. " ++
      "Use nonces or hashes.")
  else if .scripts ∈ governs then
    (.low, "Browsers that support the nonce or hash beside it ignore 'unsafe-inline'; it only matters " ++
      "for very old ones.")
  else
    (.low, "Inline styles cannot run code; injected CSS can at most deface pages or leak data through " ++
      "selectors.")

def cspTitle (directive : Text) (rest : String) : Text :=
  "CSP ".toList ++ directive ++ rest.toList

def sourceIssues (directives : Policy) (directive : Text) : List Issue :=
  let sources := directives.sources directive
  let governs := directives.governs directive
  (if unsafeInlineWord <:+: joined sources ∧ governs ≠ [] then
      [⟨.unsafeInline directive, (inlineDetail governs sources).1,
        cspTitle directive " allows 'unsafe-inline'", some (inlineDetail governs sources).2⟩]
    else []) ++
    (if unsafeEvalWord <:+: joined sources ∧ .scripts ∈ governs then
      [⟨.unsafeEval directive, .high, cspTitle directive " allows 'unsafe-eval'",
        some "eval() and similar APIs expand the XSS attack surface."⟩]
    else []) ++
    (if "*".toList ∈ sources ∨ "https:".toList ∈ sources then
      [⟨.wildcard directive, .medium, cspTitle directive " is overly broad (* or https:)",
        some "Restrict to concrete hostnames your app actually needs."⟩]
    else [])

/-- The directives whose sources are looked at. -/
def sourceDirectives : List Text :=
  ["default-src", "script-src", "style-src", "img-src", "connect-src", "font-src"].map String.toList

def Policy.has (directives : Policy) (directive : String) : Bool :=
  directive.toList ∈ directives.directives

def baseIssues (directives : Policy) : List Issue :=
  if !directives.has "default-src" && !directives.has "script-src" then
    [⟨.noDefaultOrScript, .high, "CSP has neither default-src nor script-src".toList,
      some "Without a baseline, browsers fall back to allowing almost anything."⟩]
  else []

def objectIssues (directives : Policy) : List Issue :=
  let sources := directives.sources "object-src".toList
  if !directives.has "object-src" && !directives.has "default-src" then
    [⟨.objectSrc, .low, "CSP does not restrict object-src".toList,
      some "Set `object-src 'none'` to block Flash/plugins."⟩]
  else if sources ≠ [] ∧ noneSource ∉ sources.map lower ∧ sources ≠ [noneSource] then
    [⟨.objectSrcNotNone, .low, "CSP object-src is not 'none'".toList, none⟩]
  else []

def frameIssues (directives : Policy) : List Issue :=
  match directives.lookup "frame-ancestors".toList with
  | none =>
      [⟨.noFrameAncestors, .medium, "CSP missing frame-ancestors".toList,
        some ("Add `frame-ancestors 'none'` (or 'self') to prevent clickjacking. " ++
          "Prefer CSP over X-Frame-Options.")⟩]
  | some sources =>
      if "*".toList ∈ sources then
        [⟨.frameAncestorsStar, .high, "CSP frame-ancestors allows any site (*)".toList,
          some "Any origin may iframe this page (clickjacking risk)."⟩]
      else []

def restIssues (directives : Policy) : List Issue :=
  (if directives.has "base-uri" then []
    else [⟨.noBaseUri, .low, "CSP missing base-uri".toList,
      some "Set `base-uri 'self'` to mitigate base-tag injection."⟩]) ++
    (if directives.has "form-action" then []
    else [⟨.noFormAction, .low, "CSP missing form-action".toList,
      some "Set `form-action 'self'` so forms cannot post to attacker sites."⟩]) ++
    (if directives.sources "report-uri".toList ≠ [] ∨ directives.sources "report-to".toList ≠ [] then []
    else [⟨.noReporting, .info, "CSP has no violation reporting".toList,
      some "Add Report-To / report-uri while tightening policy so breakages are visible."⟩])

def issuesOf (directives : Policy) : List Issue :=
  baseIssues directives ++ sourceDirectives.flatMap (sourceIssues directives) ++
    objectIssues directives ++ frameIssues directives ++ restIssues directives

def gradeOf (issues : List Issue) : Grade :=
  if issues.any (·.severity = .high) then .weak
  else if issues.any (·.severity = .medium) then .fair
  else if issues ≠ [] then .good
  else .strong

/-- `analyze_csp`. -/
def analyzeCsp (policy : Option Text) : Analysis :=
  if isGiven policy then
    let directives := parseCsp policy
    { present := true
      raw := some (strip (policy.getD []))
      directives
      issues := issuesOf directives
      grade := gradeOf (issuesOf directives) }
  else
    ⟨false, none, [], [⟨.missing, .medium, "Content-Security-Policy missing".toList, none⟩], .missing⟩

/-! ## Enforcing -/

def isAsciiSpace (char : Char) : Bool := char ∈ ['\t', '\n', '\x0c', '\r', ' ']

/-- A character of ASCII, and no white space but ASCII white space. -/
def isPolicyChar (char : Char) : Bool := char.toNat < 128 && (!isSpace char || isAsciiSpace char)

/-- A policy as it is written in a header. -/
structure PolicyValue where
  text : Text
  plain : text.all isPolicyChar = true

/-- What a text is split into at ASCII white space. -/
def tokens (text : Text) : List Text := (text.splitOnP isAsciiSpace).filter (· ≠ [])

def readDirective (part : Text) : Option (Text × List Text) :=
  if part.all fun char => char.toNat < 128 then
    match tokens part with
    | [] => none
    | name :: sources => some (name.map Char.toLower, sources)
  else none

/-- The sources of each directive of that name, in order. -/
def occurrences (text directive : Text) : List (List Text) :=
  (((text.splitOn ';').filterMap readDirective).filter (·.1 = directive)).map Prod.snd

/-- The directive browsers use for scripts or for styles: the default where the other is absent. -/
def governingOf (text : Text) (target : Target) : Text :=
  if occurrences text target.directive = [] then defaultSrc else target.directive

/-- The sources browsers enforce for scripts or for styles: those of the first directive of the name. -/
def effective (text : Text) (target : Target) : List Text :=
  (occurrences text (governingOf text target)).head?.getD []

/-- A keyword is compared without regard to case. -/
def HoldsWord (word : Text) (sources : List Text) : Prop :=
  word ∈ sources.map (List.map Char.toLower)

/-- Every host, or every host by a scheme; the scheme is compared without regard to case. -/
def HoldsWildcard (sources : List Text) : Prop :=
  "*".toList ∈ sources ∨ "https:".toList ∈ sources.map (List.map Char.toLower)

def Reports (analysis : Analysis) (kind : IssueKind) : Prop :=
  kind ∈ analysis.issues.map Issue.kind

/-- What is judged is what browsers enforce, and its issues are reported. -/
structure JudgesEnforced (value : PolicyValue) : Prop where
  judged : ∀ target,
    (analyzeCsp (some value.text)).directives.judged target = effective value.text target
  inline : ∀ target, Reports (analyzeCsp (some value.text)) (.unsafeInline (governingOf value.text target)) ↔
    HoldsWord unsafeInlineWord (effective value.text target)
  eval : Reports (analyzeCsp (some value.text)) (.unsafeEval (governingOf value.text .scripts)) ↔
    HoldsWord unsafeEvalWord (effective value.text .scripts)
  wildcard : ∀ target, Reports (analyzeCsp (some value.text)) (.wildcard (governingOf value.text target)) ↔
    HoldsWildcard (effective value.text target)

/-- A keyword stands inside of a source only beside the keyword itself. -/
def OnlyWhole (word : Text) (sources : List Text) : Prop :=
  (∃ source ∈ sources, word <:+: source.map Char.toLower) → HoldsWord word sources

/-- Where the directive for scripts or for styles is repeated, the last one is like the first; its keywords stand
alone, and `https:` is in small letters. -/
structure Plainly (text : Text) (target : Target) : Prop where
  repeated : (occurrences text (governingOf text target)).getLast? =
    (occurrences text (governingOf text target)).head?
  inline : OnlyWhole unsafeInlineWord (effective text target)
  eval : target = .scripts → OnlyWhole unsafeEvalWord (effective text target)
  scheme : HoldsWildcard (effective text target) →
    "*".toList ∈ effective text target ∨ "https:".toList ∈ effective text target

/-! ## Reading -/

/-- The directives in order, each with its sources. -/
def entriesOf (text : Text) : List (Text × List Text) := (text.splitOn ';').filterMap directiveOf

private theorem parseCsp_eq (text : Text) : parseCsp (some text) =
    (entriesOf text).foldl (fun out entry => OrderedDict.assign entry.1 entry.2 out) [] := by
  rw [parseCsp, Option.getD_some, entriesOf]
  by_cases given : isGiven (some text) = true
  · rw [if_pos given, List.foldl_filterMap]
    congr 1
    funext out part
    cases directiveOf part <;> rfl
  · have blank : strip text = [] := by simpa [isGiven] using given
    have white : ∀ char ∈ text, isSpace char = true := by
      by_contra solid
      push Not at solid
      obtain ⟨char, member, solid⟩ := solid
      have words := split_ne_nil member (Bool.eq_false_iff.mpr solid)
      rw [← split_strip, blank] at words
      exact words rfl
    have whole : text.splitOn ';' = [text] :=
      List.splitOn_eq_singleton fun member => absurd (white _ member) (by decide)
    rw [if_neg given, whole]
    have nothing : directiveOf text = none := by
      rw [directiveOf, split_strip, ← split_strip, blank]
      rfl
    rw [List.filterMap_cons_none nothing]
    rfl

private theorem lookup_foldl_assign (entries : List (Text × List Text)) (directive : Text) (out : Policy) :
    (entries.foldl (fun out entry => OrderedDict.assign entry.1 entry.2 out) out).lookup directive =
      (((entries.filter (·.1 = directive)).map Prod.snd).getLast?).or (out.lookup directive) := by
  induction entries generalizing out with
  | nil => rfl
  | cons entry entries induction =>
      rw [List.foldl_cons, induction, OrderedDict.lookup_assign]
      by_cases same : entry.1 = directive
      · rw [if_pos same.symm, List.filter_cons_of_pos (by simpa using same), List.map_cons]
        cases entries.filter (·.1 = directive) with
        | nil => rfl
        | cons next later =>
            rw [List.map_cons, List.getLast?_cons_cons, List.getLast?_eq_some_getLast (List.cons_ne_nil _ _)]
            rfl
      · rw [if_neg (Ne.symm same), List.filter_cons_of_neg (by simpa using same)]

section Value

variable (value : PolicyValue)

private theorem splitOn_plain {part : Text} (isPart : part ∈ value.text.splitOn ';') :
    ∀ char ∈ part, char.toNat < 128 ∧ isSpace char = isAsciiSpace char := by
  intro char member
  have plain := List.all_eq_true.mp value.plain char (mem_of_mem_splitOnP isPart member)
  rw [isPolicyChar, Bool.and_eq_true, Bool.or_eq_true, decide_eq_true_eq] at plain
  refine ⟨plain.1, Bool.eq_iff_iff.mpr ⟨fun white => ?_, fun white => ?_⟩⟩
  · exact plain.2.resolve_left (by simp [white])
  have spaces : ['\t', '\n', '\x0c', '\r', ' '].all isSpace = true := by decide
  exact List.all_eq_true.mp spaces char (of_decide_eq_true white)

private theorem directiveOf_eq {part : Text} (isPart : part ∈ value.text.splitOn ';') :
    directiveOf part = readDirective part := by
  have plain := splitOn_plain value isPart
  have same : split (strip part) = tokens part := by
    rw [split_strip, split_eq_filter, tokens, splitOnP_congr fun char member => (plain char member).2]
  have ascii : (part.all fun char => char.toNat < 128) = true :=
    List.all_eq_true.mpr fun char member => decide_eq_true (plain char member).1
  rw [directiveOf, readDirective, if_pos ascii, same]
  cases words : tokens part with
  | nil => rfl
  | cons name sources =>
      have isToken : name ∈ part.splitOnP isAsciiSpace :=
        List.mem_of_mem_filter (words ▸ List.mem_cons_self : name ∈ tokens part)
      simp only
      rw [lower_of_ascii fun char member => (plain char (mem_of_mem_splitOnP isToken member)).1]

theorem lookup_parseCsp (directive : Text) :
    (parseCsp (some value.text)).lookup directive = (occurrences value.text directive).getLast? := by
  rw [parseCsp_eq, lookup_foldl_assign, entriesOf,
    List.filterMap_congr fun part isPart => directiveOf_eq value isPart, occurrences]
  exact Option.or_none

theorem sources_parseCsp (directive : Text) : (parseCsp (some value.text)).sources directive =
    (occurrences value.text directive).getLast?.getD [] := by
  rw [Policy.sources, lookup_parseCsp]

theorem mem_parseCsp (directive : Text) : directive ∈ (parseCsp (some value.text)).directives ↔
    occurrences value.text directive ≠ [] := by
  have isKey : directive ∈ (parseCsp (some value.text)).directives ↔
      ((parseCsp (some value.text)).lookup directive).isSome := by
    constructor
    · intro member
      obtain ⟨entry, isEntry, rfl⟩ := List.mem_map.mp member
      rw [OrderedDict.lookup_of_mem (nodup_parseCsp _) isEntry]
      rfl
    · intro found
      obtain ⟨sources, found⟩ := Option.isSome_iff_exists.mp found
      exact List.mem_map_of_mem (f := Prod.fst) (OrderedDict.mem_of_lookup found)
  rw [isKey, lookup_parseCsp, ne_eq, ← List.getLast?_eq_none_iff, Option.isSome_iff_ne_none]

theorem governing_eq (target : Target) :
    (parseCsp (some value.text)).governing target = governingOf value.text target := by
  rw [Policy.governing, governingOf]
  by_cases absent : occurrences value.text target.directive = []
  · rw [if_pos absent, if_neg ((mem_parseCsp value _).not.mpr (not_not.mpr absent))]
  · rw [if_neg absent, if_pos ((mem_parseCsp value _).mpr absent)]

theorem judged_eq (target : Target) : (parseCsp (some value.text)).judged target =
    (occurrences value.text (governingOf value.text target)).getLast?.getD [] := by
  rw [Policy.judged, governing_eq, sources_parseCsp]

private theorem ascii_of_mem_occurrences {directive source : Text} {sources : List Text}
    (isOne : sources ∈ occurrences value.text directive) (member : source ∈ sources) :
    ∀ char ∈ source, char.toNat < 128 := by
  obtain ⟨entry, kept, rfl⟩ := List.mem_map.mp isOne
  obtain ⟨part, isPart, read⟩ := List.mem_filterMap.mp (List.mem_of_mem_filter kept)
  rw [readDirective] at read
  split_ifs at read with ascii
  split at read
  · cases read
  · rename_i name words isTokens
    obtain rfl := Option.some.inj read
    have isToken : source ∈ part.splitOnP isAsciiSpace :=
      List.mem_of_mem_filter (isTokens ▸ List.mem_cons_of_mem _ member : source ∈ tokens part)
    exact fun char inside =>
      of_decide_eq_true (List.all_eq_true.mp ascii char (mem_of_mem_splitOnP isToken inside))

theorem ascii_judged {target : Target} {source : Text}
    (member : source ∈ (parseCsp (some value.text)).judged target) :
    ∀ char ∈ source, char.toNat < 128 := by
  rw [judged_eq] at member
  cases last : (occurrences value.text (governingOf value.text target)).getLast? with
  | none =>
      rw [last] at member
      cases member
  | some sources =>
      rw [last] at member
      exact ascii_of_mem_occurrences value (List.mem_of_getLast? last) member

end Value

/-! ## Reporting -/

theorem directives_analyzeCsp (policy : Option Text) :
    (analyzeCsp policy).directives = parseCsp policy := by
  rw [analyzeCsp]
  cases given : isGiven policy with
  | false => rw [parseCsp, given]; rfl
  | true => rfl

/-- The directive whose sources an issue is about. -/
def IssueKind.directive : IssueKind → Option Text
  | .unsafeInline directive | .unsafeEval directive | .wildcard directive => some directive
  | _ => none

private theorem directive_of_mem_others {directives : Policy} {issue : Issue}
    (member : issue ∈ baseIssues directives ∨ issue ∈ objectIssues directives ∨
      issue ∈ frameIssues directives ∨ issue ∈ restIssues directives) :
    issue.kind.directive = none := by
  rcases member with base | object | frame | rest
  · rw [baseIssues] at base
    split_ifs at base
    · rw [List.mem_singleton.mp base]
      rfl
    · cases base
  · rw [objectIssues] at object
    split_ifs at object
    · rw [List.mem_singleton.mp object]
      rfl
    · rw [List.mem_singleton.mp object]
      rfl
    · cases object
  · rw [frameIssues] at frame
    split at frame
    · rw [List.mem_singleton.mp frame]
      rfl
    · split_ifs at frame
      · rw [List.mem_singleton.mp frame]
        rfl
      · cases frame
  · simp only [restIssues, List.mem_append] at rest
    rcases rest with (base | form) | report
    · split_ifs at base
      · cases base
      · rw [List.mem_singleton.mp base]
        rfl
    · split_ifs at form
      · cases form
      · rw [List.mem_singleton.mp form]
        rfl
    · split_ifs at report
      · cases report
      · rw [List.mem_singleton.mp report]
        rfl

section Kinds

variable {directives : Policy} {directive : Text} {kind : IssueKind}

theorem mem_kinds_iff : kind ∈ (sourceIssues directives directive).map Issue.kind ↔
    kind = .unsafeInline directive ∧ unsafeInlineWord <:+: joined (directives.sources directive) ∧
        directives.governs directive ≠ [] ∨
      kind = .unsafeEval directive ∧ unsafeEvalWord <:+: joined (directives.sources directive) ∧
        .scripts ∈ directives.governs directive ∨
      kind = .wildcard directive ∧ ("*".toList ∈ directives.sources directive ∨
        "https:".toList ∈ directives.sources directive) := by
  have optional : ∀ (holds : Prop) [Decidable holds] (issue : Issue),
      kind ∈ (if holds then [issue] else []).map Issue.kind ↔ kind = issue.kind ∧ holds := by
    intro holds _ issue
    split_ifs with met <;> simp [met]
  simp only [sourceIssues, List.map_append, List.mem_append, optional, or_assoc]

theorem mem_issuesOf_iff (about : kind.directive = some directive) :
    kind ∈ (issuesOf directives).map Issue.kind ↔
      directive ∈ sourceDirectives ∧ kind ∈ (sourceIssues directives directive).map Issue.kind := by
  constructor
  · intro member
    obtain ⟨issue, isIssue, rfl⟩ := List.mem_map.mp member
    have apart : ∀ {issues : List Issue}, issue ∈ issues →
        (∀ other ∈ issues, other.kind.directive = none) → False := fun inside none => by
      rw [none issue inside] at about
      cases about
    simp only [issuesOf, List.mem_append] at isIssue
    rcases isIssue with (((base | sources) | object) | frame) | rest
    · exact (apart base fun _ other => directive_of_mem_others (.inl other)).elim
    · obtain ⟨name, listed, inside⟩ := List.mem_flatMap.mp sources
      have isKind := List.mem_map_of_mem (f := Issue.kind) inside
      have same : issue.kind.directive = some name := by
        rcases mem_kinds_iff.mp isKind with found | found | found <;> rw [found.1] <;> rfl
      obtain rfl := Option.some.inj (same.symm.trans about)
      exact ⟨listed, isKind⟩
    · exact (apart object fun _ other => directive_of_mem_others (.inr (.inl other))).elim
    · exact (apart frame fun _ other => directive_of_mem_others (.inr (.inr (.inl other)))).elim
    · exact (apart rest fun _ other => directive_of_mem_others (.inr (.inr (.inr other)))).elim
  · rintro ⟨listed, member⟩
    obtain ⟨issue, inside, rfl⟩ := List.mem_map.mp member
    refine List.mem_map_of_mem ?_
    simp only [issuesOf, List.mem_append]
    exact .inl (.inl (.inl (.inr (List.mem_flatMap.mpr ⟨directive, listed, inside⟩))))

theorem reports_iff {policy : Option Text} (about : kind.directive = some directive)
    (listed : directive ∈ sourceDirectives) :
    Reports (analyzeCsp policy) kind ↔
      kind ∈ (sourceIssues (parseCsp policy) directive).map Issue.kind := by
  rw [Reports, analyzeCsp]
  cases given : isGiven policy with
  | true => exact (mem_issuesOf_iff about).trans (and_iff_right listed)
  | false =>
      have empty : parseCsp policy = [] := by rw [parseCsp, given]; rfl
      rw [empty]
      refine iff_of_false (fun member => ?_) fun member => ?_
      · rw [List.mem_singleton.mp member] at about
        cases about
      · rcases mem_kinds_iff.mp member with ⟨-, inside, -⟩ | ⟨-, inside, -⟩ | ⟨-, held⟩
        · exact absurd (List.infix_nil.mp inside) (by decide)
        · exact absurd (List.infix_nil.mp inside) (by decide)
        · exact held.elim (absurd · List.not_mem_nil) (absurd · List.not_mem_nil)

end Kinds

theorem governingOf_listed (text : Text) (target : Target) :
    governingOf text target ∈ sourceDirectives := by
  rw [governingOf]
  split_ifs
  · decide
  · cases target <;> decide

section Targets

variable (value : PolicyValue) (target : Target)

theorem mem_governs : target ∈
    (parseCsp (some value.text)).governs ((parseCsp (some value.text)).governing target) := by
  have listed : (parseCsp (some value.text)).governing target ∈
      [defaultSrc, Target.scripts.directive, Target.styles.directive] := by
    rw [Policy.governing]
    split_ifs
    · cases target <;> decide
    · exact List.mem_cons_self
  rw [Policy.governs, if_pos listed]
  refine List.mem_filter.mpr ⟨?_, decide_eq_true rfl⟩
  cases target <;> decide

/-- A keyword is found in the joined sources where it is found in one of them. -/
theorem infix_joined_iff {word : Text} (clean : ' ' ∉ word) (filled : word ≠ []) :
    word <:+: joined ((parseCsp (some value.text)).judged target) ↔
      ∃ source ∈ (parseCsp (some value.text)).judged target, word <:+: source.map Char.toLower := by
  have ascii : ∀ char ∈ joinWords ((parseCsp (some value.text)).judged target), char.toNat < 128 := by
    intro char member
    rcases mem_joinWords member with rfl | ⟨source, isSource, inside⟩
    · decide
    · exact ascii_judged value isSource char inside
  rw [joined, lower_of_ascii ascii, map_joinWords (by decide), infix_joinWords_iff clean filled]
  simp only [List.mem_map, exists_exists_and_eq_and]

theorem reports_inline_iff :
    Reports (analyzeCsp (some value.text)) (.unsafeInline (governingOf value.text target)) ↔
      ∃ source ∈ (parseCsp (some value.text)).judged target,
        unsafeInlineWord <:+: source.map Char.toLower := by
  have governs := mem_governs value target
  rw [governing_eq] at governs
  rw [reports_iff rfl (governingOf_listed _ _), mem_kinds_iff,
    ← infix_joined_iff value target (by decide) (by decide), Policy.judged, governing_eq]
  simp [List.ne_nil_of_mem governs]

theorem reports_eval_iff :
    Reports (analyzeCsp (some value.text)) (.unsafeEval (governingOf value.text .scripts)) ↔
      ∃ source ∈ (parseCsp (some value.text)).judged .scripts,
        unsafeEvalWord <:+: source.map Char.toLower := by
  have governs := mem_governs value .scripts
  rw [governing_eq] at governs
  rw [reports_iff rfl (governingOf_listed _ _), mem_kinds_iff,
    ← infix_joined_iff value .scripts (by decide) (by decide), Policy.judged, governing_eq]
  simp [governs]

theorem reports_wildcard_iff :
    Reports (analyzeCsp (some value.text)) (.wildcard (governingOf value.text target)) ↔
      "*".toList ∈ (parseCsp (some value.text)).judged target ∨
        "https:".toList ∈ (parseCsp (some value.text)).judged target := by
  rw [reports_iff rfl (governingOf_listed _ _), mem_kinds_iff, Policy.judged, governing_eq]
  simp

end Targets

/-! ## What is judged is what is enforced -/

private theorem getD_eq_iff {lists : List (List Text)} :
    lists.getLast?.getD [] = lists.head?.getD [] ↔ lists.getLast? = lists.head? := by
  cases lists with
  | nil => exact iff_of_true rfl rfl
  | cons first lists =>
      rw [List.getLast?_eq_some_getLast (List.cons_ne_nil _ _), List.head?_cons, Option.some_inj]
      rfl

private theorem onlyWhole_iff {word : Text} {sources : List Text} :
    ((∃ source ∈ sources, word <:+: source.map Char.toLower) ↔ HoldsWord word sources) ↔
      OnlyWhole word sources := by
  refine ⟨fun both => both.mp, fun whole => ⟨whole, fun held => ?_⟩⟩
  obtain ⟨source, isSource, same⟩ := List.mem_map.mp held
  exact ⟨source, isSource, same ▸ List.infix_rfl⟩

private theorem wildcard_iff {sources : List Text} :
    ("*".toList ∈ sources ∨ "https:".toList ∈ sources ↔ HoldsWildcard sources) ↔
      (HoldsWildcard sources → "*".toList ∈ sources ∨ "https:".toList ∈ sources) := by
  refine ⟨fun both => both.mpr, fun plain => ⟨fun held => held.imp_right fun scheme => ?_, plain⟩⟩
  exact List.mem_map.mpr ⟨_, scheme, by decide⟩

/-- What is judged for scripts and for styles is what browsers enforce, with its issues, if and only if the
directives are written plainly. -/
theorem judgesEnforced_iff (value : PolicyValue) :
    JudgesEnforced value ↔ ∀ target, Plainly value.text target := by
  have judged : ∀ target, (parseCsp (some value.text)).judged target = effective value.text target ↔
      (occurrences value.text (governingOf value.text target)).getLast? =
        (occurrences value.text (governingOf value.text target)).head? := fun target => by
    rw [judged_eq, effective, getD_eq_iff]
  constructor
  · intro enforced target
    have same := enforced.judged target
    rw [directives_analyzeCsp] at same
    refine ⟨(judged target).mp same, ?_, ?_, ?_⟩
    · have inline := enforced.inline target
      rw [reports_inline_iff, same] at inline
      exact onlyWhole_iff.mp inline
    · rintro rfl
      have eval := enforced.eval
      rw [reports_eval_iff, same] at eval
      exact onlyWhole_iff.mp eval
    · have wildcard := enforced.wildcard target
      rw [reports_wildcard_iff, same] at wildcard
      exact wildcard_iff.mp wildcard
  · intro plainly
    have same := fun target => (judged target).mpr (plainly target).repeated
    constructor
    · intro target
      rw [directives_analyzeCsp]
      exact same target
    · intro target
      rw [reports_inline_iff, same]
      exact onlyWhole_iff.mpr (plainly target).inline
    · rw [reports_eval_iff, same]
      exact onlyWhole_iff.mpr ((plainly .scripts).eval rfl)
    · intro target
      rw [reports_wildcard_iff, same]
      exact wildcard_iff.mpr (plainly target).scheme

/-- The second directive for scripts hides that inline code is allowed. -/
theorem last_directive_judged :
    ¬JudgesEnforced ⟨"script-src 'unsafe-inline'; script-src 'self'".toList, by decide +kernel⟩ := by
  intro enforced
  exact absurd (enforced.judged .scripts) (by decide +kernel)

end WebSecurity
end DomainLens
