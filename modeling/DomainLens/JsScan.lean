import DomainLens.Python.Text

/-!
# Vulnerable script libraries

The address and the first part of a script are searched for the libraries of a table.  A library is
reported once in each version, by the first rule that finds the version and reaches it.
-/

namespace DomainLens
namespace JsScan

open Python

/-! ## Versions -/

/-- Most digits `int` reads. -/
def maxIntDigits : Nat := 4300

/-- `_ver_tuple`, unless `int` refuses a number. -/
def verTuple (version : Text) : Option (List Nat) :=
  let parts := (version.splitOnP fun char => !isDecimal char).filter (· ≠ [])
  if parts = [] then some [0]
  else if (parts.take 4).all fun part => part.length ≤ maxIntDigits then
    some ((parts.take 4).map intOf)
  else none

/-- `_ver_lte`. -/
def verLte (left right : Text) : Option Bool :=
  (verTuple left).bind fun left => (verTuple right).map fun right => left ≤ right

/-! ## Patterns -/

/-- What a pattern may have before the version. -/
inductive Item where
  | letter (char : Char)
  | oneOf (chars : List Char)
  | maybe (chars : List Char)
deriving DecidableEq

/-- The characters a letter matches without regard to case. -/
def caseVariants (char : Char) : List Char :=
  char :: char.toUpper ::
    if char = 'i' then ['İ', 'ı'] else if char = 'k' then ['K'] else if char = 's' then ['ſ'] else []

/-- `\d+` at the front, with what follows. -/
def digitsAt (text : Text) : Option (Text × Text) :=
  let digits := text.takeWhile isDecimal
  if digits = [] then none else some (digits, text.dropWhile isDecimal)

/-- `\d+\.\d+\.\d+` at the front. -/
def versionAt (text : Text) : Option Text :=
  match digitsAt text with
  | some (major, '.' :: text) =>
      match digitsAt text with
      | some (minor, '.' :: text) =>
          (digitsAt text).map fun patch => major ++ '.' :: minor ++ '.' :: patch.1
      | _ => none
  | _ => none

/-- The version of a pattern that matches at the front; what may be there is tried to be there first. -/
def matchAt : List Item → Text → Option Text
  | [], text => versionAt text
  | .letter char :: items, head :: text =>
      if head ∈ caseVariants char then matchAt items text else none
  | .oneOf chars :: items, head :: text => if head ∈ chars then matchAt items text else none
  | .maybe chars :: items, head :: text =>
      if head ∈ chars then (matchAt items text).or (matchAt items (head :: text))
      else matchAt items (head :: text)
  | .maybe _ :: items, [] => matchAt items []
  | _ :: _, [] => none

/-- `search`: the version of the leftmost match. -/
def search (items : List Item) (text : Text) : Option Text := text.tails.findSome? (matchAt items)

/-! ## Rules -/

structure Rule where
  name : Text
  search : Text → Option Text
  maxVulnerable : Text
  cves : List Text
  summary : Text

/-- A table of rules, whose bounds are versions. -/
structure RuleTable where
  rules : List Rule
  readable : ∀ rule ∈ rules, (verTuple rule.maxVulnerable).isSome

structure Finding where
  library : Text
  version : Text
  maxVulnerable : Text
  cves : List Text
  summary : Text
  source : Text
deriving DecidableEq

def haystacks (url body : Text) : List Text := url :: if body = [] then [] else [body.take 2000]

structure State where
  seen : List (Text × Text)
  findings : List Finding

def visit (url : Text) (state : State) (pair : Text × Rule) : Option State :=
  match pair.2.search pair.1 with
  | none => some state
  | some version =>
      if (pair.2.name, version) ∈ state.seen then some state
      else
        (verLte version pair.2.maxVulnerable).map fun within =>
          if within then
            { seen := state.seen ++ [(pair.2.name, version)]
              findings := state.findings ++ [{
                library := pair.2.name
                version
                maxVulnerable := pair.2.maxVulnerable
                cves := pair.2.cves
                summary := pair.2.summary
                source := url }] }
          else state

def turns (rules : List Rule) (url body : Text) : List (Text × Rule) :=
  (haystacks url body).flatMap fun hay => rules.map fun rule => (hay, rule)

/-- `_identify_libraries` with a table of rules, unless it raises. -/
def identifyLibraries (rules : List Rule) (url body : Text) : Option (List Finding) :=
  ((turns rules url body).foldlM (visit url) ⟨[], []⟩).map State.findings

/-! ## What is found -/

/-- The turn finds the library in that version and reaches it. -/
def fires (name version : Text) (turn : Text × Rule) : Bool :=
  turn.2.name = name ∧ turn.2.search turn.1 = some version ∧
    verLte version turn.2.maxVulnerable = some true

/-- A finding reports the CVE of a library in a version. -/
def Reports (findings : List Finding) (name version cve : Text) : Prop :=
  ∃ finding ∈ findings, finding.library = name ∧ finding.version = version ∧ cve ∈ finding.cves

/-- What is found after some turns is what their first one that fires for it says. -/
structure Found (turns : List (Text × Rule)) (state : State) : Prop where
  seen : ∀ name version, (name, version) ∈ state.seen ↔
    ∃ turn, turns.find? (fires name version) = some turn
  reports : ∀ name version cve, Reports state.findings name version cve ↔
    ∃ turn, turns.find? (fires name version) = some turn ∧ cve ∈ turn.2.cves
  readable : ∀ key ∈ state.seen, (verTuple key.2).isSome

/-- `int` reads the numbers of every version that is found. -/
def Readable (turns : List (Text × Rule)) : Prop :=
  ∀ turn ∈ turns, ∀ version, turn.2.search turn.1 = some version → (verTuple version).isSome

private theorem verLte_isSome {version bound : Text} (readable : (verTuple bound).isSome) :
    (verLte version bound).isSome ↔ (verTuple version).isSome := by
  obtain ⟨bound, isBound⟩ := Option.isSome_iff_exists.mp readable
  rw [verLte, isBound]
  cases verTuple version <;> rfl

private theorem find_snoc {turns : List (Text × Rule)} {turn found : Text × Rule}
    {name version : Text} :
    (turns ++ [turn]).find? (fires name version) = some found ↔
      turns.find? (fires name version) = some found ∨
        turns.find? (fires name version) = none ∧ fires name version turn = true ∧ turn = found := by
  rw [List.find?_append, Option.or_eq_some_iff]
  refine or_congr_right (and_congr_right fun _ => ?_)
  cases fired : fires name version turn <;> simp [fired]

private theorem Found.skip {turns : List (Text × Rule)} {turn : Text × Rule}
    {state : State} (found : Found turns state)
    (nothing : ∀ name version, fires name version turn = true → (name, version) ∈ state.seen) :
    Found (turns ++ [turn]) state := by
  have same (name version : Text) (first : Text × Rule) :
      (turns ++ [turn]).find? (fires name version) = some first ↔
        turns.find? (fires name version) = some first := by
    rw [find_snoc, or_iff_left]
    rintro ⟨none, fired, -⟩
    obtain ⟨earlier, isEarlier⟩ := (found.seen name version).mp (nothing name version fired)
    rw [none] at isEarlier
    cases isEarlier
  exact ⟨by simpa only [same] using found.seen, by simpa only [same] using found.reports,
    found.readable⟩

private theorem reports_snoc {findings : List Finding} {finding : Finding} {name version cve : Text} :
    Reports (findings ++ [finding]) name version cve ↔ Reports findings name version cve ∨
      finding.library = name ∧ finding.version = version ∧ cve ∈ finding.cves := by
  simp [Reports, or_and_right, exists_or]

private theorem found_visit {url : Text} {turns : List (Text × Rule)} {turn : Text × Rule}
    {state : State} (found : Found turns state)
    (bounded : (verTuple turn.2.maxVulnerable).isSome) :
    (∀ next, visit url state turn = some next → Found (turns ++ [turn]) next) ∧
      ((visit url state turn).isSome ↔ Readable [turn]) := by
  have single : Readable [turn] ↔
      ∀ version, turn.2.search turn.1 = some version → (verTuple version).isSome := by
    simp [Readable]
  rw [single, visit]
  cases searched : turn.2.search turn.1 with
  | none =>
      refine ⟨?_, by simp⟩
      rintro next ⟨⟩
      refine found.skip fun name version fired => ?_
      simp [fires, searched] at fired
  | some version =>
      have only {name other : Text} (fired : fires name other turn = true) :
          turn.2.name = name ∧ version = other ∧
            verLte version turn.2.maxVulnerable = some true := by
        simp only [fires, searched, Option.some.injEq, decide_eq_true_eq] at fired
        obtain ⟨isName, rfl, within⟩ := fired
        exact ⟨isName, rfl, within⟩
      by_cases seen : (turn.2.name, version) ∈ state.seen
      · simp only [if_pos seen]
        refine ⟨?_, by simpa using found.readable _ seen⟩
        rintro next ⟨⟩
        refine found.skip fun name other fired => ?_
        obtain ⟨rfl, rfl, -⟩ := only fired
        exact seen
      · simp only [if_neg seen, Option.isSome_map, verLte_isSome bounded]
        refine ⟨fun next visited => ?_, by simp⟩
        obtain ⟨within, compared, rfl⟩ := Option.map_eq_some_iff.mp visited
        cases within with
        | false =>
            refine found.skip fun name other fired => ?_
            obtain ⟨-, -, within⟩ := only fired
            rw [compared] at within
            cases within
        | true =>
            have fired : fires turn.2.name version turn = true := by
              simp [fires, searched, compared]
            have fresh : turns.find? (fires turn.2.name version) = none := by
              refine Option.eq_none_iff_forall_ne_some.mpr fun first isFirst => seen ?_
              exact (found.seen _ _).mpr ⟨first, isFirst⟩
            have readable := (verLte_isSome bounded).mp (Option.isSome_of_eq_some compared)
            refine ⟨fun name other => ?_, fun name other cve => ?_, fun key member => ?_⟩
            · simp only [if_true, List.mem_append, List.mem_singleton, found.seen, find_snoc,
                exists_or, Prod.mk.injEq]
              refine or_congr_right ⟨?_, ?_⟩
              · rintro ⟨rfl, rfl⟩
                exact ⟨turn, fresh, fired, rfl⟩
              · rintro ⟨first, -, isFired, -⟩
                obtain ⟨isName, isVersion, -⟩ := only isFired
                exact ⟨isName.symm, isVersion.symm⟩
            · simp only [if_true, reports_snoc, found.reports, find_snoc, or_and_right, exists_or]
              refine or_congr_right ⟨?_, ?_⟩
              · rintro ⟨rfl, rfl, isCve⟩
                exact ⟨turn, ⟨fresh, fired, rfl⟩, isCve⟩
              · rintro ⟨first, ⟨-, isFired, rfl⟩, isCve⟩
                obtain ⟨isName, isVersion, -⟩ := only isFired
                exact ⟨isName, isVersion, isCve⟩
            · rcases List.mem_append.mp member with old | new
              · exact found.readable key old
              · rw [List.mem_singleton.mp new]
                exact readable

private theorem found_foldlM {url : Text} {done turns : List (Text × Rule)} {state : State}
    (found : Found done state)
    (bounded : ∀ turn ∈ turns, (verTuple turn.2.maxVulnerable).isSome) :
    (∀ last, turns.foldlM (visit url) state = some last → Found (done ++ turns) last) ∧
      ((turns.foldlM (visit url) state).isSome ↔ Readable turns) := by
  induction turns generalizing done state with
  | nil =>
      refine ⟨?_, by simp [Readable]⟩
      rintro last ⟨⟩
      rwa [List.append_nil]
  | cons turn turns induction =>
      obtain ⟨kept, returns⟩ := @found_visit url done turn state found
        (bounded turn List.mem_cons_self)
      have split : Readable (turn :: turns) ↔ Readable [turn] ∧ Readable turns := by
        simp [Readable]
      rw [List.foldlM_cons, split, ← returns]
      cases visited : visit url state turn with
      | none => simp
      | some next =>
          obtain ⟨later, ends⟩ := induction (kept next visited)
            fun other member => bounded other (List.mem_cons_of_mem turn member)
          rw [List.append_assoc] at later
          simpa using ⟨later, ends⟩

/-! ## Every rule that reaches a version -/

/-- The library was found in that version. -/
def Detected (rules : List Rule) (url body name version : Text) : Prop :=
  ∃ turn ∈ turns rules url body, turn.2.name = name ∧ turn.2.search turn.1 = some version

/-- The rule is about the library, and its bound is at or above the version. -/
def Reaches (name version : Text) (rule : Rule) : Prop :=
  rule.name = name ∧ verLte version rule.maxVulnerable = some true

/-- What is reported for a library that was found is what all rules that reach its version have. -/
def IsComplete (rules : List Rule) (url body : Text) : Prop :=
  ∃ findings, identifyLibraries rules url body = some findings ∧
    ∀ name version, Detected rules url body name version → ∀ cve,
      Reports findings name version cve ↔ ∃ rule ∈ rules, Reaches name version rule ∧ cve ∈ rule.cves

/-- The first rule that finds a version and reaches it has what every other rule that reaches the version
has. -/
def FirstHasAll (rules : List Rule) (url body : Text) : Prop :=
  ∀ name version, Detected rules url body name version → ∀ rule ∈ rules, Reaches name version rule →
    ∀ cve ∈ rule.cves,
      ∃ turn, (turns rules url body).find? (fires name version) = some turn ∧ cve ∈ turn.2.cves

private theorem mem_of_mem_turns {rules : List Rule} {url body : Text} {turn : Text × Rule}
    (member : turn ∈ turns rules url body) : turn.2 ∈ rules := by
  simp only [turns, List.mem_flatMap, List.mem_map] at member
  obtain ⟨hay, -, rule, isRule, rfl⟩ := member
  exact isRule

private theorem found_start : Found [] ⟨[], []⟩ :=
  ⟨by simp, by simp [Reports], by simp⟩

/-- Nothing is left out exactly where `int` reads every version that is found, and of the rules that
reach one the first that finds it has all that the others have. -/
theorem isComplete_iff (table : RuleTable) (url body : Text) :
    IsComplete table.rules url body ↔
      Readable (turns table.rules url body) ∧ FirstHasAll table.rules url body := by
  obtain ⟨ends, returns⟩ := @found_foldlM url [] (turns table.rules url body) ⟨[], []⟩ found_start
    fun turn member => table.readable turn.2 (mem_of_mem_turns member)
  rw [List.nil_append] at ends
  constructor
  · rintro ⟨findings, returned, complete⟩
    obtain ⟨last, ran, rfl⟩ := Option.map_eq_some_iff.mp returned
    refine ⟨returns.mp (Option.isSome_of_eq_some ran), ?_⟩
    intro name version detected rule isRule reached cve isCve
    exact ((ends last ran).reports name version cve).mp
      ((complete name version detected cve).mpr ⟨rule, isRule, reached, isCve⟩)
  · rintro ⟨readable, first⟩
    obtain ⟨last, ran⟩ := Option.isSome_iff_exists.mp (returns.mpr readable)
    refine ⟨last.findings, by rw [identifyLibraries, ran]; rfl, ?_⟩
    intro name version detected cve
    rw [(ends last ran).reports]
    constructor
    · rintro ⟨turn, isFirst, isCve⟩
      have fired := List.find?_some isFirst
      rw [fires, decide_eq_true_eq] at fired
      exact ⟨turn.2, mem_of_mem_turns (List.mem_of_find?_eq_some isFirst),
        ⟨fired.1, fired.2.2⟩, isCve⟩
    · rintro ⟨rule, isRule, reached, isCve⟩
      exact first name version detected rule isRule reached cve isCve

/-! ## The table -/

private def word (text : String) : List Item := text.toList.map .letter

private def rule (name : String) (items : List Item) (bound : String) (cves : List String)
    (summary : String) : Rule where
  name := name.toList
  search := search (items ++ [.maybe ['.', '-']])
  maxVulnerable := bound.toList
  cves := cves.map String.toList
  summary := summary.toList

/-- `_VULN_LIBRARIES`. -/
def vulnLibraries : List Rule :=
  [rule "jQuery" (word "jquery") "3.4.1" ["CVE-2020-11022", "CVE-2020-11023"]
      ("jQuery <= 3.4.1 is vulnerable to XSS via html()/jQuery.htmlPrefilter() with " ++
        "untrusted HTML containing <option> or <style> tags."),
    rule "jQuery" (word "jquery") "1.12.4" ["CVE-2015-9251"]
      ("jQuery <= 1.12.4 is vulnerable to XSS via cross-domain Ajax requests when the " ++
        "response is executed as JS instead of parsed as JSON."),
    rule "jQuery UI" (word "jquery" ++ .oneOf ['-', '.'] :: word "ui") "1.12.1"
      ["CVE-2021-41182", "CVE-2021-41183", "CVE-2021-41184"]
      ("jQuery UI <= 1.12.1 has multiple XSS issues in .datepicker(), .resizable(), and " ++
        "altField options."),
    rule "Bootstrap" (word "bootstrap") "3.4.1" ["CVE-2018-14040", "CVE-2018-14041", "CVE-2018-14042"]
      "Bootstrap 3.x/4.0.0 tooltip/affix/collapse data-attribute XSS.",
    rule "Bootstrap" (word "bootstrap") "4.3.1" ["CVE-2019-8331"]
      "Bootstrap <= 4.3.1 tooltip/popover data-template XSS.",
    rule "AngularJS" (word "angular") "1.8.2" ["CVE-2023-26118"]
      ("AngularJS is end-of-life (no more security patches from Google since Jan 2022) and " ++
        "has known sandbox-bypass XSS issues."),
    rule "Lodash" (word "lodash") "4.17.20" ["CVE-2020-8203", "CVE-2020-28500"]
      ("Lodash <= 4.17.20 is vulnerable to prototype pollution via zipObjectDeep and ReDoS " ++
        "via trim/pad functions."),
    rule "Moment.js" (word "moment") "2.29.3" ["CVE-2022-31129"]
      "Moment.js <= 2.29.3 has a ReDoS vulnerability in its user-locale parsing.",
    rule "Handlebars" (word "handlebars") "4.7.6" ["CVE-2021-23369", "CVE-2021-23383"]
      "Handlebars <= 4.7.6 allows prototype pollution / RCE via crafted templates.",
    rule "Underscore.js" (word "underscore") "1.12.0" ["CVE-2021-23358"]
      ("Underscore.js <= 1.12.0 template() function allows arbitrary JS execution via " ++
        "crafted input."),
    rule "SweetAlert" (word "sweetalert" ++ [.maybe ['2']]) "8.0.0" ["CVE-2019-16759-related"]
      "Old SweetAlert versions have known XSS issues via unsanitized HTML content options.",
    rule "Prototype.js" (word "prototype") "1.7.3" ["CVE-2015-1836"]
      "Prototype.js <= 1.7.3 has a DoS vulnerability via crafted regular expressions.",
    rule "Socket.IO" (word "socket" ++ .oneOf ['.'] :: word "io") "2.4.0" ["CVE-2020-36049"]
      "Socket.IO client <= 2.4.0 is affected by a ReDoS vulnerability."]

private theorem vulnLibraries_readable :
    ∀ rule ∈ vulnLibraries, (verTuple rule.maxVulnerable).isSome := by
  decide +kernel

def vulnTable : RuleTable := ⟨vulnLibraries, vulnLibraries_readable⟩

def oldJquery : Text := "/jquery-1.8.3.js".toList

private theorem oldJquery_facts :
    (identifyLibraries vulnLibraries oldJquery []).map (List.map Finding.cves) =
      some [["CVE-2020-11022".toList, "CVE-2020-11023".toList]] ∧
    ((turns vulnLibraries oldJquery []).any fun turn =>
      turn.2.name = "jQuery".toList ∧ turn.2.search turn.1 = some "1.8.3".toList) = true ∧
    (vulnLibraries.any fun rule =>
      (rule.name = "jQuery".toList ∧ verLte "1.8.3".toList rule.maxVulnerable = some true) ∧
        "CVE-2015-9251".toList ∈ rule.cves) = true := by
  decide +kernel

/-- The second rule for a library is not reported where the first one reaches the version. -/
theorem oldJquery_incomplete : ¬ IsComplete vulnTable.rules oldJquery [] := by
  rintro ⟨findings, returned, complete⟩
  obtain ⟨reported, detected, reaching⟩ := oldJquery_facts
  obtain ⟨turn, isTurn, found⟩ := List.any_eq_true.mp detected
  obtain ⟨rule, isRule, reaches⟩ := List.any_eq_true.mp reaching
  rw [decide_eq_true_eq] at found reaches
  have cves : findings.map Finding.cves = [["CVE-2020-11022".toList, "CVE-2020-11023".toList]] := by
    have same := congrArg (Option.map (List.map Finding.cves)) returned
    rw [vulnTable, reported] at same
    exact (Option.some.inj same).symm
  obtain ⟨finding, isFinding, -, -, isCve⟩ := (complete _ _ ⟨turn, isTurn, found⟩ _).mpr
    ⟨rule, isRule, reaches.1, reaches.2⟩
  have listed := List.mem_map_of_mem (f := Finding.cves) isFinding
  rw [cves, List.mem_singleton] at listed
  rw [listed] at isCve
  exact absurd isCve (by decide +kernel)

end JsScan
end DomainLens
