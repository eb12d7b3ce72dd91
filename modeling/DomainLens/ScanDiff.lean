import DomainLens.Library.OrderedDict
import DomainLens.Python.Value

/-!
# What changed between two scans

Two scans of a domain are compared field by field, and so are their findings.  The file shows that the
comparison of the later scan with the earlier is the mirror image of the other.
-/

namespace DomainLens
namespace ScanDiff

open Python

/-! ## Directions -/

inductive Direction where
  | better
  | worse
  | neutral
deriving DecidableEq

def Direction.flip : Direction → Direction
  | .better => .worse
  | .worse => .better
  | .neutral => .neutral

/-! ## What is read of a section -/

/-- The texts of a list, in their order and with commas between them; anything else raises. -/
def joinSorted (values : List Value) : Option Value :=
  let texts := values.filterMap fun value =>
    match value with
    | .text text => some text
    | _ => none
  if texts.length = values.length then
    let joined := ", ".toList.intercalate (texts.insertionSort (· ≤ ·))
    some ((Value.text joined).or .null)
  else none

/-- What a value is gone through by; numbers raise. -/
def iterate : Value → Option (List Value)
  | .list items => some items
  | .dict entries => some (entries.map fun entry => .text entry.1)
  | .text text => some (text.map fun char => .text [char])
  | _ => none

/-- `_spf_all`. -/
def spfAll (record : Value) : Option Value :=
  match record.or (.text []) with
  | .text record =>
      let text := lower (strip record)
      let qualifiers := [("-all", "-all (hard fail)"), ("~all", "~all (soft fail)"),
        ("?all", "?all (neutral)"), ("+all", "+all (pass — accepts any sender)")]
      some (((qualifiers.find? fun qualifier => decide (qualifier.1.toList <:+: text)).map
        fun qualifier => .text qualifier.2.toList).getD .null)
  | _ => none

/-- The name of who issued a certificate. -/
def issuerName (payload : Items) : Option Value :=
  match (getValue payload "issuer").or (.dict []) with
  | .dict issuer => some ((getValue issuer "organizationName").or (getValue issuer "commonName"))
  | _ => none

/-- The versions of TLS that are accepted. -/
def protocolNames (payload : Items) : Option Value :=
  (iterate ((getValue payload "protocols").or (.list []))).bind fun protocols =>
    joinSorted (protocols.filterMap fun protocol =>
      match protocol with
      | .dict entries =>
          let name := getValue entries "name"
          if (getValue entries "supported").truthy && name.truthy then some name else none
      | _ => none)

/-- The security headers that are missing. -/
def headersMissing (payload : Items) : Option Value :=
  (iterate ((getValue payload "headers_missing").or (.list []))).bind joinSorted

/-! ## Fields -/

/-- A field, what is read of its section, and the directions of its changes; an extractor that raises
gives nothing. -/
structure Field where
  section_ : Text
  key : Text
  label : Text
  extract : Items → Option Value
  mapping : List ((Bool × Bool) × Direction)

def Field.plain (section_ key label : String) (mapping : List ((Bool × Bool) × Direction)) : Field where
  section_ := section_.toList
  key := key.toList
  label := label.toList
  extract payload := some (getValue payload key)
  mapping

/-- A field that is read in its own way, without directions. -/
def Field.made (section_ key label : String) (extract : Items → Option Value) : Field where
  section_ := section_.toList
  key := key.toList
  label := label.toList
  extract
  mapping := []

/-- The directions of what should be there. -/
def wanted : List ((Bool × Bool) × Direction) :=
  [((true, false), .worse), ((false, true), .better)]

/-- The directions of what should not be there. -/
def unwanted : List ((Bool × Bool) × Direction) :=
  [((false, true), .worse), ((true, false), .better)]

/-- `_FIELDS`. -/
def fields : List Field :=
  [.plain "spf" "found" "SPF record present" wanted,
    .made "spf" "all" "SPF all mechanism" fun payload => spfAll (getValue payload "record"),
    .plain "spf" "strict" "SPF strict (hard fail)" wanted,
    .plain "spf" "multiple_records" "SPF has multiple records" unwanted,
    .plain "dmarc" "found" "DMARC record present" wanted,
    .plain "dmarc" "policy" "DMARC policy" [],
    .plain "dkim" "found" "DKIM selector found" wanted,
    .plain "mta_sts" "found" "MTA-STS published" wanted,
    .plain "tlsrpt" "found" "TLS-RPT published" wanted,
    .plain "dnssec" "signed" "DNSSEC signed" wanted,
    .plain "ipv6" "has_ipv6" "IPv6 (AAAA) present" wanted,
    .plain "ipv6" "mail_pass" "IPv6 on mail hosts" wanted,
    .plain "ssl" "not_after" "Certificate expiry date" [],
    .made "ssl" "issuer" "Certificate issuer" issuerName,
    .plain "ssl" "expired" "Certificate expired" unwanted,
    .plain "tls_deep" "grade" "TLS grade" [],
    .made "tls_deep" "protocols" "TLS versions accepted" protocolNames,
    .plain "http_headers" "score" "Security header score" [],
    .made "http_headers" "headers_missing" "Missing security headers" headersMissing,
    .plain "http_headers" "status_code" "HTTP status" [],
    .plain "https_redirect" "pass" "Redirects HTTP to HTTPS" wanted,
    .plain "blacklist" "is_listed" "Listed on a DNS blacklist" unwanted]

/-- `_TLS_GRADES`, worst first. -/
def tlsGrades : List Text := ["T", "F", "E", "D", "C", "B", "A", "A+"].map String.toList

/-- `_DMARC_POLICIES`. -/
def dmarcPolicies : List Text := ["none", "quarantine", "reject"].map String.toList

/-- `_SPF_ORDER`. -/
def spfOrder : List Text :=
  ["+all (pass — accepts any sender)", "?all (neutral)", "~all (soft fail)", "-all (hard fail)"].map
    String.toList

def placeIn (order : List Text) : Value → Option Nat
  | .text text => if text ∈ order then some (order.idxOf text) else none
  | _ => none

/-- The direction of a change from one place to another; without both places it has none. -/
def climb {Place : Type} [LT Place] [DecidableLT Place] : Option Place → Option Place → Direction
  | some before, some after =>
      if before < after then .better else if after < before then .worse else .neutral
  | _, _ => .neutral

/-- `_ordered_direction`. -/
def orderedDirection (order : List Text) (before after : Value) : Direction :=
  climb (placeIn order before) (placeIn order after)

/-- An `int`; a truth value is one. -/
def intOf : Value → Option Int
  | .bool value => some (if value then 1 else 0)
  | .number (.int value) => some value
  | _ => none

def scoreDirection (before after : Value) : Direction := climb (intOf before) (intOf after)

/-- `mapping[(before, after)]`. -/
def mapped (mapping : List ((Bool × Bool) × Direction)) (before after : Value) : Option Direction :=
  (mapping.find? fun entry => before.same (.bool entry.1.1) && after.same (.bool entry.1.2)).map Prod.snd

/-- `_direction`; a pair that cannot be a key raises. -/
def direction (field : Field) (before after : Value) : Option Direction :=
  if !before.isHashable || !after.isHashable then none
  else
    some ((mapped field.mapping before after).getD
      (if field.section_ = "tls_deep".toList ∧ field.key = "grade".toList then
        orderedDirection tlsGrades before after
      else if field.section_ = "dmarc".toList ∧ field.key = "policy".toList then
        orderedDirection dmarcPolicies before after
      else if field.section_ = "spf".toList ∧ field.key = "all".toList then
        orderedDirection spfOrder before after
      else if field.section_ = "http_headers".toList ∧ field.key = "score".toList then
        scoreDirection before after
      else .neutral))

/-! ## Comparing -/

structure Change where
  section_ : Text
  key : Text
  label : Text
  before : Value
  after : Value
  direction : Direction

/-- A field that one of the scans did not measure. -/
structure Unmeasured where
  section_ : Text
  key : Text
  label : Text
  reason : Text
deriving DecidableEq

inductive Said where
  | nothing
  | changed (change : Change)
  | unmeasured (field : Unmeasured)

/-- The section of a scan, where it is a dictionary. -/
def sectionOf (data : Items) (name : Text) : Option Items :=
  match data.lookup name with
  | some (.dict payload) => some payload
  | _ => none

/-- The state of a section: one that does not say is measured. -/
def isMeasured (payload : Items) : Bool :=
  ((payload.lookup "state".toList).getD (.text "measured".toList)).same (.text "measured".toList)

/-- A field that was not measured in the earlier scan, or in the later. -/
def notMeasured (field : Field) (earlier : Bool) : Said :=
  .unmeasured
    { section_ := field.section_
      key := field.key
      label := field.label
      reason := if earlier then "not measured in the earlier scan".toList
        else "not measured in the later scan".toList }

/-- One field of `compare`; `none` is an exception. -/
def compareField (before after : Items) (field : Field) : Option Said :=
  match sectionOf before field.section_, sectionOf after field.section_ with
  | none, none => some .nothing
  | none, some _ => some (notMeasured field true)
  | some _, none => some (notMeasured field false)
  | some earlier, some later =>
      if !isMeasured earlier || !isMeasured later then some (notMeasured field (!isMeasured earlier))
      else
        let old := (field.extract earlier).getD .null
        let new := (field.extract later).getD .null
        if old.same new then some .nothing
        else
          (direction field old new).map fun direction =>
            .changed ⟨field.section_, field.key, field.label, old, new, direction⟩

/-- The loop of `compare`. -/
def compareFields (before after : Items) : List Field → Option (List Said)
  | [] => some []
  | field :: fields =>
      (compareField before after field).bind fun said =>
        (compareFields before after fields).map fun later => said :: later

/-- `summarise`. -/
structure Summary where
  total : Nat
  better : Nat
  worse : Nat
  neutral : Nat

structure Comparison where
  changes : List Change
  unmeasured : List Unmeasured
  changed : Bool
  summary : Summary

def summarise (changes : List Change) : Summary :=
  let count direction := (changes.filter fun change => change.direction = direction).length
  ⟨changes.length, count .better, count .worse, count .neutral⟩

/-- The answer of `compare`, of what is said of the fields. -/
def comparison (said : List Said) : Comparison :=
  let changes := said.filterMap fun said =>
    match said with
    | .changed change => some change
    | _ => none
  { changes
    unmeasured := said.filterMap fun said =>
      match said with
      | .unmeasured field => some field
      | _ => none
    changed := !changes.isEmpty
    summary := summarise changes }

/-- A scan as it is compared: nothing is an empty one, and anything but a dictionary raises. -/
def scanOf (data : Value) : Option Items :=
  match data.or (.dict []) with
  | .dict entries => some entries
  | _ => none

/-- `compare`. -/
def compare (before after : Value) : Option Comparison :=
  (scanOf before).bind fun before =>
    (scanOf after).bind fun after => (compareFields before after fields).map comparison

/-! ## Findings -/

/-- A finding as a change of it is told. -/
structure Told where
  severity : Option Text
  title : Option Text
deriving DecidableEq

structure Finding where
  accepted : Bool
  severity : Option Text
  findingKey : Option Text
  title : Option Text

def Finding.key (finding : Finding) : Option Text :=
  (finding.findingKey.filter fun key => key ≠ []).or finding.title

/-- `_open_findings`. -/
def openFindings (findings : List Finding) : List (Option Text × Told) :=
  (findings.filter fun finding =>
      !finding.accepted && finding.severity ≠ some "info".toList).foldl
    (fun table finding => OrderedDict.assign finding.key ⟨finding.severity, finding.title⟩ table) []

/-- The order in which findings are told. -/
def rank (told : Told) : Nat ×ₗ Text :=
  let order := ["critical", "high", "medium", "low"].map String.toList
  toLex
    (match told.severity with
      | some severity => if severity ∈ order then order.idxOf severity else 9
      | none => 9,
    told.title.getD [])

/-- The findings of one table whose keys are not in another; the order in which the difference of two
sets of keys is gone through is given. -/
def onlyIn (difference : List (Option Text) → List (Option Text) → List (Option Text))
    (here there : List (Option Text × Told)) : List Told :=
  ((difference (here.map Prod.fst) (there.map Prod.fst)).filterMap fun key =>
    here.lookup key).insertionSort fun left right => rank left ≤ rank right

structure FindingChanges where
  new : List Told
  resolved : List Told

/-- `finding_changes`. -/
def findingChanges (difference : List (Option Text) → List (Option Text) → List (Option Text))
    (oldFindings newFindings : List Finding) : FindingChanges :=
  let old := openFindings oldFindings
  let new := openFindings newFindings
  { new := onlyIn difference new old
    resolved := onlyIn difference old new }

/-! ## Mirror images -/

/-- The change from the later scan to the earlier. -/
def Change.mirror (change : Change) : Change :=
  { change with before := change.after, after := change.before, direction := change.direction.flip }

def Unmeasured.field (unmeasured : Unmeasured) : Text × Text × Text :=
  (unmeasured.section_, unmeasured.key, unmeasured.label)

/-- What is said of a field, and what is said of it the other way. -/
inductive Said.Mirrors : Said → Said → Prop where
  | nothing : Mirrors .nothing .nothing
  | changed (change : Change) : Mirrors (.changed change) (.changed change.mirror)
  | unmeasured (left right : Unmeasured) (same : left.field = right.field) :
      Mirrors (.unmeasured left) (.unmeasured right)

/-- Comparisons with the same fields, each change the other way. -/
structure Comparison.Mirrors (one other : Comparison) : Prop where
  changes : other.changes = one.changes.map Change.mirror
  unmeasured : other.unmeasured.map Unmeasured.field = one.unmeasured.map Unmeasured.field

def FindingChanges.mirror (changes : FindingChanges) : FindingChanges where
  new := changes.resolved
  resolved := changes.new

/-! ## Directions the other way -/

theorem climb_mirror {Place : Type} [LinearOrder Place] (before after : Option Place) :
    climb after before = (climb before after).flip := by
  cases before with
  | none => cases after <;> rfl
  | some earlier =>
      cases after with
      | none => rfl
      | some later =>
          rcases lt_trichotomy earlier later with up | same | down
          · simp [climb, up, up.not_gt, Direction.flip]
          · simp [climb, same, Direction.flip]
          · simp [climb, down, down.not_gt, Direction.flip]

theorem mapping_of_mem {field : Field} (member : field ∈ fields) :
    field.mapping = [] ∨ field.mapping = wanted ∨ field.mapping = unwanted := by
  have all : ∀ field ∈ fields,
      field.mapping = [] ∨ field.mapping = wanted ∨ field.mapping = unwanted := by decide
  exact all field member

private theorem mapped_pair_mirror (direction : Direction) (before after : Value) :
    mapped [((true, false), direction), ((false, true), direction.flip)] after before =
      (mapped [((true, false), direction), ((false, true), direction.flip)] before after).map
        Direction.flip := by
  have once := Value.not_same_both before
  have twice := Value.not_same_both after
  simp only [mapped, List.find?_cons, List.find?_nil]
  cases isTrue : before.same (.bool true) <;> cases isFalse : before.same (.bool false) <;>
    cases afterTrue : after.same (.bool true) <;> cases afterFalse : after.same (.bool false) <;>
    simp_all
  cases direction <;> rfl

theorem mapped_mirror {field : Field} (member : field ∈ fields) (before after : Value) :
    mapped field.mapping after before = (mapped field.mapping before after).map Direction.flip := by
  rcases mapping_of_mem member with none | isWanted | isUnwanted
  · rw [none]
    rfl
  · rw [isWanted]
    exact mapped_pair_mirror .worse before after
  · have swapped : ∀ before after, mapped unwanted before after =
        mapped [((true, false), .better), ((false, true), .worse)] before after := by
      intro before after
      have once := Value.not_same_both before
      simp only [mapped, unwanted, List.find?_cons, List.find?_nil]
      cases isTrue : before.same (.bool true) <;> cases isFalse : before.same (.bool false) <;>
        cases afterTrue : after.same (.bool true) <;> cases afterFalse : after.same (.bool false) <;>
        simp_all
    rw [isUnwanted, swapped, swapped]
    exact mapped_pair_mirror .better before after

theorem direction_mirror {field : Field} (member : field ∈ fields) (before after : Value) :
    direction field after before = (direction field before after).map Direction.flip := by
  unfold direction
  rw [Bool.or_comm]
  split
  · rfl
  · rw [mapped_mirror member, Option.map_some, Option.some.injEq]
    cases mapped field.mapping before after with
    | some found => rfl
    | none =>
        simp only [Option.map_none, Option.getD_none]
        split
        · exact climb_mirror (placeIn tlsGrades before) (placeIn tlsGrades after)
        · split
          · exact climb_mirror (placeIn dmarcPolicies before) (placeIn dmarcPolicies after)
          · split
            · exact climb_mirror (placeIn spfOrder before) (placeIn spfOrder after)
            · split
              · exact climb_mirror (intOf before) (intOf after)
              · rfl

/-! ## Comparisons the other way -/

private theorem mirrors_notMeasured (field : Field) (left right : Bool) :
    (notMeasured field left).Mirrors (notMeasured field right) :=
  .unmeasured _ _ rfl

theorem compareField_mirror {field : Field} (member : field ∈ fields) (before after : Items) :
    Option.Rel Said.Mirrors (compareField before after field) (compareField after before field) := by
  unfold compareField
  cases sectionOf before field.section_ with
  | none =>
      cases sectionOf after field.section_ with
      | none => exact .some .nothing
      | some later => exact .some (mirrors_notMeasured field _ _)
  | some earlier =>
      cases sectionOf after field.section_ with
      | none => exact .some (mirrors_notMeasured field _ _)
      | some later =>
          simp only
          rw [Bool.or_comm (!isMeasured later)]
          split
          · exact .some (mirrors_notMeasured field _ _)
          · rw [Value.same_comm ((field.extract later).getD .null)]
            split
            · exact .some .nothing
            · rw [direction_mirror member ((field.extract earlier).getD .null)]
              cases direction field ((field.extract earlier).getD .null)
                  ((field.extract later).getD .null) with
              | none => exact .none
              | some found => exact .some (.changed _)

theorem compareFields_mirror (before after : Items) {among : List Field}
    (known : ∀ field ∈ among, field ∈ fields) :
    Option.Rel (List.Forall₂ Said.Mirrors) (compareFields before after among)
      (compareFields after before among) := by
  induction among with
  | nil => exact .some .nil
  | cons field among induction =>
      have rest := induction fun field member => known field (List.mem_cons_of_mem _ member)
      have here := compareField_mirror (known field List.mem_cons_self) before after
      simp only [compareFields]
      generalize compareField before after field = one at here ⊢
      generalize compareField after before field = other at here ⊢
      generalize compareFields before after among = ones at rest ⊢
      generalize compareFields after before among = others at rest ⊢
      cases here with
      | none => exact .none
      | some mirrors =>
          cases rest with
          | none => exact .none
          | some further => exact .some (.cons mirrors further)

theorem comparison_mirror {one other : List Said} (mirrors : List.Forall₂ Said.Mirrors one other) :
    (comparison one).Mirrors (comparison other) := by
  induction mirrors with
  | nil => exact ⟨rfl, rfl⟩
  | cons first others induction =>
      obtain ⟨changes, unmeasured⟩ := induction
      simp only [comparison] at changes unmeasured
      cases first with
      | nothing => exact ⟨changes, unmeasured⟩
      | changed change => exact ⟨congrArg (change.mirror :: ·) changes, unmeasured⟩
      | unmeasured left right same =>
          refine ⟨changes, ?_⟩
          simp only [comparison, List.filterMap_cons, List.map_cons, unmeasured, same]

/-- The comparison of two scans the other way is its mirror image, and so are the changes of their
findings. -/
theorem compare_mirror (before after : Value)
    (difference : List (Option Text) → List (Option Text) → List (Option Text))
    (earlier later : List Finding) :
    Option.Rel Comparison.Mirrors (compare before after) (compare after before) ∧
      findingChanges difference later earlier = (findingChanges difference earlier later).mirror := by
  refine ⟨?_, rfl⟩
  unfold compare
  cases scanOf before with
  | none => cases scanOf after <;> exact .none
  | some old =>
      cases scanOf after with
      | none => exact .none
      | some new =>
          have mirrors := compareFields_mirror old new fun field member => member
          simp only [Option.bind_some]
          generalize compareFields old new fields = one at mirrors ⊢
          generalize compareFields new old fields = other at mirrors ⊢
          cases mirrors with
          | none => exact .none
          | some said => exact .some (comparison_mirror said)

end ScanDiff
end DomainLens
