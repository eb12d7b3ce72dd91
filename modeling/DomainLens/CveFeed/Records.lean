import DomainLens.Python.Text

/-!
# CVE records of the NVD

What the feed reads of a record: the version ranges its configuration gives for a product, its
score, and the row that is kept of it.
-/

namespace DomainLens
namespace CveFeed

open Python

/-! ## Records -/

/-- A `cpeMatch` of a node.  Missing texts and empty ones are told apart as in the JSON. -/
structure CpeMatch where
  vulnerable : Bool
  criteria : Text
  versionStartIncluding : Option Text
  versionStartExcluding : Option Text
  versionEndIncluding : Option Text
  versionEndExcluding : Option Text
deriving DecidableEq

structure Node where
  operator : Option Text
  negate : Bool
  cpeMatch : List CpeMatch
deriving DecidableEq

structure Configuration where
  operator : Option Text
  nodes : List Node
deriving DecidableEq

structure Metric where
  kind : Text
  baseScore : Option Rat
  dataSeverity : Option Text
  severity : Option Text
deriving DecidableEq

structure Metrics where
  v31 : List Metric
  v40 : List Metric
  v30 : List Metric
  v2 : List Metric
deriving DecidableEq

structure Description where
  lang : Text
  value : Option Text
deriving DecidableEq

/-- A CVE record.  Its last change is an instant in microseconds. -/
structure Cve where
  id : Text
  published : Option Text
  lastModified : Int
  vulnStatus : Text
  metrics : Metrics
  cisaExploitAdd : Option Text
  descriptions : List Description
  configurations : List Configuration
deriving DecidableEq

/-- The status of a record that was withdrawn. -/
def rejected : Text := "Rejected".toList

/-- `left or right` on texts that may be missing. -/
def orElse (left right : Option Text) : Option Text :=
  if left.getD [] = [] then right else left

/-! ## Scores -/

def severityOf (score : Rat) : Text :=
  if 9 ≤ score then "critical".toList
  else if 7 ≤ score then "high".toList
  else if 4 ≤ score then "medium".toList
  else "low".toList

/-- The score of one kind of metric: of its first primary entry, or of its first. -/
def scoreOf (entries : List Metric) : Option (Rat × Text) :=
  let primary := entries.filter fun entry => entry.kind = "Primary".toList
  let chosen := if primary = [] then entries else primary
  chosen.head?.bind fun entry =>
    entry.baseScore.map fun score =>
      let named := lower ((orElse entry.dataSeverity entry.severity).getD [])
      (score, if named = [] then severityOf score else named)

/-- The first CVSS score a record has: 3.1, 4.0, 3.0, then 2. -/
def score (metrics : Metrics) : Option (Rat × Text) :=
  [metrics.v31, metrics.v40, metrics.v30, metrics.v2].findSome? scoreOf

/-! ## Ranges -/

/-- A version range, or an exact version, of a followed product. -/
structure Range where
  exact : Option Text
  start : Option Text
  startIncl : Bool
  stop : Option Text
  stopIncl : Bool
  conditional : Bool
deriving DecidableEq

/-- Vendor and product of `vendor:product`. -/
def vendorProduct (cpe : Text) : Text × Text :=
  (cpe.takeWhile (· ≠ ':'), (cpe.dropWhile (· ≠ ':')).drop 1)

/-- The parts of a match are those of a product. -/
def partsName (cpe : Text) (parts : List Text) : Bool :=
  parts[3]? == some (vendorProduct cpe).1 && parts[4]? == some (vendorProduct cpe).2

/-- The range of one match, if it is a vulnerable one of the product with a version. -/
def rangeOf (cpe : Text) (conditional : Bool) (cpeMatch : CpeMatch) : Option Range :=
  if !cpeMatch.vulnerable then none
  else
    let parts := cpeMatch.criteria.splitOn ':'
    if parts.length < 7 ∨ ¬ partsName cpe parts then none
    else
      let version := parts.getD 5 []
      let update := parts.getD 6 []
      -- "-" is "no version applies", an update field a pre-release
      if version = ['-'] ∨ (update ≠ ['*'] ∧ update ≠ ['-']) then none
      else
        some
          { exact := if version = ['*'] then none else some version
            start := orElse cpeMatch.versionStartIncluding cpeMatch.versionStartExcluding
            startIncl := cpeMatch.versionStartIncluding.getD [] ≠ []
            stop := orElse cpeMatch.versionEndIncluding cpeMatch.versionEndExcluding
            stopIncl := cpeMatch.versionEndIncluding.getD [] ≠ []
            conditional }

/-- The ranges of one configuration, which needs its nodes together or names a single one. -/
def configurationRanges (cpe : Text) (configuration : Configuration) : List Range :=
  let together := configuration.operator == some "AND".toList || 1 < configuration.nodes.length
  configuration.nodes.flatMap fun node =>
    let conditional := together || node.operator == some "AND".toList || node.negate
    node.cpeMatch.filterMap (rangeOf cpe conditional)

/-- The ranges a record gives for a product, each once. -/
def rangesFor (cve : Cve) (cpe : Text) : List Range :=
  fromKeys (cve.configurations.flatMap (configurationRanges cpe))

/-- The configuration of a record names a product. -/
def names (cpe : Text) (cve : Cve) : Bool :=
  cve.configurations.any fun configuration =>
    configuration.nodes.any fun node =>
      node.cpeMatch.any fun cpeMatch => partsName cpe (cpeMatch.criteria.splitOn ':')

private theorem partsName_of_rangeOf {cpe : Text} {conditional : Bool} {cpeMatch : CpeMatch}
    {range : Range} (found : rangeOf cpe conditional cpeMatch = some range) :
    partsName cpe (cpeMatch.criteria.splitOn ':') = true := by
  unfold rangeOf at found
  split at found
  · cases found
  · dsimp only at found
    split at found
    · cases found
    · rename_i complete
      simpa using (not_or.mp complete).2

theorem rangesFor_of_not_names {cpe : Text} {cve : Cve} (unnamed : names cpe cve = false) :
    rangesFor cve cpe = [] := by
  rw [List.eq_nil_iff_forall_not_mem]
  intro range member
  rw [rangesFor, mem_fromKeys, List.mem_flatMap] at member
  obtain ⟨configuration, isConfiguration, member⟩ := member
  obtain ⟨node, isNode, member⟩ := List.mem_flatMap.mp member
  obtain ⟨cpeMatch, isMatch, found⟩ := List.mem_filterMap.mp member
  have named : names cpe cve = true := by
    simp only [names, List.any_eq_true]
    exact ⟨configuration, isConfiguration, node, isNode, cpeMatch, isMatch,
      partsName_of_rangeOf found⟩
  rw [unnamed] at named
  cases named

/-! ## Rows -/

structure Item where
  cveId : Text
  published : Option Text
  lastModified : Int
  status : Text
  score : Option Rat
  severity : Option Text
  kevAdded : Option Text
  summary : Text
deriving DecidableEq

/-- The row of a record, with the first 500 characters of its English description. -/
def item (cve : Cve) : Item where
  cveId := cve.id
  published := cve.published
  lastModified := cve.lastModified
  status := cve.vulnStatus
  score := (score cve.metrics).map Prod.fst
  severity := (score cve.metrics).map Prod.snd
  kevAdded := cve.cisaExploitAdd
  summary := (((cve.descriptions.find? fun description =>
    description.lang = "en".toList).bind Description.value).getD []).take 500

end CveFeed
end DomainLens
