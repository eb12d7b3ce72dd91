import DomainLens.DomainPortfolio.Books
import DomainLens.DomainPortfolio.Hostnames
import DomainLens.Management.Summaries
import DomainLens.Python.DateTime

/-!
# The dashboard and what its figures open onto

The dashboard counts over the newest scan of every domain in a period; a figure of it opens onto the
domains behind it.  Some figures count domains and some count what the domains carry.  The file says
which number of the list each figure is.
-/

namespace DomainLens
namespace Management

open Python Run
open DomainPortfolio (Books GroupId getGroup descendants registrable labelsOf)

/-! ## Stored scans -/

/-- A row of `scans`; what the scan found is kept under its key. -/
structure Scan where
  id : Int
  domain : Text
  createdAt : Text

def Scan.key (scan : Scan) : ScanKey := ⟨scan.id, scan.createdAt⟩

/-- The scans, the units and their domains. -/
structure Stored where
  scans : List Scan
  books : Books
  keyed : (scans.map Scan.id).Nodup

/-- `get_scan`. -/
def Stored.getScan (stored : Stored) (id : Int) : Option Scan :=
  stored.scans.find? fun scan => scan.id = id

/-- A request fails with a text, or an exception stops it. -/
inductive Failure where
  | refused (reason : Text)
  | raised
deriving DecidableEq

/-- `_in_scope`. -/
def inScope (domain : Text) : Option (List Text) → Bool
  | none => true
  | some wanted =>
      let parts := labelsOf domain
      (List.range (parts.length - 1)).any fun count => DomainPortfolio.nameOf (parts.drop count) ∈ wanted

/-- The domains a unit and the units below it hold, and the path of the unit. -/
def scope (stored : Stored) : Option GroupId → Except Failure (Option (List Text) × Option Text)
  | none => .ok (none, none)
  | some id =>
      match getGroup stored.books.people stored.books.portfolio.groups id with
      | none => .error (.refused "Unknown unit".toList)
      | some group =>
          let below := descendants stored.books.people stored.books.portfolio.groups group.id
          let held := stored.books.portfolio.domains.filter fun row =>
            row.groupId.any fun unit => unit ∈ below
          .ok (some (held.map DomainPortfolio.Domain.domain), stored.books.paths.lookup group.id)

/-- The scan with the greatest id, of those gone through and the next. -/
def laterOf (held : Option Scan) (scan : Scan) : Option Scan :=
  if held.any fun best => scan.id < best.id then held else some scan

def newest (scans : List Scan) (domain : Text) : Option Scan :=
  (scans.filter fun scan => scan.domain = domain).foldl laterOf none

/-- `_latest_scans`. -/
def latestScans (stored : Stored) (upTo : Text) (wanted : Option (List Text))
    (since : Option Text) : List (Text × ScanKey) :=
  let scans := stored.scans.filter fun scan =>
    scan.createdAt ≤ upTo ∧ ∀ earliest ∈ since, earliest ≤ scan.createdAt
  let latest := (fromKeys (scans.map Scan.domain)).filterMap fun domain =>
    (newest scans domain).map fun scan => (domain, scan.key)
  latest.filter fun entry => inScope entry.1 wanted

/-- Entries in the order of their domains. -/
def byDomain (entries : List (Text × ScanKey)) : List (Text × ScanKey) :=
  entries.insertionSort fun left right => left.1 ≤ right.1

/-! ## Names of ratings and controls -/

/-- `RATINGS`, best first. -/
def ratings : List Rating := [.aPlus, .a, .aMinus, .b, .c, .d, .f]

def Rating.text : Rating → Text
  | .aPlus => "A+".toList
  | .a => "A".toList
  | .aMinus => "A-".toList
  | .b => "B".toList
  | .c => "C".toList
  | .d => "D".toList
  | .f => "F".toList

/-- `band`. -/
def band (letter : Rating) : Text := letter.text.take 1

/-- `BANDS`. -/
def bands : List Text := ["A", "B", "C", "D", "F"].map String.toList

def State.text : State → Text
  | .pass => "pass".toList
  | .fail => "fail".toList
  | .unmeasured => "unmeasured".toList
  | .notApplicable => "not_applicable".toList

/-- The keys of `CONTROLS` with their labels. -/
def controlLabels : List (Text × Text) :=
  [("dmarc", "DMARC blocks spoofed mail (quarantine or reject)"), ("spf", "SPF is strict (-all)"),
    ("dnssec", "DNSSEC signed"), ("tls", "TLS rated A or B"), ("hsts", "HSTS enabled"),
    ("https", "HTTP redirects to HTTPS"), ("reputation", "Not on a reputation blocklist")].map
    fun control => (control.1.toList, control.2.toList)

/-! ## Summaries of many scans -/

section Pages

variable (advice : Advice) (data : ScanKey → Entries) (world : World advice) (stored : Stored)

/-- The second loop of `_load`. -/
def makeMissing : List ScanKey → Cache → Option (List (ScanKey × Summary) × Cache)
  | [], cache => some ([], cache)
  | key :: keys, cache =>
      match stored.getScan key.id with
      | none => makeMissing keys cache
      | some scan =>
          (summarizeScan advice world.active world.moment key (data scan.key) cache).bind fun made =>
            (makeMissing keys made.2).map fun later => ((key, made.1) :: later.1, later.2)

/-- `_load`; `none` is an exception. -/
def load (keys : List ScanKey) (cache : Cache) : Option (List (ScanKey × Summary) × Cache) :=
  let held := keys.filterMap fun key =>
    (cache.lookup (.scan key)).map fun cached => (key, cached.summary)
  let missing := keys.filter fun key => (cache.lookup (.scan key)).isNone
  (makeMissing advice data world stored missing cache).map fun made => (held ++ made.1, made.2)

/-! ## Periods -/

def clampDays (days : Int) : Nat := (max 7 (min days 365)).toNat

def daysBefore (date : Day) : Nat → Option Day
  | 0 => some date
  | days + 1 => date.previous.bind fun earlier => daysBefore earlier days

/-- `now - timedelta(days=days)`; `none` is the `OverflowError`. -/
def startOf (now : DateTime) (days : Nat) : Option DateTime :=
  (daysBefore now.date days).map fun date => { now with date }

/-! ## Assessed domains -/

/-- A domain of the period with the summary of its newest scan, and its rating before the period. -/
structure Assessed where
  domain : Text
  key : ScanKey
  summary : Summary
  previousRating : Option Rating

/-- The domains of a period, and those that were not scanned again in it. -/
structure Assessment where
  group : Option Text
  domains : List Assessed
  stale : List Text

/-- The entries of `current` that have a summary. -/
def assessedOf (current before : List (Text × ScanKey)) (summaries : List (ScanKey × Summary)) :
    List Assessed :=
  (byDomain current).filterMap fun entry =>
    (summaries.lookup entry.2).map fun summary =>
      { domain := entry.1
        key := entry.2
        summary
        previousRating :=
          ((before.lookup entry.1).bind fun key => summaries.lookup key).map Summary.rating }

/-- The first half of `dashboard`. -/
def assess (days : Int) (groupId : Option GroupId) (now : DateTime) (cache : Cache) :
    Except Failure (Assessment × Cache) :=
  match startOf now (clampDays days) with
  | none => .error .raised
  | some start =>
      match scope stored groupId with
      | .error failure => .error failure
      | .ok (wanted, group) =>
          let current := latestScans stored now.isoformat wanted (some start.isoformat)
          let before := latestScans stored start.isoformat wanted none
          let stale := (before.map Prod.fst).filter fun domain => domain ∉ current.map Prod.fst
          let keys := fromKeys (current.map Prod.snd ++
            current.filterMap fun entry => before.lookup entry.1)
          match load advice data world stored keys cache with
          | none => .error .raised
          | some (summaries, after) =>
              .ok (⟨group, assessedOf current before summaries, stale.insertionSort (· ≤ ·)⟩, after)

end Pages

/-! ## The figures -/

/-- `round(100 * part / whole)`, a half to the even number. -/
def percent (part whole : Nat) : Option Nat :=
  if whole = 0 then none
  else
    let quotient := 100 * part / whole
    let rest := 2 * (100 * part % whole)
    some (if rest < whole ∨ (rest = whole ∧ quotient % 2 = 0) then quotient else quotient + 1)

/-- How a control stands over all domains. -/
structure ControlFigures where
  key : Text
  label : Text
  count : State → Nat
  passRate : Option Nat

/-- A finding that many domains have. -/
structure TopFinding where
  severity : Text
  title : Text
  domains : Nat
  examples : List Text

structure Kpis where
  domains : Nat
  inOrder : Nat
  inOrderPct : Option Nat
  critical : Nat
  high : Nat
  accepted : Nat
  improved : Nat
  worsened : Nat
  compared : Nat
  notRescanned : Nat

/-- The answer of `dashboard`, its trend and the registrations left out. -/
structure Dashboard where
  generatedAt : Text
  days : Nat
  group : Option Text
  kpis : Kpis
  ratings : List (Text × Nat)
  totals : List (Text × Nat)
  controls : List ControlFigures
  byCategory : List (Text × (Text → Nat))
  topFindings : List TopFinding
  attention : List Assessed
  improved : List Assessed
  worsened : List Assessed
  notRescanned : List Text

section Figures

variable (domains : List Assessed)

def bandCount (name : Text) : Nat :=
  (domains.filter fun assessed => band assessed.summary.rating = name).length

def total (severity : Text) : Nat :=
  (domains.map fun assessed => assessed.summary.counts severity).sum

def controlFigures (control : Text × Text) : ControlFigures :=
  let count state := (domains.filter fun assessed =>
    assessed.summary.controls.lookup control.1 = some state).length
  { key := control.1
    label := control.2
    count
    passRate := percent (count .pass) (count .pass + count .fail) }

/-- `by_category`: one more finding of its category and severity. -/
def tally (table : List (Text × (Text → Nat))) (finding : Listed) : List (Text × (Text → Nat)) :=
  let counts := (table.lookup finding.category).getD fun _ => 0
  OrderedDict.assign finding.category
    (Function.update counts finding.severity (counts finding.severity + 1)) table

/-- `by_category` of all findings. -/
def categories : List (Text × (Text → Nat)) :=
  (domains.flatMap fun assessed => assessed.summary.findings).foldl tally []

def mention (domain : Text) (table : List ((Text × Text) × List Text)) (key : Text × Text) :
    List ((Text × Text) × List Text) :=
  OrderedDict.assign key ((table.lookup key).getD [] ++ [domain]) table

/-- The severities and titles of the findings of a summary, each once. -/
def mentioned (summary : Summary) : List (Text × Text) :=
  fromKeys (summary.findings.map fun finding => (finding.severity, finding.title))

/-- `common`: which domains have a finding. -/
def common : List ((Text × Text) × List Text) :=
  domains.foldl (fun table assessed =>
    (mentioned assessed.summary).foldl (mention assessed.domain) table) []

def severityPlace (severity : Text) : Nat := severities.idxOf severity

/-- The weight by which categories are ordered. -/
def weight (counts : Text → Nat) : Nat :=
  (severities.map fun severity => counts severity * (4 - severityPlace severity)).sum

/-- The findings of medium severity or worse. -/
def topFindings : List TopFinding :=
  let graver := (common domains).filter fun entry =>
    entry.1.1 ∈ ["critical", "high", "medium"].map String.toList
  let findings := graver.map fun entry =>
    { severity := entry.1.1
      title := entry.1.2
      domains := entry.2.length
      examples := entry.2.take 5 : TopFinding }
  let place (finding : TopFinding) : Nat ×ₗ Int ×ₗ Text :=
    toLex (severityPlace finding.severity, toLex (-(finding.domains : Int), finding.title))
  (findings.insertionSort fun left right => place left ≤ place right).take 10

/-- `rank` of the dashboard: the best rating has the highest. -/
def rank (letter : Rating) : Nat := ratings.reverse.idxOf letter

/-- The domains whose rating asks for attention, the worst first. -/
def attention : List Assessed :=
  let place (assessed : Assessed) : Nat ×ₗ Int ×ₗ Int ×ₗ Text :=
    toLex (rank assessed.summary.rating,
      toLex (-(assessed.summary.counts "critical".toList : Int),
        toLex (-(assessed.summary.counts "high".toList : Int), assessed.domain)))
  let poor := domains.filter fun assessed => assessed.summary.rating ∈ [Rating.f, .d, .c]
  (poor.insertionSort fun left right => place left ≤ place right).take 10

/-- The domains that have a rating from before the period. -/
def compared : List Assessed := domains.filter fun assessed => assessed.previousRating.isSome

def improved : List Assessed :=
  (compared domains).filter fun assessed =>
    assessed.previousRating.any fun previous => rank previous < rank assessed.summary.rating

def worsened : List Assessed :=
  (compared domains).filter fun assessed =>
    assessed.previousRating.any fun previous => rank assessed.summary.rating < rank previous

/-- `ratings["A"] + ratings["B"]`. -/
def inOrder : Nat := bandCount domains "A".toList + bandCount domains "B".toList

/-- The second half of `dashboard`. -/
def figures (now : DateTime) (days : Int) (assessment : Assessment) : Dashboard :=
  let domains := assessment.domains
  { generatedAt := now.isoformat
    days := clampDays days
    group := assessment.group
    kpis :=
      { domains := domains.length
        inOrder := inOrder domains
        inOrderPct := percent (inOrder domains) domains.length
        critical := total domains "critical".toList
        high := total domains "high".toList
        accepted := (domains.map fun assessed => assessed.summary.accepted).sum
        improved := (improved domains).length
        worsened := (worsened domains).length
        compared := (compared domains).length
        notRescanned := assessment.stale.length }
    ratings := bands.map fun name => (name, bandCount domains name)
    totals := severities.map fun severity => (severity, total domains severity)
    controls := controlLabels.map (controlFigures domains)
    byCategory := (categories domains).insertionSort fun left right => weight right.2 ≤ weight left.2
    topFindings := topFindings domains
    attention := attention domains
    improved := (improved domains).take 10
    worsened := (worsened domains).take 10
    notRescanned := assessment.stale.take 20 }

end Figures

/-! ## The lists behind the figures -/

/-- `DRILL_KINDS`. -/
inductive Kind where
  | finding
  | category
  | control
  | rating
  | severity
  | domains
  | accepted
deriving DecidableEq

def Kind.text : Kind → Text
  | .finding => "finding".toList
  | .category => "category".toList
  | .control => "control".toList
  | .rating => "rating".toList
  | .severity => "severity".toList
  | .domains => "domains".toList
  | .accepted => "accepted".toList

def drillKinds : List Kind :=
  [.finding, .category, .control, .rating, .severity, .domains, .accepted]

def Kind.ofText (text : Text) : Option Kind := drillKinds.find? fun kind => kind.text = text

/-- The arguments of `drill` that say which figure. -/
structure Query where
  kind : Text
  value : Option Text
  severity : Option Text
  state : Option Text

/-- What a row shows of the figure: findings, or the state of a control. -/
structure Picked where
  findings : Option (List Listed)
  state : Option State

/-- A row of a list, with the unit of its domain. -/
structure Row where
  domain : Text
  key : ScanKey
  summary : Summary
  unit : Option Text
  picked : Picked

/-- An optional text that narrows a list; an empty one does not. -/
def narrows (given : Option Text) (text : Text) : Bool := given.all fun wish => wish = [] ∨ wish = text

/-- What a kind of list shows of a summary; `none` leaves the domain out. -/
def pick (kind : Kind) (query : Query) (summary : Summary) : Option Picked :=
  match kind with
  | .finding =>
      let hits := summary.findings.filter fun finding =>
        some finding.title = query.value && narrows query.severity finding.severity
      if hits = [] then none else some ⟨some (hits.take 1), none⟩
  | .category =>
      let hits := summary.findings.filter fun finding => some finding.category = query.value
      if hits = [] then none
      else
        some ⟨some (hits.insertionSort fun left right =>
          severityPlace left.severity ≤ severityPlace right.severity), none⟩
  | .control =>
      let state := (query.value.bind fun key => summary.controls.lookup key).getD .unmeasured
      if narrows query.state state.text then some ⟨none, some state⟩ else none
  | .rating =>
      if band summary.rating ∈ (query.value.getD []).splitOn ',' then some ⟨none, none⟩ else none
  | .severity =>
      match query.value with
      | none => none
      | some severity =>
          if severity ∉ severities ∨ summary.counts severity = 0 then none
          else some ⟨some (summary.findings.filter fun finding => finding.severity = severity), none⟩
  | .domains => some ⟨none, none⟩
  | .accepted => if summary.accepted = 0 then none else some ⟨none, none⟩

/-- `unit_of`. -/
def unitOf (stored : Stored) (host : Text) : Option Text :=
  ((stored.books.find (registrable host)).bind DomainPortfolio.Domain.groupId).bind fun unit =>
    stored.books.paths.lookup unit

/-- The order of a list by control: what is missing first. -/
def statePlace (row : Row) : Nat :=
  match row.picked.state with
  | none => 9
  | some state => [State.fail, .unmeasured, .pass, .notApplicable].idxOf state

def sortRows (kind : Kind) (rows : List Row) : List Row :=
  match kind with
  | .control =>
      let place (row : Row) : Nat ×ₗ Text := toLex (statePlace row, row.domain)
      rows.insertionSort fun left right => place left ≤ place right
  | _ =>
      let place (row : Row) : Int ×ₗ Int ×ₗ Int ×ₗ Text :=
        toLex (-(ratings.idxOf row.summary.rating : Int),
          toLex (-(row.summary.counts "critical".toList : Int),
            toLex (-(row.summary.counts "high".toList : Int), row.domain)))
      rows.insertionSort fun left right => place left ≤ place right

/-- The answer of `drill`. -/
structure Listing where
  kind : Kind
  query : Query
  label : Option Text
  days : Nat
  group : Option Text
  total : Nat
  domains : List Row
  states : Option (State → Nat)

/-- The list of a query over the newest scans. -/
def listing (kind : Kind) (query : Query) (days : Int) (group : Option Text) (rows : List Row) :
    Listing where
  kind
  query
  label := if kind = .control then query.value.bind fun key => controlLabels.lookup key else none
  days := clampDays days
  group
  total := rows.length
  domains := rows
  states :=
    if kind = .control then
      some fun state => (rows.filter fun row => row.picked.state = some state).length
    else none

section Pages

variable (advice : Advice) (data : ScanKey → Entries) (world : World advice) (stored : Stored)

/-- `dashboard`. -/
def dashboard (days : Int) (groupId : Option GroupId) (now : DateTime) (cache : Cache) :
    Except Failure (Dashboard × Cache) :=
  (assess advice data world stored days groupId now cache).map fun answer =>
    (figures now days answer.1, answer.2)

/-- `drill`. -/
def drill (query : Query) (days : Int) (groupId : Option GroupId) (now : DateTime) (cache : Cache) :
    Except Failure (Listing × Cache) :=
  match Kind.ofText query.kind with
  | none => .error (.refused "Unknown kind".toList)
  | some kind =>
      match startOf now (clampDays days) with
      | none => .error .raised
      | some start =>
          match scope stored groupId with
          | .error failure => .error failure
          | .ok (wanted, group) =>
              let current := latestScans stored now.isoformat wanted (some start.isoformat)
              match load advice data world stored (fromKeys (current.map Prod.snd)) cache with
              | none => .error .raised
              | some (summaries, after) =>
                  let rows := (byDomain current).filterMap fun entry =>
                    (summaries.lookup entry.2).bind fun summary =>
                      (pick kind query summary).map fun picked =>
                        { domain := entry.1
                          key := entry.2
                          summary
                          unit := unitOf stored entry.1
                          picked : Row }
                  .ok (listing kind query days group (sortRows kind rows), after)

end Pages

end Management
end DomainLens
