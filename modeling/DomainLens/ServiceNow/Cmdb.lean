import DomainLens.Library.Run
import DomainLens.Library.Table
import DomainLens.Python.Text

/-!
# Pushing findings to the CMDB

A finding is pushed by looking up its configuration item, a definition of its vulnerability and the
vulnerable item of the two, each by queries that may fail, and updating or creating the item.  The file
embeds the push over tables whose queries select rows by equality.
-/

namespace DomainLens
namespace ServiceNow

open Python Run

/-! ## Tables -/

/-- A row of a table, with its fields in the order they are looked up in. -/
structure Row where
  sysId : Text
  named : sysId ≠ []
  fields : List (Text × Text)
deriving DecidableEq

/-- A field of a row; one that is not set is empty. -/
def Row.get (row : Row) (field : Text) : Text :=
  if field = "sys_id".toList then row.sysId else (row.fields.lookup field).getD []

/-- A field and the text it has to be equal to. -/
abbrev Clause := Text × Text

def Clause.holds (clause : Clause) (row : Row) : Bool := row.get clause.1 == clause.2

structure Tables where
  cis : List Row
  definitions : Table Row.sysId
  items : Table Row.sysId

/-- How ServiceNow names new rows: by an id that no row of the table has. -/
structure Server where
  newId : List Row → Text
  fresh : ∀ rows : List Row, newId rows ∉ rows.map Row.sysId
  named : ∀ rows, newId rows ≠ []

theorem Server.newId_ne_nil (server : Server) (table : Table Row.sysId) :
    server.newId table.rows ≠ [] :=
  server.named table.rows

/-- `sn_post`. -/
def Server.post (server : Server) (table : Table Row.sysId) (payload : List (Text × Text)) :
    Table Row.sysId :=
  table.put ⟨server.newId table.rows, server.newId_ne_nil table, payload⟩

/-- `sn_patch`. -/
def patch (table : Table Row.sysId) (sysId : Text) (payload : List (Text × Text)) :
    Table Row.sysId :=
  table.update sysId (fun row => { row with fields := payload ++ row.fields }) fun _ => rfl

/-! ## Findings, settings and failures -/

/-- A finding; a text it does not have is empty.  `id` and `domain` are read for the links only. -/
structure Finding where
  id : Text
  domain : Text
  title : Text
  severity : Text
  cves : List Text
  vulnId : Text
  hostname : Text
  assetIp : Text
  solution : Text
  description : Text
  cvss : Option Text
deriving DecidableEq

/-- `cmdb_config`. -/
structure Config where
  configured : Bool
  cmdbEnabled : Bool
  createVulnerableItems : Bool
  updateExistingVi : Bool
  ciMatchFields : List Text
  viSource : Text
  urlField : Option Text

/-- `finding_link_block`. -/
structure Links where
  text : Text
  domainlensUrl : Option Text
  domainUrl : Option Text

/-- What comes of a request that writes: it may fail with its effect, or without. -/
inductive Fate where
  | done
  | refused (problem : Text)
  | unanswered (problem : Text)
deriving DecidableEq

/-- Which of the requests for a finding fail. -/
structure Faults where
  ci : Bool
  definition : Nat → Bool
  newDefinition : Fate
  item : Bool
  write : Fate

def Faults.none : Faults := ⟨false, fun _ => false, .done, false, .done⟩

variable (server : Server) (links : Finding → Links) (config : Config)

/-! ## Configuration items and definitions -/

/-- The clauses of `lookup_ci`, any of which is enough. -/
def ciClauses (hostname ip : Text) : List Clause :=
  let hostname := (lower (strip hostname)).rdropWhile (· = '.')
  let ip := strip ip
  let short := hostname.takeWhile (· ≠ '.')
  (if hostname = [] then []
    else ((config.ciMatchFields.map strip).filter fun field =>
        field ≠ [] ∧ field ≠ "ip_address".toList).flatMap fun field =>
      (field, hostname) :: if short ≠ [] ∧ short ≠ hostname then [(field, short)] else []) ++
    if ip = [] then [] else [("ip_address".toList, ip)]

/-- `lookup_ci`. -/
def lookupCi (cis : List Row) (finding : Finding) (faults : Faults) : Option Row :=
  let clauses := ciClauses config finding.hostname finding.assetIp
  if !config.configured || clauses = [] || faults.ci then none
  else cis.find? fun row => clauses.any fun clause => clause.holds row

/-- The queries of `find_or_create_vulnerability_def`, the most exact one first. -/
def definitionQueries (finding : Finding) : List Clause :=
  (match finding.cves with
    | [] => []
    | cve :: _ => [("id".toList, cve), ("cve".toList, cve)]) ++
  if finding.vulnId = [] then []
  else [("source_id".toList, finding.vulnId), ("id".toList, finding.vulnId)]

inductive Search where
  | failed
  | missing
  | found (row : Row)

/-- The loop over the queries; the first one that fails ends it. -/
def searchDefinitions (definitions : List Row) (fails : Nat → Bool) : Nat → List Clause → Search
  | _, [] => .missing
  | position, query :: queries =>
      if fails position then .failed
      else
        match definitions.find? fun row => query.holds row with
        | some row => .found row
        | none => searchDefinitions definitions fails (position + 1) queries

/-- The definition that is created for a finding. -/
def definitionPayload (finding : Finding) : List (Text × Text) :=
  (match finding.cves with
    | cve :: _ => [("id".toList, cve), ("cve".toList, cve)]
    | [] =>
        if finding.vulnId = [] then []
        else [("id".toList, finding.vulnId), ("source_id".toList, finding.vulnId)]) ++
  [("short_description".toList,
      (if finding.title = [] then "Imported vulnerability".toList else finding.title).take 160),
    ("source".toList, if config.viSource = [] then "DomainLens".toList else config.viSource)] ++
  match finding.cvss with
  | some score => [("cvss_score".toList, score)]
  | none => []

/-- `find_or_create_vulnerability_def`: the `sys_id` of the definition, and the definitions after it. -/
def findOrCreateDefinition (definitions : Table Row.sysId) (finding : Finding) (faults : Faults) :
    Option Text × Table Row.sysId :=
  if !config.configured then (none, definitions)
  else
    match searchDefinitions definitions.rows faults.definition 0 (definitionQueries finding) with
    | .failed => (none, definitions)
    | .found row => (some row.sysId, definitions)
    | .missing =>
        if !config.createVulnerableItems then (none, definitions)
        else
          let created := server.post definitions (definitionPayload config finding)
          match faults.newDefinition with
          | .done => (some (server.newId definitions.rows), created)
          | .refused _ => (none, definitions)
          | .unanswered _ => (none, created)

/-! ## Vulnerable items -/

/-- The clauses of `find_vulnerable_item`, all of which have to hold. -/
def itemClauses (ciSysId : Text) (definition : Option Text) (finding : Finding) : List Clause :=
  ("cmdb_ci".toList, ciSysId) ::
    match definition.filter (· ≠ []) with
    | some sysId => [("vulnerability".toList, sysId)]
    | none => if finding.vulnId = [] then [] else [("source_id".toList, finding.vulnId)]

/-- `find_vulnerable_item`. -/
def findItem (items : List Row) (ciSysId : Text) (definition : Option Text) (finding : Finding)
    (faults : Faults) : Option Row :=
  if faults.item then none
  else items.find? fun row =>
    (itemClauses ciSysId definition finding).all fun clause => clause.holds row

/-- `_SEVERITY_TO_RISK`. -/
def riskOf (severity : Text) : Text :=
  let severity := if severity = [] then "info".toList else severity
  if severity = "critical".toList then "100".toList
  else if severity = "high".toList then "80".toList
  else if severity = "medium".toList then "50".toList
  else if severity = "low".toList then "20".toList
  else "5".toList

/-- A text of the finding, cut to a length, before the links. -/
def withLinks (text : Text) (length : Nat) (links : Text) : Text :=
  ((if text = [] then links else text.take length ++ "\n\n".toList ++ links)).take 4000

/-- `short_description`. -/
def shortDescription (finding : Finding) : Text :=
  let short := if finding.title = [] then "Vulnerability".toList else finding.title
  (if finding.cves = [] then short
    else short ++ " (".toList ++ ", ".toList.intercalate (finding.cves.take 2) ++ [')']).take 160

/-- The custom field for the deep link, which is written last. -/
def urlEntry (links : Links) : List (Text × Text) :=
  match config.urlField.filter (· ≠ []) with
  | none => []
  | some field =>
      match (links.domainlensUrl.filter (· ≠ [])).or (links.domainUrl.filter (· ≠ [])) with
      | some url => [(field, url)]
      | none => []

/-- The payload of `upsert_vulnerable_item`.  Of two entries for a field the first one counts. -/
def itemPayload (ciSysId : Text) (definition : Option Text) (finding : Finding) :
    List (Text × Text) :=
  urlEntry config (links finding) ++
  [("cmdb_ci".toList, ciSysId), ("short_description".toList, shortDescription finding),
    ("source".toList,
      if config.viSource = [] then "DomainLens InsightVM".toList else config.viSource),
    ("ip_address".toList, finding.assetIp), ("dns_name".toList, finding.hostname),
    ("risk_score".toList, riskOf finding.severity),
    ("remediation".toList, withLinks finding.solution 3500 (links finding).text),
    ("description".toList, withLinks finding.description 3000 (links finding).text),
    ("work_notes".toList, (links finding).text)] ++
  (match definition.filter (· ≠ []) with
    | some sysId => [("vulnerability".toList, sysId)]
    | none => []) ++
  if finding.vulnId = [] then [] else [("source_id".toList, finding.vulnId)]

inductive Action where
  | unmatchedCi
  | skippedExisting
  | updated
  | created
  | ciMatchedOnly
deriving DecidableEq

/-- The result of `link_finding_to_cmdb`. -/
structure Result where
  ok : Bool
  action : Option Action
  item : Option Text
  number : Option Text
  error : Option Text
  ci : Option Row
  definition : Option Text

/-- The result of a write, unless it failed. -/
def written (fate : Fate) (result : Result) : Result :=
  match fate with
  | .done => result
  | .refused problem | .unanswered problem =>
      { result with ok := false, action := none, item := none, number := none
                    error := some (problem.take 400) }

def Fate.leaves (fate : Fate) (before after : Table Row.sysId) : Table Row.sysId :=
  match fate with
  | .done | .unanswered _ => after
  | .refused _ => before

/-- `upsert_vulnerable_item`, for an item that was found or none. -/
def upsertItem (items : Table Row.sysId) (ci : Row) (definition : Option Text) (finding : Finding)
    (existing : Option Row) (fate : Fate) : Result × Table Row.sysId :=
  let payload := itemPayload links config ci.sysId definition finding
  let result : Result := ⟨true, none, none, none, none, some ci, definition⟩
  match existing.filter (·.sysId ≠ []) with
  | some row =>
      if !config.updateExistingVi then
        ({ result with
            action := some .skippedExisting
            item := some row.sysId
            number := some (row.get "number".toList) }, items)
      else
        (written fate
          { result with
            action := some .updated
            item := some row.sysId
            number := some (row.get "number".toList) },
          fate.leaves items (patch items row.sysId payload))
  | none =>
      if !config.createVulnerableItems then
        ({ result with action := some .ciMatchedOnly }, items)
      else
        (written fate
          { result with action := some .created, item := some (server.newId items.rows) },
          fate.leaves items (server.post items payload))

/-- `link_finding_to_cmdb`. -/
def link (tables : Tables) (finding : Finding) (faults : Faults) : Result × Tables :=
  match lookupCi config tables.cis finding faults with
  | none => (⟨false, some .unmatchedCi, none, none, none, none, none⟩, tables)
  | some ci =>
      let defined :=
        if config.createVulnerableItems then
          findOrCreateDefinition server config tables.definitions finding faults
        else (none, tables.definitions)
      let tables := { tables with definitions := defined.2 }
      if !config.configured then
        (⟨false, none, none, none, some "ServiceNow not configured".toList, some ci, defined.1⟩,
          tables)
      else if !config.cmdbEnabled then
        (⟨false, none, none, none, some "CMDB bridge disabled in settings".toList, some ci,
          defined.1⟩, tables)
      else if ci.sysId = [] then
        (⟨false, none, none, none, some "No CI matched".toList, some ci, defined.1⟩, tables)
      else
        let upserted := upsertItem server links config tables.items ci defined.1 finding
          (findItem tables.items.rows ci.sysId defined.1 finding faults) faults.write
        (upserted.1, { tables with items := upserted.2 })

/-! ## The push -/

structure Stats where
  processed : Nat
  created : Nat
  updated : Nat
  ciMatchedOnly : Nat
  unmatchedCi : Nat
  errors : Nat
  skippedExisting : Nat
deriving DecidableEq

def Stats.start : Stats := ⟨0, 0, 0, 0, 0, 0, 0⟩

def Stats.count (stats : Stats) (result : Result) : Stats :=
  let stats := { stats with processed := stats.processed + 1 }
  match result.action with
  | some .created => { stats with created := stats.created + 1 }
  | some .updated => { stats with updated := stats.updated + 1 }
  | some .ciMatchedOnly => { stats with ciMatchedOnly := stats.ciMatchedOnly + 1 }
  | some .unmatchedCi => { stats with unmatchedCi := stats.unmatchedCi + 1 }
  | some .skippedExisting => { stats with skippedExisting := stats.skippedExisting + 1 }
  | none => if result.ok then stats else { stats with errors := stats.errors + 1 }

structure Sample where
  hostname : Text
  title : Text
  action : Option Action
  ci : Option Text
  number : Option Text
  error : Option Text

def sampleOf (finding : Finding) (result : Result) : Sample where
  hostname := finding.hostname
  title := finding.title.take 80
  action := result.action
  ci := result.ci.map fun ci => ci.get "name".toList
  number := result.number
  error := result.error

/-- The tables in the middle of a push, with what it will return.  `linked` has the findings so far and
their results. -/
structure World where
  tables : Tables
  stats : Stats
  samples : List Sample
  linked : List (Finding × Result)

def World.start (tables : Tables) : World := ⟨tables, .start, [], []⟩

abbrev Request := Finding × Faults

/-- The body of the loop of `push_findings_to_cmdb`. -/
def linkNext (world : World) (request : Request) : World :=
  let result := link server links config world.tables request.1 request.2
  { tables := result.2
    stats := world.stats.count result.1
    samples :=
      if world.samples.length < 20 then world.samples ++ [sampleOf request.1 result.1]
      else world.samples
    linked := world.linked ++ [(request.1, result.1)] }

def step (world : World) (request : Request) : Option World :=
  some (linkNext server links config world request)

def pushed (limit : Option Nat) (requests : List Request) : List Request :=
  if config.configured && config.cmdbEnabled then
    requests.take ((limit.filter (· ≠ 0)).getD requests.length)
  else []

/-- `push_findings_to_cmdb`: the tables after it with what it returns, unless it is switched off. -/
def push (tables : Tables) (limit : Option Nat) (requests : List Request) : Except Text World :=
  if !config.configured then .error "ServiceNow not configured".toList
  else if !config.cmdbEnabled then .error "servicenow.cmdb_enabled is false".toList
  else .ok ((pushed config limit requests).foldl (linkNext server links config) (.start tables))

end ServiceNow
end DomainLens
