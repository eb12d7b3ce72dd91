import DomainLens.InsightVm
import DomainLens.Library.OrderedDict
import DomainLens.VulnImports

/-!
# Importing an export file

The rows of a CSV or XLSX export are read by the columns they seem to have, made into findings, filtered by
their severity and stored.  The file settles when every row that counts is stored as one finding.
-/

namespace DomainLens
namespace Rapid7Import

open Python InsightVm

/-! ## Columns -/

inductive Column where
  | assetIp
  | hostname
  | title
  | severity
  | cvss
  | cves
  | solution
  | description
  | port
  | protocol
  | vulnId
  | resultCode
  | exploit
deriving DecidableEq

/-- `_COLUMN_ALIASES`, with the names of the fields. -/
def columnAliases : List (Column × String × List String) :=
  [(.assetIp, "asset_ip",
      ["ip address", "asset ip address", "asset ip", "ip", "host ip", "asset_ip_address", "ip_address",
        "ipv4 address", "ipv4"]),
    (.hostname, "hostname",
      ["host name", "hostname", "asset names", "asset name", "dns name", "fqdn", "host_name",
        "asset_names", "asset_name", "dns_name", "name", "asset", "host"]),
    (.title, "title",
      ["vulnerability title", "title", "vulnerability_title", "vuln title", "vulnerability name",
        "vulnerability_name", "check name", "check_name"]),
    (.severity, "severity",
      ["vulnerability severity level", "severity", "severity level", "vulnerability_severity",
        "severity_level", "risk", "risk score", "vulnerability severity", "severity_score"]),
    (.cvss, "cvss",
      ["vulnerability cvss score", "cvss", "cvss score", "cvss_score", "vulnerability_cvss_score",
        "cvss v3", "cvssv3", "cvss3", "cvss_v3_score", "base score"]),
    (.cves, "cves",
      ["vulnerability cve ids", "cve", "cves", "cve ids", "cve_ids", "vulnerability_cves",
        "vulnerability_cve_ids", "cve id"]),
    (.solution, "solution",
      ["vulnerability solution", "solution", "remediation", "fix", "vulnerability_solution",
        "remediation steps", "solution summary"]),
    (.description, "description",
      ["vulnerability description", "description", "vulnerability_description", "synopsis", "proof",
        "vulnerability proof"]),
    (.port, "port", ["service port", "port", "port number", "service_port", "port_number"]),
    (.protocol, "protocol", ["service protocol", "protocol", "service_protocol", "proto"]),
    (.vulnId, "vuln_id",
      ["vulnerability id", "vuln id", "vulnerability_id", "nexpose id", "nexpose_id",
        "vulnerability check id", "check id", "plugin id"]),
    (.resultCode, "result_code",
      ["vulnerability result code", "result code", "result_code", "vulnerability_result_code"]),
    (.exploit, "exploit",
      ["exploit", "exploits", "exploit count", "exploit_count", "malware kit", "malware_kits"])]

/-- `_norm_header`. -/
def normHeader (header : Text) : Text :=
  joinWords (((lower (strip header)).splitOnP fun char =>
    !(char.isLower || char.isDigit)).filter (· ≠ []))

/-- The last of the headers that is read as an alias. -/
def headerAs (headers : List Text) (name : String) : Option Text :=
  headers.reverse.find? fun header => normHeader header = normHeader name.toList

/-- `_build_header_map`: the header of a column. -/
def headerOf (headers : List Text) (column : Column) : Option Text :=
  ((columnAliases.find? fun entry => entry.1 = column).map fun entry => entry.2.2).bind fun aliases =>
    aliases.findSome? (headerAs headers)

/-- The names of the columns that were found with their headers. -/
def headerMap (headers : List Text) : List (Text × Text) :=
  columnAliases.filterMap fun entry => (headerOf headers entry.1).map fun header =>
    (entry.2.1.toList, header)

/-! ## Rows -/

/-- A row as a dictionary from headers to cells; what stands behind the last header of a CSV file is under no
    header. -/
structure Row where
  cells : List (Text × Option Text)
  extra : Option (List Text)
deriving DecidableEq

/-- A row of `csv.DictReader`: the headers without a cell are assigned last. -/
def csvRow (header record : List Text) : Row where
  cells :=
    (header.zip (record.map some) ++ (header.drop record.length).map fun name => (name, none)).foldl
      (fun dict (entry : Text × Option Text) => OrderedDict.assign entry.1 entry.2 dict) []
  extra := if header.length < record.length then some (record.drop header.length) else none

/-- A row of a sheet, header by header. -/
def xlsxRow (header : List Text) (record : List (Option Text)) : Row where
  cells :=
    header.zipIdx.foldl
      (fun dict (entry : Text × ℕ) => OrderedDict.assign entry.1 (record.getD entry.2 none) dict) []
  extra := none

/-- What a reader makes of a file: the first row and the others, where a sheet has the texts of its cells. -/
inductive File where
  | csv (header : List Text) (records : List (List Text))
  | xlsx (header : List (Option Text)) (records : List (List (Option Text)))

/-- `_rows_from_csv` and `_rows_from_xlsx`. -/
def File.rows : File → List Row
  | .csv header records => (records.filter (· ≠ [])).map (csvRow header)
  | .xlsx header records =>
      let names := header.zipIdx.map fun entry =>
        (entry.1.map strip).getD ("col_".toList ++ strOf entry.2)
      (records.filter fun record => record.any (·.any fun cell => strip cell ≠ [])).map (xlsxRow names)

def File.format : File → Text
  | .csv .. => "csv".toList
  | .xlsx .. => "xlsx".toList

/-- `_cell`. -/
def cell (headers : List Text) (row : Row) (column : Column) : Text :=
  match headerOf headers column with
  | none => []
  | some header => if header = [] then [] else (((row.cells.lookup header).getD none).map strip).getD []

/-! ## Findings -/

inductive Problem where
  | overflow
  | attribute
deriving DecidableEq

structure Finding where
  assetIp : Option Text
  hostname : Option Text
  domain : Option Text
  title : Text
  severity : Severity
  cvss : Option Number
  cves : List Text
  solution : Option Text
  description : Option Text
  port : Option ℕ
  protocol : Option Text
  vulnId : Option Text
  resultCode : Option Text
  exploit : Option Text
  raw : List (Option Text × Option Text)

def pointed (text : Text) : Text := text.map fun char => if char = ',' then '.' else char

/-- `_parse_cves`. -/
def parseCves (raw : Text) : List Text :=
  let parts := (strip raw).splitOnP fun char => isSpace char || char ∈ [',', ';', '|', '/']
  let isCve (part : Text) : Bool :=
    "CVE-".toList.isPrefixOf part && ((part.drop 4).take 4).length = 4 &&
      ((part.drop 4).take 4).all isDecimal && (part.drop 8).head? = some '-' &&
      4 ≤ (part.drop 9).length && (part.drop 9).all isDecimal
  (fromKeys ((parts.map fun part => upper (strip part)).filter (dollar isCve))).insertionSort (· ≤ ·)

/-- `^\d{1,3}(\.\d{1,3}){3}$`. -/
def isQuad (host : Text) : Bool :=
  let parts := host.splitOn '.'
  parts.length = 4 && parts.all fun part => 1 ≤ part.length && part.length ≤ 3 && part.all isDecimal

/-- `extract_domain`. -/
def extractDomain (hostname : Text) : Option Text :=
  let host := lower (strip hostname)
  let host := if ',' ∈ host then strip (host.takeWhile (· ≠ ',')) else host
  let host := host.rdropWhile (· = '.')
  if host = [] ∨ dollar isQuad host then none
  else
    let host := if ' ' ∈ host then (split host).headD [] else host
    let host := host.dropWhile (· ∈ ['*', '.'])
    if host = [] ∨ '.' ∉ host then none else some host

def orNone (text : Text) : Option Text := if text = [] then none else some text

section Import

/-! `float` of a text, and `str` of a list of texts. -/
variable (float : ReadFloat) (strOfList : List Text → Text)

/-- `_parse_cvss`; what `float` returns is never an `int`. -/
def parseCvss (raw : Text) : Option Number :=
  if raw = [] then none
  else (float (strip (pointed raw))).map fun number =>
    match number with
    | .int value => .float value
    | other => other

/-- `_parse_port`: an infinite number is none for `int`, and not a `ValueError`. -/
def parsePort (raw : Text) : Except Problem (Option ℕ) :=
  if raw = [] then .ok none
  else
    match float (strip raw) with
    | none | some .nan => .ok none
    | some (.infinite _) => .error .overflow
    | some (.int value) => .ok (if 0 < value ∧ value ≤ 65535 then some value.toNat else none)
    | some (.float value) =>
        let port := value.num.tdiv value.den
        .ok (if 0 < port ∧ port ≤ 65535 then some port.toNat else none)

/-- `normalize_severity`. -/
def severityOf (raw : Text) (cvss : Option Number) : Severity :=
  let text := lower (strip raw)
  match severityMap.lookup text, float (pointed text), cvss with
  | some severity, _, _ => severity
  | none, some score, _ => severityFromCvss score
  | none, none, some score => severityFromCvss score
  | none, none, none => .info

/-- A row with a title, a host name or an address. -/
def isNamed (headers : List Text) (row : Row) : Bool :=
  cell headers row .title ≠ [] || cell headers row .hostname ≠ [] || cell headers row .assetIp ≠ []

def titleOf (headers : List Text) (row : Row) : Text :=
  if cell headers row .title = [] then "Untitled vulnerability".toList else cell headers row .title

def rowSeverity (headers : List Text) (row : Row) : Severity :=
  severityOf float (cell headers row .severity) (parseCvss float (cell headers row .cvss))

/-- `row_to_finding`. -/
def rowToFinding (headers : List Text) (row : Row) : Except Problem (Option Finding) :=
  if isNamed headers row then
    (parsePort float (cell headers row .port)).map fun port => some
      { assetIp := orNone (cell headers row .assetIp)
        hostname := orNone (cell headers row .hostname)
        domain := extractDomain (cell headers row .hostname)
        title := titleOf headers row
        severity := rowSeverity float headers row
        cvss := parseCvss float (cell headers row .cvss)
        cves := parseCves (cell headers row .cves)
        solution := orNone (cell headers row .solution)
        description := orNone (cell headers row .description)
        port
        protocol := orNone (cell headers row .protocol)
        vulnId := orNone (cell headers row .vulnId)
        resultCode := orNone (cell headers row .resultCode)
        exploit := orNone (cell headers row .exploit)
        raw := row.cells.map (fun entry => (some entry.1, entry.2)) ++
          row.extra.toList.map fun extra => (none, some (strOfList extra)) }
  else .ok none

/-! ## The import -/

/-- What the settings say of an import. -/
structure Config where
  fileMinSeverity : Text
  minSeverity : Text
  includeDescription : Bool
  includeProof : Bool
  includeSolution : Bool
  maxRows : ℤ

/-- `int(cfg.get("max_rows") or 50000)`. -/
def Config.most (config : Config) : ℤ := if config.maxRows = 0 then 50000 else config.maxRows

/-- `rank.get(min_sev, 1)`. -/
def Config.floor (config : Config) : ℕ :=
  let name :=
    if config.fileMinSeverity ≠ [] then config.fileMinSeverity
    else if config.minSeverity ≠ [] then config.minSeverity
    else "high".toList
  ((rankNames.lookup name).map Severity.rank).getD 1

/-- `xs[:stop]`. -/
def upTo {α : Type} (stop : ℤ) (values : List α) : List α :=
  if 0 ≤ stop then values.take stop.toNat else values.take (values.length - stop.natAbs)

def rowsRead (config : Config) (rows : List Row) : List Row :=
  if config.most < rows.length then upTo config.most rows else rows

def headersOf (rows : List Row) : List Text := ((rows.head?.map Row.cells).getD []).map Prod.fst

/-- The findings of `parse_export`. -/
def parseRows (headers : List Text) (rows : List Row) : Except Problem (List Finding) :=
  (rows.mapM (rowToFinding float strOfList headers)).map fun findings => findings.filterMap id

/-- The keys of a row that are left out with the proof. -/
def proofKeys : List Text :=
  ["proof", "vulnerability proof", "details", "scan_data"].map String.toList

/-- A finding without what the settings leave out. -/
def leanFinding (config : Config) (finding : Finding) : Except Problem Finding :=
  if config.includeProof = false ∧ none ∈ finding.raw.map Prod.fst then .error .attribute
  else .ok
    { finding with
      description := if config.includeDescription then finding.description else none
      raw :=
        if config.includeProof then finding.raw
        else finding.raw.filter fun entry => entry.1.all fun key => lower key ∉ proofKeys
      solution := if config.includeSolution then finding.solution.map (List.take 2000) else none }

/-- `lean_filter_findings`, with the number of those kept so far. -/
def leanFilter (config : Config) : ℕ → List Finding → Except Problem (List Finding)
  | _, [] => .ok []
  | kept, finding :: findings =>
      if config.floor < finding.severity.rank then leanFilter config kept findings
      else (leanFinding config finding).bind fun item =>
        if config.most ≤ kept + 1 then .ok [item]
        else (leanFilter config (kept + 1) findings).map (item :: ·)

def severityName : Severity → Text
  | .critical => "critical".toList
  | .high => "high".toList
  | .medium => "medium".toList
  | .low => "low".toList
  | .info => "info".toList

def textOrNull (text : Option Text) : Value := (text.map Value.text).getD .null

/-- A finding as `save_vuln_import` takes it; `json` writes a key that is `None` as `null`. -/
def Finding.items (finding : Finding) : Items :=
  [("asset_ip".toList, textOrNull finding.assetIp), ("hostname".toList, textOrNull finding.hostname),
    ("domain".toList, textOrNull finding.domain), ("title".toList, .text finding.title),
    ("severity".toList, .text (severityName finding.severity)),
    ("cvss".toList, (finding.cvss.map Value.number).getD .null),
    ("cves".toList, .list (finding.cves.map Value.text)),
    ("solution".toList, textOrNull finding.solution),
    ("description".toList, textOrNull finding.description),
    ("port".toList, (finding.port.map fun (port : ℕ) => Value.number (.int port)).getD .null),
    ("protocol".toList, textOrNull finding.protocol), ("vuln_id".toList, textOrNull finding.vulnId),
    ("result_code".toList, textOrNull finding.resultCode),
    ("exploit".toList, textOrNull finding.exploit),
    ("raw".toList, .dict (finding.raw.map fun entry =>
      (entry.1.getD "null".toList, textOrNull entry.2)))]

/-- The numbers of an import by severity, and those of the assets and of the findings with a CVE. -/
def summaryOf (config : Config) (rowCount : ℕ) (findings : List Finding) : Value :=
  let number (value : ℕ) : Value := .number (.int value)
  let asset (finding : Finding) : Text := finding.hostname.getD [] ++ '|' :: finding.assetIp.getD []
  let severities := fromKeys (findings.map fun finding => severityName finding.severity)
  .dict
    [("by_severity".toList, .dict (severities.map fun name =>
        (name, number (findings.countP fun finding => severityName finding.severity = name)))),
      ("assets".toList, number (fromKeys (findings.map asset)).length),
      ("findings".toList, number findings.length),
      ("with_cve".toList, number (findings.countP fun finding => finding.cves ≠ [])),
      ("lean_filtered".toList, .bool true), ("original_rows".toList, number rowCount),
      ("file_min_severity".toList, .text config.fileMinSeverity)]

/-- `str` of an `int`. -/
def strOfInt (value : ℤ) : Text :=
  if value < 0 then '-' :: strOf value.natAbs else strOf value.natAbs

/-- The warnings of `parse_export` and of the filter. -/
def warningsOf (config : Config) (headers : List Text) (rows : List Row) (findings : List Finding) :
    List Text :=
  let known := [Column.title, .hostname, .assetIp].any fun column => (headerOf headers column).isSome
  let rowCount := (rowsRead config rows).length
  (if rows = [] then ["No data rows found in export.".toList]
    else
      (if known then []
        else [("Could not recognize Rapid7 columns. Expected at least Vulnerability Title " ++
          "or Host Name / IP Address. Check that this is an InsightVM/Nexpose export.").toList]) ++
      if config.most < rows.length then
        ["Truncated import to first ".toList ++ strOfInt config.most ++ " rows (file had ".toList ++
          strOf rows.length ++ ").".toList]
      else []) ++
    if findings.length < rowCount then
      ["Lean filter kept ".toList ++ strOf findings.length ++ " of ".toList ++ strOf rowCount ++
        " rows (severity ≥ ".toList ++ config.fileMinSeverity ++ ", bulky fields stripped).".toList]
    else []

/-- How an import ends that is not finished. -/
inductive Failure where
  | reading (problem : Problem)
  | storing (failure : VulnImports.Failure)

/-- `ingest_file_bytes` with what the reader makes of the file, on a database that takes every statement, up
    to what is sent to ServiceNow, where every failure is caught. -/
def ingest (dumps : Value → Text) (now : Text) (store : VulnImports.Store) (config : Config)
    (file : File) (filename : Text) (importedBy : Option ℕ) :
    VulnImports.Store × Except Failure VulnImports.ImportRow :=
  let rows := file.rows
  let headers := headersOf rows
  match (parseRows float strOfList headers (rowsRead config rows)).bind (leanFilter config 0) with
  | .error problem => (store, .error (.reading problem))
  | .ok findings =>
      let upload : VulnImports.Upload :=
        { filename := some filename
          sourceFormat := file.format
          summary := summaryOf config (rowsRead config rows).length findings
          warnings := .list ((warningsOf config headers rows findings).map Value.text)
          headerMap := .dict ((headerMap headers).map fun entry => (entry.1, .text entry.2))
          rowCount := findings.length
          importedBy }
      let saved := VulnImports.saveVulnImport dumps (fun _ => none) now store upload
        (findings.map Finding.items)
      (saved.1, saved.2.mapError .storing)

/-! ## Every row that counts -/

/-- A row that counts: with a title, a host name or an address, and severe enough. -/
def isWanted (config : Config) (headers : List Text) (row : Row) : Bool :=
  isNamed headers row && (rowSeverity float headers row).rank ≤ config.floor

structure StoredAs (headers : List Text) (importId : ℕ) (row : Row) (finding : VulnImports.FindingRow) :
    Prop where
  importId : finding.importId = importId
  title : finding.columns.title = .text (titleOf headers row)
  hostname : finding.columns.hostname = textOrNull (orNone (cell headers row .hostname))
  assetIp : finding.columns.assetIp = textOrNull (orNone (cell headers row .assetIp))
  severity : finding.columns.severity = .text (severityName (rowSeverity float headers row))

/-- The import succeeds, and stores one finding for each of the first rows that counts, in their order. -/
def Ingests (dumps : Value → Text) (now : Text) (store : VulnImports.Store) (config : Config)
    (file : File) (filename : Text) (importedBy : Option ℕ) : Prop :=
  ∃ after record stored,
    ingest float strOfList dumps now store config file filename importedBy = (after, .ok record) ∧
      after.findings = store.findings ++ stored ∧
      List.Forall₂ (StoredAs float (headersOf file.rows) record.id)
        ((file.rows.take config.most.toNat).filter (isWanted float config (headersOf file.rows))) stored

/-- No row that is read has an infinite port; no row that counts has more cells than the header, unless the
    proof is kept; and the number of rows is not negative, unless none of them counts. -/
structure Plain (config : Config) (file : File) : Prop where
  ports : ∀ row ∈ rowsRead config file.rows, isNamed (headersOf file.rows) row = true →
    cell (headersOf file.rows) row .port ≠ [] → ∀ negative,
      float (strip (cell (headersOf file.rows) row .port)) ≠ some (.infinite negative)
  extras : 0 ≤ config.most → config.includeProof = false → ∀ row ∈ rowsRead config file.rows,
    isWanted float config (headersOf file.rows) row = true → row.extra = none
  room : config.most < 0 → ∀ row ∈ rowsRead config file.rows,
    isWanted float config (headersOf file.rows) row = false

/-! ### Passes that may end early -/

section Pass

variable {float strOfList}

private theorem mapM_cases {α β : Type} (step : α → Except Problem β) (values : List α) :
    (∃ results, values.mapM step = .ok results ∧
      List.Forall₂ (fun value result => step value = .ok result) values results) ∨
      ∃ value ∈ values, ∃ problem, step value = .error problem ∧
        ∃ other, values.mapM step = .error other := by
  induction values with
  | nil => exact .inl ⟨[], rfl, .nil⟩
  | cons value values induction =>
      rw [List.mapM_cons]
      cases first : step value with
      | error problem => exact .inr ⟨value, List.mem_cons_self, problem, first, problem, rfl⟩
      | ok result =>
          rcases induction with ⟨results, rest, pairs⟩ | ⟨other, member, problem, ends, last, rest⟩
          · exact .inl ⟨result :: results, by rw [rest]; rfl, .cons first pairs⟩
          · exact .inr ⟨other, List.mem_cons_of_mem value member, problem, ends, last, by rw [rest]; rfl⟩

theorem parsePort_isOk_iff (raw : Text) : (∃ port, parsePort float raw = .ok port) ↔
    (raw ≠ [] → ∀ negative, float (strip raw) ≠ some (.infinite negative)) := by
  unfold parsePort
  by_cases empty : raw = []
  · rw [if_pos empty]
    exact iff_of_true ⟨none, rfl⟩ fun some => absurd empty some
  · rw [if_neg empty]
    cases read : float (strip raw) with
    | none => exact iff_of_true ⟨none, rfl⟩ fun _ _ same => by cases same
    | some number =>
        cases number with
        | infinite negative =>
            exact iff_of_false (fun ⟨_, same⟩ => by cases same) fun every => every empty negative rfl
        | nan => exact iff_of_true ⟨none, rfl⟩ fun _ _ same => by cases same
        | int value => exact iff_of_true ⟨_, rfl⟩ fun _ _ same => by cases same
        | float value => exact iff_of_true ⟨_, rfl⟩ fun _ _ same => by cases same

/-- What is read of a row that becomes a finding. -/
structure ReadAs (float : ReadFloat) (headers : List Text) (row : Row) (finding : Finding) : Prop where
  title : finding.title = titleOf headers row
  hostname : finding.hostname = orNone (cell headers row .hostname)
  assetIp : finding.assetIp = orNone (cell headers row .assetIp)
  severity : finding.severity = rowSeverity float headers row
  port : ∀ port ∈ finding.port, port ≤ 65535
  cvss : ∀ number ∈ finding.cvss, ∀ value, number ≠ .int value

private theorem parsePort_le {raw : Text} {port : Option ℕ} (read : parsePort float raw = .ok port) :
    ∀ number ∈ port, number ≤ 65535 := by
  have bounded : ∀ value : ℤ,
      ∀ number ∈ (if 0 < value ∧ value ≤ 65535 then some value.toNat else none),
      number ≤ 65535 := by
    intro value number member
    split_ifs at member with bounds
    · obtain rfl := Option.some.inj member
      omega
    · cases member
  unfold parsePort at read
  split_ifs at read
  · obtain rfl := Except.ok.inj read
    exact fun _ member => by cases member
  · split at read
    · obtain rfl := Except.ok.inj read
      exact fun _ member => by cases member
    · obtain rfl := Except.ok.inj read
      exact fun _ member => by cases member
    · cases read
    · obtain rfl := Except.ok.inj read
      exact bounded _
    · obtain rfl := Except.ok.inj read
      exact bounded _

private theorem parseCvss_ne_int {raw : Text} :
    ∀ number ∈ parseCvss float raw, ∀ value, number ≠ .int value := by
  intro number member value
  unfold parseCvss at member
  split_ifs at member
  · cases member
  · obtain ⟨other, -, rfl⟩ := Option.map_eq_some_iff.mp member
    cases other <;> simp

theorem readAs_of_rowToFinding {headers : List Text} {row : Row} {finding : Finding}
    (read : rowToFinding float strOfList headers row = .ok (some finding)) :
    isNamed headers row = true ∧ ReadAs float headers row finding ∧
      (none ∈ finding.raw.map Prod.fst ↔ row.extra ≠ none) := by
  unfold rowToFinding at read
  split_ifs at read with named
  · refine ⟨named, ?_⟩
    cases port : parsePort float (cell headers row .port) with
    | error problem =>
        rw [port] at read
        cases read
    | ok number =>
        rw [port] at read
        obtain rfl := Option.some.inj (Except.ok.inj read)
        refine ⟨⟨rfl, rfl, rfl, rfl, parsePort_le port, parseCvss_ne_int⟩, ?_⟩
        simp [Option.eq_none_iff_forall_ne_some]
  · cases read

private theorem bound_textOrNull (text : Option Text) :
    VulnImports.bound (textOrNull text) = some (textOrNull text) := by
  cases text <;> rfl

theorem columnsOf_items (dumps : Value → Text) {headers : List Text} {row : Row} {finding : Finding}
    (read : ReadAs float headers row finding) : ∃ columns,
      VulnImports.columnsOf dumps finding.items = .ok columns ∧
        columns.title = .text finding.title ∧ columns.hostname = textOrNull finding.hostname ∧
        columns.assetIp = textOrNull finding.assetIp ∧
        columns.severity = .text (severityName finding.severity) := by
  have titled : finding.title ≠ [] := by
    rw [read.title, titleOf]
    split_ifs with none
    · decide
    · exact none
  have title : (Value.text finding.title).or (.text "Untitled".toList) = .text finding.title := by
    simp [Value.or, Value.truthy, titled]
  have severity : (Value.text (severityName finding.severity)).or (.text "info".toList) =
      .text (severityName finding.severity) := by
    cases finding.severity <;> rfl
  obtain ⟨cvss, isCvss⟩ :
      ∃ cvss, VulnImports.bound ((finding.cvss.map Value.number).getD .null) = some cvss := by
    have real := read.cvss
    cases number : finding.cvss with
    | none => exact ⟨_, rfl⟩
    | some number' =>
        cases number' with
        | int value => exact absurd rfl (real _ number value)
        | float value => exact ⟨_, rfl⟩
        | infinite negative => exact ⟨_, rfl⟩
        | nan => exact ⟨_, rfl⟩
  obtain ⟨port, isPort⟩ : ∃ port, VulnImports.bound
      ((finding.port.map fun (port : ℕ) => Value.number (.int port)).getD .null) = some port := by
    have small := read.port
    cases number : finding.port with
    | none => exact ⟨_, rfl⟩
    | some number' =>
        have bounds := small _ number
        refine ⟨.number (.int (number' : ℤ)), ?_⟩
        rw [Option.map_some, Option.getD_some, VulnImports.bound, if_pos ⟨by omega, by omega⟩]
  have getTitle : getValue finding.items "title" = .text finding.title := rfl
  have getSeverity : getValue finding.items "severity" = .text (severityName finding.severity) := rfl
  have getCvss : getValue finding.items "cvss" = (finding.cvss.map Value.number).getD .null := rfl
  have getPort : getValue finding.items "port" =
      (finding.port.map fun (port : ℕ) => Value.number (.int port)).getD .null := rfl
  have getAssetIp : getValue finding.items "asset_ip" = textOrNull finding.assetIp := rfl
  have getHostname : getValue finding.items "hostname" = textOrNull finding.hostname := rfl
  have getDomain : getValue finding.items "domain" = textOrNull finding.domain := rfl
  have getSolution : getValue finding.items "solution" = textOrNull finding.solution := rfl
  have getDescription : getValue finding.items "description" = textOrNull finding.description := rfl
  have getProtocol : getValue finding.items "protocol" = textOrNull finding.protocol := rfl
  have getVulnId : getValue finding.items "vuln_id" = textOrNull finding.vulnId := rfl
  have getResultCode : getValue finding.items "result_code" = textOrNull finding.resultCode := rfl
  have getExploit : getValue finding.items "exploit" = textOrNull finding.exploit := rfl
  unfold VulnImports.columnsOf
  simp only [getTitle, getSeverity, getCvss, getPort, getAssetIp, getHostname, getDomain, getSolution,
    getDescription, getProtocol, getVulnId, getResultCode, getExploit, title, severity, isCvss, isPort,
    bound_textOrNull]
  exact ⟨_, rfl, rfl, rfl, rfl, rfl⟩

/-- What a row becomes, with its cells behind the header. -/
def Becomes (float : ReadFloat) (headers : List Text) (row : Row) (finding : Finding) : Prop :=
  ReadAs float headers row finding ∧ (none ∈ finding.raw.map Prod.fst ↔ row.extra ≠ none)

private theorem becomes_filterMap {headers : List Text} {rows : List Row} {results : List (Option Finding)}
    (pairs : List.Forall₂ (fun row result => rowToFinding float strOfList headers row = .ok result) rows
      results) :
    List.Forall₂ (Becomes float headers) (rows.filter (isNamed headers)) (results.filterMap id) := by
  induction pairs with
  | nil => exact .nil
  | @cons row result rows results read _ induction =>
      cases result with
      | some finding =>
          obtain ⟨named, becomes⟩ := readAs_of_rowToFinding read
          rw [List.filter_cons_of_pos named]
          exact .cons becomes induction
      | none =>
          have unnamed : ¬ isNamed headers row = true := by
            intro named
            rw [rowToFinding, if_pos named] at read
            cases port : parsePort float (cell headers row .port) with
            | error problem =>
                rw [port] at read
                cases read
            | ok number =>
                rw [port] at read
                cases Except.ok.inj read
          rw [List.filter_cons_of_neg unnamed]
          exact induction

theorem parseRows_cases (headers : List Text) (rows : List Row) :
    ((∃ findings, parseRows float strOfList headers rows = .ok findings ∧
        List.Forall₂ (Becomes float headers) (rows.filter (isNamed headers)) findings) ∧
      ∀ row ∈ rows, isNamed headers row = true →
        ∃ port, parsePort float (cell headers row .port) = .ok port) ∨
      (∃ problem, parseRows float strOfList headers rows = .error problem) ∧
        ∃ row ∈ rows, isNamed headers row = true ∧
          ¬ ∃ port, parsePort float (cell headers row .port) = .ok port := by
  rcases mapM_cases (rowToFinding float strOfList headers) rows with
    ⟨results, read, pairs⟩ | ⟨row, member, problem, ends, other, failed⟩
  · refine .inl ⟨⟨results.filterMap id, by rw [parseRows, read]; rfl, becomes_filterMap pairs⟩, ?_⟩
    intro row member named
    have ofRow : ∀ {rows : List Row} {results : List (Option Finding)},
        List.Forall₂ (fun row result => rowToFinding float strOfList headers row = .ok result) rows
          results → row ∈ rows → ∃ result, rowToFinding float strOfList headers row = .ok result := by
      intro rows results pairs
      induction pairs with
      | nil => exact fun member => absurd member List.not_mem_nil
      | cons read _ induction =>
          intro member
          rcases List.mem_cons.mp member with rfl | later
          · exact ⟨_, read⟩
          · exact induction later
    obtain ⟨result, isResult⟩ := ofRow pairs member
    rw [rowToFinding, if_pos named] at isResult
    cases port : parsePort float (cell headers row .port) with
    | ok number => exact ⟨number, rfl⟩
    | error problem =>
        rw [port] at isResult
        cases isResult
  · refine .inr ⟨⟨other, by rw [parseRows, failed]; rfl⟩, row, member, ?_⟩
    unfold rowToFinding at ends
    split_ifs at ends with named
    · refine ⟨named, ?_⟩
      rintro ⟨port, read⟩
      rw [read] at ends
      cases ends

/-- The filter is a pass over the first of the severe findings, of which there is always one. -/
theorem leanFilter_eq (config : Config) (kept : ℕ) (findings : List Finding) :
    leanFilter config kept findings =
      ((findings.filter fun finding => finding.severity.rank ≤ config.floor).take
        (max 1 (config.most - kept).toNat)).mapM (leanFinding config) := by
  induction findings generalizing kept with
  | nil => rw [List.filter_nil, List.take_nil, leanFilter, List.mapM_nil, pure, Applicative.toPure]; rfl
  | cons finding findings induction =>
      rw [leanFilter, List.filter_cons]
      by_cases mild : config.floor < finding.severity.rank
      · rw [if_pos mild, if_neg (by simpa using mild), induction]
      · rw [if_neg mild, if_pos (by simpa using mild)]
        by_cases full : config.most ≤ kept + 1
        · have one : max 1 (config.most - kept).toNat = 0 + 1 := by omega
          rw [one, List.take_succ_cons, List.take_zero, List.mapM_cons, List.mapM_nil]
          simp only [if_pos full]
          rfl
        · have more : max 1 (config.most - kept).toNat =
              max 1 (config.most - (kept + 1 : ℕ)).toNat + 1 := by omega
          rw [more, List.take_succ_cons, List.mapM_cons]
          simp only [if_neg full, induction]
          cases leanFinding config finding with
          | error problem => rfl
          | ok item =>
              change Except.map _ _ = Except.bind _ _
              cases ((findings.filter fun finding => finding.severity.rank ≤ config.floor).take
                (max 1 (config.most - (kept + 1 : ℕ)).toNat)).mapM (leanFinding config) <;> rfl

private theorem leanFinding_cases (config : Config) {headers : List Text} {row : Row} {finding : Finding}
    (becomes : Becomes float headers row finding) :
    (∃ item, leanFinding config finding = .ok item ∧ ReadAs float headers row item ∧
        (config.includeProof = false → row.extra = none)) ∨
      leanFinding config finding = .error .attribute ∧ config.includeProof = false ∧
        row.extra ≠ none := by
  obtain ⟨read, bare⟩ := becomes
  by_cases ends : config.includeProof = false ∧ none ∈ finding.raw.map Prod.fst
  · exact .inr ⟨by rw [leanFinding, if_pos ends], ends.1, bare.mp ends.2⟩
  · rw [leanFinding, if_neg ends]
    refine .inl
      ⟨_, rfl, ⟨read.title, read.hostname, read.assetIp, read.severity, read.port, read.cvss⟩, ?_⟩
    intro hidden
    by_contra more
    exact ends ⟨hidden, bare.mpr more⟩

private theorem leanPass_cases (config : Config) {headers : List Text} {rows : List Row}
    {findings : List Finding} (pairs : List.Forall₂ (Becomes float headers) rows findings) :
    (∃ items, findings.mapM (leanFinding config) = .ok items ∧
        List.Forall₂ (ReadAs float headers) rows items ∧
        ∀ row ∈ rows, config.includeProof = false → row.extra = none) ∨
      (∃ problem, findings.mapM (leanFinding config) = .error problem) ∧
        ∃ row ∈ rows, config.includeProof = false ∧ row.extra ≠ none := by
  induction pairs with
  | nil => exact .inl ⟨[], rfl, .nil, fun row member => absurd member List.not_mem_nil⟩
  | @cons row finding rows findings becomes _ induction =>
      rw [List.mapM_cons]
      rcases leanFinding_cases config becomes with ⟨item, kept, read, plain⟩ | ⟨ends, hidden, more⟩
      · rw [kept]
        rcases induction with ⟨items, all, reads, every⟩ | ⟨⟨problem, fails⟩, other, member, why⟩
        · refine .inl ⟨item :: items, by rw [all]; rfl, .cons read reads, ?_⟩
          exact List.forall_mem_cons.mpr ⟨plain, every⟩
        · exact .inr ⟨⟨problem, by rw [fails]; rfl⟩, other, List.mem_cons_of_mem row member, why⟩
      · exact .inr ⟨⟨.attribute, by rw [ends]; rfl⟩, row, List.mem_cons_self, hidden, more⟩

private theorem storeFindings_items (dumps : Value → Text) (importId : ℕ) {headers : List Text}
    {rows : List Row} {items : List Finding} (pairs : List.Forall₂ (ReadAs float headers) rows items)
    (position lastFinding : ℕ) : ∃ stored,
      VulnImports.storeFindings dumps (fun _ => none) importId position lastFinding
          (items.map Finding.items) = (stored, .ok ()) ∧
        List.Forall₂ (StoredAs float headers importId) rows stored := by
  induction pairs generalizing position lastFinding with
  | nil => exact ⟨[], rfl, .nil⟩
  | @cons row item rows items read _ induction =>
      obtain ⟨columns, made, title, hostname, assetIp, severity⟩ := columnsOf_items dumps read
      obtain ⟨stored, rest, later⟩ := induction (position + 1) (lastFinding + 1)
      refine ⟨⟨lastFinding + 1, importId, columns⟩ :: stored, ?_, .cons ?_ later⟩
      · rw [List.map_cons, VulnImports.storeFindings, made, rest]
      · exact
          { importId := rfl
            title := by rw [title, read.title]
            hostname := by rw [hostname, read.hostname]
            assetIp := by rw [assetIp, read.assetIp]
            severity := by rw [severity, read.severity] }

private theorem saveVulnImport_ok {dumps : Value → Text} {store : VulnImports.Store} {findings : List Items}
    {stored : List VulnImports.FindingRow}
    (done : VulnImports.storeFindings dumps (fun _ => none) (store.lastImport + 1) 1 store.lastFinding
      findings = (stored, .ok ())) (now : Text) (upload : VulnImports.Upload) :
    ∃ after record,
      VulnImports.saveVulnImport dumps (fun _ => none) now store upload findings = (after, .ok record) ∧
        after.findings = store.findings ++ stored ∧ record.id = store.lastImport + 1 := by
  obtain ⟨record, ended, same⟩ : ∃ record, (VulnImports.saveVulnImport dumps (fun _ => none) now store
      upload findings).2 = .ok record ∧ record.id = store.lastImport + 1 := by
    unfold VulnImports.saveVulnImport
    dsimp only
    rw [done]
    exact ⟨_, rfl, rfl⟩
  have rows := congrArg Prod.fst done
  exact ⟨_, record, Prod.ext rfl ended, congrArg (store.findings ++ ·) rows, same⟩

end Pass

/-- The rows that are stored: the first of those read that count, of which there is always one. -/
def rowsStored (config : Config) (file : File) : List Row :=
  ((rowsRead config file.rows).filter (isWanted float config (headersOf file.rows))).take
    (max 1 config.most.toNat)

/-- No row that is read has an infinite port. -/
def PlainPorts (config : Config) (file : File) : Prop :=
  ∀ row ∈ rowsRead config file.rows, isNamed (headersOf file.rows) row = true →
    ∃ port, parsePort float (cell (headersOf file.rows) row .port) = .ok port

/-- An import succeeds exactly if every row is read and every row that is stored has a header for each cell
    or keeps its proof. -/
theorem ingest_cases (dumps : Value → Text) (now : Text) (store : VulnImports.Store) (config : Config)
    (file : File) (filename : Text) (importedBy : Option ℕ) :
    (∃ after record stored,
      ingest float strOfList dumps now store config file filename importedBy = (after, .ok record) ∧
        after.findings = store.findings ++ stored ∧
        List.Forall₂ (StoredAs float (headersOf file.rows) record.id) (rowsStored float config file)
          stored ∧
        PlainPorts float config file ∧
        ∀ row ∈ rowsStored float config file, config.includeProof = false → row.extra = none) ∨
      (∃ problem, ingest float strOfList dumps now store config file filename importedBy =
        (store, .error (.reading problem))) ∧
        ¬ (PlainPorts float config file ∧
          ∀ row ∈ rowsStored float config file, config.includeProof = false → row.extra = none) := by
  rcases @parseRows_cases float strOfList (headersOf file.rows) (rowsRead config file.rows) with
    ⟨⟨findings, read, pairs⟩, ports⟩ | ⟨⟨problem, fails⟩, row, member, named, infinite⟩
  · have severe := List.rel_filter (p := fun row =>
        decide ((rowSeverity float (headersOf file.rows) row).rank ≤ config.floor))
      (q := fun finding : Finding => decide (finding.severity.rank ≤ config.floor))
      (fun row finding becomes => by simp only [becomes.1.severity]) pairs
    have counted : (fun row => decide ((rowSeverity float (headersOf file.rows) row).rank ≤ config.floor) &&
        isNamed (headersOf file.rows) row) = isWanted float config (headersOf file.rows) := by
      funext row
      exact Bool.and_comm _ _
    rw [List.filter_filter, counted] at severe
    have first := List.forall₂_take (max 1 config.most.toNat) severe
    have kept := leanFilter_eq config 0 findings
    rw [Nat.cast_zero, sub_zero] at kept
    rcases leanPass_cases config first with
      ⟨items, all, reads, every⟩ | ⟨⟨problem, fails⟩, row, member, why⟩
    · have made : (parseRows float strOfList (headersOf file.rows) (rowsRead config file.rows)).bind
          (leanFilter config 0) = .ok items := by
        rw [read]
        exact kept.trans all
      obtain ⟨stored, done, pairs⟩ :=
        storeFindings_items dumps (store.lastImport + 1) reads 1 store.lastFinding
      rw [ingest]
      simp only [made]
      obtain ⟨after, record, saved, rows, same⟩ := saveVulnImport_ok done now
        { filename := some filename
          sourceFormat := file.format
          summary := summaryOf config (rowsRead config file.rows).length items
          warnings := .list ((warningsOf config (headersOf file.rows) file.rows items).map Value.text)
          headerMap := .dict ((headerMap (headersOf file.rows)).map fun entry => (entry.1, .text entry.2))
          rowCount := items.length
          importedBy }
      rw [saved]
      exact .inl ⟨after, record, stored, rfl, rows, by rw [same]; exact pairs, ports, every⟩
    · refine .inr ⟨⟨problem, ?_⟩, fun plain => why.2 (plain.2 row member why.1)⟩
      have made : (parseRows float strOfList (headersOf file.rows) (rowsRead config file.rows)).bind
          (leanFilter config 0) = .error problem := by
        rw [read]
        exact kept.trans fails
      rw [ingest, made]
  · refine .inr ⟨⟨problem, ?_⟩, fun plain => infinite (plain.1 row member named)⟩
    rw [ingest, fails]
    rfl

private theorem most_ne_zero (config : Config) : config.most ≠ 0 := by
  unfold Config.most
  split_ifs with zero
  · decide
  · exact zero

private theorem rowsRead_eq (config : Config) (rows : List Row) (room : 0 ≤ config.most) :
    rowsRead config rows = rows.take config.most.toNat := by
  unfold rowsRead
  split_ifs with long
  · rw [upTo, if_pos room]
  · exact (List.take_of_length_le (by omega)).symm

private theorem rowsStored_eq (config : Config) (file : File) (room : 0 ≤ config.most) :
    rowsStored float config file =
      (file.rows.take config.most.toNat).filter (isWanted float config (headersOf file.rows)) := by
  have positive := most_ne_zero config
  have most : max 1 config.most.toNat = config.most.toNat := by omega
  rw [rowsStored, most, rowsRead_eq config file.rows room]
  exact List.take_of_length_le ((List.length_filter_le _ _).trans (List.length_take_le _ _))

private theorem plainPorts_iff (config : Config) (file : File) : PlainPorts float config file ↔
    ∀ row ∈ rowsRead config file.rows, isNamed (headersOf file.rows) row = true →
      cell (headersOf file.rows) row .port ≠ [] → ∀ negative,
        float (strip (cell (headersOf file.rows) row .port)) ≠ some (.infinite negative) :=
  forall_congr' fun _ => imp_congr_right fun _ => imp_congr_right fun _ => parsePort_isOk_iff _

/-- An import stores each row that counts exactly if no port is infinite, no row that counts has more cells
    than the header or its proof is kept, and rows are asked for or none of them counts. -/
theorem ingests_iff (dumps : Value → Text) (now : Text) (store : VulnImports.Store) (config : Config)
    (file : File) (filename : Text) (importedBy : Option ℕ) :
    Ingests float strOfList dumps now store config file filename importedBy ↔ Plain float config file := by
  have cases := ingest_cases float strOfList dumps now store config file filename importedBy
  by_cases room : 0 ≤ config.most
  · rw [rowsStored_eq float config file room] at cases
    have stored : ∀ row, row ∈ (file.rows.take config.most.toNat).filter
        (isWanted float config (headersOf file.rows)) ↔ row ∈ rowsRead config file.rows ∧
          isWanted float config (headersOf file.rows) row = true := by
      intro row
      rw [rowsRead_eq config file.rows room, List.mem_filter]
    constructor
    · rintro ⟨after, record, rows, done, -⟩
      rcases cases with ⟨_, _, _, _, _, _, ports, plain⟩ | ⟨⟨problem, failed⟩, -⟩
      · exact
          { ports := (plainPorts_iff float config file).mp ports
            extras := fun _ hidden row member wanted =>
              plain row ((stored row).mpr ⟨member, wanted⟩) hidden
            room := fun negative => absurd room (not_le.mpr negative) }
      · rw [failed] at done
        cases congrArg Prod.snd done
    · intro plain
      rcases cases with ⟨after, record, rows, done, kept, pairs, -, -⟩ | ⟨-, broken⟩
      · exact ⟨after, record, rows, done, kept, pairs⟩
      · refine absurd ⟨(plainPorts_iff float config file).mpr plain.ports, ?_⟩ broken
        intro row member hidden
        obtain ⟨read, wanted⟩ := (stored row).mp member
        exact plain.extras room hidden row read wanted
  · have negative : config.most < 0 := not_le.mp room
    have one : max 1 config.most.toNat = 1 := by omega
    have none : (file.rows.take config.most.toNat).filter
        (isWanted float config (headersOf file.rows)) = [] := by
      rw [Int.toNat_of_nonpos negative.le, List.take_zero, List.filter_nil]
    rw [Ingests, none]
    rw [rowsStored, one] at cases
    constructor
    · rintro ⟨after, record, rows, done, kept, pairs⟩
      rcases cases with
        ⟨after', record', rows', done', kept', pairs', ports, -⟩ | ⟨⟨problem, failed⟩, -⟩
      · obtain ⟨rfl, -⟩ := Prod.ext_iff.mp (done.symm.trans done')
        rw [List.forall₂_nil_left_iff.mp pairs] at kept
        rw [← List.append_cancel_left (kept.symm.trans kept')] at pairs'
        have unwanted : (rowsRead config file.rows).filter
            (isWanted float config (headersOf file.rows)) = [] :=
          (List.take_eq_nil_iff.mp (List.forall₂_nil_right_iff.mp pairs')).resolve_left one_ne_zero
        exact
          { ports := (plainPorts_iff float config file).mp ports
            extras := fun positive => absurd positive room
            room := fun _ row member =>
              Bool.eq_false_iff.mpr (List.filter_eq_nil_iff.mp unwanted row member) }
      · rw [failed] at done
        cases congrArg Prod.snd done
    · intro plain
      have unwanted : (rowsRead config file.rows).filter (isWanted float config (headersOf file.rows)) = [] :=
        List.filter_eq_nil_iff.mpr fun row member => Bool.eq_false_iff.mp (plain.room negative row member)
      rw [unwanted, List.take_nil] at cases
      rcases cases with ⟨after, record, rows, done, kept, pairs, -, -⟩ | ⟨-, broken⟩
      · exact ⟨after, record, rows, done, kept, pairs⟩
      · exact absurd ⟨(plainPorts_iff float config file).mpr plain.ports,
          fun row member => absurd member List.not_mem_nil⟩ broken

end Import

/-! ## One cell too many -/

/-- Findings from low up, without their proof. -/
def lowUp : Config where
  fileMinSeverity := "low".toList
  minSeverity := "high".toList
  includeDescription := true
  includeProof := false
  includeSolution := true
  maxRows := 50000

/-- A title with a comma that is not quoted. -/
def commaTitle : File :=
  .csv ["Title".toList, "Severity".toList] [["Weak key".toList, "high".toList, "2048".toList]]

/-- The row counts, and is not stored. -/
theorem comma_row_lost : ¬ Ingests (fun _ => none) (fun _ => []) (fun _ => []) "2026-10-21".toList
    VulnImports.empty lowUp commaTitle "scan.csv".toList none := by
  rintro ⟨after, record, stored, done, -⟩
  have failed : (ingest (fun _ => none) (fun _ => []) (fun _ => []) "2026-10-21".toList VulnImports.empty
      lowUp commaTitle "scan.csv".toList none).2.isOk = false := by decide +kernel
  rw [done] at failed
  cases failed

end Rapid7Import
end DomainLens
