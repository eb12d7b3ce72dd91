import DomainLens.AuditLog
import DomainLens.DomainPortfolio.Export

/-!
# Exported spreadsheets

The audit log, the answers of a WHOIS batch, the portfolio, its change log and the advice of a report
are exported as CSV files.  The file embeds the five writers and says which of their files hold no cell
that a spreadsheet would run as a formula.
-/

namespace DomainLens
namespace Exports

open Python

/-- The line ends of a file. -/
def lineEnds : DomainPortfolio.excel.LineEnds where
  carriage := '\r'
  feed := '\n'
  carriage_special := by decide
  feed_special := by decide
  carriage_ne := by decide
  feed_ne := by decide

/-- A file of a header and the rows after it. -/
def sheet (columns : List Text) (rows : List (List Text)) : Text :=
  lineEnds.writeFile (columns :: rows)

/-! ## The audit log -/

/-- `_COLUMNS`. -/
def auditColumns : List Text :=
  ["id", "created_at", "actor_id", "actor_email", "actor_role", "auth_method", "ip", "action",
    "target_type", "target_id", "outcome", "details", "prev_hash", "row_hash"].map String.toList

/-- `_csv_safe` on the columns of a row: the id is a number, everything else is text. -/
def auditCells (row : AuditLog.Row) : List Text :=
  strOf row.id ::
    ((row.entry.values.map fun value => value.getD []) ++ [row.prevHash, row.rowHash]).map
      DomainPortfolio.csvSafe

/-- `export_csv` of the rows that the filters select. -/
def exportCsv (selects : AuditLog.Row → Bool) (log : AuditLog.Log) : Text :=
  sheet auditColumns ((log.rows.filter selects).map auditCells)

/-! ## A WHOIS batch -/

/-- A row of a batch; a value that is missing is empty. -/
structure BatchRow where
  domain : Text
  state : Text
  phase : Text
  status : Text
  releasedFrom : Text
  detail : Text
  registrar : Text
  reseller : Text
  registered : Text
  updated : Text
  expires : Text
  dnssec : Text
  nameservers : Text
  holder : Text
  source : Text
  registryUrl : Text

/-- `CSV_COLUMNS` of a batch. -/
def batchColumns : List Text :=
  ["domain", "state", "phase", "status", "released_from", "detail", "registrar", "reseller",
    "registered", "updated", "expires", "dnssec", "nameservers", "holder", "source",
    "registry_url"].map String.toList

def batchCells (row : BatchRow) : List Text :=
  [row.domain, row.state, row.phase, row.status, row.releasedFrom, row.detail, row.registrar,
    row.reseller, row.registered, row.updated, row.expires, row.dnssec, row.nameservers, row.holder,
    row.source, row.registryUrl].map DomainPortfolio.csvSafe

/-- `to_csv` of a batch, given its rows. -/
def batchCsv (rows : List BatchRow) : Text := sheet batchColumns (rows.map batchCells)

/-! ## The change log of the portfolio -/

/-- A row of the change log as `_event` shows it; a value that is missing is empty. -/
structure Change where
  at_ : Text
  domain : Text
  unit : Text
  kindText : Text
  severity : Text
  before : Text
  after : Text
  sourceText : Text
  actor : Text
  detail : Text

/-- `EVENT_CSV_COLUMNS`. -/
def eventColumns : List Text :=
  ["at", "domain", "unit", "kind", "severity", "before", "after", "source", "actor", "detail"].map
    String.toList

def eventCells (row : Change) : List Text :=
  [row.at_, row.domain, row.unit, row.kindText, row.severity, row.before, row.after, row.sourceText,
    row.actor, row.detail].map DomainPortfolio.csvSafe

/-- `events_csv`. -/
def eventsCsv (rows : List Change) : Text := sheet eventColumns (rows.map eventCells)

/-! ## The advice of a report -/

/-- A recommendation, as far as it is exported; a value that is missing is empty. -/
structure Recommendation where
  severity : Text
  category : Text
  title : Text
  problem : Text
  fix : Text
  retest : Text
  reference : Text

/-- The field names of `to_csv_advies`. -/
def advieColumns : List Text :=
  ["severity", "category", "title", "problem", "fix", "retest", "reference"].map String.toList

/-- The cells of a recommendation, which are its texts. -/
def advieCells (item : Recommendation) : List Text :=
  [item.severity, item.category, item.title, item.problem, item.fix, item.retest, item.reference]

/-- `to_csv_advies`. -/
def toCsvAdvies (recommendations : List Recommendation) : Text :=
  sheet advieColumns (recommendations.map advieCells)

/-! ## Inert files -/

/-- What a spreadsheet takes for a formula. -/
def RunsAsFormula (cell : Text) : Prop :=
  cell.head?.any (· ∈ ['=', '+', '-', '@', '\t', '\r']) = true

instance (cell : Text) : Decidable (RunsAsFormula cell) := inferInstanceAs (Decidable (_ = true))

/-- No cell of a file, once it is read back, runs as a formula. -/
def Inert (text : Text) : Prop :=
  ∀ row ∈ lineEnds.readFile text, ∀ cell ∈ row, ¬ RunsAsFormula cell

/-- The exported files, with what they are made of. -/
inductive File where
  | audit (selects : AuditLog.Row → Bool) (log : AuditLog.Log)
  | batch (rows : List BatchRow)
  | portfolio (stamp : DomainPortfolio.Registry.Time → Text) (domains : List DomainPortfolio.Shown)
  | changes (rows : List Change)
  | advice (recommendations : List Recommendation)

def File.text : File → Text
  | audit selects log => exportCsv selects log
  | batch rows => batchCsv rows
  | portfolio stamp domains => DomainPortfolio.toCsv stamp domains
  | changes rows => eventsCsv rows
  | advice recommendations => toCsvAdvies recommendations

/-- The recommendations of an advice list begin with no sign of a formula; the other files guard their
cells themselves. -/
def File.Plain : File → Prop
  | advice recommendations => ∀ item ∈ recommendations, ∀ cell ∈ advieCells item, ¬ RunsAsFormula cell
  | _ => True

theorem csvSafe_inert (text : Text) : ¬ RunsAsFormula (DomainPortfolio.csvSafe text) := by
  unfold DomainPortfolio.csvSafe
  split
  · exact (by decide : ¬ RunsAsFormula ['\''])
  · rename_i harmless
    exact harmless

theorem strOf_inert (value : Nat) : ¬ RunsAsFormula (strOf value) := by
  intro runs
  obtain ⟨char, isHead, isMark⟩ := Option.any_eq_true _ _ |>.mp runs
  have isDigit := isDecimal_of_mem_strOf (List.mem_of_mem_head? isHead)
  have none : ['=', '+', '-', '@', '\t', '\r'].all fun mark => !isDecimal mark := by decide
  have isNone := List.all_eq_true.mp none char (of_decide_eq_true isMark)
  rw [isDigit] at isNone
  cases isNone

theorem columns_inert :
    ∀ columns ∈ [auditColumns, batchColumns, DomainPortfolio.csvColumns, eventColumns, advieColumns],
      columns ≠ [] ∧ ∀ cell ∈ columns, ¬ RunsAsFormula cell := by
  decide +kernel

theorem inert_sheet {columns : List Text} {rows : List (List Text)} (named : columns ≠ [])
    (filled : ∀ row ∈ rows, row ≠ []) :
    Inert (sheet columns rows) ↔
      (∀ cell ∈ columns, ¬ RunsAsFormula cell) ∧ ∀ row ∈ rows, ∀ cell ∈ row, ¬ RunsAsFormula cell := by
  unfold Inert sheet
  rw [Dialect.readFile_writeFile (List.forall_mem_cons.mpr ⟨named, filled⟩), List.forall_mem_cons]

theorem inert_map {Row : Type*} {columns : List Text} {cells : Row → List Text} {rows : List Row}
    (header : columns ≠ [] ∧ ∀ cell ∈ columns, ¬ RunsAsFormula cell)
    (filled : ∀ row, cells row ≠ [])
    (guarded : ∀ row, ∀ cell ∈ cells row, ¬ RunsAsFormula cell) :
    Inert (sheet columns (rows.map cells)) :=
  (inert_sheet header.1 (List.forall_mem_map.mpr fun row _ => filled row)).mpr
    ⟨header.2, List.forall_mem_map.mpr fun row _ => guarded row⟩

theorem not_runs_of_mem_map {texts : List Text} {cell : Text}
    (member : cell ∈ texts.map DomainPortfolio.csvSafe) : ¬ RunsAsFormula cell := by
  obtain ⟨text, -, rfl⟩ := List.mem_map.mp member
  exact csvSafe_inert text

theorem inert_exportCsv (selects : AuditLog.Row → Bool) (log : AuditLog.Log) :
    Inert (exportCsv selects log) := by
  refine inert_map (columns_inert auditColumns (by simp)) (fun row => List.cons_ne_nil _ _) ?_
  intro row cell member
  rcases List.mem_cons.mp member with rfl | guarded
  · exact strOf_inert row.id
  · exact not_runs_of_mem_map guarded

theorem inert_batchCsv (rows : List BatchRow) : Inert (batchCsv rows) :=
  inert_map (columns_inert batchColumns (by simp)) (fun _ => List.cons_ne_nil _ _) fun _ _ =>
    not_runs_of_mem_map

theorem inert_toCsv (stamp : DomainPortfolio.Registry.Time → Text)
    (domains : List DomainPortfolio.Shown) : Inert (DomainPortfolio.toCsv stamp domains) := by
  change Inert (sheet DomainPortfolio.csvColumns (domains.map (DomainPortfolio.exportCells stamp)))
  exact inert_map (columns_inert DomainPortfolio.csvColumns (by simp))
    (fun _ => List.cons_ne_nil _ _) fun _ _ => not_runs_of_mem_map

theorem inert_eventsCsv (rows : List Change) : Inert (eventsCsv rows) :=
  inert_map (columns_inert eventColumns (by simp)) (fun _ => List.cons_ne_nil _ _) fun _ _ =>
    not_runs_of_mem_map

theorem inert_toCsvAdvies (recommendations : List Recommendation) :
    Inert (toCsvAdvies recommendations) ↔
      ∀ item ∈ recommendations, ∀ cell ∈ advieCells item, ¬ RunsAsFormula cell := by
  have header := columns_inert advieColumns (by simp)
  have filled : ∀ row ∈ recommendations.map advieCells, row ≠ [] :=
    List.forall_mem_map.mpr fun _ _ => List.cons_ne_nil _ _
  unfold toCsvAdvies
  rw [inert_sheet header.1 filled, List.forall_mem_map]
  exact and_iff_right header.2

/-- Every file but an advice list is inert whatever it is made of, and an advice list when no text of its
recommendations begins with a sign of a formula. -/
theorem inert_iff_plain (file : File) : Inert file.text ↔ file.Plain := by
  cases file with
  | audit selects log => exact iff_of_true (inert_exportCsv selects log) trivial
  | batch rows => exact iff_of_true (inert_batchCsv rows) trivial
  | portfolio stamp domains => exact iff_of_true (inert_toCsv stamp domains) trivial
  | changes rows => exact iff_of_true (inert_eventsCsv rows) trivial
  | advice recommendations => exact inert_toCsvAdvies recommendations

/-! ## Tables -/

/-- The header of a file. -/
def File.columns : File → List Text
  | audit _ _ => auditColumns
  | batch _ => batchColumns
  | portfolio _ _ => DomainPortfolio.csvColumns
  | changes _ => eventColumns
  | advice _ => advieColumns

/-- The cells of what is exported, row by row. -/
def File.rows : File → List (List Text)
  | audit selects log => (log.rows.filter selects).map auditCells
  | batch rows => rows.map batchCells
  | portfolio stamp domains => domains.map (DomainPortfolio.exportCells stamp)
  | changes rows => rows.map eventCells
  | advice recommendations => recommendations.map advieCells

/-- No text breaks out of its cell: every file reads back as its header and its rows, each as wide as the
header. -/
theorem readFile_text (file : File) :
    lineEnds.readFile file.text = file.columns :: file.rows ∧
      ∀ row ∈ file.rows, row.length = file.columns.length := by
  have wide : ∀ row ∈ file.rows, row.length = file.columns.length := by
    cases file <;> exact List.forall_mem_map.mpr fun _ _ => rfl
  have named : file.columns ≠ [] := (columns_inert file.columns (by cases file <;> simp [File.columns])).1
  have filled (row : List Text) (member : row ∈ file.rows) : row ≠ [] := by
    intro empty
    have width := wide row member
    rw [empty] at width
    exact named (List.length_eq_zero_iff.mp width.symm)
  have written : file.text = lineEnds.writeFile (file.columns :: file.rows) := by cases file <;> rfl
  rw [written]
  exact ⟨Dialect.readFile_writeFile (List.forall_mem_cons.mpr ⟨named, filled⟩), wide⟩

/-- A finding of an import whose title is a formula, as it is advised on. -/
def importedFormula : Recommendation where
  severity := "high".toList
  category := "rapid7".toList
  title := "=HYPERLINK(\"https://attacker.example\")".toList
  problem := "InsightVM/Nexpose reported this on `web`.".toList
  fix := "Upgrade the server.".toList
  retest := "Re-scan `web`.".toList
  reference := []

/-- The title of an imported finding runs as a formula in the advice list. -/
theorem advice_not_inert : ¬ ∀ file : File, Inert file.text := by
  intro inert
  have read : lineEnds.readFile (File.advice [importedFormula]).text =
      [advieColumns, advieCells importedFormula] :=
    Dialect.readFile_writeFile (List.forall_mem_cons.mpr
      ⟨(columns_inert advieColumns (by simp)).1,
        List.forall_mem_singleton.mpr (List.cons_ne_nil _ _)⟩)
  refine inert (.advice [importedFormula]) (advieCells importedFormula) ?_ importedFormula.title
    (by simp [advieCells]) (by decide)
  rw [read]
  exact List.mem_cons_of_mem _ List.mem_cons_self

end Exports
end DomainLens
