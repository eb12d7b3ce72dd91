import DomainLens.Python.Value
import Mathlib

/-!
# Importing vulnerability findings

An import writes a row for itself and one for each finding, on a connection that commits every
statement.  The file says when nothing of a failed import stays, and what a finished one has stored.
-/

namespace DomainLens
namespace VulnImports

open Python

/-! ## The tables -/

/-- A row of `vuln_imports`. -/
structure ImportRow where
  id : Nat
  filename : Option Text
  sourceFormat : Text
  importedAt : Text
  rowCount : Int
  findingCount : Nat
  summary : Text
  warnings : Text
  headerMap : Text
  importedBy : Option Nat
deriving DecidableEq

/-- What `vuln_findings` keeps of a finding. -/
structure Columns where
  assetIp : Value
  hostname : Value
  domain : Value
  title : Value
  severity : Value
  cvss : Value
  cves : Text
  solution : Value
  description : Value
  port : Value
  protocol : Value
  vulnId : Value
  resultCode : Value
  exploit : Value
  raw : Text

/-- A row of `vuln_findings`. -/
structure FindingRow where
  id : Nat
  importId : Nat
  columns : Columns

/-- Both tables with the last ids they gave out; a finding belongs to an import that was made. -/
structure Store where
  imports : List ImportRow
  findings : List FindingRow
  lastImport : Nat
  lastFinding : Nat
  known : ∀ finding ∈ findings, finding.importId ≤ lastImport

/-- What a caller gives with the findings. -/
structure Upload where
  filename : Option Text
  sourceFormat : Text
  summary : Value
  warnings : Value
  headerMap : Value
  rowCount : Int
  importedBy : Option Nat

/-- Why a statement fails: the database refuses it, a value cannot be bound, or a column must not be
empty. -/
inductive Failure where
  | database (problem : Text)
  | unbindable
  | notNull
deriving DecidableEq

/-! ## Rows -/

/-- A value as a parameter of a statement: `nan` becomes NULL, an `int` has 64 bits, and there are no
columns of lists. -/
def bound : Value → Option Value
  | .list _ | .dict _ => none
  | .number .nan => some .null
  | .number (.int value) =>
      if -2 ^ 63 ≤ value ∧ value < 2 ^ 63 then some (.number (.int value)) else none
  | value => some value

variable (dumps : Value → Text)

/-- The parameters of the statement that stores a finding; the title and the severity have to be
there. -/
def columnsOf (finding : Items) : Except Failure Columns :=
  let get := getValue finding
  let columns := do
    return {
      assetIp := ← bound (get "asset_ip")
      hostname := ← bound (get "hostname")
      domain := ← bound (get "domain")
      title := ← bound ((get "title").or (.text "Untitled".toList))
      severity := ← bound ((get "severity").or (.text "info".toList))
      cvss := ← bound (get "cvss")
      cves := dumps ((get "cves").or (.list []))
      solution := ← bound (get "solution")
      description := ← bound (get "description")
      port := ← bound (get "port")
      protocol := ← bound (get "protocol")
      vulnId := ← bound (get "vuln_id")
      resultCode := ← bound (get "result_code")
      exploit := ← bound (get "exploit")
      raw := dumps ((get "raw").or (.dict [])) : Columns }
  match columns with
  | none => .error .unbindable
  | some columns =>
      match columns.title, columns.severity with
      | .null, _ | _, .null => .error .notNull
      | _, _ => .ok columns

/-! ## The import -/

/-- The statement at a position that the database refuses, and why: the import is at zero, the findings
follow it. -/
abbrev Faults := Nat → Option Text

/-- The loop over the findings: the rows it has stored when it ends, and how it ends. -/
def storeFindings (faults : Faults) (importId : Nat) :
    Nat → Nat → List Items → List FindingRow × Except Failure Unit
  | _, _, [] => ([], .ok ())
  | position, lastFinding, finding :: findings =>
      match faults position, columnsOf dumps finding with
      | some problem, _ => ([], .error (.database problem))
      | none, .error failure => ([], .error failure)
      | none, .ok columns =>
          let (rows, outcome) :=
            storeFindings faults importId (position + 1) (lastFinding + 1) findings
          (⟨lastFinding + 1, importId, columns⟩ :: rows, outcome)

theorem importId_of_stored {faults : Faults} {importId position lastFinding : Nat}
    {findings : List Items} :
    ∀ row ∈ (storeFindings dumps faults importId position lastFinding findings).1,
      row.importId = importId := by
  induction findings generalizing position lastFinding with
  | nil => simp [storeFindings]
  | cons finding findings induction =>
      rw [storeFindings]
      split
      · simp
      · simp
      · intro other member
        rcases List.mem_cons.mp member with rfl | later
        · rfl
        · exact induction other later

/-- `save_vuln_import`, up to reading its row back; `now` is the time it reads. -/
def saveVulnImport (faults : Faults) (now : Text) (store : Store) (upload : Upload)
    (findings : List Items) : Store × Except Failure ImportRow :=
  match faults 0 with
  | some problem => (store, .error (.database problem))
  | none =>
      let row : ImportRow :=
        { id := store.lastImport + 1
          filename := upload.filename
          sourceFormat := upload.sourceFormat
          importedAt := now
          rowCount := upload.rowCount
          findingCount := findings.length
          summary := dumps (upload.summary.or (.dict []))
          warnings := dumps (upload.warnings.or (.list []))
          headerMap := dumps (upload.headerMap.or (.dict []))
          importedBy := upload.importedBy }
      let stored := storeFindings dumps faults row.id 1 store.lastFinding findings
      ({ imports := store.imports ++ [row]
         findings := store.findings ++ stored.1
         lastImport := row.id
         lastFinding := store.lastFinding + stored.1.length
         known := by
           intro finding member
           rcases List.mem_append.mp member with old | new
           · exact Nat.le_succ_of_le (store.known finding old)
           · exact Nat.le_of_eq (importId_of_stored dumps finding new) },
        stored.2.map fun _ => row)

/-! ## All or nothing -/

/-- An import that fails leaves both tables as they were; one that succeeds has stored as many findings
as its row says. -/
def AllOrNothing (store : Store) (outcome : Store × Except Failure ImportRow) : Prop :=
  match outcome.2 with
  | .error _ => outcome.1.imports = store.imports ∧ outcome.1.findings = store.findings
  | .ok row => row ∈ outcome.1.imports ∧
      (outcome.1.findings.filter fun finding => finding.importId = row.id).length = row.findingCount

/-- No finding fails to be stored: the database refuses none, and the values of each fit. -/
def Storable (faults : Faults) : Nat → List Items → Prop
  | _, [] => True
  | position, finding :: findings =>
      faults position = none ∧ (columnsOf dumps finding).isOk ∧
        Storable faults (position + 1) findings

variable {dumps}

private theorem storeFindings_spec (faults : Faults) (importId position lastFinding : Nat)
    (findings : List Items) :
    (Storable dumps faults position findings ∧
        (storeFindings dumps faults importId position lastFinding findings).2 = .ok () ∧
        (storeFindings dumps faults importId position lastFinding findings).1.length =
          findings.length) ∨
      ¬Storable dumps faults position findings ∧
        ∃ failure, (storeFindings dumps faults importId position lastFinding findings).2 =
          .error failure := by
  induction findings generalizing position lastFinding with
  | nil => exact .inl ⟨trivial, rfl, rfl⟩
  | cons finding findings induction =>
      rw [storeFindings, Storable]
      cases refused : faults position with
      | some problem => exact .inr ⟨fun storable => (nomatch storable.1), _, rfl⟩
      | none =>
          cases made : columnsOf dumps finding with
          | error failure => exact .inr ⟨fun storable => (nomatch storable.2.1), failure, rfl⟩
          | ok columns =>
              rcases induction (position + 1) (lastFinding + 1) with
                ⟨storable, ended, length⟩ | ⟨stuck, failure, ended⟩
              · exact .inl ⟨⟨rfl, rfl, storable⟩, ended, congrArg Nat.succ length⟩
              · exact .inr ⟨fun storable => stuck storable.2.2, failure, ended⟩

/-- An import is all or nothing exactly if its own row is refused or none of its findings is. -/
theorem allOrNothing_iff (dumps : Value → Text) (faults : Faults) (now : Text) (store : Store)
    (upload : Upload) (findings : List Items) :
    AllOrNothing store (saveVulnImport dumps faults now store upload findings) ↔
      (faults 0 = none → Storable dumps faults 1 findings) := by
  unfold saveVulnImport
  cases refused : faults 0 with
  | some problem => exact ⟨fun _ accepted => (nomatch accepted), fun _ => ⟨rfl, rfl⟩⟩
  | none =>
      simp only [AllOrNothing, forall_const]
      rcases @storeFindings_spec dumps faults (store.lastImport + 1) 1 store.lastFinding findings with
        ⟨storable, ended, length⟩ | ⟨stuck, failure, ended⟩
      · rw [ended]
        refine iff_of_true ⟨List.mem_append_right _ List.mem_cons_self, ?_⟩ storable
        have older : store.findings.filter
            (fun finding => finding.importId = store.lastImport + 1) = [] := by
          rw [List.filter_eq_nil_iff]
          intro finding member
          have := store.known finding member
          simp only [decide_eq_true_eq]
          omega
        have newer := List.filter_eq_self.mpr fun row member =>
          decide_eq_true (@importId_of_stored dumps faults (store.lastImport + 1) 1
            store.lastFinding findings row member)
        simp only [List.filter_append, older, newer, List.nil_append, length]
      · rw [ended]
        refine iff_of_false (fun unchanged => ?_) stuck
        have longer := congrArg List.length unchanged.1
        simp only [List.length_append, List.length_singleton] at longer
        omega

/-! ## A list that cannot be bound -/

def empty : Store where
  imports := []
  findings := []
  lastImport := 0
  lastFinding := 0
  known := nofun

def twoFindings : Upload where
  filename := some "scan.csv".toList
  sourceFormat := "csv".toList
  summary := .null
  warnings := .null
  headerMap := .null
  rowCount := 2
  importedBy := none

/-- The disk is full at the second finding. -/
def fullDisk : Faults := fun position =>
  if position = 2 then some "database or disk is full".toList else none

private theorem imports_of_failed {store : Store} {outcome : Store × Except Failure ImportRow}
    (held : AllOrNothing store outcome) (failed : outcome.2.isOk = false) :
    outcome.1.imports = store.imports := by
  unfold AllOrNothing at held
  split at held
  · exact held.1
  · rename_i row ended
    rw [ended] at failed
    cases failed

/-- The import and the first finding stay. -/
theorem fullDisk_not_allOrNothing :
    ¬ AllOrNothing empty (saveVulnImport (fun _ => []) fullDisk "2026-10-21".toList empty
      twoFindings [[("title".toList, .text "A".toList)], [("title".toList, .text "B".toList)]]) := by
  intro held
  have same := congrArg List.length (imports_of_failed held (by decide +kernel))
  exact absurd same (by decide +kernel)

end VulnImports
end DomainLens
