import DomainLens.Library.Sql
import DomainLens.Python.Access
import DomainLens.Python.Ascii

/-!
# Listing vulnerability findings

The findings of a domain and an import are cut into pages by the database, and those that are not severe
enough are left out of a page afterwards.  The file settles when the pages are those of the findings that
pass every filter.
-/

namespace DomainLens
namespace VulnFindings

open Python Sql

/-! ## The table -/

/-- A row of `vuln_findings`. -/
structure FindingRow where
  id : ℕ
  importId : ℤ
  assetIp : Option Text
  hostname : Option Text
  domain : Option Text
  title : Text
  severity : Text
  cvss : Option ℚ
  cves : Option Text
  solution : Option Text
  description : Option Text
  port : Option ℤ
  protocol : Option Text
  vulnId : Option Text
  resultCode : Option Text
  exploit : Option Text
  raw : Option Text
deriving DecidableEq

/-- The rows by their ids, the oldest first; an id has 63 bits. -/
structure Table where
  rows : List FindingRow
  ordered : rows.Pairwise fun older newer => older.id < newer.id
  bounded : ∀ row ∈ rows, 0 < row.id ∧ row.id < 2 ^ 63

/-! ## Filters -/

/-- `severity_rank`. -/
def severityRank : List (Text × ℕ) :=
  [("critical".toList, 0), ("high".toList, 1), ("medium".toList, 2), ("low".toList, 3), ("info".toList, 4)]

/-- An integer that the database takes. -/
def IsStored (value : ℤ) : Prop := -2 ^ 63 ≤ value ∧ value < 2 ^ 63

instance (value : ℤ) : Decidable (IsStored value) := inferInstanceAs (Decidable (_ ∧ _))

/-- The filters of `list_vuln_findings`, with an import that can be stored. -/
structure Filters where
  domain : Option Text
  importId : Option ℤ
  minSeverity : Option Text
  stored : ∀ id ∈ importId, IsStored id

/-- `domain.strip().lower().rstrip(".")`, unless the domain is empty. -/
def Filters.target (filters : Filters) : Option Text :=
  (filters.domain.filter (· ≠ [])).map fun domain => (lower (strip domain)).rdropWhile (· = '.')

/-- `LIKE`: letters of ASCII are the same in either case. -/
def likeReading : Reading Char := ⟨'_', '%', none, Char.toLower⟩

/-- `lower` of the database. -/
def sqlLower (text : Text) : Text := text.map Char.toLower

def ofTarget (target : Text) (row : FindingRow) : Bool :=
  row.domain.any (fun domain => domain = target || likeReading.like ('%' :: '.' :: target) domain) ||
    row.hostname.any fun hostname =>
      sqlLower hostname = target || likeReading.like ('%' :: '.' :: target) (sqlLower hostname)

def Filters.ofImport (filters : Filters) (row : FindingRow) : Bool :=
  filters.importId.all (row.importId = ·)

def Filters.clauses (filters : Filters) (row : FindingRow) : Bool :=
  filters.ofImport row && filters.target.all fun target => ofTarget target row

/-- The severity that a finding must have; a name that is none asks for nothing. -/
def Filters.ofSeverity (filters : Filters) (row : FindingRow) : Bool :=
  (filters.minSeverity.bind fun name => severityRank.lookup name).all fun threshold =>
    (severityRank.lookup row.severity).getD 99 ≤ threshold

/-! ## The list -/

section List

/-! `json.loads`, without the texts that it fails on. -/
variable (loads : Text → Option Value)

/-- `_from_json`. -/
def fromJson (value : Option Text) (default : Value) : Value :=
  ((value.filter (· ≠ [])).bind loads).getD default

structure Shown where
  row : FindingRow
  cves : Value
  raw : Value

/-- `_finding_row_to_dict`. -/
def findingRowToDict (row : FindingRow) : Shown where
  row
  cves := fromJson loads row.cves (.list [])
  raw := fromJson loads row.raw (.dict [])

/-- A limit or an offset that the database does not take. -/
structure Overflow where
deriving DecidableEq

/-- `list_vuln_findings`. -/
def listVulnFindings (table : Table) (filters : Filters) (limit offset : ℤ) :
    Except Overflow (List Shown) :=
  if IsStored limit ∧ IsStored offset then
    let rows := Sql.page limit offset (table.rows.reverse.filter filters.clauses)
    .ok ((rows.map (findingRowToDict loads)).filter fun shown => filters.ofSeverity shown.row)
  else .error ⟨⟩

/-- `vuln_findings_for_domain`. -/
def vulnFindingsForDomain (table : Table) (domain minSeverity : Option Text) (limit : ℤ) :
    Except Overflow (List Shown) :=
  listVulnFindings loads table ⟨domain, none, minSeverity, fun _ none => by cases none⟩ limit 0

/-! ## The findings that pass -/

/-- A name, lower-cased, is a domain or ends with a dot and the domain. -/
def isWithin (target name : Text) : Bool :=
  lower name = target || decide ('.' :: target <:+ lower name)

def Filters.passes (filters : Filters) (row : FindingRow) : Bool :=
  filters.ofImport row && filters.ofSeverity row && filters.target.all fun target =>
    row.domain.any (isWithin target) || row.hostname.any (isWithin target)

/-- The findings that pass, the newest first. -/
def matching (table : Table) (filters : Filters) : List FindingRow :=
  table.rows.reverse.filter filters.passes

/-- A page holds the findings that pass at its positions, and the pages of a size hold each of them once. -/
structure Lists (table : Table) (filters : Filters) : Prop where
  page : ∀ limit offset : ℕ, IsStored limit → IsStored offset →
    listVulnFindings loads table filters limit offset =
      .ok ((((matching table filters).drop offset).take limit).map (findingRowToDict loads))
  pages : ∀ size count : ℕ, IsStored size → IsStored (count * size) →
    (matching table filters).length ≤ count * size →
      ((List.range count).mapM fun index : ℕ =>
          listVulnFindings loads table filters size (index * size)).map List.flatten =
        .ok ((matching table filters).map (findingRowToDict loads)) ∧
      ((matching table filters).map FindingRow.id).Nodup

/-- The query finds the same names as the filter, and among the rows that it finds none that is not severe
    enough is newer than one that is. -/
structure Plain (table : Table) (filters : Filters) : Prop where
  names : ∀ row ∈ table.rows, filters.ofImport row = true → filters.ofSeverity row = true →
    ∀ target ∈ filters.target, ofTarget target row =
      (row.domain.any (isWithin target) || row.hostname.any (isWithin target))
  newest : (table.rows.reverse.filter filters.clauses).Pairwise fun newer older =>
    filters.ofSeverity older = true → filters.ofSeverity newer = true

variable {loads} {table : Table} {filters : Filters}

theorem isStored_length (table : Table) : IsStored table.rows.length := by
  have distinct : (table.rows.map FindingRow.id).Nodup :=
    List.pairwise_map.mpr (table.ordered.imp fun older => older.ne)
  have inside : (table.rows.map FindingRow.id).toFinset ⊆ Finset.Ioo 0 (2 ^ 63) := by
    intro id member
    obtain ⟨row, isRow, rfl⟩ := List.mem_map.mp (List.mem_toFinset.mp member)
    exact Finset.mem_Ioo.mpr (table.bounded row isRow)
  have card := Finset.card_le_card inside
  rw [List.toFinset_card_of_nodup distinct, List.length_map, Nat.card_Ioo] at card
  constructor <;> omega

theorem isStored_of_le {least most : ℕ} (stored : IsStored most) (le : least ≤ most) :
    IsStored least := by
  obtain ⟨-, below⟩ := stored
  constructor <;> omega

theorem listVulnFindings_eq {limit offset : ℕ} (isLimit : IsStored limit) (isOffset : IsStored offset) :
    listVulnFindings loads table filters limit offset =
      .ok (((((table.rows.reverse.filter filters.clauses).drop offset).take limit).filter
        filters.ofSeverity).map (findingRowToDict loads)) := by
  rw [listVulnFindings, if_pos ⟨isLimit, isOffset⟩, Sql.page, if_pos (Int.natCast_nonneg limit),
    Int.toNat_natCast, Int.toNat_natCast]
  exact congrArg Except.ok List.filter_map

private theorem findingRowToDict_injective : Function.Injective (findingRowToDict loads) :=
  fun _ _ same => congrArg Shown.row same

theorem page_iff {limit offset : ℕ} (isLimit : IsStored limit) (isOffset : IsStored offset) :
    listVulnFindings loads table filters limit offset =
        .ok ((((matching table filters).drop offset).take limit).map (findingRowToDict loads)) ↔
      (((table.rows.reverse.filter filters.clauses).drop offset).take limit).filter filters.ofSeverity =
        ((matching table filters).drop offset).take limit := by
  rw [listVulnFindings_eq isLimit isOffset, Except.ok.injEq, List.map_inj_right]
  exact fun _ _ same => findingRowToDict_injective same

/-- The severe rows of the query are those that pass exactly if the query finds the names of the filter. -/
theorem filter_clauses_iff : (table.rows.reverse.filter filters.clauses).filter filters.ofSeverity =
      matching table filters ↔
    ∀ row ∈ table.rows, filters.ofImport row = true → filters.ofSeverity row = true →
      ∀ target ∈ filters.target, ofTarget target row =
        (row.domain.any (isWithin target) || row.hostname.any (isWithin target)) := by
  rw [List.filter_filter, matching]
  constructor
  · intro same row member ofImport ofSeverity target isTarget
    have both : ∀ keep : FindingRow → Bool, row ∈ table.rows.reverse.filter keep ↔ keep row = true :=
      fun keep => by rw [List.mem_filter, and_iff_right (List.mem_reverse.mpr member)]
    have found := both fun row => filters.ofSeverity row && filters.clauses row
    rw [same, both] at found
    rw [Filters.passes, Filters.clauses, ofImport, ofSeverity, isTarget] at found
    simp only [Bool.true_and, Option.all_some] at found
    exact Bool.eq_iff_iff.mpr found.symm
  · intro names
    refine List.filter_congr fun row member => ?_
    have agree := names row (List.mem_reverse.mp member)
    rw [Filters.passes, Filters.clauses]
    cases ofImport : filters.ofImport row with
    | false => rw [Bool.false_and, Bool.and_false, Bool.false_and, Bool.false_and]
    | true =>
        cases ofSeverity : filters.ofSeverity row with
        | false => rw [Bool.false_and, Bool.and_false, Bool.false_and]
        | true =>
            rw [Bool.true_and, Bool.true_and, Bool.true_and]
            cases isTarget : filters.target with
            | none => rfl
            | some target => exact agree ofImport ofSeverity target isTarget

theorem nodup_matching (table : Table) (filters : Filters) :
    ((matching table filters).map FindingRow.id).Nodup := by
  have distinct : (table.rows.map FindingRow.id).Nodup :=
    List.pairwise_map.mpr (table.ordered.imp fun older => older.ne)
  have reversed : (table.rows.reverse.map FindingRow.id).Nodup := by
    rw [List.map_reverse]
    exact List.nodup_reverse.mpr distinct
  exact reversed.sublist (List.filter_sublist.map _)

/-- Pages that hold the findings at their positions hold each finding once. -/
theorem pages_of_page (page : ∀ limit offset : ℕ, IsStored limit → IsStored offset →
      listVulnFindings loads table filters limit offset =
        .ok ((((matching table filters).drop offset).take limit).map (findingRowToDict loads)))
    {size count : ℕ} (isSize : IsStored size) (isEnd : IsStored (count * size))
    (room : (matching table filters).length ≤ count * size) :
    ((List.range count).mapM fun index : ℕ =>
        listVulnFindings loads table filters size (index * size)).map List.flatten =
      .ok ((matching table filters).map (findingRowToDict loads)) := by
  have answers : ∀ index ∈ List.range count, listVulnFindings loads table filters size (index * size) =
      .ok ((((matching table filters).drop (index * size)).take size).map (findingRowToDict loads)) := by
    intro index member
    have before : index * size ≤ count * size :=
      Nat.mul_le_mul_right size (List.mem_range.mp member).le
    exact_mod_cast page size (index * size) isSize (isStored_of_le (by exact_mod_cast isEnd) before)
  have whole := flatMap_pages (matching table filters) size count
  rw [List.take_of_length_le room] at whole
  rw [mapM_eq_pure_map answers]
  refine congrArg Except.ok ?_
  rw [← List.flatMap_def, ← List.map_flatMap, whole]

end List

/-! ## A page of findings that are not severe -/

/-- A critical finding, and a newer one that says little. -/
def finding (id : ℕ) (severity : String) : FindingRow where
  id
  importId := 1
  assetIp := none
  hostname := none
  domain := none
  title := "A".toList
  severity := severity.toList
  cvss := none
  cves := none
  solution := none
  description := none
  port := none
  protocol := none
  vulnId := none
  resultCode := none
  exploit := none
  raw := none

private theorem twoRows_ordered : [finding 1 "critical", finding 2 "info"].Pairwise
    fun older newer => older.id < newer.id := by
  decide

private theorem twoRows_bounded : ∀ row ∈ [finding 1 "critical", finding 2 "info"],
    0 < row.id ∧ row.id < 2 ^ 63 := by
  decide

def twoRows : Table where
  rows := [finding 1 "critical", finding 2 "info"]
  ordered := twoRows_ordered
  bounded := twoRows_bounded

def fromHigh : Filters where
  domain := none
  importId := none
  minSeverity := some "high".toList
  stored := fun _ none => by cases none

end VulnFindings
end DomainLens
