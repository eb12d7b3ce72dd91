import DomainLens.CveFeed.Records

/-!
# The stored CVEs

The feed keeps one row per range of a followed product and one row per CVE.  A full sync replaces
what a product holds, an increment only the CVEs it carries.
-/

namespace DomainLens
namespace CveFeed

open Python

/-- A row of `cve_ranges`. -/
structure RangeRow where
  cveId : Text
  product : Text
  range : Range
deriving DecidableEq

/-- A row is of one CVE and one product. -/
def RangeRow.isOf (product cveId : Text) (row : RangeRow) : Bool :=
  row.product = product ∧ row.cveId = cveId

/-- The tables `cve_ranges` and `cve_items`, rows in the order of their insertion. -/
structure Store where
  ranges : List RangeRow
  items : List Item
deriving DecidableEq

namespace Store

def empty : Store := ⟨[], []⟩

/-- The ranges stored of one CVE for one product. -/
def rangesOf (store : Store) (product cveId : Text) : List Range :=
  (store.ranges.filter (RangeRow.isOf product cveId)).map RangeRow.range

def clear (store : Store) (product : Text) : Store :=
  { store with ranges := store.ranges.filter fun row => row.product ≠ product }

/-- Replace what is stored of one CVE; a withdrawn one is dropped. -/
def put (product : Text) (store : Store) (record : Cve × List Range) : Store :=
  let (cve, ranges) := record
  if cve.id = [] then store
  else
    let kept := store.ranges.filter fun row => !row.isOf product cve.id
    if cve.vulnStatus = rejected then { store with ranges := kept }
    else
      { ranges := kept ++ ranges.map fun range => ⟨cve.id, product, range⟩
        items := store.items.filter (fun row => row.cveId ≠ cve.id) ++ [item cve] }

/-- Drop the rows of CVEs without ranges. -/
def prune (store : Store) : Store :=
  { store with
    items := store.items.filter fun row => store.ranges.any fun range => range.cveId = row.cveId }

/-- Write the CVEs of one product, and count them. -/
def write (product : Text) (records : List (Cve × List Range)) (full : Bool) (store : Store) :
    Store × Nat :=
  let cleared := if full then store.clear product else store
  let written := (records.foldl (put product) cleared).prune
  (written,
    (fromKeys ((written.ranges.filter (·.product = product)).map RangeRow.cveId)).length)

/-! ## What is read after a write -/

@[simp] theorem rangesOf_prune (store : Store) (product cveId : Text) :
    store.prune.rangesOf product cveId = store.rangesOf product cveId := rfl

theorem rangesOf_ne_nil {store : Store} {product cveId : Text} :
    store.rangesOf product cveId ≠ [] ↔
      ∃ row ∈ store.ranges, row.product = product ∧ row.cveId = cveId := by
  simp [rangesOf, RangeRow.isOf, List.filter_eq_nil_iff]

theorem rangesOf_clear (store : Store) (product other cveId : Text) :
    (store.clear product).rangesOf other cveId =
      if other = product then [] else store.rangesOf other cveId := by
  unfold rangesOf clear
  rw [List.filter_filter]
  split
  · rename_i same
    subst same
    simpa [RangeRow.isOf] using fun (row : RangeRow) _ (here : row.product = other) _ => here
  · rename_i different
    congr 2
    funext row
    by_cases same : row.product = other
    · simp [RangeRow.isOf, same, different]
    · simp [RangeRow.isOf, same]

/-- What is stored of a CVE after a record of it. -/
def latest (cve : Cve) (ranges : List Range) : List Range :=
  if cve.vulnStatus = rejected then [] else ranges

private theorem filter_isOf_kept (rows : List RangeRow) (product cveId other otherId : Text) :
    (rows.filter fun row => !row.isOf product cveId).filter (RangeRow.isOf other otherId) =
      if other = product ∧ otherId = cveId then [] else rows.filter (RangeRow.isOf other otherId) := by
  rw [List.filter_filter]
  split
  · rename_i same
    obtain ⟨rfl, rfl⟩ := same
    simp
  · rename_i different
    congr 1
    funext row
    by_cases here : row.product = other ∧ row.cveId = otherId
    · obtain ⟨rfl, rfl⟩ := here
      simpa [RangeRow.isOf] using not_and_or.mp different
    · simp [RangeRow.isOf, here]

private theorem filter_isOf_new (ranges : List Range) (product cveId other otherId : Text) :
    ((ranges.map fun range => (⟨cveId, product, range⟩ : RangeRow)).filter
      (RangeRow.isOf other otherId)).map RangeRow.range =
        if other = product ∧ otherId = cveId then ranges else [] := by
  rw [List.filter_map, List.map_map]
  split
  · rename_i same
    obtain ⟨rfl, rfl⟩ := same
    have all : (RangeRow.isOf other otherId ∘ fun range => (⟨otherId, other, range⟩ : RangeRow)) =
        fun _ => true := by
      funext range
      simp [RangeRow.isOf]
    rw [all, List.filter_true]
    exact List.map_id ranges
  · rename_i different
    have nothing : (RangeRow.isOf other otherId ∘
        fun range => (⟨cveId, product, range⟩ : RangeRow)) = fun _ => false := by
      funext range
      simp only [Function.comp_apply, RangeRow.isOf, decide_eq_false_iff_not]
      exact fun ⟨same, sameId⟩ => different ⟨same.symm, sameId.symm⟩
    rw [nothing, List.filter_false, List.map_nil]

theorem rangesOf_put (store : Store) (product : Text) {cve : Cve} (ranges : List Range)
    (named : cve.id ≠ []) (other cveId : Text) :
    (put product store (cve, ranges)).rangesOf other cveId =
      if other = product ∧ cveId = cve.id then latest cve ranges
      else store.rangesOf other cveId := by
  unfold put rangesOf latest
  simp only [if_neg named]
  split
  · rw [filter_isOf_kept]
    split <;> rfl
  · simp only [List.filter_append, List.map_append, filter_isOf_kept, filter_isOf_new]
    split
    · rfl
    · rw [List.append_nil]

private theorem rangesOf_foldl_put (product : Text) (records : List (Cve × List Range))
    (distinct : (records.map fun record => record.1.id).Nodup)
    (named : ∀ record ∈ records, record.1.id ≠ []) (store : Store) (other cveId : Text) :
    (records.foldl (put product) store).rangesOf other cveId =
      match records.find? fun record => record.1.id = cveId with
      | some (cve, ranges) =>
          if other = product then latest cve ranges else store.rangesOf other cveId
      | none => store.rangesOf other cveId := by
  induction records generalizing store with
  | nil => rfl
  | cons record records induction =>
      obtain ⟨cve, ranges⟩ := record
      obtain ⟨new, rest⟩ := List.nodup_cons.mp distinct
      rw [List.foldl_cons, induction rest fun record member =>
        named record (List.mem_cons_of_mem _ member)]
      have here := rangesOf_put store product ranges (named _ List.mem_cons_self) other cveId
      by_cases same : cve.id = cveId
      · subst same
        have absent : (records.find? fun record => record.1.id = cve.id) = none := by
          rw [List.find?_eq_none]
          intro record member
          simpa using fun same => new (List.mem_map.mpr ⟨record, member, same⟩)
        rw [absent, List.find?_cons_of_pos (by simp)]
        simpa using here
      · rw [List.find?_cons_of_neg (by simpa using same)]
        have untouched : (put product store (cve, ranges)).rangesOf other cveId =
            store.rangesOf other cveId := by
          rw [here, if_neg fun ⟨_, sameId⟩ => same sameId.symm]
        split <;> simp [untouched]

/-- What is read after a write: a record written says it all, and without one a full sync leaves
nothing of the product. -/
theorem rangesOf_write (product : Text) {records : List (Cve × List Range)} (full : Bool)
    (store : Store) (distinct : (records.map fun record => record.1.id).Nodup)
    (named : ∀ record ∈ records, record.1.id ≠ []) (cveId : Text) :
    (write product records full store).1.rangesOf product cveId =
      match records.find? fun record => record.1.id = cveId with
      | some (cve, ranges) => latest cve ranges
      | none => if full then [] else store.rangesOf product cveId := by
  rw [write, rangesOf_prune, rangesOf_foldl_put product records distinct named]
  split
  · rw [if_pos rfl]
  · cases full
    · rfl
    · rw [if_pos rfl, if_pos rfl, rangesOf_clear, if_pos rfl]

end Store

end CveFeed
end DomainLens
