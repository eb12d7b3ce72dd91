import DomainLens.Python.CaseMapping
import DomainLens.RiskAcceptance

/-!
# Accepted findings

A finding is marked where an active acceptance has its key and names the scanned host, or names the
apex of the host and the finding is about the zone.
-/

namespace DomainLens
namespace RiskAcceptance

open Python

/-! ## Findings -/

/-- What a mark says of the acceptance. -/
structure Mark where
  id : AcceptanceId
  reason : Text
  owner : Text
  expiresOn : Day
  createdBy : Option Text
deriving DecidableEq

def Acceptance.mark (row : Acceptance) : Mark where
  id := row.id
  reason := row.reason
  owner := row.owner
  expiresOn := row.expiresOn
  createdBy := row.createdBy

/-- A finding, its other entries apart. -/
structure Finding (Rest : Type) where
  category : Option Text
  findingKey : Option Text
  accepted : Option Mark
  rest : Rest

structure Scanned where
  domain : Option Text
  apexDomain : Option Text

def clean (name : Option Text) : Text := lower (strip (name.getD []))

/-- `_active_for`, given the active rows: the first of each key. -/
def activeFor (rows : List Acceptance) (domains : List Text) (key : Text) : Option Acceptance :=
  let names := (domains.map fun domain => clean (some domain)).filter (· ≠ [])
  if names = [] then none
  else (rows.filter fun row => row.domain ∈ names).find? fun row => row.findingKey = key

/-- `_APEX_CATEGORIES`. -/
def apexCategories : List Text := ["email".toList, "dns".toList, "whois".toList]

variable {Rest : Type}

/-- `_apex_level`. -/
def apexLevel (finding : Finding Rest) : Bool :=
  lower (finding.category.getD []) ∈ apexCategories ||
    "email:".toList.isPrefixOf (finding.findingKey.getD [])

/-- What `apply` makes of one finding. -/
def applyOne (rows : List Acceptance) (scanned : Scanned) (keyOf : Finding Rest → Text)
    (finding : Finding Rest) : Finding Rest :=
  let domain := clean scanned.domain
  let apex := clean scanned.apexDomain
  let own := activeFor rows [domain]
  let inherited := if apex ≠ [] ∧ apex ≠ domain then activeFor rows [apex] else fun _ => none
  let key := keyOf finding
  let keyed := { finding with findingKey := some key }
  let found :=
    match own key with
    | some row => some row
    | none => if apexLevel keyed then inherited key else none
  match found with
  | some row => { keyed with accepted := some row.mark }
  | none => keyed

/-- `apply`. -/
def apply (rows : List Acceptance) (scanned : Scanned) (keyOf : Finding Rest → Text)
    (findings : List (Finding Rest)) : List (Finding Rest) :=
  findings.map (applyOne rows scanned keyOf)

/-! ## What is covered -/

/-- The acceptance names the scanned host. -/
def NamesHost (scanned : Scanned) (row : Acceptance) : Prop :=
  row.domain ≠ [] ∧ row.domain = clean scanned.domain

/-- The acceptance names the apex of the scanned host. -/
def NamesApex (scanned : Scanned) (row : Acceptance) : Prop :=
  row.domain ≠ [] ∧ row.domain = clean scanned.apexDomain

/-- An acceptance covers a finding: it is neither revoked nor expired, has the key of the finding, and
names the host, or its apex where the finding is about the zone. -/
structure Covers (today : Day) (scanned : Scanned) (keyOf : Finding Rest → Text)
    (finding : Finding Rest) (row : Acceptance) : Prop where
  standing : row.revokedAt = none
  unexpired : today ≤ row.expiresOn
  key : row.findingKey = keyOf finding
  named : NamesHost scanned row ∨ NamesApex scanned row ∧
    apexLevel { finding with findingKey := some (keyOf finding) } = true

/-- A finding is marked by an acceptance of the store that covers it, or as it was where there is none.
Only its key is written besides. -/
structure IsMarked (store : Store) (today : Day) (scanned : Scanned)
    (keyOf : Finding Rest → Text) (finding marked : Finding Rest) : Prop where
  covered : (∃ row ∈ store.table.rows, Covers today scanned keyOf finding row) →
    ∃ row ∈ store.table.rows, Covers today scanned keyOf finding row ∧
      marked.accepted = some row.mark
  uncovered : (¬ ∃ row ∈ store.table.rows, Covers today scanned keyOf finding row) →
    marked.accepted = finding.accepted
  frame : marked = { finding with
    findingKey := some (keyOf finding)
    accepted := marked.accepted }

private theorem clean_clean (name : Option Text) : clean (some (clean name)) = clean name := by
  have stripped : IsStripped (clean name) := isStripped_lower (isStripped_strip _)
  rw [clean, Option.getD_some, strip_of_isStripped stripped, clean, lower_lower]

private theorem activeFor_eq {rows : List Acceptance} {name : Option Text} {key : Text} :
    activeFor rows [clean name] key = rows.find? fun row =>
      (row.domain ≠ [] ∧ row.domain = clean name) ∧ row.findingKey = key := by
  rw [activeFor, List.map_singleton, clean_clean]
  by_cases empty : clean name = []
  · rw [if_pos (by simp [empty]), eq_comm, List.find?_eq_none]
    intro row member held
    rw [decide_eq_true_eq] at held
    exact held.1.1 (held.1.2.trans empty)
  · have kept : [clean name].filter (· ≠ []) = [clean name] := by simp [empty]
    rw [kept, if_neg (List.cons_ne_nil _ _), List.find?_filter]
    congr 1
    funext row
    by_cases named : row.domain = clean name
    · simp [named, empty]
    · simp [named]

private theorem activeFor_some {rows : List Acceptance} {name : Option Text} {key : Text}
    {row : Acceptance} (found : activeFor rows [clean name] key = some row) :
    row ∈ rows ∧ row.domain ≠ [] ∧ row.domain = clean name ∧ row.findingKey = key := by
  rw [activeFor_eq] at found
  have held := List.find?_some found
  rw [decide_eq_true_eq] at held
  exact ⟨List.mem_of_find?_eq_some found, held.1.1, held.1.2, held.2⟩

private theorem activeFor_none {rows : List Acceptance} {name : Option Text} {key : Text}
    (none : activeFor rows [clean name] key = none) {row : Acceptance} (member : row ∈ rows) :
    ¬ ((row.domain ≠ [] ∧ row.domain = clean name) ∧ row.findingKey = key) := by
  rw [activeFor_eq, List.find?_eq_none] at none
  exact fun held => none row member (decide_eq_true held)

/-! ## Marking -/

variable {store : Store} {today : Day} {scanned : Scanned} {keyOf : Finding Rest → Text}
  {finding : Finding Rest}

private theorem mem_rows {row : Acceptance} : row ∈ store.selectActive today ↔
    row ∈ store.table.rows ∧ row.revokedAt = none ∧ today ≤ row.expiresOn := by
  simp [Store.selectActive, Store.isActive, List.mem_mergeSort]

/-- The acceptance a finding is marked by. -/
private def matched (rows : List Acceptance) (scanned : Scanned) (keyOf : Finding Rest → Text)
    (finding : Finding Rest) : Option Acceptance :=
  match activeFor rows [clean scanned.domain] (keyOf finding) with
  | some row => some row
  | none =>
      if apexLevel { finding with findingKey := some (keyOf finding) } then
        (if clean scanned.apexDomain ≠ [] ∧ clean scanned.apexDomain ≠ clean scanned.domain then
          activeFor rows [clean scanned.apexDomain] else fun _ => none) (keyOf finding)
      else none

private theorem applyOne_eq (rows : List Acceptance) :
    applyOne rows scanned keyOf finding = { finding with
      findingKey := some (keyOf finding)
      accepted := ((matched rows scanned keyOf finding).map Acceptance.mark).or finding.accepted } := by
  have shape : applyOne rows scanned keyOf finding =
      match matched rows scanned keyOf finding with
      | some row => { finding with
          findingKey := some (keyOf finding)
          accepted := some row.mark }
      | none => { finding with findingKey := some (keyOf finding) } := rfl
  rw [shape]
  cases matched rows scanned keyOf finding <;> rfl

private theorem covers_of_matched {row : Acceptance}
    (found : matched (store.selectActive today) scanned keyOf finding = some row) :
    row ∈ store.table.rows ∧ Covers today scanned keyOf finding row := by
  rw [matched] at found
  cases own : activeFor (store.selectActive today) [clean scanned.domain] (keyOf finding) with
  | some other =>
      simp only [own, Option.some.injEq] at found
      obtain ⟨member, named, host, key⟩ := activeFor_some own
      obtain ⟨stored, standing, unexpired⟩ := mem_rows.mp member
      exact found ▸ ⟨stored, standing, unexpired, key, .inl ⟨named, host⟩⟩
  | none =>
      simp only [own] at found
      split_ifs at found with level apart
      obtain ⟨member, named, apex, key⟩ := activeFor_some found
      obtain ⟨stored, standing, unexpired⟩ := mem_rows.mp member
      exact ⟨stored, standing, unexpired, key, .inr ⟨⟨named, apex⟩, level⟩⟩

private theorem matched_of_covers {row : Acceptance} (stored : row ∈ store.table.rows)
    (covers : Covers today scanned keyOf finding row) :
    matched (store.selectActive today) scanned keyOf finding ≠ none := by
  have member : row ∈ store.selectActive today :=
    mem_rows.mpr ⟨stored, covers.standing, covers.unexpired⟩
  intro unmatched
  rw [matched] at unmatched
  cases own : activeFor (store.selectActive today) [clean scanned.domain] (keyOf finding) with
  | some other => simp [own] at unmatched
  | none =>
      have notOwn : ¬ NamesHost scanned row :=
        fun named => activeFor_none own member ⟨named, covers.key⟩
      obtain ⟨apex, level⟩ := covers.named.resolve_left notOwn
      have held : clean scanned.apexDomain ≠ [] := fun empty => apex.1 (apex.2.trans empty)
      have apart : clean scanned.apexDomain ≠ clean scanned.domain :=
        fun same => notOwn ⟨apex.1, apex.2.trans same⟩
      simp only [own, level, if_true, if_pos (And.intro held apart)] at unmatched
      exact activeFor_none unmatched member ⟨apex, covers.key⟩

/-- Every finding is marked exactly where an acceptance covers it, and nothing but its key changes
besides. -/
theorem apply_isMarked (store : Store) (today : Day) (scanned : Scanned)
    (keyOf : Finding Rest → Text) (findings : List (Finding Rest)) :
    List.Forall₂ (IsMarked store today scanned keyOf) findings
      (apply (store.selectActive today) scanned keyOf findings) := by
  rw [apply, List.forall₂_map_right_iff, List.forall₂_same]
  intro finding _
  rw [applyOne_eq]
  refine ⟨fun ⟨row, stored, covers⟩ => ?_, fun none => ?_, rfl⟩
  · obtain ⟨found, isFound⟩ := Option.ne_none_iff_exists'.mp (matched_of_covers stored covers)
    obtain ⟨member, covered⟩ := covers_of_matched isFound
    exact ⟨found, member, covered, by rw [isFound]; rfl⟩
  · cases found : matched (store.selectActive today) scanned keyOf finding with
    | none => rfl
    | some row => exact absurd ⟨row, covers_of_matched found⟩ none

def emptyStore : Store := ⟨Table.empty, 1, by simp [Table.empty]⟩

/-- A finding no acceptance covers does not stay as it is: its key is written. -/
theorem key_written : ¬ ∀ finding : Finding Unit,
    (¬ ∃ row ∈ emptyStore.table.rows, Covers 0 ⟨some ['a'], none⟩ (fun _ => ['k']) finding row) →
      apply (emptyStore.selectActive 0) ⟨some ['a'], none⟩ (fun _ => ['k']) [finding] = [finding] := by
  intro unchanged
  have same := unchanged ⟨none, none, none, ()⟩ (by rintro ⟨row, ⟨⟩, -⟩)
  have keys := congrArg (List.map Finding.findingKey) same
  simp [apply, applyOne_eq] at keys

end RiskAcceptance
end DomainLens
