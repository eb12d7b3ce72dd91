import DomainLens.Python.CaseMapping
import DomainLens.Library.Forest
import DomainLens.Library.Table
import Mathlib

/-!
# Organisation units

A unit has a name, a parent and what the units below it inherit.  The file embeds the table, the
paths that create units and the listing that every check reads.
-/

namespace DomainLens
namespace DomainPortfolio

open Python

abbrev GroupId := Nat

/-- A row of `portfolio_groups`, the time of creation left out. -/
structure Group where
  id : GroupId
  name : Text
  parentId : Option GroupId
  expectedRegistrar : Option Text
  notifyEmails : Option Text
  contactId : Option Nat
  monitorMinutes : Option Nat
deriving DecidableEq

/-- What the organisation means to do with a domain. -/
inductive Lifecycle where
  | keep
  | review
  | cancel
  | claim
deriving DecidableEq

/-- Not in `_NOT_HELD`. -/
def Lifecycle.held : Lifecycle → Bool
  | .keep | .review => true
  | .cancel | .claim => false

/-- A row of `portfolio_domains`, as far as people change it. -/
structure Domain where
  id : Nat
  domain : Text
  groupId : Option GroupId
  lifecycle : Lifecycle
  threatIntel : Bool
  contactId : Option Nat
  note : Option Text
  createdBy : Option Text
deriving DecidableEq

abbrev Groups := Table Group.id

def parentIn (groups : Groups) (id : GroupId) : Option GroupId :=
  (groups.find id).bind Group.parentId

/-- The two tables, with the last id that was given out: none is given out twice. -/
structure Portfolio where
  groups : Groups
  lastId : GroupId
  domains : List Domain
  issued : ∀ group ∈ groups.rows, group.id ≤ lastId

namespace Portfolio

def empty : Portfolio where
  groups := Table.empty
  lastId := 0
  domains := []
  issued := by simp [Table.empty]

def parentOf (portfolio : Portfolio) : GroupId → Option GroupId := parentIn portfolio.groups

/-- `INSERT INTO portfolio_groups`. -/
def insert (portfolio : Portfolio) (name : Text) (parentId : Option GroupId) : Portfolio where
  groups := portfolio.groups.insert
    { id := portfolio.lastId + 1, name, parentId, expectedRegistrar := none, notifyEmails := none,
      contactId := none, monitorMinutes := none }
    (by
      rw [Table.find_eq_none]
      intro group member same
      have known := portfolio.issued group member
      rw [same] at known
      exact absurd known (Nat.not_succ_le_self _))
  lastId := portfolio.lastId + 1
  domains := portfolio.domains
  issued group member := by
    rcases List.mem_append.mp member with old | new
    · exact Nat.le_succ_of_le (portfolio.issued group old)
    · rw [List.mem_singleton.mp new]

/-- `UPDATE portfolio_groups`. -/
def modify (portfolio : Portfolio) (change : Group → Group)
    (keeps : ∀ group, (change group).id = group.id) : Portfolio where
  groups := portfolio.groups.modify change keeps
  lastId := portfolio.lastId
  domains := portfolio.domains
  issued group member := by
    obtain ⟨old, held, rfl⟩ := List.mem_map.mp member
    rw [keeps]
    exact portfolio.issued old held

/-- `DELETE FROM portfolio_groups`. -/
def delete (portfolio : Portfolio) (gone : Group → Bool) : Portfolio where
  groups := portfolio.groups.filter fun group => !gone group
  lastId := portfolio.lastId
  domains := portfolio.domains
  issued group member := portfolio.issued group (List.mem_of_mem_filter member)

end Portfolio

/-! ## Names and paths -/

/-- What separates the levels of a path. -/
def isSeparator (char : Char) : Bool := char ∈ ['>', '/', '›']

/-- `_clean_group_name`. -/
def cleanGroupName (name : Text) : Except Text Text :=
  let cleaned := (joinWords (split (name.map fun char => if isSeparator char then ' ' else char))).take 80
  if cleaned = [] then .error "A unit needs a name".toList else .ok cleaned

/-- What `COLLATE NOCASE` compares: ASCII letters in one case, others as they are. -/
def noCase (name : Text) : Text := name.map Char.toLower

/-- `_find`. -/
def find (groups : Groups) (name : Text) (parentId : Option GroupId) : Option GroupId :=
  (groups.rows.find? fun group => noCase group.name == noCase name && group.parentId == parentId).map
    Group.id

/-- `ensure_group`, within a block that holds the lock. -/
def ensureGroup (name : Text) (parentId : Option GroupId) (portfolio : Portfolio) :
    Portfolio × Except Text GroupId :=
  match cleanGroupName name with
  | .error problem => (portfolio, .error problem)
  | .ok name =>
      match find portfolio.groups name parentId with
      | some found => (portfolio, .ok found)
      | none => (portfolio.insert name parentId, .ok (portfolio.lastId + 1))

/-- The loop of `ensure_path`. -/
def ensureParts : List Text → Option GroupId → Portfolio → Portfolio × Except Text (Option GroupId)
  | [], parent, portfolio => (portfolio, .ok parent)
  | part :: parts, parent, portfolio =>
      match ensureGroup part parent portfolio with
      | (portfolio, .error problem) => (portfolio, .error problem)
      | (portfolio, .ok id) => ensureParts parts (some id) portfolio

def partsOf (path : Text) : List Text := (path.splitOnP isSeparator).filter fun part => strip part ≠ []

/-- `ensure_path`. -/
def ensurePath (path : Text) (portfolio : Portfolio) : Portfolio × Except Text (Option GroupId) :=
  if partsOf path = [] then (portfolio, .error "A unit needs a name".toList)
  else ensureParts (partsOf path) none portfolio

/-! ## The listing -/

structure Place where
  id : GroupId
  path : List Text
deriving DecidableEq

structure Inherited where
  path : List Text
  depth : Nat
  registrar : Option Text
  contact : Option Nat
  contactUnit : Option Place
  monitor : Option Nat
deriving DecidableEq

/-- A unit as the overview shows it, its path still in parts. -/
structure Listed where
  group : Group
  path : List Text
  depth : Nat
  effectiveRegistrar : Option Text
  registrarInherited : Bool
  contact : Option Nat
  contactInherited : Bool
  contactUnit : Option Place
  monitorEffective : Option Nat
  monitorInherited : Bool
deriving DecidableEq

def truthyText (value : Option Text) : Option Text := value.filter (· ≠ [])

def truthyNumber (value : Option Nat) : Option Nat := value.filter (· ≠ 0)

/-- A unit with what it inherits, and what it hands down; `people` are the contacts there are. -/
def showGroup (people : List Nat) (above : Inherited) (group : Group) : Listed × Inherited :=
  let path := above.path ++ [group.name]
  let registrar := (truthyText group.expectedRegistrar).or above.registrar
  let own := group.contactId.filter (· ∈ people)
  let contact := own.or above.contact
  let contactUnit := if own.isSome then some { id := group.id, path } else above.contactUnit
  let monitor := (truthyNumber group.monitorMinutes).or above.monitor
  ({ group
     path
     depth := above.depth
     effectiveRegistrar := registrar
     registrarInherited := registrar.isSome && (truthyText group.expectedRegistrar).isNone
     contact
     contactInherited := contact.isSome && own.isNone
     contactUnit := if contact.isSome then contactUnit else none
     monitorEffective := monitor
     monitorInherited := monitor.isSome && (truthyNumber group.monitorMinutes).isNone },
   { path, depth := above.depth + 1, registrar, contact, contactUnit, monitor })

/-- The parent a unit is listed under: one that is not stored counts as none. -/
def shownParent (rows : List Group) (group : Group) : Option GroupId :=
  group.parentId.filter (· ∈ rows.map Group.id)

/-- The units listed under a parent, by name. -/
def childrenOf (rows : List Group) (parent : Option GroupId) : List Group :=
  (rows.filter fun group => shownParent rows group = parent).insertionSort
    fun left right => lower left.name ≤ lower right.name

/-- `walk`, to a depth. -/
def walk (people : List Nat) (rows : List Group) :
    Nat → Option GroupId → Inherited → List GroupId → List Listed
  | 0, _, _, _ => []
  | depth + 1, parent, above, seen =>
      (childrenOf rows parent).flatMap fun group =>
        if group.id ∈ seen then [] else
          (showGroup people above group).1 ::
            walk people rows depth (some group.id) (showGroup people above group).2 (group.id :: seen)

def nothingInherited : Inherited where
  path := []
  depth := 0
  registrar := none
  contact := none
  contactUnit := none
  monitor := none

/-- `list_groups`.  No unit is listed deeper than there are units. -/
def listGroups (people : List Nat) (groups : Groups) : List Listed :=
  walk people groups.rows (groups.rows.length + 1) none nothingInherited []

/-- `get_group`. -/
def getGroup (people : List Nat) (groups : Groups) (id : GroupId) : Option Group :=
  ((listGroups people groups).find? fun listed => listed.group.id = id).map Listed.group

/-- The loop of `descendants`, the frontier with its last entry first. -/
def descendantsLoop (rows : List Group) : Nat → List GroupId → List GroupId → List GroupId
  | 0, found, _ => found
  | _ + 1, found, [] => found
  | fuel + 1, found, parent :: frontier =>
      let new := (rows.filter fun group => group.parentId = some parent ∧ group.id ∉ found).map Group.id
      descendantsLoop rows fuel (new ++ found) (new.reverse ++ frontier)

/-- `descendants`.  Every unit enters the frontier once. -/
def descendants (people : List Nat) (groups : Groups) (id : GroupId) : List GroupId :=
  let rows := (listGroups people groups).map Listed.group
  descendantsLoop rows (rows.length + 1) [id] [id]

end DomainPortfolio
end DomainLens
