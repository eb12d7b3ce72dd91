import DomainLens.DomainPortfolio.Contacts

/-!
# The books of the portfolio

Units, domains and contacts, with the change log: a row for each change of a domain, from what it was
to what it is now.  The file embeds what people do to domains one by one.
-/

namespace DomainLens
namespace DomainPortfolio

open Python

/-! ## Events -/

/-- What a change was, as far as people make it. -/
inductive Kind where
  | added
  | removed
  | unit
  | decision
  | threatIntel
  | contact
deriving DecidableEq

/-- `EVENT_KIND_TEXT`. -/
def kindText : Kind → Text
  | .added => "Added".toList
  | .removed => "Removed".toList
  | .unit => "Unit".toList
  | .decision => "Decision".toList
  | .threatIntel => "Threat intel".toList
  | .contact => "Contact".toList

/-- A row of `portfolio_events`, without who made the change and when. -/
structure Event where
  domain : Text
  kind : Kind
  detail : Text
  before : Option Text
  after : Option Text
deriving DecidableEq

/-- `LIFECYCLE_TEXT`. -/
def lifecycleText : Lifecycle → Text
  | .keep => "Keep and renew".toList
  | .review => "To decide".toList
  | .cancel => "Cancel (let it lapse)".toList
  | .claim => "Request or claim".toList

/-- `_INTEL_TEXT`. -/
def intelText : Bool → Text
  | true => "Enrolled".toList
  | false => "Not enrolled".toList

/-- `DEFAULT_LIFECYCLE`. -/
def defaultLifecycle : Lifecycle := .keep

/-- `MAX_DOMAINS`. -/
def maxDomains : Nat := 2000

/-! ## The tables -/

/-- The tables, with the last id of a domain that was given out.  An id and a name are those of one
domain. -/
structure Books where
  portfolio : Portfolio
  lastDomain : Nat
  book : AddressBook
  events : List Event
  keyed : (portfolio.domains.map Domain.id).Nodup
  named : (portfolio.domains.map Domain.domain).Nodup
  counted : ∀ id ∈ portfolio.domains.map Domain.id, id ≤ lastDomain

namespace Books

def empty : Books where
  portfolio := Portfolio.empty
  lastDomain := 0
  book := AddressBook.empty
  events := []
  keyed := List.nodup_nil
  named := List.nodup_nil
  counted := by simp [Portfolio.empty]

def find (books : Books) (domain : Text) : Option Domain :=
  books.portfolio.domains.find? fun row => row.domain = domain

def row (books : Books) (id : Nat) : Option Domain :=
  books.portfolio.domains.find? fun row => row.id = id

/-- The units and the domains after a write that adds no domain. -/
def replace (books : Books) (portfolio : Portfolio)
    (ids : (portfolio.domains.map Domain.id).Sublist (books.portfolio.domains.map Domain.id))
    (names : (portfolio.domains.map Domain.domain).Sublist
      (books.portfolio.domains.map Domain.domain)) : Books :=
  { books with
    portfolio
    keyed := books.keyed.sublist ids
    named := books.named.sublist names
    counted := fun id member => books.counted id (ids.subset member) }

/-- `INSERT INTO portfolio_domains`. -/
def insert (books : Books) (domain : Text) (groupId : Option GroupId) (lifecycle : Lifecycle)
    (note createdBy : Option Text) (fresh : books.find domain = none) : Books where
  portfolio :=
    { books.portfolio with
      domains := books.portfolio.domains ++
        [{ id := books.lastDomain + 1, domain, groupId, lifecycle, threatIntel := false,
           contactId := none, note, createdBy }] }
  lastDomain := books.lastDomain + 1
  book := books.book
  events := books.events
  keyed := by
    rw [List.map_append, List.nodup_append]
    refine ⟨books.keyed, by simp, fun id member other last same => ?_⟩
    have known := books.counted id member
    rw [same, List.mem_singleton.mp last] at known
    exact absurd known (Nat.not_succ_le_self _)
  named := by
    rw [List.map_append, List.nodup_append]
    refine ⟨books.named, by simp, fun name member other last same => ?_⟩
    obtain ⟨row, held, rfl⟩ := List.mem_map.mp member
    have differs := List.find?_eq_none.mp fresh row held
    rw [List.mem_singleton.mp last] at same
    exact differs (decide_eq_true same)
  counted id member := by
    rw [List.map_append, List.mem_append] at member
    rcases member with old | new
    · exact Nat.le_succ_of_le (books.counted id old)
    · rw [List.mem_singleton.mp new]

/-- `UPDATE portfolio_domains SET ... WHERE id = ?`. -/
def update (books : Books) (id : Nat) (change : Domain → Domain)
    (keeps : ∀ row, (change row).id = row.id ∧ (change row).domain = row.domain) : Books :=
  books.replace
    { books.portfolio with
      domains := books.portfolio.domains.map fun row => if row.id = id then change row else row }
    (by
      rw [List.map_map]
      refine (List.map_congr_left fun row _ => ?_).symm ▸ List.Sublist.refl _
      simp only [Function.comp]
      split
      · exact (keeps row).1
      · rfl)
    (by
      rw [List.map_map]
      refine (List.map_congr_left fun row _ => ?_).symm ▸ List.Sublist.refl _
      simp only [Function.comp]
      split
      · exact (keeps row).2
      · rfl)

/-- `DELETE FROM portfolio_domains WHERE id = ?`. -/
def delete (books : Books) (id : Nat) : Books :=
  books.replace
    { books.portfolio with domains := books.portfolio.domains.filter fun row => row.id ≠ id }
    (List.filter_sublist.map Domain.id) (List.filter_sublist.map Domain.domain)

/-- `_record`. -/
def record (books : Books) (event : Event) : Books := { books with events := books.events ++ [event] }

def people (books : Books) : List ContactId := books.book.ids

/-! ### Reading what was written -/

variable {books : Books}

theorem find_eq_none {domain : Text} :
    books.find domain = none ↔ domain ∉ books.portfolio.domains.map Domain.domain := by
  simp [find]

theorem find_eq_some {domain : Text} {row : Domain} :
    books.find domain = some row ↔ row ∈ books.portfolio.domains ∧ row.domain = domain := by
  constructor
  · intro found
    exact ⟨List.mem_of_find?_eq_some found, by simpa using List.find?_some found⟩
  · rintro ⟨member, rfl⟩
    exact @Table.find_of_mem _ _ Domain.domain _ ⟨books.portfolio.domains, books.named⟩ row member

theorem row_eq_some {id : Nat} {row : Domain} :
    books.row id = some row ↔ row ∈ books.portfolio.domains ∧ row.id = id := by
  constructor
  · intro found
    exact ⟨List.mem_of_find?_eq_some found, by simpa using List.find?_some found⟩
  · rintro ⟨member, rfl⟩
    exact @Table.find_of_mem _ _ Domain.id _ ⟨books.portfolio.domains, books.keyed⟩ row member

theorem find_of_mem {row : Domain} (member : row ∈ books.portfolio.domains) :
    books.find row.domain = some row :=
  find_eq_some.mpr ⟨member, rfl⟩

theorem eq_of_id {left right : Domain} (isLeft : left ∈ books.portfolio.domains)
    (isRight : right ∈ books.portfolio.domains) (same : left.id = right.id) : left = right :=
  List.inj_on_of_nodup_map books.keyed isLeft isRight same

theorem names_update (id : Nat) (change : Domain → Domain)
    (keeps : ∀ row, (change row).id = row.id ∧ (change row).domain = row.domain) :
    (books.update id change keeps).portfolio.domains.map Domain.domain =
      books.portfolio.domains.map Domain.domain := by
  change List.map _ (List.map _ _) = _
  rw [List.map_map]
  refine List.map_congr_left fun row _ => ?_
  simp only [Function.comp]
  split
  · exact (keeps row).2
  · rfl

theorem find_update (id : Nat) (change : Domain → Domain)
    (keeps : ∀ row, (change row).id = row.id ∧ (change row).domain = row.domain) (name : Text) :
    (books.update id change keeps).find name =
      (books.find name).map fun row => if row.id = id then change row else row := by
  have step : ∀ rows : List Domain,
      (rows.map fun row => if row.id = id then change row else row).find?
          (fun row => row.domain = name) =
        (rows.find? fun row => row.domain = name).map
          fun row => if row.id = id then change row else row := by
    intro rows
    rw [List.find?_map]
    congr 2
    funext row
    simp only [Function.comp]
    split
    · rw [(keeps row).2]
    · rfl
  exact step books.portfolio.domains

theorem find_insert {domain : Text} (groupId : Option GroupId) (lifecycle : Lifecycle)
    (note createdBy : Option Text) (fresh : books.find domain = none) (name : Text) :
    (books.insert domain groupId lifecycle note createdBy fresh).find name =
      if name = domain then
        some { id := books.lastDomain + 1, domain, groupId, lifecycle, threatIntel := false,
               contactId := none, note, createdBy }
      else books.find name := by
  change List.find? _ (_ ++ [_]) = _
  rw [List.find?_append]
  split
  · rename_i same
    subst same
    rw [show books.portfolio.domains.find? (fun row => row.domain = name) = none from fresh]
    simp
  · rename_i other
    rw [List.find?_singleton, if_neg (by simpa using Ne.symm other), Option.or_none]
    rfl

theorem find_delete (id : Nat) (name : Text) :
    (books.delete id).find name = (books.find name).filter fun row => row.id ≠ id := by
  apply Option.ext
  intro row
  rw [Option.filter_eq_some_iff, find_eq_some, find_eq_some]
  change row ∈ List.filter _ _ ∧ _ ↔ _
  rw [List.mem_filter]
  exact and_right_comm

theorem mem_update {id : Nat} {change : Domain → Domain}
    {keeps : ∀ row, (change row).id = row.id ∧ (change row).domain = row.domain} {row : Domain}
    (member : row ∈ (books.update id change keeps).portfolio.domains) :
    ∃ old ∈ books.portfolio.domains, row = if old.id = id then change old else old := by
  obtain ⟨old, held, rfl⟩ := List.mem_map.mp member
  exact ⟨old, held, rfl⟩

theorem mem_update_of_mem {id : Nat} {change : Domain → Domain}
    {keeps : ∀ row, (change row).id = row.id ∧ (change row).domain = row.domain} {row : Domain}
    (member : row ∈ books.portfolio.domains) :
    (if row.id = id then change row else row) ∈ (books.update id change keeps).portfolio.domains :=
  List.mem_map.mpr ⟨row, member, rfl⟩

end Books

/-! ## What the log shows -/

/-- The path of a unit: its names, the company first. -/
def pathText (names : List Text) : Text := " › ".toList.intercalate names

/-- The paths of the units that are listed. -/
def pathsOf (people : List ContactId) (groups : Groups) : List (GroupId × Text) :=
  (listGroups people groups).map fun listed => (listed.group.id, pathText listed.path)

/-- `_unit_path`. -/
def unitPath (paths : List (GroupId × Text)) : Option GroupId → Option Text
  | none => none
  | some id => some ((paths.lookup id).getD ("Unit ".toList ++ strOf id))

/-- `_contact_name`. -/
def contactName (book : AddressBook) : Option ContactId → Option Text
  | none => none
  | some id =>
      match book.contacts.find id with
      | some row => (truthyText row.name).or row.email
      | none => some ("Contact ".toList ++ strOf id)

/-- `before or 'none'`. -/
def orNoneText (value : Option Text) : Text := (truthyText value).getD "none".toList

/-- A value for a column of a domain. -/
inductive Setting where
  | unit (value : Option GroupId)
  | lifecycle (value : Lifecycle)
  | threatIntel (value : Bool)
  | contact (value : Option ContactId)
deriving DecidableEq

namespace Setting

/-- `_COLUMN_KIND`. -/
def kind : Setting → Kind
  | .unit _ => .unit
  | .lifecycle _ => .decision
  | .threatIntel _ => .threatIntel
  | .contact _ => .contact

def apply (setting : Setting) (row : Domain) : Domain :=
  match setting with
  | .unit value => { row with groupId := value }
  | .lifecycle value => { row with lifecycle := value }
  | .threatIntel value => { row with threatIntel := value }
  | .contact value => { row with contactId := value }

def held (setting : Setting) (row : Domain) : Setting :=
  match setting with
  | .unit _ => .unit row.groupId
  | .lifecycle _ => .lifecycle row.lifecycle
  | .threatIntel _ => .threatIntel row.threatIntel
  | .contact _ => .contact row.contactId

/-- `_shown`, `_unit_path` and `_contact_name`. -/
def shown (paths : List (GroupId × Text)) (book : AddressBook) : Setting → Option Text
  | .unit value => unitPath paths value
  | .lifecycle value => some (lifecycleText value)
  | .threatIntel value => some (intelText value)
  | .contact value => contactName book value

theorem apply_keeps (setting : Setting) (row : Domain) :
    (setting.apply row).id = row.id ∧ (setting.apply row).domain = row.domain := by
  cases setting <;> exact ⟨rfl, rfl⟩

end Setting

def changeEvent (domain : Text) (kind : Kind) (before after : Option Text) : Event where
  domain
  kind
  detail := domain ++ ": ".toList ++ lower (kindText kind) ++ [' '] ++ orNoneText before ++
    " -> ".toList ++ orNoneText after ++ ['.']
  before
  after

/-- `_record_unit`. -/
def recordUnit (domain : Text) (was now : Option GroupId) (paths : List (GroupId × Text)) : Event :=
  changeEvent domain .unit (unitPath paths was) (unitPath paths now)

/-- `_record_added`. -/
def recordAdded (domain : Text) (groupId : Option GroupId) (paths : List (GroupId × Text))
    (lifecycle : Lifecycle) : Event :=
  let unit := unitPath paths groupId
  { domain
    kind := .added
    detail := domain ++ " was added to the portfolio".toList ++
      ((truthyText unit).map fun unit => " in ".toList ++ unit).getD [] ++
      (if lifecycle = defaultLifecycle then []
        else " (".toList ++ lower (lifecycleText lifecycle) ++ [')']) ++ ['.']
    before := none
    after := unit }

def removedEvent (domain : Text) (unit : Option Text) : Event where
  domain
  kind := .removed
  detail := domain ++ " was removed from the portfolio".toList ++
    ((truthyText unit).map fun unit => " (unit ".toList ++ unit ++ ").".toList).getD ['.']
  before := unit
  after := none

/-! ## Changing domains -/

namespace Books

/-- The body of the loops of `_set` and `move`. -/
def setOne (paths : List (GroupId × Text)) (setting : Setting) (books : Books) (id : Nat) : Books :=
  match books.row id with
  | none => books
  | some row =>
      let next := books.update id setting.apply setting.apply_keeps
      if setting.held row = setting then next
      else next.record (changeEvent row.domain setting.kind
        ((setting.held row).shown paths books.book) (setting.shown paths books.book))

/-- `_set`, and what `move` does once the unit is known. -/
def setAll (paths : List (GroupId × Text)) (setting : Setting) (ids : List Nat) (books : Books) :
    Books :=
  ids.foldl (setOne paths setting) books

def paths (books : Books) : List (GroupId × Text) := pathsOf books.people books.portfolio.groups

/-- The unit of an id, as `get_group` finds it. -/
def hasGroup (books : Books) (id : GroupId) : Bool :=
  (getGroup books.people books.portfolio.groups id).isSome

/-- `move`. -/
def move (ids : List Nat) (groupId : Option GroupId) (books : Books) : Except Text Books :=
  if groupId.any fun id => !books.hasGroup id then .error "Unknown unit".toList
  else .ok (books.setAll books.paths (.unit groupId) ids)

def lifecycleOf (value : Text) : Option Lifecycle :=
  if value = "keep".toList then some .keep
  else if value = "review".toList then some .review
  else if value = "cancel".toList then some .cancel
  else if value = "claim".toList then some .claim
  else none

/-- `set_lifecycle`. -/
def setLifecycle (ids : List Nat) (value : Text) (books : Books) : Except Text Books :=
  match lifecycleOf value with
  | none => .error "Unknown decision".toList
  | some value => .ok (books.setAll [] (.lifecycle value) ids)

/-- `set_threat_intel`. -/
def setThreatIntel (ids : List Nat) (enrolled : Bool) (books : Books) : Books :=
  books.setAll [] (.threatIntel enrolled) ids

/-- `set_contact`. -/
def setContact (ids : List Nat) (contactId : Option ContactId) (books : Books) :
    Except Text Books :=
  if contactId.any fun id => (books.book.contacts.find id).isNone then
    .error "Unknown contact".toList
  else .ok (books.setAll [] (.contact contactId) ids)

/-- The body of the loop of `remove`. -/
def removeOne (paths : List (GroupId × Text)) (books : Books) (id : Nat) : Books :=
  match books.row id with
  | none => books
  | some row => (books.delete id).record (removedEvent row.domain (unitPath paths row.groupId))

/-- `remove`. -/
def remove (ids : List Nat) (books : Books) : Books :=
  ids.foldl (removeOne books.paths) books

/-- `assign`, the domain of the hostname being known. -/
def assign (domain : Text) (groupId : Option GroupId) (createdBy : Option Text) (books : Books) :
    Except Text Books :=
  if groupId.any fun id => !books.hasGroup id then .error "Unknown unit".toList
  else
    match found : books.find domain with
    | none =>
        if maxDomains ≤ books.portfolio.domains.length then
          .error "At most 2000 domains in the portfolio".toList
        else
          .ok ((books.insert domain groupId defaultLifecycle none createdBy found).record
            (recordAdded domain groupId books.paths defaultLifecycle))
    | some row =>
        if row.groupId = groupId then .ok books
        else
          .ok ((books.update row.id (Setting.unit groupId).apply
            (Setting.unit groupId).apply_keeps).record
              (recordUnit domain row.groupId groupId books.paths))

end Books

end DomainPortfolio
end DomainLens
