import DomainLens.DomainPortfolio.Books

/-!
# Importing domains

An import adds the domains that are new and moves the stored ones to the unit their line names, and
then applies the other columns of the file.  The connection commits every statement by itself.
-/

namespace DomainLens
namespace DomainPortfolio

open Python

/-! ## The cells of a file -/

/-- `_DECISION_WORDS`. -/
def decisionWords : List (Text × Lifecycle) :=
  [("keep", .keep), ("renew", .keep), ("keep and renew", .keep), ("behouden", .keep),
    ("behouden en verlengen", .keep), ("verlengen", .keep), ("houden", .keep), ("behoud", .keep),
    ("review", .review), ("to decide", .review), ("decide", .review), ("undecided", .review),
    ("nog te besluiten", .review), ("besluiten", .review), ("twijfel", .review),
    ("onbekend", .review),
    ("cancel", .cancel), ("lapse", .cancel), ("let it lapse", .cancel), ("drop", .cancel),
    ("opzeggen", .cancel), ("laten verlopen", .cancel), ("opheffen", .cancel),
    ("verwijderen", .cancel),
    ("claim", .claim), ("request", .claim), ("request or claim", .claim), ("acquire", .claim),
    ("claimen", .claim), ("aanvragen", .claim), ("aanvragen of claimen", .claim),
    ("verwerven", .claim), ("registreren", .claim)].map fun word => (word.1.toList, word.2)

/-- `_YES`. -/
def yesWords : List Text :=
  ["yes", "ja", "y", "j", "true", "1", "x", "on", "aan", "enrolled", "aangemeld"].map String.toList

/-- `_NO`. -/
def noWords : List Text :=
  ["no", "nee", "n", "false", "0", "off", "uit", "not enrolled", "niet aangemeld",
    "missing", "not needed", "unmeasured"].map String.toList

/-- `decision_of`: nothing for an empty cell, and nothing in it for one that is not understood. -/
def decisionOf (text : Text) : Option (Option Lifecycle) :=
  let words := split ((lower text).map fun char =>
    if isWordChar char || isSpace char || char == '-' then char else ' ')
  if joinWords words = [] then none
  else some ((decisionWords.lookup (joinWords words)).or (words.head?.bind fun word => decisionWords.lookup word))

/-- `_intel_of`. -/
def intelOf (text : Text) : Option Bool :=
  let value := joinWords (split ((lower text).map fun char => if char = '_' then ' ' else char))
  if value ∈ yesWords then some true else if value ∈ noWords then some false else none

/-- `_contact_cells`. -/
def contactCells (name email : Text) : Text × Text :=
  let (name, email) :=
    if '<' ∈ name ∧ (rstrip name).getLast? = some '>' ∧ email = [] then
      let name := name.rdropWhile (· = '>')
      (name.takeWhile (· ≠ '<'), (name.dropWhile (· ≠ '<')).drop 1)
    else (name, email)
  let name := joinWords (split name)
  let email := lower (strip email)
  if email = [] ∧ '@' ∈ name ∧ ' ' ∉ name then ([], lower name) else (name, email)

/-- `_known_contact`. -/
def knownContact (name email : Text) (people : List Person) : Option ContactId :=
  if email ≠ [] then
    (people.find? fun person => lower (person.email.getD []) = email).map Person.id
  else if name ≠ [] then (people.find? fun person => lower person.name = lower name).map Person.id
  else none

/-- What a file says of a domain in its other columns. -/
structure Extra where
  decision : Text
  contact : Text
  email : Text
  intel : Text
deriving DecidableEq

abbrev Extras := Table (Prod.fst : Text × Extra → Text)

/-! ## The report -/

/-- `_CHANGE_FIELDS`. -/
inductive Field where
  | unit
  | decision
  | threatIntel
  | contact
deriving DecidableEq

/-- The place of a field in the order of the report. -/
def Field.place : Field → Nat
  | .unit => 0
  | .decision => 1
  | .threatIntel => 2
  | .contact => 3

/-- A change of a domain that was stored before. -/
structure Change where
  domain : Text
  field : Field
  was : Option Text
  now : Option Text
deriving DecidableEq

/-- A value that could not be used. -/
structure Unused where
  domain : Text
  column : Text
  value : Text
  reason : Text
deriving DecidableEq

/-- The report of `_apply_extras`. -/
structure ExtrasReport where
  decisions : Nat
  contacts : Nat
  threatIntel : Nat
  contactsCreated : List Text
  notUnderstood : List Text
  notUsed : List Unused
  changes : List Change
deriving DecidableEq

def ExtrasReport.empty : ExtrasReport where
  decisions := 0
  contacts := 0
  threatIntel := 0
  contactsCreated := []
  notUnderstood := []
  notUsed := []
  changes := []

/-! ## Contacts of a file -/

/-- `_contact_for`: the books' contacts afterwards, the known ones, the new names and the contact. -/
def contactFor (accounts : List Account) (name email : Text) (book : AddressBook)
    (people : List Person) (made : List Text) :
    Except Text (AddressBook × List Person × List Text × Option ContactId) :=
  let (name, email) := contactCells name email
  if name = [] ∧ email = [] then .ok (book, people, made, none)
  else
    match knownContact name email people with
    | some known => .ok (book, people, made, some known)
    | none =>
        match if email = [] then none else getUserByEmail accounts email with
        | some account => do
            let (book, person) ← book.createFor accounts account.id
            .ok (book, people ++ [person], made, some person.id)
        | none => do
            let (book, person) ← book.create accounts (orNone name) (orNone email) none
            .ok (book, people ++ [person], made ++ [person.name], some person.id)

/-! ## The other columns -/

/-- What `_apply_extras` has read before its loop. -/
structure ExtrasContext where
  accounts : List Account
  added : List Text
  labels : List (Text × Text)
  listed : List Listed
  rows : List Domain

/-- What the loop has done so far. -/
structure ExtrasState where
  books : Books
  people : List Person
  report : ExtrasReport

namespace ExtrasState

/-- `name_of`. -/
def nameOf (state : ExtrasState) (id : ContactId) : Text :=
  ((state.people.find? fun person => person.id = id).map Person.name).getD
    ("Contact ".toList ++ strOf id)

/-- `changed`. -/
def changed (state : ExtrasState) (context : ExtrasContext) (domain : Text) (field : Field)
    (was now : Option Text) : ExtrasState :=
  if domain ∈ context.added then state
  else { state with
    report := { state.report with
      changes := state.report.changes ++ [{ domain, field, was, now }] } }

/-- `unused`. -/
def unused (state : ExtrasState) (context : ExtrasContext) (domain : Text) (key : String)
    (value reason legacy : Text) : ExtrasState :=
  let column := (context.labels.lookup key.toList).getD key.toList
  { state with
    report := { state.report with
      notUnderstood := state.report.notUnderstood ++ [domain ++ ": ".toList ++ legacy]
      notUsed := state.report.notUsed ++ [{ domain, column, value, reason }] } }

def applyDecision (state : ExtrasState) (context : ExtrasContext) (row : Domain) (extra : Extra) :
    ExtrasState :=
  match decisionOf extra.decision with
  | none => state
  | some none =>
      state.unused context row.domain "decision" extra.decision
        "Not a decision this tool knows".toList extra.decision
  | some (some decision) =>
      let state :=
        if decision = row.lifecycle then state
        else
          { state with books := state.books.setAll [] (.lifecycle decision) [row.id] }.changed
            context row.domain .decision (some (lifecycleText row.lifecycle))
            (some (lifecycleText decision))
      { state with
        report := { state.report with decisions := state.report.decisions + 1 } }

def applyIntel (state : ExtrasState) (context : ExtrasContext) (row : Domain) (extra : Extra) :
    ExtrasState :=
  match intelOf extra.intel with
  | none =>
      if extra.intel = [] then state
      else state.unused context row.domain "intel" extra.intel "Not yes or no".toList extra.intel
  | some intel =>
      let state :=
        if intel = row.threatIntel then state
        else
          { state with books := state.books.setThreatIntel [row.id] intel }.changed
            context row.domain .threatIntel (some (intelText row.threatIntel))
            (some (intelText intel))
      { state with
        report := { state.report with threatIntel := state.report.threatIntel + 1 } }

/-- The contact a domain has now: its own, or its unit's. -/
def current (context : ExtrasContext) (row : Domain) : Option ContactId :=
  (truthyNumber row.contactId).or
    ((context.listed.find? fun listed => some listed.group.id = row.groupId).bind Listed.contact)

/-- The state with the contact of a line counted. -/
def counted (state : ExtrasState) : ExtrasState :=
  { state with report := { state.report with contacts := state.report.contacts + 1 } }

/-- The contact of a line.  The one that is set is stored, so `set_contact` does not refuse it. -/
def applyContact (state : ExtrasState) (context : ExtrasContext) (row : Domain) (extra : Extra) :
    ExtrasState :=
  let (name, email) := contactCells extra.contact extra.email
  if name = [] ∧ email = [] then state
  else
    let now := current context row
    if now ≠ none ∧ knownContact name email state.people = now then state.counted
    else
      match contactFor context.accounts name email state.books.book state.people
        state.report.contactsCreated with
      | .error problem =>
          state.unused context row.domain (if extra.contact ≠ [] then "contact" else "email")
            (joinWords ([extra.contact, extra.email].filter (· ≠ []))) problem problem
      | .ok (book, people, made, id) =>
          let state : ExtrasState :=
            { books := { state.books with book }
              people
              report := { state.report with contactsCreated := made } }
          match id with
          | none => state.counted
          | some id =>
              if some id = now then state.counted
              else
                let was := now.map fun was =>
                  state.nameOf was ++
                    (if truthyNumber row.contactId = none then " (inherited)".toList else [])
                ({ state with books := state.books.setAll [] (.contact (some id)) [row.id] }.changed
                  context row.domain .contact was (some (state.nameOf id))).counted

/-- The body of the loop of `_apply_extras`. -/
def applyExtra (context : ExtrasContext) (state : ExtrasState) (line : Text × Extra) : ExtrasState :=
  match context.rows.find? fun row => row.domain = line.1 with
  | none => state
  | some row =>
      ((state.applyDecision context row line.2).applyIntel context row line.2).applyContact context row
        line.2

end ExtrasState

/-- `_apply_extras`. -/
def applyExtras (accounts : List Account) (extras : Extras) (added : List Text)
    (labels : List (Text × Text)) (books : Books) : Books × ExtrasReport :=
  let context : ExtrasContext :=
    { accounts
      added
      labels
      listed := listGroups books.people books.portfolio.groups
      rows := books.portfolio.domains }
  let start : ExtrasState :=
    { books, people := books.book.listContacts accounts, report := ExtrasReport.empty }
  let state := extras.rows.foldl (ExtrasState.applyExtra context) start
  (state.books, state.report)

/-! ## The lines -/

/-- A line: a domain and the path of its unit. -/
structure Entry where
  domain : Text
  group : Option Text
deriving DecidableEq

/-- How an import fails: with `ValueError`, or on a name that is already stored. -/
inductive ImportFailure where
  | value (problem : Text)
  | integrity
deriving DecidableEq

/-- What the loop over the lines keeps. -/
structure Tally where
  added : List Text
  addedUnits : List (Text × Option GroupId)
  moved : List Text
  stayed : List Text
  unitMoves : List (Text × Option GroupId × GroupId)

def Tally.empty : Tally where
  added := []
  addedUnits := []
  moved := []
  stayed := []
  unitMoves := []

/-- `table[key] = value`. -/
def assignKey {Value : Type} (key : Text) (value : Value) : List (Text × Value) → List (Text × Value)
  | [] => [(key, value)]
  | (other, old) :: rest =>
      if other = key then (key, value) :: rest else (other, old) :: assignKey key value rest

/-- The arguments of `import_domains` next to the lines and the other columns. -/
structure ImportOptions where
  defaultGroup : Option Text
  defaultGroupId : Option GroupId
  createdBy : Option Text
  defaultLifecycle : Option Text
  note : Option Text
  labels : List (Text × Text)

/-- What the loop over the lines reads. -/
structure ImportContext where
  existing : List Domain
  defaultId : Option GroupId
  lifecycle : Lifecycle
  note : Option Text
  createdBy : Option Text

theorem domains_ensureGroup (name : Text) (parentId : Option GroupId) (portfolio : Portfolio) :
    (ensureGroup name parentId portfolio).1.domains = portfolio.domains := by
  unfold ensureGroup
  split
  · rfl
  · split <;> rfl

theorem domains_ensureParts (parts : List Text) (parent : Option GroupId) (portfolio : Portfolio) :
    (ensureParts parts parent portfolio).1.domains = portfolio.domains := by
  induction parts generalizing parent portfolio with
  | nil => rfl
  | cons part parts induction =>
      have first := domains_ensureGroup part parent portfolio
      unfold ensureParts
      split <;> rename_i equal <;> rw [equal] at first
      · exact first
      · rw [induction, first]

theorem domains_ensurePath (path : Text) (portfolio : Portfolio) :
    (ensurePath path portfolio).1.domains = portfolio.domains := by
  unfold ensurePath
  split
  · rfl
  · exact domains_ensureParts _ _ _

/-- `ensure_path` on the books: the domains stay. -/
def Books.ensurePath (books : Books) (path : Text) : Books × Except Text (Option GroupId) :=
  let result := DomainPortfolio.ensurePath path books.portfolio
  (books.replace result.1 (by rw [domains_ensurePath]) (by rw [domains_ensurePath]), result.2)

def targetOf (defaultId named current : Option GroupId) : Option GroupId :=
  named.or (if current = none then defaultId else none)

/-- A line once the unit of its path is known. -/
def importNamed (context : ImportContext) (domain : Text) (named : Option GroupId) (books : Books)
    (tally : Tally) : Except ImportFailure (Books × Tally) :=
  match context.existing.find? fun row => row.domain = domain with
  | none =>
      let unit := named.or context.defaultId
      match fresh : books.find domain with
      | some _ => .error .integrity
      | none =>
          .ok (books.insert domain unit context.lifecycle context.note context.createdBy fresh,
            { tally with
              added := tally.added ++ [domain]
              addedUnits := assignKey domain unit tally.addedUnits })
  | some row =>
      let tally :=
        if named = none ∧ context.defaultId ≠ none ∧ row.groupId ≠ none ∧
            row.groupId ≠ context.defaultId then
          { tally with stayed := tally.stayed ++ [domain] }
        else tally
      match targetOf context.defaultId named row.groupId with
      | none => .ok (books, tally)
      | some target =>
          if row.groupId = some target then .ok (books, tally)
          else
            .ok (books.update row.id (Setting.unit (some target)).apply
                (Setting.unit (some target)).apply_keeps,
              { tally with
                moved := tally.moved ++ [domain]
                unitMoves := assignKey domain (row.groupId, target) tally.unitMoves })

/-- The body of the loop over the lines, with what is stored where it fails. -/
def importEntry (context : ImportContext) (entry : Entry) (books : Books) (tally : Tally) :
    Books × Except ImportFailure Tally :=
  match entry.group.filter (· ≠ []) with
  | none =>
      match importNamed context entry.domain none books tally with
      | .ok (books, tally) => (books, .ok tally)
      | .error failure => (books, .error failure)
  | some path =>
      match books.ensurePath path with
      | (books, .error problem) => (books, .error (.value problem))
      | (books, .ok named) =>
          match importNamed context entry.domain named books tally with
          | .ok (books, tally) => (books, .ok tally)
          | .error failure => (books, .error failure)

def importEntries (context : ImportContext) : List Entry → Books → Tally →
    Books × Except ImportFailure Tally
  | [], books, tally => (books, .ok tally)
  | entry :: entries, books, tally =>
      match importEntry context entry books tally with
      | (books, .ok tally) => importEntries context entries books tally
      | (books, .error failure) => (books, .error failure)

/-! ## The import -/

/-- The answer of `import_domains`. -/
structure ImportReport where
  added : List Text
  moved : List Text
  updated : List Text
  unchanged : List Text
  changes : List Change
  stayed : List (Text × Option Text)
  defaultUnit : Option Text
  extras : ExtrasReport

/-- The decision for the domains that are new. -/
def initialLifecycle (given : Option Text) : Option Lifecycle :=
  match given.filter (· ≠ []) with
  | none => some defaultLifecycle
  | some given => Books.lifecycleOf given

/-- What `import_domains` checks before it writes. -/
def importProblem (entries : List Entry) (options : ImportOptions) (books : Books) : Option Text :=
  let existing := books.portfolio.domains
  let new := entries.filter fun entry => !existing.any fun row => row.domain = entry.domain
  if options.defaultGroupId.any fun id => !books.hasGroup id then some "Unknown unit".toList
  else if initialLifecycle options.defaultLifecycle = none then some "Unknown decision".toList
  else if maxDomains < existing.length + new.length then
    some ("At most 2000 domains in the portfolio (".toList ++ strOf existing.length ++
      " now, ".toList ++ strOf new.length ++ " new in this import)".toList)
  else none

/-- The default unit, created where it is given by its path. -/
def defaultUnit (options : ImportOptions) (books : Books) : Books × Except Text (Option GroupId) :=
  match options.defaultGroupId, options.defaultGroup.filter (· ≠ []) with
  | some id, _ => (books, .ok (some id))
  | none, some path => books.ensurePath path
  | none, none => (books, .ok none)

def Tally.record (tally : Tally) (paths : List (GroupId × Text)) (lifecycle : Lifecycle)
    (books : Books) : Books :=
  let books := tally.added.foldl (fun books domain =>
    books.record (recordAdded domain ((tally.addedUnits.lookup domain).join) paths lifecycle)) books
  tally.unitMoves.foldl (fun books move =>
    books.record (recordUnit move.1 move.2.1 (some move.2.2) paths)) books

def reportOf (entries : List Entry) (existing : List Domain) (paths : List (GroupId × Text))
    (defaultId : Option GroupId) (tally : Tally) (extras : ExtrasReport) : ImportReport :=
  let order (domain : Text) := (entries.zipIdx.foldl (fun last line =>
    if line.1.domain = domain then line.2 else last) 0)
  let unitChanges := tally.unitMoves.map fun move : Text × Option GroupId × GroupId =>
    { domain := move.1
      field := Field.unit
      was := move.2.1.bind fun id => paths.lookup id
      now := paths.lookup move.2.2 : Change }
  let changes := (unitChanges ++ extras.changes).insertionSort fun left right =>
    order left.domain < order right.domain ∨
      order left.domain = order right.domain ∧ left.field.place ≤ right.field.place
  let touched (domain : Text) := changes.any fun change => change.domain = domain
  let stored := entries.filter fun entry => existing.any fun row => row.domain = entry.domain
  { added := tally.added
    moved := tally.moved
    updated := (stored.filter fun entry => touched entry.domain).map Entry.domain
    unchanged := (stored.filter fun entry => !touched entry.domain).map Entry.domain
    changes
    stayed := tally.stayed.map fun domain =>
      (domain, ((existing.find? fun row => row.domain = domain).bind Domain.groupId).bind fun id =>
        paths.lookup id)
    defaultUnit := defaultId.bind fun id => paths.lookup id
    extras }

/-- `import_domains`, with what is stored where it fails. -/
def importDomains (accounts : List Account) (entries : List Entry) (options : ImportOptions)
    (extras : Extras) (books : Books) : Books × Except ImportFailure ImportReport :=
  match importProblem entries options books with
  | some problem => (books, .error (.value problem))
  | none =>
      match defaultUnit options books with
      | (started, .error problem) => (started, .error (.value problem))
      | (started, .ok defaultId) =>
          let lifecycle := (initialLifecycle options.defaultLifecycle).getD defaultLifecycle
          let context : ImportContext :=
            { existing := books.portfolio.domains
              defaultId
              lifecycle
              note := orNone ((joinWords (split (options.note.getD []))).take 200)
              createdBy := options.createdBy }
          match importEntries context entries started Tally.empty with
          | (broken, .error failure) => (broken, .error failure)
          | (written, .ok tally) =>
              let paths := written.paths
              let logged := tally.record paths lifecycle written
              let (final, report) := applyExtras accounts extras tally.added options.labels logged
              (final, .ok (reportOf entries books.portfolio.domains paths defaultId tally report))

end DomainPortfolio
end DomainLens
