import DomainLens.DomainPortfolio.Import
import DomainLens.DomainPortfolio.Hostnames
import DomainLens.DomainPortfolio.Registry
import DomainLens.Library.Csv

/-!
# The export of the portfolio

The list of all domains as the overview shows it, and its rows in a file: what the registry answered,
and the unit, the decision, the threat intelligence and the contact of each domain.
-/

namespace DomainLens
namespace DomainPortfolio

open Python

/-! ## What a domain is shown with -/

/-- Whether a domain is at the registrar its unit expects. -/
inductive Transfer where
  | ok
  | move
  | unmeasured
  | notApplicable
deriving DecidableEq

/-- `transfer_state`. -/
def transferState (answers : Registry.Row) (group : Option Listed) : Transfer :=
  let wanted := (group.bind Listed.effectiveRegistrar).getD []
  let expected := ((wanted.splitOn ',').filter fun part => strip part ≠ []).map fun part =>
    lower (strip part)
  if expected = [] then .notApplicable
  else if answers.phase = none ∨ answers.phase = some .notRegistered ∨
      truthyText answers.registrar = none then .unmeasured
  else
    let names := lower (answers.registrar.getD [] ++ ' ' :: answers.reseller.getD [])
    if expected.any fun name => name <:+: names then .ok else .move

inductive Expiry where
  | known (days : Option Int)
  | notPublished
  | unmeasured
deriving DecidableEq

/-- `_NO_EXPIRY_TLDS`. -/
def noExpiryTlds : List Text := ["nl", "be", "de", "eu", "at"].map String.toList

/-- `expiry_state`. -/
def expiryState (domain : Text) (answers : Registry.Row) (today : Int) : Expiry :=
  if truthyText answers.expires ≠ none then .known (Registry.daysLeft answers.expires today)
  else if (labelsOf domain).getLast?.any (· ∈ noExpiryTlds) ∧ answers.phase ≠ none then .notPublished
  else .unmeasured

inductive Usage where
  | inUse
  | unused
  | unmeasured
deriving DecidableEq

/-- `usage_state`. -/
def usageState (answers : Registry.Row) : Usage :=
  if answers.usesMail = some true ∨ answers.usesWeb = some true then .inUse
  else if answers.usesMail = some false ∧ answers.usesWeb = some false then .unused
  else .unmeasured

/-- Whether a domain has threat intelligence, or misses it. -/
inductive IntelState where
  | enrolled
  | missing
  | notNeeded
  | unmeasured
deriving DecidableEq

/-- `threat_intel_state`. -/
def threatIntelState (row : Domain) (answers : Registry.Row) : IntelState :=
  if row.threatIntel then .enrolled
  else if !row.lifecycle.held then .notNeeded
  else
    match usageState answers with
    | .inUse => .missing
    | .unused => .notNeeded
    | .unmeasured => .unmeasured

/-- A domain of the overview, as far as it is exported. -/
structure Shown where
  domain : Text
  unit : Option Text
  lifecycle : Lifecycle
  answers : Registry.Row
  transfer : Transfer
  expiry : Expiry
  threatIntel : IntelState
  contact : Option Person
  contactInherited : Bool

def personOf (people : List Person) (id : ContactId) : Option Person :=
  people.find? fun person => person.id = id

/-- The unit of a domain, where it is listed. -/
def groupOf (listed : List Listed) (row : Domain) : Option Listed :=
  listed.find? fun listed => some listed.group.id = row.groupId

/-- `_enrich`, as far as it is exported; the registry's answers have the domain's name and decision. -/
def enrich (listed : List Listed) (people : List Person) (today : Int) (answers : Registry.Row)
    (row : Domain) : Shown :=
  let group := groupOf listed row
  let own := (truthyNumber row.contactId).bind (personOf people)
  let contact := own.or ((group.bind Listed.contact).bind (personOf people))
  { domain := row.domain
    unit := group.map fun listed => pathText listed.path
    lifecycle := row.lifecycle
    answers
    transfer := if row.lifecycle.held then transferState answers group else .notApplicable
    expiry := expiryState row.domain answers today
    threatIntel := threatIntelState row answers
    contact
    contactInherited := contact.isSome && own.isNone }

def byName (domains : List Domain) : List Domain :=
  domains.insertionSort fun left right => left.domain ≤ right.domain

/-- `list_all`, each domain with what the registry answered of it. -/
def listAll (accounts : List Account) (answers : Text → Registry.Row) (today : Int) (books : Books) :
    List Shown :=
  (byName books.portfolio.domains).map fun row =>
    enrich (listGroups books.people books.portfolio.groups) (books.book.listContacts accounts) today
      (answers row.domain) row

/-! ## Its row in the file -/

/-- `_csv_safe`: a cell that a spreadsheet would run as a formula is quoted. -/
def csvSafe (text : Text) : Text :=
  if text.head?.any (· ∈ ['=', '+', '-', '@', '\t', '\r']) then '\'' :: text else text

def lifecycleName : Lifecycle → Text
  | .keep => "keep".toList
  | .review => "review".toList
  | .cancel => "cancel".toList
  | .claim => "claim".toList

def phaseName : Option Registry.Phase → Text
  | some .registered => "registered".toList
  | some .quarantine => "quarantine".toList
  | some .pendingDelete => "pending_delete".toList
  | some .redemption => "redemption".toList
  | some .notInDns => "not_in_dns".toList
  | some .notRegistered => "not_registered".toList
  | none => "unmeasured".toList

def Transfer.name : Transfer → Text
  | .ok => "ok".toList
  | .move => "move".toList
  | .unmeasured => "unmeasured".toList
  | .notApplicable => "not_applicable".toList

def IntelState.name : IntelState → Text
  | .enrolled => "enrolled".toList
  | .missing => "missing".toList
  | .notNeeded => "not_needed".toList
  | .unmeasured => "unmeasured".toList

/-- The stored name of an answer that is yes or no. -/
def yesNo : Option Bool → Text
  | some true => "yes".toList
  | some false => "no".toList
  | none => []

/-- The stored name of the state of the name servers. -/
def dnsName : Option Registry.DnsState → Text
  | some .ok => "ok".toList
  | some .noAnswer => "no_answer".toList
  | none => []

/-- The days an expiry is away.  `str(0 or "")` is empty. -/
def daysText : Expiry → Text
  | .known (some days) =>
      if days = 0 then [] else if days < 0 then '-' :: strOf days.natAbs else strOf days.natAbs
  | _ => []

/-- `CSV_COLUMNS`. -/
def csvColumns : List Text :=
  ["domain", "unit", "phase", "registrar", "reseller", "transfer", "expires", "days_left",
    "registered_on", "dnssec", "nameservers", "status", "last_checked_at", "last_error", "decision",
    "threat_intel", "mail", "web", "contact", "contact_email", "contact_from", "dns"].map
      String.toList

/-- The cells of a domain; `stamp` is `isoformat` of a time. -/
def exportCells (stamp : Registry.Time → Text) (shown : Shown) : List Text :=
  let answers := shown.answers
  let expires := (truthyText answers.expires).getD
    (if shown.expiry = .notPublished then "not published".toList else [])
  [shown.domain, shown.unit.getD [], phaseName answers.phase, answers.registrar.getD [],
    answers.reseller.getD [], shown.transfer.name, expires, daysText shown.expiry,
    answers.registeredOn.getD [], yesNo answers.dnssec,
    joinWords (split (answers.nameservers.getD [])), "; ".toList.intercalate answers.status,
    (answers.lastCheckedAt.map stamp).getD [], answers.lastError.getD [],
    lifecycleName shown.lifecycle, shown.threatIntel.name, yesNo answers.usesMail,
    yesNo answers.usesWeb, (shown.contact.map Person.name).getD [],
    (shown.contact.bind Person.email).getD [],
    (if shown.contact = none then [] else if shown.contactInherited then "unit".toList
      else "domain".toList),
    dnsName answers.dnsState].map csvSafe

/-- What `csv.writer` and `csv.reader` separate fields with, unless they are told otherwise. -/
def excel : Dialect Char where
  delimiter := ','
  quote := '"'
  special := ['\r', '\n']
  apart := by decide

/-- `to_csv`. -/
def toCsv (stamp : Registry.Time → Text) (domains : List Shown) : Text :=
  (csvColumns :: domains.map (exportCells stamp)).flatMap fun row => excel.write row ++ ['\r', '\n']

end DomainPortfolio
end DomainLens
