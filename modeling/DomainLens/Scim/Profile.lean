import DomainLens.Python.CaseMapping
import DomainLens.Python.Json
import Mathlib

/-!
# The profile of a provisioned user

What a directory sends about a user is read from the core attributes, the enterprise extension, the
aliases of both and an extension of its own, into one column for each attribute; what is left over
is kept as it came.
-/

namespace DomainLens
namespace Scim

open Python

/-! ## Columns -/

inductive Field where
  | department
  | companyName
  | jobTitle
  | officeLocation
  | employeeNumber
  | costCenter
  | division
  | organization
  | managerExternalId
  | managerDisplayName
  | phoneNumber
  | mobileNumber
  | preferredLanguage
  | streetAddress
  | city
  | state
  | postalCode
  | country
deriving DecidableEq

abbrev Profile := Field → Option Text

/-- The columns a request sets, some of them to nothing. -/
abbrev Updates := Field → Option (Option Text)

def Updates.none : Updates := fun _ => Option.none

def Updates.set (updates : Updates) (field : Field) (value : Option Text) : Updates :=
  Function.update updates field (some value)

/-- `_LOGICAL_ATTR_MAP`. -/
def logicalAttributes : List (Text × Field) :=
  [("department".toList, .department), ("companyname".toList, .companyName),
    ("company".toList, .companyName), ("organization".toList, .organization),
    ("division".toList, .division), ("costcenter".toList, .costCenter),
    ("employeenumber".toList, .employeeNumber), ("employeeid".toList, .employeeNumber),
    ("jobtitle".toList, .jobTitle), ("title".toList, .jobTitle),
    ("office".toList, .officeLocation), ("officelocation".toList, .officeLocation),
    ("physicaldeliveryofficename".toList, .officeLocation),
    ("telephonenumber".toList, .phoneNumber), ("phone".toList, .phoneNumber),
    ("phonenumber".toList, .phoneNumber), ("mobile".toList, .mobileNumber),
    ("mobilenumber".toList, .mobileNumber), ("preferredlanguage".toList, .preferredLanguage),
    ("streetaddress".toList, .streetAddress), ("city".toList, .city), ("locality".toList, .city),
    ("state".toList, .state), ("region".toList, .state), ("postalcode".toList, .postalCode),
    ("country".toList, .country)]

def enterpriseSchema : String := "urn:ietf:params:scim:schemas:extension:enterprise:2.0:User"

def domainlensSchema : String := "urn:ietf:params:scim:schemas:extension:domainlens:2.0:User"

def coreSchema : String := "urn:ietf:params:scim:schemas:core:2.0:User"

/-! ## Reading -/

variable (render : Json → Text)

/-- A text without its blanks, unless nothing is left. -/
def blankToNone (text : Text) : Option Text := if strip text = [] then none else some (strip text)

/-- An attribute name without blanks and underscores, in lower case. -/
def normalizeKey (key : Text) : Text := lower (key.filter fun char => char ≠ ' ' ∧ char ≠ '_')

def logicalField (key : Text) : Option Field := logicalAttributes.lookup (normalizeKey key)

/-- `_set_logical`. -/
def setLogical (key : Text) (value : Json) (updates : Updates) : Updates :=
  match logicalField key with
  | none => updates
  | some field =>
      updates.set field (match value with
        | .null => none
        | .str text => blankToNone text
        | other => some (strip (other.shown render)))

/-- `_manager_fields`: the id and the name. -/
def managerFields (raw : Json) : Option Text × Option Text :=
  match raw with
  | .str text => (blankToNone text, none)
  | .obj entries =>
      let empty := Json.str []
      let value := (((getItem entries "value").or (getItem entries "managerId")).or
        (getItem entries "objectId")).or ((getItem entries "id").or empty)
      let display := (getItem entries "displayName").or ((getItem entries "display").or empty)
      (blankToNone (value.shown render), blankToNone (display.shown render))
  | _ => (none, none)

def setManager (raw : Json) (updates : Updates) : Updates :=
  (updates.set .managerExternalId (managerFields render raw).1).set .managerDisplayName
    (managerFields render raw).2

/-- The extension of that name, where it is an object. -/
def blockOf (payload : Entries) (schema : String) : Entries := (getItem payload schema).entries

def enterpriseFields : List (String × Field) :=
  [("department", .department), ("organization", .organization), ("division", .division),
    ("costCenter", .costCenter), ("employeeNumber", .employeeNumber)]

def readEnterprise (enterprise : Entries) (updates : Updates) : Updates :=
  let updates := enterpriseFields.foldl (fun updates entry =>
    if hasKey enterprise entry.1 then
      updates.set entry.2 (match getItem enterprise entry.1 with
        | .null => none
        | value => blankToNone (value.shown render))
    else updates) updates
  if hasKey enterprise "manager" then setManager render (getItem enterprise "manager") updates else updates

def aliasKeys : List String :=
  ["department", "companyName", "company", "organization", "division", "costCenter",
    "employeeNumber", "employeeId", "jobTitle", "title", "officeLocation",
    "physicalDeliveryOfficeName", "preferredLanguage"]

/-- The aliases at the top level, the manager and the title. -/
def readAliases (payload : Entries) (updates : Updates) : Updates :=
  let updates := aliasKeys.foldl (fun updates key =>
    if hasKey payload key then setLogical render key.toList (getItem payload key) updates
    else updates) updates
  let updates := if hasKey payload "manager" ∧ updates .managerExternalId = none then
    setManager render (getItem payload "manager") updates else updates
  if (getItem payload "title").truthy ∧ updates .jobTitle = none then
    setLogical render "title".toList (getItem payload "title") updates
  else updates

/-- One telephone number; the method of its type raises for anything but a text. -/
def readPhone (updates : Updates) (phone : Json) : Option Updates :=
  let entries := phone.entries
  if !phone.isObject ∨ !(getItem entries "value").truthy then some updates
  else do
    let type ← ((getItem entries "type").or (.str "work".toList)).text?
    let number := some (strip ((getItem entries "value").shown render))
    if lower type ∈ ["mobile".toList, "cell".toList] then return updates.set .mobileNumber number
    else if updates .phoneNumber = none ∨ lower type ∈ ["work".toList, "phone".toList] then
      return updates.set .phoneNumber number
    else return updates

def readPhones (payload : Entries) (updates : Updates) : Option Updates :=
  match getItem payload "phoneNumbers" with
  | .arr phones => phones.foldlM (readPhone render) updates
  | _ => some updates

def addressFields : List (String × Field) :=
  [("streetAddress", .streetAddress), ("locality", .city), ("region", .state),
    ("postalCode", .postalCode), ("country", .country)]

/-- The primary address, or else the first one. -/
def addressOf (addresses : List Json) : Entries :=
  let objects := addresses.filter Json.isObject
  ((objects.find? fun address => (getItem address.entries "primary").truthy).or objects.head?).elim []
    Json.entries

def readAddresses (payload : Entries) (updates : Updates) : Updates :=
  match getItem payload "addresses" with
  | .arr addresses =>
      addressFields.foldl (fun updates entry =>
        let value := getItem (addressOf addresses) entry.1
        if value.truthy then updates.set entry.2 (some (strip (value.shown render)))
        else updates) updates
  | _ => updates

def readLanguage (payload : Entries) (updates : Updates) : Updates :=
  let language := getItem payload "preferredLanguage"
  if language.truthy then updates.set .preferredLanguage (some (strip (language.shown render)))
  else updates

/-- A value that is set, and not to an empty text. -/
def isSet (updates : Updates) (field : Field) : Bool :=
  (((updates field).getD none).filter (· ≠ [])).isSome

/-- The company name stands in for a missing organization, and the other way round. -/
def mirror (updates : Updates) : Updates :=
  let updates := if isSet updates .companyName ∧ !isSet updates .organization then
    updates.set .organization ((updates .companyName).getD none) else updates
  if isSet updates .organization ∧ !isSet updates .companyName then
    updates.set .companyName ((updates .organization).getD none)
  else updates

/-- A key of the DomainLens extension that is not an attribute of its own. -/
def isExtra (key : String) : Bool :=
  (logicalField key.toList).isNone && key != "manager"

/-- One entry of the DomainLens extension; those that are no attribute are collected. -/
def readDomainlens (state : Updates × Entries) (entry : String × Json) : Updates × Entries :=
  if isExtra entry.1 then (state.1, setItem entry.1 entry.2 state.2)
  else if lower entry.1.toList = "manager".toList ∨
      normalizeKey entry.1.toList = "manager".toList then
    (setManager render entry.2 state.1, state.2)
  else (setLogical render entry.1.toList entry.2 state.1, state.2)

/-- `profile_from_scim_payload`: the columns, and what is left over. -/
def profileFromScimPayload (payload : Entries) : Option (Updates × Entries) := do
  let updates := readAliases render payload
    (readEnterprise render (blockOf payload enterpriseSchema) Updates.none)
  let updates ← readPhones render payload updates
  let updates := mirror (readLanguage render payload (readAddresses render payload updates))
  let (updates, extra) :=
    (blockOf payload domainlensSchema).foldl (readDomainlens render) (updates, [])
  let updates := if hasKey payload "CompanyName" then
    setLogical render "companyName".toList (getItem payload "CompanyName") updates else updates
  return (updates, extra)

end Scim
end DomainLens
