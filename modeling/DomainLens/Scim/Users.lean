import DomainLens.Scim.Profile

/-!
# Users a directory provisions

A directory creates a user, replaces it or patches it; each request is read into columns, and the
store cleans what it writes.  A user is shown to the directory as a document of the same form.
-/

namespace DomainLens
namespace Scim

open Python

/-! ## Rows -/

/-- A row of `users`; `rest` are the columns a directory never sets. -/
structure User (Rest : Type) where
  id : Nat
  email : Text
  name : Text
  role : Text
  enabled : Bool
  provider : Text
  externalId : Option Text
  userName : Text
  profile : Profile
  scimProfile : Entries
  createdAt : Text
  updatedAt : Text
  rest : Rest

/-- The columns a request changes; one that is missing keeps its value. -/
structure Changes where
  email : Option Text
  name : Option Text
  role : Option Text
  enabled : Option Bool
  provider : Option Text
  externalId : Option (Option Text)
  userName : Option Text
  profile : Updates
  scimProfile : Option Entries

def Changes.none : Changes where
  email := Option.none
  name := Option.none
  role := Option.none
  enabled := Option.none
  provider := Option.none
  externalId := Option.none
  userName := Option.none
  profile := Updates.none
  scimProfile := Option.none

variable {Rest : Type} (render : Json → Text)

/-- How the store cleans a value of a profile column. -/
def cleanValue (value : Option Text) : Option Text := value.bind blankToNone

/-- How the store cleans a text that may be missing. -/
def cleanText (text : Text) : Text := lower (strip text)

/-- `update_user`. -/
def updateUser (user : User Rest) (changes : Changes) (now : Text) : User Rest :=
  { user with
    email := (changes.email.map cleanText).getD user.email
    name := changes.name.getD user.name
    role := changes.role.getD user.role
    enabled := changes.enabled.getD user.enabled
    provider := (changes.provider.map cleanText).getD user.provider
    externalId := (changes.externalId.map cleanValue).getD user.externalId
    userName := changes.userName.getD user.userName
    profile := fun field => ((changes.profile field).map cleanValue).getD (user.profile field)
    scimProfile := changes.scimProfile.getD user.scimProfile
    updatedAt := now }

/-- The part of a text before its first `@`. -/
def localPart (text : Text) : Text := text.takeWhile (· ≠ '@')

/-- `create_user`, without a password. -/
def createUser (id : Nat) (email name role : Text) (enabled : Bool) (externalId : Option Text)
    (userName : Text) (profile : Updates) (scimProfile : Entries) (now : Text) (rest : Rest) :
    User Rest :=
  { id := id
    email := cleanText email
    name := if name = [] then localPart (cleanText email) else name
    role := role
    enabled := enabled
    provider := "scim".toList
    externalId := cleanValue externalId
    userName := strip (if userName = [] then cleanText email else userName)
    profile := fun field => (profile field).bind cleanValue
    scimProfile := scimProfile
    createdAt := now
    updatedAt := now
    rest := rest }

/-! ## What a payload says -/

/-- The text of `value or default`, whose methods raise for anything but a text. -/
def textOr (value : Json) (default : Text) : Option Text := (value.or (.str default)).text?

def nonempty (text : Text) : Option Text := if text = [] then none else some text

/-- The name a `name` object gives, if it gives one. -/
def structuredName (name : Json) : Option (Option Text) :=
  match name with
  | .obj entries => do
      let formatted ← textOr (getItem entries "formatted") []
      if strip formatted ≠ [] then return some (strip formatted)
      else do
        let given ← textOr (getItem entries "givenName") []
        let family ← textOr (getItem entries "familyName") []
        return nonempty (strip (strip given ++ ' ' :: strip family))
  | _ => some none

/-- `_display_name`. -/
def displayName (payload : Entries) : Option Text := do
  match ← structuredName (getItem payload "name") with
  | some name => return name
  | none => do
      let display ← textOr (getItem payload "displayName") []
      if strip display ≠ [] then return strip display
      else (textOr (getItem payload "userName") "user".toList).map localPart

/-- `_primary_email`. -/
def primaryEmail (payload : Entries) (userName : Text) : Text :=
  let valued := match getItem payload "emails" with
    | .arr emails => (emails.map Json.entries).filter fun email => (getItem email "value").truthy
    | _ => []
  match (valued.find? fun email => (getItem email "primary").truthy).or valued.head? with
  | some email => cleanText ((getItem email "value").shown render)
  | none => cleanText userName

def roleNames : List Text := ["viewer".toList, "user".toList, "admin".toList]

/-- `roles.normalize`. -/
def normalizeRole (value : Text) : Text :=
  let name := lower (strip value)
  let name := if name = "analyst".toList then "user".toList else name
  if name ∈ roleNames then name else "user".toList

/-- What a role of the payload is called, in lower case. -/
def roleValue (item : Json) : Text :=
  match item with
  | .obj entries =>
      lower ((((getItem entries "value").or (getItem entries "display")).or (.str [])).shown render)
  | other => lower (other.shown render)

/-- `_role_from_payload`. -/
def roleFromPayload (payload : Entries) (defaultRole : Text) : Text :=
  let values := match getItem payload "roles" with
    | .arr roles => roles.map (roleValue render)
    | _ => []
  let found := values.map strip
  if values.any fun value => "admin".toList <:+: value then "admin".toList
  else if "user".toList ∈ found ∨ found.any fun value => "analyst".toList <:+: value then
    "user".toList
  else if found.any fun value =>
      ["viewer".toList, "read-only".toList, "readonly".toList, "read only".toList].any
        fun marker => marker <:+: value then
    "viewer".toList
  else normalizeRole defaultRole

/-- The body of a request: an object, or an empty one where there is nothing. -/
def payloadOf (body : Json) : Option Entries :=
  match body with
  | .obj entries => some entries
  | other => if other.truthy then none else some []

/-! ## Requests -/

/-- The row `scim_create_user` stores, unless it refuses; `id`, clock and the other columns are
given. -/
def scimCreateUser (body : Json) (defaultRole : Text) (id : Nat) (now : Text) (rest : Rest) :
    Option (User Rest) := do
  let payload ← payloadOf body
  let userName ← (textOr (getItem payload "userName") []).map strip
  let email := primaryEmail render payload userName
  if userName = [] ∨ '@' ∉ email then none
  else do
    let external ← textOr (getItem payload "externalId") []
    let active := if hasKey payload "active" then (getItem payload "active").truthy else true
    let (profile, extra) ← profileFromScimPayload render payload
    let name ← displayName payload
    return createUser id email name (roleFromPayload render payload (normalizeRole defaultRole))
      active (blankToNone external) userName profile extra now rest

/-- What `scim_replace_user` changes. -/
def replacement (user : User Rest) (payload : Entries) (defaultRole : Text) : Option Changes := do
  let userName ← ((((getItem payload "userName").or (.str user.userName)).or
    (.str user.email)).text?).map strip
  let email := primaryEmail render payload userName
  let name ← displayName payload
  let (profile, extra) ← profileFromScimPayload render payload
  return {
    email := some (if email = [] then user.email else email)
    name := some name
    role := some (roleFromPayload render payload
      (if user.role = [] then normalizeRole defaultRole else user.role))
    enabled := some
      (if hasKey payload "active" then (getItem payload "active").truthy else true)
    provider := some (if user.provider = [] then "scim".toList else user.provider)
    externalId := if hasKey payload "externalId" then
      some (blankToNone (((getItem payload "externalId").or (.str [])).shown render)) else none
    userName := some userName
    profile := profile
    scimProfile := if extra = [] then none else some (updateItems user.scimProfile extra) }

/-- `scim_replace_user`. -/
def scimReplaceUser (user : User Rest) (body : Json) (defaultRole now : Text) :
    Option (User Rest) := do
  let payload ← payloadOf body
  let changes ← replacement render user payload defaultRole
  return updateUser user changes now

/-! ## Patches -/

def afterColon (text : Text) : Text :=
  if ':' ∈ text then (text.dropWhile (· ≠ ':')).tail else text

/-- A path without the name of an extension, as it is and in lower case. -/
def patchPath (path : Text) : Text × Text :=
  [enterpriseSchema, domainlensSchema].foldl (fun paths schema =>
    let front := lower schema.toList ++ [':']
    if front.isPrefixOf paths.2 then (afterColon paths.1, paths.2.drop front.length) else paths)
    (path, lower path)

/-- What one request sets wins over what was set before. -/
def Updates.after (later earlier : Updates) : Updates := fun field =>
  (later field).or (earlier field)

def setUserName (value : Json) (changes : Changes) : Changes :=
  if value.truthy then
    { changes with
      userName := some (strip (value.shown render))
      email := if '@' ∈ value.shown render then some (cleanText (value.shown render))
        else changes.email }
  else changes

def setEmail (value : Json) (changes : Changes) : Changes :=
  if value.truthy then { changes with email := some (cleanText (value.shown render)) } else changes

/-- The first address of a list of e-mail addresses. -/
def firstEmail (emails : Json) : Json :=
  match emails with
  | .arr (.obj entries :: _) => getItem entries "value"
  | .arr (email :: _) => email
  | _ => .null

def patchLogical : List Text :=
  ["department".toList, "companyname".toList, "company".toList, "organization".toList,
    "division".toList, "costcenter".toList, "employeenumber".toList, "employeeid".toList,
    "jobtitle".toList, "title".toList, "officelocation".toList,
    "physicaldeliveryofficename".toList, "preferredlanguage".toList]

/-- The columns a path of `replace` or `add` names itself. -/
def patchNamed (user : User Rest) (path pathL : Text) (value : Json) (changes : Changes) :
    Changes :=
  let entries := value.entries
  let changes := if hasKey entries "active" ∧ (path = [] ∨ pathL = "active".toList) then
      { changes with enabled := some (getItem entries "active").truthy }
    else if pathL = "active".toList then { changes with enabled := some value.truthy }
    else changes
  let changes := if pathL = "username".toList ∨ hasKey entries "userName" then
    setUserName render (if value.isObject then getItem entries "userName" else value) changes
    else changes
  let external := if value.isObject then getItem entries "externalId" else value
  let changes := if pathL = "externalid".toList ∨ hasKey entries "externalId" then
    { changes with
      externalId := some (match external with
        | .null => none
        | other => some (strip (other.shown render))) }
    else changes
  let changes := if pathL = "displayname".toList ∨ pathL = "name.formatted".toList then
    { changes with
      name := some (match value with
        | .null => user.name
        | other => strip (other.shown render)) }
    else changes
  if "emails".toList.isPrefixOf pathL then setEmail render (firstEmail value) changes else changes

/-- The profile columns a path of `replace` or `add` names itself. -/
def patchProfile (pathL : Text) (value : Json) (updates : Updates) : Updates :=
  let updates := if pathL ∈ patchLogical then setLogical render pathL value updates else updates
  let updates := if pathL = "manager".toList ∨ ".manager".toList <:+ pathL then
    setManager render value updates else updates
  let leaf := pathL.drop "manager.".toList.length
  let shown := if value.truthy then some (strip (value.shown render)) else none
  if "manager.".toList.isPrefixOf pathL then
    if leaf ∈ ["value".toList, "managerid".toList, "objectid".toList, "id".toList] then
      updates.set .managerExternalId shown
    else if leaf ∈ ["displayname".toList, "display".toList] then
      updates.set .managerDisplayName shown
    else updates
  else updates

/-- The payload an object without a path is read as. -/
def nestedPayload (value : Entries) : Entries :=
  if hasKey value "userName" ∨ hasKey value "emails" then value
  else
    let enterprise := (value.lookup enterpriseSchema).getD (.obj value)
    updateItems [(enterpriseSchema, enterprise)]
      (["department", "companyName", "manager", "title"].flatMap fun key =>
        optional key (value.lookup key))

/-- What an object given to `replace` or `add` sets. -/
def patchObject (user : User Rest) (value : Entries) (changes : Changes) : Option Changes := do
  let changes := if hasKey value "displayName" then
    { changes with name := some (strip ((getItem value "displayName").shown render)) } else changes
  let changes := setEmail render (firstEmail (getItem value "emails")) changes
  let (profile, extra) ← profileFromScimPayload render (nestedPayload value)
  return { changes with
    profile := profile.after changes.profile
    scimProfile := if extra = [] then changes.scimProfile
      else some (updateItems user.scimProfile extra) }

/-- What `remove` sets. -/
def patchRemove (pathL : Text) (changes : Changes) : Changes :=
  if pathL = "active".toList then { changes with enabled := some false }
  else if (logicalAttributes.lookup pathL).isSome ∨
      pathL.filter (· ≠ '.') ∈
        ["manager".toList, "manager.value".toList, "manager.displayname".toList] then
    if "manager".toList.isPrefixOf pathL then
      { changes with
        profile := (changes.profile.set .managerExternalId none).set .managerDisplayName none }
    else { changes with profile := setLogical render pathL .null changes.profile }
  else changes

/-- One operation of `_apply_patch`. -/
def applyOperation (user : User Rest) (changes : Changes) (operation : Json) : Option Changes := do
  match operation with
  | .obj entries => do
      let kind ← textOr (getItem entries "op") []
      let path ← textOr (getItem entries "path") []
      let value := getItem entries "value"
      let (path, pathL) := patchPath (strip path)
      if lower (strip kind) ∈ ["replace".toList, "add".toList] then
        let changes := patchNamed render user path pathL value changes
        let changes :=
          { changes with profile := patchProfile render pathL value changes.profile }
        match value with
        | .obj value => patchObject render user value changes
        | _ => return changes
      else if lower (strip kind) = "remove".toList then return patchRemove render pathL changes
      else return changes
  | _ => return changes

/-- What a loop over the operations meets; a number cannot be looped over. -/
def operationsOf (payload : Entries) : Option (List Json) :=
  let operations := (getItem payload "Operations").or (getItem payload "operations")
  match operations with
  | .arr operations => some operations
  | .obj _ => some []
  | .str _ => some []
  | other => if other.truthy then none else some []

def allFields : List Field :=
  [.department, .companyName, .jobTitle, .officeLocation, .employeeNumber, .costCenter, .division,
    .organization, .managerExternalId, .managerDisplayName, .phoneNumber, .mobileNumber,
    .preferredLanguage, .streetAddress, .city, .state, .postalCode, .country]

def Changes.isEmpty (changes : Changes) : Bool :=
  changes.email.isNone && changes.name.isNone && changes.role.isNone && changes.enabled.isNone &&
    changes.provider.isNone && changes.externalId.isNone && changes.userName.isNone &&
    changes.scimProfile.isNone && allFields.all fun field => (changes.profile field).isNone

/-- What an object under `value` beside the operations sets. -/
def patchValue (payload : Entries) (changes : Changes) : Option Changes :=
  match getItem payload "value" with
  | .obj value => do
      let (profile, extra) ← profileFromScimPayload render value
      return { changes with
        profile := profile.after changes.profile
        scimProfile := if extra = [] then changes.scimProfile else some extra }
  | _ => some changes

/-- `scim_patch_user`. -/
def scimPatchUser (user : User Rest) (body : Json) (now : Text) : Option (User Rest) := do
  let payload ← payloadOf body
  let operations ← operationsOf payload
  let changes ← operations.foldlM (applyOperation render user) Changes.none
  let changes ← patchValue render payload changes
  let changes :=
    { changes with scimProfile := changes.scimProfile.map (updateItems user.scimProfile) }
  return if changes.isEmpty then user else updateUser user changes now

/-! ## The document of a user -/

/-- A text that is there and not empty. -/
def present (text : Option Text) : Option Text := text.filter (· ≠ [])

def textItem (key : String) (text : Option Text) : Entries :=
  optional key ((present text).map .str)

/-- An object or an array, unless it is empty. -/
def objectItem (key : String) (entries : Entries) : Entries :=
  optional key (if entries = [] then none else some (.obj entries))

def arrayItem (key : String) (items : List Json) : Entries :=
  optional key (if items = [] then none else some (.arr items))

def enterpriseOf (profile : Profile) : Entries :=
  textItem "employeeNumber" (profile .employeeNumber) ++
    textItem "costCenter" (profile .costCenter) ++
    textItem "organization" (profile .organization) ++
    textItem "division" (profile .division) ++
    textItem "department" (profile .department) ++
    objectItem "manager" (textItem "value" (profile .managerExternalId) ++
      textItem "displayName" (profile .managerDisplayName))

/-- A telephone number of the document. -/
def phoneItem (type : String) (primary : Bool) (number : Option Text) : List Json :=
  ((present number).map fun number =>
    Json.obj ([("type", .str type.toList), ("value", .str number)] ++
      if primary then [("primary", .bool true)] else [])).toList

def phonesOf (profile : Profile) : List Json :=
  phoneItem "work" true (profile .phoneNumber) ++ phoneItem "mobile" false (profile .mobileNumber)

def addressesOf (profile : Profile) : List Json :=
  if addressFields.any fun entry => (present (profile entry.2)).isSome then
    [.obj ([("type", .str "work".toList), ("primary", .bool true)] ++
      addressFields.map fun entry => (entry.1, Json.ofOption (profile entry.2)))]
  else []

def domainlensOf (user : User Rest) : Entries :=
  updateItems (textItem "companyName" (user.profile .companyName) ++
    textItem "officeLocation" (user.profile .officeLocation)) user.scimProfile

/-- The schemas of a document, by which extensions it has. -/
def schemasOf (user : User Rest) : List Json :=
  ([coreSchema] ++ (if enterpriseOf user.profile = [] then [] else [enterpriseSchema]) ++
    (if domainlensOf user = [] then [] else [domainlensSchema])).map fun schema => .str schema.toList

/-- `user_to_scim`. -/
def userToScim (user : User Rest) : Entries :=
  let shown := if user.name = [] then user.email else user.name
  [("schemas", .arr (schemasOf user)),
    ("id", .str (strOf user.id)),
    ("externalId", Json.ofOption (present user.externalId)),
    ("userName", .str (if user.userName = [] then user.email else user.userName)),
    ("displayName", .str shown),
    ("name", .obj [("formatted", .str shown)]),
    ("emails", .arr [.obj
      [("value", .str user.email), ("type", .str "work".toList), ("primary", .bool true)]]),
    ("active", .bool user.enabled),
    ("meta", .obj
      [("resourceType", .str "User".toList), ("created", .str user.createdAt),
        ("lastModified", .str user.updatedAt),
        ("location", .str ("/scim/v2/Users/".toList ++ strOf user.id))]),
    ("roles", .arr [.obj
      [("value", .str (if user.role = [] then "user".toList else user.role)),
        ("primary", .bool true)]])] ++
    textItem "title" (user.profile .jobTitle) ++
    textItem "preferredLanguage" (user.profile .preferredLanguage) ++
    arrayItem "phoneNumbers" (phonesOf user.profile) ++
    arrayItem "addresses" (addressesOf user.profile) ++
    textItem "department" (user.profile .department) ++
    textItem "companyName" (user.profile .companyName) ++
    objectItem enterpriseSchema (enterpriseOf user.profile) ++
    objectItem domainlensSchema (domainlensOf user)

end Scim
end DomainLens
