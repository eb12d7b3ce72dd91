import DomainLens.Scim.Users

/-!
# What one operation of a patch may change

A patch is a list of operations, each with a path that names an attribute.  The columns of that
attribute are all that the operation should set, and the last operation on it should decide.
-/

namespace DomainLens
namespace Scim

open Python

variable {Rest : Type} (render : Json → Text)

/-! ## Columns -/

/-- A column that a request can set. -/
inductive Column where
  | email
  | name
  | role
  | enabled
  | provider
  | externalId
  | userName
  | profile (field : Field)
  | leftOver

inductive Cell where
  | text (value : Text)
  | optional (value : Option Text)
  | flag (value : Bool)
  | entries (value : Entries)

/-- What the changes set a column to, if they set it. -/
def Changes.cell (changes : Changes) : Column → Option Cell
  | .email => changes.email.map .text
  | .name => changes.name.map .text
  | .role => changes.role.map .text
  | .enabled => changes.enabled.map .flag
  | .provider => changes.provider.map .text
  | .externalId => changes.externalId.map .optional
  | .userName => changes.userName.map .text
  | .profile field => (changes.profile field).map .optional
  | .leftOver => changes.scimProfile.map .entries

private theorem map_injective {α : Type} {wrap : α → Cell} (injective : Function.Injective wrap)
    {value other : Option α} (same : value.map wrap = other.map wrap) : value = other :=
  Option.map_injective injective same

theorem Changes.eq_of_cell {changes other : Changes}
    (same : ∀ column, changes.cell column = other.cell column) : changes = other := by
  have text : Function.Injective Cell.text := fun _ _ equal => Cell.text.inj equal
  have optional : Function.Injective Cell.optional := fun _ _ equal => Cell.optional.inj equal
  have email := map_injective text (same .email)
  have name := map_injective text (same .name)
  have role := map_injective text (same .role)
  have enabled := map_injective (fun _ _ equal => Cell.flag.inj equal) (same .enabled)
  have provider := map_injective text (same .provider)
  have externalId := map_injective optional (same .externalId)
  have userName := map_injective text (same .userName)
  have profile : changes.profile = other.profile :=
    funext fun field => map_injective optional (same (.profile field))
  have leftOver := map_injective (fun _ _ equal => Cell.entries.inj equal) (same .leftOver)
  cases changes
  cases other
  simp_all only

@[simp] theorem cell_none (column : Column) : Changes.none.cell column = none := by
  cases column <;> rfl

/-! ## Operations -/

inductive Kind where
  | replace
  | remove
  | other
deriving DecidableEq

/-- An operation as it is read: what it does, its path as it is and in lower case, its value. -/
structure Operation where
  kind : Kind
  path : Text
  pathL : Text
  value : Json

def kindOf (kind : Text) : Kind :=
  if lower (strip kind) ∈ ["replace".toList, "add".toList] then .replace
  else if lower (strip kind) = "remove".toList then .remove
  else .other

/-- What is no object does nothing; a kind or a path that is no text raises. -/
def readOperation (operation : Json) : Option Operation :=
  match operation with
  | .obj entries => do
      let kind ← textOr (getItem entries "op") []
      let path ← textOr (getItem entries "path") []
      return {
        kind := kindOf kind
        path := (patchPath (strip path)).1
        pathL := (patchPath (strip path)).2
        value := getItem entries "value" }
  | _ => some { kind := .other, path := [], pathL := [], value := .null }

/-- What is set by `replace` and `add` before the entries of an object are read. -/
def patchPlain (user : User Rest) (operation : Operation) (changes : Changes) : Changes :=
  let changes :=
    patchNamed render user operation.path operation.pathL operation.value changes
  { changes with profile := patchProfile render operation.pathL operation.value changes.profile }

def perform (user : User Rest) (operation : Operation) (changes : Changes) : Option Changes :=
  match operation.kind with
  | .replace =>
      match operation.value with
      | .obj value => patchObject render user value (patchPlain render user operation changes)
      | _ => some (patchPlain render user operation changes)
  | .remove => some (patchRemove render operation.pathL changes)
  | .other => some changes

private theorem perform_kindOf (user : User Rest) (changes : Changes) (kind path pathL : Text)
    (value : Json) :
    perform render user
        { kind := kindOf kind, path := path, pathL := pathL, value := value } changes =
      if lower (strip kind) ∈ ["replace".toList, "add".toList] then
        match value with
        | .obj entries => patchObject render user entries (patchPlain render user
            { kind := kindOf kind, path := path, pathL := pathL, value := value } changes)
        | _ => some (patchPlain render user
            { kind := kindOf kind, path := path, pathL := pathL, value := value } changes)
      else if lower (strip kind) = "remove".toList then some (patchRemove render pathL changes)
      else some changes := by
  by_cases replaces : lower (strip kind) ∈ ["replace".toList, "add".toList]
  · have read : kindOf kind = .replace := if_pos replaces
    rw [if_pos replaces, perform, read]
  · rw [if_neg replaces]
    by_cases removes : lower (strip kind) = "remove".toList
    · have read : kindOf kind = .remove := (if_neg replaces).trans (if_pos removes)
      rw [if_pos removes, perform, read]
    · have read : kindOf kind = .other := (if_neg replaces).trans (if_neg removes)
      rw [if_neg removes, perform, read]

theorem applyOperation_eq (user : User Rest) (changes : Changes) (operation : Json) :
    applyOperation render user changes operation =
      (readOperation operation).bind fun operation => perform render user operation changes := by
  cases operation with
  | obj entries =>
      rw [applyOperation, readOperation]
      cases textOr (getItem entries "op") [] with
      | none => rfl
      | some kind =>
          cases textOr (getItem entries "path") [] with
          | none => rfl
          | some path =>
              refine Eq.trans ?_ (perform_kindOf render user changes kind
                (patchPath (strip path)).1 (patchPath (strip path)).2
                (getItem entries "value")).symm
              rfl
  | _ => rfl

/-- `_apply_patch`. -/
def applyPatch (user : User Rest) (operations : List Json) : Option Changes :=
  operations.foldlM (applyOperation render user) Changes.none

/-! ## What a path names -/

/-- The path of the e-mail addresses, of some of them or of a part of one. -/
def namesEmails (pathL : Text) : Prop :=
  pathL = "emails".toList ∨ "emails[".toList <+: pathL ∨ "emails.".toList <+: pathL

/-- The path of the manager, also behind what qualifies it. -/
def namesManager (pathL : Text) : Prop :=
  pathL = "manager".toList ∨ ".manager".toList <:+ pathL

def managerIdPaths : List Text :=
  ["manager.value".toList, "manager.managerid".toList, "manager.objectid".toList,
    "manager.id".toList]

def managerNamePaths : List Text := ["manager.displayname".toList, "manager.display".toList]

/-- The columns of the attribute a path names: the login is an address too where it has an `@`, and
an unknown attribute has none. -/
def Names (pathL : Text) : Column → Prop
  | .enabled => pathL = "active".toList
  | .userName => pathL = "username".toList
  | .email => pathL = "username".toList ∨ namesEmails pathL
  | .externalId => pathL = "externalid".toList
  | .name => pathL = "displayname".toList ∨ pathL = "name.formatted".toList
  | .profile field => logicalAttributes.lookup pathL = some field ∨
      namesManager pathL ∧ (field = .managerExternalId ∨ field = .managerDisplayName) ∨
      pathL ∈ managerIdPaths ∧ field = .managerExternalId ∨
      pathL ∈ managerNamePaths ∧ field = .managerDisplayName
  | .role => False
  | .provider => False
  | .leftOver => False

def givenUserName (value : Json) : Json :=
  if value.isObject then getItem value.entries "userName" else value

/-- The address an operation on the e-mail addresses gives: the first of a list, the one of an
object, or the text itself. -/
def givenEmail (value : Json) : Json :=
  match value with
  | .arr _ => firstEmail value
  | .obj entries => getItem entries "value"
  | other => other

/-- The operation gives a column a value.  A login and an address cannot be empty; what every user
has is not removed. -/
def Gives (operation : Operation) (column : Column) : Prop :=
  Names operation.pathL column ∧
    match operation.kind, column with
    | .replace, .userName => (givenUserName operation.value).truthy
    | .replace, .email =>
        operation.pathL = "username".toList ∧ (givenUserName operation.value).truthy ∧
            '@' ∈ (givenUserName operation.value).shown render ∨
          namesEmails operation.pathL ∧ (givenEmail operation.value).truthy
    | .replace, _ => True
    | .remove, .enabled => True
    | .remove, .externalId => True
    | .remove, .profile _ => True
    | _, _ => False

/-- The operation is one on the column, or one on the user as a whole. -/
def On (operation : Operation) (column : Column) : Prop :=
  operation.kind ≠ .other ∧ (operation.path = [] ∨ Names operation.pathL column)

/-- In a run of operations each keeps to the columns of its attribute, and the last one on an
attribute decides. -/
structure RunKept (user : User Rest) (run : List Json) : Prop where
  frame : ∀ before item after, run = before ++ item :: after → ∀ operation,
    readOperation item = some operation → operation.path ≠ [] → ∀ earlier later,
    applyPatch render user before = some earlier →
    applyOperation render user earlier item = some later →
    ∀ column, ¬ Names operation.pathL column → later.cell column = earlier.cell column
  unknown : ∀ before item after, run = before ++ item :: after → ∀ operation,
    readOperation item = some operation → operation.path ≠ [] →
    (∀ column, ¬ Names operation.pathL column) → ∀ earlier later,
    applyPatch render user before = some earlier →
    applyOperation render user earlier item = some later → later = earlier
  last : ∀ before item after, run = before ++ item :: after → ∀ operation,
    readOperation item = some operation → operation.path ≠ [] →
    ∀ column, Gives render operation column →
    (∀ next ∈ after, ∀ later, readOperation next = some later → ¬ On later column) →
    ∀ alone final, applyOperation render user Changes.none item = some alone →
    applyPatch render user run = some final →
    (alone.cell column).isSome ∧ final.cell column = alone.cell column

/-! ## When it does -/

/-- All that is read of an object is of the attribute the path names. -/
structure OwnKeys (pathL : Text) (value : Entries) (profile : Updates) (extra : Entries) :
    Prop where
  userName : (getItem value "userName").truthy → Names pathL .userName
  externalId : hasKey value "externalId" → Names pathL .externalId
  name : hasKey value "displayName" → Names pathL .name
  email : (firstEmail (getItem value "emails")).truthy → Names pathL .email
  profile : ∀ field, (profile field).isSome → Names pathL (.profile field)
  leftOver : extra = []

/-- A path the code takes for what it is: no list of addresses under a path that only begins like
that of the addresses, addresses in a list, and no attribute that can only be removed. -/
structure PlainPath (pathL : Text) (value : Json) (profile : Updates) : Prop where
  begins : "emails".toList <+: pathL → (firstEmail value).truthy → Names pathL .email
  listed : namesEmails pathL → (givenEmail value).truthy → (firstEmail value).truthy ∨
    (firstEmail (getItem value.entries "emails")).truthy
  settable : ∀ field, logicalAttributes.lookup pathL = some field →
    pathL ∈ patchLogical ∨ (profile field).isSome

/-- A removal the code understands: of the manager as a whole, or of no part of it and not of the
external id. -/
def PlainRemoval (pathL : Text) : Prop :=
  pathL = "manager".toList ∨
    pathL ≠ "externalid".toList ∧ ¬ namesManager pathL ∧ pathL ∉ managerIdPaths ∧
      pathL ∉ managerNamePaths ∧
      ¬ ("manager".toList <+: pathL ∧ pathL.filter (· ≠ '.') = "manager".toList)

/-- What is read of a value that is an object, and nothing of any other value. -/
def readValue (value : Json) : Option (Updates × Entries) :=
  match value with
  | .obj entries => profileFromScimPayload render (nestedPayload entries)
  | _ => some (Updates.none, [])

/-- An operation the code keeps to its attribute. -/
def Plain (operation : Operation) : Prop :=
  operation.path ≠ [] →
    match operation.kind with
    | .replace => ∀ read, readValue render operation.value = some read →
        OwnKeys operation.pathL operation.value.entries read.1 read.2 ∧
          PlainPath operation.pathL operation.value read.1
    | .remove => PlainRemoval operation.pathL
    | .other => True

/-! ## What is set lies over what was set -/

/-- What one request sets, and for the rest what was set before. -/
def Changes.over (later earlier : Changes) : Changes where
  email := later.email.or earlier.email
  name := later.name.or earlier.name
  role := later.role.or earlier.role
  enabled := later.enabled.or earlier.enabled
  provider := later.provider.or earlier.provider
  externalId := later.externalId.or earlier.externalId
  userName := later.userName.or earlier.userName
  profile := later.profile.after earlier.profile
  scimProfile := later.scimProfile.or earlier.scimProfile

theorem cell_over (later earlier : Changes) (column : Column) :
    (later.over earlier).cell column = (later.cell column).or (earlier.cell column) := by
  cases column <;> exact Option.map_or

private theorem over_assoc (last later earlier : Changes) :
    last.over (later.over earlier) = (last.over later).over earlier := by
  refine Changes.eq_of_cell fun column => ?_
  rw [cell_over, cell_over, cell_over, cell_over, Option.or_assoc]

/-- What a step sets does not depend on what was set before it, and the rest stays. -/
def Overlays (step : Changes → Changes) : Prop :=
  ∀ changes, step changes = (step Changes.none).over changes

private theorem overlays_over (written : Changes) : Overlays fun changes => written.over changes := by
  intro changes
  refine Changes.eq_of_cell fun column => ?_
  rw [cell_over, cell_over, cell_over, cell_none, Option.or_none]

private theorem overlays_self : Overlays fun changes => changes :=
  fun _ => rfl

private theorem Overlays.comp {second first : Changes → Changes} (later : Overlays second)
    (earlier : Overlays first) : Overlays fun changes => second (first changes) := by
  intro changes
  change second (first changes) = (second (first Changes.none)).over changes
  rw [later (first changes), earlier changes, later (first Changes.none), over_assoc]

private theorem Overlays.ite {condition : Prop} [Decidable condition]
    {first second : Changes → Changes} (holds : Overlays first) (fails : Overlays second) :
    Overlays fun changes => if condition then first changes else second changes := by
  by_cases decided : condition
  · simpa only [if_pos decided] using holds
  · simpa only [if_neg decided] using fails

private theorem overlays_setUserName (value : Json) : Overlays (setUserName render value) := by
  refine Overlays.ite ?_ overlays_self
  by_cases address : '@' ∈ value.shown render
  · simp only [if_pos address]
    exact overlays_over { Changes.none with
      userName := some (strip (value.shown render))
      email := some (cleanText (value.shown render)) }
  · simp only [if_neg address]
    exact overlays_over { Changes.none with userName := some (strip (value.shown render)) }

private theorem overlays_setEmail (value : Json) : Overlays (setEmail render value) :=
  Overlays.ite
    (overlays_over { Changes.none with email := some (cleanText (value.shown render)) })
    overlays_self

/-! ## The parts of an operation -/

def enabledPart (path pathL : Text) (value : Json) (changes : Changes) : Changes :=
  if hasKey value.entries "active" ∧ (path = [] ∨ pathL = "active".toList) then
    { changes with enabled := some (getItem value.entries "active").truthy }
  else if pathL = "active".toList then { changes with enabled := some value.truthy }
  else changes

def userNamePart (pathL : Text) (value : Json) (changes : Changes) : Changes :=
  if pathL = "username".toList ∨ hasKey value.entries "userName" then
    setUserName render (givenUserName value) changes
  else changes

def externalIdPart (pathL : Text) (value : Json) (changes : Changes) : Changes :=
  if pathL = "externalid".toList ∨ hasKey value.entries "externalId" then
    { changes with
      externalId := some (match
          (if value.isObject then getItem value.entries "externalId" else value) with
        | .null => none
        | other => some (strip (other.shown render))) }
  else changes

def namePart (user : User Rest) (pathL : Text) (value : Json) (changes : Changes) : Changes :=
  if pathL = "displayname".toList ∨ pathL = "name.formatted".toList then
    { changes with
      name := some (match value with
        | .null => user.name
        | other => strip (other.shown render)) }
  else changes

def emailPart (pathL : Text) (value : Json) (changes : Changes) : Changes :=
  if "emails".toList.isPrefixOf pathL then setEmail render (firstEmail value) changes
  else changes

private theorem patchNamed_eq (user : User Rest) (path pathL : Text) (value : Json)
    (changes : Changes) :
    patchNamed render user path pathL value changes =
      emailPart render pathL value (namePart render user pathL value (externalIdPart render pathL
        value (userNamePart render pathL value (enabledPart path pathL value changes)))) :=
  rfl

private theorem overlays_enabledPart (path pathL : Text) (value : Json) :
    Overlays (enabledPart path pathL value) :=
  Overlays.ite
    (overlays_over { Changes.none with
      enabled := some (getItem value.entries "active").truthy })
    (Overlays.ite (overlays_over { Changes.none with enabled := some value.truthy })
      overlays_self)

private theorem overlays_userNamePart (pathL : Text) (value : Json) :
    Overlays (userNamePart render pathL value) :=
  Overlays.ite (overlays_setUserName render _) overlays_self

private theorem overlays_externalIdPart (pathL : Text) (value : Json) :
    Overlays (externalIdPart render pathL value) :=
  Overlays.ite (overlays_over { Changes.none with externalId := some _ }) overlays_self

private theorem overlays_namePart (user : User Rest) (pathL : Text) (value : Json) :
    Overlays (namePart render user pathL value) :=
  Overlays.ite (overlays_over { Changes.none with name := some _ }) overlays_self

private theorem overlays_emailPart (pathL : Text) (value : Json) :
    Overlays (emailPart render pathL value) :=
  Overlays.ite (overlays_setEmail render _) overlays_self

private theorem overlays_patchNamed (user : User Rest) (path pathL : Text) (value : Json) :
    Overlays (patchNamed render user path pathL value) :=
  (overlays_emailPart render pathL value).comp <|
    (overlays_namePart render user pathL value).comp <|
    (overlays_externalIdPart render pathL value).comp <|
    (overlays_userNamePart render pathL value).comp (overlays_enabledPart path pathL value)

private theorem set_apply (updates : Updates) (field other : Field) (value : Option Text) :
    updates.set field value other = if other = field then some value else updates other := by
  rw [Updates.set, Function.update_apply]

private theorem overlays_set (field : Field) (value : Option Text) :
    Overlays fun changes => { changes with profile := changes.profile.set field value } := by
  intro changes
  refine Changes.eq_of_cell fun column => ?_
  cases column with
  | profile other =>
      change ((changes.profile.set field value) other).map Cell.optional =
        (((Updates.none.set field value).after changes.profile) other).map Cell.optional
      rw [Updates.after, set_apply, set_apply]
      split <;> rfl
  | _ => rfl

private theorem overlays_setLogical (key : Text) (value : Json) :
    Overlays fun changes =>
      { changes with profile := setLogical render key value changes.profile } := by
  cases named : logicalField key with
  | none => simpa only [setLogical, named] using overlays_self
  | some field => simpa only [setLogical, named] using overlays_set field _

private theorem overlays_setManager (value : Json) :
    Overlays fun changes =>
      { changes with profile := setManager render value changes.profile } :=
  (overlays_set .managerDisplayName (managerFields render value).2).comp
    (overlays_set .managerExternalId (managerFields render value).1)

def logicalPart (pathL : Text) (value : Json) (changes : Changes) : Changes :=
  if pathL ∈ patchLogical then
    { changes with profile := setLogical render pathL value changes.profile }
  else changes

def managerPart (pathL : Text) (value : Json) (changes : Changes) : Changes :=
  if pathL = "manager".toList ∨ ".manager".toList <:+ pathL then
    { changes with profile := setManager render value changes.profile }
  else changes

/-- What a part of the manager is set to. -/
def leafShown (value : Json) : Option Text :=
  if value.truthy then some (strip (value.shown render)) else none

def leafPart (pathL : Text) (value : Json) (changes : Changes) : Changes :=
  if "manager.".toList.isPrefixOf pathL then
    if pathL.drop "manager.".toList.length ∈
        ["value".toList, "managerid".toList, "objectid".toList, "id".toList] then
      { changes with
        profile := changes.profile.set .managerExternalId (leafShown render value) }
    else if pathL.drop "manager.".toList.length ∈
        ["displayname".toList, "display".toList] then
      { changes with
        profile := changes.profile.set .managerDisplayName (leafShown render value) }
    else changes
  else changes

private theorem patchProfile_eq (pathL : Text) (value : Json) (changes : Changes) :
    { changes with profile := patchProfile render pathL value changes.profile } =
      leafPart render pathL value
        (managerPart render pathL value (logicalPart render pathL value changes)) := by
  simp only [patchProfile, leafPart, managerPart, logicalPart, leafShown]
  split_ifs <;> rfl

private theorem overlays_patchProfile (pathL : Text) (value : Json) :
    Overlays fun changes =>
      { changes with profile := patchProfile render pathL value changes.profile } := by
  simp only [patchProfile_eq]
  refine @Overlays.comp _ (fun changes =>
    managerPart render pathL value (logicalPart render pathL value changes)) ?_ ?_
  · exact Overlays.ite (Overlays.ite (overlays_set _ _)
      (Overlays.ite (overlays_set _ _) overlays_self)) overlays_self
  · exact (Overlays.ite (overlays_setManager render value) overlays_self).comp
      (Overlays.ite (overlays_setLogical render pathL value) overlays_self)

private theorem overlays_patchPlain (user : User Rest) (operation : Operation) :
    Overlays (patchPlain render user operation) :=
  (overlays_patchProfile render operation.pathL operation.value).comp
    (overlays_patchNamed render user operation.path operation.pathL operation.value)

private theorem overlays_patchRemove (pathL : Text) : Overlays (patchRemove render pathL) :=
  Overlays.ite (overlays_over { Changes.none with enabled := some false })
    (Overlays.ite
      (Overlays.ite
        ((overlays_set .managerDisplayName none).comp (overlays_set .managerExternalId none))
        (overlays_setLogical render pathL .null))
      overlays_self)

/-- What an object sets when it is read so. -/
def objectPart (user : User Rest) (value : Entries) (profile : Updates) (extra : Entries)
    (changes : Changes) : Changes :=
  let changes := if hasKey value "displayName" then
    { changes with name := some (strip ((getItem value "displayName").shown render)) } else changes
  let changes := setEmail render (firstEmail (getItem value "emails")) changes
  { changes with
    profile := profile.after changes.profile
    scimProfile := if extra = [] then changes.scimProfile
      else some (updateItems user.scimProfile extra) }

private theorem patchObject_eq (user : User Rest) (value : Entries) (changes : Changes) :
    patchObject render user value changes =
      (profileFromScimPayload render (nestedPayload value)).map fun read =>
        objectPart render user value read.1 read.2 changes := by
  rw [patchObject]
  cases profileFromScimPayload render (nestedPayload value) <;> rfl

private theorem overlays_objectPart (user : User Rest) (value : Entries) (profile : Updates)
    (extra : Entries) : Overlays (objectPart render user value profile extra) := by
  have keys : Overlays fun changes => setEmail render (firstEmail (getItem value "emails"))
      (if hasKey value "displayName" then
        { changes with name := some (strip ((getItem value "displayName").shown render)) }
      else changes) :=
    (overlays_setEmail render _).comp
      (Overlays.ite (overlays_over { Changes.none with name := some _ }) overlays_self)
  refine @Overlays.comp (fun changes => { changes with
    profile := profile.after changes.profile
    scimProfile := if extra = [] then changes.scimProfile
      else some (updateItems user.scimProfile extra) }) _ ?_ keys
  by_cases nothing : extra = []
  · simp only [if_pos nothing]
    exact overlays_over { Changes.none with profile := profile }
  · simp only [if_neg nothing]
    exact overlays_over { Changes.none with
      profile := profile
      scimProfile := some (updateItems user.scimProfile extra) }

theorem perform_eq_map (user : User Rest) (operation : Operation) (changes : Changes) :
    perform render user operation changes =
      (perform render user operation Changes.none).map fun alone => alone.over changes := by
  have plain := overlays_patchPlain render user operation
  cases kind : operation.kind with
  | replace =>
      cases value : operation.value with
      | obj entries =>
          simp only [perform, kind, value, patchObject_eq, Option.map_map]
          refine congrArg (Option.map · _) (funext fun read => ?_)
          exact (overlays_objectPart render user entries read.1 read.2).comp plain changes
      | _ =>
          simp only [perform, kind, value, Option.map_some]
          exact congrArg some (plain changes)
  | remove =>
      simp only [perform, kind, Option.map_some]
      exact congrArg some (overlays_patchRemove render operation.pathL changes)
  | other => simp only [perform, kind, Option.map_some]; rfl

/-! ## What each part sets -/

def Changes.Sets (changes : Changes) (column : Column) : Prop := (changes.cell column).isSome

private theorem sets_over {later earlier : Changes} {column : Column} :
    (later.over earlier).Sets column ↔ later.Sets column ∨ earlier.Sets column := by
  rw [Changes.Sets, cell_over, Option.isSome_or, Bool.or_eq_true]
  rfl

private theorem Overlays.sets {step : Changes → Changes} (overlays : Overlays step)
    {changes : Changes} {column : Column} :
    (step changes).Sets column ↔ (step Changes.none).Sets column ∨ changes.Sets column := by
  rw [overlays changes, sets_over]

private theorem not_sets_none {column : Column} : ¬ Changes.none.Sets column := by
  rw [Changes.Sets, cell_none]
  simp

private theorem sets_enabledPart {path pathL : Text} {value : Json} (named : path ≠ [])
    {column : Column} : (enabledPart path pathL value Changes.none).Sets column ↔
      pathL = "active".toList ∧ column = .enabled := by
  rw [enabledPart]
  by_cases active : pathL = "active".toList
  · rw [if_pos active]
    split <;> cases column <;> simp [active, Changes.Sets, Changes.cell, Changes.none, Updates.none]
  · have never : ¬ (hasKey value.entries "active" ∧ (path = [] ∨ pathL = "active".toList)) :=
      fun both => both.2.elim named active
    rw [if_neg never, if_neg active]
    exact iff_of_false not_sets_none fun both => active both.1

private theorem sets_setEmail {value : Json} {column : Column} :
    (setEmail render value Changes.none).Sets column ↔ value.truthy ∧ column = .email := by
  rw [setEmail]
  split_ifs with given
  · cases column <;> simp [given, Changes.Sets, Changes.cell, Changes.none, Updates.none]
  · simp [not_sets_none, given]

private theorem sets_setUserName {value : Json} {column : Column} :
    (setUserName render value Changes.none).Sets column ↔ value.truthy ∧
      (column = .userName ∨ '@' ∈ value.shown render ∧ column = .email) := by
  rw [setUserName]
  by_cases given : value.truthy
  · rw [if_pos given]
    by_cases address : '@' ∈ value.shown render
    · cases column <;>
        simp [given, address, Changes.Sets, Changes.cell, Changes.none, Updates.none]
    · cases column <;>
        simp [given, address, Changes.Sets, Changes.cell, Changes.none, Updates.none]
  · simp [not_sets_none, given]

private theorem sets_userNamePart {pathL : Text} {value : Json} {column : Column} :
    (userNamePart render pathL value Changes.none).Sets column ↔
      (pathL = "username".toList ∨ hasKey value.entries "userName") ∧
        (givenUserName value).truthy ∧
        (column = .userName ∨ '@' ∈ (givenUserName value).shown render ∧ column = .email) := by
  rw [userNamePart]
  split_ifs with named
  · rw [sets_setUserName, and_iff_right named]
  · exact iff_of_false not_sets_none fun both => named both.1

private theorem sets_externalId {value : Option Text} {column : Column} :
    ({ Changes.none with externalId := some value } : Changes).Sets column ↔
      column = .externalId := by
  cases column <;> simp [Changes.Sets, Changes.cell, Changes.none, Updates.none]

private theorem sets_name {value : Text} {column : Column} :
    ({ Changes.none with name := some value } : Changes).Sets column ↔ column = .name := by
  cases column <;> simp [Changes.Sets, Changes.cell, Changes.none, Updates.none]

private theorem sets_externalIdPart {pathL : Text} {value : Json} {column : Column} :
    (externalIdPart render pathL value Changes.none).Sets column ↔
      (pathL = "externalid".toList ∨ hasKey value.entries "externalId") ∧
        column = .externalId := by
  rw [externalIdPart]
  by_cases named : pathL = "externalid".toList ∨ hasKey value.entries "externalId"
  · rw [if_pos named, and_iff_right named, sets_externalId]
  · rw [if_neg named]
    exact iff_of_false not_sets_none fun both => named both.1

private theorem sets_namePart {user : User Rest} {pathL : Text} {value : Json}
    {column : Column} : (namePart render user pathL value Changes.none).Sets column ↔
      (pathL = "displayname".toList ∨ pathL = "name.formatted".toList) ∧ column = .name := by
  unfold namePart
  by_cases named : pathL = "displayname".toList ∨ pathL = "name.formatted".toList
  · rw [if_pos named, and_iff_right named]
    exact sets_name
  · rw [if_neg named]
    exact iff_of_false not_sets_none fun both => named both.1

private theorem sets_emailPart {pathL : Text} {value : Json} {column : Column} :
    (emailPart render pathL value Changes.none).Sets column ↔
      "emails".toList <+: pathL ∧ (firstEmail value).truthy ∧ column = .email := by
  rw [emailPart, ← List.isPrefixOf_iff_prefix]
  split_ifs with named
  · rw [sets_setEmail, and_iff_right named]
  · exact iff_of_false not_sets_none fun both => named both.1

private theorem sets_profile {profile : Updates} {column : Column} :
    ({ Changes.none with profile := profile } : Changes).Sets column ↔
      ∃ field, (profile field).isSome ∧ column = .profile field := by
  cases column <;> simp [Changes.Sets, Changes.cell, Changes.none]

private theorem isSome_set {field other : Field} {value : Option Text} :
    (Updates.none.set field value other).isSome ↔ other = field := by
  rw [set_apply]
  split_ifs with same <;> simp [same, Updates.none]

private theorem sets_set {field : Field} {value : Option Text} {column : Column} :
    ({ Changes.none with profile := Updates.none.set field value } : Changes).Sets column ↔
      column = .profile field := by
  simp only [sets_profile, isSome_set, exists_eq_left]

private theorem sets_setManager {value : Json} {column : Column} :
    ({ Changes.none with profile := setManager render value Updates.none } : Changes).Sets column ↔
      column = .profile .managerExternalId ∨ column = .profile .managerDisplayName := by
  have overlays := overlays_set .managerDisplayName (managerFields render value).2
  refine (@Overlays.sets _ overlays { Changes.none with
    profile := Updates.none.set .managerExternalId (managerFields render value).1 } _).trans ?_
  exact (or_congr sets_set sets_set).trans or_comm

private theorem logicalKeys_checked :
    (logicalAttributes.all fun entry =>
      entry.1.all Char.isLower && !"manager".toList.isPrefixOf entry.1) = true ∧
    (patchLogical.all fun name => name.all Char.isLower) = true := by
  decide +kernel

private theorem normalizeKey_of_letters {key : Text} (letters : key.all Char.isLower = true) :
    normalizeKey key = key := by
  have kept : key.filter (fun char => char ≠ ' ' ∧ char ≠ '_') = key := by
    refine List.filter_eq_self.mpr fun char member => ?_
    have letter := List.all_eq_true.mp letters char member
    refine decide_eq_true ⟨?_, ?_⟩
    · rintro rfl
      exact absurd letter (by decide)
    · rintro rfl
      exact absurd letter (by decide)
  rw [normalizeKey, kept, lower_of_letters letters]

private theorem logicalField_of_patchLogical (name : Text) (member : name ∈ patchLogical) :
    logicalField name = logicalAttributes.lookup name := by
  rw [logicalField, normalizeKey_of_letters (List.all_eq_true.mp logicalKeys_checked.2 name member)]

private theorem sets_logicalPart {pathL : Text} {value : Json} {column : Column} :
    (logicalPart render pathL value Changes.none).Sets column ↔ pathL ∈ patchLogical ∧
      ∃ field, logicalAttributes.lookup pathL = some field ∧ column = .profile field := by
  rw [logicalPart]
  by_cases named : pathL ∈ patchLogical
  · rw [if_pos named, and_iff_right named, ← logicalField_of_patchLogical pathL named]
    cases known : logicalField pathL with
    | none => simpa [setLogical, known] using not_sets_none
    | some field =>
        simp only [setLogical, known, Option.some.injEq, exists_eq_left']
        exact sets_set
  · rw [if_neg named]
    exact iff_of_false not_sets_none fun both => named both.1

private theorem sets_managerPart {pathL : Text} {value : Json} {column : Column} :
    (managerPart render pathL value Changes.none).Sets column ↔ namesManager pathL ∧
      (column = .profile .managerExternalId ∨ column = .profile .managerDisplayName) := by
  rw [managerPart, namesManager]
  by_cases named : pathL = "manager".toList ∨ ".manager".toList <:+ pathL
  · rw [if_pos named, and_iff_right named]
    exact sets_setManager render
  · rw [if_neg named]
    exact iff_of_false not_sets_none fun both => named both.1

private theorem leaf_mem {pathL front : Text} {leaves : List Text} :
    front.isPrefixOf pathL ∧ pathL.drop front.length ∈ leaves ↔
      pathL ∈ leaves.map (front ++ ·) := by
  rw [List.isPrefixOf_iff_prefix, List.mem_map]
  constructor
  · rintro ⟨⟨leaf, rfl⟩, member⟩
    rw [List.drop_left] at member
    exact ⟨leaf, member, rfl⟩
  · rintro ⟨leaf, member, rfl⟩
    exact ⟨List.prefix_append front leaf, by rwa [List.drop_left]⟩

private theorem leaves_disjoint :
    ∀ leaf ∈ ["value".toList, "managerid".toList, "objectid".toList, "id".toList],
      leaf ∉ ["displayname".toList, "display".toList] := by
  decide +kernel

private theorem sets_leafPart {pathL : Text} {value : Json} {column : Column} :
    (leafPart render pathL value Changes.none).Sets column ↔
      pathL ∈ managerIdPaths ∧ column = .profile .managerExternalId ∨
        pathL ∈ managerNamePaths ∧ column = .profile .managerDisplayName := by
  have ids : pathL ∈ managerIdPaths ↔ _ := (@leaf_mem pathL "manager.".toList
    ["value".toList, "managerid".toList, "objectid".toList, "id".toList]).symm
  have names : pathL ∈ managerNamePaths ↔ _ := (@leaf_mem pathL "manager.".toList
    ["displayname".toList, "display".toList]).symm
  rw [leafPart, ids, names]
  by_cases front : "manager.".toList.isPrefixOf pathL
  · rw [if_pos front]
    simp only [front, true_and]
    by_cases isId : pathL.drop "manager.".toList.length ∈
        ["value".toList, "managerid".toList, "objectid".toList, "id".toList]
    · have other := leaves_disjoint _ isId
      rw [if_pos isId]
      simp only [isId, other, true_and, false_and, or_false]
      exact sets_set
    · rw [if_neg isId]
      by_cases isName : pathL.drop "manager.".toList.length ∈
          ["displayname".toList, "display".toList]
      · rw [if_pos isName]
        simp only [isId, isName, true_and, false_and, false_or]
        exact sets_set
      · rw [if_neg isName]
        exact iff_of_false not_sets_none
          (Or.rec (fun both => isId both.1) fun both => isName both.1)
  · rw [if_neg front]
    exact iff_of_false not_sets_none
      (Or.rec (fun both => front both.1.1) fun both => front both.1.1)

private theorem sets_patchPlain {user : User Rest} {operation : Operation}
    (named : operation.path ≠ []) {column : Column} :
    (patchPlain render user operation Changes.none).Sets column ↔
      (leafPart render operation.pathL operation.value Changes.none).Sets column ∨
      (managerPart render operation.pathL operation.value Changes.none).Sets column ∨
      (logicalPart render operation.pathL operation.value Changes.none).Sets column ∨
      (emailPart render operation.pathL operation.value Changes.none).Sets column ∨
      (namePart render user operation.pathL operation.value Changes.none).Sets column ∨
      (externalIdPart render operation.pathL operation.value Changes.none).Sets column ∨
      (userNamePart render operation.pathL operation.value Changes.none).Sets column ∨
      operation.pathL = "active".toList ∧ column = .enabled := by
  have leaf : Overlays (leafPart render operation.pathL operation.value) :=
    Overlays.ite (Overlays.ite (overlays_set _ _)
      (Overlays.ite (overlays_set _ _) overlays_self)) overlays_self
  have manager : Overlays (managerPart render operation.pathL operation.value) :=
    Overlays.ite (overlays_setManager render operation.value) overlays_self
  have logical : Overlays (logicalPart render operation.pathL operation.value) :=
    Overlays.ite (overlays_setLogical render operation.pathL operation.value) overlays_self
  rw [patchPlain, patchProfile_eq, leaf.sets, manager.sets, logical.sets, patchNamed_eq,
    (overlays_emailPart render _ _).sets, (overlays_namePart render user _ _).sets,
    (overlays_externalIdPart render _ _).sets, (overlays_userNamePart render _ _).sets,
    sets_enabledPart named]

private theorem sets_objectPart {user : User Rest} {value : Entries} {profile : Updates}
    {extra : Entries} {column : Column} :
    (objectPart render user value profile extra Changes.none).Sets column ↔
      (∃ field, (profile field).isSome ∧ column = .profile field) ∨
      (extra ≠ [] ∧ column = .leftOver) ∨
      ((firstEmail (getItem value "emails")).truthy ∧ column = .email) ∨
      (hasKey value "displayName" ∧ column = .name) := by
  by_cases display : hasKey value "displayName" <;>
    by_cases address : (firstEmail (getItem value "emails")).truthy <;>
    by_cases nothing : extra = [] <;>
    cases column <;>
    simp [objectPart, setEmail, display, address, nothing, Changes.Sets, Changes.cell,
      Changes.none, Updates.none, Updates.after]

/-! ## One operation -/

private theorem logicalAttributes_checked :
    ∀ entry ∈ logicalAttributes, '.' ∉ entry.1 ∧ entry.1 ≠ "manager".toList := by
  decide +kernel

private theorem dotless_of_lookup {pathL : Text} {field : Field}
    (known : logicalAttributes.lookup pathL = some field) :
    '.' ∉ pathL ∧ pathL ≠ "manager".toList := by
  obtain ⟨front, back, split, -⟩ := List.lookup_eq_some_iff.mp known
  exact logicalAttributes_checked (pathL, field) (by rw [split]; simp)

private theorem leafPaths_checked : ∀ path ∈ managerIdPaths ++ managerNamePaths, '.' ∈ path := by
  decide +kernel

private theorem not_namesManager_of_lookup {pathL : Text} {field : Field}
    (known : logicalAttributes.lookup pathL = some field) : ¬ namesManager pathL := by
  rintro (manager | qualified)
  · exact (dotless_of_lookup known).2 manager
  · exact (dotless_of_lookup known).1 (qualified.subset (by decide))

private theorem not_leaf_of_lookup {pathL : Text} {field : Field}
    (known : logicalAttributes.lookup pathL = some field) :
    pathL ∉ managerIdPaths ∧ pathL ∉ managerNamePaths :=
  ⟨fun member => (dotless_of_lookup known).1
      (leafPaths_checked pathL (List.mem_append_left _ member)),
    fun member => (dotless_of_lookup known).1
      (leafPaths_checked pathL (List.mem_append_right _ member))⟩

private theorem emails_front {pathL : Text} (emails : namesEmails pathL) :
    "emails".toList <+: pathL := by
  rcases emails with rfl | bracket | dot
  · exact List.prefix_rfl
  · exact List.IsPrefix.trans (by decide) bracket
  · exact List.IsPrefix.trans (by decide) dot

private theorem ne_userName_of_emails {pathL : Text} (emails : namesEmails pathL) :
    pathL ≠ "username".toList := by
  rintro rfl
  exact absurd (emails_front emails) (by decide)

private theorem hasKey_of_truthy {entries : Entries} {key : String}
    (given : (getItem entries key).truthy) : hasKey entries key := by
  rw [getItem] at given
  rw [hasKey]
  cases found : entries.lookup key with
  | none => simp [found, Json.truthy] at given
  | some value => rfl

private theorem givenUserName_of_hasKey {value : Json}
    (present : hasKey value.entries "userName") :
    givenUserName value = getItem value.entries "userName" := by
  cases value with
  | obj entries => rfl
  | _ => exact absurd present Bool.false_ne_true

/-- An operation sets nothing but columns of its attribute, and what it gives. -/
structure Keeps (operation : Operation) (alone : Changes) : Prop where
  frame : ∀ column, alone.Sets column → Names operation.pathL column
  given : ∀ column, Gives render operation column → alone.Sets column

section Replace

variable {user : User Rest} {operation : Operation} {profile : Updates} {extra : Entries}
  {alone : Changes}

private theorem ownKeys_of_keeps (named : operation.path ≠ [])
    (sets : ∀ column, alone.Sets column ↔
      (objectPart render user operation.value.entries profile extra Changes.none).Sets column ∨
        (patchPlain render user operation Changes.none).Sets column)
    (frame : ∀ column, alone.Sets column → Names operation.pathL column) :
    OwnKeys operation.pathL operation.value.entries profile extra := by
  simp only [sets_objectPart, sets_patchPlain render named, sets_userNamePart,
    sets_externalIdPart] at sets
  refine ⟨fun given => frame _ ((sets _).mpr ?_), fun present => frame _ ((sets _).mpr ?_),
    fun present => frame _ ((sets _).mpr ?_), fun given => frame _ ((sets _).mpr ?_),
    fun field isSome => frame _ ((sets _).mpr ?_), ?_⟩
  · rw [givenUserName_of_hasKey (hasKey_of_truthy given)]
    simp [given, hasKey_of_truthy given]
  · simp [present]
  · simp [present]
  · simp [given]
  · simp [isSome]
  · by_contra some
    exact frame .leftOver ((sets _).mpr (by simp [some]))

private theorem plainPath_of_keeps (named : operation.path ≠ [])
    (replaces : operation.kind = .replace)
    (sets : ∀ column, alone.Sets column ↔
      (objectPart render user operation.value.entries profile extra Changes.none).Sets column ∨
        (patchPlain render user operation Changes.none).Sets column)
    (keeps : Keeps render operation alone) :
    PlainPath operation.pathL operation.value profile := by
  have own := ownKeys_of_keeps render named sets keeps.frame
  simp only [sets_objectPart, sets_patchPlain render named] at sets
  refine ⟨fun begins given => keeps.frame _ ((sets _).mpr ?_), fun emails given => ?_,
    fun field known => ?_⟩
  · simp only [sets_emailPart, begins, given, true_and, true_or, or_true]
  · have gives : Gives render operation .email := by
      refine ⟨.inr emails, ?_⟩
      rw [replaces]
      exact .inr ⟨emails, given⟩
    have set := (sets _).mp (keeps.given _ gives)
    simp only [sets_leafPart, sets_managerPart, sets_logicalPart, sets_emailPart, sets_namePart,
      sets_externalIdPart, sets_userNamePart, reduceCtorEq, and_false, and_true, or_false,
      false_or, exists_false] at set
    rcases set with keys | listed | ⟨login, truthy, address⟩
    · exact .inr keys
    · exact .inl listed.2
    · refine absurd ?_ (ne_userName_of_emails emails)
      rcases login with login | present
      · exact login
      · exact own.userName (givenUserName_of_hasKey present ▸ truthy)
  · have gives : Gives render operation (.profile field) := by
      refine ⟨.inl known, ?_⟩
      rw [replaces]
      trivial
    have set := (sets _).mp (keeps.given _ gives)
    simp only [sets_leafPart, sets_managerPart, sets_logicalPart, sets_emailPart, sets_namePart,
      sets_externalIdPart, sets_userNamePart, reduceCtorEq, and_false, or_false, false_or,
      not_namesManager_of_lookup known, not_leaf_of_lookup known, false_and] at set
    rcases set with ⟨other, isSome, same⟩ | ⟨member, -⟩
    · exact .inr (Column.profile.inj same ▸ isSome)
    · exact .inl member

private theorem keeps_of_plainPath (named : operation.path ≠ [])
    (replaces : operation.kind = .replace)
    (sets : ∀ column, alone.Sets column ↔
      (objectPart render user operation.value.entries profile extra Changes.none).Sets column ∨
        (patchPlain render user operation Changes.none).Sets column)
    (own : OwnKeys operation.pathL operation.value.entries profile extra)
    (plain : PlainPath operation.pathL operation.value profile) :
    Keeps render operation alone := by
  simp only [sets_objectPart, sets_patchPlain render named, sets_leafPart, sets_managerPart,
    sets_logicalPart, sets_emailPart, sets_namePart, sets_externalIdPart, sets_userNamePart] at sets
  have login (present : operation.pathL = "username".toList ∨
      hasKey operation.value.entries "userName") (given : (givenUserName operation.value).truthy) :
      operation.pathL = "username".toList :=
    present.elim id fun present => own.userName (givenUserName_of_hasKey present ▸ given)
  refine ⟨fun column set => ?_, fun column gives => (sets column).mpr ?_⟩
  · rcases (sets column).mp set with (⟨field, isSome, rfl⟩ | ⟨some, rfl⟩ | ⟨given, rfl⟩ |
      ⟨present, rfl⟩) | (⟨leaf, rfl⟩ | ⟨leaf, rfl⟩) | ⟨manager, rfl | rfl⟩ |
      ⟨-, field, known, rfl⟩ | ⟨begins, given, rfl⟩ | ⟨path, rfl⟩ | ⟨present, rfl⟩ |
      ⟨present, given, rfl | ⟨-, rfl⟩⟩ | ⟨path, rfl⟩
    · exact own.profile field isSome
    · exact absurd own.leftOver some
    · exact own.email given
    · exact own.name present
    · exact .inr (.inr (.inl ⟨leaf, rfl⟩))
    · exact .inr (.inr (.inr ⟨leaf, rfl⟩))
    · exact .inr (.inl ⟨manager, .inl rfl⟩)
    · exact .inr (.inl ⟨manager, .inr rfl⟩)
    · exact .inl known
    · exact plain.begins begins given
    · exact path
    · exact present.elim id own.externalId
    · exact login present given
    · exact .inl (login present given)
    · exact path
  · obtain ⟨names, gives⟩ := gives
    rw [replaces] at gives
    cases column with
    | enabled => simp [show operation.pathL = _ from names]
    | userName => simp [show operation.pathL = _ from names, show Json.truthy _ = _ from gives]
    | email =>
        rcases gives with ⟨path, given, address⟩ | ⟨emails, given⟩
        · simp [path, given, address]
        · rcases plain.listed emails given with listed | keys
          · simp only [emails_front emails, listed, true_and, true_or, or_true]
          · simp [keys]
    | externalId => simp [show operation.pathL = _ from names]
    | name =>
        have path : operation.pathL = _ ∨ operation.pathL = _ := names
        simp only [path, true_and, true_or, or_true]
    | profile field =>
        rcases names with known | ⟨manager, rfl | rfl⟩ | ⟨leaf, rfl⟩ | ⟨leaf, rfl⟩
        · rcases plain.settable field known with member | isSome
          · simp [member, known]
          · simp [isSome]
        · simp [manager]
        · simp [manager]
        · simp [leaf]
        · simp [leaf]
    | role => exact names.elim
    | provider => exact names.elim
    | leftOver => exact names.elim

end Replace

private theorem perform_replace {user : User Rest} {operation : Operation}
    (replaces : operation.kind = .replace) :
    perform render user operation Changes.none =
      (readValue render operation.value).map fun read =>
        objectPart render user operation.value.entries read.1 read.2
          (patchPlain render user operation Changes.none) := by
  rw [perform, replaces]
  cases value : operation.value with
  | obj entries => exact patchObject_eq render user entries _
  | _ => rfl

private theorem key_of_lookup {pathL : Text} {field : Field}
    (known : logicalAttributes.lookup pathL = some field) :
    logicalField pathL = some field ∧ ¬ "manager".toList <+: pathL := by
  obtain ⟨front, back, split, -⟩ := List.lookup_eq_some_iff.mp known
  have checked := List.all_eq_true.mp logicalKeys_checked.1 (pathL, field) (by rw [split]; simp)
  rw [Bool.and_eq_true, Bool.not_eq_true', Bool.eq_false_iff] at checked
  refine ⟨by rw [logicalField, normalizeKey_of_letters checked.1, known], fun front => ?_⟩
  exact checked.2 (List.isPrefixOf_iff_prefix.mpr front)

/-- The letters of the manager, and the dot. -/
private def managerLetters : Text := '.' :: "manager".toList

private theorem small_checked : lower managerLetters = managerLetters ∧
    managerLetters.all (fun char => char ≠ ' ' ∧ char ≠ '_') = true := by
  decide +kernel

private theorem normalizeKey_of_manager {pathL : Text}
    (manager : pathL.filter (· ≠ '.') = "manager".toList) : normalizeKey pathL = pathL := by
  have member (char : Char) (inPath : char ∈ pathL) : char ∈ managerLetters := by
    by_cases dot : char = '.'
    · rw [dot, managerLetters]
      exact List.mem_cons_self
    · rw [managerLetters, ← manager]
      exact List.mem_cons_of_mem '.' (List.mem_filter.mpr ⟨inPath, decide_eq_true dot⟩)
  have kept : pathL.filter (fun char => char ≠ ' ' ∧ char ≠ '_') = pathL :=
    List.filter_eq_self.mpr fun char inPath =>
      List.all_eq_true.mp small_checked.2 char (member char inPath)
  rw [normalizeKey, kept]
  exact lower_of_isLower fun char inPath =>
    isLower_of_mem_lower (small_checked.1.symm ▸ member char inPath)

private theorem sets_setLogical {pathL : Text} {column : Column} :
    ({ Changes.none with profile := setLogical render pathL .null Updates.none } :
      Changes).Sets column ↔ ∃ field, logicalField pathL = some field ∧ column = .profile field := by
  cases known : logicalField pathL with
  | none =>
      simp only [setLogical, known]
      exact iff_of_false not_sets_none (by simp)
  | some field =>
      simp only [setLogical, known, Option.some.injEq, exists_eq_left']
      exact sets_set

private theorem filtered_mem {pathL : Text} :
    pathL.filter (· ≠ '.') ∈
        ["manager".toList, "manager.value".toList, "manager.displayname".toList] ↔
      pathL.filter (· ≠ '.') = "manager".toList := by
  have dotless : '.' ∉ pathL.filter (· ≠ '.') := by simp
  constructor
  · intro member
    rcases List.mem_cons.mp member with same | member
    · exact same
    · rw [List.mem_pair] at member
      rcases member with same | same
      · exact absurd (same ▸ by decide) dotless
      · exact absurd (same ▸ by decide) dotless
  · exact fun same => same ▸ List.mem_cons_self

private theorem active_checked : logicalAttributes.lookup "active".toList = none ∧
    "active".toList.filter (· ≠ '.') ≠ "manager".toList := by
  decide +kernel

private theorem sets_patchRemove {pathL : Text} {column : Column} :
    (patchRemove render pathL Changes.none).Sets column ↔
      pathL = "active".toList ∧ column = .enabled ∨
      (∃ field, logicalAttributes.lookup pathL = some field ∧ column = .profile field) ∨
      ("manager".toList <+: pathL ∧ pathL.filter (· ≠ '.') = "manager".toList ∧
        (column = .profile .managerExternalId ∨ column = .profile .managerDisplayName)) := by
  simp only [patchRemove, filtered_mem]
  by_cases active : pathL = "active".toList
  · rw [if_pos active]
    subst active
    simp only [active_checked, reduceCtorEq, true_and, false_and, and_false, exists_false, or_false]
    cases column <;> simp [Changes.Sets, Changes.cell, Changes.none, Updates.none]
  · rw [if_neg active]
    simp only [active, false_and, false_or]
    cases known : logicalAttributes.lookup pathL with
    | some field =>
        obtain ⟨named, front⟩ := key_of_lookup known
        rw [if_pos (.inl rfl), if_neg (mt List.isPrefixOf_iff_prefix.mp front)]
        simp only [front, false_and, or_false]
        exact (sets_setLogical render).trans (by simp [named])
    | none =>
        simp only [reduceCtorEq, false_and, exists_false, false_or, Option.isSome_none,
          Bool.false_eq_true]
        by_cases manager : pathL.filter (· ≠ '.') = "manager".toList
        · rw [if_pos manager]
          by_cases front : "manager".toList <+: pathL
          · rw [if_pos (List.isPrefixOf_iff_prefix.mpr front), and_iff_right front,
              and_iff_right manager]
            exact @sets_setManager render .null column
          · rw [if_neg (mt List.isPrefixOf_iff_prefix.mp front)]
            refine iff_of_false ?_ fun both => front both.1
            refine mt (sets_setLogical render).mp ?_
            rw [logicalField, normalizeKey_of_manager manager, known]
            exact fun found => nomatch found.choose_spec.1
        · rw [if_neg manager]
          exact iff_of_false not_sets_none fun both => manager both.2.1

private theorem managerPaths_checked :
    (∀ path ∈ managerIdPaths, path.filter (· ≠ '.') ≠ "manager".toList ∧
      path ≠ "manager".toList) ∧
    (∀ path ∈ managerNamePaths, path ≠ "manager".toList) ∧
    "manager".toList.filter (· ≠ '.') = "manager".toList ∧
    "manager".toList ≠ "externalid".toList := by
  decide +kernel

private theorem not_names_dotted {pathL : Text} (front : "manager".toList <+: pathL)
    (manager : pathL.filter (· ≠ '.') = "manager".toList) (other : pathL ≠ "manager".toList) :
    ¬ Names pathL (.profile .managerExternalId) := by
  rintro (known | ⟨same | ⟨before, qualified⟩, -⟩ | ⟨leaf, -⟩ | ⟨-, wrong⟩)
  · exact (key_of_lookup known).2 front
  · exact other same
  · obtain ⟨dots, rfl⟩ := front
    have nothing : dots.filter (· ≠ '.') = [] := by
      rw [List.filter_append, managerPaths_checked.2.2.1] at manager
      exact List.append_right_eq_self.mp manager
    cases last : dots.getLast? with
    | none => exact other (by rw [List.getLast?_eq_none_iff.mp last, List.append_nil])
    | some char =>
        have dot : char = '.' := by
          by_contra letter
          exact List.ne_nil_of_mem (List.mem_filter.mpr
            ⟨List.mem_of_getLast? last, decide_eq_true letter⟩) nothing
        have ends := congrArg List.getLast? qualified
        rw [List.getLast?_append, List.getLast?_append, last, dot] at ends
        exact absurd ends (by simp)
  · exact (managerPaths_checked.1 pathL leaf).1 manager
  · exact nomatch wrong

private theorem plainRemoval_of_keeps {operation : Operation} (removes : operation.kind = .remove)
    (keeps : Keeps render operation (patchRemove render operation.pathL Changes.none)) :
    PlainRemoval operation.pathL := by
  have gives (column : Column) (names : Names operation.pathL column)
      (may : column = .externalId ∨ ∃ field, column = .profile field) :=
    (sets_patchRemove render).mp (keeps.given column ⟨names, by
      rw [removes]
      rcases may with rfl | ⟨field, rfl⟩ <;> trivial⟩)
  by_cases manager : operation.pathL = "manager".toList
  · exact .inl manager
  have notDotted : ¬ ("manager".toList <+: operation.pathL ∧
      operation.pathL.filter (· ≠ '.') = "manager".toList) := fun ⟨front, dotted⟩ =>
    not_names_dotted front dotted manager
      (keeps.frame _ ((sets_patchRemove render).mpr (.inr (.inr ⟨front, dotted, .inl rfl⟩))))
  have unknown (field : Field) (names : Names operation.pathL (.profile field))
      (nameless : ∀ other, logicalAttributes.lookup operation.pathL ≠ some other) : False := by
    rcases gives _ names (.inr ⟨field, rfl⟩) with ⟨-, wrong⟩ | ⟨other, known, -⟩ |
      ⟨front, dotted, -⟩
    · exact nomatch wrong
    · exact nameless other known
    · exact notDotted ⟨front, dotted⟩
  refine .inr ⟨fun external => ?_, fun qualified => ?_, fun leaf => ?_, fun leaf => ?_, notDotted⟩
  · rcases gives .externalId external (.inl rfl) with ⟨-, wrong⟩ | ⟨_, -, wrong⟩ |
      ⟨-, -, wrong | wrong⟩ <;> exact nomatch wrong
  · exact unknown .managerExternalId (.inr (.inl ⟨qualified, .inl rfl⟩))
      fun other known => not_namesManager_of_lookup known qualified
  · exact unknown .managerExternalId (.inr (.inr (.inl ⟨leaf, rfl⟩)))
      fun other known => (not_leaf_of_lookup known).1 leaf
  · exact unknown .managerDisplayName (.inr (.inr (.inr ⟨leaf, rfl⟩)))
      fun other known => (not_leaf_of_lookup known).2 leaf

private theorem keeps_of_plainRemoval {operation : Operation} (removes : operation.kind = .remove)
    (plain : PlainRemoval operation.pathL) :
    Keeps render operation (patchRemove render operation.pathL Changes.none) := by
  constructor
  · intro column set
    rcases (sets_patchRemove render).mp set with ⟨active, rfl⟩ | ⟨field, known, rfl⟩ |
      ⟨front, dotted, which⟩
    · exact active
    · exact .inl known
    · rcases plain with manager | ⟨-, -, -, -, notDotted⟩
      · rcases which with rfl | rfl
        · exact .inr (.inl ⟨.inl manager, .inl rfl⟩)
        · exact .inr (.inl ⟨.inl manager, .inr rfl⟩)
      · exact absurd ⟨front, dotted⟩ notDotted
  · rintro column ⟨names, gives⟩
    rw [removes] at gives
    refine (sets_patchRemove render).mpr ?_
    cases column with
    | enabled => exact .inl ⟨names, rfl⟩
    | externalId =>
        have external : operation.pathL = "externalid".toList := names
        rcases plain with manager | ⟨notExternal, -⟩
        · exact absurd (manager.symm.trans external) managerPaths_checked.2.2.2
        · exact absurd external notExternal
    | profile field =>
        rcases names with known | ⟨qualified, which⟩ | ⟨leaf, -⟩ | ⟨leaf, -⟩
        · exact .inr (.inl ⟨field, known, rfl⟩)
        · rcases plain with manager | ⟨-, unqualified, -⟩
          · exact .inr (.inr ⟨manager ▸ List.prefix_rfl, manager ▸ managerPaths_checked.2.2.1,
              which.imp (congrArg _) (congrArg _)⟩)
          · exact absurd qualified unqualified
        · rcases plain with manager | ⟨-, -, noLeaf, -⟩
          · exact absurd manager (managerPaths_checked.1 _ leaf).2
          · exact absurd leaf noLeaf
        · rcases plain with manager | ⟨-, -, -, noLeaf, -⟩
          · exact absurd manager (managerPaths_checked.2.1 _ leaf)
          · exact absurd leaf noLeaf
    | _ => exact gives.elim

/-- An operation keeps to its attribute exactly when it is plain, or it raises. -/
theorem keeps_iff (user : User Rest) {operation : Operation} (named : operation.path ≠ []) :
    (∀ alone, perform render user operation Changes.none = some alone →
      Keeps render operation alone) ↔ Plain render operation := by
  cases kind : operation.kind with
  | replace =>
      rw [Plain, kind, perform_replace render kind]
      simp only [Option.map_eq_some_iff]
      have sets (read : Updates × Entries) (column : Column) :=
        @Overlays.sets _ (overlays_objectPart render user operation.value.entries read.1 read.2)
          (patchPlain render user operation Changes.none) column
      constructor
      · intro keeps _ read found
        have kept := keeps _ ⟨read, found, rfl⟩
        exact ⟨ownKeys_of_keeps render named (sets read) kept.frame,
          plainPath_of_keeps render named kind (sets read) kept⟩
      · rintro plain alone ⟨read, found, rfl⟩
        obtain ⟨own, path⟩ := plain named read found
        exact keeps_of_plainPath render named kind (sets read) own path
  | remove =>
      rw [Plain, kind]
      simp only [perform, kind, Option.some.injEq, forall_eq']
      exact ⟨fun keeps _ => plainRemoval_of_keeps render kind keeps,
        fun plain => keeps_of_plainRemoval render kind (plain named)⟩
  | other =>
      rw [Plain, kind]
      simp only [perform, kind, Option.some.injEq, forall_eq', imp_true_iff, iff_true]
      refine ⟨fun column set => absurd set not_sets_none, fun column gives => ?_⟩
      have never := gives.2
      rw [kind] at never
      exact never.elim

/-! ## Runs -/

section Run

variable {user : User Rest} {item : Json} {operation : Operation} {earlier later : Changes}

private theorem perform_of_apply (read : readOperation item = some operation)
    (applied : applyOperation render user earlier item = some later) :
    ∃ alone, perform render user operation Changes.none = some alone ∧
      later = alone.over earlier := by
  rw [applyOperation_eq, read, Option.bind_some, perform_eq_map] at applied
  obtain ⟨alone, performed, rfl⟩ := Option.map_eq_some_iff.mp applied
  exact ⟨alone, performed, rfl⟩

private theorem cell_apply (plain : Plain render operation)
    (read : readOperation item = some operation) (named : operation.path ≠ [])
    (applied : applyOperation render user earlier item = some later) {column : Column}
    (other : ¬ Names operation.pathL column) : later.cell column = earlier.cell column := by
  obtain ⟨alone, performed, rfl⟩ := perform_of_apply render read applied
  have unset : ¬ alone.Sets column := fun set =>
    other (((keeps_iff render user named).mpr plain alone performed).frame column set)
  rw [cell_over, Option.not_isSome_iff_eq_none.mp unset, Option.none_or]

private theorem cell_apply_of_not_on (plain : Plain render operation)
    (read : readOperation item = some operation)
    (applied : applyOperation render user earlier item = some later) {column : Column}
    (off : ¬ On operation column) : later.cell column = earlier.cell column := by
  by_cases other : operation.kind = .other
  · rw [applyOperation_eq, read, Option.bind_some, perform, other] at applied
    rw [Option.some.inj applied]
  · exact cell_apply render plain read (fun whole => off ⟨other, .inl whole⟩) applied
      fun names => off ⟨other, .inr names⟩

private theorem cell_foldlM {run : List Json} {column : Column}
    (plain : ∀ next ∈ run, ∀ operation, readOperation next = some operation →
      Plain render operation)
    (off : ∀ next ∈ run, ∀ operation, readOperation next = some operation →
      ¬ On operation column)
    (patched : run.foldlM (applyOperation render user) earlier = some later) :
    later.cell column = earlier.cell column := by
  induction run generalizing earlier with
  | nil => rw [Option.some.inj patched]
  | cons next run induction =>
      rw [List.foldlM_cons] at patched
      obtain ⟨changes, applied, patched⟩ := Option.bind_eq_some_iff.mp patched
      have first : changes.cell column = earlier.cell column := by
        cases read : readOperation next with
        | none =>
            rw [applyOperation_eq, read] at applied
            exact nomatch applied
        | some operation =>
            exact cell_apply_of_not_on render (plain next List.mem_cons_self operation read) read
              applied (off next List.mem_cons_self operation read)
      rw [← first]
      exact induction (fun other member => plain other (List.mem_cons_of_mem next member))
        (fun other member => off other (List.mem_cons_of_mem next member)) patched

private theorem runKept_of_plain {run : List Json}
    (plain : ∀ item ∈ run, ∀ operation, readOperation item = some operation →
      Plain render operation) : RunKept render user run where
  frame := by
    rintro before item after rfl operation read named earlier later - applied column other
    exact cell_apply render (plain item (by simp) operation read) read named applied other
  unknown := by
    rintro before item after rfl operation read named unknown earlier later - applied
    exact Changes.eq_of_cell fun column =>
      cell_apply render (plain item (by simp) operation read) read named applied (unknown column)
  last := by
    rintro before item after rfl operation read named column gives off alone final applied patched
    rw [applyPatch, List.foldlM_append] at patched
    obtain ⟨earlier, -, patched⟩ := Option.bind_eq_some_iff.mp patched
    rw [List.foldlM_cons] at patched
    obtain ⟨changes, step, patched⟩ := Option.bind_eq_some_iff.mp patched
    have kept := cell_foldlM render (fun next member => plain next (by simp [member])) off patched
    rw [applyOperation_eq, read, Option.bind_some] at applied
    have set : alone.Sets column :=
      ((keeps_iff render user named).mpr (plain item (by simp) operation read) alone
        applied).given column gives
    obtain ⟨same, performed, rfl⟩ := perform_of_apply render read step
    obtain rfl := Option.some.inj (performed.symm.trans applied)
    exact ⟨set, by rw [kept, cell_over, Option.or_of_isSome set]⟩

end Run

/-- Every run of some operations keeps each of them to its attribute, with the last one deciding,
exactly when each operation is plain. -/
theorem runs_kept_iff (user : User Rest) (operations : List Json) :
    (∀ run, run ⊆ operations → RunKept render user run) ↔
      ∀ item ∈ operations, ∀ operation, readOperation item = some operation →
        Plain render operation := by
  constructor
  · intro kept item member operation read
    by_cases named : operation.path = []
    · exact fun other => absurd named other
    have alone := kept [item] fun _ inRun => List.mem_singleton.mp inRun ▸ member
    refine (keeps_iff render user named).mp fun changes performed => ?_
    have applied : applyOperation render user Changes.none item = some changes := by
      rw [applyOperation_eq, read, Option.bind_some, performed]
    refine ⟨fun column set => ?_, fun column gives => ?_⟩
    · by_contra other
      have same := alone.frame [] item [] rfl operation read named _ _ rfl applied column other
      rw [Changes.Sets, same, cell_none] at set
      exact nomatch set
    · have patched : applyPatch render user [item] = some changes := by
        rw [applyPatch, List.foldlM_cons, applied]
        rfl
      exact (alone.last [] item [] rfl operation read named column gives
        (fun next member => absurd member List.not_mem_nil) changes changes applied patched).1
  · intro plain run sub
    exact runKept_of_plain render fun item member => plain item (sub member)

/-- A patch of the manager in the form a directory sends it. -/
def managerPatch : Json :=
  .obj [("op", .str "replace".toList), ("path", .str "manager".toList),
    ("value", .obj [("value", .str "42".toList), ("displayName", .str "Ada".toList)])]

def managedUser : User Unit where
  id := 1
  email := "eve@example.org".toList
  name := "Eve".toList
  role := "user".toList
  enabled := true
  provider := "scim".toList
  externalId := none
  userName := "eve@example.org".toList
  profile := fun _ => none
  scimProfile := []
  createdAt := []
  updatedAt := []
  rest := ()

private theorem managerPatch_facts :
    (readOperation managerPatch).map (fun operation => (operation.path, operation.pathL)) =
      some ("manager".toList, "manager".toList) ∧
    (applyOperation (fun _ => []) managedUser Changes.none managerPatch).map Changes.name =
      some (some "Ada".toList) ∧
    "manager".toList ≠ "displayname".toList ∧ "manager".toList ≠ "name.formatted".toList := by
  decide +kernel

/-- The user is called like the new manager. -/
theorem managerPatch_renames : ¬ RunKept (fun _ => []) managedUser [managerPatch] := by
  intro kept
  obtain ⟨read, renamed, notDisplay, notFormatted⟩ := managerPatch_facts
  obtain ⟨operation, found, paths⟩ := Option.map_eq_some_iff.mp read
  obtain ⟨later, applied, name⟩ := Option.map_eq_some_iff.mp renamed
  obtain ⟨path, pathL⟩ := Prod.mk.inj paths
  have same := kept.frame [] managerPatch [] rfl operation found
    (path ▸ by decide) Changes.none later rfl applied .name
    (pathL ▸ Or.rec notDisplay notFormatted)
  rw [Changes.cell, name, cell_none] at same
  exact nomatch same

end Scim
end DomainLens
