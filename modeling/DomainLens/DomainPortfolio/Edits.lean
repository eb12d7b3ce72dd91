import DomainLens.DomainPortfolio.Units

/-!
# Editing the units

Changing, merging and deleting a unit read the listing first, without the lock, and write later
with it.  Each read and each write is one step, between which other clients take theirs.
-/

namespace DomainLens
namespace DomainPortfolio

open Python

abbrev Client := Nat

/-! ## The values of a change -/

/-- The arguments of `update_group`, `none` where one is not given. -/
structure UpdateCall where
  id : GroupId
  name : Option Text
  expectedRegistrar : Option Text
  parentId : Option (Option GroupId)
  notifyEmails : Option Text
  contactId : Option (Option Nat)
  monitorMinutes : Option (Option Nat)
deriving DecidableEq

/-- The columns an update sets; a setting that is `none` stays as it is. -/
structure Update where
  id : GroupId
  name : Text
  parentId : Option GroupId
  expectedRegistrar : Option (Option Text)
  notifyEmails : Option (Option Text)
  contactId : Option (Option Nat)
  monitorMinutes : Option (Option Nat)
deriving DecidableEq

/-- `[^@\s,;<>]`. -/
def isAddressPart (char : Char) : Bool := !isSpace char && char ∉ ['@', ',', ';', '<', '>']

/-- `_EMAIL`. -/
def isEmail (text : Text) : Bool :=
  match text.splitOnP (· == '@') with
  | [name, host] =>
      name ≠ [] && name.all isAddressPart && host.all isAddressPart && '.' ∈ host.tail.dropLast
  | _ => false

/-- `clean_recipients`. -/
def cleanRecipients (text : Text) : Except Text (List Text) :=
  let parts := ((text.splitOnP fun char => isSpace char || char == ',' || char == ';').map
    fun part => lower (strip part)).filter (· ≠ [])
  match parts.find? fun part => !isEmail part with
  | some part => .error (part ++ " is not an e-mail address".toList)
  | none =>
      if (fromKeys parts).length > 10 then .error "At most 10 addresses per unit".toList
      else .ok (fromKeys parts)

/-- `",".join`. -/
def joinCommas : List Text → Text
  | [] => []
  | [part] => part
  | part :: parts => part ++ ',' :: joinCommas parts

/-- The text, or `None` where it is empty. -/
def orNone (text : Text) : Option Text := if text = [] then none else some text

def newParent (call : UpdateCall) (group : Group) : Option GroupId :=
  match call.parentId with
  | none => group.parentId
  | some given => given.filter (· ≠ 0)

/-- The columns of a change, or the first value that is refused. -/
def prepare (people : List Nat) (call : UpdateCall) (group : Group) : Except Text Update := do
  let name ← match call.name with
    | some name => cleanGroupName name
    | none => .ok group.name
  let expectedRegistrar := call.expectedRegistrar.map fun text =>
    orNone ((joinWords (split text)).take 200)
  let notifyEmails ← match call.notifyEmails with
    | some text => (cleanRecipients text).map fun found => some (orNone (joinCommas found))
    | none => .ok none
  let contactId ← match call.contactId with
    | some (some id) =>
        if id ∈ people then .ok (some (some id)) else .error "Unknown contact".toList
    | given => .ok given
  let monitorMinutes ← match call.monitorMinutes.map truthyNumber with
    | some (some minutes) =>
        if 5 ≤ minutes ∧ minutes ≤ 43200 then .ok (some (some minutes))
        else .error "Scan between every 5 minutes and every 30 days".toList
    | given => .ok given
  .ok { id := call.id, name, parentId := newParent call group, expectedRegistrar, notifyEmails,
        contactId, monitorMinutes }

/-- `UPDATE portfolio_groups SET ... WHERE id = ?`. -/
def Portfolio.update (portfolio : Portfolio) (update : Update) : Portfolio :=
  portfolio.modify
    (fun group =>
      if group.id = update.id then
        { group with
          name := update.name
          parentId := update.parentId
          expectedRegistrar := update.expectedRegistrar.getD group.expectedRegistrar
          notifyEmails := update.notifyEmails.getD group.notifyEmails
          contactId := update.contactId.getD group.contactId
          monitorMinutes := update.monitorMinutes.getD group.monitorMinutes }
      else group)
    fun group => by split <;> rfl

/-! ## Merging -/

namespace Portfolio

/-- `UPDATE portfolio_domains SET group_id = ? WHERE group_id = ?`. -/
def moveDomains (portfolio : Portfolio) (source : GroupId) (target : Option GroupId) : Portfolio :=
  { portfolio with
    domains := portfolio.domains.map fun domain =>
      if domain.groupId = some source then { domain with groupId := target } else domain }

/-- `UPDATE portfolio_groups SET parent_id = ? WHERE id = ?`. -/
def place (portfolio : Portfolio) (id parent : GroupId) : Portfolio :=
  portfolio.modify (fun group => if group.id = id then { group with parentId := some parent } else group)
    fun group => by split <;> rfl

/-- The target takes the registrar and the contact it has not from the source. -/
def bequeath (portfolio : Portfolio) (source target : GroupId) : Portfolio :=
  match portfolio.groups.find source with
  | none => portfolio
  | some own =>
      portfolio.modify
        (fun group =>
          if group.id = target then
            { group with
              expectedRegistrar := group.expectedRegistrar.or (truthyText own.expectedRegistrar)
              contactId := group.contactId.or (truthyNumber own.contactId) }
          else group)
        fun group => by split <;> rfl

end Portfolio

/-- The units right under a unit, in the order of the table. -/
def unitsUnder (groups : Groups) (id : GroupId) : List Group :=
  groups.rows.filter fun group => group.parentId = some id

/-- The loop of `fold`: a unit under the source is merged into its twin, or moves as a whole. -/
def foldChildren (fold : GroupId → GroupId → Portfolio → Option Portfolio) (target : GroupId) :
    List Group → Portfolio → Option Portfolio
  | [], portfolio => some portfolio
  | child :: children, portfolio =>
      match find portfolio.groups child.name (some target) with
      | some twin => (fold child.id twin portfolio).bind (foldChildren fold target children)
      | none => foldChildren fold target children (portfolio.place child.id target)

/-- `fold`, to the recursion limit of the interpreter, which rolls the merge back. -/
def fold : Nat → GroupId → GroupId → Portfolio → Option Portfolio
  | 0, _, _, _ => none
  | limit + 1, source, target, portfolio =>
      (foldChildren (fold limit) target (unitsUnder portfolio.groups source)
        (portfolio.moveDomains source (some target))).map fun portfolio =>
          (portfolio.bequeath source target).delete fun group => group.id = source

/-! ## Deleting -/

/-- `delete_group` with the lock, the parent being the one read without it. -/
def deleteGroup (people : List Nat) (id : GroupId) (parentId : Option GroupId) (withContents : Bool)
    (portfolio : Portfolio) : Portfolio :=
  if withContents then
    let ids := descendants people portfolio.groups id
    let kept := portfolio.domains.filter fun domain => !domain.groupId.any (· ∈ ids)
    { portfolio with domains := kept }.delete fun group => group.id ∈ ids
  else
    ((portfolio.moveDomains id parentId).modify
      (fun group => if group.parentId = some id then { group with parentId } else group)
      fun group => by split <;> rfl).delete fun group => group.id = id

/-! ## Clients -/

inductive Call where
  | update (call : UpdateCall)
  | merge (source target : GroupId)
  | delete (id : GroupId) (withContents : Bool)
deriving DecidableEq

/-- What an edit does next, with what it has read. -/
inductive Stage where
  | updateParent (call : UpdateCall) (group : Group) (parent : GroupId)
  | updateBranch (call : UpdateCall) (group : Group) (parent : GroupId)
  | updateWrite (update : Update)
  | mergeTarget (source target : GroupId)
  | mergeBranch (source target : GroupId)
  | mergeWrite (source target : GroupId)
  | deleteWrite (id : GroupId) (parentId : Option GroupId) (withContents : Bool)
deriving DecidableEq

/-- How an edit ends before its write: with `ValueError`, or without the unit to delete. -/
inductive Ending where
  | refused (problem : Text)
  | absent
deriving DecidableEq

def begin (people : List Nat) (groups : Groups) : Call → Except Ending Stage
  | .update call =>
      match getGroup people groups call.id with
      | none => .error (.refused "Unknown unit".toList)
      | some group =>
          match newParent call group with
          | some parent => .ok (.updateParent call group parent)
          | none =>
              match prepare people call group with
              | .ok update => .ok (.updateWrite update)
              | .error problem => .error (.refused problem)
  | .merge source target =>
      match getGroup people groups source with
      | none => .error (.refused "Unknown unit".toList)
      | some _ => .ok (.mergeTarget source target)
  | .delete id withContents =>
      match getGroup people groups id with
      | none => .error .absent
      | some group => .ok (.deleteWrite id group.parentId withContents)

def check (people : List Nat) (groups : Groups) : Stage → Except Ending Stage
  | .updateParent call group parent =>
      if (getGroup people groups parent).isNone then
        .error (.refused "Unknown parent unit".toList)
      else .ok (.updateBranch call group parent)
  | .updateBranch call group parent =>
      if parent ∈ descendants people groups call.id then
        .error (.refused "A unit cannot be placed under itself or one of its own units".toList)
      else
        match prepare people call group with
        | .ok update => .ok (.updateWrite update)
        | .error problem => .error (.refused problem)
  | .mergeTarget source target =>
      if (getGroup people groups target).isNone then .error (.refused "Unknown unit".toList)
      else if source = target then
        .error (.refused "A unit cannot be merged into itself".toList)
      else .ok (.mergeBranch source target)
  | .mergeBranch source target =>
      if target ∈ descendants people groups source then
        .error (.refused "A unit cannot be merged into one of its own units".toList)
      else .ok (.mergeWrite source target)
  | stage => .ok stage

/-- The write of an edit, `none` before its reads are done. -/
def write (people : List Nat) (limit : Nat) (portfolio : Portfolio) : Stage → Option Portfolio
  | .updateWrite update =>
      some (if (find portfolio.groups update.name update.parentId).any (· ≠ update.id) then portfolio
        else portfolio.update update)
  | .mergeWrite source target => some ((fold limit source target portfolio).getD portfolio)
  | .deleteWrite id parentId withContents =>
      some (deleteGroup people id parentId withContents portfolio)
  | _ => none

/-- The portfolio and what each client is about to do. -/
structure World where
  portfolio : Portfolio
  pending : Client → Option Stage

/-- A step: a path is ensured, an edit begins, or a pending one goes on. -/
inductive Label where
  | ensurePath (path : Text)
  | call (client : Client) (call : Call)
  | proceed (client : Client)

/-- What a client is about to do, or nothing. -/
def World.await (world : World) (client : Client) (stage : Option Stage) : World :=
  { world with pending := fun other => if other = client then stage else world.pending other }

def step (people : List Nat) (limit : Nat) (world : World) : Label → Option World
  | .ensurePath path => some { world with portfolio := (ensurePath path world.portfolio).1 }
  | .call client call =>
      match world.pending client with
      | some _ => none
      | none => some (world.await client (begin people world.portfolio.groups call).toOption)
  | .proceed client =>
      match world.pending client with
      | none => none
      | some stage =>
          match write people limit world.portfolio stage with
          | some portfolio => some ({ world with portfolio }.await client none)
          | none => some (world.await client (check people world.portfolio.groups stage).toOption)

end DomainPortfolio
end DomainLens
