import DomainLens.Library.Run
import DomainLens.Library.Table
import DomainLens.Python.Text

/-!
# Requests on the administration pages

An administrator enables and disables accounts, changes roles and deletes accounts, only not those of
the administrator's own.  Who acts is read from the stored account before the write, and another
request may come between them.
-/

namespace DomainLens
namespace Administrators

open Python Run

/-! ## Roles and accounts -/

abbrev UserId := Nat

def viewer : Text := "viewer".toList

def user : Text := "user".toList

def admin : Text := "admin".toList

/-- `ROLES`, lowest first. -/
def roles : List Text := [viewer, user, admin]

/-- `normalize`, with its default. -/
def normalize (value : Text) (default : Option Text) : Option Text :=
  let name := lower (strip value)
  let name := if name = "analyst".toList then user else name
  if name ∈ roles then some name else default

/-- `rank`; an unknown role is below the others. -/
def rank (role : Text) : Int :=
  let name := lower (strip role)
  if name ∈ roles then roles.idxOf name else -1

/-- A row of `users`, as far as these pages read or write it. -/
structure Account where
  id : UserId
  role : Text
  enabled : Bool

/-- The role a session of the account has. -/
def Account.sessionRole (account : Account) : Text := (normalize account.role (some user)).getD user

/-- `at_least(role, ADMIN)`, of an account that is enabled. -/
def Account.isAdmin (account : Account) : Bool :=
  account.enabled && decide (rank admin ≤ rank account.sessionRole)

/-! ## Requests -/

inductive Act where
  | toggle
  | setRole (form : Text)
  | delete

inductive Write where
  | enabled (value : Bool)
  | role (value : Text)
  | delete
deriving DecidableEq

inductive Stage where
  /-- The acting account was read, and may act on the other one. -/
  | authorised (act : Act)
  /-- The other one was read. -/
  | writing (write : Write)

structure Request where
  actor : UserId
  target : UserId
  stage : Stage

/-- The accounts and the requests under way. -/
structure Site where
  accounts : Table Account.id
  requests : List Request

inductive Label where
  /-- `require_admin`, and the refusals of acting on oneself. -/
  | authorise (actor target : UserId) (act : Act)
  /-- `get_user` of the other account. -/
  | look (position : Nat)
  /-- `update_user` or `delete_user`. -/
  | write (position : Nat)

/-- Whether an administrator may do this to an account. -/
def permits (actor target : UserId) : Act → Bool
  | .toggle | .delete => actor ≠ target
  | .setRole form =>
      match normalize form none with
      | none => false
      | some role => actor ≠ target || role = admin

/-- What a request writes, once the other account was read; nothing where there is none to change. -/
def writeOf (account : Option Account) : Act → Option Write
  | .toggle => account.map fun account => .enabled (!account.enabled)
  | .setRole form => account.bind fun _ => (normalize form none).map .role
  | .delete => some .delete

def Write.apply (accounts : Table Account.id) (target : UserId) : Write → Table Account.id
  | .enabled value =>
      accounts.update target (fun account => { account with enabled := value }) fun _ => rfl
  | .role value => accounts.update target (fun account => { account with role := value }) fun _ => rfl
  | .delete => accounts.filter fun account => account.id ≠ target

/-- Whether the account is an enabled administrator now. -/
def actsNow (accounts : Table Account.id) (actor : UserId) : Bool :=
  (accounts.find actor).any Account.isAdmin

/-- Take one step.  A request that is refused changes nothing and is not under way. -/
def step (site : Site) : Label → Option Site
  | .authorise actor target act =>
      if actsNow site.accounts actor && permits actor target act then
        some { site with requests := site.requests ++ [⟨actor, target, .authorised act⟩] }
      else none
  | .look position =>
      match site.requests[position]? with
      | some ⟨actor, target, .authorised act⟩ =>
          match writeOf (site.accounts.find target) act with
          | some write =>
              some { site with requests := site.requests.set position ⟨actor, target, .writing write⟩ }
          | none => some { site with requests := site.requests.eraseIdx position }
      | _ => none
  | .write position =>
      match site.requests[position]? with
      | some ⟨_, target, .writing write⟩ =>
          some
            { accounts := write.apply site.accounts target
              requests := site.requests.eraseIdx position }
      | _ => none

/-! ## Administrators -/

/-- Some account is an enabled administrator. -/
def Administered (site : Site) : Prop := ∃ account ∈ site.accounts.rows, account.isAdmin = true

def StillAdministered (_ : Site) (_ : Label) (next : Site) : Prop := Administered next

/-- A write comes while the account it acts for is an enabled administrator. -/
def ActsNow (site : Site) (label : Label) (_ : Site) : Prop :=
  match label with
  | .write position => ∀ request ∈ site.requests[position]?, actsNow site.accounts request.actor = true
  | _ => True

/-- A request changes another account, or makes its own an administrator. -/
def Request.Spares (request : Request) : Prop :=
  match request.stage with
  | .authorised act => permits request.actor request.target act = true
  | .writing write => request.actor ≠ request.target ∨ write = .role admin

/-- Someone administers, and every request under way spares its own account. -/
structure Sound (site : Site) : Prop where
  administered : Administered site
  spares : ∀ request ∈ site.requests, request.Spares

theorem administered_iff {site : Site} :
    Administered site ↔ ∃ actor, actsNow site.accounts actor = true := by
  constructor
  · rintro ⟨account, member, isAdmin⟩
    exact ⟨account.id, by simp [actsNow, Table.find_of_mem member, isAdmin]⟩
  · rintro ⟨actor, acts⟩
    obtain ⟨account, found, isAdmin⟩ := (Option.any_eq_true _ _).mp acts
    exact ⟨account, Table.mem_of_find found, isAdmin⟩

theorem isAdmin_of_role {account : Account} (enabled : account.enabled = true)
    (role : account.role = admin) : account.isAdmin = true := by
  have ranked : rank admin ≤ rank account.sessionRole := by
    rw [Account.sessionRole, role]
    decide
  simp [Account.isAdmin, enabled, ranked]

/-! ## One write -/

theorem actsNow_apply {accounts : Table Account.id} {actor target : UserId} {write : Write}
    (acts : actsNow accounts actor = true) (spares : actor ≠ target ∨ write = .role admin) :
    actsNow (write.apply accounts target) actor = true := by
  obtain ⟨account, found, isAdmin⟩ := (Option.any_eq_true _ _).mp acts
  by_cases same : actor = target
  · subst same
    obtain rfl := spares.resolve_left fun different => different rfl
    have enabled : account.enabled = true := (Bool.and_eq_true_iff.mp isAdmin).1
    simp [actsNow, Write.apply, Table.find_update, found, isAdmin_of_role, enabled]
  · have kept : (write.apply accounts target).find actor = some account := by
      cases write with
      | enabled value => simp [Write.apply, Table.find_update, same, found]
      | role value => simp [Write.apply, Table.find_update, same, found]
      | delete =>
          rw [Write.apply, Table.find_filter, found]
          simp [Table.key_of_find found, same]
    simp [actsNow, kept, isAdmin]

theorem spares_writeOf {actor target : UserId} {act : Act} {account : Option Account} {write : Write}
    (permitted : permits actor target act = true) (isWrite : writeOf account act = some write) :
    actor ≠ target ∨ write = .role admin := by
  cases act with
  | toggle => exact .inl (of_decide_eq_true permitted)
  | delete => exact .inl (of_decide_eq_true permitted)
  | setRole form =>
      obtain ⟨_, _, isRole⟩ := Option.bind_eq_some_iff.mp isWrite
      obtain ⟨role, normal, rfl⟩ := Option.map_eq_some_iff.mp isRole
      simp only [permits, normal, Bool.or_eq_true, decide_eq_true_eq] at permitted
      exact permitted.imp_right fun isAdmin => by rw [isAdmin]

/-! ## Runs -/

/-- A step keeps an administrator, if its write comes while its own account is one. -/
theorem sound_step {site next : Site} {label : Label} (sound : Sound site)
    (taken : step site label = some next) (acts : ActsNow site label next) : Sound next := by
  cases label with
  | authorise actor target act =>
      simp only [step, Option.ite_none_right_eq_some, Option.some.injEq, Bool.and_eq_true] at taken
      obtain ⟨⟨_, permitted⟩, rfl⟩ := taken
      refine ⟨sound.administered, fun request member => ?_⟩
      rcases List.mem_append.mp member with old | new
      · exact sound.spares request old
      · obtain rfl := List.mem_singleton.mp new
        exact permitted
  | look position =>
      simp only [step] at taken
      split at taken
      · rename_i actor target act found
        have permitted : permits actor target act = true :=
          sound.spares _ (List.mem_of_getElem? found)
        split at taken
        · rename_i write isWrite
          obtain rfl := Option.some.inj taken
          refine ⟨sound.administered, fun request member => ?_⟩
          rcases List.mem_or_eq_of_mem_set member with old | rfl
          · exact sound.spares request old
          · exact spares_writeOf permitted isWrite
        · obtain rfl := Option.some.inj taken
          exact ⟨sound.administered, fun request member =>
            sound.spares request (List.mem_of_mem_eraseIdx member)⟩
      · cases taken
  | write position =>
      simp only [step] at taken
      split at taken
      · rename_i actor target write found
        obtain rfl := Option.some.inj taken
        have spares : actor ≠ target ∨ write = .role admin :=
          sound.spares _ (List.mem_of_getElem? found)
        have stays := actsNow_apply (acts _ found) spares
        exact ⟨administered_iff.mpr ⟨actor, stays⟩, fun request member =>
          sound.spares request (List.mem_of_mem_eraseIdx member)⟩
      · cases taken

/-- An administrator remains after every step, as long as every write comes while the account it acts
for is an enabled administrator. -/
theorem administered_of_actsNow {accounts : Table Account.id} {labels : List Label}
    (administered : Administered ⟨accounts, []⟩)
    (timely : Along step ActsNow ⟨accounts, []⟩ labels) :
    Along step StillAdministered ⟨accounts, []⟩ labels := by
  refine along_of_guarded ?_ (⟨administered, fun _ none => by cases none⟩ : Sound ⟨accounts, []⟩) timely
  intro site label next sound taken acts
  have kept := sound_step sound taken acts
  exact ⟨kept, kept.administered⟩

def pair : Table Account.id where
  rows := [⟨1, admin, true⟩, ⟨2, admin, true⟩]
  distinct := by decide

/-- One of them disables the other one. -/
theorem pair_administered :
    Along step StillAdministered ⟨pair, []⟩ [.authorise 1 2 .toggle, .look 0, .write 0] := by
  refine administered_of_actsNow ⟨_, List.mem_cons_self, by decide⟩ ?_
  refine fun _ allowed => ⟨trivial, ?_⟩
  cases allowed
  refine fun _ looked => ⟨trivial, ?_⟩
  cases looked
  refine fun _ written => ⟨?_, trivial⟩
  intro request found
  cases found
  decide

/-- They disable each other: both are authorised before either writes. -/
theorem eachOther_not_administered :
    ¬ ∀ labels, Along step StillAdministered ⟨pair, []⟩ labels := by
  intro always
  obtain ⟨_, second⟩ := always [.authorise 1 2 .delete, .authorise 2 1 .delete, .look 0, .look 1,
    .write 0, .write 0] _ rfl
  obtain ⟨_, third⟩ := second _ rfl
  obtain ⟨_, fourth⟩ := third _ rfl
  obtain ⟨_, fifth⟩ := fourth _ rfl
  obtain ⟨_, sixth⟩ := fifth _ rfl
  obtain ⟨⟨account, member, _⟩, _⟩ := sixth _ rfl
  exact List.not_mem_nil (show account ∈ [] from member)

end Administrators
end DomainLens
