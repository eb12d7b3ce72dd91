import DomainLens.Library.Run
import DomainLens.Library.Table
import DomainLens.Python.DateTime
import Mathlib

/-!
# API tokens

A token acts for an account until it expires or is revoked, with the lower of its role and that of the
account.  The file embeds the tables with the roles, and settles over every run which texts are
accepted, for what role, and that what is refused once stays refused.
-/

namespace DomainLens

open Python Run

/-! ## Roles -/

namespace Roles

def viewer : Text := "viewer".toList
def user : Text := "user".toList
def admin : Text := "admin".toList

/-- `ROLES`. -/
def roles : List Text := [viewer, user, admin]

/-- `str(value or "").strip().lower()`. -/
def cleaned (value : Option Text) : Text := lower (strip (value.getD []))

/-- `normalize`. -/
def normalize (value : Option Text) (default : Text) : Text :=
  let name := cleaned value
  let name := if name = "analyst".toList then user else name
  if name ∈ roles then name else default

/-- `rank`. -/
def rank (value : Text) : Int :=
  match roles.idxOf? (cleaned (some value)) with
  | some position => position
  | none => -1

/-- `at_least`. -/
def atLeast (role minimum : Text) : Bool := rank minimum ≤ rank role

/-- `lower_of`. -/
def lowerOf (left right : Text) : Text := if rank left ≤ rank right then left else right

end Roles

/-- What an account may do, each role including those before it. -/
inductive Role where
  | viewer
  | user
  | admin
deriving DecidableEq

namespace Role

def name : Role → Text
  | viewer => Roles.viewer
  | user => Roles.user
  | admin => Roles.admin

def rank : Role → Nat
  | viewer => 0
  | user => 1
  | admin => 2

def lower (left right : Role) : Role := if left.rank ≤ right.rank then left else right

/-- The role a stored text stands for: what no role is called is an analyst. -/
def ofText (text : Text) : Role :=
  let name := Roles.cleaned (some text)
  if name = Roles.viewer then viewer else if name = Roles.admin then admin else user

theorem rank_name (role : Role) : Roles.rank role.name = role.rank := by
  cases role <;> decide +kernel

theorem lowerOf_name (left right : Role) :
    Roles.lowerOf left.name right.name = (left.lower right).name := by
  unfold Roles.lowerOf lower
  rw [rank_name, rank_name]
  by_cases below : left.rank ≤ right.rank
  · rw [if_pos below, if_pos (by exact_mod_cast below)]
  · rw [if_neg below, if_neg (by exact_mod_cast below)]

theorem normalize_eq_name (text : Text) :
    Roles.normalize (some text) Roles.user = (ofText text).name := by
  unfold Roles.normalize ofText
  generalize Roles.cleaned (some text) = cleaned
  by_cases isViewer : cleaned = Roles.viewer
  · subst isViewer
    decide +kernel
  · by_cases isAdmin : cleaned = Roles.admin
    · subst isAdmin
      decide +kernel
    · simp only [isViewer, isAdmin, if_false, name, Roles.roles, List.mem_cons, List.not_mem_nil,
        or_false]
      split
      · simp
      · rename_i notAnalyst
        simp only [isViewer, isAdmin, false_or, or_false]
        split
        · assumption
        · rfl

end Role

namespace ApiTokens

/-! ## Tables -/

/-- The columns of `users` a token reads. -/
structure User where
  id : Nat
  email : Text
  name : Option Text
  role : Text
  enabled : Bool
deriving DecidableEq

/-- A row of `api_tokens`.  `last_used_at` is the moment its text stands for. -/
structure Token (Digest : Type) where
  id : Nat
  userId : Nat
  name : Text
  displayPrefix : Text
  tokenHash : Digest
  role : Text
  createdAt : Text
  expiresAt : Text
  lastUsedAt : Option DateTime
  lastUsedIp : Option Text
  revokedAt : Option Text

variable {Digest : Type} [DecidableEq Digest]

/-- The tables with the last ids they gave out, and the clock. -/
structure Store (Digest : Type) where
  users : Table User.id
  lastUser : Nat
  tokens : Table (@Token.id Digest)
  lastToken : Nat
  now : DateTime

def Store.empty (now : DateTime) : Store Digest := ⟨.empty, 0, .empty, 0, now⟩

/-- `PREFIX`. -/
def tokenPrefix : Text := "dlk_".toList

def maxDays : Int := 365

/-- `_public`. -/
structure Public where
  id : Nat
  userId : Nat
  name : Text
  displayPrefix : Text
  role : Text
  createdAt : Text
  expiresAt : Text
  lastUsedAt : Option DateTime
  lastUsedIp : Option Text
  revokedAt : Option Text
  active : Bool

def holds (column : Option Text) : Bool := column.any (· ≠ [])

def toPublic (now : DateTime) (token : Token Digest) : Public where
  id := token.id
  userId := token.userId
  name := token.name
  displayPrefix := token.displayPrefix
  role := token.role
  createdAt := token.createdAt
  expiresAt := token.expiresAt
  lastUsedAt := token.lastUsedAt
  lastUsedIp := token.lastUsedIp
  revokedAt := token.revokedAt
  active := !holds token.revokedAt && decide (now.isoformat < token.expiresAt)

/-! ## Operations -/

/-- The account `create` is called for, as its caller has read it. -/
structure Owner where
  id : Nat
  role : Option Text

/-- What is asked of `create`; `days` is `int(days)`. -/
structure Wish where
  owner : Owner
  name : Option Text
  role : Option Text
  days : Option Int

/-- What `create` checks: the name, the role and the expiry of the token. -/
def prepare (now : DateTime) (wish : Wish) : Except Text (Text × Text × DateTime) :=
  let name := (strip (wish.name.getD [])).take 80
  if name = [] then
    .error ("Give the token a name, so it can be recognised when it has to be revoked").toList
  else
    match wish.days with
    | none => .error "Expiry must be a number of days".toList
    | some days =>
        if ¬ (1 ≤ days ∧ days ≤ maxDays) then
          .error "Expiry must be between 1 and 365 days".toList
        else
          let ownerRole := Roles.normalize wish.owner.role Roles.user
          let wanted := Roles.normalize wish.role ownerRole
          if !Roles.atLeast ownerRole wanted then
            .error "A token cannot hold more rights than its owner".toList
          else
            match now.plusDays days.toNat with
            | none => .error "date value out of range".toList
            | some expires => .ok (name, wanted, expires)

variable (digest : Text → Digest)

/-- `create`; `secret` is what `token_urlsafe` draws. -/
def create (store : Store Digest) (wish : Wish) (secret : Text) :
    Except Text (Text × Public) × Store Digest :=
  match prepare store.now wish with
  | .error problem => (.error problem, store)
  | .ok (name, wanted, expires) =>
      let raw := tokenPrefix ++ secret
      if store.tokens.rows.any (·.tokenHash = digest raw) then
        (.error "UNIQUE constraint failed: api_tokens.token_hash".toList, store)
      else if (store.users.find wish.owner.id).isNone then
        (.error "FOREIGN KEY constraint failed".toList, store)
      else
        let token : Token Digest :=
          { id := store.lastToken + 1
            userId := wish.owner.id
            name
            displayPrefix := raw.take (tokenPrefix.length + 6)
            tokenHash := digest raw
            role := wanted
            createdAt := store.now.isoformat
            expiresAt := expires.isoformat
            lastUsedAt := none
            lastUsedIp := none
            revokedAt := none }
        (.ok (raw, toPublic store.now token),
          { store with tokens := store.tokens.put token, lastToken := store.lastToken + 1 })

/-- `revoke`. -/
def revoke (store : Store Digest) (id : Nat) (userId : Option Nat) : Bool × Store Digest :=
  match store.tokens.find id with
  | some token =>
      if token.revokedAt.isNone ∧ ∀ user ∈ userId, token.userId = user then
        (true, { store with
          tokens := store.tokens.update id
            (fun token => { token with revokedAt := some store.now.isoformat }) fun _ => rfl })
      else (false, store)
  | none => (false, store)

structure Identity where
  id : Nat
  email : Text
  name : Option Text
  role : Text
  provider : Text
  tokenId : Nat
  tokenName : Text

/-- `last_used_at` is written again after a minute; `minuteBefore` fails in year 1 only. -/
def isStale (now : DateTime) (lastUsedAt : Option DateTime) : Bool :=
  match lastUsedAt with
  | none => true
  | some last => now.minuteBefore.any fun limit => decide (last < limit)

/-- `authenticate`. -/
def authenticate (store : Store Digest) (raw : Text) (ip : Option Text) :
    Option Identity × Store Digest :=
  if !tokenPrefix.isPrefixOf raw then (none, store)
  else
    match store.tokens.rows.find? (·.tokenHash = digest raw) with
    | none => (none, store)
    | some token =>
        if holds token.revokedAt then (none, store)
        else if ¬ store.now.isoformat < token.expiresAt then (none, store)
        else
          match (store.users.find token.userId).filter (·.enabled) with
          | none => (none, store)
          | some owner =>
              (some
                { id := owner.id
                  email := owner.email
                  name := owner.name
                  role := Roles.lowerOf (Roles.normalize (some token.role) Roles.user)
                    (Roles.normalize (some owner.role) Roles.user)
                  provider := "api_token".toList
                  tokenId := token.id
                  tokenName := token.name },
                if isStale store.now token.lastUsedAt then
                  { store with
                    tokens := store.tokens.update token.id
                      (fun token => { token with lastUsedAt := some store.now, lastUsedIp := ip })
                      fun _ => rfl }
                else store)

/-- The columns of an account that change. -/
structure Account where
  email : Text
  name : Option Text
  role : Text
  enabled : Bool

/-- `db.create_user`. -/
def createUser (store : Store Digest) (account : Account) : Store Digest :=
  { store with
    users := store.users.put
      ⟨store.lastUser + 1, account.email, account.name, account.role, account.enabled⟩
    lastUser := store.lastUser + 1 }

/-- `db.update_user`, with what the columns are after it. -/
def updateUser (store : Store Digest) (id : Nat) (account : Account) : Store Digest :=
  { store with
    users := store.users.update id
      (fun user => ⟨user.id, account.email, account.name, account.role, account.enabled⟩)
      fun _ => rfl }

/-- `db.delete_user`; the tokens of the account go with it. -/
def deleteUser (store : Store Digest) (id : Nat) : Store Digest :=
  { store with
    users := store.users.filter (·.id ≠ id)
    tokens := store.tokens.filter (·.userId ≠ id) }

/-! ## Runs -/

/-- A token `create` returned, with the moment it expires at. -/
structure Issue where
  raw : Text
  id : Nat
  userId : Nat
  role : Text
  expires : DateTime

/-- The tables, with the tokens returned so far and the ids that were revoked. -/
structure World (Digest : Type) where
  store : Store Digest
  issued : List Issue
  revoked : List Nat

def World.start (now : DateTime) : World Digest := ⟨.empty now, [], []⟩

inductive Label where
  | createUser (account : Account)
  | updateUser (id : Nat) (account : Account)
  | deleteUser (id : Nat)
  | create (wish : Wish) (secret : Text)
  | revoke (id : Nat) (userId : Option Nat)
  | authenticate (raw : Text) (ip : Option Text)
  | clock (now : DateTime)

/-- The issue of a token that was returned. -/
def issueOf (now : DateTime) (wish : Wish) : Except Text (Text × Public) → Option Issue
  | .error _ => none
  | .ok (raw, record) =>
      match prepare now wish with
      | .error _ => none
      | .ok (_, _, expires) => some ⟨raw, record.id, wish.owner.id, record.role, expires⟩

/-- The revoked ids after a call of `revoke`: it revokes a token that was issued, if it names no other
owner. -/
def revokedBy (world : World Digest) (id : Nat) (userId : Option Nat) : List Nat :=
  if world.issued.any fun issue => issue.id = id && userId.all (· = issue.userId) then
    id :: world.revoked
  else world.revoked

def step (world : World Digest) : Label → Option (World Digest)
  | .createUser account => some { world with store := createUser world.store account }
  | .updateUser id account => some { world with store := updateUser world.store id account }
  | .deleteUser id => some { world with store := deleteUser world.store id }
  | .create wish secret =>
      let created := create digest world.store wish secret
      some
        { world with
          store := created.2
          issued := (issueOf world.store.now wish created.1).toList ++ world.issued }
  | .revoke id userId =>
      some
        { world with
          store := (revoke world.store id userId).2
          revoked := revokedBy world id userId }
  | .authenticate raw ip =>
      some { world with store := (authenticate digest world.store raw ip).2 }
  | .clock now =>
      if world.store.now ≤ now then some { world with store := { world.store with now } } else none

/-! ## Rows and issues -/

/-- A row holds the token that was issued. -/
structure Matches (world : World Digest) (row : Token Digest) (issue : Issue) : Prop where
  id : row.id = issue.id
  userId : row.userId = issue.userId
  hash : row.tokenHash = digest issue.raw
  role : row.role = issue.role
  expires : row.expiresAt = issue.expires.isoformat
  revoked : row.revokedAt = none ∧ issue.id ∉ world.revoked ∨
    holds row.revokedAt = true ∧ issue.id ∈ world.revoked

/-- The rows are those of the tokens whose owners exist. -/
structure Sound (world : World Digest) : Prop where
  known : ∀ row ∈ world.store.tokens.rows, ∃ issue ∈ world.issued, Matches digest world row issue
  kept : ∀ issue ∈ world.issued, (world.store.users.find issue.userId).isSome →
    ∃ row ∈ world.store.tokens.rows, Matches digest world row issue
  hashes : ∀ row ∈ world.store.tokens.rows, ∀ other ∈ world.store.tokens.rows,
    row.tokenHash = other.tokenHash → row = other
  named : ∀ issue ∈ world.issued, tokenPrefix <+: issue.raw
  distinct : ∀ issue ∈ world.issued, ∀ other ∈ world.issued, issue.id = other.id → issue = other
  issuedBelow : ∀ issue ∈ world.issued, issue.id ≤ world.store.lastToken
  revokedBelow : ∀ id ∈ world.revoked, id ≤ world.store.lastToken
  ownersBelow : ∀ issue ∈ world.issued, issue.userId ≤ world.store.lastUser
  usersBelow : ∀ user ∈ world.store.users.rows, user.id ≤ world.store.lastUser

omit [DecidableEq Digest] in
theorem sound_start (now : DateTime) : Sound digest (World.start now : World Digest) where
  known row member := by cases member
  kept issue member := by cases member
  hashes row member := by cases member
  named issue member := by cases member
  distinct issue member := by cases member
  issuedBelow issue member := by cases member
  revokedBelow id member := by cases member
  ownersBelow issue member := by cases member
  usersBelow user member := by cases member

variable {digest}

omit [DecidableEq Digest] in
theorem Sound.of_rows {world next : World Digest} (sound : Sound digest world)
    (change : Token Digest → Token Digest)
    (rows : next.store.tokens.rows = world.store.tokens.rows.map change)
    (hash : ∀ row, (change row).tokenHash = row.tokenHash)
    (matched : ∀ row ∈ world.store.tokens.rows, ∀ issue ∈ world.issued,
      Matches digest world row issue → Matches digest next (change row) issue)
    (issued : next.issued = world.issued) (lastToken : next.store.lastToken = world.store.lastToken)
    (lastUser : world.store.lastUser ≤ next.store.lastUser)
    (revoked : ∀ id ∈ next.revoked, id ≤ world.store.lastToken)
    (owners : ∀ id ≤ world.store.lastUser, (next.store.users.find id).isSome →
      (world.store.users.find id).isSome)
    (users : ∀ user ∈ next.store.users.rows, user.id ≤ next.store.lastUser) :
    Sound digest next where
  known row member := by
    rw [rows] at member
    obtain ⟨old, isOld, rfl⟩ := List.mem_map.mp member
    obtain ⟨issue, isIssue, same⟩ := sound.known old isOld
    exact ⟨issue, issued ▸ isIssue, matched old isOld issue isIssue same⟩
  kept issue isIssue exist := by
    rw [issued] at isIssue
    obtain ⟨row, isRow, same⟩ :=
      sound.kept issue isIssue (owners _ (sound.ownersBelow issue isIssue) exist)
    exact ⟨change row, rows ▸ List.mem_map_of_mem isRow, matched row isRow issue isIssue same⟩
  hashes row member other isOther same := by
    rw [rows] at member isOther
    obtain ⟨old, isOld, rfl⟩ := List.mem_map.mp member
    obtain ⟨old', isOld', rfl⟩ := List.mem_map.mp isOther
    rw [hash, hash] at same
    rw [sound.hashes old isOld old' isOld' same]
  named := issued ▸ sound.named
  distinct := issued ▸ sound.distinct
  issuedBelow issue member := lastToken ▸ sound.issuedBelow issue (issued ▸ member)
  revokedBelow id member := lastToken ▸ revoked id member
  ownersBelow issue member := (sound.ownersBelow issue (issued ▸ member)).trans lastUser
  usersBelow := users

omit [DecidableEq Digest] in
theorem Matches.of_revoked {world next : World Digest} {row : Token Digest} {issue : Issue}
    (same : Matches digest world row issue) (revoked : next.revoked = world.revoked) :
    Matches digest next row issue :=
  ⟨same.id, same.userId, same.hash, same.role, same.expires, revoked ▸ same.revoked⟩

omit [DecidableEq Digest] in
theorem Sound.of_tokens {world next : World Digest} (sound : Sound digest world)
    (tokens : next.store.tokens = world.store.tokens) (issued : next.issued = world.issued)
    (revoked : next.revoked = world.revoked)
    (lastToken : next.store.lastToken = world.store.lastToken)
    (lastUser : world.store.lastUser ≤ next.store.lastUser)
    (owners : ∀ id ≤ world.store.lastUser, (next.store.users.find id).isSome →
      (world.store.users.find id).isSome)
    (users : ∀ user ∈ next.store.users.rows, user.id ≤ next.store.lastUser) : Sound digest next :=
  sound.of_rows id (by rw [tokens, List.map_id]) (fun _ => rfl)
    (fun _ _ _ _ same => same.of_revoked revoked) issued lastToken lastUser
    (revoked ▸ sound.revokedBelow) owners users

omit [DecidableEq Digest] in
theorem Sound.createUser {world : World Digest} (sound : Sound digest world) (account : Account) :
    Sound digest { world with store := ApiTokens.createUser world.store account } := by
  refine sound.of_tokens rfl rfl rfl rfl (Nat.le_succ _) ?_ ?_
  · intro id below
    rw [ApiTokens.createUser, Table.find_put,
      if_neg (Nat.ne_of_lt (Nat.lt_succ_of_le below))]
    exact fun found => found
  · intro user member
    rcases Table.mem_put member with old | rfl
    · exact (sound.usersBelow user old).trans (Nat.le_succ _)
    · exact le_rfl

omit [DecidableEq Digest] in
theorem Sound.updateUser {world : World Digest} (sound : Sound digest world) (id : Nat)
    (account : Account) :
    Sound digest { world with store := ApiTokens.updateUser world.store id account } := by
  refine sound.of_tokens rfl rfl rfl rfl le_rfl ?_ ?_
  · intro other _ found
    rw [ApiTokens.updateUser, Table.find_update] at found
    split at found
    · rename_i same
      simpa [same] using found
    · exact found
  · intro user member
    obtain ⟨old, isOld, rfl⟩ := List.mem_map.mp member
    have below := sound.usersBelow old isOld
    split
    · exact below
    · exact below

omit [DecidableEq Digest] in
theorem Sound.deleteUser {world : World Digest} (sound : Sound digest world) (id : Nat) :
    Sound digest { world with store := ApiTokens.deleteUser world.store id } where
  known row member := by
    obtain ⟨issue, isIssue, same⟩ := sound.known row (List.mem_filter.mp member).1
    exact ⟨issue, isIssue, same.of_revoked rfl⟩
  kept issue isIssue exist := by
    rw [ApiTokens.deleteUser, Table.find_filter] at exist
    obtain ⟨owner, found⟩ := Option.isSome_iff_exists.mp exist
    obtain ⟨isOwner, other⟩ := Option.filter_eq_some_iff.mp found
    obtain ⟨row, isRow, same⟩ := sound.kept issue isIssue (by rw [isOwner]; rfl)
    refine ⟨row, List.mem_filter.mpr ⟨isRow, ?_⟩, same.of_revoked rfl⟩
    rw [same.userId, ← Table.key_of_find isOwner]
    exact other
  hashes row member other isOther :=
    sound.hashes row (List.mem_filter.mp member).1 other (List.mem_filter.mp isOther).1
  named := sound.named
  distinct := sound.distinct
  issuedBelow := sound.issuedBelow
  revokedBelow := sound.revokedBelow
  ownersBelow := sound.ownersBelow
  usersBelow user member := sound.usersBelow user (List.mem_filter.mp member).1

omit [DecidableEq Digest] in
theorem holds_isoformat (moment : DateTime) : holds (some moment.isoformat) = true := by
  simp [holds, DateTime.isoformat, List.append_eq_nil_iff]

omit [DecidableEq Digest] in
theorem mem_revokedBy {world : World Digest} {id other : Nat} {userId : Option Nat} :
    other ∈ revokedBy world id userId ↔
      other ∈ world.revoked ∨
        other = id ∧ ∃ issue ∈ world.issued, issue.id = id ∧ ∀ user ∈ userId, user = issue.userId := by
  unfold revokedBy
  split
  · rename_i isNamed
    obtain ⟨issue, member, names⟩ := List.any_eq_true.mp isNamed
    simp only [Bool.and_eq_true, decide_eq_true_eq, Option.all_eq_true] at names
    rw [List.mem_cons]
    constructor
    · rintro (rfl | old)
      · exact .inr ⟨rfl, issue, member, names⟩
      · exact .inl old
    · rintro (old | ⟨rfl, -⟩)
      · exact .inr old
      · exact .inl rfl
  · rename_i unnamed
    refine ⟨.inl, ?_⟩
    rintro (old | ⟨-, issue, member, names⟩)
    · exact old
    · refine absurd (List.any_eq_true.mpr ⟨issue, member, ?_⟩) unnamed
      simp only [Bool.and_eq_true, decide_eq_true_eq, Option.all_eq_true]
      exact names

omit [DecidableEq Digest] in
theorem Matches.revokedBy {world next : World Digest} (sound : Sound digest world)
    {row : Token Digest} {issue : Issue} (isIssue : issue ∈ world.issued)
    (same : Matches digest world row issue) {id : Nat} {userId : Option Nat}
    (revoked : next.revoked = ApiTokens.revokedBy world id userId) {column : Option Text}
    (written : row.id = id → (row.revokedAt = none ∧ ∀ user ∈ userId, row.userId = user) →
      holds column = true)
    (left : ¬ (row.id = id ∧ row.revokedAt = none ∧ ∀ user ∈ userId, row.userId = user) →
      column = row.revokedAt) :
    Matches digest next { row with revokedAt := column } issue := by
  refine ⟨same.id, same.userId, same.hash, same.role, same.expires, ?_⟩
  rw [revoked, mem_revokedBy]
  by_cases hit : row.id = id ∧ row.revokedAt = none ∧ ∀ user ∈ userId, row.userId = user
  · refine .inr ⟨written hit.1 hit.2, .inr ⟨same.id ▸ hit.1, issue, isIssue, same.id ▸ hit.1, ?_⟩⟩
    exact fun user member => (same.userId ▸ hit.2.2 user member).symm
  · rw [left hit]
    rcases same.revoked with ⟨unrevoked, absent⟩ | ⟨held, present⟩
    · refine .inl ⟨unrevoked, ?_⟩
      rintro (present | ⟨isId, other, isOther, otherId, names⟩)
      · exact absent present
      · -- The issue named is that of the row, whose owner the call does not name.
        obtain rfl := sound.distinct other isOther issue isIssue (otherId.trans isId.symm)
        exact hit ⟨same.id.trans isId, unrevoked, fun user member =>
          same.userId.trans (names user member).symm⟩
    · exact .inr ⟨held, .inl present⟩

omit [DecidableEq Digest] in
theorem Sound.revoke {world : World Digest} (sound : Sound digest world) (id : Nat)
    (userId : Option Nat) :
    Sound digest
      { world with
        store := (ApiTokens.revoke world.store id userId).2
        revoked := revokedBy world id userId } := by
  have below : ∀ other ∈ revokedBy world id userId, other ≤ world.store.lastToken := by
    intro other member
    rcases mem_revokedBy.mp member with old | ⟨rfl, issue, isIssue, rfl, -⟩
    · exact sound.revokedBelow other old
    · exact sound.issuedBelow issue isIssue
  -- Of the rows only the one under the id can be written to.
  have untouched {store : Store Digest} (same : store = world.store)
      (left : ∀ row ∈ world.store.tokens.rows,
        ¬ (row.id = id ∧ row.revokedAt = none ∧ ∀ user ∈ userId, row.userId = user)) :
      Sound digest { world with store, revoked := revokedBy world id userId } := by
    subst same
    refine sound.of_rows (fun row => { row with revokedAt := row.revokedAt }) (List.map_id' _).symm
      (fun _ => rfl) (fun row isRow issue isIssue isSame => ?_) rfl rfl le_rfl below
      (fun _ _ found => found) sound.usersBelow
    exact isSame.revokedBy sound isIssue rfl
      (fun isId hit => absurd ⟨isId, hit⟩ (left row isRow)) fun _ => rfl
  unfold ApiTokens.revoke
  cases found : world.store.tokens.find id with
  | none =>
      exact untouched rfl fun row isRow hit => Table.find_eq_none.mp found row isRow hit.1
  | some token =>
      dsimp only
      split
      · rename_i guarded
        refine sound.of_rows
          (fun row => { row with revokedAt :=
            if row.id = id then some world.store.now.isoformat else row.revokedAt }) ?_
          (fun _ => rfl) (fun row isRow issue isIssue isSame => ?_) rfl rfl le_rfl below
          (fun _ _ kept => kept) sound.usersBelow
        · refine List.map_congr_left fun row _ => ?_
          split
          · rfl
          · rfl
        · refine isSame.revokedBy sound isIssue rfl ?_ ?_
          · intro isId _
            rw [if_pos isId]
            exact holds_isoformat _
          · intro miss
            refine if_neg fun isId => miss ⟨isId, ?_⟩
            have same := Table.find_of_mem isRow
            rw [isId, found] at same
            obtain rfl := Option.some.inj same
            exact ⟨Option.isNone_iff_eq_none.mp guarded.1, guarded.2⟩
      · rename_i unguarded
        refine untouched rfl fun row isRow hit => unguarded ?_
        have same := Table.find_of_mem isRow
        rw [hit.1, found] at same
        obtain rfl := Option.some.inj same
        exact ⟨Option.isNone_iff_eq_none.mpr hit.2.1, hit.2.2⟩

/-! ## Creation -/

variable (digest) in
/-- What `create` adds: nothing, or a row for the token it returns. -/
theorem create_cases (store : Store Digest) (wish : Wish) (secret : Text) :
    ((create digest store wish secret).2 = store ∧
      issueOf store.now wish (create digest store wish secret).1 = none) ∨
    ∃ token issue, issueOf store.now wish (create digest store wish secret).1 = some issue ∧
      (create digest store wish secret).2 =
        { store with tokens := store.tokens.put token, lastToken := store.lastToken + 1 } ∧
      token.id = store.lastToken + 1 ∧ token.id = issue.id ∧ token.userId = issue.userId ∧
      token.tokenHash = digest issue.raw ∧ token.role = issue.role ∧
      token.expiresAt = issue.expires.isoformat ∧ token.revokedAt = none ∧
      (∀ row ∈ store.tokens.rows, row.tokenHash ≠ token.tokenHash) ∧
      (store.users.find issue.userId).isSome ∧ tokenPrefix <+: issue.raw := by
  unfold create
  cases prepared : prepare store.now wish with
  | error problem => exact .inl ⟨rfl, rfl⟩
  | ok checked =>
      obtain ⟨name, wanted, expires⟩ := checked
      dsimp only
      split
      · exact .inl ⟨rfl, rfl⟩
      · rename_i unique
        split
        · exact .inl ⟨rfl, rfl⟩
        · rename_i exist
          refine .inr ⟨_, ⟨tokenPrefix ++ secret, store.lastToken + 1, wish.owner.id, wanted, expires⟩,
            ?_, rfl, rfl, rfl, rfl, rfl, rfl, rfl, rfl, ?_, ?_, List.prefix_append _ _⟩
          · simp only [issueOf, prepared, toPublic]
          · intro row isRow same
            exact unique (List.any_eq_true.mpr ⟨row, isRow, by simpa using same⟩)
          · simpa [Option.isSome_iff_ne_none] using exist

theorem Sound.create {world : World Digest} (sound : Sound digest world) (wish : Wish)
    (secret : Text) :
    Sound digest
      { world with
        store := (ApiTokens.create digest world.store wish secret).2
        issued := (issueOf world.store.now wish
          (ApiTokens.create digest world.store wish secret).1).toList ++ world.issued } := by
  rcases create_cases digest world.store wish secret with ⟨same, none⟩ |
    ⟨token, issue, isIssue, isStore, isNew, id, userId, hash, role, expires, unrevoked, unique, exist,
      isNamed⟩
  · rw [same, none]
    exact sound
  · rw [isStore, isIssue]
    have fresh : world.store.tokens.find token.id = .none := by
      refine Table.find_eq_none.mpr fun row isRow same => ?_
      obtain ⟨other, isOther, matched⟩ := sound.known row isRow
      have below := sound.issuedBelow other isOther
      rw [← matched.id, same, isNew] at below
      exact Nat.not_succ_le_self _ below
    have absent : issue.id ∉ world.revoked := by
      intro member
      have below := sound.revokedBelow _ member
      rw [← id, isNew] at below
      exact Nat.not_succ_le_self _ below
    have apart : ∀ other ∈ world.issued, issue.id ≠ other.id := by
      intro other isOther same
      have below := sound.issuedBelow other isOther
      rw [← same, ← id, isNew] at below
      exact Nat.not_succ_le_self _ below
    have rows {row : Token Digest} :
        row ∈ (world.store.tokens.put token).rows ↔
          row ∈ world.store.tokens.rows ∨ row = token := by
      refine ⟨Table.mem_put, ?_⟩
      rintro (old | rfl)
      · refine List.mem_append.mpr (.inl (List.mem_filter.mpr ⟨old, ?_⟩))
        exact decide_eq_true (Table.find_eq_none.mp fresh row old)
      · exact List.mem_append.mpr (.inr (List.mem_singleton.mpr rfl))
    have new : Matches digest
        { world with
          store := { world.store with
            tokens := world.store.tokens.put token
            lastToken := world.store.lastToken + 1 }
          issued := (some issue).toList ++ world.issued } token issue :=
      ⟨id, userId, hash, role, expires, .inl ⟨unrevoked, absent⟩⟩
    refine ⟨?_, ?_, ?_, ?_, ?_, ?_, ?_, ?_, sound.usersBelow⟩
    · intro row member
      rcases rows.mp member with old | rfl
      · obtain ⟨other, isOther, same⟩ := sound.known row old
        exact ⟨other, List.mem_cons_of_mem _ isOther, same.of_revoked rfl⟩
      · exact ⟨issue, List.mem_cons_self, new⟩
    · intro other member isSome
      rcases List.mem_cons.mp member with rfl | old
      · exact ⟨token, rows.mpr (.inr rfl), new⟩
      · obtain ⟨row, isRow, same⟩ := sound.kept other old isSome
        exact ⟨row, rows.mpr (.inl isRow), same.of_revoked rfl⟩
    · intro row member other isOther same
      rcases rows.mp member with old | rfl
      · rcases rows.mp isOther with old' | rfl
        · exact sound.hashes row old other old' same
        · exact absurd same (unique row old)
      · rcases rows.mp isOther with old' | rfl
        · exact absurd same.symm (unique other old')
        · rfl
    · intro other member
      rcases List.mem_cons.mp member with rfl | old
      · exact isNamed
      · exact sound.named other old
    · intro first isFirst second isSecond same
      rcases List.mem_cons.mp isFirst with rfl | old
      · rcases List.mem_cons.mp isSecond with rfl | old'
        · rfl
        · exact absurd same (apart second old')
      · rcases List.mem_cons.mp isSecond with rfl | old'
        · exact absurd same.symm (apart first old)
        · exact sound.distinct first old second old' same
    · intro other member
      rcases List.mem_cons.mp member with rfl | old
      · exact (id.symm.trans isNew).le
      · exact (sound.issuedBelow other old).trans (Nat.le_succ _)
    · intro other member
      exact (sound.revokedBelow other member).trans (Nat.le_succ _)
    · intro other member
      rcases List.mem_cons.mp member with rfl | old
      · obtain ⟨owner, found⟩ := Option.isSome_iff_exists.mp exist
        exact Table.key_of_find found ▸ sound.usersBelow owner (Table.mem_of_find found)
      · exact sound.ownersBelow other old

/-! ## Acceptance -/

variable (digest) in
theorem authenticate_store (store : Store Digest) (raw : Text) (ip : Option Text) :
    (authenticate digest store raw ip).2 = store ∨
      ∃ id, (authenticate digest store raw ip).2 =
        { store with
          tokens := store.tokens.update id
            (fun token => { token with lastUsedAt := some store.now, lastUsedIp := ip })
            fun _ => rfl } := by
  unfold authenticate
  split
  · exact .inl rfl
  · split
    · exact .inl rfl
    · split
      · exact .inl rfl
      · split
        · exact .inl rfl
        · split
          · exact .inl rfl
          · split
            · exact .inr ⟨_, rfl⟩
            · exact .inl rfl

theorem Sound.authenticate {world : World Digest} (sound : Sound digest world) (raw : Text)
    (ip : Option Text) :
    Sound digest { world with store := (ApiTokens.authenticate digest world.store raw ip).2 } := by
  rcases authenticate_store digest world.store raw ip with same | ⟨id, same⟩
  · rw [same]
    exact sound
  · rw [same]
    refine sound.of_rows _ rfl (fun row => ?_) (fun row _ issue _ isSame => ?_) rfl rfl le_rfl
      sound.revokedBelow (fun _ _ found => found) sound.usersBelow
    · split
      · rfl
      · rfl
    · split
      · exact ⟨isSame.id, isSame.userId, isSame.hash, isSame.role, isSame.expires, isSame.revoked⟩
      · exact isSame.of_revoked rfl

theorem Sound.step {world next : World Digest} (sound : Sound digest world) {label : Label}
    (taken : ApiTokens.step digest world label = some next) : Sound digest next := by
  cases label with
  | createUser account =>
      obtain rfl := Option.some.inj taken
      exact sound.createUser account
  | updateUser id account =>
      obtain rfl := Option.some.inj taken
      exact sound.updateUser id account
  | deleteUser id =>
      obtain rfl := Option.some.inj taken
      exact sound.deleteUser id
  | create wish secret =>
      obtain rfl := Option.some.inj taken
      exact sound.create wish secret
  | revoke id userId =>
      obtain rfl := Option.some.inj taken
      exact sound.revoke id userId
  | authenticate raw ip =>
      obtain rfl := Option.some.inj taken
      exact sound.authenticate raw ip
  | clock now =>
      obtain ⟨-, same⟩ := Option.ite_none_right_eq_some.mp taken
      obtain rfl := Option.some.inj same
      exact sound.of_tokens rfl rfl rfl rfl le_rfl (fun _ _ found => found) sound.usersBelow

/-- A token that is good for an account: neither revoked nor expired, of an owner that is there and
enabled. -/
structure Good (world : World Digest) (issue : Issue) (owner : User) : Prop where
  isIssue : issue ∈ world.issued
  unrevoked : issue.id ∉ world.revoked
  unexpired : world.store.now < issue.expires
  isOwner : world.store.users.find issue.userId = some owner
  enabled : owner.enabled = true

theorem Sound.good_of_authenticate {world : World Digest} (sound : Sound digest world)
    (injective : Function.Injective digest) {raw : Text} {ip : Option Text} {identity : Identity}
    (accepted : (ApiTokens.authenticate digest world.store raw ip).1 = some identity) :
    ∃ issue owner, Good world issue owner ∧ issue.raw = raw ∧ identity.tokenId = issue.id ∧
      identity.id = owner.id ∧
      identity.role = ((Role.ofText issue.role).lower (Role.ofText owner.role)).name := by
  unfold ApiTokens.authenticate at accepted
  split at accepted
  · cases accepted
  · split at accepted
    · cases accepted
    · rename_i token found
      split at accepted
      · cases accepted
      · rename_i unheld
        split at accepted
        · cases accepted
        · rename_i unexpired
          split at accepted
          · cases accepted
          · rename_i owner isOwner
            obtain ⟨held, enabled⟩ := Option.filter_eq_some_iff.mp isOwner
            obtain ⟨issue, isIssue, same⟩ := sound.known token (List.mem_of_find?_eq_some found)
            have hash : token.tokenHash = digest raw := by simpa using List.find?_some found
            have isRaw : issue.raw = raw := injective (same.hash.symm.trans hash)
            rw [not_not, same.expires, DateTime.isoformat_lt_iff] at unexpired
            have unrevoked : issue.id ∉ world.revoked := by
              rcases same.revoked with ⟨-, absent⟩ | ⟨holds, -⟩
              · exact absent
              · exact absurd holds unheld
            obtain rfl := Option.some.inj accepted
            refine ⟨issue, owner, ⟨isIssue, unrevoked, unexpired, same.userId ▸ held, enabled⟩, isRaw,
              same.id, rfl, ?_⟩
            dsimp only
            rw [Role.normalize_eq_name, Role.normalize_eq_name, Role.lowerOf_name, same.role]

theorem Sound.authenticate_of_good {world : World Digest} (sound : Sound digest world)
    {issue : Issue} {owner : User} (good : Good world issue owner) (ip : Option Text) :
    (ApiTokens.authenticate digest world.store issue.raw ip).1.isSome = true := by
  obtain ⟨row, isRow, same⟩ := sound.kept issue good.isIssue (by rw [good.isOwner]; rfl)
  have found : world.store.tokens.rows.find? (·.tokenHash = digest issue.raw) = some row := by
    have exist : (world.store.tokens.rows.find? (·.tokenHash = digest issue.raw)).isSome = true :=
      List.find?_isSome.mpr ⟨row, isRow, decide_eq_true same.hash⟩
    obtain ⟨other, isOther⟩ := Option.isSome_iff_exists.mp exist
    have hash : other.tokenHash = digest issue.raw := by simpa using List.find?_some isOther
    rw [isOther, sound.hashes other (List.mem_of_find?_eq_some isOther) row isRow
      (hash.trans same.hash.symm)]
  have unheld : holds row.revokedAt = false := by
    rcases same.revoked with ⟨none, -⟩ | ⟨-, present⟩
    · rw [none]
      rfl
    · exact absurd present good.unrevoked
  have isNamed : tokenPrefix.isPrefixOf issue.raw = true :=
    List.isPrefixOf_iff_prefix.mpr (sound.named issue good.isIssue)
  have unexpired : world.store.now.isoformat < row.expiresAt := by
    rw [same.expires, DateTime.isoformat_lt_iff]
    exact good.unexpired
  have isOwner : (world.store.users.find row.userId).filter (·.enabled) = some owner := by
    rw [same.userId, good.isOwner]
    exact Option.filter_eq_some_iff.mpr ⟨rfl, good.enabled⟩
  simp [ApiTokens.authenticate, isNamed, found, unheld, unexpired, isOwner]

/-! ## Refusal -/

/-- What a step leaves behind: tokens stay issued, the revoked stay revoked, and time goes on. -/
structure Later (world next : World Digest) : Prop where
  issued : ∀ issue ∈ world.issued, issue ∈ next.issued
  revoked : ∀ id ∈ world.revoked, id ∈ next.revoked
  now : world.store.now ≤ next.store.now

theorem now_of_authenticate (store : Store Digest) (raw : Text) (ip : Option Text) :
    (authenticate digest store raw ip).2.now = store.now := by
  rcases authenticate_store digest store raw ip with same | ⟨id, same⟩
  · rw [same]
  · rw [same]

theorem now_of_create (store : Store Digest) (wish : Wish) (secret : Text) :
    (create digest store wish secret).2.now = store.now := by
  rcases create_cases digest store wish secret with ⟨same, -⟩ |
    ⟨token, issue, -, same, -⟩
  · rw [same]
  · rw [same]

omit [DecidableEq Digest] in
theorem now_of_revoke (store : Store Digest) (id : Nat) (userId : Option Nat) :
    (revoke store id userId).2.now = store.now := by
  unfold revoke
  split
  · split
    · rfl
    · rfl
  · rfl

theorem later_step {world next : World Digest} {label : Label}
    (taken : step digest world label = some next) : Later world next := by
  have unmoved {moment moment' : DateTime} (same : moment' = moment) : moment ≤ moment' :=
    same ▸ DateTime.le_refl moment
  cases label with
  | createUser account =>
      obtain rfl := Option.some.inj taken
      exact ⟨fun _ => id, fun _ => id, unmoved rfl⟩
  | updateUser user account =>
      obtain rfl := Option.some.inj taken
      exact ⟨fun _ => id, fun _ => id, unmoved rfl⟩
  | deleteUser user =>
      obtain rfl := Option.some.inj taken
      exact ⟨fun _ => id, fun _ => id, unmoved rfl⟩
  | create wish secret =>
      obtain rfl := Option.some.inj taken
      exact ⟨fun _ => List.mem_append_right _, fun _ => id, unmoved (now_of_create _ _ _)⟩
  | revoke token userId =>
      obtain rfl := Option.some.inj taken
      exact ⟨fun _ => id, fun _ old => mem_revokedBy.mpr (.inl old), unmoved (now_of_revoke _ _ _)⟩
  | authenticate raw ip =>
      obtain rfl := Option.some.inj taken
      exact ⟨fun _ => id, fun _ => id, unmoved (now_of_authenticate _ _ _)⟩
  | clock now =>
      obtain ⟨later, same⟩ := Option.ite_none_right_eq_some.mp taken
      obtain rfl := Option.some.inj same
      exact ⟨fun _ => id, fun _ => id, later⟩

theorem later_run {world final : World Digest} {labels : List Label}
    (execution : run (step digest) world labels = some final) : Later world final := by
  have kept : ∀ state label next, Later world state → step digest state label = some next →
      Later world next := by
    intro state label next before taken
    have after := later_step taken
    exact ⟨fun issue member => after.issued issue (before.issued issue member),
      fun id member => after.revoked id (before.revoked id member),
      DateTime.le_trans before.now after.now⟩
  exact run_invariant kept ⟨fun _ => id, fun _ => id, DateTime.le_refl _⟩ execution

/-- What a token is worth: it is accepted as long as it is good, with the lower of the two roles, and
one that was revoked or has expired is never accepted again. -/
structure Lawful (digest : Text → Digest) (world : World Digest) : Prop where
  accepted : ∀ raw ip, (authenticate digest world.store raw ip).1.isSome = true ↔
    ∃ issue owner, Good world issue owner ∧ issue.raw = raw
  acts : ∀ raw ip identity, (authenticate digest world.store raw ip).1 = some identity →
    ∃ issue owner, Good world issue owner ∧ issue.raw = raw ∧ identity.tokenId = issue.id ∧
      identity.id = owner.id ∧
      identity.role = ((Role.ofText issue.role).lower (Role.ofText owner.role)).name
  refused : ∀ issue ∈ world.issued, issue.id ∈ world.revoked ∨ issue.expires ≤ world.store.now →
    ∀ labels final, run (step digest) world labels = some final →
      ∀ raw ip identity, (authenticate digest final.store raw ip).1 = some identity →
        identity.tokenId ≠ issue.id

theorem Sound.lawful {world : World Digest} (sound : Sound digest world)
    (injective : Function.Injective digest) : Lawful digest world where
  accepted raw ip := by
    constructor
    · intro isSome
      obtain ⟨identity, accepted⟩ := Option.isSome_iff_exists.mp isSome
      obtain ⟨issue, owner, good, isRaw, -⟩ := sound.good_of_authenticate injective accepted
      exact ⟨issue, owner, good, isRaw⟩
    · rintro ⟨issue, owner, good, rfl⟩
      exact sound.authenticate_of_good good ip
  acts raw ip identity := sound.good_of_authenticate injective
  refused issue isIssue isRefused labels final execution raw ip identity accepted same := by
    have later := later_run execution
    have soundLater : Sound digest final :=
      run_invariant (fun _ _ _ before taken => before.step taken) sound execution
    obtain ⟨other, owner, good, -, isToken, -⟩ :=
      soundLater.good_of_authenticate injective accepted
    obtain rfl := soundLater.distinct other good.isIssue issue (later.issued issue isIssue)
      (isToken.symm.trans same)
    rcases isRefused with revoked | expired
    · exact good.unrevoked (later.revoked _ revoked)
    · exact DateTime.not_le.mpr good.unexpired (DateTime.le_trans expired later.now)

/-- Whatever happens to accounts and tokens, a token is worth no more than its account. -/
theorem lawful_of_run (injective : Function.Injective digest) (now : DateTime) {labels : List Label}
    {final : World Digest} (execution : run (step digest) (World.start now) labels = some final) :
    Lawful digest final :=
  Sound.lawful (run_invariant (fun _ _ _ before taken => before.step taken) (sound_start digest now)
    execution) injective

private theorem january : 1 ≤ 1 ∧ 1 ≤ 12 := by decide

def newYear : DateTime where
  date := ⟨2026, 1, 1, by decide, january, by decide⟩
  hour := ⟨12, by decide⟩
  minute := ⟨0, by decide⟩
  second := ⟨0, by decide⟩
  microsecond := ⟨0, by decide⟩

/-- An admin makes a token and is demoted, and the token is used and revoked. -/
def demoted : List Label :=
  [.createUser ⟨"a@ex.nl".toList, none, Roles.admin, true⟩,
    .create ⟨⟨1, some Roles.admin⟩, some "pipeline".toList, none, some 90⟩ "secret".toList,
    .updateUser 1 ⟨"a@ex.nl".toList, none, "Viewer".toList, true⟩,
    .authenticate "dlk_secret".toList none, .revoke 1 (some 1)]

theorem demoted_lawful :
    ∃ final, run (step (id : Text → Text)) (World.start newYear) demoted = some final ∧
      Lawful id final := by
  have taken : (run (step (id : Text → Text)) (World.start newYear) demoted).isSome = true := by
    decide +kernel
  obtain ⟨final, execution⟩ := Option.isSome_iff_exists.mp taken
  exact ⟨final, execution, lawful_of_run Function.injective_id newYear execution⟩

end ApiTokens
end DomainLens
