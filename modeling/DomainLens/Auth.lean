import DomainLens.Library.Run
import DomainLens.Library.Table
import DomainLens.Python.Text

/-!
# Local login with a second factor

A local account signs in with its password and, where MFA is on, with a code.  Both stages count
their failures in the one column `failed_logins`, and both clear it.  The file embeds the two
requests and settles how many wrong codes an account takes before it is locked.
-/

namespace DomainLens
namespace Auth

open Python Run

/-- Instants and spans, in microseconds. -/
abbrev Time := Int

abbrev UserId := Nat

def minute : Time := 60 * 1000000

def period : Time := 30 * 1000000

/-- The functions of `hashlib` and `hmac` the login rests on.  A secret that is no base 32 has no
codes. -/
structure Crypto where
  verifyPassword : Text → Text → Bool
  totpAt : Text → Time → Option Text
  sha256 : Text → Text

/-- The section `auth_local` of the settings, numbers as stored. -/
structure RawConfig where
  enabled : Bool
  mfaEnabled : Bool
  maxFailedAttempts : Option Int
  lockoutMinutes : Option Int

structure LocalConfig where
  enabled : Bool
  mfaAvailable : Bool
  maxFailedAttempts : Int
  lockoutMinutes : Int
  attempts_bound : 3 ≤ maxFailedAttempts
  lockout_bound : 1 ≤ lockoutMinutes

/-- A stored number, or the default where it is missing or zero. -/
def orDefault (stored : Option Int) (default : Int) : Int :=
  match stored with
  | none => default
  | some value => if value = 0 then default else value

def localConfig (raw : RawConfig) : LocalConfig where
  enabled := raw.enabled
  mfaAvailable := raw.mfaEnabled
  maxFailedAttempts := max 3 (orDefault raw.maxFailedAttempts 5)
  lockoutMinutes := max 1 (orDefault raw.lockoutMinutes 15)
  attempts_bound := Int.le_max_left _ _
  lockout_bound := Int.le_max_left _ _

/-- The columns of `users` the login reads. -/
structure User where
  id : UserId
  email : Text
  enabled : Bool
  passwordHash : Option Text
  mfaEnabled : Bool
  mfaSecret : Option Text
  mfaBackupCodes : List Text
  failedLogins : Nat
  lockedUntil : Option Time
deriving DecidableEq

namespace User

def isLocked (user : User) (now : Time) : Bool :=
  user.lockedUntil.any fun lockedUntil => now < lockedUntil

/-- One more failure, of either stage: at the threshold the account is locked and the count
starts again. -/
def countFailure (config : LocalConfig) (now : Time) (failedLogins : Nat) (user : User) : User :=
  if config.maxFailedAttempts ≤ (failedLogins + 1 : Nat) then
    { user with failedLogins := 0, lockedUntil := some (now + config.lockoutMinutes * minute) }
  else
    { user with failedLogins := failedLogins + 1 }

def clearFailures (user : User) : User :=
  { user with failedLogins := 0, lockedUntil := none }

end User

/-- The writes of a request that the database may refuse. -/
inductive Write where
  | failure
  | clear
  | backupCode
deriving DecidableEq

/-- The accounts, and the ones a session was handed out for that still owes its code.  A session is
a signed cookie, so a client may bring any of them again. -/
structure Site where
  users : Table User.id
  pending : List UserId

inductive Outcome where
  /-- The login page again, with a text. -/
  | refused (error : String)
  | mfaChallenge (id : UserId)
  | completed (id : UserId)
  /-- A code was checked and is wrong. -/
  | wrongCode (id : UserId) (locked : Bool)
  /-- The request ends in an exception. -/
  | raised
deriving DecidableEq

namespace Site

def update (site : Site) (id : UserId) (write : User → User)
    (keeps : ∀ user, (write user).id = user.id) : Site :=
  { site with users := site.users.update id write keeps }

theorem countFailure_id {config : LocalConfig} {now : Time} {failedLogins : Nat} (user : User) :
    (user.countFailure config now failedLogins).id = user.id := by
  unfold User.countFailure
  split_ifs <;> rfl

theorem clearFailures_id (user : User) : user.clearFailures.id = user.id := rfl

/-- Store the failure of a user as it was read. -/
def countFailure (config : LocalConfig) (site : Site) (user : User) (now : Time) : Site :=
  site.update user.id (User.countFailure config now user.failedLogins) countFailure_id

def clearFailures (site : Site) (id : UserId) : Site :=
  site.update id User.clearFailures clearFailures_id

end Site

variable (config : LocalConfig) (crypto : Crypto)

def localDisabled : String := "Local login is disabled."
def credentialsRequired : String := "Email and password are required."
def invalidCredentials : String := "Invalid email or password."
def temporarilyLocked : String := "Account temporarily locked due to failed logins."
def noLocalPassword : String :=
  "This account has no local password. Sign in with SSO, or ask an admin to set a backup password."
def sessionExpired : String := "mfa_session_expired"
def accountLocked : String := "account_locked"

def attemptLocalLogin (site : Site) (email password : Text) (now : Time) (takes : Write → Bool) :
    Site × Outcome :=
  if !config.enabled then (site, .refused localDisabled)
  else
    let email := lower (strip email)
    if email = [] ∨ password = [] then (site, .refused credentialsRequired)
    else
      match site.users.rows.find? fun user => user.email = email with
      | none => (site, .refused invalidCredentials)
      | some user =>
          if !user.enabled then (site, .refused invalidCredentials)
          else if user.isLocked now then (site, .refused temporarilyLocked)
          else
            let storedHash := user.passwordHash.getD []
            if storedHash = [] then (site, .refused noLocalPassword)
            else if !crypto.verifyPassword password storedHash then
              if takes .failure then
                (site.countFailure config user now, .refused invalidCredentials)
              else (site, .raised)
            else if takes .clear then
              let cleared := site.clearFailures user.id
              if config.mfaAvailable && user.mfaEnabled then
                ({ cleared with pending := user.id :: cleared.pending }, .mfaChallenge user.id)
              else (cleared, .completed user.id)
            else (site, .raised)

/-- `hmac.compare_digest` takes ASCII strings only. -/
def compareDigest (left right : Text) : Option Bool :=
  if left.all (·.toNat < 128) && right.all (·.toNat < 128) then some (left == right) else none

/-- The windows a code is compared with, in order. -/
def verifyDrifts (secret target : Text) (now : Time) : List Int → Option Bool
  | [] => some false
  | drift :: drifts =>
      (crypto.totpAt secret (now + drift * period)).bind fun code =>
        (compareDigest code target).bind fun same =>
          if same then some true else verifyDrifts secret target now drifts

/-- Whether a code is one of the account's TOTP codes now; nothing where the check raises. -/
def verifyTotp (secret code : Text) (now : Time) : Option Bool :=
  if secret = [] ∨ code = [] then some false
  else
    let cleaned := code.filter isDigit
    if cleaned.length < 6 then some false
    else verifyDrifts crypto secret (cleaned.drop (cleaned.length - 6)) now [-1, 0, 1]

/-- The stored digest a backup code would use up. -/
def backupDigest (user : User) (code : Text) : Option Text :=
  let cleaned := ((lower (strip code)).filter (· ≠ '-')).filter (· ≠ ' ')
  if cleaned = [] then none
  else if crypto.sha256 cleaned ∈ user.mfaBackupCodes then some (crypto.sha256 cleaned) else none

/-- The login is complete; clearing the count may be lost without a word. -/
def complete (site : Site) (id : UserId) (takes : Write → Bool) : Site × Outcome :=
  (if takes .clear then site.clearFailures id else site, .completed id)

/-- A wrong code is counted; the count may be lost without a word. -/
def registerMfaFailure (site : Site) (user : User) (now : Time) (takes : Write → Bool) :
    Site × Outcome :=
  (if takes .failure then site.countFailure config user now else site,
    .wrongCode user.id (decide (config.maxFailedAttempts ≤ (user.failedLogins + 1 : Nat))))

/-- The stage of the code, for a session that owes it. -/
def authMfaVerify (site : Site) (id : UserId) (code : Text) (now : Time) (takes : Write → Bool) :
    Site × Outcome :=
  if id = 0 ∨ id ∉ site.pending then (site, .refused sessionExpired)
  else
    let code := strip code
    match site.users.find id with
    | none => (site, .refused sessionExpired)
    | some user =>
        if !user.enabled then (site, .refused sessionExpired)
        else if user.isLocked now then (site, .refused accountLocked)
        else
          match verifyTotp crypto (user.mfaSecret.getD []) code now with
          | none => (site, .raised)
          | some true => complete site id takes
          | some false =>
              match backupDigest crypto user code with
              | none => registerMfaFailure config site user now takes
              | some digest =>
                  if takes .backupCode then
                    complete
                      (site.update id
                        (fun row => { row with mfaBackupCodes := user.mfaBackupCodes.erase digest })
                        fun _ => rfl)
                      id takes
                  else (site, .raised)

inductive Event where
  | password (email password : Text) (now : Time) (takes : Write → Bool)
  | code (id : UserId) (code : Text) (now : Time) (takes : Write → Bool)

namespace Event

def now : Event → Time
  | .password _ _ now _ => now
  | .code _ _ now _ => now

def takes : Event → Write → Bool
  | .password _ _ _ takes => takes
  | .code _ _ _ takes => takes

end Event

def handle (site : Site) : Event → Site × Outcome
  | .password email password now takes =>
      attemptLocalLogin config crypto site email password now takes
  | .code id code now takes => authMfaVerify config crypto site id code now takes

/-! ## What one request does -/

/-- The event brings the right password for an unlocked account that owes a code after it. -/
structure RightPassword (user : User) (email password : Text) (now : Time) : Prop where
  localEnabled : config.enabled = true
  mfaAvailable : config.mfaAvailable = true
  email : user.email = lower (strip email)
  enabled : user.enabled = true
  mfaEnabled : user.mfaEnabled = true
  unlocked : user.isLocked now = false
  verified : crypto.verifyPassword password (user.passwordHash.getD []) = true

/-- The effect of one request on the accounts, with what it comes to. -/
inductive Effect (site : Site) (event : Event) : Site → Outcome → Prop where
  | refused (error : String) : Effect site event site (.refused error)
  | raised : Effect site event site .raised
  | failed {user : User} (found : site.users.find user.id = some user) (error : String) :
      Effect site event (site.countFailure config user event.now) (.refused error)
  | counted {user : User} (found : site.users.find user.id = some user) (locked : Bool) :
      Effect site event (site.countFailure config user event.now) (.wrongCode user.id locked)
  | lost {user : User} (found : site.users.find user.id = some user) (locked : Bool)
      (called : ∃ id code now takes, event = .code id code now takes ∧ takes .failure = false) :
      Effect site event site (.wrongCode user.id locked)
  | challenged {user : User} {email password : Text} {now : Time} {takes : Write → Bool}
      (called : event = .password email password now takes) (member : user ∈ site.users.rows)
      (right : RightPassword config crypto user email password now) :
      Effect site event
        { site.clearFailures user.id with
          pending := user.id :: (site.clearFailures user.id).pending }
        (.mfaChallenge user.id)
  | completed {next : Site} {id : UserId}
      (others : ∀ other, other ≠ id → next.users.find other = site.users.find other) :
      Effect site event next (.completed id)

theorem Site.find_update {site : Site} {id other : UserId} {write : User → User}
    (keeps : ∀ user, (write user).id = user.id) :
    (site.update id write keeps).users.find other =
      if other = id then (site.users.find id).map write else site.users.find other :=
  Table.find_update keeps

theorem Site.find_clearFailures {site : Site} {id other : UserId} :
    (site.clearFailures id).users.find other =
      if other = id then (site.users.find id).map User.clearFailures else site.users.find other :=
  Table.find_update Site.clearFailures_id

theorem Site.find_countFailure {site : Site} {user : User} {now : Time} {other : UserId} :
    (site.countFailure config user now).users.find other =
      if other = user.id then
        (site.users.find user.id).map (User.countFailure config now user.failedLogins)
      else site.users.find other :=
  Table.find_update Site.countFailure_id

private theorem complete_effect {event : Event} {site next : Site} {id : UserId}
    (takes : Write → Bool)
    (others : ∀ other, other ≠ id → next.users.find other = site.users.find other) :
    Effect config crypto site event (complete next id takes).1 (complete next id takes).2 := by
  refine .completed fun other different => ?_
  rw [complete]
  dsimp only
  split
  · rw [Site.find_clearFailures, if_neg different, others other different]
  · exact others other different

private theorem attemptLocalLogin_effect (site : Site) (email password : Text) (now : Time)
    (takes : Write → Bool) :
    Effect config crypto site (.password email password now takes)
      (attemptLocalLogin config crypto site email password now takes).1
      (attemptLocalLogin config crypto site email password now takes).2 := by
  unfold attemptLocalLogin
  split
  · exact .refused _
  rename_i localEnabled
  dsimp only
  split
  · exact .refused _
  split
  · exact .refused _
  rename_i user found
  have member := List.mem_of_find?_eq_some found
  have address : user.email = lower (strip email) := by simpa using List.find?_some found
  split
  · exact .refused _
  rename_i enabled
  split
  · exact .refused _
  rename_i unlocked
  split
  · exact .refused _
  split
  · split
    · exact .failed (Table.find_of_mem member) _
    · exact .raised
  rename_i verified
  split
  · split
    · rename_i mfaOn
      rw [Bool.and_eq_true] at mfaOn
      exact .challenged rfl member
        { localEnabled := by simpa using localEnabled
          mfaAvailable := mfaOn.1
          email := address
          enabled := by simpa using enabled
          mfaEnabled := mfaOn.2
          unlocked := by simpa using unlocked
          verified := by simpa using verified }
    · refine .completed fun other different => ?_
      dsimp only
      rw [Site.find_clearFailures, if_neg different]
  · exact .raised

private theorem authMfaVerify_effect (site : Site) (id : UserId) (code : Text) (now : Time)
    (takes : Write → Bool) :
    Effect config crypto site (.code id code now takes)
      (authMfaVerify config crypto site id code now takes).1
      (authMfaVerify config crypto site id code now takes).2 := by
  unfold authMfaVerify
  split
  · exact .refused _
  dsimp only
  split
  · exact .refused _
  rename_i user found
  obtain rfl := Table.key_of_find found
  split
  · exact .refused _
  split
  · exact .refused _
  split
  · exact .raised
  · exact complete_effect config crypto takes fun _ _ => rfl
  split
  · unfold registerMfaFailure
    dsimp only
    split
    · exact .counted found _
    · rename_i stored
      exact .lost found _ ⟨user.id, code, now, takes, rfl, by simpa using stored⟩
  split
  · refine complete_effect config crypto takes fun other different => ?_
    rw [Site.find_update, if_neg different]
  · exact .raised

theorem handle_effect (site : Site) (event : Event) :
    Effect config crypto site event (handle config crypto site event).1
      (handle config crypto site event).2 := by
  cases event with
  | password email password now takes =>
      exact attemptLocalLogin_effect config crypto site email password now takes
  | code id code now takes => exact authMfaVerify_effect config crypto site id code now takes

/-! ## Guessing codes -/

/-- The accounts, with the wrong codes checked for each since its last completed login and its
last lock. -/
structure Watched where
  site : Site
  wrongCodes : UserId → Nat

namespace Watched

def start (site : Site) : Watched := ⟨site, fun _ => 0⟩

/-- The count of an account after a request. -/
def tally (next : Site) (now : Time) (outcome : Outcome) (wrongCodes : UserId → Nat) (id : UserId) :
    Nat :=
  if outcome = .completed id ∨ (next.users.find id).any (·.isLocked now) then 0
  else
    match outcome with
    | .wrongCode other _ => if other = id then wrongCodes id + 1 else wrongCodes id
    | _ => wrongCodes id

end Watched

def watch (watched : Watched) (event : Event) : Option Watched :=
  let (next, outcome) := handle config crypto watched.site event
  some ⟨next, Watched.tally next event.now outcome watched.wrongCodes⟩

/-- A wrong code that is checked is at most the last one allowed. -/
def Outcome.Within (limit : Int) (wrongCodes : UserId → Nat) : Outcome → Prop
  | .wrongCode id _ => (wrongCodes id + 1 : Nat) ≤ limit
  | _ => True

instance (limit : Int) (wrongCodes : UserId → Nat) :
    ∀ outcome : Outcome, Decidable (outcome.Within limit wrongCodes)
  | .wrongCode _ _ => inferInstanceAs (Decidable (_ ≤ _))
  | .refused _ | .mfaChallenge _ | .completed _ | .raised => .isTrue trivial

def WithinLimit (before : Watched) (event : Event) (_ : Watched) : Prop :=
  (handle config crypto before.site event).2.Within config.maxFailedAttempts before.wrongCodes

instance (before : Watched) (event : Event) (after : Watched) :
    Decidable (WithinLimit config crypto before event after) :=
  inferInstanceAs (Decidable (Outcome.Within _ _ _))

instance (user : User) (email password : Text) (now : Time) :
    Decidable (RightPassword config crypto user email password now) :=
  decidable_of_iff
    (config.enabled = true ∧ config.mfaAvailable = true ∧ user.email = lower (strip email) ∧
      user.enabled = true ∧ user.mfaEnabled = true ∧ user.isLocked now = false ∧
      crypto.verifyPassword password (user.passwordHash.getD []) = true)
    ⟨fun ⟨localEnabled, mfaAvailable, email, enabled, mfaEnabled, unlocked, verified⟩ =>
        ⟨localEnabled, mfaAvailable, email, enabled, mfaEnabled, unlocked, verified⟩,
      fun right => ⟨right.1, right.2, right.3, right.4, right.5, right.6, right.7⟩⟩

/-- No right password comes while wrong codes for its account are outstanding, and the database
takes the count of a wrong code. -/
def Undisturbed (before : Watched) (event : Event) (_ : Watched) : Prop :=
  match event with
  | .password email password now _ =>
      ∀ user ∈ before.site.users.rows, RightPassword config crypto user email password now →
        before.wrongCodes user.id = 0
  | .code _ _ _ takes => takes .failure = true

instance (before : Watched) : ∀ (event : Event) (after : Watched),
    Decidable (Undisturbed config crypto before event after)
  | .password email password now _, _ =>
      inferInstanceAs (Decidable (∀ user ∈ before.site.users.rows,
        RightPassword config crypto user email password now → before.wrongCodes user.id = 0))
  | .code _ _ _ takes, _ => inferInstanceAs (Decidable (takes .failure = true))

/-- The stored count covers the wrong codes, and these stay below the threshold. -/
structure Sound (watched : Watched) : Prop where
  covered : ∀ id user, watched.site.users.find id = some user →
    watched.wrongCodes id ≤ user.failedLogins
  below : ∀ id, (watched.wrongCodes id : Int) < config.maxFailedAttempts

theorem sound_start (site : Site) : Sound config (Watched.start site) where
  covered _ _ _ := Nat.zero_le _
  below _ := by
    have bound := config.attempts_bound
    simp only [Watched.start]
    omega

namespace Watched

theorem tally_le_succ {next : Site} {now : Time} {outcome : Outcome} {wrongCodes : UserId → Nat}
    (id : UserId) : tally next now outcome wrongCodes id ≤ wrongCodes id + 1 := by
  unfold tally
  split
  · exact Nat.zero_le _
  · split
    · split <;> omega
    · exact Nat.le_succ _

theorem tally_le {next : Site} {now : Time} {outcome : Outcome} {wrongCodes : UserId → Nat}
    {id : UserId} (notWrong : ∀ locked, outcome ≠ .wrongCode id locked) :
    tally next now outcome wrongCodes id ≤ wrongCodes id := by
  unfold tally
  split
  · exact Nat.zero_le _
  · split
    · split
      · rename_i _ other locked _ same
        exact (notWrong locked (by rw [same])).elim
      · exact Nat.le_refl _
    · exact Nat.le_refl _

theorem tally_of_locked {next : Site} {now : Time} {outcome : Outcome} {wrongCodes : UserId → Nat}
    {id : UserId} (locked : (next.users.find id).any (·.isLocked now) = true) :
    tally next now outcome wrongCodes id = 0 :=
  if_pos (.inr locked)

theorem tally_completed {next : Site} {now : Time} {wrongCodes : UserId → Nat} (id : UserId) :
    tally next now (.completed id) wrongCodes id = 0 :=
  if_pos (.inl rfl)

end Watched

private theorem countFailure_spec (user : User) (now : Time) (failedLogins : Nat) :
    (user.countFailure config now failedLogins).isLocked now = true ∨
      (user.countFailure config now failedLogins).failedLogins = failedLogins + 1 ∧
        ((failedLogins + 1 : Nat) : Int) < config.maxFailedAttempts := by
  unfold User.countFailure
  split
  · left
    have positive : 0 < config.lockoutMinutes * minute :=
      Int.mul_pos (by have := config.lockout_bound; omega) (by decide)
    have later : now < now + config.lockoutMinutes * minute := Int.lt_add_of_pos_right now positive
    simpa [User.isLocked] using later
  · right
    exact ⟨rfl, by omega⟩

private theorem sound_of_le {watched : Watched} (sound : Sound config watched) {next : Site}
    {wrongCodes : UserId → Nat}
    (covered : ∀ id user, next.users.find id = some user → wrongCodes id ≤ user.failedLogins)
    (lower : ∀ id, wrongCodes id ≤ watched.wrongCodes id) : Sound config ⟨next, wrongCodes⟩ where
  covered := covered
  below id := by
    have below := sound.below id
    have le := lower id
    simp only
    omega

private theorem sound_countFailure {watched : Watched} (sound : Sound config watched) {user : User}
    (found : watched.site.users.find user.id = some user) (now : Time) {outcome : Outcome}
    (others : ∀ id locked, outcome = .wrongCode id locked → id = user.id) :
    Sound config ⟨watched.site.countFailure config user now,
      Watched.tally (watched.site.countFailure config user now) now outcome watched.wrongCodes⟩ := by
  have written : (watched.site.countFailure config user now).users.find user.id =
      some (user.countFailure config now user.failedLogins) := by
    rw [Site.find_countFailure, if_pos rfl, found, Option.map_some]
  have grown := @Watched.tally_le_succ (watched.site.countFailure config user now) now outcome
    watched.wrongCodes user.id
  have old := sound.covered user.id user found
  have bound := config.attempts_bound
  have kept : ∀ id, id ≠ user.id →
      Watched.tally (watched.site.countFailure config user now) now outcome watched.wrongCodes id ≤
        watched.wrongCodes id := fun id different =>
    Watched.tally_le fun locked same => different (others id locked same)
  have spec : (Watched.tally (watched.site.countFailure config user now) now outcome
        watched.wrongCodes user.id = 0) ∨
      (user.countFailure config now user.failedLogins).failedLogins = user.failedLogins + 1 ∧
        ((user.failedLogins + 1 : Nat) : Int) < config.maxFailedAttempts := by
    rcases countFailure_spec config user now user.failedLogins with locked | counted
    · exact .inl (Watched.tally_of_locked (by rw [written]; exact locked))
    · exact .inr counted
  constructor
  · intro id row held
    by_cases same : id = user.id
    · subst same
      obtain rfl := Option.some.inj (written.symm.trans held)
      rcases spec with zero | ⟨stored, _⟩
      · simp only [zero]
        exact Nat.zero_le _
      · simp only [stored]
        exact grown.trans (Nat.succ_le_succ old)
    · rw [Site.find_countFailure, if_neg same] at held
      exact (kept id same).trans (sound.covered id row held)
  · intro id
    by_cases same : id = user.id
    · subst same
      rcases spec with zero | ⟨_, below⟩
      · simp only [zero]
        omega
      · simp only
        omega
    · have below := sound.below id
      have le := kept id same
      simp only
      omega

private theorem sound_effect {watched : Watched} {event : Event} {after : Site} {outcome : Outcome}
    (sound : Sound config watched)
    (effect : Effect config crypto watched.site event after outcome) {next : Watched}
    (undisturbed : Undisturbed config crypto watched event next) :
    Sound config ⟨after, Watched.tally after event.now outcome watched.wrongCodes⟩ := by
  cases effect with
  | refused error =>
      have le : ∀ id, Watched.tally watched.site event.now (.refused error) watched.wrongCodes id ≤
          watched.wrongCodes id := fun id => Watched.tally_le (by simp)
      exact sound_of_le config sound
        (fun id user held => (le id).trans (sound.covered id user held)) le
  | raised =>
      have le : ∀ id, Watched.tally watched.site event.now .raised watched.wrongCodes id ≤
          watched.wrongCodes id := fun id => Watched.tally_le (by simp)
      exact sound_of_le config sound
        (fun id user held => (le id).trans (sound.covered id user held)) le
  | failed found error => exact sound_countFailure config sound found event.now (by simp)
  | counted found locked =>
      exact sound_countFailure config sound found event.now fun id _ same => by
        injection same with same
        exact same.symm
  | lost found locked called =>
      obtain ⟨id, code, now, takes, rfl, refused⟩ := called
      exact absurd (refused.symm.trans undisturbed) (by decide)
  | @challenged user email password now takes called member right =>
      subst called
      refine sound_of_le config sound ?_ fun id => Watched.tally_le (by simp)
      intro id row held
      have le := @Watched.tally_le (watched.site.clearFailures user.id) now (.mfaChallenge user.id)
        watched.wrongCodes id (by simp)
      by_cases same : id = user.id
      · subst same
        rw [undisturbed user member right] at le
        exact (Nat.le_zero.mp le) ▸ Nat.zero_le _
      · rw [Site.find_clearFailures, if_neg same] at held
        exact le.trans (sound.covered id row held)
  | @completed next id others =>
      refine sound_of_le config sound ?_ fun id => Watched.tally_le (by simp)
      intro other row held
      by_cases same : other = id
      · subst same
        exact (Watched.tally_completed other) ▸ Nat.zero_le _
      · rw [others other same] at held
        exact (Watched.tally_le (by simp)).trans (sound.covered other row held)

theorem sound_watch {watched next : Watched} {event : Event} (sound : Sound config watched)
    (taken : watch config crypto watched event = some next)
    (undisturbed : Undisturbed config crypto watched event next) :
    Sound config next ∧ WithinLimit config crypto watched event next := by
  obtain rfl := Option.some.inj taken
  constructor
  · exact sound_effect config crypto sound (handle_effect config crypto watched.site event)
      undisturbed
  · unfold WithinLimit Outcome.Within
    split
    · rename_i id locked _
      have below := sound.below id
      omega
    · trivial

/-- In a run without disturbance, no account takes more wrong codes than the limit between a
completed login or a lock and the next. -/
theorem along_withinLimit {site : Site} {events : List Event}
    (undisturbed :
      Along (watch config crypto) (Undisturbed config crypto) (Watched.start site) events) :
    Along (watch config crypto) (WithinLimit config crypto) (Watched.start site) events := by
  refine along_of_guarded ?_ (sound_start config site) undisturbed
  intro watched event next sound taken guarded
  exact sound_watch config crypto sound taken guarded

/-! ## One account -/

/-- An account with MFA under the least threshold, which is three. -/
def sampleConfig : LocalConfig := localConfig ⟨true, true, some 3, none⟩

/-- Passwords stored as they are, and one code for all time. -/
def sampleCrypto : Crypto where
  verifyPassword password stored := password == stored
  totpAt _ _ := some ['4', '2', '4', '2', '4', '2']
  sha256 text := text

def sampleSite : Site where
  users :=
    { rows := [⟨1, ['j', '@', 'x'], true, some ['p', 'w'], true, some ['S'], [], 0, none⟩]
      distinct := by decide }
  pending := []

private def password (text : Text) : Event := .password ['j', '@', 'x'] text 0 fun _ => true

private def code (text : Text) : Event := .code 1 text 0 fun _ => true

/-- Two wrong codes, a wrong password and the lock it brings. -/
def lockedRun : List Event := [password ['p', 'w'], code ['1'], code ['2'], password ['x']]

/-- Two wrong codes after each right password. -/
def guessingRun : List Event :=
  [password ['p', 'w'], code ['1'], code ['2'], password ['p', 'w'], code ['3'], code ['4']]

theorem lockedRun_withinLimit :
    Along (watch sampleConfig sampleCrypto) (Undisturbed sampleConfig sampleCrypto)
        (Watched.start sampleSite) lockedRun ∧
      Along (watch sampleConfig sampleCrypto) (WithinLimit sampleConfig sampleCrypto)
        (Watched.start sampleSite) lockedRun := by
  have undisturbed : Along (watch sampleConfig sampleCrypto) (Undisturbed sampleConfig sampleCrypto)
      (Watched.start sampleSite) lockedRun := by
    decide +kernel
  exact ⟨undisturbed, along_withinLimit sampleConfig sampleCrypto undisturbed⟩

/-- The right password between wrong codes starts the count again: a fourth wrong code is checked
under a limit of three. -/
theorem guessingRun_not_withinLimit :
    ¬ Along (watch sampleConfig sampleCrypto) (WithinLimit sampleConfig sampleCrypto)
      (Watched.start sampleSite) guessingRun := by
  decide +kernel

end Auth
end DomainLens
