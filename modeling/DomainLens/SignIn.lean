import DomainLens.Library.Run
import DomainLens.Library.Url
import DomainLens.Python.Text

/-!
# Where a sign-in leads

The address a visitor asked for travels through `next` parameters, forms and the session, and is where
he is sent once he is signed in.  The file embeds the routes of a sign-in and settles when a browser
that follows them stays on the site.
-/

namespace DomainLens
namespace SignIn

open Python Run Url

variable {User : Type}

/-! ## Requests -/

/-- What the routes keep in the session. -/
structure Session (User : Type) where
  user : Option User
  mfaPending : Option Nat
  oauthState : Option Text
  oauthNext : Option Text
  oauthRedirectUri : Option Text

/-- `session.clear()`. -/
def Session.empty : Session User := ⟨none, none, none, none, none⟩

/-- `login_user`. -/
def loginUser (user : User) : Session User :=
  { (Session.empty : Session User) with user := some user }

/-- `set_mfa_pending`. -/
def setMfaPending (user : Nat) : Session User :=
  { (Session.empty : Session User) with mfaPending := some user }

/-- What an identity provider's answer comes to: refused by `exchange_code` or `parse_saml_response`,
by `user_allowed`, by `resolve_federated_user`, or a user. -/
inductive Federated (User : Type) where
  | failed
  | notAllowed
  | refused
  | user (user : User)

/-- What `attempt_local_login` comes to; `setUp` tells that a second factor has to be set up. -/
inductive Attempt (User : Type) where
  | error (error : Text)
  | needsMfa (user : Nat)
  | user (user : User) (setUp : Bool)

/-- What the second factor comes to. -/
inductive Factor (User : Type) where
  | unknownUser
  | locked
  | wrong (locked : Bool)
  | user (user : User)

/-- Whether a way to sign in is switched on and configured. -/
structure Enabled where
  enabled : Bool
  configured : Bool

/-- A request to one of the routes, with what the configuration, the database and the provider have to
say about it.  `known` tells that `current_user` still accepts the user of the session. -/
inductive Request (User : Type) where
  | loginPage (next : Option Text) (known : Bool)
  | authLoginStart (next : Option Text) (oauth : Enabled) (state redirectUri authorizeUrl : Text)
  | authCallback (oauth : Bool) (error state code : Option Text) (answer : Federated User)
  | authSamlLogin (next : Option Text) (saml : Enabled) (authnRequest : Text)
  | authSamlAcs (saml : Bool) (response : Option Text) (answer : Federated User)
  | authLocalLogin (formNext argsNext : Option Text) (attempt : Attempt User)
  | authMfaPage (next : Option Text)
  | authMfaVerify (formNext : Option Text) (factor : Factor User)
  | logout (loginRequired : Bool)

/-- A page of the application that a route redirects to. -/
inductive Endpoint where
  | loginPage (error next : Option Text)
  | authMfaPage (error next : Option Text)
  | accountSecurity (message : Text)
  | root

inductive Reply where
  /-- No request has been answered. -/
  | nothing
  /-- `login.html` or `mfa.html`. -/
  | page (next : Text)
  | endpoint (endpoint : Endpoint)
  /-- The visitor is to sign in at an identity provider. -/
  | provider (address : Text)
  /-- `redirect(next_url)`. -/
  | next (address : Text)

/-- `request.args.get("next") or "/"`. -/
def orRoot (next : Option Text) : Text := (next.filter (· ≠ [])).getD ['/']

/-- The check of the routes but `login_page`: what does not begin with a slash is not followed. -/
def checked (next : Text) : Text := if next.head? = some '/' then next else ['/']

/-! ## Routes -/

def loginPage (session : Session User) (next : Option Text) (known : Bool) :
    Session User × Reply :=
  if session.user.isSome && known then (session, .next (orRoot next))
  else
    -- `_refresh_from_db` takes a user off the session that is not accepted any more.
    let session := { session with user := none }
    if session.mfaPending.isSome then
      (session, .endpoint (.authMfaPage none (some (orRoot next))))
    else (session, .page (orRoot next))

def authLoginStart (session : Session User) (next : Option Text) (oauth : Enabled)
    (state redirectUri authorizeUrl : Text) : Session User × Reply :=
  if !oauth.enabled then
    (session, .endpoint (.loginPage (some "oauth_disabled".toList) none))
  else if !oauth.configured then
    (session, .endpoint (.loginPage (some "oauth_not_configured".toList) none))
  else
    ({ session with
        oauthState := some state
        oauthNext := some (orRoot next)
        oauthRedirectUri := some redirectUri }, .provider authorizeUrl)

/-- What the two routes of a federated sign-in do with the answer; `failure` names the answers the
provider's checks refuse. -/
def federated (session : Session User) (failure : Text) : Federated User → Session User × Reply
  | .failed => (session, .endpoint (.loginPage (some failure) none))
  | .notAllowed => (.empty, .endpoint (.loginPage (some "access_denied".toList) none))
  | .refused => (.empty, .endpoint (.loginPage (some "access_denied".toList) none))
  | .user user => (loginUser user, .next (checked (session.oauthNext.getD ['/'])))

/-- The callback takes the answer: there is a code, and the state is that of the session. -/
def callbackValid (session : Session User) (state code : Option Text) : Bool :=
  code.any (· ≠ []) && state.any (· ≠ []) && state == session.oauthState

def authCallback (session : Session User) (oauth : Bool) (error state code : Option Text)
    (answer : Federated User) : Session User × Reply :=
  if !oauth then (session, .endpoint (.loginPage (some "oauth_disabled".toList) none))
  else if error.any (· ≠ []) then (session, .endpoint (.loginPage error none))
  else if !callbackValid session state code then
    (session, .endpoint (.loginPage (some "invalid_state".toList) none))
  else federated session "token_exchange_failed".toList answer

def authSamlLogin (session : Session User) (next : Option Text) (saml : Enabled)
    (authnRequest : Text) : Session User × Reply :=
  if !saml.enabled then (session, .endpoint (.loginPage (some "saml_disabled".toList) none))
  else if !saml.configured then
    (session, .endpoint (.loginPage (some "saml_not_configured".toList) none))
  else ({ session with oauthNext := some (orRoot next) }, .provider authnRequest)

def authSamlAcs (session : Session User) (saml : Bool) (response : Option Text)
    (answer : Federated User) : Session User × Reply :=
  if !saml then (session, .endpoint (.loginPage (some "saml_disabled".toList) none))
  else if !response.any (· ≠ []) then
    (session, .endpoint (.loginPage (some "saml_failed".toList) none))
  else federated session "saml_failed".toList answer

def authLocalLogin (session : Session User) (formNext argsNext : Option Text)
    (attempt : Attempt User) : Session User × Reply :=
  let next := checked (orRoot ((formNext.filter (· ≠ [])).or argsNext))
  match attempt with
  | .error error => (session, .endpoint (.loginPage (some error) (some next)))
  | .needsMfa user =>
      ({ setMfaPending user with oauthNext := some next },
        .endpoint (.authMfaPage none (some next)))
  | .user user true => (loginUser user, .endpoint (.accountSecurity "mfa_required".toList))
  | .user user false => (loginUser user, .next next)

def authMfaPage (session : Session User) (next : Option Text) : Session User × Reply :=
  if session.mfaPending.isNone then (session, .endpoint (.loginPage none none))
  else (session, .page (orRoot next))

def authMfaVerify (session : Session User) (formNext : Option Text) (factor : Factor User) :
    Session User × Reply :=
  if session.mfaPending.isNone then
    (session, .endpoint (.loginPage (some "mfa_session_expired".toList) none))
  else
    let next := checked (orRoot formNext)
    match factor with
    | .unknownUser => (.empty, .endpoint (.loginPage (some "mfa_session_expired".toList) none))
    | .locked => (.empty, .endpoint (.loginPage (some "account_locked".toList) none))
    | .wrong true => (.empty, .endpoint (.loginPage (some "account_locked".toList) none))
    | .wrong false => (session, .endpoint (.authMfaPage (some "invalid_code".toList) (some next)))
    | .user user => (loginUser user, .next next)

def serve (session : Session User) : Request User → Session User × Reply
  | .loginPage next known => loginPage session next known
  | .authLoginStart next oauth state redirectUri authorizeUrl =>
      authLoginStart session next oauth state redirectUri authorizeUrl
  | .authCallback oauth error state code answer =>
      authCallback session oauth error state code answer
  | .authSamlLogin next saml authnRequest => authSamlLogin session next saml authnRequest
  | .authSamlAcs saml response answer => authSamlAcs session saml response answer
  | .authLocalLogin formNext argsNext attempt => authLocalLogin session formNext argsNext attempt
  | .authMfaPage next => authMfaPage session next
  | .authMfaVerify formNext factor => authMfaVerify session formNext factor
  | .logout loginRequired =>
      (.empty, .endpoint (if loginRequired then .loginPage none none else .root))

/-- A visitor's session, and the last answer he got. -/
structure Visit (User : Type) where
  session : Session User
  reply : Reply

/-- A visitor who has asked for nothing. -/
def Visit.start : Visit User := ⟨.empty, .nothing⟩

def step (visit : Visit User) (request : Request User) : Option (Visit User) :=
  let served := serve visit.session request
  some ⟨served.1, served.2⟩

/-! ## Staying on the site -/

section Following

-- What `redirect` sends for an address, if it sends it, and the host parser of the browser.
variable (location : Text → Option Text) (hostOf : Text → Option Text) (site : Origin)

/-- A browser that follows the address stays on the site. -/
def OnSite (_ : Visit User) (_ : Request User) (after : Visit User) : Prop :=
  ∀ address, after.reply = .next address → ∀ sent, location address = some sent →
    resolve hostOf site sent = some site

/-- A `next` that names no other scheme, and no authority but that of the site. -/
def StaysNext (next : Text) : Prop :=
  ∀ sent, location next = some sent → Stays hostOf site sent

/-- A `next` that stays on the site, or does not begin with a slash. -/
def StaysChecked (next : Text) : Prop :=
  next.head? = some '/' → StaysNext location hostOf site next

/-- The `next` a request is answered with stays on the site: that of a signed-in visitor at the sign-in
page, that of the session where a provider's answer is taken, that of the form where a password or a
second factor is. -/
def Harmless (before : Visit User) (request : Request User) (_ : Visit User) : Prop :=
  match request with
  | .loginPage next known =>
      before.session.user.isSome → known = true → StaysNext location hostOf site (orRoot next)
  | .authCallback oauth error state code (.user _) =>
      oauth = true → error.any (· ≠ []) = false → callbackValid before.session state code = true →
        StaysChecked location hostOf site (before.session.oauthNext.getD ['/'])
  | .authSamlAcs saml response (.user _) =>
      saml = true → response.any (· ≠ []) = true →
        StaysChecked location hostOf site (before.session.oauthNext.getD ['/'])
  | .authLocalLogin formNext argsNext (.user _ false) =>
      StaysChecked location hostOf site (orRoot ((formNext.filter (· ≠ [])).or argsNext))
  | .authMfaVerify formNext (.user _) =>
      before.session.mfaPending.isSome → StaysChecked location hostOf site (orRoot formNext)
  | _ => True

variable {location hostOf site}

theorem staysNext_iff {next : Text} :
    (∀ sent, location next = some sent → resolve hostOf site sent = some site) ↔
      StaysNext location hostOf site next :=
  forall₂_congr fun _ _ => resolve_eq_base_iff hostOf

theorem staysNext_checked_iff (root : location ['/'] = some ['/']) {next : Text} :
    StaysNext location hostOf site (checked next) ↔ StaysChecked location hostOf site next := by
  unfold checked StaysChecked
  split
  · rename_i slash
    exact ⟨fun stays _ => stays, fun stays => stays slash⟩
  · rename_i other
    refine ⟨fun _ slash => absurd slash other, fun _ sent isSent => ?_⟩
    obtain rfl := Option.some.inj (root.symm.trans isSent)
    exact stays_root hostOf site

/-- What a route answers with a `next` is to be followed, and with anything else is not. -/
theorem onSite_next {before after : Visit User} {request : Request User} {address : Text}
    (isNext : after.reply = .next address) :
    OnSite location hostOf site before request after ↔ StaysNext location hostOf site address := by
  rw [← staysNext_iff]
  constructor
  · exact fun onSite => onSite address isNext
  · intro stays other isOther
    obtain rfl : other = address := by
      rw [isNext] at isOther
      cases isOther
      rfl
    exact stays

theorem onSite_other {before after : Visit User} {request : Request User}
    (notNext : ∀ address, after.reply ≠ .next address) :
    OnSite location hostOf site before request after :=
  fun address isNext => absurd isNext (notNext address)

theorem federated_onSite_iff (root : location ['/'] = some ['/']) {before : Visit User}
    {request : Request User} {failure : Text} {answer : Federated User} {session : Session User} :
    OnSite location hostOf site before request
        ⟨(federated session failure answer).1, (federated session failure answer).2⟩ ↔
      ∀ user, answer = .user user →
        StaysChecked location hostOf site (session.oauthNext.getD ['/']) := by
  cases answer with
  | user user =>
      rw [onSite_next rfl, staysNext_checked_iff root]
      exact ⟨fun stays _ _ => stays, fun stays => stays user rfl⟩
  | _ => exact ⟨fun _ _ same => (nomatch same), fun _ => onSite_other fun _ same => (nomatch same)⟩

theorem loginPage_onSite_iff {before : Visit User} {next : Option Text} {known : Bool} :
    OnSite location hostOf site before (.loginPage next known)
        ⟨(loginPage before.session next known).1, (loginPage before.session next known).2⟩ ↔
      Harmless location hostOf site before (.loginPage next known) before := by
  simp only [Harmless, loginPage]
  by_cases signedIn : before.session.user.isSome = true ∧ known = true
  · rw [if_pos (by simpa using signedIn)]
    rw [onSite_next rfl]
    exact ⟨fun stays _ _ => stays, fun stays => stays signedIn.1 signedIn.2⟩
  · rw [if_neg (by simpa using signedIn)]
    refine ⟨fun _ isUser isKnown => absurd ⟨isUser, isKnown⟩ signedIn, fun _ => onSite_other ?_⟩
    intro address
    split <;> simp

theorem authCallback_onSite_iff (root : location ['/'] = some ['/']) {before : Visit User}
    {oauth : Bool} {error state code : Option Text} {answer : Federated User} :
    OnSite location hostOf site before (.authCallback oauth error state code answer)
        ⟨(authCallback before.session oauth error state code answer).1,
          (authCallback before.session oauth error state code answer).2⟩ ↔
      Harmless location hostOf site before (.authCallback oauth error state code answer) before := by
  by_cases taken : oauth = true ∧ error.any (· ≠ []) = false ∧
      callbackValid before.session state code = true
  · obtain ⟨isOn, noError, valid⟩ := taken
    have same : authCallback before.session oauth error state code answer =
        federated before.session "token_exchange_failed".toList answer := by
      simp only [authCallback, isOn, noError, valid, Bool.not_true, Bool.false_eq_true, if_false]
    rw [same, federated_onSite_iff root]
    cases answer with
    | user user => exact ⟨fun stays _ _ _ => stays user rfl, fun stays _ _ => stays isOn noError valid⟩
    | _ => exact ⟨fun _ => trivial, fun _ _ same => (nomatch same)⟩
  · have harmless : Harmless location hostOf site before
        (.authCallback oauth error state code answer) before := by
      cases answer with
      | user user => exact fun isOn noError valid => absurd ⟨isOn, noError, valid⟩ taken
      | _ => trivial
    refine iff_of_true (onSite_other fun address => ?_) harmless
    simp only [authCallback]
    split
    · simp
    · split
      · simp
      · split
        · simp
        · rename_i isOn noError valid
          simp only [Bool.not_eq_true', Bool.not_eq_false, Bool.not_eq_true] at isOn noError valid
          exact absurd ⟨isOn, noError, valid⟩ taken

theorem authSamlAcs_onSite_iff (root : location ['/'] = some ['/']) {before : Visit User}
    {saml : Bool} {response : Option Text} {answer : Federated User} :
    OnSite location hostOf site before (.authSamlAcs saml response answer)
        ⟨(authSamlAcs before.session saml response answer).1,
          (authSamlAcs before.session saml response answer).2⟩ ↔
      Harmless location hostOf site before (.authSamlAcs saml response answer) before := by
  by_cases taken : saml = true ∧ response.any (· ≠ []) = true
  · obtain ⟨isOn, isResponse⟩ := taken
    have same : authSamlAcs before.session saml response answer =
        federated before.session "saml_failed".toList answer := by
      simp only [authSamlAcs, isOn, isResponse, Bool.not_true, Bool.false_eq_true, if_false]
    rw [same, federated_onSite_iff root]
    cases answer with
    | user user => exact ⟨fun stays _ _ => stays user rfl, fun stays _ _ => stays isOn isResponse⟩
    | _ => exact ⟨fun _ => trivial, fun _ _ same => (nomatch same)⟩
  · have harmless : Harmless location hostOf site before
        (.authSamlAcs saml response answer) before := by
      cases answer with
      | user user => exact fun isOn isResponse => absurd ⟨isOn, isResponse⟩ taken
      | _ => trivial
    refine iff_of_true (onSite_other fun address => ?_) harmless
    simp only [authSamlAcs]
    split
    · simp
    · split
      · simp
      · rename_i isOn isResponse
        simp only [Bool.not_eq_true', Bool.not_eq_false] at isOn isResponse
        exact absurd ⟨isOn, isResponse⟩ taken

theorem authLocalLogin_onSite_iff (root : location ['/'] = some ['/']) {before : Visit User}
    {formNext argsNext : Option Text} {attempt : Attempt User} :
    OnSite location hostOf site before (.authLocalLogin formNext argsNext attempt)
        ⟨(authLocalLogin before.session formNext argsNext attempt).1,
          (authLocalLogin before.session formNext argsNext attempt).2⟩ ↔
      Harmless location hostOf site before (.authLocalLogin formNext argsNext attempt) before := by
  cases attempt with
  | user user setUp =>
      cases setUp with
      | true => exact iff_of_true (onSite_other fun _ same => (nomatch same)) trivial
      | false => rw [onSite_next rfl, staysNext_checked_iff root]; rfl
  | _ => exact iff_of_true (onSite_other fun _ same => (nomatch same)) trivial

theorem authMfaVerify_onSite_iff (root : location ['/'] = some ['/']) {before : Visit User}
    {formNext : Option Text} {factor : Factor User} :
    OnSite location hostOf site before (.authMfaVerify formNext factor)
        ⟨(authMfaVerify before.session formNext factor).1,
          (authMfaVerify before.session formNext factor).2⟩ ↔
      Harmless location hostOf site before (.authMfaVerify formNext factor) before := by
  cases pending : before.session.mfaPending with
  | none =>
      have harmless : Harmless location hostOf site before (.authMfaVerify formNext factor)
          before := by
        cases factor with
        | user user => simp [Harmless, pending]
        | _ => trivial
      refine iff_of_true (onSite_other fun address => ?_) harmless
      simp [authMfaVerify, pending]
  | some uid =>
      simp only [authMfaVerify, pending, Option.isNone_some, Bool.false_eq_true, if_false]
      cases factor with
      | user user =>
          rw [onSite_next rfl, staysNext_checked_iff root]
          simp [Harmless, pending]
      | wrong locked =>
          refine iff_of_true (onSite_other fun address => ?_) trivial
          cases locked <;> simp
      | _ => exact iff_of_true (onSite_other fun _ same => (nomatch same)) trivial

theorem step_onSite_iff (root : location ['/'] = some ['/']) {before after : Visit User}
    {request : Request User} (taken : step before request = some after) :
    OnSite location hostOf site before request after ↔
      Harmless location hostOf site before request after := by
  obtain rfl := Option.some.inj taken
  cases request with
  | loginPage next known => exact loginPage_onSite_iff
  | authCallback oauth error state code answer => exact authCallback_onSite_iff root
  | authSamlAcs saml response answer => exact authSamlAcs_onSite_iff root
  | authLocalLogin formNext argsNext attempt => exact authLocalLogin_onSite_iff root
  | authMfaVerify formNext factor => exact authMfaVerify_onSite_iff root
  | authLoginStart next oauth state redirectUri authorizeUrl =>
      refine iff_of_true (onSite_other fun address => ?_) trivial
      simp only [serve, authLoginStart]
      split
      · simp
      · split <;> simp
  | authSamlLogin next saml authnRequest =>
      refine iff_of_true (onSite_other fun address => ?_) trivial
      simp only [serve, authSamlLogin]
      split
      · simp
      · split <;> simp
  | authMfaPage next =>
      refine iff_of_true (onSite_other fun address => ?_) trivial
      simp only [serve, authMfaPage]
      split <;> simp
  | logout loginRequired => exact iff_of_true (onSite_other fun _ same => (nomatch same)) trivial

/-- However a visitor signs in, he is kept on the site exactly as long as what he is answered with is
harmless. -/
theorem along_onSite_iff (root : location ['/'] = some ['/']) (visit : Visit User)
    (requests : List (Request User)) :
    Along step (OnSite location hostOf site) visit requests ↔
      Along step (Harmless location hostOf site) visit requests :=
  @along_iff _ _ step (fun _ => True) (OnSite location hostOf site)
    (Harmless location hostOf site) (fun _ _ _ _ taken => step_onSite_iff root taken)
    (fun _ _ _ _ _ _ => trivial) _ _ trivial

end Following

/-! ## Off the site -/

def plainHost (name : Text) : Option Text := some (name.map Char.toLower)

def domainLens : Origin := ⟨"https".toList, "lens.example".toList, none⟩

/-- A sign-in whose `next` names the site, and a visit to the sign-in page after it. -/
def ordinary : List (Request Nat) :=
  [.loginPage (some "/reports?page=2".toList) true,
    .authLocalLogin (some "/reports?page=2".toList) none (.user 1 false),
    .loginPage (some "https://LENS.example/portfolio".toList) true]

private theorem stays_of_resolve {next : Text}
    (resolved : resolve plainHost domainLens next = some domainLens) :
    StaysNext some plainHost domainLens next := by
  rintro _ ⟨⟩
  exact (resolve_eq_base_iff plainHost).mp resolved

theorem ordinary_onSite : Along step (OnSite some plainHost domainLens) Visit.start ordinary := by
  refine (along_onSite_iff rfl Visit.start ordinary).mpr ?_
  rintro _ ⟨⟩
  refine ⟨fun signedIn => absurd signedIn Bool.false_ne_true, ?_⟩
  rintro _ ⟨⟩
  refine ⟨fun _ => stays_of_resolve (by decide), ?_⟩
  rintro _ ⟨⟩
  exact ⟨fun _ _ => stays_of_resolve (by decide), trivial⟩

/-- The right password with a `next` that begins with two slashes leads to another host, and so does
the sign-in page a signed-in visitor is given any address with. -/
theorem next_leaves_site :
    (¬ Along step (OnSite some plainHost domainLens) (Visit.start : Visit Nat)
      [.authLocalLogin (some "//evil.example/".toList) none (.user 1 false)]) ∧
    ¬ Along step (OnSite some plainHost domainLens) (⟨loginUser 1, .nothing⟩ : Visit Nat)
      [.loginPage (some "https://evil.example/".toList) true] := by
  constructor
  · intro along
    have stays := (along _ rfl).1 _ rfl _ rfl
    revert stays
    decide
  · intro along
    have stays := (along _ rfl).1 _ rfl _ rfl
    revert stays
    decide

end SignIn
end DomainLens
