import DomainLens.Library.Ceiling
import DomainLens.Python.Text

/-!
# Login attempts

Pairs of a name and a password are tried at every address that asks for HTTP Basic authentication, and a
few of them on its form.  The attempts of a scan are capped, and the scan reports whether the cap left a
pair out.
-/

namespace DomainLens
namespace WeakAuth

open Python Ceiling

/-! ## The servers -/

inductive Request where
  | probe (url : Text)
  | basic (url username password : Text)
  | page (url : Text)
  | form (url username password : Text)
deriving DecidableEq

/-- Whether a request carries credentials. -/
def Request.carries : Request → Bool
  | .basic .. | .form .. => true
  | .probe _ | .page _ => false

structure Response where
  status : ℕ
  authenticate : Text
  text : Text

/-- What comes of a request after those before it; none where it fails. -/
abbrev Servers := List Request → Request → Option Response

def send (servers : Servers) (request : Request) : Logged Request (Option Response) :=
  fun log => (servers log request, [request])

/-! ## The credentials -/

abbrev Pair := Text × Text

/-- The settings of the scan, with what is read of the files that they name. -/
structure Settings where
  enabled : Bool
  maxAttempts : Option ℤ
  paths : List Text
  includeHttp : Bool
  filePairs : List Pair
  usernames : List Text
  passwords : List Text
  usernameWords : List Text
  passwordWords : List Text
deriving DecidableEq

/-- `max_attempts_per_scan`. -/
def Settings.limit (settings : Settings) : ℤ := settings.maxAttempts.getD 25

/-- Every pair once, those of the file first. -/
def Settings.pairs (settings : Settings) : List Pair :=
  let usernames := settings.usernames ++ settings.usernameWords
  let passwords := settings.passwords ++ settings.passwordWords
  fromKeys (settings.filePairs ++
    usernames.flatMap fun user => passwords.map fun password => (user, password))

/-- `xs[:stop]`. -/
def upTo {α : Type} (stop : ℤ) (values : List α) : List α :=
  if 0 ≤ stop then values.take stop.toNat else values.take (values.length - stop.natAbs)

/-- `build_credential_list`. -/
def buildCredentialList (settings : Settings) : List Pair := upTo settings.limit settings.pairs

/-! ## One attempt -/

/-- An address that asks for HTTP Basic authentication. -/
structure Endpoint where
  url : Text
  status : ℕ
  authenticate : Text
deriving DecidableEq

/-- A pair that was accepted, with the password masked. -/
structure Finding where
  url : Text
  username : Text
  passwordMasked : Text
  status : ℕ
  method : Text
deriving DecidableEq

/-- `_uses_basic_auth`. -/
def usesBasicAuth (response : Response) : Bool :=
  response.status = 401 ∧ "basic".toList <:+: lower response.authenticate

/-- `_probe_url`. -/
def probeUrl (servers : Servers) (url : Text) : Logged Request (Option Endpoint) := do
  match ← send servers (.probe url) with
  | none => return none
  | some response =>
      if usesBasicAuth response then return some ⟨url, response.status, response.authenticate⟩
      else return none

/-- `_mask_password`. -/
def maskPassword (password : Text) : Text :=
  match password with
  | [] => []
  | [_] => ['*']
  | [_, _] => ['*', '*']
  | first :: rest => first :: List.replicate (rest.length - 1) '*' ++ rest.getLast?.toList

/-- The statuses of an answer that lets in. -/
def letsIn : List ℕ := [200, 204, 301, 302, 303, 307, 308]

/-- `_try_basic`, with the password masked as `_redact_finding` does. -/
def tryBasic (servers : Servers) (url : Text) (pair : Pair) : Logged Request (Option Finding) := do
  match ← send servers (.basic url pair.1 pair.2) with
  | none => return none
  | some response =>
      if response.status ∈ letsIn then
        return some ⟨url, pair.1, maskPassword pair.2, response.status, "http_basic".toList⟩
      else return none

/-- `_detect_form_login`. -/
def detectFormLogin (html : Text) : Bool :=
  let low := lower html
  "<form".toList <:+: low ∧
    ("password".toList <:+: low ∨ "type=\"password\"".toList <:+: low) ∧
    ("login".toList <:+: low ∨ "sign in".toList <:+: low ∨ "username".toList <:+: low)

/-- Whether the answer to a form says that the pair was accepted. -/
def formAccepts (post : Response) : Bool :=
  let body := lower post.text
  post.status ∈ letsIn ∧
    ¬("invalid".toList <:+: body ∨ "incorrect".toList <:+: body ∨ "failed".toList <:+: body) ∧
    ¬(detectFormLogin post.text ∧ post.status = 200)

/-- `_try_form_login`, with the password masked as `_redact_finding` does. -/
def tryFormLogin (servers : Servers) (url : Text) (pair : Pair) : Logged Request (Option Finding) := do
  match ← send servers (.page url) with
  | none => return none
  | some page =>
      if detectFormLogin page.text then
        match ← send servers (.form url pair.1 pair.2) with
        | none => return none
        | some post =>
            if formAccepts post then
              return some ⟨url, pair.1, maskPassword pair.2, post.status, "html_form".toList⟩
            else return none
      else return none

/-! ## The scan -/

structure Progress where
  attempts : ℕ
  findings : List Finding
  capped : Bool
deriving DecidableEq

def Progress.start : Progress := ⟨0, [], false⟩

def Progress.cap (progress : Progress) : Progress := { progress with capped := true }

def Progress.tried (progress : Progress) : Progress :=
  { progress with attempts := progress.attempts + 1 }

def Progress.found (progress : Progress) (finding : Finding) : Progress :=
  { progress with findings := progress.findings ++ [finding] }

/-- Pairs one after the other at an address, until one is accepted or the ceiling is reached. -/
def tryEach (attempt : Text → Pair → Logged Request (Option Finding)) (url : Text) :
    List Pair → ℕ → Progress → Logged Request Progress
  | [], _, progress => pure progress
  | pair :: pairs, ceiling, progress =>
      if ceiling ≤ progress.attempts then pure progress.cap
      else attempt url pair >>= fun hit =>
        match hit with
        | some finding => pure (progress.tried.found finding)
        | none => tryEach attempt url pairs ceiling progress.tried

/-- The pairs at an address, and the first few on its form. -/
def tryEndpoint (servers : Servers) (credentials : List Pair) (url : Text) (ceiling : ℕ)
    (progress : Progress) : Logged Request Progress :=
  tryEach (tryBasic servers) url credentials ceiling progress >>= fun progress =>
    if progress.findings.length < 3 then
      tryEach (tryFormLogin servers) url (credentials.take 5) ceiling progress
    else pure progress

def tryEndpoints (servers : Servers) (credentials : List Pair) :
    List Endpoint → ℕ → Progress → Logged Request Progress
  | [], _, progress => pure progress
  | endpoint :: endpoints, ceiling, progress =>
      if ceiling ≤ progress.attempts then pure progress.cap
      else tryEndpoint servers credentials endpoint.url ceiling progress >>=
        tryEndpoints servers credentials endpoints ceiling

def urlsOf (domain : Text) (settings : Settings) : List Text :=
  let paths := if settings.paths = [] then [['/']] else settings.paths
  let schemes := "https".toList :: if settings.includeHttp then ["http".toList] else []
  schemes.flatMap fun scheme => paths.map fun path =>
    scheme ++ "://".toList ++ domain ++ if path.head? = some '/' then path else '/' :: path

/-- The addresses that ask for authentication. -/
def protectedEndpoints (servers : Servers) : List Text → Logged Request (List Endpoint)
  | [] => pure []
  | url :: urls => probeUrl servers url >>= fun endpoint =>
      protectedEndpoints servers urls >>= fun endpoints => pure (endpoint.toList ++ endpoints)

inductive Report where
  | disabled
  | noCredentials
  | noEndpoints
  | tested (endpoints : List Endpoint) (progress : Progress) (maxAttempts : ℕ)
deriving DecidableEq

/-- The ceiling on the attempts of a scan. -/
def Settings.ceiling (settings : Settings) : ℕ := (max 1 settings.limit).toNat

/-- `scan`. -/
def scan (servers : Servers) (domain : Text) (settings : Settings) : Logged Request Report :=
  if settings.enabled = false then pure .disabled
  else if buildCredentialList settings = [] then pure .noCredentials
  else protectedEndpoints servers (urlsOf domain settings) >>= fun endpoints =>
    if endpoints = [] then pure .noEndpoints
    else tryEndpoints servers (buildCredentialList settings) endpoints settings.ceiling .start >>=
      fun progress => pure (.tested endpoints progress settings.ceiling)

namespace Report

/-- `attempts`, zero where nothing was tried. -/
def attempts : Report → ℕ
  | .tested _ progress _ => progress.attempts
  | .disabled | .noCredentials | .noEndpoints => 0

/-- Whether the report says that the attempts were capped. -/
def capped : Report → Bool
  | .tested _ progress _ => progress.capped
  | .disabled | .noCredentials | .noEndpoints => false

/-- `detail`, or the text of the error. -/
def detail : Report → Text
  | .disabled =>
      ("Weak-auth scanning is disabled. Enable weak_auth.enabled in " ++
        "config/domainlens.json only for systems you are authorized to test.").toList
  | .noCredentials => "No credentials configured for weak-auth scan".toList
  | .noEndpoints =>
      "No HTTP Basic authentication endpoints discovered on configured paths.".toList
  | .tested endpoints progress maxAttempts =>
      "Tested ".toList ++ strOf progress.attempts ++ " credential attempt(s) on ".toList ++
        strOf endpoints.length ++ " protected endpoint(s).".toList ++
        if progress.capped then
          " Stopped at the max_attempts_per_scan ceiling (".toList ++ strOf maxAttempts ++ ").".toList
        else []

end Report

/-! ## The attempts of a scan -/

section Ceiling

variable {servers : Servers} {attempt : Text → Pair → Logged Request (Option Finding)}

private abbrev Capped (room : ℕ) (act : ℕ → Progress → Logged Request Progress) : Prop :=
  Stops Progress.attempts Progress.capped Request.carries room act

theorem tryBasic_single (url : Text) (pair : Pair) (log : List Request) :
    ((tryBasic servers url pair log).2).countP Request.carries ≤ 1 := by
  unfold tryBasic
  rw [Logged.bind_apply]
  rcases (send servers (.basic url pair.1 pair.2) log).1 with _ | response
  · exact le_rfl
  · dsimp only
    split_ifs <;> exact le_rfl

theorem tryFormLogin_single (url : Text) (pair : Pair) (log : List Request) :
    ((tryFormLogin servers url pair log).2).countP Request.carries ≤ 1 := by
  unfold tryFormLogin
  rw [Logged.bind_apply]
  rcases (send servers (.page url) log).1 with _ | page
  · exact Nat.zero_le 1
  · dsimp only
    split_ifs
    · rw [Logged.bind_apply]
      rcases (send servers (.form url pair.1 pair.2) _).1 with _ | post
      · exact le_rfl
      · dsimp only
        split_ifs <;> exact le_rfl
    · exact Nat.zero_le 1

theorem tryEach_stops {url : Text}
    (single : ∀ pair log, ((attempt url pair log).2).countP Request.carries ≤ 1) (pairs : List Pair) :
    Capped 0 (tryEach attempt url pairs) := by
  induction pairs with
  | nil => exact Stops.nothing
  | cons pair pairs induction =>
      let next : Option Finding → ℕ → Progress → Logged Request Progress :=
        fun hit ceiling progress =>
          match hit with
          | some finding => pure (progress.found finding)
          | none => tryEach attempt url pairs ceiling progress
      have later : ∀ hit, Capped 0 (next hit) := by
        intro hit
        cases hit with
        | none => exact induction
        | some finding =>
            exact ⟨fun _ _ _ inside => inside, fun _ _ _ => le_rfl, fun _ _ _ held => held,
              fun _ _ _ _ _ => rfl,
              fun _ _ _ _ uncut isCut => absurd (uncut.symm.trans isCut) Bool.false_ne_true⟩
      have spent := @Stops.spend _ _ _ Progress.attempts Progress.capped Request.carries Progress.tried
        (attempt url pair) next (fun _ => rfl) (fun _ => rfl) (single pair) later
      refine Stops.guard spent (fun ceiling progress log _ => ?_) (fun _ => rfl) fun _ => rfl
      exact (Nat.lt_succ_self _).trans_le ((later _).count_le ceiling progress.tried _)

theorem tryEach_counts {url : Text} {pairs : List Pair} (some : pairs ≠ []) {ceiling : ℕ}
    {progress : Progress} (room : progress.attempts < ceiling)
    (single : ∀ pair log, ((attempt url pair log).2).countP Request.carries ≤ 1) (log : List Request) :
    progress.attempts < (tryEach attempt url pairs ceiling progress log).1.attempts := by
  obtain ⟨pair, rest, rfl⟩ := List.exists_cons_of_ne_nil some
  rw [tryEach, if_neg (not_le.mpr room), Logged.bind_apply]
  cases (attempt url pair log).1 with
  | some finding => exact Nat.lt_succ_self _
  | none =>
      exact (Nat.lt_succ_self _).trans_le ((tryEach_stops single rest).count_le ceiling progress.tried _)

theorem tryEndpoint_stops (credentials : List Pair) (url : Text) :
    Capped 0 (tryEndpoint servers credentials url) :=
  (tryEach_stops (tryBasic_single url) credentials).bind
    (Stops.ite (tryEach_stops (tryFormLogin_single url) (credentials.take 5)) Stops.nothing)

theorem tryEndpoint_counts {credentials : List Pair} (some : credentials ≠ []) {ceiling : ℕ}
    {progress : Progress} (room : progress.attempts < ceiling) (url : Text) (log : List Request) :
    progress.attempts < (tryEndpoint servers credentials url ceiling progress log).1.attempts := by
  have forms : Capped 0 fun ceiling progress =>
      if progress.findings.length < 3 then
        tryEach (tryFormLogin servers) url (credentials.take 5) ceiling progress
      else pure progress :=
    Stops.ite (tryEach_stops (tryFormLogin_single url) (credentials.take 5)) Stops.nothing
  exact (tryEach_counts some room (tryBasic_single url) log).trans_le (forms.count_le ceiling _ _)

/-- The attempts of a scan stay within the ceiling, are counted, and are marked where one is left out. -/
theorem tryEndpoints_stops {credentials : List Pair} (some : credentials ≠ [])
    (endpoints : List Endpoint) : Capped 0 (tryEndpoints servers credentials endpoints) := by
  induction endpoints with
  | nil => exact Stops.nothing
  | cons endpoint endpoints induction =>
      refine Stops.guard ((tryEndpoint_stops credentials endpoint.url).bind induction).more_room
        (fun ceiling progress log room => ?_) (fun _ => rfl) fun _ => rfl
      exact (tryEndpoint_counts some room endpoint.url log).trans_le (induction.count_le ceiling _ _)

/-! ## A list cut at the ceiling -/

/-- Pairs beyond the ceiling make no difference where one was tried before. -/
theorem tryEach_take {url : Text} {ceiling : ℕ} (pairs : List Pair) {kept : ℕ} {progress : Progress}
    (within : progress.attempts ≤ ceiling) (beyond : ceiling < progress.attempts + kept)
    (log : List Request) :
    tryEach attempt url (pairs.take kept) ceiling progress log =
      tryEach attempt url pairs ceiling progress log := by
  induction pairs generalizing kept progress log with
  | nil => rw [List.take_nil]
  | cons pair pairs induction =>
      cases kept with
      | zero => exact absurd within (not_le.mpr beyond)
      | succ kept =>
          rw [List.take_succ_cons, tryEach, tryEach]
          split_ifs with full
          · rfl
          · rw [Logged.bind_apply, Logged.bind_apply]
            cases (attempt url pair log).1 with
            | some finding => rfl
            | none =>
                dsimp only
                have within : progress.tried.attempts ≤ ceiling := not_le.mp full
                have beyond : ceiling < progress.tried.attempts + kept := by
                  change ceiling < progress.attempts + 1 + kept
                  omega
                rw [induction within beyond]

/-- Pairs cut at the ceiling are all tried at most, and nothing but the mark is lost. -/
theorem tryEach_take_full {url : Text} {ceiling : ℕ} (pairs : List Pair) {kept : ℕ}
    {progress : Progress} (full : ceiling ≤ progress.attempts + kept) (log : List Request) :
    tryEach attempt url (pairs.take kept) ceiling progress log =
        tryEach attempt url pairs ceiling progress log ∨
      ceiling ≤ (tryEach attempt url (pairs.take kept) ceiling progress log).1.attempts ∧
        (tryEach attempt url (pairs.take kept) ceiling progress log).1.findings = progress.findings ∧
        tryEach attempt url pairs ceiling progress log =
          ((tryEach attempt url (pairs.take kept) ceiling progress log).1.cap,
            (tryEach attempt url (pairs.take kept) ceiling progress log).2) := by
  induction pairs generalizing kept progress log with
  | nil =>
      left
      rw [List.take_nil]
  | cons pair pairs induction =>
      cases kept with
      | zero =>
          right
          have reached : ceiling ≤ progress.attempts := full
          rw [List.take_zero, tryEach, tryEach, if_pos reached]
          exact ⟨reached, rfl, rfl⟩
      | succ kept =>
          rw [List.take_succ_cons, tryEach, tryEach]
          split_ifs
          · exact .inl rfl
          · rw [Logged.bind_apply, Logged.bind_apply]
            cases (attempt url pair log).1 with
            | some finding => exact .inl rfl
            | none =>
                have room : ceiling ≤ progress.tried.attempts + kept := by
                  change ceiling ≤ progress.attempts + 1 + kept
                  omega
                rcases induction room (log ++ (attempt url pair log).2) with same | ⟨count, found, rest⟩
                · left
                  dsimp only
                  rw [same]
                · right
                  dsimp only
                  rw [rest]
                  exact ⟨count, found, rfl⟩

private theorem tryEach_reached {url : Text} {pairs : List Pair} (some : pairs ≠ []) {ceiling : ℕ}
    {progress : Progress} (reached : ceiling ≤ progress.attempts) :
    tryEach attempt url pairs ceiling progress = pure progress.cap := by
  obtain ⟨pair, rest, rfl⟩ := List.exists_cons_of_ne_nil some
  rw [tryEach, if_pos reached]

/-- What was tried before the ceiling is reached; nothing is found before the first attempt. -/
structure Progress.Under (progress : Progress) (ceiling : ℕ) : Prop where
  room : progress.attempts < ceiling
  fresh : progress.attempts = 0 → progress.findings = []

private theorem tryEach_under {url : Text} (pairs : List Pair) {ceiling kept : ℕ}
    (enough : ceiling ≤ kept) {progress : Progress} (under : progress.Under ceiling) (log : List Request) :
    tryEach attempt url (pairs.take kept) ceiling progress log =
        tryEach attempt url pairs ceiling progress log ∨
      ceiling ≤ (tryEach attempt url (pairs.take kept) ceiling progress log).1.attempts ∧
        (tryEach attempt url (pairs.take kept) ceiling progress log).1.findings = [] ∧
        tryEach attempt url pairs ceiling progress log =
          ((tryEach attempt url (pairs.take kept) ceiling progress log).1.cap,
            (tryEach attempt url (pairs.take kept) ceiling progress log).2) := by
  rcases Nat.eq_zero_or_pos progress.attempts with first | later
  · rw [← under.fresh first]
    exact tryEach_take_full pairs (enough.trans (Nat.le_add_left kept progress.attempts)) log
  · exact .inl (tryEach_take pairs under.room.le (by omega) log)

theorem tryEndpoint_take {credentials : List Pair} (some : credentials ≠ []) {ceiling kept : ℕ}
    (enough : ceiling ≤ kept) {progress : Progress} (under : progress.Under ceiling) (url : Text)
    (log : List Request) :
    tryEndpoint servers (credentials.take kept) url ceiling progress log =
      tryEndpoint servers credentials url ceiling progress log := by
  have positive : 0 < kept := (Nat.zero_lt_of_lt under.room).trans_le enough
  have swap : (credentials.take kept).take 5 = (credentials.take 5).take kept := by
    rw [List.take_take, List.take_take, Nat.min_comm]
  unfold tryEndpoint
  rw [Logged.bind_apply, Logged.bind_apply]
  rcases @tryEach_under (tryBasic servers) url credentials _ _ enough _ under log with
    same | ⟨reached, found, rest⟩
  · rw [same]
    split_ifs
    · have within :
          (tryEach (tryBasic servers) url credentials ceiling progress log).1.attempts ≤ ceiling :=
        (tryEach_stops (tryBasic_single url) credentials).within _ _ _ under.room.le
      have counted := tryEach_counts some under.room (@tryBasic_single servers url) log
      rw [swap, tryEach_take _ within (by omega)]
    · rfl
  · have few : (tryEach (tryBasic servers) url (credentials.take kept) ceiling progress
        log).1.findings.length < 3 := by
      rw [found]
      exact Nat.zero_lt_succ 2
    have forms : credentials.take 5 ≠ [] := by
      simpa only [ne_eq, List.take_eq_nil_iff, OfNat.ofNat_ne_zero, false_or] using some
    have kept_forms : (credentials.take kept).take 5 ≠ [] := by
      rw [swap]
      simpa only [ne_eq, List.take_eq_nil_iff, positive.ne', OfNat.ofNat_ne_zero, false_or] using some
    -- The form marks what the shorter list left unmarked.
    rw [rest]
    dsimp only
    rw [if_pos few, if_pos (by exact few), tryEach_reached kept_forms reached,
      tryEach_reached forms (by exact reached)]
    rfl

theorem tryEndpoints_take {credentials : List Pair} (some : credentials ≠ []) {ceiling kept : ℕ}
    (enough : ceiling ≤ kept) (endpoints : List Endpoint) {progress : Progress}
    (fresh : progress.attempts = 0 → progress.findings = []) (log : List Request) :
    tryEndpoints servers (credentials.take kept) endpoints ceiling progress log =
      tryEndpoints servers credentials endpoints ceiling progress log := by
  induction endpoints generalizing progress log with
  | nil => rfl
  | cons endpoint endpoints induction =>
      rw [tryEndpoints, tryEndpoints]
      split_ifs with reached
      · rfl
      · have room : progress.attempts < ceiling := not_le.mp reached
        have counted := @tryEndpoint_counts servers _ some _ _ room endpoint.url log
        rw [Logged.bind_apply, Logged.bind_apply, tryEndpoint_take some enough ⟨room, fresh⟩,
          induction fun none => absurd none (Nat.ne_zero_of_lt counted)]

theorem protectedEndpoints_free (urls : List Text) (log : List Request) :
    ((protectedEndpoints servers urls log).2).countP Request.carries = 0 := by
  induction urls generalizing log with
  | nil => rfl
  | cons url urls induction =>
      have probed : ((probeUrl servers url log).2).countP Request.carries = 0 := by
        unfold probeUrl
        rw [Logged.bind_apply]
        rcases (send servers (.probe url) log).1 with _ | response
        · rfl
        · dsimp only
          split_ifs <;> rfl
      rw [protectedEndpoints, Logged.bind_apply, Logged.bind_apply, List.countP_append, probed,
        List.countP_append, induction]
      rfl

end Ceiling

/-! ## The report of a scan -/

/-- Whether the limit leaves a pair: it is positive, or it takes fewer from the end than there are. -/
def Settings.LeavesPair (settings : Settings) : Prop :=
  0 < settings.limit ∨ settings.limit < 0 ∧ settings.limit.natAbs < settings.pairs.length

/-- A scan with every pair, whatever the limit cuts off the list. -/
def trial (servers : Servers) (domain : Text) (settings : Settings) (ceiling : ℕ) (progress : Progress) :
    Logged Request Progress :=
  protectedEndpoints servers (urlsOf domain settings) >>= fun endpoints =>
    tryEndpoints servers settings.pairs endpoints ceiling progress

def Settings.withLimit (settings : Settings) (limit : ℤ) : Settings :=
  { settings with maxAttempts := some limit }

/-- A pair was left out because of the limit: under a higher one the scan tries more. -/
def LeavesOut (servers : Servers) (domain : Text) (settings : Settings) : Prop :=
  ∃ higher, settings.limit < higher ∧
    (scan servers domain settings []).1.attempts <
      (scan servers domain (settings.withLimit higher) []).1.attempts

/-- The requests with credentials are counted and within the limit, and the report says whether it left
    a pair out. -/
structure Honest (servers : Servers) (domain : Text) (settings : Settings) : Prop where
  sent : ((scan servers domain settings []).2.countP Request.carries : ℤ) ≤ max 1 settings.limit
  counted : (scan servers domain settings []).2.countP Request.carries ≤
    (scan servers domain settings []).1.attempts
  limited : ((scan servers domain settings []).1.attempts : ℤ) ≤ max 1 settings.limit
  told : (scan servers domain settings []).1.capped = true ↔ LeavesOut servers domain settings

section Reported

variable {servers : Servers} {domain : Text} {settings : Settings}

theorem trial_stops (some : settings.pairs ≠ []) :
    Stops Progress.attempts Progress.capped Request.carries 0 (trial servers domain settings) :=
  Stops.after (protectedEndpoints_free _) (tryEndpoints_stops some)

private theorem buildCredentialList_cases :
    ∃ kept, buildCredentialList settings = settings.pairs.take kept ∧
      (settings.pairs ≠ [] → settings.LeavesPair → settings.ceiling ≤ kept) ∧
      (¬ settings.LeavesPair → kept = 0) := by
  unfold buildCredentialList upTo Settings.LeavesPair Settings.ceiling
  split_ifs with positive
  · refine ⟨_, rfl, fun _ leaves => ?_, fun leaves => ?_⟩ <;> omega
  · refine ⟨_, rfl, fun _ leaves => ?_, fun leaves => ?_⟩ <;> omega

theorem scan_none (enabled : settings.enabled = true)
    (none : settings.pairs = [] ∨ ¬ settings.LeavesPair) :
    scan servers domain settings = pure .noCredentials := by
  obtain ⟨kept, list, -, unkept⟩ := @buildCredentialList_cases settings
  have empty : buildCredentialList settings = [] := by
    rcases none with pairs | leaves
    · rw [list, pairs, List.take_nil]
    · rw [list, unkept leaves, List.take_zero]
  rw [scan, if_neg (by rw [enabled]; decide), if_pos empty]

/-- The cut of the list makes no difference to a scan where a pair is left. -/
theorem scan_trial (enabled : settings.enabled = true) (some : settings.pairs ≠ [])
    (leaves : settings.LeavesPair) :
    (scan servers domain settings []).1.attempts =
        (trial servers domain settings settings.ceiling .start []).1.attempts ∧
      (scan servers domain settings []).1.capped =
        (trial servers domain settings settings.ceiling .start []).1.capped ∧
      (scan servers domain settings []).2 =
        (trial servers domain settings settings.ceiling .start []).2 := by
  obtain ⟨kept, list, enough, -⟩ := @buildCredentialList_cases settings
  have positive : 0 < kept := by
    have ceiling := enough some leaves
    unfold Settings.ceiling at ceiling
    omega
  have listed : buildCredentialList settings ≠ [] := by
    rw [list]
    simpa only [ne_eq, List.take_eq_nil_iff, positive.ne', false_or] using some
  rw [scan, if_neg (by rw [enabled]; decide), if_neg listed, trial, Logged.bind_apply,
    Logged.bind_apply]
  by_cases found : (protectedEndpoints servers (urlsOf domain settings) []).1 = []
  · rw [found]
    exact ⟨rfl, rfl, rfl⟩
  · dsimp only
    rw [if_neg found, Logged.bind_apply, list,
      tryEndpoints_take some (enough some leaves) _ fun _ => rfl]
    refine ⟨rfl, rfl, ?_⟩
    rw [Logged.pure_apply, List.append_nil]

/-- Every attempt of a scan under some limit is one of the trial under its ceiling. -/
theorem scan_attempts_le (enabled : settings.enabled = true) (some : settings.pairs ≠ []) :
    (scan servers domain settings []).1.attempts ≤
      (trial servers domain settings settings.ceiling .start []).1.attempts := by
  by_cases leaves : settings.LeavesPair
  · exact (scan_trial enabled some leaves).1.le
  · rw [scan_none enabled (.inr leaves)]
    exact Nat.zero_le _

theorem capped_leavesOut (enabled : settings.enabled = true) (some : settings.pairs ≠ [])
    (leaves : settings.LeavesPair) :
    (scan servers domain settings []).1.capped = true ↔ LeavesOut servers domain settings := by
  obtain ⟨attempts, capped, -⟩ := @scan_trial servers domain _ enabled some leaves
  have stops := @trial_stops servers domain _ some
  have start : Progress.start.attempts + 0 ≤ settings.ceiling := Nat.zero_le _
  have least : 1 ≤ settings.ceiling := by
    unfold Settings.ceiling
    omega
  constructor
  · intro isCapped
    rw [capped] at isCapped
    have next : (settings.withLimit (settings.ceiling + 1)).ceiling = settings.ceiling + 1 := by
      change (max 1 ((settings.ceiling : ℤ) + 1)).toNat = _
      omega
    have higher : settings.limit < settings.ceiling + 1 := by
      unfold Settings.ceiling
      omega
    have room : (settings.withLimit (settings.ceiling + 1)).LeavesPair := by
      left
      change 0 < (settings.ceiling : ℤ) + 1
      omega
    have more := stops.more _ _ [] start rfl isCapped
    have within := stops.within _ _ [] start
    have wider := (@scan_trial servers domain (settings.withLimit (settings.ceiling + 1)) enabled some
      room).1
    rw [next] at wider
    refine ⟨settings.ceiling + 1, higher, ?_⟩
    rw [attempts, wider]
    exact within.trans_lt more
  · rintro ⟨higher, above, more⟩
    rw [capped, ← Bool.not_eq_false]
    intro uncut
    have ceilings : settings.ceiling ≤ (settings.withLimit higher).ceiling := by
      change (max 1 settings.limit).toNat ≤ (max 1 higher).toNat
      omega
    have bound := @scan_attempts_le servers domain (settings.withLimit higher) enabled some
    have same : trial servers domain (settings.withLimit higher) (settings.withLimit higher).ceiling
        .start [] = trial servers domain settings settings.ceiling .start [] :=
      stops.same_of_le ceilings start uncut
    rw [same] at bound
    exact absurd more (not_lt.mpr (attempts ▸ bound))

/-- Where an address asks for authentication and there is a pair, one is tried. -/
theorem trial_counts (some : settings.pairs ≠ [])
    (found : (protectedEndpoints servers (urlsOf domain settings) []).1 ≠ []) {ceiling : ℕ}
    (room : 0 < ceiling) : 0 < (trial servers domain settings ceiling .start []).1.attempts := by
  obtain ⟨endpoint, rest, list⟩ := List.exists_cons_of_ne_nil found
  have start : ¬ ceiling ≤ Progress.start.attempts := not_le.mpr room
  rw [trial, Logged.bind_apply, list, tryEndpoints, if_neg start, Logged.bind_apply]
  exact (@tryEndpoint_counts _ _ some _ .start room endpoint.url _).trans_le
    ((tryEndpoints_stops some rest).count_le ceiling _ _)

theorem trial_none (found : (protectedEndpoints servers (urlsOf domain settings) []).1 = [])
    (ceiling : ℕ) : (trial servers domain settings ceiling .start []).1.attempts = 0 := by
  rw [trial, Logged.bind_apply, found]
  rfl

theorem honest_of_leaves (enabled : settings.enabled = true) (some : settings.pairs ≠ [])
    (leaves : settings.LeavesPair) : Honest servers domain settings := by
  obtain ⟨attempts, -, sent⟩ := @scan_trial servers domain _ enabled some leaves
  have stops := @trial_stops servers domain _ some
  have within := stops.within settings.ceiling .start [] (Nat.zero_le _)
  have pays := stops.pays settings.ceiling .start []
  have counted : (scan servers domain settings []).2.countP Request.carries ≤
      (scan servers domain settings []).1.attempts := by
    rw [sent, attempts]
    exact (Nat.le_add_left _ _).trans pays
  have limited : ((scan servers domain settings []).1.attempts : ℤ) ≤ max 1 settings.limit := by
    rw [attempts]
    unfold Settings.ceiling at within
    unfold Settings.ceiling
    omega
  exact ⟨(Int.ofNat_le.mpr counted).trans limited, counted, limited,
    capped_leavesOut enabled some leaves⟩

private theorem honest_of_none
    (none : ∀ limit, (scan servers domain (settings.withLimit limit) []).1.attempts = 0)
    (free : (scan servers domain settings []).2.countP Request.carries = 0)
    (untried : (scan servers domain settings []).1.attempts = 0)
    (uncapped : (scan servers domain settings []).1.capped = false) :
    Honest servers domain settings where
  sent := by
    rw [free]
    exact (Int.zero_le_ofNat 1).trans (le_max_left _ _)
  counted := free.trans_le (Nat.zero_le _)
  limited := by
    rw [untried]
    exact (Int.zero_le_ofNat 1).trans (le_max_left _ _)
  told := by
    rw [uncapped]
    refine ⟨fun isCapped => absurd isCapped Bool.false_ne_true, fun ⟨higher, _, more⟩ => ?_⟩
    rw [none] at more
    exact absurd more (Nat.not_lt_zero _)

end Reported

/-- A scan keeps to its limit and tells whether it left a pair out exactly if it is switched off, or there is
    no pair or no address to try it at, or the limit leaves a pair on the list. -/
theorem scan_honest (servers : Servers) (domain : Text) (settings : Settings) :
    Honest servers domain settings ↔
      (settings.enabled = true → settings.pairs ≠ [] →
        (protectedEndpoints servers (urlsOf domain settings) []).1 ≠ [] → settings.LeavesPair) := by
  constructor
  · intro honest enabled some found
    by_contra leaves
    have low : settings.limit < 1 := by
      unfold Settings.LeavesPair at leaves
      omega
    have tried := @trial_counts servers domain _ some found _ Nat.one_pos
    have one := (@scan_trial servers domain (settings.withLimit 1) enabled some (.inl Int.one_pos)).1
    have silent := honest.told
    rw [scan_none enabled (.inr leaves)] at silent
    refine absurd (silent.mpr ⟨1, low, ?_⟩) Bool.false_ne_true
    rw [scan_none enabled (.inr leaves), one]
    exact tried
  · intro holds
    cases enabled : settings.enabled with
    | false =>
        have off : ∀ limit, scan servers domain (settings.withLimit limit) = pure .disabled :=
          fun limit => if_pos enabled
        have now : scan servers domain settings = pure .disabled := if_pos enabled
        exact honest_of_none (fun limit => by rw [off]; rfl) (by rw [now]; rfl) (by rw [now]; rfl)
          (by rw [now]; rfl)
    | true =>
        rcases em (settings.pairs ≠ [] ∧ settings.LeavesPair) with ⟨some, leaves⟩ | unable
        · exact honest_of_leaves enabled some leaves
        · have now : scan servers domain settings = pure .noCredentials :=
            scan_none enabled (by tauto)
          refine honest_of_none (fun limit => ?_) (by rw [now]; rfl) (by rw [now]; rfl) (by rw [now]; rfl)
          by_cases none : settings.pairs = []
          · rw [@scan_none _ _ (settings.withLimit limit) enabled (.inl none)]
            rfl
          · have found : (protectedEndpoints servers (urlsOf domain settings) []).1 = [] := by
              by_contra found
              exact unable ⟨none, holds enabled none found⟩
            exact Nat.le_zero.mp ((@scan_attempts_le _ _ (settings.withLimit limit) enabled
              none).trans_eq (trial_none found _))

/-- A limit of zero empties the list of pairs, though a scan makes one attempt at least. -/
theorem zero_limit_unreported :
    ¬ Honest (fun _ _ => some ⟨401, "Basic realm=x".toList, []⟩) "example.nl".toList
      ⟨true, some 0, [], false, [("admin".toList, "admin".toList)], [], [], [], []⟩ := by
  intro honest
  have unmarked := honest.told.mpr ⟨1, by decide, by decide⟩
  exact absurd unmarked (by decide)

end WeakAuth
end DomainLens
