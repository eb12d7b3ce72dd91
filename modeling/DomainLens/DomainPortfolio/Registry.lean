import DomainLens.DomainPortfolio.Units
import DomainLens.Library.Run
import DomainLens.Python.Date

/-!
# Looking a domain up

A lookup answers, says that the domain is not registered, or fails.  An answer is compared with the
stored one, which it then replaces whole; changes and an approaching expiry become events.
-/

namespace DomainLens
namespace DomainPortfolio
namespace Registry

open Python Run

/-- Microseconds since the start of year 1, UTC. -/
abbrev Time := Int

/-- The ordinal of the date of an instant. -/
def dateOf (now : Time) : Int := now / (24 * 3600 * 1000000) + 1

/-- Where a domain is in its life; one not looked up yet has none. -/
inductive Phase where
  | registered
  | quarantine
  | pendingDelete
  | redemption
  | notInDns
  | notRegistered
deriving DecidableEq

instance lawfulBEqPhase : LawfulBEq (Option Phase) := inferInstance

/-- `PHASE_TEXT`. -/
def phaseText : Option Phase → Text
  | some .registered => "Registered".toList
  | some .quarantine => "In quarantine".toList
  | some .pendingDelete => "Being deleted".toList
  | some .redemption => "Redemption period".toList
  | some .notInDns => "Registered, not in DNS".toList
  | some .notRegistered => "Not registered".toList
  | none => "Not looked up yet".toList

/-- Whether the name servers of a domain answer. -/
inductive DnsState where
  | ok
  | noAnswer
deriving DecidableEq

/-- `_DNS_TEXT`. -/
def dnsText : DnsState → Text
  | .ok => "Name servers answer".toList
  | .noAnswer => "Name servers do not answer".toList

/-- The columns of `portfolio_domains` a lookup reads or writes. -/
structure Row where
  domain : Text
  lifecycle : Lifecycle
  phase : Option Phase
  status : List Text
  registrar : Option Text
  reseller : Option Text
  registeredOn : Option Text
  expires : Option Text
  releasedFrom : Option Text
  dnssec : Option Bool
  nameservers : Option Text
  source : Option Text
  lastCheckedAt : Option Time
  lastOkAt : Option Time
  lastError : Option Text
  lastChangeAt : Option Time
  expiryWarned : Option Int
  usesMail : Option Bool
  usesWeb : Option Bool
  dnsState : Option DnsState
  usageCheckedAt : Option Time
deriving DecidableEq

def Row.added (domain : Text) (lifecycle : Lifecycle) : Row where
  domain
  lifecycle
  phase := none
  status := []
  registrar := none
  reseller := none
  registeredOn := none
  expires := none
  releasedFrom := none
  dnssec := none
  nameservers := none
  source := none
  lastCheckedAt := none
  lastOkAt := none
  lastError := none
  lastChangeAt := none
  expiryWarned := none
  usesMail := none
  usesWeb := none
  dnsState := none
  usageCheckedAt := none

/-- The entry `registered` of a lookup: a date, `False` or nothing. -/
inductive Registered where
  | absent
  | on (date : Text)
  | no
deriving DecidableEq

structure Lookup where
  success : Bool
  phase : Option Phase
  releasedFrom : Option Text
  status : List Text
  registrar : Option Text
  reseller : Option Text
  registered : Registered
  expires : Option Text
  dnssec : Option Bool
  nameservers : List Text
  source : Option Text
  error : Option Text
deriving DecidableEq

/-- The stored fields of an answer. -/
structure Answer where
  phase : Phase
  status : List Text
  registrar : Option Text
  reseller : Option Text
  registeredOn : Option Text
  expires : Option Text
  releasedFrom : Option Text
  dnssec : Option Bool
  nameservers : Option Text
  source : Option Text
deriving DecidableEq

/-- `_answer`: nothing where the lookup could not be made. -/
def answer (result : Lookup) : Option Answer :=
  if result.success then
    some
      { phase := result.phase.getD .registered
        status := result.status
        registrar := truthyText result.registrar
        reseller := truthyText result.reseller
        registeredOn := match result.registered with
          | .on date => truthyText (some date)
          | _ => none
        expires := truthyText result.expires
        releasedFrom := result.releasedFrom
        dnssec := result.dnssec
        nameservers := truthyText (some (joinWords (result.nameservers.insertionSort (· ≤ ·))))
        source := result.source }
  else if result.registered = .no then
    some
      { phase := .notRegistered, status := [], registrar := none, reseller := none,
        registeredOn := none, expires := none, releasedFrom := none, dnssec := none,
        nameservers := none, source := some "rdap".toList }
  else none

/-! ## Changes -/

inductive Severity where
  | critical
  | high
  | medium
  | low
deriving DecidableEq

/-- The fields whose changes are told apart. -/
inductive Field where
  | registrar
  | reseller
  | nameservers
deriving DecidableEq

inductive Kind where
  | phase
  | field (field : Field)
  | expiry
  | dns
deriving DecidableEq

structure Change where
  kind : Kind
  severity : Severity
  detail : Text
deriving DecidableEq

def Row.field (row : Row) : Field → Option Text
  | .registrar => row.registrar
  | .reseller => row.reseller
  | .nameservers => row.nameservers

def Answer.field (answer : Answer) : Field → Option Text
  | .registrar => answer.registrar
  | .reseller => answer.reseller
  | .nameservers => answer.nameservers

def fieldText (domain : Text) (field : Field) (before after : Text) : Text :=
  match field with
  | .registrar => domain ++ " changed registrar: ".toList ++ before ++ " -> ".toList ++ after ++ ['.']
  | .reseller => domain ++ " changed reseller: ".toList ++ before ++ " -> ".toList ++ after ++ ['.']
  | .nameservers =>
      domain ++ " has new name servers: ".toList ++ after ++ " (was ".toList ++ before ++ [')', '.']

/-- The changes of the fields: a missing value is not a change. -/
def fieldChanges (old : Row) (new : Answer) : List Change :=
  [Field.registrar, .reseller, .nameservers].filterMap fun field =>
    match truthyText (old.field field), truthyText (new.field field) with
    | some before, some after =>
        if after ≠ before then
          some { kind := .field field, severity := .high, detail := fieldText old.domain field before after }
        else none
    | _, _ => none

/-- The end of a sentence on a quarantine. -/
def releaseText (new : Answer) : Text :=
  match truthyText new.releasedFrom with
  | some released => "; released from ".toList ++ released
  | none => []

/-- `_changes_cancelled`. -/
def changesCancelled (old : Row) (new : Answer) : List Change :=
  (if some new.phase = old.phase then []
    else [{ kind := .phase, severity := .low, detail :=
      old.domain ++ ": ".toList ++ phaseText old.phase ++ " -> ".toList ++ phaseText (some new.phase) ++
        " (marked to cancel).".toList }]) ++ fieldChanges old new

/-- `_changes_wanted`. -/
def changesWanted (old : Row) (new : Answer) : List Change :=
  if some new.phase = old.phase then []
  else if new.phase = .notRegistered then
    [{ kind := .phase, severity := .high, detail :=
      old.domain ++ " is no longer registered (was: ".toList ++ phaseText old.phase ++
        "): it can be requested now.".toList }]
  else if new.phase = .registered ∧
      old.phase ∈ [some .quarantine, some .pendingDelete, some .redemption, some .notRegistered] then
    let released := (((truthyText old.releasedFrom).or (truthyText new.releasedFrom)).getD []).take 10
    let registeredOn := (new.registeredOn.getD []).take 10
    if registeredOn ≠ [] ∧ released ≠ [] ∧ released ≤ registeredOn then
      [{ kind := .phase, severity := .high, detail :=
        old.domain ++ " was registered again on ".toList ++ registeredOn ++
          " by a new holder. If that was not you, it is taken.".toList }]
    else
      [{ kind := .phase, severity := .medium, detail :=
        old.domain ++ " is registered again (restored by the holder).".toList }]
  else if new.phase = .quarantine then
    [{ kind := .phase, severity := .medium, detail :=
      old.domain ++ " went into quarantine".toList ++ releaseText new ++
        " (to request or claim).".toList }]
  else
    [{ kind := .phase, severity := .medium, detail :=
      old.domain ++ ": ".toList ++ phaseText old.phase ++ " -> ".toList ++ phaseText (some new.phase) ++
        " (to request or claim).".toList }]

/-- The change of phase of a domain that is kept. -/
def phaseChange (old : Row) (new : Answer) : List Change :=
  if some new.phase = old.phase then []
  else match new.phase with
    | .notRegistered =>
        [{ kind := .phase, severity := .critical, detail :=
          old.domain ++ " is no longer registered (was: ".toList ++ phaseText old.phase ++ [')', '.'] }]
    | .quarantine =>
        [{ kind := .phase, severity := .critical, detail :=
          old.domain ++ " went into quarantine".toList ++ releaseText new ++
            ". Only the holder can restore it until then.".toList }]
    | phase =>
        [{ kind := .phase
           severity := if phase = .registered then .medium else .high
           detail := old.domain ++ ": ".toList ++ phaseText old.phase ++ " -> ".toList ++
            phaseText (some phase) ++ ['.'] }]

/-- `_changes`. -/
def changes (old : Row) (new : Answer) : List Change :=
  match old.lifecycle with
  | .cancel => changesCancelled old new
  | .claim => changesWanted old new
  | .keep | .review => phaseChange old new ++ fieldChanges old new

/-! ## Expiry -/

/-- `EXPIRY_WARN_DAYS`. -/
def expiryWarnDays : List Int := [30, 7]

/-- `_days_left`. -/
def daysLeft (expires : Option Text) (date : Int) : Option Int := do
  let expires ← truthyText expires
  let ordinal ← fromIsoFormat (expires.take 10)
  some (ordinal - date)

/-- The threshold that was warned at, of the term an answer is about. -/
def warnedOf (row : Row) (new : Answer) : Option Int :=
  if row.expires = new.expires then row.expiryWarned else none

/-- The thresholds an expiry has newly crossed. -/
def crossed (row : Row) (new : Answer) (days : Int) : List Int :=
  expiryWarnDays.filter fun threshold =>
    days ≤ threshold ∧ (warnedOf row new).all (threshold < ·)

/-- `_expiry_warning`: the least threshold newly crossed, with its sentence. -/
def expiryWarning (row : Row) (new : Answer) (date : Int) : Option (Int × Text) :=
  match daysLeft new.expires date with
  | none => none
  | some days =>
      (crossed row new days).min?.map fun threshold =>
        let moment := if days < 0 then "has expired".toList
          else "expires in ".toList ++ strOf days.toNat ++ " day".toList ++
            (if days = 1 then [] else ['s'])
        (threshold, row.domain ++ [' '] ++ moment ++ " (".toList ++ new.expires.getD [] ++ [')', '.'])

/-! ## Storing an answer -/

/-- A row of `portfolio_events` that a lookup writes. -/
structure Event where
  kind : Kind
  severity : Severity
  detail : Text
  before : Option Text
  after : Option Text
  time : Time
deriving DecidableEq

/-- `_registry_values`. -/
def registryValues (kind : Kind) (old : Row) (new : Answer) : Option Text × Option Text :=
  match kind with
  | .phase => (some (phaseText old.phase), some (phaseText (some new.phase)))
  | .field field => (old.field field, new.field field)
  | .expiry => (none, new.expires)
  | .dns => (none, none)

/-- The use of a domain as it was measured, nothing where it was not. -/
structure Found where
  mail : Option Bool
  web : Option Bool
  dns : Option DnsState
deriving DecidableEq

/-- `_store_usage`, with the state of the name servers where it was measured. -/
def storeUsage (row : Row) (phase : Phase) (found : Found) (now : Time) : Row × Option DnsState :=
  let keep (mail web : Option Bool) (dns : Option DnsState) : Row :=
    { row with
      usesMail := mail.or row.usesMail
      usesWeb := web.or row.usesWeb
      dnsState := dns
      usageCheckedAt := some now }
  if phase = .notRegistered ∨ phase = .quarantine ∨ phase = .notInDns then
    (keep (some false) (some false) none, none)
  else if phase = .registered ∧ found ≠ ⟨none, none, none⟩ then
    (keep found.mail found.web found.dns, found.dns)
  else (row, none)

/-- `_dns_change`. -/
def dnsChange (domain : Text) (was now : Option DnsState) : Option Change :=
  match was, now with
  | some .ok, some .noAnswer =>
      some { kind := .dns, severity := .high, detail :=
        domain ++ (": its name servers do not answer; the domain resolves nowhere (no web, no mail). " ++
          "If the name servers' own domain lapses, someone else could take over its DNS.").toList }
  | some .noAnswer, some .ok =>
      some { kind := .dns, severity := .medium, detail :=
        domain ++ ": its name servers answer again.".toList }
  | _, _ => none

/-- The changes of an answer with the warning it brings. -/
def newsOf (row : Row) (new : Answer) (now : Time) : List Change × Option Int :=
  let told := if row.phase = none then [] else changes row new
  match if row.lifecycle.held then expiryWarning row new (dateOf now) else none with
  | some (threshold, text) =>
      (told ++ [{ kind := .expiry, severity := if threshold ≤ 7 then .high else .medium, detail := text }],
        some threshold)
  | none => (told, none)

/-- The answer replaces the stored one. -/
def Row.store (row : Row) (new : Answer) (warned : Option Int) (changed : Bool) (now : Time) : Row :=
  { row with
    phase := some new.phase
    status := new.status
    registrar := new.registrar
    reseller := new.reseller
    registeredOn := new.registeredOn
    expires := new.expires
    releasedFrom := new.releasedFrom
    dnssec := new.dnssec
    nameservers := new.nameservers
    source := new.source
    lastCheckedAt := some now
    lastOkAt := some now
    lastError := none
    expiryWarned := warned
    lastChangeAt := if changed then some now else row.lastChangeAt }

/-- `check`, with what the probe measured: the row, the events it records and the threshold it warned
at. -/
def check (row : Row) (result : Lookup) (found : Found) (now : Time) :
    Row × List Event × Option Int :=
  match answer result with
  | none =>
      ({ row with
        lastCheckedAt := some now
        lastError := some ((truthyText result.error).getD "No answer".toList) }, [], none)
  | some new =>
      let (told, warning) := newsOf row new now
      let stored := row.store new (warning.or (warnedOf row new)) (told ≠ []) now
      let events := told.map fun change =>
        { kind := change.kind, severity := change.severity, detail := change.detail,
          before := (registryValues change.kind row new).1,
          after := (registryValues change.kind row new).2, time := now : Event }
      let found := if row.lifecycle = .claim then ⟨none, none, none⟩ else found
      let (used, dns) := storeUsage stored new.phase found now
      let told := if row.lifecycle.held then (dnsChange row.domain row.dnsState dns).toList else []
      (used, events ++ told.map fun change =>
        { kind := change.kind, severity := change.severity, detail := change.detail,
          before := row.dnsState.map dnsText, after := dns.map dnsText, time := now }, warning)

end Registry
end DomainPortfolio
end DomainLens
