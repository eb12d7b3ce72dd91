import DomainLens.Python.DateTime
import DomainLens.Python.UrlParse
import DomainLens.SecurityTxt.Parse

/-!
# Writing and checking security.txt

The file of this installation is written from its settings, and a file is checked against RFC 9116.
-/

namespace DomainLens
namespace SecurityTxt

open Python Decimal

/-! ## Values -/

/-- `_clean`. -/
def clean (value : Text) : Text := joinWords (split (strip value))

def withScheme (item : Text) : Text :=
  let small := lower item
  if ¬"://".toList <:+: item ∧ ¬"mailto:".toList <+: small ∧ ¬"tel:".toList <+: small ∧ '@' ∈ item then
    "mailto:".toList ++ item
  else item

/-- `_contacts`. -/
def contacts (raw : Text) : List Text :=
  (((raw.map fun char => if char = ';' then ',' else char).splitOn ',').filterMap fun part =>
    if clean part = [] then none else some (withScheme (clean part)))

/-- The number of days: none or zero, what `int` makes of it, or what it does not take. -/
inductive Days where
  | absent
  | number (value : ℤ)
  | unreadable

/-- The settings of the disclosure. -/
structure Config where
  enabled : Bool
  contact : Text
  expiresDays : Days
  policyUrl : Text
  acknowledgmentsUrl : Text
  preferredLanguages : Text
  canonicalUrl : Text

/-- `MAX_EXPIRY_DAYS`. -/
def maxExpiryDays : ℕ := 365

def Days.clamped : Days → Option ℕ
  | .absent => some maxExpiryDays
  | .number value => some (max 1 (min value maxExpiryDays)).toNat
  | .unreadable => none

/-- `expiry_for`; nothing where it raises. -/
def expiryFor (days : Days) (now : DateTime) : Option DateTime := do
  let later ← now.plusDays (← days.clamped)
  pure { later with microsecond := 0 }

/-- `strftime("%Y-%m-%dT%H:%M:%SZ")`. -/
def stamp (moment : DateTime) : Text :=
  padded 4 moment.date.year ++ '-' :: (padded 2 moment.date.month ++
    '-' :: (padded 2 moment.date.day ++ 'T' :: (padded 2 moment.hour ++
      ':' :: (padded 2 moment.minute ++ ':' :: (padded 2 moment.second ++ ['Z'])))))

/-- `uses_relative`. -/
def usesRelative : List Text :=
  ["", "ftp", "http", "gopher", "nntp", "imap", "wais", "file", "https", "shttp", "mms", "prospero", "rtsp",
    "rtsps", "rtspu", "sftp", "svn", "svn+ssh", "ws", "wss"].map String.toList

/-- The network location a path from the root is joined to, and the scheme, if the scheme has paths. -/
def rootOf (nfkc : Text → Text) (base : Text) : Option (Option (Text × Text)) :=
  (UrlParse.urlsplit nfkc base).map fun parts =>
    if parts.scheme ∈ usesRelative then some (parts.scheme, parts.netloc) else none

/-- `urljoin` of a URL and a path from the root; nothing where it raises. -/
def urljoin (nfkc : Text → Text) (base path : Text) : Option Text :=
  (rootOf nfkc base).map fun root =>
    match root with
    | some (scheme, netloc) => UrlParse.urlunsplit ⟨scheme, netloc, path, [], []⟩
    | none => path

/-- `PUBLIC_KEY_PATH`. -/
def publicKeyPath : Text := "/.well-known/pgp-key.asc".toList

/-- `SECURITY_TXT_PATH`. -/
def securityTxtPath : Text := "/.well-known/security.txt".toList

/-! ## Writing -/

/-- What a file is built from: the settings, the URL of the installation, whether it has a key, and the time. -/
structure Request where
  config : Config
  baseUrl : Text
  hasKey : Bool
  now : DateTime

/-- A field with a value, if there is one. -/
def optional (name : String) (value : Text) : List (Text × Text) :=
  if value = [] then [] else [(name.toList, value)]

/-- The URL of the key, if it is published. -/
def encryptionUrl (nfkc : Text → Text) (request : Request) : Option Text :=
  if request.hasKey ∧ request.baseUrl ≠ [] then urljoin nfkc request.baseUrl publicKeyPath
  else some []

/-- The URL of the file, as it is configured or from that of the installation. -/
def canonicalUrl (nfkc : Text → Text) (request : Request) : Option Text :=
  if clean request.config.canonicalUrl ≠ [] then some (clean request.config.canonicalUrl)
  else if request.baseUrl ≠ [] then urljoin nfkc request.baseUrl securityTxtPath
  else some []

def written (config : Config) (expires encryption canonical : Text) : List (Text × Text) :=
  (contacts config.contact).map (fun value => ("Contact".toList, value)) ++
    (("Expires".toList, expires) ::
      (optional "Encryption" encryption ++ optional "Policy" (clean config.policyUrl) ++
        optional "Acknowledgments" (clean config.acknowledgmentsUrl) ++
        optional "Preferred-Languages" (clean config.preferredLanguages) ++
        optional "Canonical" canonical))

/-- The fields of the file; nothing where there is none. -/
def fieldsToWrite (nfkc : Text → Text) (request : Request) : Option (List (Text × Text)) :=
  let config := request.config
  if config.enabled = false ∨ contacts config.contact = [] then none
  else do
    let expires ← expiryFor config.expiresDays request.now
    let encryption ← encryptionUrl nfkc request
    let canonical ← canonicalUrl nfkc request
    pure (written config (stamp expires) encryption canonical)

def lineText (entry : Text × Text) : Text := entry.1 ++ ": ".toList ++ entry.2

/-- `build`; nothing where it gives `None` or raises. -/
def build (nfkc : Text → Text) (request : Request) : Option Text :=
  (fieldsToWrite nfkc request).map fun entries =>
    ['\n'].intercalate (entries.map lineText) ++ ['\n']

/-! ## Checking -/

/-- The days of `later - earlier`, without what is left of a day. -/
def daysBetween (later earlier : DateTime) : ℤ :=
  let ordinal (date : Day) : ℤ := toOrdinal date.year date.month date.day
  ordinal later.date - ordinal earlier.date -
    if { later with date := earlier.date } < earlier then 1 else 0

/-- A time that was read: how it is shown, whether another is not before it, and the days from another to it. -/
structure Stamp where
  shown : Text
  notAfter : DateTime → Bool
  daysAfter : DateTime → ℤ

def Stamp.of (moment : DateTime) : Stamp where
  shown := moment.isoformat
  notAfter now := moment ≤ now
  daysAfter now := daysBetween moment now

/-- `datetime.fromisoformat`, of UTC where no zone is given: it reads what `isoformat` shows. -/
structure IsoReader where
  read : Text → Option Stamp
  reads : ∀ moment : DateTime, read moment.isoformat = some (.of moment)

/-- `_parse_expires`. -/
def parseExpires (reader : IsoReader) (value : Text) : Option Stamp :=
  reader.read ((strip value).flatMap fun char => if char = 'Z' then "+00:00".toList else [char])

/-- `_KNOWN_FIELDS`. -/
def knownFields : List Text :=
  ["acknowledgments", "canonical", "contact", "encryption", "expires", "hiring", "policy",
    "preferred-languages", "csaf"].map String.toList

structure Validation where
  valid : Bool
  errors : List Text
  warnings : List Text
  notes : List Text
  fields : Fields
  expires : Option Text

/-- The errors and the warnings about the contacts. -/
def contactProblems (values : List Text) : List Text × List Text :=
  if values = [] then
    ([("No Contact field. It is mandatory (RFC 9116 s2.5.3) and is the " ++
      "one thing a researcher actually needs.").toList], [])
  else
    ([], (values.filter fun value => !decide ("://".toList <:+: value) &&
        !decide ("mailto:".toList <+: lower value) && !decide ("tel:".toList <+: lower value)).map
      fun value => "Contact '".toList ++ value ++
        "' is not a URI. Use mailto:, tel: or https://.".toList)

/-- The errors, the warnings and the time of the field `Expires`. -/
def expiresProblems (reader : IsoReader) (now : DateTime) (values : List Text) :
    List Text × List Text × Option Text :=
  match values with
  | [] =>
      ([("No Expires field. It is mandatory (RFC 9116 s2.5.5); without it " ++
        "a reader cannot tell whether this file is still maintained.").toList], [], none)
  | first :: others =>
      let repeated :=
        if others = [] then [] else ["More than one Expires field; only one is allowed.".toList]
      match parseExpires reader first with
      | none =>
          (repeated ++ ["Expires '".toList ++ first ++ "' is not a valid ISO 8601 timestamp.".toList], [],
            none)
      | some parsed =>
          if parsed.notAfter now then
            (repeated ++ ["Expires is in the past (".toList ++ first ++
              ("); the file is stale " ++ "and tooling will ignore it.").toList], [], some parsed.shown)
          else
            (repeated,
              if (maxExpiryDays : ℤ) < parsed.daysAfter now then
                [("Expires is more than a year out; RFC 9116 says it should " ++
                  "be less, so the file gets re-checked.").toList]
              else [],
              some parsed.shown)

def notesOn (fields : Fields) : List Text :=
  (if fields.values "encryption".toList = [] then
      [("No Encryption field. It is optional, so this is a choice rather " ++
        "than a fault, but researchers have no way to encrypt a report.").toList]
    else []) ++
    (if fields.values "policy".toList = [] then
      ["No Policy field pointing at your disclosure policy.".toList]
    else []) ++
    (if fields.values "canonical".toList = [] then
      [("No Canonical field. Without it a copy of this file served " ++
        "elsewhere cannot be told apart from the original.").toList]
    else []) ++
    ((fields.map Prod.fst).filter (· ∉ knownFields)).map fun name =>
      ['\''] ++ name ++ "' is not a field defined in RFC 9116.".toList

/-- `validate`. -/
def validate (reader : IsoReader) (body : Text) (now : DateTime) : Validation :=
  if strip body = [] then ⟨false, ["The file is empty.".toList], [], [], [], none⟩
  else
    let fields := parseSecurityTxt (strip body)
    let contact := contactProblems (fields.values "contact".toList)
    let (errors, warnings, expires) := expiresProblems reader now (fields.values "expires".toList)
    { valid := contact.1 ++ errors = []
      errors := contact.1 ++ errors
      warnings := contact.2 ++ warnings
      notes := notesOn fields
      fields, expires }

end SecurityTxt
end DomainLens
