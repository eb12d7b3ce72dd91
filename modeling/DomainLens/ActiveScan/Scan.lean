import DomainLens.ActiveScan.Ownership
import DomainLens.Library.Logged
import DomainLens.Python.IpAddress

/-!
# The active scan of a site

The scan fetches the home page, crawls pages of the same origin for parameters, and sends crafted
values in them.  Where its requests go is up to the site, which redirects and links, and to the DNS,
which is asked anew for every request.
-/

namespace DomainLens
namespace ActiveScan

open Python Ownership

/-! ## URLs -/

/-- One part of a query string, and the name and value `parse_qsl` reads it as. -/
structure QueryItem where
  raw : Text
  name : Text
  value : Text
deriving DecidableEq

/-- A URL, taken apart as `urlparse` does. -/
structure Url where
  scheme : Text
  netloc : Text
  path : Text
  query : Option (List QueryItem)
  fragment : Option Text
deriving DecidableEq

/-- The host a network location names, without credentials and port. -/
def hostOf (netloc : Text) : Text :=
  let located := (netloc.reverse.takeWhile (· ≠ '@')).reverse
  match located with
  | '[' :: inside => inside.takeWhile (· ≠ ']')
  | _ => located.takeWhile (· ≠ ':')

def Url.host (url : Url) : Text := hostOf (lower url.netloc)

/-- `parse_qsl`: blank values are left out. -/
def parseQsl (url : Url) : List (Text × Text) :=
  ((url.query.getD []).filter fun item => item.value ≠ []).map fun item => (item.name, item.value)

def setKey (key value : Text) : List (Text × Text) → List (Text × Text)
  | [] => [(key, value)]
  | entry :: entries =>
      if entry.1 = key then (key, value) :: entries else entry :: setKey key value entries

/-- `dict` of a list of pairs. -/
def dictOf (pairs : List (Text × Text)) : List (Text × Text) :=
  pairs.foldl (fun entries pair => setKey pair.1 pair.2 entries) []

/-- The functions of `urllib.parse` the scan calls, where a failure is its `ValueError`; the links
of a page, the first sign of a database error in it, and the tokens of the probes. -/
structure Services where
  homeUrl : Text → Text → Url
  urljoin : Url → Text → Option Url
  encodePair : Text → Text → Text
  hrefs : Text → List Text
  sqlError : Text → Option Text
  token : Nat → Text

/-- `_set_param`. -/
def setParam (services : Services) (url : Url) (param value : Text) : Url :=
  { url with
    query := some ((setKey param value (dictOf (parseQsl url))).map fun entry =>
      { raw := services.encodePair entry.1 entry.2, name := entry.1, value := entry.2 }) }

/-! ## Requests -/

inductive Purpose where
  | home
  | page
  | probe (value : Text)
deriving DecidableEq

/-- A request as it was sent: to what its host resolved to then, and whether a redirect led to
it. -/
structure Request where
  url : Url
  purpose : Purpose
  redirected : Bool
  addresses : List IpAddress

/-- What a server answers; `next` is where a redirect leads. -/
structure Response where
  status : Nat
  contentType : Text
  location : Text
  next : Option Url
  text : Text

/-- The site and the DNS, which know all requests so far; an answer may be an exception. -/
structure Site where
  gethostbyname : Text → Option IpAddress
  resolve : List Request → Text → List IpAddress
  answer : List Request → Request → Option Response

def privateNetworks4 : List (Network 32) :=
  [(0x0A000000, 8), (0xAC100000, 12), (0xC0A80000, 16), (0x7F000000, 8), (0xA9FE0000, 16)]

def privateNetworks6 : List (Network 128) :=
  [(0x00000000000000000000000000000001, 128), (0xFC000000000000000000000000000000, 7),
    (0xFE800000000000000000000000000000, 10)]

/-- `_is_private_ip`. -/
def isPrivateIp : IpAddress → Bool
  | .v4 value => inAnyNetwork privateNetworks4 value
  | .v6 value => inAnyNetwork privateNetworks6 value

/-- `_safe_host`. -/
def safeHost (site : Site) (host : Text) : Bool :=
  match site.gethostbyname host with
  | some address => !isPrivateIp address
  | none => false

def send (site : Site) (purpose : Purpose) (redirected : Bool) (url : Url) :
    Logged Request (Option Response) := fun log =>
  match site.resolve log url.host with
  | [] => (none, [])
  | address :: addresses =>
      let request := Request.mk url purpose redirected (address :: addresses)
      (site.answer log request, [request])

/-- How many redirects `requests` follows. -/
def maxRedirects : Nat := 30

/-- A request and the redirects it leads to; one redirect too many is an exception. -/
def follow (site : Site) (purpose : Purpose) : Nat → Bool → Url →
    Logged Request (Option (Url × Response))
  | 0, redirected, url => do
      match ← send site purpose redirected url with
      | none => return none
      | some response =>
          match response.next with
          | none => return some (url, response)
          | some _ => return none
  | limit + 1, redirected, url => do
      match ← send site purpose redirected url with
      | none => return none
      | some response =>
          match response.next with
          | none => return some (url, response)
          | some target => follow site purpose limit true target

/-- `_get`: the URL the response is for, and the response. -/
def get (site : Site) (purpose : Purpose) (allowRedirects : Bool) (url : Url) :
    Logged Request (Option (Url × Response)) :=
  if allowRedirects then follow site purpose maxRedirects false url
  else do
    let response ← send site purpose false url
    return response.map fun response => (url, response)

/-! ## Discovery -/

/-- A URL and the parameter of it to test. -/
abbrev Target := Url × Text

structure Crawl where
  visited : List Url
  toVisit : List Url
  targets : List Target

/-- `_collect_params`. -/
def collectParams (url : Url) : List Target := (parseQsl url).map fun pair => (url, pair.1)

/-- `_collect_links`; nothing when a link cannot be read. -/
def collectLinks (services : Services) (html : Text) (page : Url) (origin : Text) :
    Option (List Url) :=
  let skipped := fun href : Text =>
    ["mailto:", "tel:", "javascript:", "#"].any fun start => start.toList.isPrefixOf href
  (((services.hrefs html).filter fun href => !skipped href).mapM (services.urljoin page)).map
    fun links =>
      (links.filter fun link => lower link.netloc = origin).map fun link =>
        { link with fragment := none }

/-- A link of the home page: its parameters are tested, or it is visited later. -/
def seeLink (crawl : Crawl) (link : Url) : Crawl :=
  if link ∈ crawl.visited then crawl
  else if link.query.isSome then
    { crawl with
      visited := link :: crawl.visited
      targets := crawl.targets ++ collectParams link }
  else { crawl with toVisit := crawl.toVisit ++ [link] }

/-- A link of a crawled page: only its parameters count. -/
def seeSub (crawl : Crawl) (link : Url) : Crawl :=
  if link ∉ crawl.visited ∧ link.query.isSome then
    { crawl with
      visited := link :: crawl.visited
      targets := crawl.targets ++ collectParams link }
  else crawl

/-- Visit one page, if it is new and there are pages left. -/
def visitPage (services : Services) (site : Site) (origin : Text) (maxPages : Nat)
    (state : Crawl × Nat) (link : Url) : Logged Request (Crawl × Nat) :=
  if maxPages ≤ state.2 ∨ link ∈ state.1.visited then return state
  else do
    let crawl := { state.1 with visited := link :: state.1.visited }
    match ← get site .page false link with
    | none => return (crawl, state.2)
    | some (url, response) =>
        if response.status = 200 ∧ "text/html".toList <:+: response.contentType then
          let crawl := { crawl with targets := crawl.targets ++ collectParams url }
          match collectLinks services response.text url origin with
          | none => return (crawl, state.2 + 1)
          | some links => return (links.foldl seeSub crawl, state.2 + 1)
        else return (crawl, state.2 + 1)

/-- `_discover`; nothing when a link of the home page cannot be read. -/
def discover (services : Services) (site : Site) (base : Url) (html : Text) (origin : Text)
    (maxPages : Nat) : Logged Request (Option (List Target)) :=
  match collectLinks services html base origin with
  | none => return none
  | some links => do
      let crawl := links.foldl seeLink
        { visited := [base], toVisit := [], targets := collectParams base }
      let (crawl, _) ←
        Logged.fold (visitPage services site origin maxPages) (crawl, 0) crawl.toVisit
      return some (fromKeys crawl.targets)

/-! ## Probes -/

inductive Probe where
  | xss
  | openRedirect
  | sqliError

structure Finding where
  type : Text
  url : Url
  param : Text
  evidence : Text

def redirectTarget : Text := "https://domainlens-redirect-check.invalid/landing".toList

def redirectHost : Text := "domainlens-redirect-check.invalid".toList

def Probe.value (token : Text) : Probe → Text
  | .xss => "\"'<svg onload=npx".toList ++ token ++ ['>']
  | .openRedirect => redirectTarget
  | .sqliError => "domainlens'\"".toList

def Probe.allowRedirects : Probe → Bool
  | .xss => true
  | .openRedirect => false
  | .sqliError => true

/-- What a probe finds in the response. -/
def Probe.finding (services : Services) (token : Text) (url : Url) (param : Text)
    (response : Response) : Probe → Option Finding
  | .xss =>
      let marker := "<svg onload=npx".toList ++ token ++ ['>']
      if marker <:+: response.text then
        some
          { type := "reflected_xss".toList
            url := url
            param := param
            evidence := "Unescaped marker \x60".toList ++ marker ++
              "\x60 reflected verbatim in the response body.".toList }
      else none
  | .openRedirect =>
      let body := response.text.take 4000
      if response.status ∈ [301, 302, 303, 307, 308] ∧ redirectHost <:+: response.location then
        some
          { type := "open_redirect".toList
            url := url
            param := param
            evidence := "HTTP ".toList ++ strOf response.status ++
              " redirected to attacker-controlled value: ".toList ++ response.location }
      else if redirectHost <:+: body ∧
          ("meta".toList <:+: lower body ∧ "refresh".toList <:+: lower body ∨
            "location.href".toList <:+: body ∨ "location.replace".toList <:+: body) then
        some
          { type := "open_redirect".toList
            url := url
            param := param
            evidence := ("Attacker-controlled value reflected into a client-side "
              ++ "redirect (meta-refresh or location.href).").toList }
      else none
  | .sqliError =>
      (services.sqlError response.text).map fun found =>
        { type := "sqli_error_based".toList
          url := url
          param := param
          evidence := "Database error signature triggered by a single-quote probe: \"".toList ++
            found.take 120 ++ ['"'] }

/-- `_probe_xss`, `_probe_open_redirect` and `_probe_sqli_error`. -/
def runProbe (services : Services) (site : Site) (token : Text) (target : Target) (probe : Probe) :
    Logged Request (Option Finding) := do
  let value := probe.value token
  let answer ← get site (.probe value) probe.allowRedirects
    (setParam services target.1 target.2 value)
  return answer.bind fun answer => probe.finding services token target.1 target.2 answer.2

/-! ## The scan -/

/-- The settings of the scan that decide what it sends. -/
structure Settings where
  enabled : Bool
  maxRequests : Int
  maxPages : Int
  includeHttp : Bool
  extraParams : List Text

structure Progress where
  attempts : Nat
  capped : Bool
  pagesTested : List Url
  findings : List Finding

structure Report where
  baseUrl : Url
  targetsDiscovered : Nat
  pagesCrawled : Nat
  attempts : Nat
  capped : Bool
  findings : List Finding

inductive Outcome where
  | notVerified
  | disabled
  | failed (error : Text)
  | raised
  | finished (report : Report)

def commonRedirectParams : List Text :=
  ["redirect", "redirect_uri", "redirect_url", "url", "next", "return", "returnurl", "return_url",
    "continue", "dest", "destination", "target", "out", "view", "r", "goto", "forward"].map
    String.toList

/-- The home page, over the first scheme that answers. -/
def home (services : Services) (site : Site) (domain : Text) :
    List Text → Logged Request (Option (Url × Response))
  | [] => return none
  | scheme :: schemes => do
      match ← get site .home true (services.homeUrl scheme domain) with
      | some answer => return some answer
      | none => home services site domain schemes

/-- One probe of a target, unless the ceiling is reached. -/
def attempt (services : Services) (site : Site) (maxRequests : Nat) (target : Target)
    (progress : Progress) (probe : Probe) : Logged Request Progress :=
  if maxRequests ≤ progress.attempts then return { progress with capped := true }
  else do
    let hit ← runProbe services site (services.token progress.attempts) target probe
    return { progress with
      attempts := progress.attempts + 1
      findings := progress.findings ++ hit.toList }

/-- All probes of a target, unless the ceiling is reached. -/
def attemptTarget (services : Services) (site : Site) (maxRequests : Nat) (progress : Progress)
    (target : Target) : Logged Request Progress :=
  if maxRequests ≤ progress.attempts then return { progress with capped := true }
  else
    Logged.fold (attempt services site maxRequests target)
      { progress with pagesTested := progress.pagesTested ++ [target.1] }
      [.xss, .openRedirect, .sqliError]

/-- The crawl and the probes, from the home page on. -/
def probeSite (services : Services) (site : Site) (settings : Settings) (base : Url) (html : Text) :
    Logged Request Outcome := do
  let maxRequests := (max 1 settings.maxRequests).toNat
  match ← discover services site base html (lower base.netloc) settings.maxPages.toNat with
  | none => return .raised
  | some discovered => do
      let extra := if settings.extraParams = [] then commonRedirectParams
        else settings.extraParams
      let targets := fromKeys (discovered ++ extra.map fun param => (base, param))
      let progress ← Logged.fold (attemptTarget services site maxRequests)
        { attempts := 0, capped := false, pagesTested := [], findings := [] } targets
      return .finished
        { baseUrl := base
          targetsDiscovered := targets.length
          pagesCrawled := (fromKeys progress.pagesTested).length
          attempts := progress.attempts
          capped := progress.capped
          findings := progress.findings }

/-- `scan`. -/
def scan (services : Services) (site : Site) (domain : Text) (settings : Settings) :
    Logged Request Outcome :=
  if !settings.enabled then return .disabled
  else if !safeHost site domain then
    return .failed "Host does not resolve to a public address".toList
  else do
    let schemes := "https".toList :: if settings.includeHttp then ["http".toList] else []
    match ← home services site domain schemes with
    | none => return .failed "No HTTP response from target".toList
    | some (base, response) => probeSite services site settings base response.text

/-- `check_active_scan`. -/
def checkActiveScan (services : Services) (register : Register) (site : Site) (domain : Text)
    (settings : Settings) : Logged Request Outcome :=
  if settings.enabled ∧ !isVerified register domain then return .notVerified
  else scan services site domain settings

end ActiveScan
end DomainLens
