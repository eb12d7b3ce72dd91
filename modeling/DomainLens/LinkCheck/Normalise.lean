import DomainLens.Python.UrlParse

/-!
# Links in the form they are compared in

A link is taken apart and put together again, with its scheme and its host in lower case, without its
fragment, and without a port that is the default of a scheme.  The links of a list are read from its lines.
-/

namespace DomainLens
namespace LinkCheck

open Python Python.UrlParse

/-- The tables of Unicode that are read; IDNA writes a name in ASCII, or not at all. -/
structure Unicode where
  nfkc : Text → Text
  idna : Text → Option Text
  isAscii_idna : ∀ {name encoded : Text}, idna name = some encoded → isAscii encoded = true

variable (unicode : Unicode)

/-! ## One link -/

/-- `.lower().rstrip(".")`. -/
def lowered (hostname : Text) : Text := (lower hostname).rdropWhile (· = '.')

/-- The host in ASCII, or as it is where IDNA does not write it. -/
def encoded (host : Text) : Text :=
  if host ≠ [] ∧ isAscii host = false then (unicode.idna host).getD host else host

/-- `f":{parts.port}" if parts.port and parts.port not in (80, 443) else ""`. -/
def portText : Option Nat → Text
  | none => []
  | some port => if port ≠ 0 ∧ port ∉ [80, 443] then ':' :: strOf port else []

/-- `parts.path or "/"`. -/
def orRoot (path : Text) : Text := if path = [] then ['/'] else path

/-- `normalise`, unless it ends with a `ValueError`. -/
def normalise (url : Text) : Option Text :=
  (urlsplit unicode.nfkc (strip url)).bind fun parts =>
    (port parts.netloc).map fun port =>
      let host := encoded unicode (lowered (hostname parts.netloc))
      urlunsplit ⟨lower parts.scheme, host ++ portText port, orRoot parts.path, parts.query, []⟩

/-- `host_of`. -/
def hostOf (url : Text) : Option Text :=
  (urlsplit unicode.nfkc url).map fun parts => lowered (hostname parts.netloc)

/-! ## Lists of links -/

/-- `https?://[^\s\",]+` at the start of a text. -/
def linkAt (text : Text) : Option Text :=
  let scheme := if "https://".toList <+: text then "https://".toList else "http://".toList
  let rest := (text.drop scheme.length).takeWhile fun char =>
    !(isSpace char || char = '"' || char = ',')
  if scheme <+: text ∧ rest ≠ [] then some (scheme ++ rest) else none

/-- `_feed_lines`. -/
def feedLines (text : Text) : List Text :=
  (splitLines text).filterMap fun line =>
    let line := strip line
    if line = [] ∨ line.head? = some '#' then none else line.tails.findSome? linkAt

/-- `_FEED_MAX_ENTRIES`. -/
def feedMaxEntries : Nat := 3000000

/-- The rows of `refresh` for the list of a name, unless one of them ends with a `ValueError`; `digest` is
the SHA-256 of a text. -/
def feedRows (digest : Text → Text) (name text : Text) : Option (List (Text × Text × Text)) :=
  ((feedLines text).take feedMaxEntries).mapM fun listed =>
    (normalise unicode listed).bind fun normal =>
      (hostOf unicode listed).map fun host => (digest normal, host, name)

/-! ## What a link names -/

def defaultPort (scheme : Text) : Option Nat :=
  if scheme = "http".toList ∨ scheme = "ws".toList then some 80
  else if scheme = "https".toList ∨ scheme = "wss".toList then some 443
  else none

/-- What a link names: an address in brackets is no name, and an empty path is `/`. -/
structure Resource where
  scheme : Text
  literal : Bool
  host : Text
  port : Option Nat
  path : Text
  query : Text
deriving DecidableEq

/-- What a link names, where it can be read. -/
def resource (url : Text) : Option Resource :=
  (urlsplit unicode.nfkc (strip url)).bind fun parts =>
    (port parts.netloc).map fun port =>
      { scheme := parts.scheme
        literal := (hostinfo parts.netloc).1
        host := encoded unicode (lowered (hostname parts.netloc))
        port := port.or (defaultPort parts.scheme)
        path := orRoot parts.path
        query := parts.query }

end LinkCheck
end DomainLens
