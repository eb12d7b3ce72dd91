import Mathlib

/-!
# References as browsers resolve them

A browser resolves a reference against the page it is on.  The file follows the states of the URL
standard as far as the origin of the result, with the host parser as a parameter, and settles which
references stay on the origin of the page.
-/

namespace DomainLens
namespace Url

/-- The origin of a page.  The default port of its scheme is `none`. -/
structure Origin where
  scheme : List Char
  host : List Char
  port : Option Nat
deriving DecidableEq

/-! ## Characters -/

def isBlank (char : Char) : Bool := char.toNat ≤ 32

def isSkipped (char : Char) : Bool := char == '\t' || char == '\n' || char == '\r'

/-- What separates parts of an address with a special scheme. -/
def isSlash (char : Char) : Bool := char == '/' || char == '\\'

def isSchemeChar (char : Char) : Bool :=
  char.isAlphanum || char == '+' || char == '-' || char == '.'

/-- A reference without the blanks around it and the tabs and newlines in it. -/
def clean (reference : List Char) : List Char :=
  ((reference.dropWhile isBlank).rdropWhile isBlank).filter (!isSkipped ·)

/-! ## Schemes -/

/-- The port a special scheme has by default. -/
def defaultPort (scheme : List Char) : Option Nat :=
  if scheme = "http".toList ∨ scheme = "ws".toList then some 80
  else if scheme = "https".toList ∨ scheme = "wss".toList then some 443
  else if scheme = "ftp".toList then some 21
  else none

/-- Scheme start state and scheme state: the scheme, and what follows its colon. -/
def schemeOf : List Char → Option (List Char × List Char)
  | [] => none
  | first :: rest =>
      if first.isAlpha then
        match rest.dropWhile isSchemeChar with
        | ':' :: after => some ((first :: rest.takeWhile isSchemeChar).map Char.toLower, after)
        | _ => none
      else none

/-! ## Authorities -/

/-- Host state: a host ends at the first colon outside brackets. -/
def splitPort : Bool → List Char → List Char × List Char
  | _, [] => ([], [])
  | inside, char :: rest =>
      if char = ':' ∧ inside = false then ([], rest)
      else
        let parts := splitPort (char == '[' || inside && char != ']') rest
        (char :: parts.1, parts.2)

def portOf (scheme digits : List Char) : Option (Option Nat) :=
  let value := digits.foldl (fun value char => 10 * value + (char.toNat - 48)) 0
  if !digits.all Char.isDigit || 65535 < value then none
  else if digits = [] ∨ defaultPort scheme = some value then some none
  else some (some value)

variable (hostOf : List Char → Option (List Char))

/-- Special authority ignore slashes state and authority state. -/
def authority (scheme reference : List Char) : Option Origin :=
  let named := (reference.dropWhile isSlash).takeWhile fun char =>
    !(isSlash char || char == '?' || char == '#')
  let parts := splitPort false (named.rtakeWhile (· ≠ '@'))
  if parts.1 = [] then none
  else (hostOf parts.1).bind fun host => (portOf scheme parts.2).map fun port => ⟨scheme, host, port⟩

/-! ## References -/

/-- Whether a reference without a scheme names an authority. -/
def namesAuthority : List Char → Bool
  | first :: second :: _ => isSlash first && isSlash second
  | _ => false

/-- Relative state and relative slash state. -/
def relative (base : Origin) (reference : List Char) : Option Origin :=
  if namesAuthority reference then authority hostOf base.scheme reference else some base

/-- The origin a reference has on a page with a special scheme; none where there is no address, or one
whose origin is opaque. -/
def resolve (base : Origin) (reference : List Char) : Option Origin :=
  match schemeOf (clean reference) with
  | none => relative hostOf base (clean reference)
  | some (scheme, after) =>
      if scheme = base.scheme then relative hostOf base after
      else if (defaultPort scheme).isSome then authority hostOf scheme after
      else none

/-- What a reference has after the scheme of the page, which it may leave out; none where it names
another scheme. -/
def afterScheme (base : Origin) (reference : List Char) : Option (List Char) :=
  match schemeOf (clean reference) with
  | none => some (clean reference)
  | some (scheme, after) => if scheme = base.scheme then some after else none

/-- A reference that names no other scheme, and no authority but that of the page. -/
def Stays (base : Origin) (reference : List Char) : Prop :=
  ∃ after, afterScheme base reference = some after ∧
    (namesAuthority after = true → authority hostOf base.scheme after = some base)

theorem scheme_of_authority {scheme reference : List Char} {origin : Origin}
    (named : authority hostOf scheme reference = some origin) : origin.scheme = scheme := by
  simp only [authority] at named
  split at named
  · cases named
  · obtain ⟨host, -, rest⟩ := Option.bind_eq_some_iff.mp named
    obtain ⟨port, -, rfl⟩ := Option.map_eq_some_iff.mp rest
    rfl

theorem relative_eq_base_iff {base : Origin} {reference : List Char} :
    relative hostOf base reference = some base ↔
      (namesAuthority reference = true → authority hostOf base.scheme reference = some base) := by
  unfold relative
  split
  · rename_i names
    exact ⟨fun same _ => same, fun same => same names⟩
  · rename_i names
    exact ⟨fun _ named => absurd named names, fun _ => rfl⟩

theorem resolve_eq_base_iff {base : Origin} {reference : List Char} :
    resolve hostOf base reference = some base ↔ Stays hostOf base reference := by
  unfold resolve Stays afterScheme
  cases schemeOf (clean reference) with
  | none => simp [relative_eq_base_iff]
  | some parts =>
      obtain ⟨scheme, after⟩ := parts
      by_cases same : scheme = base.scheme
      · simp [same, relative_eq_base_iff]
      · have elsewhere : authority hostOf scheme after ≠ some base := by
          intro named
          exact same (scheme_of_authority hostOf named).symm
        simp [same, elsewhere]

theorem stays_root (base : Origin) : Stays hostOf base ['/'] := by
  have same : clean ['/'] = ['/'] := by decide
  exact ⟨['/'], by rw [afterScheme, same]; rfl, fun names => nomatch names⟩

end Url
end DomainLens
