import DomainLens.Python.Text
import Mathlib

/-!
# Proofs of ownership

An active test runs only against a domain that is covered by a verified entry which has not
expired.  Verifying a domain covers the names below it.
-/

namespace DomainLens
namespace Ownership

open Python

/-- The columns of `verified_domains` that decide whether a proof stands. -/
structure Entry where
  domain : Text
  status : Text
  method : Option Text
  verifiedAt : Option Text

/-- The stored entries, the clock in microseconds, `max_age_days`, and `datetime.fromisoformat`. -/
structure Register where
  entries : List Entry
  now : Int
  maxAgeDays : Int
  fromisoformat : Text → Option Int

def microsecondsPerDay : Int := 24 * 60 * 60 * 1000000

def normalize (domain : Text) : Text := (lower (strip domain)).rdropWhile (· = '.')

/-- `_is_expired`. -/
def isExpired (register : Register) (entry : Entry) : Bool :=
  if entry.status ≠ "verified".toList ∨ entry.method = some "admin".toList then false
  else if register.maxAgeDays ≤ 0 then false
  else
    match entry.verifiedAt.filter (· ≠ []) with
    | none => false
    | some verifiedAt =>
        match register.fromisoformat verifiedAt with
        | none => true
        | some verified => register.now - verified > register.maxAgeDays * microsecondsPerDay

/-- `_candidates`: the domain and those it lies below, down to two labels. -/
def candidates (domain : Text) : List Text :=
  let labels := (normalize domain).splitOn '.'
  (List.range (labels.length - 1)).map fun start => ['.'].intercalate (labels.drop start)

/-- `verification_for`: the entry that covers a domain, the longest one first. -/
def verificationFor (register : Register) (domain : Text) : Option Entry :=
  let rows := register.entries.filter fun entry =>
    entry.status = "verified".toList ∧ entry.domain ∈ candidates domain
  (rows.insertionSort fun left right => right.domain.length ≤ left.domain.length).find?
    fun entry => !isExpired register entry

/-- `is_verified`. -/
def isVerified (register : Register) (domain : Text) : Bool :=
  (verificationFor register domain).isSome

end Ownership
end DomainLens
