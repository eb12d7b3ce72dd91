import DomainLens.Python.Text

/-!
# Registered domains

A registry registers names at the second level, and below some of them at the third.
-/

namespace DomainLens
namespace DomainPortfolio

open Python

/-- `_SECOND_LEVEL`. -/
def secondLevel : List Text :=
  ["co.uk", "org.uk", "me.uk", "ltd.uk", "plc.uk", "net.uk", "ac.uk", "gov.uk",
    "com.au", "net.au", "org.au", "edu.au", "gov.au", "co.nz", "net.nz", "org.nz",
    "co.za", "org.za", "com.br", "net.br", "org.br", "co.jp", "ne.jp", "or.jp",
    "com.tr", "com.cn", "net.cn", "org.cn", "com.mx", "co.in", "net.in", "org.in",
    "com.sg", "com.hk", "co.il", "co.kr", "com.ar", "com.pl", "co.at", "or.at",
    "com.es", "com.pt"].map String.toList

def labelsOf (domain : Text) : List Text := domain.splitOn '.'

def nameOf (labels : List Text) : Text := ['.'].intercalate labels

def lastLabels (count : Nat) (labels : List Text) : List Text :=
  labels.drop (labels.length - count)

/-- `registrable`. -/
def registrable (domain : Text) : Text :=
  let parts := labelsOf domain
  if 3 ≤ parts.length ∧ nameOf (lastLabels 2 parts) ∈ secondLevel then nameOf (lastLabels 3 parts)
  else nameOf (lastLabels 2 parts)

example : registrable "shop.example.nl".toList = "example.nl".toList := by decide

/-! ## Domain names in a text -/

/-- A label of `_DOMAIN_RE`. -/
def isLabel (label : Text) : Bool :=
  let letter (char : Char) : Bool := char.isLower || char.isDigit
  label.length ≤ 63 && label.head?.any letter && label.getLast?.any letter &&
    label.all fun char => letter char || char == '-'

/-- The last label of `_DOMAIN_RE`. -/
def isTopLabel (label : Text) : Bool :=
  2 ≤ label.length && label.length ≤ 63 && label.all Char.isLower

/-- `_DOMAIN_RE`. -/
def isDomainName (text : Text) : Bool :=
  text.length ≤ 253 && 2 ≤ (labelsOf text).length && (labelsOf text).dropLast.all isLabel &&
    (labelsOf text).getLast?.any isTopLabel

end DomainPortfolio
end DomainLens
